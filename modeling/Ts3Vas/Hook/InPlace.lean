/-
Reallocations that must not move the block. A reallocation hook takes one of four paths; only one of
them hands the caller's HEAP_REALLOC_IN_PLACE_ONLY on.
-/
import Ts3Vas.Hook.Fallback
import Ts3Vas.Hook.Robin
import Ts3Vas.Hook.Audio

namespace Ts3Vas

open Prog

variable {σ : Type}

def HEAP_REALLOC_IN_PLACE_ONLY : ℕ := 0x10

/-- The block is where it was, or the call has failed. -/
def Stays (p r : ℕ) : Prop := r = 0 ∨ r = p

instance decidableStays (p r : ℕ) : Decidable (Stays p r) := inferInstanceAs (Decidable (_ ∨ _))

/-- As documented, the heap functions do not move a block when they are given the flag. -/
structure HonoursInPlace (env : Env σ) : Prop where
  rtlReAllocateHeap : ∀ heap flags p size w, hasFlag flags HEAP_REALLOC_IN_PLACE_ONLY = true →
    Stays p (exec (env.real (.rtlReAllocateHeap heap flags p size)) w).1.value
  heapReAlloc : ∀ heap flags p size w, hasFlag flags HEAP_REALLOC_IN_PLACE_ONLY = true →
    Stays p (exec (env.real (.heapReAlloc heap flags p size)) w).1.value

/-! ## The four paths -/

/-- Where a reallocation hook takes a block. -/
inductive ReAllocPath
  /-- `ProxyHeapReAlloc`, on the shard that holds the block. -/
  | shard (s : Shard)
  /-- The slot is given up for a new block. -/
  | arena
  /-- A block of the heap is captured. -/
  | capture
  /-- The `Real_*` function, with the caller's flags. -/
  | heap
  deriving DecidableEq, Repr

/-- The path leaves the block in its place if it is asked to. -/
def ReAllocPath.KeepsPlace : ReAllocPath → Prop
  | shard s => s.handle = 0
  | heap => True
  | arena | capture => False

instance ReAllocPath.decidableKeepsPlace : (r : ReAllocPath) → Decidable r.KeepsPlace
  | shard s => inferInstanceAs (Decidable (s.handle = 0))
  | heap => inferInstanceAs (Decidable True)
  | arena | capture => inferInstanceAs (Decidable False)

/-- The owner of the block, for a block that a shard or the arena owns. -/
def Tool.reAllocPath (t : Tool) (p : ℕ) : Option ReAllocPath :=
  match proxyHeapShardOf t p with
  | some s => some (.shard s)
  | none => if p ≠ 0 ∧ t.memManager ∧ isProxyAddress t p then some .arena else none

namespace World

/-- The arena branch of `Hooked_HeapReAlloc` is open, and a capture has a slot to commit. -/
def captures (w : World σ) (caller : Caller) (size : ℕ) : Bool :=
  !w.closed && w.tool.resolved .heapReAlloc && forceGate w.tool size && decide (slotFor w.tool caller.self size ≠ 0)

/-- The path of `Hooked_HeapReAlloc`. -/
def heapReAllocPath (w : World σ) (caller : Caller) (p size : ℕ) : ReAllocPath :=
  (w.tool.reAllocPath p).getD (if w.captures caller size then .capture else .heap)

/-- The path of `Hooked_RtlReAllocateHeap`. -/
def rtlReAllocateHeapPath (w : World σ) (p : ℕ) : ReAllocPath :=
  if w.rtlReAllocateClosed then .heap else (w.tool.reAllocPath p).getD .heap

end World

/-- A block has an owner of the tool, or no branch of the tool takes it. -/
theorem reAllocPath_cases (t : Tool) (p : ℕ) :
    (∃ s, t.reAllocPath p = some (.shard s) ∧ proxyHeapShardOf t p = some s ∧ p ≠ 0) ∨
    (t.reAllocPath p = some .arena ∧ proxyHeapShardOf t p = none ∧ p ≠ 0 ∧ t.memManager ∧ isProxyAddress t p) ∨
    (t.reAllocPath p = none ∧ proxyHeapShardOf t p = none ∧ ¬ (p ≠ 0 ∧ t.memManager ∧ isProxyAddress t p)) := by
  unfold Tool.reAllocPath
  cases hs : proxyHeapShardOf t p with
  | some s =>
    refine .inl ⟨s, rfl, rfl, ?_⟩
    rintro rfl
    simp [proxyHeapShardOf] at hs
  | none =>
    by_cases ha : p ≠ 0 ∧ t.memManager ∧ isProxyAddress t p
    · exact .inr (.inl ⟨if_pos ha, rfl, ha⟩)
    · exact .inr (.inr ⟨if_neg ha, rfl, ha⟩)

/-! ## What each path returns -/

section
variable {env : Env σ} {caller : Caller} {heap flags p size : ℕ} {w : World σ}

/-- A dead shard gives null. -/
theorem proxyHeapReAlloc_dead {s : Shard} (hs : proxyHeapShardOf w.tool p = some s) (h0 : s.handle = 0) :
    (exec (proxyHeapReAlloc env flags p size) w).1 = 0 := by
  have hdead : shardHandleLive env s.handle w = false := by simp [shardHandleLive, h0]
  unfold proxyHeapReAlloc
  rw [exec_bind, exec_get, hs]
  simp [hdead]

/-- What the last branch of `Hooked_HeapReAlloc` returns: the captured slot, or the heap's answer. -/
theorem hookedHeapReAlloc_open (env : Env σ) (caller : Caller) (heap flags size : ℕ) (hn : w.tool.reAllocPath p = none) (ho : w.closed = false)
    (hr : w.tool.resolved .heapReAlloc = true) :
    ∃ v u, v.thread.hookActive = true ∧ v.tool = w.tool ∧
      (exec (hookedHeapReAlloc env caller heap flags p size) w).1 =
        if (exec (attempt (forceGate w.tool size) (createProxyAllocation env caller size PAGE_READWRITE)) v).1 = 0
        then (exec (env.real (.heapReAlloc heap flags p size)) u).1.value
        else (exec (attempt (forceGate w.tool size) (createProxyAllocation env caller size PAGE_READWRITE)) v).1 := by
  obtain ⟨s, e, -⟩ | ⟨e, -⟩ | ⟨-, hs, ha⟩ := reAllocPath_cases w.tool p
  · rw [hn] at e
    cases e
  · rw [hn] at e
    cases e
  obtain ⟨th, th', hact, e⟩ := exec_scoped (do
    let w ← get
    let q ← attempt (forceGate w.tool size) (forceReAlloc env caller heap flags p size)
    orElse q (callValue env (.heapReAlloc heap flags p size))) w
  refine ⟨{ w with thread := th }, (exec (attempt (forceGate w.tool size) (forceReAlloc env caller heap flags p size))
    { w with thread := th }).2, hact, rfl, ?_⟩
  have hopen : (w.closed || !w.tool.resolved .heapReAlloc) = false := by simp [ho, hr]
  -- the block is freed after the capture, with no influence on what is returned
  have hforce : (exec (attempt (forceGate w.tool size) (forceReAlloc env caller heap flags p size)) { w with thread := th }).1 =
      (exec (attempt (forceGate w.tool size) (createProxyAllocation env caller size PAGE_READWRITE)) { w with thread := th }).1 := by
    rw [attempt, attempt, exec_ite, exec_ite]
    by_cases hg : forceGate w.tool size = true
    · rw [if_pos hg, if_pos hg, forceReAlloc, exec_bind, exec_ite]
      split <;> rfl
    · rw [if_neg hg, if_neg hg]
  unfold hookedHeapReAlloc
  rw [exec_bind, exec_get, hs, if_neg (by simp), if_neg ha, hopen, if_neg Bool.false_ne_true]
  apply (congrArg Prod.fst e).trans
  rw [exec_bind, exec_get, exec_bind, hforce, orElse, exec_ite]
  split <;> rfl

/-! ## Blocks that stay -/

/-- The heap's own path keeps the block in its place. -/
theorem HonoursInPlace.heapReAlloc_heap (h : HonoursInPlace env) (hf : hasFlag flags HEAP_REALLOC_IN_PLACE_ONLY = true)
    (hp : w.heapReAllocPath caller p size = .heap) :
    Stays p (exec (hookedHeapReAlloc env caller heap flags p size) w).1 := by
  unfold World.heapReAllocPath at hp
  obtain ⟨s, e, -⟩ | ⟨e, -⟩ | ⟨hn, hs, ha⟩ := reAllocPath_cases w.tool p
  · rw [e] at hp
    cases hp
  · rw [e] at hp
    cases hp
  rw [hn, Option.getD_none] at hp
  by_cases ho : (w.closed || !w.tool.resolved .heapReAlloc) = true
  · -- the guard passes the call on, flags and all
    unfold hookedHeapReAlloc
    rw [exec_bind, exec_get, hs, if_neg (by simp), if_neg ha, if_pos ho, exec_ite]
    split
    · exact h.heapReAlloc heap flags p size w hf
    · exact .inl rfl
  simp only [Bool.or_eq_true, Bool.not_eq_true', not_or, Bool.not_eq_true, Bool.not_eq_false] at ho
  obtain ⟨v, u, hact, htool, e⟩ := hookedHeapReAlloc_open env caller heap flags size hn ho.1 ho.2
  -- nothing can be captured, so the heap is asked
  have hnone : (exec (attempt (forceGate w.tool size) (createProxyAllocation env caller size PAGE_READWRITE)) v).1 = 0 := by
    rw [attempt, exec_ite]
    by_cases hg : forceGate w.tool size = true
    · have hslot : slotFor v.tool caller.self size = 0 := by
        rw [htool]
        by_contra hne
        simp [World.captures, ho.1, ho.2, hg, hne] at hp
      obtain ⟨x, e⟩ := createProxyAllocation_value env hact caller size PAGE_READWRITE
      rw [if_pos hg, e, if_pos hslot]
    · rw [if_neg hg]
      rfl
  rw [e, if_pos hnone]
  exact h.heapReAlloc heap flags p size u hf

theorem HonoursInPlace.rtlReAllocateHeap_heap (h : HonoursInPlace env) (hf : hasFlag flags HEAP_REALLOC_IN_PLACE_ONLY = true)
    (hp : w.rtlReAllocateHeapPath p = .heap) :
    Stays p (exec (hookedRtlReAllocateHeap env caller heap flags p size) w).1 := by
  unfold World.rtlReAllocateHeapPath at hp
  unfold hookedRtlReAllocateHeap
  rw [exec_bind, exec_get, ← World.rtlReAllocateClosed]
  by_cases hc : w.rtlReAllocateClosed = true
  · rw [if_pos hc]
    exact h.rtlReAllocateHeap heap flags p size w hf
  rw [if_neg hc] at hp ⊢
  obtain ⟨s, e, -⟩ | ⟨e, -⟩ | ⟨hn, hs, ha⟩ := reAllocPath_cases w.tool p
  · rw [e] at hp
    cases hp
  · rw [e] at hp
    cases hp
  rw [hs, if_neg (by simp), if_neg fun hm => ha ⟨hm.2.1, hm.1, hm.2.2⟩]
  obtain ⟨th, th', -, e⟩ := exec_scoped (callValue env (.rtlReAllocateHeap heap flags p size)) w
  refine (congrArg (fun r => Stays p r.1) e).mpr ?_
  exact h.rtlReAllocateHeap heap flags p size { w with thread := th } hf

/-! ## Blocks that move -/

/-- Heaps that give `q` for any block that may move, over pages that are committed if `commits`. -/
def Outcomes.moving (q : ℕ) (commits : Bool) : Outcomes where
  reply c := ⟨match c with
    | .rtlReAllocateHeap _ flags _ _ | .heapReAlloc _ flags _ _ => if hasFlag flags HEAP_REALLOC_IN_PLACE_ONLY then 0 else q
    | .virtualAlloc addr .. => if commits then addr else 0
    | _ => q, 0, 0⟩
  live _ := true
  stray _ := 0

theorem honours_moving (q : ℕ) (commits : Bool) : HonoursInPlace (Env.fixed (.moving q commits) : Env σ) := by
  constructor
  · intro heap flags p size w hf
    exact .inl (if_pos hf)
  · intro heap flags p size w hf
    exact .inl (if_pos hf)

/-- `flags & HEAP_ZERO_MEMORY` asks for nothing else. -/
theorem hasFlag_zeroMemory (flags : ℕ) : hasFlag (flags &&& HEAP_ZERO_MEMORY) HEAP_REALLOC_IN_PLACE_ONLY = false := by
  simp [hasFlag, Nat.and_assoc, HEAP_ZERO_MEMORY, HEAP_REALLOC_IN_PLACE_ONLY]

/-- A shard's heap is not told to keep the place. -/
theorem proxyHeapReAlloc_moving {s : Shard} (hs : proxyHeapShardOf w.tool p = some s) (h0 : s.handle ≠ 0) (q : ℕ) (commits : Bool) :
    (exec (proxyHeapReAlloc (Env.fixed (.moving q commits) : Env σ) flags p size) w).1 = q := by
  have hlive : shardHandleLive (Env.fixed (.moving q commits) : Env σ) s.handle w = true := by
    simp [shardHandleLive, h0, Env.fixed, Outcomes.moving]
  unfold proxyHeapReAlloc
  rw [exec_bind, exec_get, hs]
  dsimp only
  rw [if_pos hlive]
  obtain ⟨v, -, e, -⟩ := exec_proxyHeapHookScope_fixed
    (callValue (Env.fixed (.moving q commits) : Env σ) (.rtlReAllocateHeap s.handle (flags &&& HEAP_ZERO_MEMORY) p size)) w
  rw [e, exec_callValue_fixed]
  simp [Outcomes.moving, hasFlag_zeroMemory]

/-- Without a commit there is no capture. -/
theorem createProxyAllocation_moving (q protect : ℕ) :
    (exec (createProxyAllocation (Env.fixed (.moving q false) : Env σ) caller size protect) w).1 = 0 := by
  have hcommit : ∀ a n r (w : World σ), (exec (commitSlot (Env.fixed (.moving q false)) a n r) w).1 = 0 := by
    intro a n r w
    unfold commitSlot forward
    rw [exec_bind, exec_get, exec_ite, exec_ite]
    split_ifs <;> rfl
  unfold createProxyAllocation
  generalize (if protect = 0 then PAGE_READWRITE else protect) = r
  rw [exec_bind, exec_get, exec_ite, exec_ite, exec_bind, exec_ite, exec_ite, exec_bind, exec_bind, exec_ite,
    if_pos (hcommit ..)]
  split_ifs <;> rfl

/-- A slot is given up for any block that the heap has. -/
theorem arenaReAlloc_moving {q : ℕ} (hq : q ≠ 0) {fallback : RealCall} (hf : ((Outcomes.moving q false).reply fallback).value = q) :
    (exec (arenaReAlloc (Env.fixed (.moving q false) : Env σ) caller fallback p size) w).1 = q := by
  have hnone : (exec (attempt (capturable w.tool size && w.tool.proxyActive && !w.tool.shuttingDown)
      (createProxyAllocation (Env.fixed (.moving q false) : Env σ) caller size PAGE_READWRITE)) w).1 = 0 := by
    rw [attempt, exec_ite]
    split
    · exact createProxyAllocation_moving q _
    · rfl
  unfold arenaReAlloc
  rw [exec_bind, exec_get, exec_bind, hnone, exec_bind, orElse, if_pos rfl, exec_callValue_fixed, hf, if_pos hq]
  rfl

/-- A slot that a capture commits is not the block it is for. -/
theorem slotFor_ne (hn : w.tool.reAllocPath p = none) (hm : forceGate w.tool size = true) (h0 : slotFor w.tool caller.self size ≠ 0) :
    slotFor w.tool caller.self size ≠ p := by
  obtain ⟨s, e, -⟩ | ⟨e, -⟩ | ⟨-, hs, ha⟩ := reAllocPath_cases w.tool p
  · rw [hn] at e
    cases e
  · rw [hn] at e
    cases e
  rintro rfl
  have hman : w.tool.memManager = true := by
    simp only [forceGate, Bool.and_eq_true] at hm
    exact hm.1.1.1
  rcases captured_slotFor h0 with ⟨-, ⟨s, hmem, hold⟩ | hin⟩
  · -- in no shard
    unfold proxyHeapShardOf at hs
    rw [if_neg h0] at hs
    have := List.find?_eq_none.1 hs s hmem
    simp [hold.1, hold.2] at this
  · exact ha ⟨h0, hman, hin⟩

theorem heapReAlloc_moves (hp : ¬ (w.heapReAllocPath caller p size).KeepsPlace) :
    ∃ env : Env σ, HonoursInPlace env ∧ ¬ Stays p (exec (hookedHeapReAlloc env caller heap flags p size) w).1 := by
  have hmoved : ¬ Stays p (p + 16) := by simp [Stays]
  unfold World.heapReAllocPath at hp
  obtain ⟨s, e, hs, h0⟩ | ⟨e, hs, ha⟩ | ⟨hn, hs, ha⟩ := reAllocPath_cases w.tool p
  · rw [e] at hp
    refine ⟨Env.fixed (.moving (p + 16) true), honours_moving _ _, ?_⟩
    rw [exec_hookedHeapReAlloc caller heap flags p size _ ⟨h0, by simp [hs]⟩, proxyHeapReAlloc_moving hs hp]
    exact hmoved
  · refine ⟨Env.fixed (.moving (p + 16) false), honours_moving _ _, ?_⟩
    unfold hookedHeapReAlloc
    rw [exec_bind, exec_get, hs, if_neg (by simp), if_pos ha, arenaReAlloc_moving (by omega) rfl]
    exact hmoved
  · rw [hn, Option.getD_none] at hp
    by_cases hc : w.captures caller size = true
    · -- the slot gets its commit
      refine ⟨Env.fixed (.moving (p + 16) true), honours_moving _ _, ?_⟩
      simp only [World.captures, Bool.and_eq_true, Bool.not_eq_true', decide_eq_true_eq] at hc
      obtain ⟨⟨⟨ho, hr⟩, hg⟩, hslot⟩ := hc
      obtain ⟨v, u, hact, htool, e⟩ := hookedHeapReAlloc_open (Env.fixed (.moving (p + 16) true) : Env σ)
        caller heap flags size hn ho hr
      obtain ⟨x, ec⟩ := createProxyAllocation_value (Env.fixed (.moving (p + 16) true) : Env σ) hact caller size PAGE_READWRITE
      have hcommit : (exec ((Env.fixed (.moving (p + 16) true) : Env σ).real (.virtualAlloc (slotFor w.tool caller.self size) size
          MEM_COMMIT PAGE_READWRITE)) x).1.value = slotFor w.tool caller.self size := rfl
      rw [htool, if_neg hslot, if_neg (by decide : PAGE_READWRITE ≠ 0), hcommit, if_neg hslot] at ec
      rw [attempt, if_pos hg, ec, if_neg hslot] at e
      rw [e]
      rintro (h | h)
      · exact hslot h
      · exact slotFor_ne hn hg hslot h
    · rw [if_neg hc] at hp
      exact absurd trivial hp

theorem rtlReAllocateHeap_moves (hp : ¬ (w.rtlReAllocateHeapPath p).KeepsPlace) :
    ∃ env : Env σ, HonoursInPlace env ∧ ¬ Stays p (exec (hookedRtlReAllocateHeap env caller heap flags p size) w).1 := by
  have hmoved : ¬ Stays p (p + 16) := by simp [Stays]
  unfold World.rtlReAllocateHeapPath at hp
  by_cases hc : w.rtlReAllocateClosed = true
  · rw [if_pos hc] at hp
    exact absurd trivial hp
  rw [if_neg hc] at hp
  obtain ⟨s, e, hs, h0⟩ | ⟨e, hs, h0, hm, ha⟩ | ⟨hn, -⟩ := reAllocPath_cases w.tool p
  · rw [e] at hp
    refine ⟨Env.fixed (.moving (p + 16) true), honours_moving _ _, ?_⟩
    rw [exec_hookedRtlReAllocateHeap caller heap flags p size _ hc ⟨h0, by simp [hs]⟩, proxyHeapReAlloc_moving hs hp]
    exact hmoved
  · refine ⟨Env.fixed (.moving (p + 16) false), honours_moving _ _, ?_⟩
    unfold hookedRtlReAllocateHeap
    rw [exec_bind, exec_get, ← World.rtlReAllocateClosed, if_neg hc, hs, if_neg (by simp), if_pos ⟨hm, h0, ha⟩,
      arenaReAlloc_moving (by omega) rfl]
    exact hmoved
  · rw [hn] at hp
    exact absurd trivial hp

/-- The path of `HeapReAlloc` that keeps the place is the heap's, or that of a shard without a heap. -/
theorem HonoursInPlace.heapReAlloc_stays (h : HonoursInPlace env) (hf : hasFlag flags HEAP_REALLOC_IN_PLACE_ONLY = true)
    (hp : (w.heapReAllocPath caller p size).KeepsPlace) :
    Stays p (exec (hookedHeapReAlloc env caller heap flags p size) w).1 := by
  cases hpath : w.heapReAllocPath caller p size with
  | heap => exact h.heapReAlloc_heap hf hpath
  | arena | capture =>
    rw [hpath] at hp
    exact absurd hp id
  | shard s =>
    rw [hpath] at hp
    unfold World.heapReAllocPath at hpath
    obtain ⟨s', e, hs, h0⟩ | ⟨e, -⟩ | ⟨e, -⟩ := reAllocPath_cases w.tool p
    · rw [e] at hpath
      cases hpath
      rw [exec_hookedHeapReAlloc]
      · exact .inl (proxyHeapReAlloc_dead hs hp)
      · exact ⟨h0, by simp [hs]⟩
    · rw [e] at hpath
      cases hpath
    · rw [e, Option.getD_none] at hpath
      split at hpath <;> cases hpath

theorem HonoursInPlace.rtlReAllocateHeap_stays (h : HonoursInPlace env) (hf : hasFlag flags HEAP_REALLOC_IN_PLACE_ONLY = true)
    (hp : (w.rtlReAllocateHeapPath p).KeepsPlace) :
    Stays p (exec (hookedRtlReAllocateHeap env caller heap flags p size) w).1 := by
  cases hpath : w.rtlReAllocateHeapPath p with
  | heap => exact h.rtlReAllocateHeap_heap hf hpath
  | arena | capture =>
    rw [hpath] at hp
    exact absurd hp id
  | shard s =>
    rw [hpath] at hp
    unfold World.rtlReAllocateHeapPath at hpath
    by_cases hc : w.rtlReAllocateClosed = true
    · rw [if_pos hc] at hpath
      cases hpath
    rw [if_neg hc] at hpath
    obtain ⟨s', e, hs, h0⟩ | ⟨e, -⟩ | ⟨e, -⟩ := reAllocPath_cases w.tool p
    · rw [e] at hpath
      cases hpath
      rw [exec_hookedRtlReAllocateHeap]
      · exact .inl (proxyHeapReAlloc_dead hs hp)
      · exact hc
      · exact ⟨h0, by simp [hs]⟩
    · rw [e] at hpath
      cases hpath
    · rw [e] at hpath
      cases hpath

/-- In any state, and whatever the heaps do that honour the flag: a reallocation that must keep the
block in its place does so exactly on the path that hands the flag on, or on a shard without a heap. -/
theorem reAlloc_inPlace_iff (w : World σ) (caller : Caller) (heap flags p size : ℕ)
    (hf : hasFlag flags HEAP_REALLOC_IN_PLACE_ONLY = true) :
    ((∀ env : Env σ, HonoursInPlace env → Stays p (exec (hookedHeapReAlloc env caller heap flags p size) w).1) ↔
      (w.heapReAllocPath caller p size).KeepsPlace) ∧
    ((∀ env : Env σ, HonoursInPlace env → Stays p (exec (hookedRtlReAllocateHeap env caller heap flags p size) w).1) ↔
      (w.rtlReAllocateHeapPath p).KeepsPlace) := by
  constructor
  · constructor
    · intro h
      by_contra hp
      obtain ⟨env, henv, hn⟩ : ∃ env : Env σ, HonoursInPlace env ∧
        ¬ Stays p (exec (hookedHeapReAlloc env caller heap flags p size) w).1 := heapReAlloc_moves hp
      exact hn (h env henv)
    · rintro hp env henv
      exact henv.heapReAlloc_stays hf hp
  · constructor
    · intro h
      by_contra hp
      obtain ⟨env, henv, hn⟩ : ∃ env : Env σ, HonoursInPlace env ∧
        ¬ Stays p (exec (hookedRtlReAllocateHeap env caller heap flags p size) w).1 := rtlReAllocateHeap_moves hp
      exact hn (h env henv)
    · rintro hp env henv
      exact henv.rtlReAllocateHeap_stays hf hp

end

/-- A block of the process heap grows to 4000 bytes, which is less than goes to the arena. -/
theorem inPlace_small : Stays 0x30000000 (exec (hookedHeapReAlloc (Env.fixed (.moving 0x90000000 true)) .plain 7 0x10 0x30000000 4000)
    (World.install Sys.arena1G ())).1 :=
  (reAlloc_inPlace_iff (World.install Sys.arena1G ()) .plain 7 0x10 0x30000000 4000 (by decide)).1.2 (by decide +kernel)
    (Env.fixed (.moving 0x90000000 true)) (honours_moving 0x90000000 true)

/-- 5000 bytes are captured at the base of the arena. Asked to grow in place to 6000 they move to
the next slot. -/
theorem not_inPlace_captured : HonoursInPlace (Env.fixed (.moving 0x30000000 true) : Env Unit) ∧
    (exec (hookedRtlAllocateHeap (Env.fixed (.moving 0x30000000 true)) .plain 7 0 5000) (World.install Sys.arena1G ())).1 = 0x40000000 ∧
    ¬ Stays 0x40000000 (exec (hookedHeapReAlloc (Env.fixed (.moving 0x30000000 true)) .plain 7 0x10 0x40000000 6000)
      (exec (hookedRtlAllocateHeap (Env.fixed (.moving 0x30000000 true)) .plain 7 0 5000) (World.install Sys.arena1G ())).2).1 := by
  refine ⟨honours_moving _ _, by decide +kernel, by decide +kernel⟩

end Ts3Vas
