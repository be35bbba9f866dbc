/-
`ProxyHeapInit`: each shard is a heap over a committed slot of the arena, or, where that fails, a heap
with memory of its own. It runs before any hook is attached.
-/
import Ts3Vas.Hook.Shelter

namespace Ts3Vas

open Prog

variable {σ : Type}

/-! ## The initialisation -/

/-- `Allocate(size)`, from the bottom. -/
def arenaAllocateBottom (size : ℕ) : Hook σ ℕ := do
  let w ← get
  onTool fun t => { t with sys := t.sys.step (.allocate size false) }
  return (w.tool.sys.alloc.allocate size false).1

/-- The heap of a shard over a slot: null, the slot given back, where the commit or the heap fails. -/
def heapOverSlot (boot : Env σ) (slot maxSize : ℕ) : Hook σ ℕ := do
  let c ← callValue boot (.virtualAlloc slot maxSize MEM_COMMIT PAGE_READWRITE)
  let h ← attempt (c ≠ 0) (callValue boot (.rtlCreateHeap 0 slot maxSize maxSize 0 0))
  onlyIf (h = 0) (arenaFree slot maxSize)
  return h

/-- One turn of the loop: the shard, if there is one. -/
def makeShard (boot : Env σ) (maxSize : ℕ) : Hook σ (List Shard) := do
  let w ← get
  let slot ← attempt (w.tool.memManager && w.tool.resolved .rtlCreateHeap) (arenaAllocateBottom maxSize)
  let h ← attempt (slot ≠ 0) (heapOverSlot boot slot maxSize)
  if h ≠ 0 then return [⟨h, slot, ptrAdd slot maxSize⟩]
  else do
    let h ← callValue boot (.heapCreate 0 0 maxSize)
    if h = 0 then return [] else return [⟨h, h, ptrAdd h maxSize⟩]

def makeShards (boot : Env σ) (maxSize : ℕ) : ℕ → Hook σ (List Shard)
  | 0 => return []
  | n + 1 => do
    let s ← makeShard boot maxSize
    let ss ← makeShards boot maxSize n
    return s ++ ss

/-- `off` is the setting that disables the shards. -/
def proxyHeapInit (boot : Env σ) (off : Bool) (maxSize shardCount : ℕ) : Hook σ Unit := do
  let w ← get
  if w.tool.passive || off then return ()
  else do
    let ss ← makeShards boot maxSize shardCount
    onTool fun t => { t with shards := ss, proxyHeapEnabled := decide (0 < ss.length) }

/-! ## What it leaves -/

/-- What is asked of the functions below before hooks attach. -/
structure Boot (boot : Env σ) (owns : σ → ℕ → ℕ → Prop) : Prop where
  quiet : ∀ c w, (exec (boot.real c) w).2.tool = w.tool
  /-- New memory is not that of a heap that lives. -/
  kept : ∀ c w (s : Shard), (∀ h p, owns w.os h p → s.Holds p → h = s.handle) →
    ∀ h p, owns (exec (boot.real c) w).2.os h p → s.Holds p → h = s.handle
  commit : ∀ p size protect w, (exec (boot.real (.virtualAlloc p size MEM_COMMIT protect)) w).1.value ≠ 0 →
    0 < size ∧ p + size ≤ 2 ^ 32
  /-- A heap over given memory has it to itself. -/
  rtlCreateHeap : ∀ base size w, (exec (boot.real (.rtlCreateHeap 0 base size size 0 0)) w).1.value ≠ 0 →
    ∀ h p, owns (exec (boot.real (.rtlCreateHeap 0 base size size 0 0)) w).2.os h p → base ≤ p → p < base + size →
      h = (exec (boot.real (.rtlCreateHeap 0 base size size 0 0)) w).1.value
  /-- A new heap reserves memory of its own, which is not the arena's. -/
  heapCreate : ∀ size w, (exec (boot.real (.heapCreate 0 0 size)) w).1.value ≠ 0 → ∀ p,
    (exec (boot.real (.heapCreate 0 0 size)) w).1.value ≤ p → p < (exec (boot.real (.heapCreate 0 0 size)) w).1.value + size →
      w.tool.sys.alloc.isProxyAddress p = false ∧ ∀ h, owns (exec (boot.real (.heapCreate 0 0 size)) w).2.os h p →
        h = (exec (boot.real (.heapCreate 0 0 size)) w).1.value

/-- The shards made so far. -/
structure Made (owns : σ → ℕ → ℕ → Prop) (S : List Shard) (w : World σ) : Prop where
  sheltered : Sheltered w.tool.sys S
  own : ∀ s ∈ S, ∀ h p, owns w.os h p → s.Holds p → h = s.handle

section
variable {boot : Env σ} {owns : σ → ℕ → ℕ → Prop} {S : List Shard} {w : World σ}

theorem Sheltered.append {sys : Sys} {s : Shard} (h : Sheltered sys S) (hpos : 0 < s.lo)
    (hs : (∃ slot ∈ sys.live, slot.addr = s.lo ∧ s.hi ≤ slot.addr + alignUp slot.size sys.alloc.allocGranularity) ∨
      ∀ p, s.Holds p → sys.alloc.isProxyAddress p = false) : Sheltered sys (S ++ [s]) := by
  refine ⟨h.sound, ?_, ?_⟩
  · rintro t ht
    rcases List.mem_append.1 ht with ht | ht
    · exact h.positive t ht
    · exact List.mem_singleton.1 ht ▸ hpos
  · rintro t ht
    rcases List.mem_append.1 ht with ht | ht
    · exact h.placed t ht
    · exact List.mem_singleton.1 ht ▸ hs

theorem Made.append {s : Shard} (h : Made owns S w) (hs : Sheltered w.tool.sys (S ++ [s]))
    (ho : ∀ h p, owns w.os h p → s.Holds p → h = s.handle) : Made owns (S ++ [s]) w := by
  refine ⟨hs, ?_⟩
  rintro t ht
  rcases List.mem_append.1 ht with ht | ht
  · exact h.own t ht
  · exact List.mem_singleton.1 ht ▸ ho

theorem holds_ptrAdd {h lo n p : ℕ} (hp : (⟨h, lo, ptrAdd lo n⟩ : Shard).Holds p) : lo ≤ p ∧ p < lo + n :=
  ⟨hp.1, hp.2.trans_le (Nat.mod_le _ _)⟩

namespace Boot

theorem callValue (hb : Boot boot owns) (h : Made owns S w) (c : RealCall) : Made owns S (exec (callValue boot c) w).2 := by
  refine ⟨?_, fun s hs => hb.kept c w s (h.own s hs)⟩
  show Sheltered (exec (boot.real c) w).2.tool.sys S
  rw [hb.quiet]
  exact h.sheltered

theorem tool_callValue (hb : Boot boot owns) (c : RealCall) (w : World σ) :
    (exec (Ts3Vas.callValue boot c) w).2.tool = w.tool := hb.quiet c w

/-- What a granted slot becomes: a shard, or it goes back. -/
theorem heapOverSlot (hb : Boot boot owns) (hw : Made owns S w) {maxSize : ℕ}
    (hp : (w.tool.sys.alloc.allocate maxSize false).1 ≠ 0) {v : World σ} (hos : v.os = w.os)
    (hsys : v.tool.sys = w.tool.sys.step (.allocate maxSize false)) :
    Triple (fun u => u = v) (heapOverSlot boot (w.tool.sys.alloc.allocate maxSize false).1 maxSize) fun h u =>
      if h = 0 then Made owns S u
      else Made owns (S ++ [⟨h, (w.tool.sys.alloc.allocate maxSize false).1,
        ptrAdd (w.tool.sys.alloc.allocate maxSize false).1 maxSize⟩]) u := by
  have hs := hw.sheltered
  have hv : Made owns S v := ⟨hsys.symm ▸ hs.granted hp, hos.symm ▸ hw.own⟩
  -- neither call touches the arena
  have halive : ∀ u : World σ, u.tool = v.tool → u.tool.sys = w.tool.sys.step (.allocate maxSize false) := by
    rintro u e
    rw [e, hsys]
  generalize hslot : (w.tool.sys.alloc.allocate maxSize false).1 = slot at *
  refine Triple.bind (Q := fun c u => Made owns S u ∧ u.tool = v.tool ∧ (c ≠ 0 → 0 < maxSize ∧ slot + maxSize ≤ 2 ^ 32)) ?_ fun c => ?_
  · rintro u rfl
    exact ⟨hb.callValue hv _, hb.tool_callValue _ u, hb.commit slot maxSize PAGE_READWRITE u⟩
  refine Triple.bind (Q := fun h u => Made owns S u ∧ u.tool = v.tool ∧
    (h ≠ 0 → Made owns (S ++ [⟨h, slot, ptrAdd slot maxSize⟩]) u)) ?_ fun h => ?_
  · refine .ite (fun hc => ?_) fun _ => .pure fun u hu => ⟨hu.1, hu.2.1, fun h0 => absurd rfl h0⟩
    rintro u ⟨hu, e, hcommit⟩
    have hu' := hb.callValue hu (.rtlCreateHeap 0 slot maxSize maxSize 0 0)
    have e' := (hb.tool_callValue (.rtlCreateHeap 0 slot maxSize maxSize 0 0) u).trans e
    refine ⟨hu', e', fun hne => hu'.append ?_ ?_⟩
    · obtain ⟨-, htop⟩ := hcommit hc
      have hs' := hu'.sheltered
      have hlive : (⟨slot, maxSize⟩ : Slot) ∈ (exec (Ts3Vas.callValue boot (.rtlCreateHeap 0 slot maxSize maxSize 0 0)) u).2.tool.sys.live := by
        rw [halive _ e', Sys.step_allocate, hslot, if_neg hp]
        exact List.mem_append_right _ (List.mem_singleton_self _)
      have hle := (alignUp_bounds hs'.sound.books.placed.gran (hs'.sound.noWrap hlive htop)).1
      refine hs'.append (Nat.pos_of_ne_zero hp) (.inl ⟨⟨slot, maxSize⟩, hlive, rfl, ?_⟩)
      exact (Nat.mod_le _ _).trans (Nat.add_le_add_left hle slot)
    · intro h p ho hold
      obtain ⟨hlo, hhi⟩ := holds_ptrAdd hold
      exact hb.rtlCreateHeap slot maxSize u hne h p ho hlo hhi
  · refine Triple.bind (Q := fun _ u => if h = 0 then Made owns S u
      else Made owns (S ++ [⟨h, slot, ptrAdd slot maxSize⟩]) u) ?_ fun _ => .pure fun u hu => hu
    refine .ite (fun h0 => ?_) fun h0 => .pure fun u hu => ?_
    · rintro u ⟨hu, e, -⟩
      rw [exec_arenaFree, if_pos h0]
      refine ⟨?_, hu.own⟩
      dsimp only
      rw [halive u e, ← hslot]
      exact hs.returned (hslot ▸ hp)
    · rw [if_neg h0]
      exact hu.2.2 h0

theorem makeShard (hb : Boot boot owns) (maxSize : ℕ) :
    Triple (Made owns S) (makeShard boot maxSize) fun ss u => Made owns (S ++ ss) u := by
  -- the heap with memory of its own
  have hown : Triple (Made owns S) (do
      let h ← Ts3Vas.callValue boot (.heapCreate 0 0 maxSize)
      if h = 0 then return [] else return [⟨h, h, ptrAdd h maxSize⟩]) fun ss u => Made owns (S ++ ss) u := by
    intro u hu
    rw [exec_bind, exec_ite]
    have hu' := hb.callValue hu (.heapCreate 0 0 maxSize)
    have e := hb.tool_callValue (.heapCreate 0 0 maxSize) u
    have hfresh := hb.heapCreate maxSize u
    by_cases h0 : (exec (Ts3Vas.callValue boot (.heapCreate 0 0 maxSize)) u).1 = 0
    · rw [if_pos h0]
      show Made owns (S ++ []) _
      rw [List.append_nil]
      exact hu'
    · rw [if_neg h0]
      refine hu'.append (hu'.sheltered.append (Nat.pos_of_ne_zero h0) (.inr fun p hold => ?_)) fun h p ho hold => ?_
      · obtain ⟨hlo, hhi⟩ := holds_ptrAdd hold
        rw [e]
        exact (hfresh h0 p hlo hhi).1
      · obtain ⟨hlo, hhi⟩ := holds_ptrAdd hold
        exact (hfresh h0 p hlo hhi).2 h ho
  refine .get fun w hw => ?_
  by_cases hc : (w.tool.memManager && w.tool.resolved .rtlCreateHeap) = true
  · rw [attempt, if_pos hc]
    refine Triple.bind (Q := fun slot v => slot = (w.tool.sys.alloc.allocate maxSize false).1 ∧ v.os = w.os ∧
      v.tool.sys = w.tool.sys.step (.allocate maxSize false)) ?_ fun slot => ?_
    · rintro v rfl
      exact ⟨rfl, rfl, rfl⟩
    by_cases hp : (w.tool.sys.alloc.allocate maxSize false).1 = 0
    · rintro v ⟨rfl, hos, hsys⟩
      rw [hp]
      exact hown v ⟨hsys.symm ▸ hw.sheltered.refused hp, hos.symm ▸ hw.own⟩
    · rintro v ⟨rfl, hos, hsys⟩
      rw [attempt, if_pos hp]
      refine Triple.bind (R := fun ss u => Made owns (S ++ ss) u) (hb.heapOverSlot hw hp hos hsys) (fun h => ?_) v rfl
      refine .ite (fun h0 => .pure fun x hx => ?_) fun h0 => hown.mono (fun x hx => ?_) fun _ _ h => h
      · rw [if_neg h0] at hx
        exact hx
      · rw [if_pos (not_not.1 h0)] at hx
        exact hx
  · rw [attempt, if_neg hc]
    rintro u rfl
    exact hown u hw

theorem makeShards (hb : Boot boot owns) (maxSize : ℕ) : ∀ (n : ℕ) {S : List Shard},
    Triple (Made owns S) (makeShards boot maxSize n) fun ss u => Made owns (S ++ ss) u
  | 0, S => .pure fun u hu => (List.append_nil S).symm ▸ hu
  | n + 1, S => (hb.makeShard maxSize).bind fun s => (hb.makeShards maxSize n).bind fun ss => .pure fun u hu => by
    rw [← List.append_assoc]
    exact hu

/-- After the initialisation the shards are housed. -/
theorem proxyHeapInit (hb : Boot boot owns) (hw : w.tool.sys.Sound) (hS : w.tool.shards = []) (off : Bool)
    (maxSize shardCount : ℕ) : ∃ S, Housed owns S (exec (proxyHeapInit boot off maxSize shardCount) w).2 := by
  have h0 : Made owns [] w := ⟨⟨hw, fun _ h => (nomatch h), fun _ h => (nomatch h)⟩, fun _ h => (nomatch h)⟩
  unfold Ts3Vas.proxyHeapInit
  rw [exec_bind, exec_get, exec_ite]
  by_cases hc : (w.tool.passive || off) = true
  · rw [if_pos hc]
    exact ⟨[], hS, h0.sheltered, h0.own⟩
  · rw [if_neg hc]
    have h : Made owns ([] ++ (exec (Ts3Vas.makeShards boot maxSize shardCount) w).1) _ := hb.makeShards maxSize shardCount w h0
    rw [List.nil_append] at h
    exact ⟨(exec (Ts3Vas.makeShards boot maxSize shardCount) w).1, rfl, h.sheltered, h.own⟩

end Boot

end

end Ts3Vas
