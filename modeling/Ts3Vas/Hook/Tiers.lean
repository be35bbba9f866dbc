/-
Where the two heap-allocation hooks place a block: in a shard, in the arena, or on the caller's heap.
Their gates are written twice, and this is when both take the same branch on the same outcomes.
-/
import Ts3Vas.Hook.Graphics

namespace Ts3Vas

open Prog

variable {σ : Type}

/-! ## The hooks with the branch they take -/

inductive Tier
  | sardine | arena | heap
  deriving DecidableEq, Repr

/-- `Hooked_RtlAllocateHeap`, with the tier of its pointer. -/
def placeRtlAllocateHeap (env : Env σ) (caller : Caller) (heap flags size : ℕ) : Hook σ (Tier × ℕ) := do
  let w ← get
  if w.busy || !w.tool.memManager || w.tool.shuttingDown then do
    let r ← callValue env (.rtlAllocateHeap heap flags size)
    return (.heap, r)
  else rtlHookScope do
    setInHook true
    let p ← corralCapture env caller size
    if p ≠ 0 then do
      setInHook false
      return (.arena, p)
    else do
      let w ← get
      let p ← attempt (sardineGate w.tool caller heap size) (proxyHeapAlloc env flags size)
      if p ≠ 0 then do
        probeSardineLoss env p
        setInHook false
        return (.sardine, p)
      else do
        let p ← arenaCapture env caller size
        if p ≠ 0 then do
          setInHook false
          return (.arena, p)
        else do
          let r ← callValue env (.rtlAllocateHeap heap flags size)
          setInHook false
          return (.heap, r)

/-- `Hooked_HeapAlloc`, with the tier of its pointer. -/
def placeHeapAlloc (env : Env σ) (caller : Caller) (heap flags size : ℕ) : Hook σ (Tier × ℕ) := do
  let w ← get
  if w.closed || !w.tool.resolved .heapAlloc then
    if w.tool.resolved .heapAlloc then do
      let r ← callValue env (.heapAlloc heap flags size)
      return (.heap, r)
    else return (.heap, 0)
  else rtlHookScope do
    setInHook true
    let w ← get
    let s ← attempt (heapAllocSardineGate w.tool caller heap size) (proxyHeapAlloc env flags size)
    onlyIf (s ≠ 0) (probeSardineLoss env s)
    let w ← get
    let a ← orElse s (attempt (forceGate w.tool size) (createProxyAllocation env caller size PAGE_READWRITE))
    let p ← orElse a (callValue env (.heapAlloc heap flags size))
    setInHook false
    return (if s ≠ 0 then .sardine else if a ≠ 0 then .arena else .heap, p)

theorem map_rtlHookScope {α β : Type} (f : α → β) (m : Hook σ α) : f <$> rtlHookScope m = rtlHookScope (f <$> m) := rfl

section
variable (env : Env σ) (caller : Caller) (heap flags size : ℕ)

/-- The tier is all that is added. -/
theorem map_placeRtlAllocateHeap :
    Prod.snd <$> placeRtlAllocateHeap env caller heap flags size = hookedRtlAllocateHeap env caller heap flags size := by
  unfold hookedRtlAllocateHeap placeRtlAllocateHeap
  simp only [map_bind, apply_ite (Functor.map Prod.snd), map_rtlHookScope, map_pure, bind_pure]

theorem map_placeHeapAlloc :
    Prod.snd <$> placeHeapAlloc env caller heap flags size = hookedHeapAlloc env caller heap flags size := by
  unfold hookedHeapAlloc placeHeapAlloc
  simp only [map_bind, apply_ite (Functor.map Prod.snd), map_rtlHookScope, map_pure, bind_pure]

end

/-! ## What a capture would commit -/

/-- The slot that `CreateProxyAllocation` goes to commit, null where it stops before. -/
def slotFor (t : Tool) (self : Bool) (size : ℕ) : ℕ :=
  if self then 0
  else if t.proxyMaxBytes ≠ 0 ∧ t.proxyMaxBytes ≤ size then 0
  else
    let p := (t.sys.alloc.allocate size (t.sys.alloc.prefersTopDown size)).1
    if p = 0 then 0
    else if !isProxyAddress t p || p % pageSize ≠ 0 then 0
    else if t.resolved .virtualAlloc then p else 0

section
variable {env : Env σ} {w : World σ}

theorem exec_callValue (env : Env σ) (c : RealCall) (w : World σ) : exec (callValue env c) w =
    ((exec (env.real c) w).1.value, { (exec (env.real c) w).2 with trace := w.trace ++ [c] }) := rfl

/-- Inside a hook a hooked call goes straight down. -/
theorem exec_forward (hw : w.thread.hookActive = true) (c : RealCall) (absent : ℕ) : exec (forward env c absent) w =
    if w.tool.resolved c.api = true then exec (callValue env c) w else (absent, w) := by
  have hcl : w.closed = true := by simp [World.closed, World.busy, hw]
  unfold forward
  rw [exec_bind, exec_get, hcl, Bool.true_or, if_pos rfl, exec_ite]
  rfl

/-- What a capture hands out: the slot, if the commit succeeds. -/
theorem createProxyAllocation_value (env : Env σ) (hw : w.thread.hookActive = true) (caller : Caller) (size protect : ℕ) :
    ∃ v : World σ, (exec (createProxyAllocation env caller size protect) w).1 =
      if slotFor w.tool caller.self size = 0 then 0
      else if (exec (env.real (.virtualAlloc (slotFor w.tool caller.self size) size MEM_COMMIT
        (if protect = 0 then PAGE_READWRITE else protect))) v).1.value = 0 then 0
      else slotFor w.tool caller.self size := by
  refine ⟨{ w with tool := { w.tool with sys := w.tool.sys.step (.allocate size (w.tool.sys.alloc.prefersTopDown size)) } }, ?_⟩
  generalize hslot : slotFor w.tool caller.self size = slot
  unfold slotFor at hslot
  unfold createProxyAllocation
  generalize (if protect = 0 then PAGE_READWRITE else protect) = commitProtect
  rw [exec_bind, exec_get, exec_ite, exec_ite]
  by_cases hself : caller.self = true
  · rw [if_pos hself] at hslot ⊢
    rw [← hslot, if_pos rfl]
    rfl
  rw [if_neg hself] at hslot ⊢
  by_cases hmax : w.tool.proxyMaxBytes ≠ 0 ∧ w.tool.proxyMaxBytes ≤ size
  · rw [if_pos hmax] at hslot ⊢
    rw [← hslot, if_pos rfl]
    rfl
  rw [if_neg hmax] at hslot ⊢
  rw [exec_bind, exec_arenaAllocate]
  dsimp only at hslot ⊢
  rw [exec_ite]
  by_cases hp : (w.tool.sys.alloc.allocate size (w.tool.sys.alloc.prefersTopDown size)).1 = 0
  · rw [if_pos hp] at hslot ⊢
    rw [← hslot, if_pos rfl]
    rfl
  rw [if_neg hp] at hslot ⊢
  rw [exec_ite]
  by_cases hc : (!isProxyAddress w.tool (w.tool.sys.alloc.allocate size (w.tool.sys.alloc.prefersTopDown size)).1 ||
      decide ((w.tool.sys.alloc.allocate size (w.tool.sys.alloc.prefersTopDown size)).1 % pageSize ≠ 0)) = true
  · rw [if_pos hc] at hslot ⊢
    rw [← hslot, if_pos rfl]
    rfl
  rw [if_neg hc] at hslot ⊢
  have hv : ({ w with tool := { w.tool with sys := w.tool.sys.step (.allocate size (w.tool.sys.alloc.prefersTopDown size)) } } :
    World σ).thread.hookActive = true := hw
  -- all checks passed: the commit decides
  rw [exec_bind, exec_ite, commitSlot, exec_forward hv]
  by_cases hr : w.tool.resolved .virtualAlloc = true
  · have hr' : w.tool.resolved (RealCall.virtualAlloc (w.tool.sys.alloc.allocate size (w.tool.sys.alloc.prefersTopDown size)).1
        size MEM_COMMIT commitProtect).api = true := hr
    rw [if_pos hr] at hslot
    dsimp only
    rw [if_pos hr', exec_callValue, ← hslot, if_neg hp]
    dsimp only
    split <;> rfl
  · have hr' : ¬ w.tool.resolved (RealCall.virtualAlloc (w.tool.sys.alloc.allocate size (w.tool.sys.alloc.prefersTopDown size)).1
        size MEM_COMMIT commitProtect).api = true := hr
    rw [if_neg hr] at hslot
    dsimp only
    rw [if_neg hr', ← hslot, if_pos rfl, if_pos rfl]
    rfl

end

/-! ## Fixed outcomes -/

/-- What every call below the hooks comes back with, whichever hook makes it. -/
structure Outcomes where
  reply : RealCall → Reply
  live : ℕ → Bool
  stray : ℤ → ℕ

def Env.fixed (o : Outcomes) : Env σ where
  real c w := (o.reply c, w)
  handleLive h _ := o.live h
  stray := o.stray
  memcpy _ _ _ s := s
  isCorralAddress _ _ := false
  corralReserve _ _ _ s := (0, s)
  corralFree _ s := s

/-- A heap takes the request. -/
def Outcomes.serves (o : Outcomes) (flags size heap : ℕ) : Bool :=
  heap ≠ 0 && o.live heap && (o.reply (.rtlAllocateHeap heap (flags &&& HEAP_ZERO_MEMORY) size)).value ≠ 0

/-- The handle at an index of `s_proxyHeaps`. -/
def Outcomes.handleAt (o : Outcomes) (t : Tool) (i : ℤ) : ℕ := proxyHeapAt (Env.fixed o : Env Unit) t i

/-- One of the shards that `ProxyHeapAlloc` tries, from the next of the round robin on, takes it. -/
def shardServes (o : Outcomes) (t : Tool) (flags size : ℕ) : Bool :=
  (List.range t.shards.length).any fun k =>
    o.serves flags size (o.handleAt t ((toLong (toLong (t.proxyHeapRR + 1) + k)).tmod t.shards.length))

/-- `CreateProxyAllocation` gets its slot committed. -/
def arenaServes (o : Outcomes) (t : Tool) (self : Bool) (size : ℕ) : Bool :=
  slotFor t self size ≠ 0 && (o.reply (.virtualAlloc (slotFor t self size) size MEM_COMMIT PAGE_READWRITE)).value ≠ 0

/-- The gate of the arena branch of `Hooked_RtlAllocateHeap`. -/
def arenaGate (t : Tool) (caller : Caller) (size : ℕ) : Bool :=
  capturable t size && (t.proxyActive || !t.passive) && decide (0 < size) && !caller.audioModule

/-- Inside a hook, with the tool as it was but for the round robin. -/
def Still (t : Tool) (w : World σ) : Prop := w.thread.hookActive = true ∧ ∃ r, w.tool = { t with proxyHeapRR := r }

section
variable {o : Outcomes} {t : Tool} {w : World σ}

theorem still_callValue (c : RealCall) :
    Triple (Still t) (callValue (Env.fixed o : Env σ) c) fun v w => v = (o.reply c).value ∧ Still t w :=
  fun _ hw => ⟨rfl, hw⟩

theorem still_setInHook (b : Bool) : Triple (Still (σ := σ) t) (setInHook b) fun _ => Still t := by
  intro w hw
  show Still t (if _ then _ else _)
  split <;> exact hw

/-- Inside a hook, with the tool as it is. -/
def Exact (t : Tool) (w : World σ) : Prop := w.thread.hookActive = true ∧ w.tool = t

theorem Exact.still (h : Exact t w) : Still t w := ⟨h.1, w.tool.proxyHeapRR, by rw [← h.2]⟩

theorem exact_setInHook (b : Bool) : Triple (Exact (σ := σ) t) (setInHook b) fun _ => Exact t := by
  intro w hw
  show Exact t (if _ then _ else _)
  split <;> exact hw

/-- The scope of a shard operation, around a body that may start from any mark. -/
theorem still_proxyHeapHookScope {α : Type} {P : World σ → Prop} {m : Hook σ α} {Q : α → Prop}
    (hP : ∀ b, Triple P (setInHook b) fun _ => P) (hm : Triple P m fun a w => Q a ∧ Still t w) :
    Triple P (proxyHeapHookScope m) fun a w => Q a ∧ Still t w := by
  refine .get fun w hw => .ite (fun _ => hm.here hw) fun _ => ?_
  refine Triple.bind ((hP true).here hw) fun _ => hm.bind fun a => ?_
  rintro v ⟨ha, hv⟩
  exact ⟨ha, still_setInHook false v hv⟩

/-- Inside a hook, with all that a capture reads as it is in `t`. -/
structure Poised (t : Tool) (w : World σ) : Prop where
  hooking : w.thread.hookActive = true
  sys : w.tool.sys = t.sys
  proxyMaxBytes : w.tool.proxyMaxBytes = t.proxyMaxBytes
  resolved : w.tool.resolved = t.resolved

theorem Exact.poised (h : Exact t w) : Poised t w := ⟨h.1, by rw [h.2], by rw [h.2], by rw [h.2]⟩

theorem Still.poised (h : Still t w) : Poised t w := by
  obtain ⟨hact, r, e⟩ := h
  exact ⟨hact, by rw [e], by rw [e], by rw [e]⟩

theorem Poised.slotFor (h : Poised t w) (self : Bool) (size : ℕ) : slotFor w.tool self size = Ts3Vas.slotFor t self size := by
  unfold Ts3Vas.slotFor isProxyAddress
  rw [h.sys, h.proxyMaxBytes, h.resolved]

/-- The capture gets a slot just if the arena serves, whatever the round robin is at. -/
theorem Poised.createProxyAllocation (h : Poised t w) (caller : Caller) (size : ℕ) :
    (exec (createProxyAllocation (Env.fixed o : Env σ) caller size PAGE_READWRITE) w).1 ≠ 0 ↔
      arenaServes o t caller.self size = true := by
  obtain ⟨u, e⟩ := createProxyAllocation_value (Env.fixed o) h.hooking caller size PAGE_READWRITE
  have hreply : ∀ c, (exec ((Env.fixed o : Env σ).real c) u).1 = o.reply c := fun _ => rfl
  rw [e, h.slotFor, arenaServes, hreply, if_neg (by decide : PAGE_READWRITE ≠ 0)]
  by_cases h0 : Ts3Vas.slotFor t caller.self size = 0
  · simp [h0]
  · by_cases hc : (o.reply (.virtualAlloc (Ts3Vas.slotFor t caller.self size) size MEM_COMMIT PAGE_READWRITE)).value = 0
    · simp [h0, hc]
    · simp [h0, hc]

/-- The arena branch is a capture behind its gate. -/
theorem Still.arenaCapture (h : Still t w) (env : Env σ) (caller : Caller) (size : ℕ) :
    ∃ v, Poised t v ∧ (exec (arenaCapture env caller size) w).1 =
      if arenaGate t caller size = true then (exec (createProxyAllocation env caller size PAGE_READWRITE) v).1 else 0 := by
  obtain ⟨hact, r, ht⟩ := h
  have hcap : ∀ v : World σ, v.tool.forceHeapProxy = t.forceHeapProxy → v.tool.kForceHeapProxyMinSize = t.kForceHeapProxyMinSize →
      capturable v.tool size = capturable t size := by
    rintro v hf hm
    rw [capturable, hf, hm, capturable]
  -- the state after the activation, where it is tried
  generalize hv : (exec (onlyIf ((!w.tool.proxyActive) = true) activateProxy) w).2 = v
  have htool : v.thread.hookActive = true ∧ v.tool = { t with proxyActive := t.proxyActive || !t.passive, proxyHeapRR := r } := by
    rw [← hv, onlyIf, exec_ite, ht]
    cases ha : t.proxyActive <;> cases hp : t.passive <;>
      simp [activateProxy, onTool, ht, ha, hp, hact]
  refine ⟨v, ⟨htool.1, by rw [htool.2], by rw [htool.2], by rw [htool.2]⟩, ?_⟩
  unfold Ts3Vas.arenaCapture
  rw [exec_bind, exec_get, exec_ite, hcap w (by rw [ht]) (by rw [ht]), arenaGate]
  by_cases hc : capturable t size = true
  · rw [if_pos hc, hc, Bool.true_and, exec_bind, hv, exec_bind, exec_get, exec_ite,
      hcap v (by rw [htool.2]) (by rw [htool.2]), hc, Bool.and_true,
      show v.tool.proxyActive = (t.proxyActive || !t.passive) by rw [htool.2]]
    split <;> rfl
  · rw [if_neg hc, Bool.eq_false_iff.2 hc, if_neg (by simp)]
    rfl

end

/-! ## The two decisions -/

section
variable {o : Outcomes} {t : Tool} {caller : Caller} {heap flags size : ℕ}

/-- The scope of a hook outside any other. -/
theorem exact_rtlHookScope {α : Type} {m : Hook σ α} {P : α → Prop} (hm : Triple (Exact t) m fun a _ => P a) :
    Triple (fun w => w.tool = t) (rtlHookScope m) fun a _ => P a :=
  fun w hw => hm { w with thread := { w.thread with hookActive := true } } ⟨rfl, hw⟩

end

/-! ## Where they agree -/

/-- No heap is marked for the corral. -/
def Seen.Uncorralled (seen : Seen) : Prop := ∀ r ∈ seen.heapUse, r.corralTarget = false

theorem uncorralled_start : Seen.start.Uncorralled := fun _ h => (nomatch h)

section
variable {mods : List Module} {seen : Seen} {last : LastHeap} {heap ra : ℕ}

/-- No module marks its heaps, so no table comes to hold a marked one, and no answer is yes. -/
theorem Seen.Uncorralled.recordHeapUse (h : seen.Uncorralled) (heap ra : ℕ) (last : LastHeap) :
    (Ts3Vas.recordHeapUse mods heap ra last seen).1 = false ∧ (Ts3Vas.recordHeapUse mods heap ra last seen).2.2.Uncorralled := by
  have hat : ∀ (i : ℕ) r, seen.heapUse[i]? = some r → r.corralTarget = false := fun i r hr => h r (List.mem_of_getElem? hr)
  unfold Ts3Vas.recordHeapUse
  split
  · exact ⟨rfl, h⟩
  split
  -- the thread's own slot, then the table, then a new entry
  · rename_i r hr
    unfold LastHeap.entry at hr
    split at hr
    · obtain ⟨i, -, hi⟩ := Option.bind_eq_some_iff.1 hr
      exact ⟨hat i r hi, h⟩
    · cases hr
  split
  · rename_i i hi
    refine ⟨?_, h⟩
    cases hr : seen.heapUse[i]? with
    | none => rfl
    | some r => exact hat i r hr
  split
  · refine ⟨rfl, fun r hr => ?_⟩
    rcases List.mem_append.1 hr with hr | hr
    · exact h r hr
    · rw [List.mem_singleton.1 hr]
      rfl
  · exact ⟨rfl, h⟩

theorem Seen.Uncorralled.grown {seen' : Seen} (h : seen.Uncorralled) (hg : Grown mods seen seen') : seen'.Uncorralled := by
  unfold Seen.Uncorralled
  rw [hg.heapUse]
  exact h

/-- So it is after the lookups of either hook. -/
theorem Seen.Uncorralled.look (h : seen.Uncorralled) (t : Tool) (size : ℕ) (site : Site) :
    (lookRtl mods t heap size site last seen).seen.Uncorralled ∧
      (lookHeapAlloc mods t heap size site last seen).seen.Uncorralled := by
  have hu : (Ts3Vas.recordHeapUse mods heap site.ra last seen).2.2.Uncorralled := (h.recordHeapUse heap site.ra last).2
  have hg : (lookHeapAlloc mods t heap size site last seen).seen.Uncorralled :=
    hu.grown (grown_callerIsGraphicsModule mods site.ra _).ite
  exact ⟨hg.grown (grown_callerIsAudioModule mods site.ra _).ite, hg⟩

end

/-- When the hooks decide alike: in a sardine block as long as there is a memory manager and the
caller is not audio, past the shards as long as their arena gates agree or the arena has nothing. -/
def Alike (o : Outcomes) (t : Tool) (caller : Caller) (heap flags size : ℕ) : Prop :=
  t.shuttingDown = true ∨
    if heapAllocSardineGate t caller heap size && shardServes o t flags size then
      t.memManager = true ∧ caller.audio = false
    else arenaServes o t caller.self size = true → (t.memManager && arenaGate t caller size) = forceGate t size

instance Alike.decidable (o : Outcomes) (t : Tool) (caller : Caller) (heap flags size : ℕ) : Decidable (Alike o t caller heap flags size) :=
  inferInstanceAs (Decidable (_ ∨ ite _ _ _))

section
variable {o : Outcomes} {t : Tool} {caller : Caller} {heap flags size : ℕ}

theorem sardineGate_eq : sardineGate t caller heap size = (heapAllocSardineGate t caller heap size && !caller.audio) := rfl

end

/-- The game and the sound library. -/
def gameAndSound : List Module :=
  [⟨0x400000, 0x500000, "TS3W.exe".toList⟩, ⟨0x60000000, 0x60080000, "DSOUND.dll".toList⟩]

def gameSite : Site := ⟨0x400500, [0x400500], false⟩

def soundSite : Site := ⟨0x60000500, [0x60000500, 0x400500], false⟩

/-- The tables after the game has used the heap. -/
def afterGame : Seen := (lookRtl gameAndSound Process.sharded.world.tool 0x50000000 100 gameSite .start .start).seen

/-- Every call below is served. -/
def Outcomes.plenty : Outcomes where
  reply c := ⟨match c with
    | .rtlAllocateHeap heap _ _ | .heapAlloc heap _ _ => heap + 0x1000
    | .virtualAlloc p _ _ _ => p
    | _ => 0, 0, 0⟩
  live _ := true
  stray _ := 0

end Ts3Vas
