/-
Where the shards lie: in slots of the arena that stay granted, or outside it. No slot that a capture
hands out meets them, and no heap but a shard's own reaches into it.
-/
import Ts3Vas.Hook.Route
import Ts3Vas.Hook.Flag

namespace Ts3Vas

open Prog

variable {σ : Type}

/-! ## Shards and slots -/

/-- The range `[s_proxyHeapLo[i], s_proxyHeapHi[i])`. -/
def Shard.Holds (s : Shard) (p : ℕ) : Prop := s.lo ≤ p ∧ p < s.hi

instance Shard.decidableHolds (s : Shard) (p : ℕ) : Decidable (s.Holds p) := inferInstanceAs (Decidable (_ ∧ _))

/-- Every shard fills a granted slot or misses the arena. -/
structure Sheltered (sys : Sys) (shards : List Shard) : Prop where
  sound : sys.Sound
  positive : ∀ s ∈ shards, 0 < s.lo
  placed : ∀ s ∈ shards,
    (∃ slot ∈ sys.live, slot.addr = s.lo ∧ s.hi ≤ slot.addr + alignUp slot.size sys.alloc.allocGranularity) ∨
      ∀ p, s.Holds p → sys.alloc.isProxyAddress p = false

section
variable {sys sys' : Sys} {shards : List Shard}

/-- The shards stay while the arena does and no slot is taken back. -/
theorem Sheltered.of_live (h : Sheltered sys shards) (hs : sys'.Sound) (ha : ProxyAllocator.SameArena sys.alloc sys'.alloc)
    (hl : sys.live ⊆ sys'.live) : Sheltered sys' shards := by
  refine ⟨hs, h.positive, ?_⟩
  rintro s hs
  rcases h.placed s hs with ⟨slot, hm, e, hhi⟩ | hout
  · exact .inl ⟨slot, hl hm, e, ha.2.2 ▸ hhi⟩
  · refine .inr fun p hp => ?_
    rw [ha.isProxyAddress]
    exact hout p hp

theorem Sheltered.not_zero (h : Sheltered sys shards) {s : Shard} (hs : s ∈ shards) : ¬ s.Holds 0 := by
  have := h.positive s hs
  unfold Shard.Holds
  omega

/-- An `Allocate` that grants nothing. -/
theorem Sheltered.refused (h : Sheltered sys shards) {size : ℕ} {fromTop : Bool}
    (hp : (sys.alloc.allocate size fromTop).1 = 0) : Sheltered (sys.step (.allocate size fromTop)) shards := by
  obtain ⟨hs, ha⟩ := h.sound.allocate_same size fromTop
  apply h.of_live hs ha
  rw [Sys.step_allocate, if_pos hp]
  exact List.Subset.refl _

/-- An `Allocate` that grants a slot, -/
theorem Sheltered.granted (h : Sheltered sys shards) {size : ℕ} {fromTop : Bool}
    (hp : (sys.alloc.allocate size fromTop).1 ≠ 0) : Sheltered (sys.step (.allocate size fromTop)) shards := by
  obtain ⟨hs, ha⟩ := h.sound.allocate_same size fromTop
  apply h.of_live hs ha
  rw [Sys.live_granted hp]
  exact List.subset_append_left _ _

/-- also when the slot goes back at once. -/
theorem Sheltered.returned (h : Sheltered sys shards) {size : ℕ} {fromTop : Bool}
    (hp : (sys.alloc.allocate size fromTop).1 ≠ 0) :
    Sheltered ((sys.step (.allocate size fromTop)).step (.free ⟨(sys.alloc.allocate size fromTop).1, size⟩)) shards := by
  obtain ⟨hs, ha, hperm⟩ := h.sound.returned hp
  exact h.of_live hs ha hperm.symm.subset

/-- The slot meets no shard. -/
theorem Sheltered.apart (h : Sheltered sys shards) {size : ℕ} {fromTop : Bool}
    (hp : (sys.alloc.allocate size fromTop).1 ≠ 0) (hin : sys.alloc.isProxyAddress (sys.alloc.allocate size fromTop).1)
    (hpos : 0 < alignUp size sys.alloc.allocGranularity) {s : Shard} (hs : s ∈ shards) :
    ¬ s.Holds (sys.alloc.allocate size fromTop).1 := by
  intro hold
  -- the shard lies in a slot of its own, or outside the arena
  rcases h.placed s hs with ⟨slot, hm, e, hhi⟩ | hout
  · have hap := h.sound.granted_apart hp hm
    apply hap (sys.alloc.allocate size fromTop).1
    · unfold Shard.Holds at hold
      simp only [Slot.span, Span.mem_mk]
      omega
    · simp only [Slot.span, Span.mem_mk]
      omega
  · rw [hout _ hold] at hin
    cases hin

end

/-! ## The system below the hooks -/

/-- What is asked of the functions below the hooks, where `owns` tells which heap an address belongs
to. Behind the guard of the heap hooks the hooks that these functions run pass everything on. -/
structure Tenants (env : Env σ) (owns : σ → ℕ → ℕ → Prop) : Prop where
  calm : Calm env
  /-- They touch neither the arena's books nor the shards. -/
  quiet : ∀ c w, w.rtlReAllocateClosed →
    (exec (env.real c) w).2.tool.sys = w.tool.sys ∧ (exec (env.real c) w).2.tool.shards = w.tool.shards
  /-- The memory of a shard stays its heap's own. -/
  kept : ∀ c w, w.rtlReAllocateClosed → ∀ s ∈ w.tool.shards, (∀ h p, owns w.os h p → s.Holds p → h = s.handle) →
    ∀ h p, owns (exec (env.real c) w).2.os h p → s.Holds p → h = s.handle
  /-- A heap hands out its own memory. -/
  rtlAllocateHeap : ∀ heap flags size w, w.rtlReAllocateClosed → (exec (env.real (.rtlAllocateHeap heap flags size)) w).1.value ≠ 0 →
    owns (exec (env.real (.rtlAllocateHeap heap flags size)) w).2.os heap (exec (env.real (.rtlAllocateHeap heap flags size)) w).1.value
  heapAlloc : ∀ heap flags size w, w.rtlReAllocateClosed → (exec (env.real (.heapAlloc heap flags size)) w).1.value ≠ 0 →
    owns (exec (env.real (.heapAlloc heap flags size)) w).2.os heap (exec (env.real (.heapAlloc heap flags size)) w).1.value
  /-- No byte is committed past the end of the address space, and a commit of none fails. -/
  commit : ∀ p size protect w, (exec (env.real (.virtualAlloc p size MEM_COMMIT protect)) w).1.value ≠ 0 →
    0 < size ∧ p + size ≤ 2 ^ 32

/-- The shards of a world are `S`, sheltered, and each the memory of its own heap alone. -/
structure Housed (owns : σ → ℕ → ℕ → Prop) (S : List Shard) (w : World σ) : Prop where
  shards : w.tool.shards = S
  sheltered : Sheltered w.tool.sys S
  own : ∀ s ∈ S, ∀ h p, owns w.os h p → s.Holds p → h = s.handle

/-- The same inside a hook. -/
structure Inside (owns : σ → ℕ → ℕ → Prop) (S : List Shard) (w : World σ) : Prop extends Housed owns S w where
  hooking : w.thread.hookActive = true

/-- No shard holds the pointer. -/
def Clear (S : List Shard) (p : ℕ) : Prop := ∀ s ∈ S, ¬ s.Holds p

instance (S : List Shard) (p : ℕ) : Decidable (Clear S p) := inferInstanceAs (Decidable (∀ s ∈ S, ¬ s.Holds p))

section
variable {env : Env σ} {owns : σ → ℕ → ℕ → Prop} {S : List Shard} {w : World σ}

theorem Inside.closed (h : Inside owns S w) : w.rtlReAllocateClosed = true := by
  simp [World.rtlReAllocateClosed, World.busy, h.hooking]

theorem Inside.forward_closed (h : Inside owns S w) : w.closed = true := by
  simp [World.closed, World.busy, h.hooking]

theorem Housed.clear_zero (h : Housed owns S w) : Clear S 0 := fun _ hs => h.sheltered.not_zero hs

/-- A world that differs in other things. -/
theorem Housed.of_eq {w' : World σ} (h : Housed owns S w) (hos : w'.os = w.os) (hsys : w'.tool.sys = w.tool.sys)
    (hsh : w'.tool.shards = w.tool.shards) : Housed owns S w' :=
  ⟨hsh.trans h.shards, hsys ▸ h.sheltered, hos ▸ h.own⟩

/-- What a heap that is no shard's hands out meets no shard. -/
theorem Housed.clear_of_owns (h : Housed owns S w) {heap p : ℕ} (hh : heap ∉ S.map (·.handle)) (hp : p ≠ 0 → owns w.os heap p) :
    Clear S p := by
  rintro s hs hold
  have hp0 : p ≠ 0 := by
    rintro rfl
    exact h.clear_zero s hs hold
  apply hh
  rw [h.own s hs heap p (hp hp0) hold]
  exact List.mem_map_of_mem hs

namespace Tenants

theorem housed_call (h : Tenants env owns) (c : RealCall) (hw : Housed owns S w) (hc : w.rtlReAllocateClosed = true) :
    Housed owns S (exec (call env c) w).2 := by
  obtain ⟨hsys, hsh⟩ := h.quiet c w hc
  refine ⟨hsh.trans hw.shards, ?_, ?_⟩
  · show Sheltered (exec (env.real c) w).2.tool.sys S
    rw [hsys]
    exact hw.sheltered
  · intro s hs
    exact h.kept c w hc s (hw.shards.symm ▸ hs) (hw.own s hs)

theorem call (h : Tenants env owns) (c : RealCall) : Triple (Inside owns S) (call env c) fun _ => Inside owns S := by
  intro w hw
  refine ⟨h.housed_call c hw.toHoused hw.closed, ?_⟩
  have hm : (exec (Ts3Vas.call env c) w).2.marks = w.marks := h.calm.call c w (inside_of_closed hw.forward_closed)
  exact (congrArg (·.thread.hookActive) hm).trans hw.hooking

theorem callValue (h : Tenants env owns) (c : RealCall) : Triple (Inside owns S) (callValue env c) fun _ => Inside owns S :=
  (h.call c).bind fun _ => .pure fun _ hw => hw

end Tenants

theorem inside_setInHook (b : Bool) : Triple (Inside owns S) (setInHook b) fun _ => Inside owns S := by
  intro w hw
  show Inside owns S (if _ then _ else _)
  split
  · exact ⟨hw.toHoused.of_eq rfl rfl rfl, hw.hooking⟩
  · exact hw

theorem inside_proxyHeapHookScope {α : Type} {m : Hook σ α} (hm : Triple (Inside owns S) m fun _ => Inside owns S) :
    Triple (Inside owns S) (proxyHeapHookScope m) fun _ => Inside owns S := by
  refine .get fun w hw => .ite (fun _ => ?_) (fun _ => ?_)
  · exact hm.here hw
  · refine Triple.bind (Q := fun _ => Inside owns S) ?_ fun _ => hm.bind fun _ => (inside_setInHook false).bind fun _ => .pure fun _ h => h
    exact (inside_setInHook true).here hw

/-- A change of the tool that leaves the arena and the shards. -/
theorem inside_onTool {f : Tool → Tool} (hf : ∀ t, (f t).sys = t.sys ∧ (f t).shards = t.shards) :
    Triple (Inside owns S) (onTool f) fun _ => Inside owns S :=
  fun w hw => ⟨hw.toHoused.of_eq rfl (hf w.tool).1 (hf w.tool).2, hw.hooking⟩

theorem inside_activateProxy : Triple (Inside owns S) activateProxy fun _ => Inside owns S :=
  inside_onTool fun t => by split <;> exact ⟨rfl, rfl⟩

theorem inside_onlyIf {c : Prop} [Decidable c] {m : Hook σ Unit} (hm : Triple (Inside owns S) m fun _ => Inside owns S) :
    Triple (Inside owns S) (onlyIf c m) fun _ => Inside owns S := .ite (fun _ => hm) fun _ => .pure fun _ h => h

/-! ## What the branches keep -/

theorem exec_arenaFree (w : World σ) (p size : ℕ) : exec (arenaFree p size) w =
    (⟨⟩, { w with tool := { w.tool with sys := w.tool.sys.step (.free ⟨p, size⟩) } }) := rfl

namespace Tenants

/-- Every shard that is tried may refuse. -/
theorem proxyHeapTry (h : Tenants env owns) (flags size : ℕ) (start : ℤ) (n : ℕ) : ∀ ks : List ℕ,
    Triple (Inside owns S) (proxyHeapTry env flags size start n ks) fun _ => Inside owns S
  | [] => .pure fun _ hw => hw
  | k :: ks => by
    have ih := h.proxyHeapTry flags size start n ks
    refine .get fun w hw => .ite (fun _ => ?_) (fun _ => ih.here hw)
    refine ((h.callValue _).here hw).bind fun p => ?_
    exact .ite (fun _ => .pure fun _ hw => hw) fun _ => ih

theorem proxyHeapAlloc (h : Tenants env owns) (flags size : ℕ) :
    Triple (Inside owns S) (proxyHeapAlloc env flags size) fun _ => Inside owns S := by
  refine .get fun w hw => .ite (fun _ => .pure fun _ e => e ▸ hw) fun _ => ?_
  refine (inside_proxyHeapHookScope ?_).here hw
  refine Triple.bind (Q := fun _ => Inside owns S) ?_ fun _ => .get fun v hv => ?_
  · exact inside_onTool fun _ => ⟨rfl, rfl⟩
  exact (h.proxyHeapTry flags size _ _ _).here hv

theorem proxyHeapSize (h : Tenants env owns) (flags p : ℕ) :
    Triple (Inside owns S) (proxyHeapSize env flags p) fun _ => Inside owns S := by
  refine .get fun w hw => ?_
  cases proxyHeapShardOf w.tool p with
  | none => exact .pure fun _ e => e ▸ hw
  | some s =>
    refine .ite (fun _ => ?_) fun _ => .pure fun _ e => e ▸ hw
    exact (inside_proxyHeapHookScope (h.callValue _)).here hw

theorem probeSardineLoss (h : Tenants env owns) (p : ℕ) :
    Triple (Inside owns S) (probeSardineLoss env p) fun _ => Inside owns S := by
  refine .get fun w hw => .ite (fun _ => ?_) fun _ => .pure fun _ e => e ▸ hw
  exact (h.proxyHeapSize 0 p).map (Q := fun _ => Inside owns S) (fun _ _ h => h) |>.here hw

/-- Inside a hook the commit goes straight down. -/
theorem commitSlot (h : Tenants env owns) (hw : Inside owns S w) (p size protect : ℕ) :
    Inside owns S (exec (commitSlot env p size protect) w).2 ∧
      (exec (commitSlot env p size protect) w).2.tool.sys = w.tool.sys ∧
      ((exec (commitSlot env p size protect) w).1 ≠ 0 → 0 < size ∧ p + size ≤ 2 ^ 32) := by
  unfold Ts3Vas.commitSlot forward
  rw [exec_bind, exec_get, hw.forward_closed, Bool.true_or, if_pos rfl]
  by_cases hr : w.tool.resolved .virtualAlloc = true
  · have hr' : w.tool.resolved (RealCall.virtualAlloc p size MEM_COMMIT protect).api = true := hr
    rw [if_pos hr']
    exact ⟨h.callValue _ w hw, (h.quiet _ w hw.closed).1, h.commit p size protect w⟩
  · have hr' : ¬ w.tool.resolved (RealCall.virtualAlloc p size MEM_COMMIT protect).api = true := hr
    rw [if_neg hr']
    exact ⟨hw, rfl, fun hc => absurd rfl hc⟩

/-- A capture hands out a pointer that no shard holds. -/
theorem createProxyAllocation (h : Tenants env owns) (caller : Caller) (size protect : ℕ) :
    Triple (Inside owns S) (createProxyAllocation env caller size protect) fun p w => Inside owns S w ∧ Clear S p := by
  refine .get fun w hw => .ite (fun _ => .pure fun _ e => ?_) fun _ => .ite (fun _ => .pure fun _ e => ?_) fun _ => ?_
  · exact ⟨e ▸ hw, hw.clear_zero⟩
  · exact ⟨e ▸ hw, hw.clear_zero⟩
  rintro v rfl
  generalize (if protect = 0 then PAGE_READWRITE else protect) = commitProtect
  rw [exec_bind, exec_arenaAllocate]
  dsimp only
  rw [exec_ite]
  have hs := hw.sheltered
  by_cases hp : (v.tool.sys.alloc.allocate size (v.tool.sys.alloc.prefersTopDown size)).1 = 0
  · rw [if_pos hp]
    exact ⟨⟨⟨hw.shards, hs.refused hp, hw.own⟩, hw.hooking⟩, hw.clear_zero⟩
  rw [if_neg hp, exec_ite]
  by_cases hc : (!isProxyAddress v.tool (v.tool.sys.alloc.allocate size (v.tool.sys.alloc.prefersTopDown size)).1 ||
      decide ((v.tool.sys.alloc.allocate size (v.tool.sys.alloc.prefersTopDown size)).1 % pageSize ≠ 0)) = true
  · rw [if_pos hc]
    exact ⟨⟨⟨hw.shards, hs.returned hp, hw.own⟩, hw.hooking⟩, hw.clear_zero⟩
  rw [if_neg hc, exec_bind, exec_ite]
  have hin : Inside owns S { v with tool := { v.tool with
      sys := v.tool.sys.step (.allocate size (v.tool.sys.alloc.prefersTopDown size)) } } :=
    ⟨⟨hw.shards, hs.granted hp, hw.own⟩, hw.hooking⟩
  obtain ⟨hw', hsys, hcommit⟩ := h.commitSlot hin (v.tool.sys.alloc.allocate size (v.tool.sys.alloc.prefersTopDown size)).1
    size commitProtect
  by_cases hcz : (exec (Ts3Vas.commitSlot env (v.tool.sys.alloc.allocate size (v.tool.sys.alloc.prefersTopDown size)).1
      size commitProtect) { v with tool := { v.tool with
        sys := v.tool.sys.step (.allocate size (v.tool.sys.alloc.prefersTopDown size)) } }).1 = 0
  · -- the commit has failed, and the slot goes back
    rw [if_pos hcz, exec_bind, exec_arenaFree, exec_pure]
    refine ⟨⟨⟨hw'.shards, ?_, hw'.own⟩, hw'.hooking⟩, hw.clear_zero⟩
    dsimp only
    rw [hsys]
    exact hs.returned hp
  · rw [if_neg hcz]
    refine ⟨⟨⟨hw'.shards, hw'.sheltered, hw'.own⟩, hw'.hooking⟩, fun s hmem => hs.apart hp ?_ ?_ hmem⟩
    · rw [Bool.not_eq_true, Bool.or_eq_false_iff, Bool.not_eq_false'] at hc
      exact hc.1
    · exact hs.sound.granted_pos hp (hcommit hcz).1 (hcommit hcz).2

theorem corralCapture (h : Tenants env owns) (caller : Caller) (size : ℕ) :
    Triple (Inside owns S) (corralCapture env caller size) fun p w => Inside owns S w ∧ Clear S p := by
  refine .get fun w hw => .ite (fun _ => ?_) fun _ => .pure fun _ e => e ▸ ⟨hw, hw.clear_zero⟩
  refine ((inside_onlyIf inside_activateProxy).here hw).bind fun _ => .get fun v hv => ?_
  refine .ite (fun _ => ?_) fun _ => .pure fun _ e => e ▸ ⟨hv, hv.clear_zero⟩
  exact (h.createProxyAllocation caller size _).here hv

theorem arenaCapture (h : Tenants env owns) (caller : Caller) (size : ℕ) :
    Triple (Inside owns S) (arenaCapture env caller size) fun p w => Inside owns S w ∧ Clear S p := by
  refine .get fun w hw => .ite (fun _ => ?_) fun _ => .pure fun _ e => e ▸ ⟨hw, hw.clear_zero⟩
  refine ((inside_onlyIf inside_activateProxy).here hw).bind fun _ => .get fun v hv => ?_
  refine .ite (fun _ => ?_) fun _ => .pure fun _ e => e ▸ ⟨hv, hv.clear_zero⟩
  exact (h.createProxyAllocation caller size _).here hv

end Tenants

end

end Ts3Vas
