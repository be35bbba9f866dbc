/-
Runs of the hooks by any threads that create executable heaps and ask for blocks on them: when every
such block stays out of the shards and of the arena, whose pages cannot be executed.
-/
import Ts3Vas.Hook.Audio

namespace Ts3Vas

open Prog

variable {σ : Type}

/-! ## Calls -/

/-- What a call asks one of the three hooks for. -/
structure Request where
  entry : Entry
  caller : Caller
  heap : ℕ
  flags : ℕ
  size : ℕ

namespace HookCall

def request : HookCall → Option Request
  | rtlAllocateHeap caller heap flags size => some ⟨.rtlAllocateHeap, caller, heap, flags, size⟩
  | heapAlloc caller heap flags size => some ⟨.heapAlloc, caller, heap, flags, size⟩
  | heapReAlloc caller heap flags p size => some ⟨.heapReAlloc p, caller, heap, flags, size⟩
  | _ => none

theorem run_request (env : Env σ) {c : HookCall} {q : Request} (h : c.request = some q) :
    c.run env = q.entry.run env q.caller q.heap q.flags q.size := by
  cases c <;> cases h <;> rfl

/-- The call is to create an executable heap. -/
def createsExec : HookCall → Bool
  | rtlCreateHeap flags .. => hasFlag flags HEAP_CREATE_ENABLE_EXECUTE
  | heapCreate options .. => hasFlag options HEAP_CREATE_ENABLE_EXECUTE
  | _ => false

/-- A heap that the call creates gets noted: it is created outside any hook and by `RtlCreateHeap`, and
there is room in `s_execHeaps`. -/
def notes (w : World σ) : HookCall → Bool
  | rtlCreateHeap .. => !w.closed && decide (w.tool.execHeaps.length < kMaxExecHeaps)
  | _ => false

end HookCall

namespace Entry

/-- The arena branch of the hook is open to the request, and there is a slot to commit. -/
def arenaOpen (t : Tool) (caller : Caller) (size : ℕ) : Entry → Bool
  | rtlAllocateHeap => arenaGate t caller size && decide (slotFor t caller.self size ≠ 0)
  | heapAlloc | heapReAlloc _ => forceGate t size && decide (slotFor t caller.self size ≠ 0)

/-- A block that is reallocated is one of the heap. -/
def Known (blocks : List (ℕ × ℕ)) (heap : ℕ) : Entry → Prop
  | heapReAlloc p => p = 0 ∨ (heap, p) ∈ blocks
  | _ => True

instance decidableKnown (blocks : List (ℕ × ℕ)) (heap : ℕ) : (e : Entry) → Decidable (e.Known blocks heap)
  | heapReAlloc _ => inferInstanceAs (Decidable (_ ∨ _))
  | rtlAllocateHeap | heapAlloc => inferInstanceAs (Decidable True)

/-- On a heap that is noted no sardine branch is open. -/
theorem exposed_of_noted {t : Tool} {caller : Caller} {heap size : ℕ} (h : heap ∈ t.execHeaps) (heard : Bool) (e : Entry) :
    e.exposed t caller heard heap size = e.arenaOpen t caller size := by
  have hexec : proxyHeapIsExecHeap t heap = true := decide_eq_true h
  have hgate : heapAllocSardineGate t caller heap size = false := by simp [heapAllocSardineGate, hexec]
  cases e <;> simp [exposed, arenaOpen, hgate]

end Entry

/-! ## What the layout fixes -/

theorem Fixed.captured {t t' : Tool} (h : Fixed t t') (p : ℕ) : t'.Captured p ↔ t.Captured p := by
  unfold Tool.Captured
  rw [h.shards, h.isProxyAddress]

/-- What is asked of the functions below the hooks: they leave the marks and the layout, note no heap
behind the guard, and a heap that is no shard's hands out memory of its own. -/
structure Below (env : Env σ) (t : Tool) : Prop where
  calm : Calm env
  settled : Settled env
  quiet : ∀ c w, w.closed = true → (exec (env.real c) w).2.tool.execHeaps = w.tool.execHeaps
  own : ∀ (e : Entry) heap flags size w, heap ∉ t.shards.map (·.handle) → e.Own t → w.rtlReAllocateClosed = true →
    ¬ t.Captured (exec (env.real (e.realCall heap flags size)) w).1.value

section
variable {env : Env σ} {t : Tool} {w : World σ}

theorem Entry.own_of_fixed (h : Fixed t w.tool) {e : Entry} (ho : e.Own t) : e.Own w.tool := by
  cases e with
  | rtlAllocateHeap => trivial
  | heapAlloc => trivial
  | heapReAlloc p => exact fun hc => ho ((h.captured p).1 hc)

/-- A request on a noted heap, with the arena branch shut to it. -/
theorem Below.not_captured (h : Below env t) (hf : Fixed t w.tool) {q : Request} (hcorral : q.caller.corralTarget = false)
    (hh : q.heap ∉ t.shards.map (·.handle)) (ho : q.entry.Own t) (hn : q.heap ∈ w.tool.execHeaps)
    (hx : (q.entry.passes w && q.entry.arenaOpen w.tool q.caller q.size) = false) :
    ¬ t.Captured (exec (q.entry.run env q.caller q.heap q.flags q.size) w).1 := by
  rw [← hf.captured]
  have hforeign : Foreign env w.tool (q.entry.realCall q.heap q.flags q.size) :=
    ⟨h.calm, fun v hv hc => h.own q.entry q.heap q.flags q.size v hh ho hv ((hf.captured _).1 hc)⟩
  have ho' := Entry.own_of_fixed hf ho
  by_cases hp : q.entry.passes w = true
  · rw [hp, Bool.true_and, ← Entry.exposed_of_noted hn q.caller.audio] at hx
    have hshut : ¬ _ := Bool.eq_false_iff.1 hx
    rw [Entry.captured_run hp ho' hforeign hcorral (fun _ => rfl) (fun h => absurd h hshut) fun h => absurd h hshut]
    exact hshut
  · exact Entry.not_captured_of_closed (Bool.eq_false_iff.2 hp) ho' hforeign

theorem hooking_setInHook {R : Tool → Prop} (b : Bool) :
    Triple (fun v : World σ => Hooking v ∧ R v.tool) (setInHook b) fun _ v => Hooking v ∧ R v.tool := by
  rintro v hv
  show Hooking (if _ then _ else _) ∧ R (World.tool (if _ then _ else _))
  split <;> exact hv

/-- The scope of a hook, for what is said of the tool alone. -/
theorem tool_rtlHookScope {α : Type} {m : Hook σ α} {R : Tool → Prop} {Q : α → Tool → Prop}
    (hm : Triple (fun v => Hooking v ∧ R v.tool) m fun a v => Q a v.tool) :
    Triple (fun v => R v.tool) (rtlHookScope m) fun a v => Q a v.tool :=
  fun v hv => hm { v with thread := { v.thread with hookActive := true } } ⟨rfl, hv⟩

/-- An executable heap that `Hooked_RtlCreateHeap` creates outside any hook is noted, if there is room. -/
theorem Below.notes (h : Below env t) {flags base reserve commit lock params : ℕ} (hopen : w.closed = false)
    (hroom : w.tool.execHeaps.length < kMaxExecHeaps) (hflag : hasFlag flags HEAP_CREATE_ENABLE_EXECUTE = true) :
    (exec (hookedRtlCreateHeap env flags base reserve commit lock params) w).1 ≠ 0 →
      (exec (hookedRtlCreateHeap env flags base reserve commit lock params) w).1 ∈
        (exec (hookedRtlCreateHeap env flags base reserve commit lock params) w).2.tool.execHeaps := by
  have hv : Triple (fun v => v = w) (hookedRtlCreateHeap env flags base reserve commit lock params)
      fun p v => p ≠ 0 → p ∈ v.tool.execHeaps := by
    refine .get fun v hv => .ite (fun hc => absurd hc (by simp [hv, hopen])) fun _ => ?_
    refine Triple.mono (tool_rtlHookScope (R := fun t => t.execHeaps.length < kMaxExecHeaps)
      (Q := fun p t => p ≠ 0 → p ∈ t.execHeaps) ?_) (fun _ e => by rw [e, hv]; exact hroom) fun _ _ hp => hp
    refine Triple.bind (hooking_setInHook (R := fun t => t.execHeaps.length < kMaxExecHeaps) true) fun _ => ?_
    refine Triple.bind (Q := fun _ v => v.tool.execHeaps.length < kMaxExecHeaps) ?_ fun p => ?_
    -- the real function runs behind the guard, where no heap is noted
    · rintro v ⟨hact, hlen⟩
      have hc : v.closed = true := by simp [World.closed, World.busy, show v.thread.hookActive = true from hact]
      show (exec (env.real _) v).2.tool.execHeaps.length < kMaxExecHeaps
      rw [h.quiet _ v hc]
      exact hlen
    refine Triple.bind (Q := fun _ v => p ≠ 0 → p ∈ v.tool.execHeaps) ?_ fun _ => ?_
    · refine .ite (fun hc v hv _ => ?_) fun hc => .pure fun _ _ h0 => absurd ⟨h0, hflag⟩ hc
      have he : (exec (proxyHeapNoteExecHeap p) v).2.tool.execHeaps = v.tool.execHeaps ++ [p] := by
        simp [proxyHeapNoteExecHeap, onTool, hc.1, not_le.2 hv]
      rw [he]
      exact List.mem_append_right _ (List.mem_singleton_self p)
    · intro v hv
      show p ≠ 0 → p ∈ (World.tool (if _ then _ else _)).execHeaps
      split <;> exact hv
  exact hv w rfl

end

/-! ## Runs -/

/-- A process: the threads with their marks, the executable heaps that have been created, and the
blocks that have been handed out on them. -/
structure Session (σ : Type) where
  world : World σ
  threads : ℕ → Thread
  created : List ℕ
  blocks : List (ℕ × ℕ)

namespace Session

def start (w : World σ) (threads : ℕ → Thread) : Session σ := ⟨w, threads, [], []⟩

/-- The world as a thread sees it. -/
def onThread (s : Session σ) (thread : ℕ) : World σ := { s.world with thread := s.threads thread }

/-- What a thread's call of a hook returns, and the world after it. -/
def call (env : Env σ) (s : Session σ) (e : ℕ × HookCall) : ℕ × World σ := exec (e.2.run env) (s.onThread e.1)

/-- The blocks after a call that has returned `p`. -/
def blocksWith (s : Session σ) (c : HookCall) (p : ℕ) : List (ℕ × ℕ) :=
  match c.request with
  | some q => if q.heap ∈ s.created then s.blocks ++ [(q.heap, p)] else s.blocks
  | none => s.blocks

def step (env : Env σ) (s : Session σ) (e : ℕ × HookCall) : Session σ where
  world := (s.call env e).2
  threads := Function.update s.threads e.1 (s.call env e).2.thread
  created := if e.2.createsExec = true ∧ (s.call env e).1 ≠ 0 then s.created ++ [(s.call env e).1] else s.created
  blocks := s.blocksWith e.2 (s.call env e).1

/-- No heap is corralled, none that is named is a shard's, and a block of an executable heap that is
reallocated has been handed out on it. -/
def Lawful (s : Session σ) (e : ℕ × HookCall) : Prop :=
  ∀ q ∈ e.2.request, q.caller.corralTarget = false ∧ q.heap ∉ s.world.tool.shards.map (·.handle) ∧
    (q.heap ∈ s.created → q.entry.Known s.blocks q.heap)

instance decidableLawful (s : Session σ) (e : ℕ × HookCall) : Decidable (s.Lawful e) :=
  inferInstanceAs (Decidable (∀ q ∈ e.2.request, _ ∧ _ ∧ (_ → _)))

/-- An executable heap that is created gets noted, and no arena branch is open to a request on one. -/
def Kept (s : Session σ) (e : ℕ × HookCall) : Prop :=
  (e.2.createsExec = true → e.2.notes (s.onThread e.1) = true) ∧
    ∀ q ∈ e.2.request, q.heap ∈ s.created →
      (q.entry.passes (s.onThread e.1) && q.entry.arenaOpen s.world.tool q.caller q.size) = false

instance decidableKept (s : Session σ) (e : ℕ × HookCall) : Decidable (s.Kept e) :=
  inferInstanceAs (Decidable ((_ → _) ∧ ∀ q ∈ e.2.request, _ → _))

/-- What every run keeps: the layout `t`, the executable heaps noted, their blocks outside. -/
structure Sound (t : Tool) (s : Session σ) : Prop where
  fixed : Fixed t s.world.tool
  noted : s.created ⊆ s.world.tool.execHeaps
  own : ∀ b ∈ s.blocks, ¬ t.Captured b.2

section
variable {env : Env σ} {t : Tool} {s : Session σ} {e : ℕ × HookCall}

theorem fixed_step (he : Below env t) (s : Session σ) (e : ℕ × HookCall) : Fixed s.world.tool (s.step env e).world.tool :=
  he.settled.step (s.onThread e.1) e.2

theorem Sound.noted_step (h : s.Sound t) (he : Below env t) (hk : s.Kept e) :
    (s.step env e).created ⊆ (s.step env e).world.tool.execHeaps := by
  have hold : s.created ⊆ (s.step env e).world.tool.execHeaps := List.Subset.trans h.noted (fixed_step he s e).execHeaps
  intro heap hm
  have hm : heap ∈ if e.2.createsExec = true ∧ (s.call env e).1 ≠ 0 then s.created ++ [(s.call env e).1] else s.created := hm
  split at hm
  · rename_i hc
    rcases List.mem_append.1 hm with hm | hm
    · exact hold hm
    rw [List.mem_singleton.1 hm]
    obtain ⟨k, c⟩ := e
    have hnotes := hk.1 hc.1
    cases c with
    | rtlCreateHeap =>
      simp only [HookCall.notes, Bool.and_eq_true, Bool.not_eq_true', decide_eq_true_eq] at hnotes
      exact he.notes hnotes.1 hnotes.2 hc.1 hc.2
    | _ => cases hnotes
  · exact hold hm

theorem Sound.own_known (h : s.Sound t) {e : Entry} {heap : ℕ} (hk : e.Known s.blocks heap) : e.Own t := by
  cases e with
  | rtlAllocateHeap => trivial
  | heapAlloc => trivial
  | heapReAlloc p =>
    rcases hk with rfl | hm
    · exact not_captured_zero
    · exact h.own _ hm

theorem Sound.own_step (h : s.Sound t) (he : Below env t) (hl : s.Lawful e) (hk : s.Kept e) :
    ∀ b ∈ (s.step env e).blocks, ¬ t.Captured b.2 := by
  intro b hb
  have hb : b ∈ s.blocksWith e.2 (s.call env e).1 := hb
  unfold blocksWith at hb
  split at hb
  · rename_i q hq
    obtain ⟨hcorral, hh, hknown⟩ := hl q hq
    split at hb
    · rename_i hmem
      rcases List.mem_append.1 hb with hb | hb
      · exact h.own b hb
      rw [List.mem_singleton.1 hb, call, HookCall.run_request env hq]
      rw [h.fixed.shards] at hh
      exact he.not_captured (w := s.onThread e.1) h.fixed hcorral hh (h.own_known (hknown hmem)) (h.noted hmem)
        (hk.2 q hq hmem)
    · exact h.own b hb
  · exact h.own b hb

theorem Sound.step (h : s.Sound t) (he : Below env t) (hl : s.Lawful e) (hk : s.Kept e) : (s.step env e).Sound t :=
  ⟨IsTrans.trans _ _ _ h.fixed (fixed_step he s e), h.noted_step he hk, h.own_step he hl hk⟩

end

end Session

/-! ## A heap by either entry point -/

/-- The heap of the shard, and one at 0x50000000. -/
def Env.twoHeaps : Env Unit where
  real c w := (⟨match c with
    | .rtlAllocateHeap heap _ size | .heapAlloc heap _ size | .heapReAlloc heap _ _ size =>
      if (heap = 0x10000000 ∨ heap = 0x50000000) ∧ size < 2 ^ 16 then heap + 0x1000 else 0
    | .rtlCreateHeap _ base _ _ _ _ => if base = 0 then 0x50000000 else base
    | .virtualAlloc p _ _ _ => p
    | _ => 0, 0, 0⟩, w)
  handleLive _ _ := true
  stray _ := 0
  memcpy _ _ _ s := s
  isCorralAddress _ _ := false
  corralReserve _ _ _ s := (0, s)
  corralFree _ s := s

/-- `HeapCreate` calls `RtlCreateHeap`, and so its hook. -/
def Env.kernel : Env Unit where
  real
    | .heapCreate options initial maximum => do
      let heap ← hookedRtlCreateHeap Env.twoHeaps options 0 maximum initial 0 0
      return ⟨heap, 0, 0⟩
    | c => Env.twoHeaps.real c
  handleLive := Env.twoHeaps.handleLive
  stray := Env.twoHeaps.stray
  memcpy := Env.twoHeaps.memcpy
  isCorralAddress := Env.twoHeaps.isCorralAddress
  corralReserve := Env.twoHeaps.corralReserve
  corralFree := Env.twoHeaps.corralFree

namespace Session

/-- A thread outside any hook. -/
def idle (_ : ℕ) : Thread := ⟨false, false, false⟩

/-- An executable heap made by `RtlCreateHeap`, and blocks on it. -/
def noted : List (ℕ × HookCall) :=
  [(0, .rtlCreateHeap HEAP_CREATE_ENABLE_EXECUTE 0 0 0 0 0), (0, .rtlAllocateHeap .plain 0x50000000 0 100),
    (1, .heapReAlloc .plain 0x50000000 0 0x50001000 200), (1, .heapAlloc .plain 0x50000000 0 3000)]

end Session

end Ts3Vas
