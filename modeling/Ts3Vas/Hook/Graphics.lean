/-
Calls of the two heap-allocation hooks from any number of modules and threads: none whose return
address lies in a graphics module gets a block of a shard, as far as the table knows the module's name.
-/
import Ts3Vas.Hook.Caches
import Ts3Vas.Hook.Shards

namespace Ts3Vas

open Prog

variable {σ : Type}

/-! ## One call -/

section
variable {env : Env σ} {owns : σ → ℕ → ℕ → Prop} {S : List Shard} {P : ℕ → Prop}

/-- The scope of a hook. -/
theorem housed_rtlHookScope {m : Hook σ ℕ} (hm : Triple (Inside owns S) m fun p w => Inside owns S w ∧ P p) :
    Triple (Housed owns S) (rtlHookScope m) fun p w => Housed owns S w ∧ P p := by
  intro w hw
  obtain ⟨hin, hp⟩ := hm { w with thread := { w.thread with hookActive := true } } ⟨hw.of_eq rfl rfl rfl, rfl⟩
  exact ⟨hin.toHoused.of_eq rfl rfl rfl, hp⟩

/-- `SetInHook(false); return p;` -/
theorem inside_leave (p : ℕ) : Triple (fun w => Inside owns S w ∧ P p) (do setInHook (σ := σ) false; return p)
    fun q w => Inside owns S w ∧ P q := by
  rintro w ⟨hw, hp⟩
  exact ⟨inside_setInHook false w hw, hp⟩

theorem inside_attempt {c : Prop} [Decidable c] {m : Hook σ ℕ} (hm : c → Triple (Inside owns S) m fun p w => Inside owns S w ∧ P p)
    (h0 : P 0) : Triple (Inside owns S) (attempt c m) fun p w => Inside owns S w ∧ P p :=
  .ite hm fun _ => .pure fun _ hw => ⟨hw, h0⟩

theorem inside_orElse (p : ℕ) {m : Hook σ ℕ} (hm : Triple (Inside owns S) m fun q w => Inside owns S w ∧ P q) :
    Triple (fun w => Inside owns S w ∧ P p) (orElse p m) fun q w => Inside owns S w ∧ P q :=
  .ite (fun _ => hm.mono (fun _ h => h.1) fun _ _ h => h) fun _ => .pure fun _ h => h

/-- The caller's own heap. -/
theorem Tenants.ownHeap (h : Tenants env owns) {c : RealCall} {heap : ℕ} (hh : heap ∉ S.map (·.handle))
    (hc : ∀ w, w.rtlReAllocateClosed → (exec (env.real c) w).1.value ≠ 0 →
      owns (exec (env.real c) w).2.os heap (exec (env.real c) w).1.value) :
    ∀ w, Housed owns S w → w.rtlReAllocateClosed → Housed owns S (exec (Ts3Vas.callValue env c) w).2 ∧
      Clear S (exec (Ts3Vas.callValue env c) w).1 := by
  intro w hw hcl
  have hk : Housed owns S (exec (Ts3Vas.callValue env c) w).2 := h.housed_call c hw hcl
  exact ⟨hk, hk.clear_of_owns hh (hc w hcl)⟩

theorem closed_of_forward {w : World σ} (h : w.closed = true) : w.rtlReAllocateClosed = true := by
  rw [World.closed, Bool.or_eq_true] at h
  rw [World.rtlReAllocateClosed, Bool.or_eq_true, Bool.or_eq_true]
  rcases h with h | h
  · exact .inl (.inl h)
  · exact .inr h

/-- A graphics caller gets no block of a shard. -/
def Fenced (S : List Shard) (caller : Caller) (p : ℕ) : Prop := caller.graphics = true → Clear S p

/-- A sardine branch behind a gate that is closed to graphics modules. -/
theorem Tenants.sardine (h : Tenants env owns) {caller : Caller} {c : Prop} [Decidable c] (hc : c → caller.graphics = false)
    (flags size : ℕ) : Triple (Inside owns S) (attempt c (Ts3Vas.proxyHeapAlloc env flags size))
      fun p w => Inside owns S w ∧ (caller.graphics = true → p = 0) := by
  refine inside_attempt (P := fun p => caller.graphics = true → p = 0) (fun hg => ?_) fun _ => rfl
  refine (h.proxyHeapAlloc flags size).mono (fun _ hw => hw) fun _ _ hw => ⟨hw, fun hgfx => ?_⟩
  rw [hc hg] at hgfx
  cases hgfx

namespace Tenants

variable {heap : ℕ} (hh : heap ∉ S.map (·.handle))
include hh

theorem hookedRtlAllocateHeap (h : Tenants env owns) (caller : Caller) (flags size : ℕ) :
    Triple (Housed owns S) (hookedRtlAllocateHeap env caller heap flags size)
      fun p w => Housed owns S w ∧ Fenced S caller p := by
  have hreal := h.ownHeap (S := S) hh (h.rtlAllocateHeap heap flags size)
  refine .get fun w hw => .ite (fun hc => ?_) fun _ => ?_
  · rintro v rfl
    obtain ⟨hk, hclear⟩ := hreal v hw hc
    exact ⟨hk, fun _ => hclear⟩
  refine (housed_rtlHookScope ?_).here hw
  refine (inside_setInHook true).bind fun _ => (h.corralCapture caller size).bind fun p => .ite (fun _ => ?_) fun _ => ?_
  · exact (inside_leave p).mono (fun v hv => ⟨hv.1, fun _ => hv.2⟩) fun _ _ h => h
  refine .get fun v hv => ?_
  have hclosed : sardineGate v.tool caller heap size = true → caller.graphics = false := by
    intro hg
    simp only [sardineGate, Bool.and_eq_true, Bool.not_eq_true'] at hg
    exact hg.1.2
  refine ((h.sardine hclosed flags size).here hv.1).bind fun p => .ite (fun hp => ?_) fun _ => ?_
  · rintro t ⟨ht, hp0⟩
    refine (inside_leave (P := Fenced S caller) p) _ ⟨h.probeSardineLoss p t ht, fun hgfx => ?_⟩
    exact absurd (hp0 hgfx) hp
  refine ((h.arenaCapture caller size).mono (fun t ht => ht.1) fun _ _ ht => ht).bind fun p => .ite (fun _ => ?_) fun _ => ?_
  · exact (inside_leave p).mono (fun t ht => ⟨ht.1, fun _ => ht.2⟩) fun _ _ h => h
  · rintro t ⟨ht, -⟩
    obtain ⟨hk, hclear⟩ := hreal t ht.toHoused ht.closed
    exact ⟨inside_setInHook false _ (h.callValue _ t ht), fun _ => hclear⟩

theorem hookedHeapAlloc (h : Tenants env owns) (caller : Caller) (flags size : ℕ) :
    Triple (Housed owns S) (hookedHeapAlloc env caller heap flags size)
      fun p w => Housed owns S w ∧ Fenced S caller p := by
  have hreal := h.ownHeap (S := S) hh (h.heapAlloc heap flags size)
  refine .get fun w hw => .ite (fun hc => .ite (fun hr => ?_) fun _ => ?_) fun _ => ?_
  · rintro v rfl
    have hcl : v.closed = true := by simpa [hr] using hc
    obtain ⟨hk, hclear⟩ := hreal v hw (closed_of_forward hcl)
    exact ⟨hk, fun _ => hclear⟩
  · exact .pure fun _ e => e ▸ ⟨hw, fun _ => hw.clear_zero⟩
  refine (housed_rtlHookScope ?_).here hw
  refine (inside_setInHook true).bind fun _ => .get fun v hv => ?_
  have hclosed : heapAllocSardineGate v.tool caller heap size = true → caller.graphics = false := by
    intro hg
    simp only [heapAllocSardineGate, Bool.and_eq_true, Bool.not_eq_true'] at hg
    exact hg.2
  refine ((h.sardine hclosed flags size).here hv).bind fun p => ?_
  -- from here on null stands for a graphics caller that has got nothing yet
  refine Triple.bind (Q := fun _ t => Inside owns S t ∧ Fenced S caller p) ?_ fun _ => .get fun u hu => ?_
  · refine .ite (fun hp => ?_) fun hp => .pure fun t ht => ⟨ht.1, fun hgfx => ?_⟩
    · rintro t ⟨ht, hp0⟩
      exact ⟨h.probeSardineLoss p t ht, fun hgfx => absurd (hp0 hgfx) hp⟩
    · rw [not_not.1 hp]
      exact ht.1.clear_zero
  refine Triple.bind (Q := fun q t => Inside owns S t ∧ Fenced S caller q) ?_ fun q => ?_
  · refine (inside_orElse p ?_).here hu
    refine inside_attempt (fun _ => ?_) fun _ => hw.clear_zero
    exact (h.createProxyAllocation caller size _).mono (fun _ ht => ht) fun _ _ ht => ⟨ht.1, fun _ => ht.2⟩
  refine Triple.bind (Q := fun q t => Inside owns S t ∧ Fenced S caller q) ?_ fun q => inside_leave q
  refine inside_orElse q fun t ht => ?_
  obtain ⟨-, hclear⟩ := hreal t ht.toHoused ht.closed
  exact ⟨h.callValue _ t ht, fun _ => hclear⟩

end Tenants

end

/-! ## Runs of calls -/

/-- A process: the threads with their marks and last heaps, the modules, and the tables. -/
structure Process (σ : Type) where
  world : World σ
  threads : ℕ → Thread
  mods : List Module
  last : ℕ → LastHeap
  seen : Seen

/-- A module is loaded, or a thread calls one of the two hooks. -/
inductive Event
  | load (m : Module)
  | rtlAllocateHeap (thread heap flags size : ℕ) (site : Site)
  | heapAlloc (thread heap flags size : ℕ) (site : Site)

namespace Process

/-- The world as a thread sees it. -/
def onThread (s : Process σ) (thread : ℕ) : World σ := { s.world with thread := s.threads thread }

/-- The process after a call of a hook. -/
def back (s : Process σ) (thread : ℕ) (w : World σ) (look : Looked) : Process σ where
  world := w
  threads := Function.update s.threads thread w.thread
  mods := s.mods
  last := Function.update s.last thread look.last
  seen := look.seen

/-- A hook that only forwards looks nothing up: no answer is read and nothing is recorded. -/
def lookIf (s : Process σ) (thread : ℕ) (closed : Bool) (look : Looked) : Looked :=
  if closed then ⟨look.caller, s.last thread, s.seen⟩ else look

def lookAt (s : Process σ) : Event → Looked
  | .load _ => ⟨.plain, .start, s.seen⟩
  | .rtlAllocateHeap thread heap _ size site =>
    s.lookIf thread (s.onThread thread).rtlReAllocateClosed
      (lookRtl s.mods s.world.tool heap size site (s.last thread) s.seen)
  | .heapAlloc thread heap _ size site =>
    s.lookIf thread ((s.onThread thread).closed || !s.world.tool.resolved .heapAlloc)
      (lookHeapAlloc s.mods s.world.tool heap size site (s.last thread) s.seen)

/-- What a call returns, and the world after it. -/
def call (env : Env σ) (s : Process σ) (e : Event) : ℕ × World σ :=
  match e with
  | .load _ => (0, s.world)
  | .rtlAllocateHeap thread heap flags size _ =>
    exec (hookedRtlAllocateHeap env (s.lookAt e).caller heap flags size) (s.onThread thread)
  | .heapAlloc thread heap flags size _ =>
    exec (hookedHeapAlloc env (s.lookAt e).caller heap flags size) (s.onThread thread)

def step (env : Env σ) (s : Process σ) (e : Event) : Process σ :=
  match e with
  | .load m => { s with mods := s.mods ++ [m] }
  | .rtlAllocateHeap thread .. | .heapAlloc thread .. => s.back thread (s.call env e).2 (s.lookAt e)

/-- A module is loaded where no other is, and no caller names a shard as its heap. -/
def Lawful (s : Process σ) : Event → Prop
  | .load m => m.Fits s.mods
  | .rtlAllocateHeap _ heap .. | .heapAlloc _ heap .. => heap ∉ s.world.tool.shards.map (·.handle)

/-- The module that the return address of a call lies in. -/
def callerOf (s : Process σ) : Event → Option Module
  | .load _ => none
  | .rtlAllocateHeap _ _ _ _ site | .heapAlloc _ _ _ _ site => moduleAt s.mods site.ra

instance (s : Process σ) : (e : Event) → Decidable (s.Lawful e)
  | .load m => inferInstanceAs (Decidable (m.Fits s.mods))
  | .rtlAllocateHeap .. | .heapAlloc .. => inferInstanceAs (Decidable (_ ∉ _))

/-- What every run keeps. -/
structure Sound (owns : σ → ℕ → ℕ → Prop) (S : List Shard) (s : Process σ) : Prop where
  housed : Housed owns S s.world
  loaded : Loaded s.mods
  resolved : Resolved s.mods s.seen
  ready : s.seen.diagCSInit = true

section
variable {env : Env σ} {owns : σ → ℕ → ℕ → Prop} {S : List Shard} {s : Process σ}

theorem Sound.onThread (h : s.Sound owns S) (thread : ℕ) : Housed owns S (s.onThread thread) :=
  h.housed.of_eq rfl rfl rfl

theorem lookIf_caller (s : Process σ) (thread : ℕ) (closed : Bool) (look : Looked) :
    (s.lookIf thread closed look).caller = look.caller := by
  unfold lookIf
  split <;> rfl

/-- A lookup leaves the module table in order. -/
theorem Sound.lookIf (h : s.Sound owns S) {thread : ℕ} {closed : Bool} {look : Looked}
    (hl : Resolved s.mods look.seen ∧ look.seen.diagCSInit = true) :
    Resolved s.mods (s.lookIf thread closed look).seen ∧ (s.lookIf thread closed look).seen.diagCSInit = true := by
  unfold Process.lookIf
  split
  · exact ⟨h.resolved, h.ready⟩
  · exact hl

theorem Sound.lookAt (h : s.Sound owns S) : ∀ e, Resolved s.mods (s.lookAt e).seen ∧ (s.lookAt e).seen.diagCSInit = true
  | .load _ => ⟨h.resolved, h.ready⟩
  | .rtlAllocateHeap .. => h.lookIf (look_lookRtl h.resolved h.ready)
  | .heapAlloc .. => h.lookIf (look_lookHeapAlloc h.resolved h.ready)

/-- A call of a hook keeps the shards housed, and a graphics caller off them. -/
theorem Sound.call (h : s.Sound owns S) (he : Tenants env owns) {e : Event} (hl : s.Lawful e) :
    Housed owns S (s.call env e).2 ∧ Fenced S (s.lookAt e).caller (s.call env e).1 := by
  have hS := h.housed.shards
  cases e with
  | load m => exact ⟨h.housed, fun _ => h.housed.clear_zero⟩
  | rtlAllocateHeap thread heap flags size site =>
    have hh : heap ∉ S.map (·.handle) := hS ▸ hl
    exact he.hookedRtlAllocateHeap hh _ flags size _ (h.onThread thread)
  | heapAlloc thread heap flags size site =>
    have hh : heap ∉ S.map (·.handle) := hS ▸ hl
    exact he.hookedHeapAlloc hh _ flags size _ (h.onThread thread)

theorem Sound.step (h : s.Sound owns S) (he : Tenants env owns) {e : Event} (hl : s.Lawful e) :
    (s.step env e).Sound owns S := by
  cases e with
  | load m =>
    exact ⟨h.housed, h.loaded.append hl, h.resolved.mono (List.subset_append_left _ _), h.ready⟩
  | rtlAllocateHeap => exact ⟨(h.call he hl).1, h.loaded, (h.lookAt _).1, (h.lookAt _).2⟩
  | heapAlloc => exact ⟨(h.call he hl).1, h.loaded, (h.lookAt _).1, (h.lookAt _).2⟩

/-- A graphics module is known as one in every state, by either hook. -/
theorem Sound.graphics (h : s.Sound owns S) {e : Event} {m : Module} (hm : s.callerOf e = some m) :
    (s.lookAt e).caller.graphics = isGraphicsModule (m.baseName 64) := by
  cases e with
  | load => cases hm
  | rtlAllocateHeap =>
    unfold Process.lookAt
    rw [lookIf_caller]
    exact graphics_lookRtl h.resolved h.loaded h.ready hm
  | heapAlloc =>
    unfold Process.lookAt
    rw [lookIf_caller]
    exact graphics_lookHeapAlloc h.resolved h.loaded h.ready hm

/-- After `Install`: the arena has started, `ProxyHeapInit` has made the shards, and nothing has been
looked up. -/
structure Installed (boot : Env σ) (s : Process σ) : Prop where
  init : ∃ (w : World σ) (a : ProxyAllocator) (off : Bool) (maxSize shardCount : ℕ), Started a ∧
    w.tool.sys = ⟨a, []⟩ ∧ w.tool.shards = [] ∧ s.world = (exec (proxyHeapInit boot off maxSize shardCount) w).2
  loaded : Loaded s.mods
  seen : s.seen = .start

theorem Installed.sound {boot : Env σ} (h : Installed boot s) (hb : Boot boot owns) : ∃ S, s.Sound owns S := by
  obtain ⟨w, a, off, maxSize, shardCount, hstart, hsys, hsh, e⟩ := h.init
  have hs : w.tool.sys.Sound := hsys ▸ (Sys.start_proper hstart.whole.idle).toSound
  obtain ⟨S, hS⟩ := hb.proxyHeapInit hs hsh off maxSize shardCount
  refine ⟨S, e ▸ hS, h.loaded, ?_, ?_⟩
  · rw [h.seen]
    exact fun _ hc => (nomatch hc)
  · rw [h.seen]
    rfl

theorem sound_after (he : Tenants env owns) (h : s.Sound owns S) {es : List Event} (hes : Run.Guarded (step env) Lawful s es) :
    (Run.after (step env) s es).Sound owns S := hes.invariant (fun _ _ hs hl => hs.step he hl) h

/-- From the installation, over every run of the two hooks by any threads, callers and heaps: a call from a
graphics module gets no block of a shard, if the 63 characters that are kept of its name say what it is; and
the table, full or not, answers with a name just if these characters do. -/
theorem graphics_fenced {boot : Env σ} (hb : Boot boot owns) (he : Tenants env owns) (h : Installed boot s) {es : List Event}
    (hes : Run.Guarded (step env) Lawful s es) :
    (∀ e m, (Run.after (step env) s es).Lawful e → (Run.after (step env) s es).callerOf e = some m →
      isGraphicsModule m.name = true → isGraphicsModule (m.name.take 63) = isGraphicsModule m.name →
        Clear (Run.after (step env) s es).world.tool.shards ((Run.after (step env) s es).call env e).1) ∧
    ∀ ra m, moduleAt (Run.after (step env) s es).mods ra = some m →
      ((callerIsGraphicsModule (Run.after (step env) s es).mods ra (Run.after (step env) s es).seen).1 =
        isGraphicsModule m.name ↔ isGraphicsModule (m.name.take 63) = isGraphicsModule m.name) := by
  obtain ⟨S, hS⟩ := h.sound hb
  have hs := sound_after he hS hes
  constructor
  · intro e m hl hm hg hkept
    rw [hs.housed.shards]
    have hcaller : ((Run.after (step env) s es).lookAt e).caller.graphics = true := (hs.graphics hm).trans (hkept.trans hg)
    exact (hs.call he hl).2 hcaller
  · intro ra m hm
    rw [hs.resolved.graphics hs.loaded hs.ready hm]
    rfl

end

end Process

/-! ## A process with a driver -/

/-- A system whose heaps are regions of a megabyte. -/
def Env.regions : Env Unit where
  real c w := (⟨match c with
    | .rtlAllocateHeap heap _ size | .heapAlloc heap _ size => if heap % 2 ^ 20 = 0 ∧ size < 2 ^ 16 then heap + 0x1000 else 0
    | .virtualAlloc p size _ _ => if 0 < size ∧ p + size ≤ 2 ^ 32 then p else 0
    | .rtlCreateHeap _ base reserve _ _ _ => if base % 2 ^ 20 = 0 ∧ reserve ≤ 2 ^ 20 then base else 0
    | _ => 0, 0, 0⟩, w)
  handleLive _ _ := true
  stray _ := 0
  memcpy _ _ _ s := s
  isCorralAddress _ _ := false
  corralReserve _ _ _ s := (0, s)
  corralFree _ s := s

/-- The heap at the start of the megabyte. -/
def regionOf (_ : Unit) (heap p : ℕ) : Prop := heap % 2 ^ 20 = 0 ∧ heap ≤ p ∧ p < heap + 2 ^ 20

theorem allocate_regions {heap size : ℕ} (h : (if heap % 2 ^ 20 = 0 ∧ size < 2 ^ 16 then heap + 0x1000 else 0) ≠ 0) (u : Unit) :
    regionOf u heap (if heap % 2 ^ 20 = 0 ∧ size < 2 ^ 16 then heap + 0x1000 else 0) := by
  unfold regionOf
  split at h
  · rw [if_pos ‹_›]
    omega
  · exact absurd rfl h

theorem commit_regions {p size : ℕ} (h : (if 0 < size ∧ p + size ≤ 2 ^ 32 then p else 0) ≠ 0) :
    0 < size ∧ p + size ≤ 2 ^ 32 := by
  split at h
  · assumption
  · exact absurd rfl h

theorem tenants_regions : Tenants Env.regions regionOf where
  calm _ _ _ := rfl
  quiet _ _ _ := ⟨rfl, rfl⟩
  kept _ _ _ _ _ h := h
  rtlAllocateHeap _ _ _ w _ h := allocate_regions h w.os
  heapAlloc _ _ _ w _ h := allocate_regions h w.os
  commit _ _ _ _ h := commit_regions h

theorem boot_regions : Boot Env.regions regionOf where
  quiet _ _ := rfl
  kept _ _ _ h := h
  commit _ _ _ _ h := commit_regions h
  rtlCreateHeap base size w h k p hk hlo hhi := by
    show k = if base % 2 ^ 20 = 0 ∧ size ≤ 2 ^ 20 then base else 0
    have h : (if base % 2 ^ 20 = 0 ∧ size ≤ 2 ^ 20 then base else 0) ≠ 0 := h
    split at h
    · rw [if_pos ‹_›]
      unfold regionOf at hk
      omega
    · exact absurd rfl h
  heapCreate size w h := absurd rfl h

/-- 16 MB at 0x10000000. -/
def arena16M : ProxyAllocator := ((ProxyAllocator.construct none none).initFromShared 0x10000000 0x1000000 true).2

theorem arena16M_started : Started arena16M :=
  have hr : Reserved 0x10000000 0x1000000 := by decide
  .initFromShared (.construct none none) hr (rfl : (ProxyAllocator.construct none none).initFromShared _ _ true = _)

/-- One shard of a megabyte, and nothing loaded yet. -/
def Process.sharded : Process Unit where
  world := (exec (proxyHeapInit Env.regions false 0x100000 1) (World.install arena16M ())).2
  threads _ := ⟨false, false, false⟩
  mods := []
  last _ := .start
  seen := .start

/-- The game and the driver are loaded, and the game takes a block of a heap that both use. -/
def sharedHeap : List Event :=
  [.load Watch.amdxn32, .load ⟨0x400000, 0x500000, "TS3W.exe".toList⟩,
    .rtlAllocateHeap 0 0x50000000 0 100 ⟨0x400500, [0x400500], false⟩]

/-- The driver's own call on that heap, from another thread. -/
def driverCall : Event := .heapAlloc 1 0x50000000 0 100 ⟨0x10500, [0x10500, 0x400500], false⟩

/-- The game's block lies in the shard, the driver's does not. -/
example : (Process.sharded.call Env.regions (.rtlAllocateHeap 0 0x50000000 0 100 ⟨0x400500, [0x400500], false⟩)).1 = 0x10001000 ∧
    ((Run.after (Process.step Env.regions) Process.sharded sharedHeap).call Env.regions driverCall).1 = 0x50001000 := by
  decide +kernel

theorem installed_sharded : Process.sharded.Installed Env.regions :=
  ⟨⟨World.install arena16M (), arena16M, false, 0x100000, 1, arena16M_started, rfl, rfl, rfl⟩, loaded_nil, rfl⟩

theorem graphics_fenced_sharded :
    Clear (Run.after (Process.step Env.regions) Process.sharded sharedHeap).world.tool.shards
      ((Run.after (Process.step Env.regions) Process.sharded sharedHeap).call Env.regions driverCall).1 :=
  (Process.graphics_fenced boot_regions tenants_regions installed_sharded (by decide +kernel)).1 driverCall Watch.amdxn32
    (by decide +kernel) (by decide +kernel) (by decide) (by decide)

/-- A driver with a name of 71 characters. -/
def longDriver : Module := ⟨0x10000, 0x20000, List.replicate 60 'x' ++ "AMDXN32.DLL".toList⟩

/-- The same loads and calls. -/
def longShared : List Event :=
  [.load longDriver, .load ⟨0x400000, 0x500000, "TS3W.exe".toList⟩,
    .rtlAllocateHeap 0 0x50000000 0 100 ⟨0x400500, [0x400500], false⟩]

theorem not_graphics_fenced_longDriver : Process.sharded.Installed Env.regions ∧
    Run.Guarded (Process.step Env.regions) Process.Lawful Process.sharded longShared ∧
    (Run.after (Process.step Env.regions) Process.sharded longShared).Lawful driverCall ∧
    (Run.after (Process.step Env.regions) Process.sharded longShared).callerOf driverCall = some longDriver ∧
    isGraphicsModule longDriver.name = true ∧
    ¬ Clear (Run.after (Process.step Env.regions) Process.sharded longShared).world.tool.shards
      ((Run.after (Process.step Env.regions) Process.sharded longShared).call Env.regions driverCall).1 := by
  refine ⟨installed_sharded, ?_, ?_, ?_, ?_, ?_⟩
  all_goals decide +kernel

end Ts3Vas
