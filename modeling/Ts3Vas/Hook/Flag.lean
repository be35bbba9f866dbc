/-
The in-hook flag of the calling thread. Every hook that sets it clears it again on every return path,
or restores what it found, but for the four Nt hooks of memory and views, which set it and return. The
functions below the hooks cannot change it while they run inside a hook; a few calls are made outside.
-/
import Ts3Vas.Hook.Virtual
import Ts3Vas.Lib.Run

namespace Ts3Vas

open Prog

variable {σ : Type}

/-- The marks of the calling thread, and what decides how they are read. -/
structure Marks where
  thread : Thread
  tlsAllocated : Bool
  shuttingDown : Bool

def World.marks (w : World σ) : Marks := ⟨w.thread, w.tool.tlsAllocated, w.tool.shuttingDown⟩

namespace Marks

def isInHook (m : Marks) : Bool := m.tlsAllocated && m.thread.inHook

def closed (m : Marks) : Bool := m.thread.bootstrapping || m.thread.hookActive || m.isInHook || m.shuttingDown

/-- `SetInHook`. -/
def setInHook (v : Bool) (m : Marks) : Marks :=
  { m with thread := { m.thread with inHook := if m.tlsAllocated then v else m.thread.inHook } }

def setHookActive (v : Bool) (m : Marks) : Marks := { m with thread := { m.thread with hookActive := v } }

/-- No hook that runs now leaves a mark: each passes its call on, or has no flag to set. -/
def Inside (m : Marks) : Prop := m.closed = true ∨ m.tlsAllocated = false

theorem inside_setInHook (m : Marks) : (m.setInHook true).Inside := by
  rcases m with ⟨t, tls, s⟩
  cases tls
  · exact .inr rfl
  · exact .inl (by simp [closed, isInHook, setInHook])

theorem inside_setHookActive (m : Marks) : (m.setHookActive true).Inside := .inl (by simp [closed, setHookActive])

/-- Clearing a flag that is clear. -/
theorem setInHook_false {m : Marks} (h : m.isInHook = false) : m.setInHook false = m := by
  rcases m with ⟨⟨b, a, i⟩, t, s⟩
  cases t <;> simp_all [isInHook, setInHook]

theorem setInHook_of_not_allocated {m : Marks} (v : Bool) (h : m.tlsAllocated = false) : m.setInHook v = m := by
  rcases m with ⟨⟨b, a, i⟩, t, s⟩
  subst h; rfl

theorem setHookActive_false {m : Marks} (h : m.thread.hookActive = false) : m.setHookActive false = m := by
  rcases m with ⟨⟨b, a, i⟩, t, s⟩
  subst h; rfl

end Marks

/-- Inside a hook the functions below return with the marks as they found them, whatever hooks they run. -/
def Calm (env : Env σ) : Prop := ∀ c, Keeps Marks.Inside World.marks (env.real c)

/-! ## The shared steps -/

variable {P : Marks → Prop}

theorem acts_setInHook (v : Bool) : Acts P (World.marks (σ := σ)) (Marks.setInHook v) (setInHook v) := by
  intro w _
  simp only [setInHook, exec_modify, World.marks, Marks.setInHook]
  by_cases h : w.tool.tlsAllocated <;> simp [h]

theorem acts_setHookActive (v : Bool) : Acts P (World.marks (σ := σ)) (Marks.setHookActive v) (setHookActive v) :=
  fun _ _ => rfl

/-- A hook that sets the flag and clears it later has cleared it. -/
theorem acts_enter {α : Type} {k : Unit → Hook σ α}
    (hk : ∀ a, Acts Marks.Inside World.marks (Marks.setInHook false) (k a)) :
    Acts P World.marks (Marks.setInHook false) (setInHook true >>= k) := by
  refine (acts_setInHook true).bind (fun m _ => m.inside_setInHook) hk fun m => ?_
  by_cases h : m.tlsAllocated <;> simp [Marks.setInHook, h]

theorem keeps_onOs (f : σ → σ) : Keeps P World.marks (onOs f) := fun _ _ => rfl

theorem keeps_onTool {f : Tool → Tool} (h : ∀ t, (f t).tlsAllocated = t.tlsAllocated ∧ (f t).shuttingDown = t.shuttingDown) :
    Keeps P (World.marks (σ := σ)) (onTool f) := fun w _ => by
  simp only [onTool, exec_modify, World.marks, h]
  rfl

section
variable {α : Type} {m : Hook σ α} {g : Marks → Marks}

/-- A scope leaves `s_tlHookActive` clear. -/
theorem acts_rtlHookScope {v : Bool} (h : Acts Marks.Inside World.marks (Marks.setInHook v) m) :
    Acts P World.marks (fun m => (m.setInHook v).setHookActive false) (rtlHookScope m) :=
  (acts_setHookActive true).bind (fun m _ => m.inside_setHookActive)
    (fun _ => h.bind (Q := fun _ => True) (fun _ _ => trivial)
      (fun _ => (acts_setHookActive false).bind_keeps (Q := fun _ => True) (fun _ _ => trivial) fun _ => .pure _)
      fun _ => rfl) fun _ => rfl

/-- `SetInHook(false); return r;` -/
theorem acts_leave (r : α) : Acts P (World.marks (σ := σ)) (Marks.setInHook false) (do setInHook false; return r) :=
  (acts_setInHook false).bind_keeps (Q := fun _ => True) (fun _ _ => trivial) fun _ => .pure _

theorem keeps_proxyHeapHookScope (h : Keeps Marks.Inside World.marks m) : Keeps P World.marks (proxyHeapHookScope m) := by
  refine Keeps.guarded (fun w _ hw => ?_) (g := Marks.setInHook false) (fun _ => ?_) ?_
  · exact h w (.inl (by simp [Marks.closed, show w.marks.isInHook = true from hw]))
  · exact acts_enter fun _ => h.bind fun _ => acts_leave _
  · -- the scope sets the flag only where it was clear
    intro w hw
    exact Marks.setInHook_false (Bool.not_eq_true _ ▸ hw)

theorem keeps_onlyIf {c : Prop} [Decidable c] {m : Hook σ Unit} (h : Keeps P World.marks m) : Keeps P World.marks (onlyIf c m) :=
  .ite h (.pure _)

theorem keeps_attempt {c : Prop} [Decidable c] {m : Hook σ ℕ} (h : Keeps P World.marks m) : Keeps P World.marks (attempt c m) :=
  .ite h (.pure _)

theorem keeps_orElse (p : ℕ) {m : Hook σ ℕ} (h : Keeps P World.marks m) : Keeps P World.marks (orElse p m) := .ite h (.pure _)

/-- A scope that clears the flag restores all marks of a thread that was outside any hook. -/
theorem marks_rtlHookScope (h : Acts Marks.Inside World.marks (Marks.setInHook false) m) {w : World σ} (hb : w.busy = false) :
    (exec (rtlHookScope m) w).2.marks = w.marks := by
  simp only [World.busy, Bool.or_eq_false_iff] at hb
  have hin : w.marks.isInHook = false := hb.2
  rw [acts_rtlHookScope (P := fun _ => True) h w trivial]
  show (w.marks.setInHook false).setHookActive false = w.marks
  rw [Marks.setInHook_false hin]
  exact Marks.setHookActive_false hb.1.2

/-- The guard of a hook lets no thread inside a hook through. -/
theorem keeps_of_guard {m n : World σ → Hook σ α} {c : World σ → Prop} [DecidablePred c]
    (hm : ∀ w, c w → (exec (m w) w).2.marks = w.marks) (hn : ∀ w, Acts Marks.Inside World.marks (Marks.setInHook false) (n w))
    (hc : ∀ w, w.busy → c w) : Keeps P World.marks (get >>= fun w => if c w then m w else rtlHookScope (n w)) := by
  intro w _
  show World.marks (exec (if c w then m w else rtlHookScope (n w)) w).2 = w.marks
  split
  · exact hm w ‹_›
  · exact marks_rtlHookScope (hn w) (Bool.eq_false_iff.2 fun h => ‹¬ c w› (hc w h))

end

section
variable {env : Env σ}

theorem Calm.call (h : Calm env) (c : RealCall) : Keeps Marks.Inside World.marks (call env c) :=
  .get fun _ => (h c).bind fun _ => Keeps.bind (Acts.modify fun _ => rfl) fun _ => .pure _

theorem Calm.callValue (h : Calm env) (c : RealCall) : Keeps Marks.Inside World.marks (callValue env c) :=
  (h.call c).bind fun _ => .pure _

theorem Calm.callNt (h : Calm env) (c : RealCall) (base region : Option ℕ) :
    Keeps Marks.Inside World.marks (callNt env c base region) := (h.call c).bind fun _ => .pure _

theorem closed_of_busy {w : World σ} (h : w.busy) : w.closed := by simp [World.closed, h]

theorem inside_of_closed {w : World σ} (h : w.closed) : w.marks.Inside := .inl h

/-- `if (Real_X) return Real_X(…); return absent;` behind a guard that is closed. -/
theorem Calm.handedOn (h : Calm env) (c : RealCall) (absent : ℕ) {w : World σ} (hw : w.closed || !w.tool.resolved c.api) :
    (exec (if w.tool.resolved c.api then Ts3Vas.callValue env c else return absent) w).2.marks = w.marks := by
  rw [exec_ite]
  split
  · rename_i hr
    rw [hr, Bool.not_true, Bool.or_false] at hw
    exact h.callValue c w (inside_of_closed hw)
  · rfl

theorem Calm.forward (h : Calm env) (c : RealCall) (absent : ℕ) : Keeps P World.marks (forward env c absent) :=
  keeps_of_guard (fun _ hw => h.handedOn c absent hw)
    (fun _ => acts_enter fun _ => (h.callValue c).bind fun r => acts_leave r) fun _ hw => by simp [closed_of_busy hw]

theorem Calm.suppressed (h : Calm env) (c : RealCall) : Keeps P World.marks (suppressed env c) :=
  .get fun _ => .ite (keeps_proxyHeapHookScope (h.callValue c)) (.pure _)

/-! ## The shards and the arena -/

theorem Calm.proxyHeapTry (h : Calm env) (flags size : ℕ) (start : ℤ) (n : ℕ) :
    ∀ ks, Keeps Marks.Inside World.marks (proxyHeapTry env flags size start n ks)
  | [] => .pure _
  | _ :: ks => .get fun _ => .ite
    ((h.callValue _).bind fun _ => .ite (.pure _) (h.proxyHeapTry flags size start n ks)) (h.proxyHeapTry flags size start n ks)

theorem Calm.proxyHeapAlloc (h : Calm env) (flags size : ℕ) : Keeps P World.marks (proxyHeapAlloc env flags size) :=
  .get fun _ => .ite (.pure _) <| keeps_proxyHeapHookScope <|
    (keeps_onTool fun _ => by exact ⟨rfl, rfl⟩).bind fun _ => .get fun _ => h.proxyHeapTry _ _ _ _ _

theorem Calm.proxyHeapFree (h : Calm env) (flags p : ℕ) : Keeps P World.marks (proxyHeapFree env flags p) := by
  refine .get fun w => ?_
  cases proxyHeapShardOf w.tool p with
  | none => exact .pure _
  | some s => exact .ite (keeps_proxyHeapHookScope ((h.call _).bind fun _ => .pure _)) (.pure _)

theorem Calm.proxyHeapReAlloc (h : Calm env) (flags p size : ℕ) : Keeps P World.marks (proxyHeapReAlloc env flags p size) := by
  refine .get fun w => ?_
  cases proxyHeapShardOf w.tool p with
  | none => exact .pure _
  | some s => exact .ite (keeps_proxyHeapHookScope (h.callValue _)) (.pure _)

theorem Calm.proxyHeapSize (h : Calm env) (flags p : ℕ) : Keeps P World.marks (proxyHeapSize env flags p) := by
  refine .get fun w => ?_
  cases proxyHeapShardOf w.tool p with
  | none => exact .pure _
  | some s => exact .ite (keeps_proxyHeapHookScope (h.callValue _)) (.pure _)

theorem Calm.probeSardineLoss (h : Calm env) (p : ℕ) : Keeps P World.marks (probeSardineLoss env p) :=
  .get fun _ => .ite ((h.proxyHeapSize 0 p).map _) (.pure _)

theorem keeps_arenaAllocate (size : ℕ) : Keeps P (World.marks (σ := σ)) (arenaAllocate size) :=
  .get fun _ => (keeps_onTool fun _ => by exact ⟨rfl, rfl⟩).bind fun _ => .pure _

theorem keeps_arenaFree (p size : ℕ) : Keeps P (World.marks (σ := σ)) (arenaFree p size) := keeps_onTool fun _ => ⟨rfl, rfl⟩

theorem keeps_activateProxy : Keeps P (World.marks (σ := σ)) activateProxy := keeps_onTool fun t => by split <;> exact ⟨rfl, rfl⟩

theorem Calm.createProxyAllocation (h : Calm env) (caller : Caller) (size protect : ℕ) :
    Keeps P World.marks (createProxyAllocation env caller size protect) := by
  refine .get fun w => .ite (.pure _) <| .ite (.pure _) <| (keeps_arenaAllocate size).bind fun p => .ite (.pure _) ?_
  have hback : Keeps P (World.marks (σ := σ)) (do arenaFree p size; return 0) := (keeps_arenaFree p size).bind fun _ => .pure _
  refine .ite hback <| (h.forward _ _).bind fun _ => .ite hback ?_
  exact (keeps_onTool fun _ => by exact ⟨rfl, rfl⟩).bind fun _ => .pure _

theorem keeps_takeRecord (p : ℕ) (k : Keeper) : Keeps P (World.marks (σ := σ)) (takeRecord p k) :=
  .get fun _ => (keeps_onTool fun _ => by exact ⟨rfl, rfl⟩).bind fun _ => .pure _

theorem Calm.freeProxyAllocation (h : Calm env) (p : ℕ) : Keeps P World.marks (freeProxyAllocation env p) := by
  refine .get fun w => .ite ((keeps_takeRecord p .allocations).bind fun found => ?_) (.pure _)
  cases found with
  | none => exact .pure _
  | some r => exact (h.forward _ _).bind fun _ => (keeps_arenaFree p r.proxySize).bind fun _ => .pure _

/-! ## The heap hooks -/

theorem Calm.hookedRtlCreateHeap (h : Calm env) (flags base reserve commit lock params : ℕ) :
    Keeps P World.marks (hookedRtlCreateHeap env flags base reserve commit lock params) := by
  refine keeps_of_guard (fun w hw => h.callValue _ w (inside_of_closed hw)) (fun _ => ?_) fun w hw => closed_of_busy hw
  have hnote : ∀ x, Keeps Marks.Inside (World.marks (σ := σ)) (proxyHeapNoteExecHeap x) := fun x =>
    keeps_onTool fun t => by split_ifs <;> exact ⟨rfl, rfl⟩
  refine acts_enter fun _ => (h.callValue _).bind fun x => ?_
  exact (keeps_onlyIf (hnote x)).bind fun _ => acts_leave _

theorem Calm.corralCapture (h : Calm env) (caller : Caller) (size : ℕ) : Keeps P World.marks (corralCapture env caller size) :=
  .get fun _ => .ite ((keeps_onlyIf keeps_activateProxy).bind fun _ => .get fun _ =>
    .ite (h.createProxyAllocation _ _ _) (.pure _)) (.pure _)

theorem Calm.arenaCapture (h : Calm env) (caller : Caller) (size : ℕ) : Keeps P World.marks (arenaCapture env caller size) :=
  .get fun _ => .ite ((keeps_onlyIf keeps_activateProxy).bind fun _ => .get fun _ =>
    .ite (h.createProxyAllocation _ _ _) (.pure _)) (.pure _)

theorem Calm.hookedHeapAlloc (h : Calm env) (caller : Caller) (heap flags size : ℕ) :
    Keeps P World.marks (hookedHeapAlloc env caller heap flags size) := by
  refine keeps_of_guard (fun _ hw => h.handedOn (.heapAlloc heap flags size) 0 hw) (fun _ => ?_)
    fun w hw => by simp [closed_of_busy hw]
  refine acts_enter fun _ => .get fun w => ?_
  refine (keeps_attempt (h.proxyHeapAlloc _ _)).bind fun p => ?_
  refine (keeps_onlyIf (h.probeSardineLoss p)).bind fun _ => .get fun w => ?_
  refine (keeps_orElse _ (keeps_attempt (h.createProxyAllocation _ _ _))).bind fun p => ?_
  exact (keeps_orElse _ (h.callValue _)).bind fun p => acts_leave p

theorem Calm.hookedHeapFree (h : Calm env) (heap flags p : ℕ) : Keeps P World.marks (hookedHeapFree env heap flags p) :=
  (h.proxyHeapFree _ _).bind fun _ => .ite (.pure _) <| .get fun _ =>
    .ite ((h.freeProxyAllocation p).bind fun _ => .pure _) (h.forward _ _)

theorem keeps_copyRecorded (q p size : ℕ) : Keeps P World.marks (copyRecorded env q p size) := by
  refine .get fun w => ?_
  cases w.tool.tables.allocations.findRecordByAddress p with
  | none => exact .pure _
  | some r => exact .ite (keeps_onOs _) (.pure _)

theorem Calm.hookedHeapSize (h : Calm env) (heap flags p : ℕ) : Keeps P World.marks (hookedHeapSize env heap flags p) :=
  .get fun _ => .ite (h.proxyHeapSize _ _) (h.forward _ _)

theorem Calm.forceReAlloc (h : Calm env) (caller : Caller) (heap flags p size : ℕ) :
    Keeps Marks.Inside World.marks (forceReAlloc env caller heap flags p size) := by
  refine (h.createProxyAllocation _ _ _).bind fun q => .ite ?_ (.pure _)
  refine (h.hookedHeapSize _ _ _).bind fun n => (keeps_onlyIf (keeps_onOs _)).bind fun _ => ?_
  exact (h.call _).bind fun _ => .pure _

/-! ## The virtual-memory hooks -/

theorem keeps_ensureProxyActive (size type protect : ℕ) : Keeps P (World.marks (σ := σ)) (ensureProxyActive size type protect) :=
  .get fun _ => .ite (.pure _) <| .ite (.pure _) <| .ite (.pure _) <| .ite (.pure _) <| .ite (.pure _) <| .ite (.pure _)
    keeps_activateProxy

theorem Calm.redirectSlot (h : Calm env) (size protect : ℕ) : Keeps P World.marks (redirectSlot env size protect) := by
  refine (keeps_arenaAllocate size).bind fun slot => .ite (.pure _) <| (h.forward _ _).bind fun c => .ite ?_ ?_
  · exact (keeps_arenaFree slot size).bind fun _ => .pure _
  · exact (keeps_onTool fun _ => by exact ⟨rfl, rfl⟩).bind fun _ => .pure _

theorem keeps_corralReserve (size type protect : ℕ) : Keeps P World.marks (corralReserve env size type protect) :=
  .get fun _ => (keeps_onOs _).bind fun _ => .pure _

theorem Calm.hookedVirtualAlloc (h : Calm env) (addr size type protect : ℕ) :
    Keeps P World.marks (hookedVirtualAlloc env addr size type protect) := by
  refine keeps_of_guard (fun _ hw => h.handedOn (.virtualAlloc addr size type protect) 0 hw) (fun _ => ?_)
    fun w hw => by simp [closed_of_busy hw]
  refine acts_enter fun _ => (keeps_ensureProxyActive _ _ _).bind fun _ => .get fun w => ?_
  refine (keeps_attempt (h.redirectSlot _ _)).bind fun p => ?_
  refine (keeps_orElse _ (keeps_attempt (keeps_corralReserve _ _ _))).bind fun p => ?_
  exact (keeps_orElse _ (h.callValue _)).bind fun p => acts_leave p

theorem keeps_vatUntrack (addr type : ℕ) : Keeps P (World.marks (σ := σ)) (vatUntrack addr type) :=
  .ite (keeps_takeRecord _ _) (.pure _)

theorem Calm.releaseSlot (h : Calm env) (addr : ℕ) (r : ProxyAllocRecord) : Keeps P World.marks (releaseSlot env addr r) :=
  (h.forward _ _).bind fun _ => .get fun _ => .ite (keeps_arenaFree _ _) (.pure _)

theorem Calm.hookedVirtualFree (h : Calm env) (addr size type : ℕ) : Keeps P World.marks (hookedVirtualFree env addr size type) := by
  refine .get fun w => .ite ((keeps_onOs _).bind fun _ => .pure _) ((keeps_vatUntrack _ _).bind fun found => ?_)
  cases found with
  | none => exact h.forward _ _
  | some r => exact (h.releaseSlot addr r).bind fun _ => .pure _

end

/-! ## Calls made outside any hook -/

/-- A call that the hook hands on in the state it was called in, unless its guard is closed or it takes care of
the request itself. -/
def passedOn (w : World σ) (taken : Bool) (c : RealCall) : Option (RealCall × World σ) :=
  if w.closed || taken then none else some (c, w)

/-- The new block of the arena branch of a reallocation hook, from the arena. -/
def arenaBlock (env : Env σ) (caller : Caller) (size : ℕ) (w : World σ) : Hook σ ℕ :=
  attempt (capturable w.tool size && w.tool.proxyActive && !w.tool.shuttingDown)
    (createProxyAllocation env caller size PAGE_READWRITE)

/-- Where there is none, it comes from `fallback`, which is called with no flag set. -/
def arenaFallback (env : Env σ) (caller : Caller) (size : ℕ) (fallback : RealCall) (w : World σ) :
    Option (RealCall × World σ) :=
  if (exec (arenaBlock env caller size w) w).1 = 0 then some (fallback, (exec (arenaBlock env caller size w) w).2) else none

/-- The call that a hook makes outside any hook, and the state that it makes it in. -/
def HookCall.exposed (env : Env σ) (w : World σ) : HookCall → Option (RealCall × World σ)
  | rtlAllocateHeap _ heap flags size => passedOn w w.tool.memManager (.rtlAllocateHeap heap flags size)
  | rtlFreeHeap heap flags p =>
    passedOn w (decide (p = 0) || (exec (proxyHeapFree env flags p) w).1 || w.tool.memManager) (.rtlFreeHeap heap flags p)
  | rtlReAllocateHeap caller heap flags p size =>
    if w.closed || !w.tool.memManager then passedOn w false (.rtlReAllocateHeap heap flags p size)
    else if p ≠ 0 ∧ (proxyHeapShardOf w.tool p).isSome then none
    else if p ≠ 0 ∧ isProxyAddress w.tool p then arenaFallback env caller size (.rtlAllocateHeap heap flags size) w
    else none
  | heapReAlloc caller heap flags p size =>
    if w.closed then none
    else if p ≠ 0 ∧ (proxyHeapShardOf w.tool p).isSome then none
    else if p ≠ 0 ∧ w.tool.memManager ∧ isProxyAddress w.tool p then
      arenaFallback env caller size (.heapAlloc heap flags size) w
    else none
  | ntAllocateVirtualMemory process base zeroBits region type protect =>
    passedOn w (base.isSome && region.isSome && w.tool.memManager)
      (.ntAllocateVirtualMemory process base zeroBits region type protect)
  | ntFreeVirtualMemory process base region type =>
    passedOn w (base.isSome && w.tool.memManager) (.ntFreeVirtualMemory process base region type)
  | ntAllocateVirtualMemoryEx process base region type protect params count =>
    passedOn w (!w.tool.resolved .ntAllocateVirtualMemoryEx || base.isSome && region.isSome && w.tool.memManager)
      (.ntAllocateVirtualMemoryEx process base region type protect params count)
  | _ => none

/-- The marks that such a call leaves. -/
def World.marksAfter (env : Env σ) (w : World σ) : Option (RealCall × World σ) → Marks
  | none => w.marks
  | some x => (exec (env.real x.1) x.2).2.marks

section
variable {env : Env σ} {w : World σ}

theorem marksAfter_passedOn {α : Type} (h : Calm env) (c : RealCall) {taken : Bool} (r : Reply → α)
    (ht : w.closed = false → taken = false) :
    (exec (r <$> call env c) w).2.marks = w.marksAfter env (passedOn w taken c) := by
  unfold passedOn
  cases hw : w.closed with
  | true => exact h.call c w (inside_of_closed hw)
  | false => rw [ht hw]; rfl

theorem marksAfter_callValue (h : Calm env) (c : RealCall) {taken : Bool} (ht : w.closed = false → taken = false) :
    (exec (callValue env c) w).2.marks = w.marksAfter env (passedOn w taken c) := marksAfter_passedOn h c Reply.value ht

theorem marksAfter_callNt (h : Calm env) (c : RealCall) (base region : Option ℕ) {taken : Bool}
    (ht : w.closed = false → taken = false) :
    (exec (callNt env c base region) w).2.marks = w.marksAfter env (passedOn w taken c) :=
  marksAfter_passedOn h c (fun r => (⟨r.value, base.map fun _ => r.base, region.map fun _ => r.region⟩ : NtReply)) ht

theorem Calm.hookedRtlAllocateHeap (h : Calm env) (caller : Caller) (heap flags size : ℕ) (w : World σ) :
    (exec (hookedRtlAllocateHeap env caller heap flags size) w).2.marks =
      w.marksAfter env ((HookCall.rtlAllocateHeap caller heap flags size).exposed env w) := by
  show World.marks (exec (if _ then _ else _) w).2 = _
  rw [exec_ite]
  split_ifs with hw
  · refine marksAfter_callValue h _ fun hopen => ?_
    simpa [World.closed, Bool.or_eq_false_iff.1 hopen] using hw
  · simp only [Bool.or_eq_true, not_or, Bool.not_eq_true, Bool.not_eq_false'] at hw
    rw [HookCall.exposed, passedOn, hw.1.2, Bool.or_true, if_pos rfl]
    -- four return paths: corral, sardine, arena, real heap
    refine marks_rtlHookScope (acts_enter fun _ => (h.corralCapture _ _).bind fun p => .ite (acts_leave p) ?_) hw.1.1
    refine .get fun w => (keeps_attempt (h.proxyHeapAlloc _ _)).bind fun p => .ite ?_ ?_
    · exact (h.probeSardineLoss p).bind fun _ => acts_leave p
    · refine (h.arenaCapture _ _).bind fun p => .ite (acts_leave p) ?_
      exact (h.callValue _).bind fun r => acts_leave r

/-- What `ProxyHeapFree` does not free it does not touch. -/
theorem exec_proxyHeapFree_false {flags p : ℕ} (h : (exec (proxyHeapFree env flags p) w).1 = false) :
    (exec (proxyHeapFree env flags p) w).2 = w := by
  unfold proxyHeapFree at h ⊢
  rw [exec_bind, exec_get] at h ⊢
  cases hs : proxyHeapShardOf w.tool p with
  | none => rfl
  | some s =>
    simp only [hs, exec_ite] at h ⊢
    split_ifs at h ⊢
    · obtain ⟨th, th', e⟩ := exec_proxyHeapHookScope
        (do let _ ← call env (.rtlFreeHeap s.handle (dropNoSerialize flags) p); return true) w
      rw [e] at h
      cases h
    · rfl

theorem Calm.hookedRtlFreeHeap (h : Calm env) (heap flags p : ℕ) (w : World σ) :
    (exec (hookedRtlFreeHeap env heap flags p) w).2.marks =
      w.marksAfter env ((HookCall.rtlFreeHeap heap flags p).exposed env w) := by
  show _ = w.marksAfter env (passedOn w (decide (p = 0) || (exec (Ts3Vas.proxyHeapFree env flags p) w).1 || w.tool.memManager) _)
  unfold Ts3Vas.hookedRtlFreeHeap
  rw [exec_ite]
  split_ifs with h0
  · simp [passedOn, h0, World.marksAfter]
  have hkeep := h.proxyHeapFree (P := fun _ => True) flags p w trivial
  rw [exec_bind, exec_ite]
  split_ifs with hf
  · simp [passedOn, hf, World.marksAfter, hkeep]
  rw [Bool.not_eq_true] at hf
  rw [exec_proxyHeapFree_false hf, hf, decide_eq_false h0, exec_bind, exec_get, exec_ite, exec_ite]
  split_ifs with h1 h2
  · rw [Bool.and_eq_true] at h1
    rw [passedOn, h1.1]
    simp only [Bool.or_true, if_true]
    exact (h.freeProxyAllocation (P := fun _ => True) p).bind (fun _ => .pure _) w trivial
  · refine marksAfter_callValue h _ fun hopen => ?_
    simpa [World.closed, Bool.or_eq_false_iff.1 hopen] using h2
  · simp only [Bool.or_eq_true, not_or, Bool.not_eq_true, Bool.not_eq_false'] at h2
    rw [passedOn, h2.2]
    simp only [Bool.or_true, if_true]
    exact marks_rtlHookScope (acts_enter fun _ => (h.callValue _).bind fun r => acts_leave r) h2.1

/-- The fallback alone can change a mark: what comes after it, the copy and the free, cannot. -/
theorem Calm.arenaReAlloc (h : Calm env) (caller : Caller) (fallback : RealCall) (p size : ℕ) (w : World σ) :
    (exec (arenaReAlloc env caller fallback p size) w).2.marks =
      if (exec (arenaBlock env caller size w) w).1 = 0
      then (exec (env.real fallback) (exec (arenaBlock env caller size w) w).2).2.marks else w.marks := by
  have hfree : ∀ q, Keeps (fun _ => True) World.marks (do let _ ← Ts3Vas.freeProxyAllocation env p; return q : Hook σ ℕ) :=
    fun q => (h.freeProxyAllocation p).bind fun _ => .pure _
  have hrest : ∀ q, Keeps (fun _ => True) World.marks (if q ≠ 0 then do
      copyRecorded env q p size
      let _ ← Ts3Vas.freeProxyAllocation env p
      return q
    else do
      let _ ← Ts3Vas.freeProxyAllocation env p
      return q : Hook σ ℕ) :=
    fun q => .ite ((keeps_copyRecorded q p size).bind fun _ => hfree q) (hfree q)
  have hblock : (exec (arenaBlock env caller size w) w).2.marks = w.marks :=
    keeps_attempt (h.createProxyAllocation _ _ _) (P := fun _ => True) w trivial
  unfold Ts3Vas.arenaReAlloc
  rw [exec_bind, exec_get, exec_bind]
  change World.marks (exec (orElse (exec (arenaBlock env caller size w) w).1 (Ts3Vas.callValue env fallback) >>= _)
    (exec (arenaBlock env caller size w) w).2).2 = _
  rw [exec_bind, hrest _ _ trivial, orElse, exec_ite]
  split
  · rfl
  · exact hblock

/-- In a closed world there is nothing that it can change. -/
theorem Calm.arenaReAlloc_closed (h : Calm env) (caller : Caller) (fallback : RealCall) (p size : ℕ) (hw : w.closed = true) :
    (exec (Ts3Vas.arenaReAlloc env caller fallback p size) w).2.marks = w.marks := by
  have hblock : (exec (arenaBlock env caller size w) w).2.marks = w.marks :=
    keeps_attempt (h.createProxyAllocation _ _ _) (P := fun _ => True) w trivial
  rw [h.arenaReAlloc]
  split
  · rw [h fallback _ (hblock ▸ inside_of_closed hw)]
    exact hblock
  · rfl

theorem marksAfter_arenaFallback (h : Calm env) (caller : Caller) (fallback : RealCall) (p size : ℕ) :
    (exec (arenaReAlloc env caller fallback p size) w).2.marks = w.marksAfter env (arenaFallback env caller size fallback w) := by
  rw [h.arenaReAlloc, arenaFallback]
  split <;> rfl

theorem Calm.hookedRtlReAllocateHeap (h : Calm env) (caller : Caller) (heap flags p size : ℕ) (w : World σ) :
    (exec (hookedRtlReAllocateHeap env caller heap flags p size) w).2.marks =
      w.marksAfter env ((HookCall.rtlReAllocateHeap caller heap flags p size).exposed env w) := by
  show World.marks (exec (if _ then _ else if _ then _ else if _ then _ else _) w).2 = _
  have hguard : (w.busy || !w.tool.memManager || w.tool.shuttingDown) = (w.closed || !w.tool.memManager) := by
    rw [World.closed, Bool.or_assoc, Bool.or_assoc, Bool.or_comm (!w.tool.memManager)]
  rw [exec_ite, exec_ite, exec_ite, hguard, HookCall.exposed]
  by_cases h1 : (w.closed || !w.tool.memManager) = true
  · rw [if_pos h1, if_pos h1]
    exact marksAfter_callValue h _ fun _ => rfl
  rw [if_neg h1, if_neg h1]
  simp only [Bool.or_eq_true, not_or, Bool.not_eq_true, Bool.not_eq_false'] at h1
  simp only [h1.2, true_and]
  split_ifs with h2 h3
  · exact h.proxyHeapReAlloc (P := fun _ => True) _ _ _ w trivial
  · exact marksAfter_arenaFallback h _ _ _ _
  · exact marks_rtlHookScope (acts_enter fun _ => (h.callValue _).bind fun r => acts_leave r) (Bool.or_eq_false_iff.1 h1.1).1

theorem Calm.hookedHeapReAlloc (h : Calm env) (caller : Caller) (heap flags p size : ℕ) (w : World σ) :
    (exec (hookedHeapReAlloc env caller heap flags p size) w).2.marks =
      w.marksAfter env ((HookCall.heapReAlloc caller heap flags p size).exposed env w) := by
  show World.marks (exec (if _ then _ else if _ then _ else if _ then _ else _) w).2 = _
  rw [exec_ite, exec_ite, HookCall.exposed]
  by_cases hs : p ≠ 0 ∧ (proxyHeapShardOf w.tool p).isSome
  · rw [if_pos hs, if_pos hs, ite_self]
    exact h.proxyHeapReAlloc (P := fun _ => True) _ _ _ w trivial
  rw [if_neg hs, if_neg hs]
  by_cases ha : p ≠ 0 ∧ w.tool.memManager ∧ isProxyAddress w.tool p
  · rw [if_pos ha, if_pos ha]
    cases hw : w.closed with
    | true => exact h.arenaReAlloc_closed _ _ _ _ hw
    | false => exact marksAfter_arenaFallback h _ _ _ _
  rw [if_neg ha, if_neg ha, ite_self, exec_ite]
  by_cases h3 : (w.closed || !w.tool.resolved .heapReAlloc) = true
  · rw [if_pos h3]
    exact h.handedOn (.heapReAlloc heap flags p size) 0 h3
  · rw [if_neg h3]
    have hbody : Acts Marks.Inside World.marks (Marks.setInHook false) (do
        setInHook true
        let w ← get
        let q ← attempt (forceGate w.tool size) (Ts3Vas.forceReAlloc env caller heap flags p size)
        let q ← orElse q (Ts3Vas.callValue env (.heapReAlloc heap flags p size))
        setInHook false
        return q : Hook σ ℕ) := by
      refine acts_enter fun _ => .get fun w => (keeps_attempt (h.forceReAlloc _ _ _ _ _)).bind fun q => ?_
      exact (keeps_orElse _ (h.callValue _)).bind fun q => acts_leave q
    apply marks_rtlHookScope hbody
    simp only [World.closed, Bool.or_eq_true, not_or, Bool.not_eq_true] at h3
    exact h3.1.1

end

/-- The calls that set the flag for good: the four Nt hooks past their guards. -/
def HookCall.leavesSet (w : World σ) : HookCall → Bool
  | ntAllocateVirtualMemory _ base _ region _ _ => base.isSome && region.isSome && !w.closed && w.tool.memManager
  | ntFreeVirtualMemory _ base _ _ => base.isSome && !w.closed && w.tool.memManager
  | ntAllocateVirtualMemoryEx _ base region _ _ _ _ =>
    w.tool.resolved .ntAllocateVirtualMemoryEx && base.isSome && region.isSome && !w.closed && w.tool.memManager
  | ntMapViewOfSection .. => !w.closed
  | _ => false

section
variable {env : Env σ} {w : World σ}

/-- The shape of the Nt hooks: past the guard the flag is set and stays set. -/
theorem marks_of_nt_guard {α : Type} {m body : Hook σ α} {c : Bool} (hbody : Keeps Marks.Inside World.marks body)
    (hc : w.closed → c) : (exec (if c then m else rtlHookScope (do setInHook true; body)) w).2.marks =
      if c then (exec m w).2.marks else w.marks.setInHook true := by
  rw [exec_ite]
  split_ifs with h
  · rfl
  · have hw : w.closed = false := Bool.eq_false_iff.2 fun h' => h (hc h')
    simp only [World.closed, World.busy, Bool.or_eq_false_iff] at hw
    have hset : Acts Marks.Inside World.marks (Marks.setInHook true) (do setInHook true; body) :=
      (acts_setInHook true).bind_keeps (fun m _ => m.inside_setInHook) fun _ => hbody
    rw [acts_rtlHookScope (P := fun _ => True) hset w trivial]
    show (w.marks.setHookActive false).setInHook true = w.marks.setInHook true
    rw [Marks.setHookActive_false hw.1.1.2]

theorem Calm.hookedNtAllocateVirtualMemory (h : Calm env) (process : ℕ) (base : Option ℕ) (zeroBits : ℕ)
    (region : Option ℕ) (type protect : ℕ) :
    (exec (hookedNtAllocateVirtualMemory env process base zeroBits region type protect) w).2.marks =
      if (HookCall.ntAllocateVirtualMemory process base zeroBits region type protect).leavesSet w then w.marks.setInHook true
      else w.marksAfter env ((HookCall.ntAllocateVirtualMemory process base zeroBits region type protect).exposed env w) := by
  rcases base with _ | addr
  · exact marksAfter_callNt h _ _ _ fun _ => rfl
  rcases region with _ | size
  · exact marksAfter_callNt h _ _ _ fun _ => rfl
  refine (marks_of_nt_guard ?_ fun hw => by rw [hw]; rfl).trans ?_
  · refine (keeps_onlyIf (keeps_ensureProxyActive _ _ _)).bind fun _ => .get fun w => ?_
    exact (keeps_attempt (h.redirectSlot _ _)).bind fun slot => .ite (.pure _) (h.callNt _ _ _)
  · rw [realNtAllocateVirtualMemory, marksAfter_callNt h _ _ _ fun _ => rfl]
    cases hw : w.closed <;> cases hm : w.tool.memManager <;>
      simp [HookCall.leavesSet, HookCall.exposed, passedOn, World.marksAfter, hw, hm]

theorem Calm.hookedNtAllocateVirtualMemoryEx (h : Calm env) (process : ℕ) (base region : Option ℕ)
    (type protect params count : ℕ) :
    (exec (hookedNtAllocateVirtualMemoryEx env process base region type protect params count) w).2.marks =
      if (HookCall.ntAllocateVirtualMemoryEx process base region type protect params count).leavesSet w
      then w.marks.setInHook true
      else w.marksAfter env ((HookCall.ntAllocateVirtualMemoryEx process base region type protect params count).exposed env w) := by
  show World.marks (exec (if _ then _ else _) w).2 = _
  rw [exec_ite, HookCall.leavesSet, HookCall.exposed]
  cases w.tool.resolved .ntAllocateVirtualMemoryEx
  · simp [passedOn, World.marksAfter]
  rcases base with _ | addr
  · exact marksAfter_callNt h _ _ _ fun _ => rfl
  rcases region with _ | size
  · exact marksAfter_callNt h _ _ _ fun _ => rfl
  refine (marks_of_nt_guard ?_ fun hw => by rw [hw]; rfl).trans ?_
  · exact (keeps_attempt (h.redirectSlot _ _)).bind fun slot => .ite (.pure _) (h.callNt _ _ _)
  · rw [realNtAllocateVirtualMemoryEx, marksAfter_callNt h _ _ _ fun _ => rfl]
    cases hw : w.closed <;> cases hm : w.tool.memManager <;> simp [passedOn, World.marksAfter, hw]

theorem Calm.hookedNtFreeVirtualMemory (h : Calm env) (process : ℕ) (base region : Option ℕ) (type : ℕ) :
    (exec (hookedNtFreeVirtualMemory env process base region type) w).2.marks =
      if (HookCall.ntFreeVirtualMemory process base region type).leavesSet w then w.marks.setInHook true
      else w.marksAfter env ((HookCall.ntFreeVirtualMemory process base region type).exposed env w) := by
  rcases base with _ | addr
  · exact marksAfter_callNt h _ _ _ fun _ => rfl
  refine (marks_of_nt_guard ?_ fun hw => by rw [hw]; rfl).trans ?_
  · refine .ite ((keeps_onOs _).bind fun _ => .pure _) ((keeps_vatUntrack _ _).bind fun found => ?_)
    cases found with
    | none => exact h.callNt _ _ _
    | some r => exact (h.releaseSlot addr r).bind fun _ => .pure _
  · rw [realNtFreeVirtualMemory, marksAfter_callNt h _ _ _ fun _ => rfl]
    cases hw : w.closed <;> cases hm : w.tool.memManager <;>
      simp [HookCall.leavesSet, HookCall.exposed, passedOn, World.marksAfter, hw, hm]

theorem Calm.hookedNtMapViewOfSection (h : Calm env) (sect process : ℕ) (base : Option ℕ) (zeroBits commit : ℕ)
    (offset view : Option ℕ) (inherit type protect : ℕ) :
    (exec (hookedNtMapViewOfSection env sect process base zeroBits commit offset view inherit type protect) w).2.marks =
      if !w.closed then w.marks.setInHook true else w.marks := by
  refine (marks_of_nt_guard (h.callNt _ _ _) id).trans ?_
  cases hw : w.closed with
  | true => exact h.callNt _ _ _ w (inside_of_closed hw)
  | false => rfl

/-- The marks after any call of any hook. -/
theorem marks_run (h : Calm env) (c : HookCall) (w : World σ) : (exec (c.run env) w).2.marks =
    if c.leavesSet w then w.marks.setInHook true else w.marksAfter env (c.exposed env w) := by
  cases c with
  | rtlAllocateHeap => exact h.hookedRtlAllocateHeap _ _ _ _ w
  | rtlFreeHeap => exact h.hookedRtlFreeHeap _ _ _ w
  | rtlReAllocateHeap => exact h.hookedRtlReAllocateHeap _ _ _ _ _ w
  | heapReAlloc => exact h.hookedHeapReAlloc _ _ _ _ _ w
  | ntAllocateVirtualMemory => exact h.hookedNtAllocateVirtualMemory _ _ _ _ _ _
  | ntFreeVirtualMemory => exact h.hookedNtFreeVirtualMemory _ _ _ _
  | ntAllocateVirtualMemoryEx => exact h.hookedNtAllocateVirtualMemoryEx _ _ _ _ _ _ _
  | ntMapViewOfSection => exact h.hookedNtMapViewOfSection _ _ _ _ _ _ _ _ _ _
  | rtlCreateHeap => exact h.hookedRtlCreateHeap _ _ _ _ _ _ (P := fun _ => True) w trivial
  | virtualAlloc => exact h.hookedVirtualAlloc _ _ _ _ (P := fun _ => True) w trivial
  | virtualFree => exact h.hookedVirtualFree _ _ _ (P := fun _ => True) w trivial
  | heapCreate => exact h.forward _ _ (P := fun _ => True) w trivial
  | heapAlloc => exact h.hookedHeapAlloc _ _ _ _ (P := fun _ => True) w trivial
  | heapFree => exact h.hookedHeapFree _ _ _ (P := fun _ => True) w trivial
  | heapSize => exact h.hookedHeapSize _ _ _ (P := fun _ => True) w trivial
  | globalAlloc => exact h.suppressed _ (P := fun _ => True) w trivial
  | globalReAlloc => exact h.suppressed _ (P := fun _ => True) w trivial
  | localAlloc => exact h.suppressed _ (P := fun _ => True) w trivial
  | localReAlloc => exact h.suppressed _ (P := fun _ => True) w trivial

/-- A call that leaves the flag set has met a closed guard nowhere: it came from outside any hook. -/
theorem HookCall.closed_of_leavesSet {c : HookCall} (h : c.leavesSet w) : w.closed = false := by
  cases c <;> simp_all [HookCall.leavesSet]

/-- Such a call makes none outside a hook itself, -/
theorem HookCall.exposed_of_leavesSet {c : HookCall} (h : c.leavesSet w) : c.exposed env w = none := by
  cases c <;> simp_all [HookCall.leavesSet, HookCall.exposed, passedOn]

/-- and one that is made outside a hook is made with the marks that the hook has met. -/
theorem HookCall.marks_exposed (h : Calm env) {c : HookCall} {x : RealCall × World σ} (hx : c.exposed env w = some x) :
    x.2.marks = w.marks := by
  have hpassed : ∀ {taken : Bool} {r : RealCall}, passedOn w taken r = some x → x.2.marks = w.marks := by
    intro taken r hx
    unfold passedOn at hx
    split_ifs at hx
    cases hx; rfl
  have hfallback : ∀ {caller : Caller} {size : ℕ} {r : RealCall}, arenaFallback env caller size r w = some x →
      x.2.marks = w.marks := by
    intro caller size r hx
    unfold arenaFallback at hx
    split_ifs at hx
    cases hx
    exact keeps_attempt (h.createProxyAllocation _ _ _) (P := fun _ => True) w trivial
  cases c with
  | rtlAllocateHeap | rtlFreeHeap | ntAllocateVirtualMemory | ntFreeVirtualMemory | ntAllocateVirtualMemoryEx => exact hpassed hx
  | rtlReAllocateHeap =>
    simp only [HookCall.exposed] at hx
    split_ifs at hx
    · exact hpassed hx
    · exact hfallback hx
  | heapReAlloc =>
    simp only [HookCall.exposed] at hx
    split_ifs at hx
    exact hfallback hx
  | _ => cases hx

end

/-! ## Hooks inside the functions below the hooks -/

/-- The functions below the hooks, running hooks of their own before they return. -/
def Env.nest (env : Env σ) (inner : RealCall → World σ → List HookCall) : Env σ :=
  { env with real := fun c w => env.real c (Run.after (World.step env) w (inner c w)) }

/-- Inside a hook every nested hook passes the call on, or has no flag to set, so any hooks may be nested. -/
theorem Calm.nest {env : Env σ} (h : Calm env) (inner : RealCall → World σ → List HookCall) : Calm (env.nest inner) := by
  intro c w hw
  have hrun : ∀ (l : List HookCall) (v : World σ), v.marks = w.marks → (Run.after (World.step env) v l).marks = w.marks := by
    intro l
    induction l with
    | nil => exact fun v hv => hv
    | cons x l ih =>
      intro v hv
      refine ih _ ?_
      show World.marks (exec (x.run env) v).2 = w.marks
      rw [marks_run h]
      split_ifs with hs
      · -- the hook was open, so there is no slot for its flag
        have hclosed : v.marks.closed = false := HookCall.closed_of_leavesSet hs
        rw [hv] at hclosed ⊢
        have htls : w.marks.tlsAllocated = false := hw.resolve_left (by rw [hclosed]; exact Bool.false_ne_true)
        exact Marks.setInHook_of_not_allocated true htls
      · cases hx : x.exposed env v with
        | none => exact hv
        | some y =>
          have hy := HookCall.marks_exposed h hx
          exact (h y.1 y.2 (by rw [hy, hv]; exact hw)).trans (hy.trans hv)
  have hmarks := hrun (inner c w) w rfl
  exact (h c _ (by rw [hmarks]; exact hw)).trans hmarks

/-! ## Balance -/

section
variable {env : Env σ}

/-- The calls that leave the flag as they found it: none of the four Nt hooks past its guard, on a process with a
TLS slot, and none whose call outside any hook leaves the flag changed. -/
def Balanced (env : Env σ) (w : World σ) (c : HookCall) : Prop :=
  ¬ (c.leavesSet w ∧ w.tool.tlsAllocated) ∧
    ∀ x ∈ c.exposed env w, (exec (env.real x.1) x.2).2.isInHook = x.2.isInHook

instance (env : Env σ) (w : World σ) (c : HookCall) : Decidable (Balanced env w c) :=
  inferInstanceAs (Decidable (¬ _ ∧ ∀ x ∈ c.exposed env w, _ = _))

theorem isInHook_iff (h : Calm env) (c : HookCall) (w : World σ) :
    (exec (c.run env) w).2.isInHook = w.isInHook ↔ Balanced env w c := by
  have hm : (exec (c.run env) w).2.isInHook = (exec (c.run env) w).2.marks.isInHook := rfl
  rw [hm, marks_run h, Balanced]
  by_cases hs : c.leavesSet w
  · have hw := HookCall.closed_of_leavesSet hs
    simp only [World.closed, World.busy, Bool.or_eq_false_iff] at hw
    rw [if_pos hs, hw.1.2, HookCall.exposed_of_leavesSet hs]
    cases ht : w.tool.tlsAllocated <;> simp [Marks.isInHook, Marks.setInHook, World.marks, ht, hs]
  · rw [if_neg hs]
    cases hx : c.exposed env w with
    | none => simp [hs, World.marksAfter, World.marks, Marks.isInHook, World.isInHook]
    | some x =>
      have hflag : x.2.isInHook = w.isInHook := congrArg Marks.isInHook (HookCall.marks_exposed h hx)
      simp only [hs, Bool.false_eq_true, false_and, not_false_eq_true, true_and, Option.mem_def, Option.some.injEq, forall_eq', hflag]
      rfl

/-- The flag has its entry value after a call if and only if the call is balanced, and after any
sequence of balanced calls a thread that started outside a hook is outside a hook. -/
theorem balanced_iff (h : Calm env) :
    (∀ (c : HookCall) (w : World σ), (w.step env c).isInHook = w.isInHook ↔ Balanced env w c) ∧
    ∀ (w : World σ) (calls : List HookCall), w.isInHook = false → Run.Guarded (World.step env) (Balanced env) w calls →
      (Run.after (World.step env) w calls).isInHook = false :=
  ⟨fun c w => isInHook_iff h c w, fun _ _ hw hc =>
    hc.invariant (fun w c hw hb => ((isInHook_iff h c w).2 hb).trans hw) hw⟩

end

theorem calm_scripted : Calm Env.scripted := by
  intro c w _
  rcases w with ⟨_ | ⟨v, vs⟩, tool, thread, trace⟩ <;> rfl

/-- A capture, a commit and a free under a nesting GlobalAlloc keep the flag. -/
theorem balanced_arena1G : (Run.after (World.step Env.scripted) (World.install Sys.arena1G [1, 5])
    [.rtlAllocateHeap .plain 7 0 5000, .globalAlloc 2 16,
      .heapFree 7 0 0x40000000]).isInHook = false :=
  (balanced_iff calm_scripted).2 _ _ rfl (by decide +kernel)

/-- A system whose heaps grow through the hooked NtAllocateVirtualMemory. -/
def Env.growing : Env (List ℕ) := Env.scripted.nest fun c _ =>
  match c with
  | .rtlAllocateHeap .. => [.ntAllocateVirtualMemory minusOne (some 0x400000) 0 (some 4096) MEM_COMMIT PAGE_READWRITE]
  | _ => []

/-- A slot of the arena is live. -/
def World.slotted : World (List ℕ) := World.step Env.growing (World.install Sys.arena1G [1]) (.rtlAllocateHeap .plain 7 0 5000)

/-- A commit through the Nt entry, on a thread outside any hook, leaves that thread inside one; so does a
reallocation of a slot that the arena cannot commit, when the heap that takes it grows. -/
theorem not_balanced_ntAllocateVirtualMemory :
    (¬ ((World.install Sys.arena1G []).step Env.scripted
        (.ntAllocateVirtualMemory minusOne (some 0x400000) 0 (some 4096) MEM_COMMIT PAGE_READWRITE)).isInHook =
      (World.install Sys.arena1G ([] : List ℕ)).isInHook) ∧
    Calm Env.growing ∧
    ¬ (World.slotted.step Env.growing (.rtlReAllocateHeap .plain 7 0 0x40000000 0x20000)).isInHook = World.slotted.isInHook :=
  ⟨by decide +kernel, calm_scripted.nest _, by decide +kernel⟩

end Ts3Vas
