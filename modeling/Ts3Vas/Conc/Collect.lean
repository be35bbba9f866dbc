/-
Garbage collection on request. ProxyGc.cpp signals an event, at most so often, when the heartbeat reports
what is free; the companion, TS3VASMonoGc.cs, waits for the event, collects, and publishes the size of the
managed heap in a block that both map. The two run at the same time and share nothing else.
-/
import Ts3Vas.Lib.Run

namespace Ts3Vas.ProxyGc

/-! ## The heartbeat's side -/

/-- `EnvU64`, from what `_strtoui64` reads where the variable is set and short enough. -/
def envU64 (v : Option ℕ) (dflt : ℕ) : ℕ := if v.getD 0 = 0 then dflt else v.getD 0

structure Cadence where
  pressureBytes : ℕ
  proactiveIntervalMs : ℕ
  pressureIntervalMs : ℕ

/-- What `Init` makes of TS3VAS_GC_PRESSURE_MB, _INTERVAL_SEC and _PRESSURE_SEC. -/
def Cadence.init (pressureMb intervalSec pressureSec : Option ℕ) : Cadence where
  pressureBytes := envU64 pressureMb 1024 * (1024 * 1024) % 2 ^ 64
  proactiveIntervalMs := envU64 intervalSec 60 * 1000 % 2 ^ 64
  pressureIntervalMs := envU64 pressureSec 15 * 1000 % 2 ^ 64

def Cadence.underPressure (c : Cadence) (largestFreeBytes : ℕ) : Bool :=
  decide (0 < largestFreeBytes) && decide (largestFreeBytes < c.pressureBytes)

def Cadence.interval (c : Cadence) (pressure : Bool) : ℕ := if pressure then c.pressureIntervalMs else c.proactiveIntervalMs

/-- One call that signalled the event: when, and for which of the two reasons. -/
structure Request where
  now : ℕ
  pressure : Bool
  deriving DecidableEq, Repr

/-! ## The companion's side -/

/-- The statement of `WaiterLoop` that comes next. -/
inductive Waiter
  | opening
  /-- It has no event, and returned. -/
  | gone
  | wait
  /-- The wait timed out: the heap is measured, -/
  | sample
  /-- and published. -/
  | sampled (heap : ℕ)
  | before
  | collect
  | finalizers
  | again
  | after
  | collected (heap : ℕ)
  deriving DecidableEq, Repr

def Waiter.looping : Waiter → Bool
  | .opening | .gone => false
  | _ => true

structure Pair where
  cadence : Cadence
  gcReqEvent : Bool
  /-- The state of the event, which resets when a wait takes it. -/
  signaled : Bool
  lastGcReqMs : ℕ
  /-- `s_shHeap[0]`, where the block could be made and mapped. -/
  shHeap : Option ℕ
  waiter : Waiter
  clock : ℕ
  /-- The requests so far, the latest first. -/
  requests : List Request
  /-- How often a wait took the signal, and how often both passes of a collection were made. -/
  wakes : ℕ
  collections : ℕ
  /-- What was measured to be published, the latest first. -/
  measured : List ℕ

inductive Act
  | heartbeat (now largestFreeBytes : ℕ)
  /-- The companion opens or creates the event. -/
  | openEvent (ok : Bool)
  /-- Its wait ends with the signal, -/
  | signal
  /-- or after 30 s. -/
  | timeout
  /-- Its next statement, with the size of the heap and whether the block is mapped, if it asks. -/
  | run (heap : ℕ) (mapped : Bool)
  /-- Its next statement throws, and the loop goes on. -/
  | throw
  deriving DecidableEq, Repr

namespace Pair

def sinceLast (s : Pair) (now : ℕ) : ℕ := if s.lastGcReqMs = 0 then 2 ^ 64 - 1 else (now + 2 ^ 64 - s.lastGcReqMs) % 2 ^ 64

def maybeRequestMonoCollect (s : Pair) (now largestFreeBytes : ℕ) : Pair :=
  if !s.gcReqEvent then s
  else
    let pressure := s.cadence.underPressure largestFreeBytes
    if s.sinceLast now < s.cadence.interval pressure then s
    else { s with lastGcReqMs := now, signaled := true, requests := ⟨now, pressure⟩ :: s.requests }

def getScriptHeapBytes (s : Pair) : ℕ := s.shHeap.getD 0

/-- `PublishHeap`, with what `OpenShared` returns. -/
def publishHeap (s : Pair) (heap : ℕ) (mapped : Bool) : Pair :=
  { s with shHeap := if mapped then s.shHeap.map fun _ => heap else s.shHeap }

def run (s : Pair) (heap : ℕ) (mapped : Bool) : Pair :=
  match s.waiter with
  | .sample => { s with waiter := .sampled heap, measured := heap :: s.measured }
  | .sampled h => { s.publishHeap h mapped with waiter := .wait }
  | .before => { s with waiter := .collect }
  | .collect => { s with waiter := .finalizers }
  | .finalizers => { s with waiter := .again }
  | .again => { s with waiter := .after, collections := s.collections + 1 }
  | .after => { s with waiter := .collected heap, measured := heap :: s.measured }
  | .collected h => { s.publishHeap h mapped with waiter := .wait }
  | .opening | .gone | .wait => s

def step (s : Pair) : Act → Pair
  | .heartbeat now largestFreeBytes => { s.maybeRequestMonoCollect now largestFreeBytes with clock := now }
  | .openEvent ok => { s with waiter := if ok then .wait else .gone }
  | .signal => { s with signaled := false, waiter := .before, wakes := s.wakes + 1 }
  | .timeout => { s with waiter := .sample }
  | .run heap mapped => s.run heap mapped
  | .throw => { s with waiter := .wait }

/-- The tick count goes on from the start of the system; a wait takes the signal where there is one; and the
companion can map the block only where there is one. -/
def Allowed (s : Pair) : Act → Prop
  | .heartbeat now _ => 0 < now ∧ s.clock ≤ now ∧ now < 2 ^ 64
  | .openEvent _ => s.waiter = .opening
  | .signal => s.waiter = .wait ∧ s.signaled
  | .timeout => s.waiter = .wait ∧ s.signaled = false
  | .run _ mapped => mapped → s.shHeap.isSome
  | .throw => s.waiter.looping

instance (s : Pair) : (act : Act) → Decidable (s.Allowed act)
  | .heartbeat .. => inferInstanceAs (Decidable (_ ∧ _))
  | .openEvent _ => inferInstanceAs (Decidable (_ = _))
  | .signal => inferInstanceAs (Decidable (_ ∧ _))
  | .timeout => inferInstanceAs (Decidable (_ ∧ _))
  | .run .. => inferInstanceAs (Decidable (_ → _))
  | .throw => inferInstanceAs (Decidable (_ = true))

/-- After `Init`, with the event and the block if they could be made. -/
def init (cadence : Cadence) (event block : Bool) : Pair where
  cadence := cadence
  gcReqEvent := event
  signaled := false
  lastGcReqMs := 0
  shHeap := if block then some 0 else none
  waiter := .opening
  clock := 0
  requests := []
  wakes := 0
  collections := 0
  measured := []

abbrev Run (s : Pair) (acts : List Act) : Prop := Run.Guarded step Allowed s acts

abbrev after (s : Pair) (acts : List Act) : Pair := Run.after step s acts

end Pair

/-! ## The invariant -/

/-- Two requests in turn are apart by the interval of the later one. -/
def Spaced (c : Cadence) (later earlier : Request) : Prop := earlier.now + c.interval later.pressure ≤ later.now

namespace Waiter

def owes : Waiter → ℕ
  | .before | .collect | .finalizers | .again => 1
  | _ => 0

def holds : Waiter → Option ℕ
  | .sampled h | .collected h => some h
  | _ => none

def togo : Waiter → ℕ
  | .before => 6
  | .collect => 5
  | .finalizers => 4
  | .again => 3
  | .after | .sample => 2
  | .collected _ | .sampled _ => 1
  | .opening | .gone | .wait => 0

theorem togo_le (w : Waiter) : w.togo ≤ 6 := by cases w <;> simp [togo]

end Waiter

namespace Pair

/-- The invariant of every interleaving. -/
structure Kept (c : Cadence) (s : Pair) : Prop where
  cadence : s.cadence = c
  last : s.lastGcReqMs = (s.requests.head?.map (·.now)).getD 0
  spaced : s.requests.IsChain (Spaced c)
  ticks : ∀ r ∈ s.requests, 0 < r.now ∧ r.now ≤ s.clock
  clock : s.clock < 2 ^ 64
  /-- A signal that no wait has taken stands for a request of its own. -/
  wakes : s.wakes + s.signaled.toNat ≤ s.requests.length
  collections : s.collections + s.waiter.owes ≤ s.wakes
  heap : ∀ h ∈ s.shHeap, h = 0 ∨ h ∈ s.measured
  holds : ∀ h ∈ s.waiter.holds, h ∈ s.measured

section
variable {c : Cadence} {s : Pair}

theorem Kept.last_cons (h : s.Kept c) {r : Request} {rs : List Request} (hr : s.requests = r :: rs) :
    s.lastGcReqMs = r.now := by
  rw [h.last, hr]
  rfl

/-- With a request behind it, the difference in 64 bits is the time since then. -/
theorem Kept.sinceLast_cons (h : s.Kept c) {r : Request} {rs : List Request} (hr : s.requests = r :: rs) {now : ℕ}
    (hc : s.clock ≤ now) (hlt : now < 2 ^ 64) : s.sinceLast now = now - r.now ∧ r.now ≤ now := by
  obtain ⟨hpos, hle⟩ := h.ticks r (by rw [hr]; exact List.mem_cons_self ..)
  have hlast := h.last_cons hr
  refine ⟨?_, by omega⟩
  rw [sinceLast, hlast, if_neg (by omega)]
  omega

theorem Kept.sinceLast_nil (h : s.Kept c) (hr : s.requests = []) (now : ℕ) : s.sinceLast now = 2 ^ 64 - 1 := by
  have hlast := h.last
  rw [hr] at hlast
  rw [sinceLast, hlast]
  rfl

theorem init_kept (c : Cadence) (event block : Bool) : (init c event block).Kept c where
  cadence := rfl
  last := rfl
  spaced := .nil
  ticks := by simp [init]
  clock := by simp [init]
  wakes := le_rfl
  collections := le_rfl
  heap := by cases block <;> simp [init]
  holds := by simp [init, Waiter.holds]

/-! ## What each step keeps -/

theorem Kept.heartbeat (h : s.Kept c) {now free : ℕ} (hop : s.Allowed (.heartbeat now free)) :
    (s.step (.heartbeat now free)).Kept c := by
  obtain ⟨hpos, hle, hlt⟩ := hop
  have hticks : ∀ r ∈ s.requests, 0 < r.now ∧ r.now ≤ now := fun r hr => ⟨(h.ticks r hr).1, (h.ticks r hr).2.trans hle⟩
  simp only [step, maybeRequestMonoCollect]
  split
  · exact ⟨h.cadence, h.last, h.spaced, hticks, hlt, h.wakes, h.collections, h.heap, h.holds⟩
  · split
    · exact ⟨h.cadence, h.last, h.spaced, hticks, hlt, h.wakes, h.collections, h.heap, h.holds⟩
    · rename_i hdue
      rw [not_lt, h.cadence] at hdue
      refine ⟨h.cadence, rfl, h.spaced.cons fun r hr => ?_, ?_, hlt, ?_, h.collections, h.heap, h.holds⟩
      · obtain ⟨rs, hrs⟩ := List.head?_eq_some_iff.1 hr
        obtain ⟨hs, hrn⟩ := h.sinceLast_cons hrs hle hlt
        rw [hs] at hdue
        show r.now + c.interval (s.cadence.underPressure free) ≤ now
        rw [h.cadence]
        omega
      · rw [List.forall_mem_cons]
        exact ⟨⟨hpos, le_rfl⟩, hticks⟩
      · have hw := h.wakes
        have hb := Bool.toNat_le s.signaled
        show s.wakes + 1 ≤ s.requests.length + 1
        omega

theorem Kept.move (h : s.Kept c) {w : Waiter} (howes : s.collections + w.owes ≤ s.wakes)
    (hholds : ∀ x ∈ w.holds, x ∈ s.measured) : ({ s with waiter := w } : Pair).Kept c :=
  ⟨h.cadence, h.last, h.spaced, h.ticks, h.clock, h.wakes, howes, h.heap, hholds⟩

theorem Kept.measure (h : s.Kept c) {w : Waiter} (howes : s.collections + w.owes ≤ s.wakes) {heap : ℕ}
    (hw : w.holds = some heap) : ({ s with waiter := w, measured := heap :: s.measured } : Pair).Kept c := by
  refine ⟨h.cadence, h.last, h.spaced, h.ticks, h.clock, h.wakes, howes, fun x hx => ?_, fun x hx => ?_⟩
  · exact (h.heap x hx).imp_right (List.mem_cons_of_mem _)
  · cases hw.symm.trans hx
    exact List.mem_cons_self ..

theorem Kept.publish (h : s.Kept c) {heap : ℕ} (hw : s.waiter.holds = some heap) (mapped : Bool) :
    ({ s.publishHeap heap mapped with waiter := .wait } : Pair).Kept c := by
  refine ⟨h.cadence, h.last, h.spaced, h.ticks, h.clock, h.wakes, (Nat.le_add_right ..).trans h.collections, ?_, nofun⟩
  intro x hx
  simp only [publishHeap] at hx
  split at hx
  · obtain ⟨-, -, rfl⟩ := Option.map_eq_some_iff.1 hx
    exact .inr (h.holds _ hw)
  · exact h.heap x hx

theorem Kept.run (h : s.Kept c) (heap : ℕ) (mapped : Bool) : (s.run heap mapped).Kept c := by
  have hcol := h.collections
  unfold Pair.run
  split
  case h_1 hw => exact h.measure (by rw [hw] at hcol; exact hcol) rfl
  case h_2 x hw => exact h.publish (by rw [hw]; rfl) mapped
  case h_3 hw => exact h.move (by rw [hw] at hcol; exact hcol) nofun
  case h_4 hw => exact h.move (by rw [hw] at hcol; exact hcol) nofun
  case h_5 hw => exact h.move (by rw [hw] at hcol; exact hcol) nofun
  case h_6 hw =>
    rw [hw] at hcol
    exact ⟨h.cadence, h.last, h.spaced, h.ticks, h.clock, h.wakes, hcol, h.heap, nofun⟩
  case h_7 hw => exact h.measure (by rw [hw] at hcol; exact hcol) rfl
  case h_8 x hw => exact h.publish (by rw [hw]; rfl) mapped
  all_goals exact h

theorem Kept.step (h : s.Kept c) {act : Act} (hop : s.Allowed act) : (s.step act).Kept c := by
  have hcol := (Nat.le_add_right ..).trans h.collections
  cases act with
  | heartbeat now free => exact h.heartbeat hop
  | openEvent ok => cases ok <;> exact h.move hcol nofun
  | signal =>
    have hw := h.wakes
    rw [hop.2] at hw
    exact ⟨h.cadence, h.last, h.spaced, h.ticks, h.clock, hw, Nat.succ_le_succ hcol, h.heap, nofun⟩
  | timeout => exact h.move hcol nofun
  | run heap mapped => exact h.run heap mapped
  | throw => exact h.move hcol nofun

theorem Kept.after (h : s.Kept c) {acts : List Act} (hrun : Run s acts) : (after s acts).Kept c :=
  hrun.invariant (fun _ _ h hop => h.step hop) h

end

/-! ## How often -/

/-- Requests that are `gap` apart are no more than fit between the first and the last. -/
theorem spaced_length {c : Cadence} {gap : ℕ} (hgap : ∀ pressure, gap ≤ c.interval pressure) :
    ∀ {rs : List Request} {r e : Request}, (r :: rs).IsChain (Spaced c) → e ∈ (r :: rs).getLast? →
      rs.length * gap + e.now ≤ r.now
  | [], r, e, _, he => by
    cases he
    simp
  | r' :: rs, r, e, h, he => by
    obtain ⟨hr, hrest⟩ := List.isChain_cons_cons.1 h
    rw [List.getLast?_cons_cons] at he
    have ih := spaced_length hgap hrest he
    have := hgap r.pressure
    unfold Spaced at hr
    rw [List.length_cons, Nat.succ_mul]
    omega

/-- In every interleaving, each collection stands for a request of its own; two requests in turn are apart by
the interval for what was free at the later one, so there is at most one for each shorter interval since the
first. -/
theorem collections_paced (mb sec psec : Option ℕ) (event block : Bool) {acts : List Act}
    (hrun : Run (init (.init mb sec psec) event block) acts) :
    let c := Cadence.init mb sec psec
    let s := after (init c event block) acts
    s.collections ≤ s.wakes ∧ s.wakes ≤ s.requests.length ∧ s.requests.IsChain (Spaced c) ∧
      ∀ e ∈ s.requests.getLast?,
        (s.requests.length - 1) * min c.proactiveIntervalMs c.pressureIntervalMs + e.now ≤ s.clock := by
  intro c s
  have h : s.Kept c := (init_kept c event block).after hrun
  refine ⟨(Nat.le_add_right ..).trans h.collections, (Nat.le_add_right ..).trans h.wakes, h.spaced, fun e he => ?_⟩
  rcases hr : s.requests with _ | ⟨r, rs⟩
  · rw [hr] at he
    cases he
  · have hgap : ∀ pressure, min c.proactiveIntervalMs c.pressureIntervalMs ≤ c.interval pressure := by
      intro pressure
      unfold Cadence.interval
      split
      · exact min_le_right ..
      · exact min_le_left ..
    rw [hr] at he
    have hlen := spaced_length hgap (hr ▸ h.spaced) he
    have hclock := (h.ticks r (by rw [hr]; exact List.mem_cons_self ..)).2
    rw [List.length_cons, Nat.add_sub_cancel]
    exact hlen.trans hclock

/-- A heartbeat every second, two of them in time for a request, while the companion starts late. -/
theorem collections_paced_late :
    let c := Cadence.init none (some 2) (some 1)
    let s := after (init c true true) [.heartbeat 5000 (2 ^ 31), .heartbeat 6000 (2 ^ 29), .openEvent true,
      .heartbeat 6500 (2 ^ 29), .signal, .run 0 true, .run 0 true]
    s.collections ≤ s.wakes ∧ s.wakes ≤ s.requests.length ∧ s.requests.IsChain (Spaced c) ∧
      ∀ e ∈ s.requests.getLast?,
        (s.requests.length - 1) * min c.proactiveIntervalMs c.pressureIntervalMs + e.now ≤ s.clock :=
  collections_paced none (some 2) (some 1) true true (by decide)

/-! ## That requests are made, and answered -/

theorem Cadence.interval_lt (mb sec psec : Option ℕ) (pressure : Bool) :
    (Cadence.init mb sec psec).interval pressure < 2 ^ 64 := by
  unfold Cadence.interval
  split <;> exact Nat.mod_lt _ (by decide)

theorem step_gcReqEvent (s : Pair) (act : Act) : (s.step act).gcReqEvent = s.gcReqEvent := by
  cases act with
  | heartbeat now free =>
    simp only [step, maybeRequestMonoCollect]
    split
    · rfl
    · split <;> rfl
  | run heap mapped =>
    simp only [step, run]
    split <;> rfl
  | _ => rfl

theorem after_gcReqEvent : ∀ (acts : List Act) (s : Pair), (after s acts).gcReqEvent = s.gcReqEvent
  | [], _ => rfl
  | act :: acts, s => (after_gcReqEvent acts (s.step act)).trans (step_gcReqEvent s act)

theorem Kept.requested {c : Cadence} {s : Pair} (h : s.Kept c) (hevent : s.gcReqEvent)
    (hlt : ∀ pressure, c.interval pressure < 2 ^ 64) {now free : ℕ} (hop : s.Allowed (.heartbeat now free)) :
    ∃ r ∈ (s.step (.heartbeat now free)).requests.head?,
      (r = ⟨now, c.underPressure free⟩ ∧ (s.step (.heartbeat now free)).signaled) ∨
        now < r.now + c.interval (c.underPressure free) := by
  obtain ⟨-, hle, hnow⟩ := hop
  simp only [Pair.step, maybeRequestMonoCollect, hevent, h.cadence, Bool.not_true, if_neg Bool.false_ne_true]
  split
  · rename_i hearly
    rcases hr : s.requests with _ | ⟨r, rs⟩
    · -- the first heartbeat is never early
      have := hlt (c.underPressure free)
      rw [h.sinceLast_nil hr] at hearly
      omega
    · obtain ⟨hsince, hrn⟩ := h.sinceLast_cons hr hle hnow
      rw [hsince] at hearly
      exact ⟨r, by simp, .inr (by omega)⟩
  · exact ⟨_, rfl, .inl ⟨rfl, rfl⟩⟩

/-- After each heartbeat the latest request is the one that it made, or more recent than the interval for
what is free now. -/
theorem requested_in_time (mb sec psec : Option ℕ) (block : Bool) {acts : List Act} {now free : ℕ}
    (hrun : Run (init (.init mb sec psec) true block) (acts ++ [.heartbeat now free])) :
    let c := Cadence.init mb sec psec
    let s := after (init c true block) (acts ++ [.heartbeat now free])
    ∃ r ∈ s.requests.head?, (r = ⟨now, c.underPressure free⟩ ∧ s.signaled) ∨
      now < r.now + c.interval (c.underPressure free) := by
  intro c s
  obtain ⟨hpre, hop⟩ := Run.guarded_concat.1 hrun
  have h : (after (init c true block) acts).Kept c := (init_kept c true block).after hpre
  have hs : s = (after (init c true block) acts).step (.heartbeat now free) := Run.after_append ..
  rw [hs]
  exact h.requested (after_gcReqEvent acts _) (Cadence.interval_lt mb sec psec) hop

theorem requested_in_time_third :
    let c := Cadence.init none (some 2) (some 1)
    let s := after (init c true true) ([.heartbeat 5000 (2 ^ 31), .heartbeat 6000 (2 ^ 31)] ++ [.heartbeat 6500 (2 ^ 29)])
    ∃ r ∈ s.requests.head?, (r = ⟨6500, c.underPressure (2 ^ 29)⟩ ∧ s.signaled) ∨
      6500 < r.now + c.interval (c.underPressure (2 ^ 29)) :=
  requested_in_time none (some 2) (some 1) true (by decide)

theorem step_signaled {s : Pair} {act : Act} (h : s.signaled) (hact : act ≠ .signal) : (s.step act).signaled := by
  cases act with
  | heartbeat now free =>
    simp only [step, maybeRequestMonoCollect]
    split
    · exact h
    · split
      · exact h
      · rfl
  | signal => exact absurd rfl hact
  | run heap mapped =>
    simp only [step, run]
    split <;> exact h
  | _ => exact h

theorem after_signaled : ∀ {acts : List Act} {s : Pair}, s.signaled → .signal ∉ acts → (after s acts).signaled
  | [], _, h, _ => h
  | _ :: _, _, h, hn => by
    rw [List.mem_cons, not_or] at hn
    exact after_signaled (s := Pair.step _ _) (step_signaled h (Ne.symm hn.1)) hn.2

/-- Left alone, the companion gets back to its wait, and through both passes where it had just been woken. -/
theorem run_togo (s : Pair) (heap : ℕ) (hloop : s.waiter.looping) :
    let acts := List.replicate s.waiter.togo (.run heap s.shHeap.isSome)
    let t := after s acts
    Run s acts ∧ t.waiter = .wait ∧ t.signaled = s.signaled ∧ t.shHeap.isSome = s.shHeap.isSome ∧
      s.collections ≤ t.collections ∧ (s.waiter = .before →
        t.collections = s.collections + 1 ∧ (s.shHeap.isSome → t.getScriptHeapBytes = heap)) := by
  obtain ⟨_, _, _, _, shHeap, waiter, _, _, _, _, _⟩ := s
  cases waiter with
  | opening => cases hloop
  | gone => cases hloop
  | _ =>
    cases shHeap <;>
      simp [Waiter.togo, List.replicate, after, Run, Run.Guarded, Allowed, step, run, publishHeap, getScriptHeapBytes]

theorem Kept.read {c : Cadence} {s : Pair} (h : s.Kept c) :
    s.getScriptHeapBytes = 0 ∨ s.getScriptHeapBytes ∈ s.measured := by
  unfold getScriptHeapBytes
  rcases hs : s.shHeap with _ | x
  · exact .inl rfl
  · exact h.heap x hs

/-- A signal stays until a wait takes it, whatever happens in between; and from there the companion, left
alone, gets through both passes and publishes what the heap is then. What the heartbeat reads was measured,
or nothing has been published. -/
theorem signal_answered (mb sec psec : Option ℕ) (event block : Bool) {acts acts' : List Act}
    (hrun : Run (init (.init mb sec psec) event block) (acts ++ acts'))
    (hset : (after (init (.init mb sec psec) event block) acts).signaled) (hquiet : .signal ∉ acts')
    (hloop : (after (init (.init mb sec psec) event block) (acts ++ acts')).waiter.looping) (heap : ℕ) :
    let s := after (init (.init mb sec psec) event block) (acts ++ acts')
    s.signaled ∧ (s.getScriptHeapBytes = 0 ∨ s.getScriptHeapBytes ∈ s.measured) ∧
      ∃ steps, (∀ act ∈ steps, act = .signal ∨ ∃ mapped, act = .run heap mapped) ∧ steps.length ≤ 13 ∧ Run s steps ∧
        (after s steps).waiter = .wait ∧ (after s steps).signaled = false ∧
        s.collections < (after s steps).collections ∧
        (s.shHeap.isSome → (after s steps).getScriptHeapBytes = heap) := by
  intro s
  have h : s.Kept (.init mb sec psec) := (init_kept _ event block).after hrun
  have hs : s = after (after (init (.init mb sec psec) event block) acts) acts' := Run.after_append ..
  have hset' : s.signaled := hs ▸ after_signaled hset hquiet
  refine ⟨hset', h.read, ?_⟩
  -- back to the wait, through it, and once round
  obtain ⟨hrun₁, hw₁, hs₁, hh₁, hc₁, -⟩ := run_togo s heap hloop
  have htogo := s.waiter.togo_le
  generalize hto : List.replicate s.waiter.togo (Act.run heap s.shHeap.isSome) = back at hrun₁ hw₁ hs₁ hh₁ hc₁
  have hlen : back.length = s.waiter.togo := by rw [← hto, List.length_replicate]
  have hop : (after s back).Allowed .signal := ⟨hw₁, hs₁.trans hset'⟩
  obtain ⟨hrun₂, hw₂, hs₂, hh₂, -, hdone⟩ := run_togo ((after s back).step .signal) heap rfl
  obtain ⟨hc₂, hheap⟩ := hdone rfl
  generalize hround : List.replicate ((after s back).step .signal).waiter.togo
    (Act.run heap ((after s back).step .signal).shHeap.isSome) = round at hrun₂ hw₂ hs₂ hh₂ hc₂ hheap
  have hlen' : round.length = 6 := by rw [← hround, List.length_replicate]; rfl
  have hafter : after s (back ++ .signal :: round) = after ((after s back).step .signal) round := Run.after_append ..
  refine ⟨back ++ .signal :: round, ?_, ?_, ?_, ?_, ?_, ?_, ?_⟩
  · intro act hact
    rcases List.mem_append.1 hact with hact | hact
    · rw [← hto] at hact
      exact .inr ⟨_, List.eq_of_mem_replicate hact⟩
    · rcases List.mem_cons.1 hact with rfl | hact
      · exact .inl rfl
      · rw [← hround] at hact
        exact .inr ⟨_, List.eq_of_mem_replicate hact⟩
  · rw [List.length_append, List.length_cons]
    omega
  · exact Run.guarded_append.2 ⟨hrun₁, hop, hrun₂⟩
  · rw [hafter]; exact hw₂
  · rw [hafter]; exact hs₂
  · rw [hafter, hc₂]
    exact Nat.lt_succ_of_le hc₁
  · rw [hafter]
    exact fun hsome => hheap (hh₁.trans hsome)

theorem signal_answered_sample :
    let s := after (init (.init none none none) true true) ([.openEvent true, .timeout, .heartbeat 5000 (2 ^ 29)] ++
      [.run 300 true, .heartbeat 7000 (2 ^ 29)])
    s.signaled ∧ (s.getScriptHeapBytes = 0 ∨ s.getScriptHeapBytes ∈ s.measured) ∧
      ∃ steps, (∀ act ∈ steps, act = .signal ∨ ∃ mapped, act = .run 200 mapped) ∧ steps.length ≤ 13 ∧ Run s steps ∧
        (after s steps).waiter = .wait ∧ (after s steps).signaled = false ∧
        s.collections < (after s steps).collections ∧
        (s.shHeap.isSome → (after s steps).getScriptHeapBytes = 200) :=
  signal_answered none none none true true (by decide) (by decide) (by decide) (by decide) 200

end Pair

end Ts3Vas.ProxyGc
