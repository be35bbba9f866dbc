/-
The Direct3D hooks of ObserverHooks.cpp: Hooked_Present, which counts hitches, paces the frames and asks whether the
device is lost, and Hooked_SetRenderTarget, which keeps calls off a lost device. The render thread makes the calls one
after another.
-/
import Ts3Vas.Conc.Modes
import Ts3Vas.Lib.Change
import Ts3Vas.Lib.Spaced

namespace Ts3Vas.ObserverHooks

open WorkingHooks (Variable)

def HITCH_THRESHOLD_MS : ℕ := 50

def D3D_OK : ℕ := 0

/-- What Install and ResolveTargetFps make of the environment. -/
structure PresentSettings where
  qpcFrequency : ℤ
  targetFps : ℕ
  captureHitchStacks : Bool
  hitchLogInterval : ℕ
  deviceGuard : Bool

namespace PresentSettings

/-- The numbers are what strtoul makes of the variables that are set. -/
def resolve (qpcFrequency : ℤ) (fpsCap : Option ℕ) (captureStacks : Variable) (hitchLogInterval : Option ℕ)
    (deviceGuard : Variable) : PresentSettings where
  qpcFrequency := qpcFrequency
  targetFps := match fpsCap with
    | none => 60
    | some fps => if 240 < fps then 240 else fps
  captureHitchStacks := decide (captureStacks.n < 32) && captureStacks.on
  hitchLogInterval := match hitchLogInterval with
    | some interval => if 1 ≤ interval ∧ interval ≤ 1000 then interval else 25
    | none => 25
  deviceGuard := deviceGuard.mode true

def targetTicks (c : PresentSettings) : ℤ := c.qpcFrequency.tdiv c.targetFps

/-- How long FrameCapWait waits, in units of 100 ns: with the timer what it is due, else whole milliseconds of Sleep. -/
def frameCapWait (c : PresentSettings) (timer : Bool) (remainingTicks : ℤ) : ℤ :=
  if remainingTicks ≤ 0 ∨ c.qpcFrequency ≤ 0 then 0
  else
    let hundredNs := (remainingTicks * 10000000).tdiv c.qpcFrequency
    if hundredNs ≤ 0 then 0 else if timer then hundredNs else hundredNs.tdiv 10000 % 2 ^ 32 * 10000

end PresentSettings

structure Device where
  lastPresentTime : ℤ
  presentCallCount : ℕ
  hitchCount : ℕ
  stackCaptureFailures : ℕ
  deviceLost : Bool
  deviceLostEvents : ℕ
  guardedCallCount : ℕ
  deriving DecidableEq, Repr

/-- What a call of Present finds. -/
structure PresentCall where
  /-- The hook is running on this thread already, or the tool shuts down. -/
  through : Bool
  currentTime : ℤ
  /-- What CaptureAndLogStackAsync would answer. -/
  captured : Bool
  device : Bool
  coop : ℕ
  timer : Bool
  /-- The time after the wait. -/
  woken : ℤ
  deriving DecidableEq, Repr

/-- The hook asks the device. -/
def PresentCall.probes (c : PresentSettings) (p : PresentCall) : Bool := c.deviceGuard && p.device

def PresentCall.deviceLost (c : PresentSettings) (p : PresentCall) : Bool := p.probes c && decide (p.coop ≠ D3D_OK)

inductive Call
  | present (p : PresentCall)
  | setRenderTarget (device : Bool) (coop : ℕ)
  deriving DecidableEq, Repr

/-- The lines of the log, and the calls that go on to d3d9. -/
inductive Event
  | hitch (frameTimeMs n : ℕ) (trace : Option Bool)
  | lost (coop : ℕ)
  | recovered
  /-- Real_Present, with the time that the next frame is measured from, if it is set. -/
  | present (baseline : Option ℤ)
  | setRenderTarget
  /-- The error went back in place of a call of SetRenderTarget. -/
  | guarded (coop : ℕ)
  deriving DecidableEq, Repr

/-- The hooks found the device lost, or found it back. -/
def Event.lost? : Event → Option Bool
  | .lost _ => some true
  | .recovered => some false
  | _ => none

/-- The time of a frame that the hook has measured. -/
def Event.frame? : Event → Option ℤ
  | .present baseline => baseline
  | _ => none

/-- A line about a hitch. -/
structure HitchLine where
  frameTimeMs : ℕ
  n : ℕ
  trace : Option Bool
  deriving DecidableEq, Repr

def Event.hitch? : Event → Option HitchLine
  | .hitch frameTimeMs n trace => some ⟨frameTimeMs, n, trace⟩
  | _ => none

namespace PresentSettings

variable {c : PresentSettings}

/-- By how many units of 100 ns a wait may fall short: it is cut to whole units of the timer, or of Sleep. -/
def slack (timer : Bool) : ℤ := if timer then 1 else 10000

theorem targetTicks_le (hfreq : 0 < c.qpcFrequency) : c.targetTicks ≤ c.qpcFrequency := by
  rw [targetTicks, Int.tdiv_eq_ediv_of_nonneg hfreq.le]
  exact Int.ediv_le_self _ hfreq.le

/-- Whatever the environment says, there is an interval to sample by, and a cap of at most 240. -/
theorem resolve_bounds (freq : ℤ) (fpsCap : Option ℕ) (captureStacks : Variable) (interval : Option ℕ) (guard : Variable) :
    0 < (resolve freq fpsCap captureStacks interval guard).hitchLogInterval ∧
      (resolve freq fpsCap captureStacks interval guard).targetFps ≤ 240 := by
  constructor
  · cases interval with
    | none => exact Nat.succ_pos 24
    | some i =>
      dsimp only [resolve]
      split <;> omega
  · cases fpsCap with
    | none =>
      dsimp only [resolve]
      omega
    | some fps =>
      dsimp only [resolve]
      split <;> omega

/-- A wait that was asked for falls short of what remains by less than the slack. -/
theorem frameCapWait_lt (hfreq : 0 < c.qpcFrequency) {rem : ℤ} (hrem : 0 < rem) (hle : rem ≤ c.qpcFrequency) (timer : Bool) :
    rem * 10000000 < (c.frameCapWait timer rem + slack timer) * c.qpcFrequency := by
  have hnonneg : 0 ≤ rem * 10000000 := by omega
  have hq : rem * 10000000 < (rem * 10000000 / c.qpcFrequency + 1) * c.qpcFrequency := Int.lt_ediv_add_one_mul_self _ hfreq
  have hq0 : 0 ≤ rem * 10000000 / c.qpcFrequency := Int.ediv_nonneg hnonneg hfreq.le
  have hqle : rem * 10000000 / c.qpcFrequency ≤ 10000000 :=
    Int.ediv_le_of_le_mul hfreq (by rw [mul_comm]; exact Int.mul_le_mul_of_nonneg_left hle (by decide))
  rw [frameCapWait, if_neg (by omega), Int.tdiv_eq_ediv_of_nonneg hnonneg]
  generalize rem * 10000000 / c.qpcFrequency = q at hq hq0 hqle
  refine hq.trans_le (Int.mul_le_mul_of_nonneg_right ?_ hfreq.le)
  dsimp only [slack]
  cases timer with
  | true =>
    rw [if_pos rfl, if_pos rfl]
    split <;> omega
  | false =>
    rw [Int.tdiv_eq_ediv_of_nonneg hq0, if_neg Bool.false_ne_true, if_neg Bool.false_ne_true]
    split <;> omega

end PresentSettings

namespace Device

def start : Device := ⟨0, 0, 0, 0, false, 0, 0⟩

def noteCoopLevel (d : Device) (coop : ℕ) : Device × List Event :=
  let lost := decide (coop ≠ D3D_OK)
  if lost && !d.deviceLost then
    ({ d with deviceLost := lost, deviceLostEvents := (d.deviceLostEvents + 1) % 2 ^ 32 }, [.lost coop])
  else if !lost && d.deviceLost then ({ d with deviceLost := lost }, [.recovered])
  else ({ d with deviceLost := lost }, [])

variable (c : PresentSettings)

def frameTimeMs (d : Device) (p : PresentCall) : ℕ :=
  (((p.currentTime - d.lastPresentTime) * 1000).tdiv c.qpcFrequency % 2 ^ 32).toNat

/-- The frame took too long. -/
def hitches (d : Device) (p : PresentCall) : Bool :=
  decide (0 < d.lastPresentTime) && decide (HITCH_THRESHOLD_MS < d.frameTimeMs c p)

def noteHitch (d : Device) (p : PresentCall) : Device × List Event :=
  if d.hitches c p then
    let n := (d.hitchCount + 1) % 2 ^ 32
    if 0 < c.hitchLogInterval ∧ n % c.hitchLogInterval = 0 then
      let captured := c.captureHitchStacks && p.captured
      ({ d with
          hitchCount := n
          stackCaptureFailures :=
            if c.captureHitchStacks && !captured then (d.stackCaptureFailures + 1) % 2 ^ 32 else d.stackCaptureFailures },
        [.hitch (d.frameTimeMs c p) n (if c.captureHitchStacks then some captured else none)])
    else ({ d with hitchCount := n }, [])
  else (d, [])

/-- The frame comes too early, and waits. -/
def waits (d : Device) (p : PresentCall) : Bool :=
  !p.deviceLost c && decide (0 < c.targetFps) && decide (0 < c.qpcFrequency) && decide (0 < d.lastPresentTime) &&
    decide (p.currentTime - d.lastPresentTime < c.targetTicks)

def hookedPresent (d : Device) (p : PresentCall) : Device × List Event :=
  if p.through then (d, [.present none])
  else
    let hitch := d.noteHitch c p
    let coop := if p.probes c then hitch.1.noteCoopLevel p.coop else (hitch.1, [])
    let time := if d.waits c p then p.woken else p.currentTime
    ({ coop.1 with lastPresentTime := time, presentCallCount := (coop.1.presentCallCount + 1) % 2 ^ 32 },
      hitch.2 ++ coop.2 ++ [.present (some time)])

def hookedSetRenderTarget (d : Device) (device : Bool) (coop : ℕ) : Device × List Event :=
  if c.deviceGuard && device && decide (coop ≠ D3D_OK) then
    let noted := d.noteCoopLevel coop
    ({ noted.1 with guardedCallCount := (noted.1.guardedCallCount + 1) % 2 ^ 32 }, noted.2 ++ [.guarded coop])
  else (d, [.setRenderTarget])

def step (d : Device) : Call → Device × List Event
  | .present p => d.hookedPresent c p
  | .setRenderTarget device coop => d.hookedSetRenderTarget c device coop

abbrev after (d : Device) (calls : List Call) : Device := Run.after (Run.state (step c)) d calls

abbrev log (d : Device) (calls : List Call) : List Event := Run.emitted (step c) d calls

section
variable {c} {d : Device} {p : PresentCall} {coop : ℕ} {call : Call}

/-! ## One call -/

/-- A change has a line, and a loss is counted. -/
theorem noteCoopLevel_eq (d : Device) (coop : ℕ) : d.noteCoopLevel coop =
    ({ d with
        deviceLost := decide (coop ≠ D3D_OK)
        deviceLostEvents :=
          if decide (coop ≠ D3D_OK) && !d.deviceLost then (d.deviceLostEvents + 1) % 2 ^ 32 else d.deviceLostEvents },
      (Change.line d.deviceLost (decide (coop ≠ D3D_OK))).map fun lost => if lost then Event.lost coop else .recovered) := by
  unfold noteCoopLevel
  cases decide (coop ≠ D3D_OK) <;> cases hd : d.deviceLost <;> simp [Change.line]

theorem noteHitch_none (h : d.hitches c p = false) : d.noteHitch c p = (d, []) := by
  unfold noteHitch
  rw [h]
  rfl

/-- The hitch is one of those that have a line. -/
def Logged (c : PresentSettings) (n : ℕ) : Prop := 0 < c.hitchLogInterval ∧ n % c.hitchLogInterval = 0

instance (n : ℕ) : Decidable (Logged c n) := inferInstanceAs (Decidable (_ ∧ _))

/-- The capture of the stack is asked for and fails. -/
def captureFails (c : PresentSettings) (p : PresentCall) : Bool := c.captureHitchStacks && !p.captured

/-- The line of a hitch, if it has one. -/
def hitchLine (c : PresentSettings) (d : Device) (p : PresentCall) : List Event :=
  if Logged c ((d.hitchCount + 1) % 2 ^ 32) then
    [.hitch (d.frameTimeMs c p) ((d.hitchCount + 1) % 2 ^ 32) (if c.captureHitchStacks then some p.captured else none)]
  else []

theorem noteHitch_eq (h : d.hitches c p = true) : d.noteHitch c p =
    ({ d with
        hitchCount := (d.hitchCount + 1) % 2 ^ 32
        stackCaptureFailures :=
          if Logged c ((d.hitchCount + 1) % 2 ^ 32) ∧ captureFails c p then (d.stackCaptureFailures + 1) % 2 ^ 32
          else d.stackCaptureFailures },
      d.hitchLine c p) := by
  unfold noteHitch hitchLine
  rw [h, if_pos rfl]
  by_cases hl : Logged c ((d.hitchCount + 1) % 2 ^ 32)
  · have hl' : 0 < c.hitchLogInterval ∧ (d.hitchCount + 1) % 2 ^ 32 % c.hitchLogInterval = 0 := hl
    simp only [if_pos hl', hl, if_true, true_and, captureFails]
    cases c.captureHitchStacks <;> cases p.captured <;> rfl
  · have hl' : ¬ (0 < c.hitchLogInterval ∧ (d.hitchCount + 1) % 2 ^ 32 % c.hitchLogInterval = 0) := hl
    simp only [if_neg hl', hl, if_false, false_and]

/-- It logs nothing but the hitch. -/
theorem noteHitch_line {e : Event} (he : e ∈ (d.noteHitch c p).2) : ∃ ms n trace, e = .hitch ms n trace := by
  cases h : d.hitches c p with
  | false =>
    rw [noteHitch_none h] at he
    cases he
  | true =>
    rw [noteHitch_eq h] at he
    change e ∈ d.hitchLine c p at he
    unfold hitchLine at he
    split at he
    · exact ⟨_, _, _, List.mem_singleton.1 he⟩
    · cases he

/-- What a hitch leaves as it is. -/
theorem noteHitch_frame (d : Device) (p : PresentCall) : (d.noteHitch c p).1.deviceLost = d.deviceLost ∧
    (d.noteHitch c p).1.deviceLostEvents = d.deviceLostEvents ∧
    (d.noteHitch c p).1.guardedCallCount = d.guardedCallCount ∧
    (d.noteHitch c p).1.lastPresentTime = d.lastPresentTime := by
  cases h : d.hitches c p with
  | false =>
    rw [noteHitch_none h]
    exact ⟨rfl, rfl, rfl, rfl⟩
  | true =>
    rw [noteHitch_eq h]
    exact ⟨rfl, rfl, rfl, rfl⟩

/-- The probe of a call of Present. -/
def probe (c : PresentSettings) (d : Device) (p : PresentCall) : Device × List Event :=
  if p.probes c then d.noteCoopLevel p.coop else (d, [])

def presentTime (c : PresentSettings) (d : Device) (p : PresentCall) : ℤ := if d.waits c p then p.woken else p.currentTime

theorem hookedPresent_through (h : p.through = true) : d.hookedPresent c p = (d, [.present none]) := by
  rw [hookedPresent, if_pos h]

theorem hookedPresent_eq (h : p.through = false) : d.hookedPresent c p =
    ({ ((d.noteHitch c p).1.probe c p).1 with
        lastPresentTime := d.presentTime c p
        presentCallCount := (((d.noteHitch c p).1.probe c p).1.presentCallCount + 1) % 2 ^ 32 },
      (d.noteHitch c p).2 ++ ((d.noteHitch c p).1.probe c p).2 ++ [.present (some (d.presentTime c p))]) := by
  rw [hookedPresent, h]
  rfl

/-! ## The device -/

/-- The call is kept off d3d9. -/
def keepsOff (c : PresentSettings) : Call → Bool
  | .present _ => false
  | .setRenderTarget device coop => c.deviceGuard && device && decide (coop ≠ D3D_OK)

/-- The call of SetRenderTarget goes on to d3d9. -/
def goesOn (c : PresentSettings) : Call → Bool
  | .present _ => false
  | .setRenderTarget device coop => !keepsOff c (.setRenderTarget device coop)

/-- What the hooks note of the device in one call: Present whatever it says, SetRenderTarget only that it is lost. -/
def notes (c : PresentSettings) : Call → List Bool
  | .present p => if !p.through && p.probes c then [decide (p.coop ≠ D3D_OK)] else []
  | .setRenderTarget device coop => if keepsOff c (.setRenderTarget device coop) then [true] else []

theorem step_goesOn {device : Bool} (h : keepsOff c (.setRenderTarget device coop) = false) :
    d.step c (.setRenderTarget device coop) = (d, [.setRenderTarget]) := by
  have hon : (c.deviceGuard && device && decide (coop ≠ D3D_OK)) = false := h
  rw [step, hookedSetRenderTarget, hon]
  rfl

theorem step_keepsOff {device : Bool} (h : keepsOff c (.setRenderTarget device coop) = true) :
    d.step c (.setRenderTarget device coop) =
      ({ (d.noteCoopLevel coop).1 with guardedCallCount := ((d.noteCoopLevel coop).1.guardedCallCount + 1) % 2 ^ 32 },
        (d.noteCoopLevel coop).2 ++ [.guarded coop]) := by
  have hoff : (c.deviceGuard && device && decide (coop ≠ D3D_OK)) = true := h
  rw [step, hookedSetRenderTarget, if_pos hoff]

theorem noteCoopLevel_lost? (d : Device) (coop : ℕ) :
    (d.noteCoopLevel coop).2.filterMap Event.lost? = Change.lines d.deviceLost [decide (coop ≠ D3D_OK)] := by
  rw [noteCoopLevel_eq, Change.lines_singleton, List.filterMap_map]
  have hline : (Event.lost? ∘ fun lost => if lost = true then Event.lost coop else Event.recovered) = some :=
    funext fun lost => by cases lost <;> rfl
  rw [hline, List.filterMap_some]

theorem noteHitch_lost? (d : Device) (p : PresentCall) : (d.noteHitch c p).2.filterMap Event.lost? = [] := by
  apply List.filterMap_eq_nil_iff.2
  intro e he
  obtain ⟨_, _, _, rfl⟩ := noteHitch_line he
  rfl

theorem probe_lost? (d : Device) (p : PresentCall) : (d.probe c p).2.filterMap Event.lost? =
      Change.lines d.deviceLost (if p.probes c then [decide (p.coop ≠ D3D_OK)] else []) ∧
    (d.probe c p).1.deviceLost =
      (if p.probes c then [decide (p.coop ≠ D3D_OK)] else []).getLastD d.deviceLost := by
  unfold probe
  cases p.probes c with
  | false => exact ⟨rfl, rfl⟩
  | true => exact ⟨noteCoopLevel_lost? d p.coop, by rw [if_pos rfl, noteCoopLevel_eq]; rfl⟩

/-- One call: a line for each change of the flag. -/
theorem step_lost? (d : Device) (call : Call) : (d.step c call).2.filterMap Event.lost? =
      Change.lines d.deviceLost (notes c call) ∧
    (d.step c call).1.deviceLost = (notes c call).getLastD d.deviceLost := by
  cases call with
  | setRenderTarget device coop =>
    cases h : keepsOff c (.setRenderTarget device coop) with
    | false =>
      rw [step_goesOn h, notes, h]
      exact ⟨rfl, rfl⟩
    | true =>
      have hcoop : decide (coop ≠ D3D_OK) = true := (Bool.and_eq_true_iff.1 h).2
      rw [step_keepsOff h, notes, h, if_pos rfl, List.filterMap_append, noteCoopLevel_lost?, hcoop]
      refine ⟨List.append_nil _, ?_⟩
      rw [noteCoopLevel_eq, hcoop]
      rfl
  | present p =>
    change (d.hookedPresent c p).2.filterMap _ = _ ∧ (d.hookedPresent c p).1.deviceLost = _
    cases hthrough : p.through with
    | true =>
      rw [hookedPresent_through hthrough, notes, hthrough]
      exact ⟨rfl, rfl⟩
    | false =>
      obtain ⟨hlines, hlost⟩ := probe_lost? (c := c) (d.noteHitch c p).1 p
      rw [(noteHitch_frame d p).1] at hlines hlost
      rw [hookedPresent_eq hthrough, notes, hthrough, List.filterMap_append, List.filterMap_append, noteHitch_lost?, hlines]
      exact ⟨by rw [List.nil_append]; exact List.append_nil _, hlost⟩

theorem noteCoopLevel_events {n : ℕ} (h : d.deviceLostEvents = n % 2 ^ 32) : (d.noteCoopLevel coop).1.deviceLostEvents =
    (n + ((d.noteCoopLevel coop).2.filterMap Event.lost?).count true) % 2 ^ 32 := by
  rw [noteCoopLevel_lost?, Change.lines_singleton, noteCoopLevel_eq, Change.line]
  cases decide (coop ≠ D3D_OK) <;> cases hd : d.deviceLost <;> simp [h]

/-- The books of the device after some calls: the counters, and what went on to d3d9. -/
structure Kept (c : PresentSettings) (d : Device) (calls : List Call) (log : List Event) : Prop where
  events : d.deviceLostEvents = (log.filterMap Event.lost?).count true % 2 ^ 32
  guardedCalls : d.guardedCallCount = calls.countP (keepsOff c) % 2 ^ 32
  passed : log.count .setRenderTarget = calls.countP (goesOn c)

theorem noteCoopLevel_passed (d : Device) (coop : ℕ) : (d.noteCoopLevel coop).2.count .setRenderTarget = 0 := by
  rw [noteCoopLevel_eq, Change.line]
  split_ifs <;> cases decide (coop ≠ D3D_OK) <;> rfl

theorem noteHitch_passed (d : Device) (p : PresentCall) : (d.noteHitch c p).2.count .setRenderTarget = 0 := by
  apply List.count_eq_zero.2
  intro hmem
  obtain ⟨_, _, _, heq⟩ := noteHitch_line hmem
  cases heq

theorem probe_kept {n : ℕ} (h : d.deviceLostEvents = n % 2 ^ 32) : (d.probe c p).1.deviceLostEvents =
      (n + ((d.probe c p).2.filterMap Event.lost?).count true) % 2 ^ 32 ∧
    (d.probe c p).1.guardedCallCount = d.guardedCallCount ∧ (d.probe c p).2.count .setRenderTarget = 0 := by
  unfold probe
  cases p.probes c with
  | false => exact ⟨h, rfl, rfl⟩
  | true => exact ⟨noteCoopLevel_events h, by rw [if_pos rfl, noteCoopLevel_eq], noteCoopLevel_passed d p.coop⟩

variable {calls : List Call} {log : List Event}

theorem Kept.step (h : Kept c d calls log) (call : Call) :
    Kept c (d.step c call).1 (calls ++ [call]) (log ++ (d.step c call).2) := by
  cases call with
  | present p =>
    change Kept c (d.hookedPresent c p).1 _ (log ++ (d.hookedPresent c p).2)
    cases hthrough : p.through with
    | true =>
      rw [hookedPresent_through hthrough]
      constructor
      · rw [List.filterMap_append, List.count_append]; exact h.events
      · rw [List.countP_append]; exact h.guardedCalls
      · rw [List.count_append, List.countP_append]; exact h.passed
    | false =>
      obtain ⟨_, hevents, hguarded, _⟩ := noteHitch_frame (c := c) d p
      obtain ⟨hprobe, hprobeGuarded, hpassed⟩ := probe_kept (c := c) (p := p) (hevents.trans h.events)
      rw [hookedPresent_eq hthrough]
      constructor
      · rw [List.filterMap_append, List.filterMap_append, List.filterMap_append, noteHitch_lost?, List.nil_append,
          List.count_append, List.count_append]
        exact hprobe
      · rw [List.countP_append]
        exact (hprobeGuarded.trans hguarded).trans h.guardedCalls
      · rw [List.count_append, List.count_append, List.count_append, noteHitch_passed, hpassed, List.countP_append]
        exact h.passed
  | setRenderTarget device coop =>
    cases hoff : keepsOff c (.setRenderTarget device coop) with
    | false =>
      have hon : goesOn c (.setRenderTarget device coop) = true := by
        rw [goesOn, hoff]
        rfl
      rw [step_goesOn hoff]
      constructor
      · rw [List.filterMap_append, List.count_append]; exact h.events
      · rw [List.countP_append, List.countP_singleton, hoff]; exact h.guardedCalls
      · rw [List.count_append, List.countP_append, List.countP_singleton, hon, h.passed]; rfl
    | true =>
      have hnot : goesOn c (.setRenderTarget device coop) = false := by
        rw [goesOn, hoff]
        rfl
      rw [step_keepsOff hoff]
      constructor
      · rw [List.filterMap_append, List.filterMap_append, List.count_append, List.count_append]
        exact noteCoopLevel_events h.events
      · have hsame : (d.noteCoopLevel coop).1.guardedCallCount = d.guardedCallCount := by rw [noteCoopLevel_eq]
        rw [List.countP_append, List.countP_singleton, hoff, hsame, h.guardedCalls, Nat.mod_add_mod, if_pos rfl]
      · rw [List.count_append, List.count_append, noteCoopLevel_passed, List.countP_append, List.countP_singleton, hnot]
        exact h.passed

theorem start_kept : Kept c start [] [] := ⟨rfl, rfl, rfl⟩

theorem after_kept (c : PresentSettings) (calls : List Call) : Kept c (start.after c calls) calls (start.log c calls) := by
  induction calls using List.reverseRecOn with
  | nil => exact start_kept
  | append_singleton calls call ih =>
    rw [after, Run.after_append, log, Run.emitted_concat]
    exact ih.step call

/-- Over any calls of Present and SetRenderTarget, the log has one line for each change of what the hooks noted of the device
and no other, so it is found lost and found back in turn, lost first, and the counter counts the losses. A call of
SetRenderTarget goes on to d3d9 unless the device says that it is lost, and the others are counted. -/
theorem device_lines (c : PresentSettings) (calls : List Call) :
    (start.log c calls).filterMap Event.lost? = Change.lines false (calls.flatMap (notes c)) ∧
      (false :: (start.log c calls).filterMap Event.lost?).IsChain (· ≠ ·) ∧
      (start.after c calls).deviceLost = (calls.flatMap (notes c)).getLastD false ∧
      ((start.log c calls).filterMap Event.lost?).count true =
        ((start.log c calls).filterMap Event.lost?).count false + (start.after c calls).deviceLost.toNat ∧
      (start.after c calls).deviceLostEvents = ((start.log c calls).filterMap Event.lost?).count true % 2 ^ 32 ∧
      (start.after c calls).guardedCallCount = calls.countP (keepsOff c) % 2 ^ 32 ∧
      (start.log c calls).count .setRenderTarget = calls.countP (goesOn c) := by
  obtain ⟨hlines, hlost⟩ := Change.emitted_lines (fun d call => step_lost? (c := c) d call) calls start
  have hlines : (start.log c calls).filterMap Event.lost? = Change.lines false (calls.flatMap (notes c)) := hlines
  have hlost : (start.after c calls).deviceLost = (calls.flatMap (notes c)).getLastD false := hlost
  have hkept := after_kept c calls
  refine ⟨hlines, ?_, hlost, ?_, hkept.events, hkept.guardedCalls, hkept.passed⟩
  · rw [hlines]
    exact Change.isChain_cons_lines false _
  · rw [hlines, hlost]
    exact Change.count_lines false _

/-! ## The frames -/

/-- A call of Present in its place: time goes on, and the wait lasts as long as it was asked to. -/
def Timely (c : PresentSettings) (d : Device) (p : PresentCall) : Prop :=
  0 < p.currentTime ∧ d.lastPresentTime ≤ p.currentTime ∧ (d.waits c p = true → p.currentTime ≤ p.woken ∧
    c.frameCapWait p.timer (c.targetTicks - (p.currentTime - d.lastPresentTime)) * c.qpcFrequency ≤
      (p.woken - p.currentTime) * 10000000)

/-- The frames are paced: the device is there, and the timer is, unless the waits may be coarse. -/
def Paced (c : PresentSettings) (timer : Bool) (d : Device) : Call → Prop
  | .present p => p.through = false → d.Timely c p ∧ p.deviceLost c = false ∧ (timer = true → p.timer = true)
  | .setRenderTarget .. => True

instance (p : PresentCall) : Decidable (d.Timely c p) := inferInstanceAs (Decidable (_ ∧ _ ∧ (_ → _ ∧ _)))

instance (timer : Bool) (d : Device) : DecidablePred (Paced c timer d)
  | .present _ => inferInstanceAs (Decidable (_ = _ → _ ∧ _ ∧ (_ → _)))
  | .setRenderTarget .. => inferInstanceAs (Decidable True)

/-- A frame comes the target after the one before it, but for the slack. -/
theorem presentTime_ge (hfps : 0 < c.targetFps) (hfreq : 0 < c.qpcFrequency) (htimely : d.Timely c p)
    (hlost : p.deviceLost c = false) (hlast : 0 < d.lastPresentTime) :
    (d.lastPresentTime + c.targetTicks) * 10000000 <
      d.presentTime c p * 10000000 + PresentSettings.slack p.timer * c.qpcFrequency := by
  obtain ⟨_, hle, hwait⟩ := htimely
  have hslack : 0 < PresentSettings.slack p.timer * c.qpcFrequency :=
    Int.mul_pos (by cases p.timer <;> decide) hfreq
  unfold presentTime
  cases hw : d.waits c p with
  | false =>
    have hlate : c.targetTicks ≤ p.currentTime - d.lastPresentTime := by
      simpa [waits, hlost, hfps, hfreq, hlast] using hw
    rw [if_neg Bool.false_ne_true]
    omega
  | true =>
    have hearly : p.currentTime - d.lastPresentTime < c.targetTicks := by
      simpa [waits, hlost, hfps, hfreq, hlast] using hw
    obtain ⟨_, hwoken⟩ := hwait hw
    have hshort := c.frameCapWait_lt hfreq (sub_pos.2 hearly)
      (by have := PresentSettings.targetTicks_le hfreq; omega) p.timer
    rw [add_mul] at hshort
    rw [if_pos rfl]
    omega

theorem noteCoopLevel_frame? (d : Device) (coop : ℕ) : (d.noteCoopLevel coop).2.filterMap Event.frame? = [] := by
  rw [noteCoopLevel_eq, List.filterMap_map]
  exact List.filterMap_eq_nil_iff.2 fun lost _ => by cases lost <;> rfl

theorem noteHitch_frame? (d : Device) (p : PresentCall) : (d.noteHitch c p).2.filterMap Event.frame? = [] := by
  apply List.filterMap_eq_nil_iff.2
  intro e he
  obtain ⟨_, _, _, rfl⟩ := noteHitch_line he
  rfl

theorem hookedPresent_frame? (h : p.through = false) :
    (d.hookedPresent c p).2.filterMap Event.frame? = [d.presentTime c p] := by
  have hprobe : ((d.noteHitch c p).1.probe c p).2.filterMap Event.frame? = [] := by
    unfold probe
    cases p.probes c with
    | false => rfl
    | true => exact noteCoopLevel_frame? _ p.coop
  rw [hookedPresent_eq h, List.filterMap_append, List.filterMap_append, noteHitch_frame?, hprobe]
  rfl

/-- SetRenderTarget measures no frame. -/
theorem setRenderTarget_frame? (d : Device) (device : Bool) (coop : ℕ) :
    (d.step c (.setRenderTarget device coop)).2.filterMap Event.frame? = [] ∧
      (d.step c (.setRenderTarget device coop)).1.lastPresentTime = d.lastPresentTime := by
  cases hoff : keepsOff c (.setRenderTarget device coop) with
  | false =>
    rw [step_goesOn hoff]
    exact ⟨rfl, rfl⟩
  | true =>
    rw [step_keepsOff hoff, List.filterMap_append, noteCoopLevel_frame?]
    exact ⟨rfl, by rw [noteCoopLevel_eq]⟩

def scaled (t : ℤ) : ℕ := (t * 10000000).toNat

def gap (c : PresentSettings) (timer : Bool) : ℕ :=
  (c.targetTicks * 10000000 - PresentSettings.slack timer * c.qpcFrequency + 1).toNat

/-- The frames so far, the last of which the next is measured from. -/
structure Frames (c : PresentSettings) (timer : Bool) (d : Device) (frames : List ℤ) : Prop where
  spaced : Spaced scaled (gap c timer) frames
  pos : ∀ t ∈ frames, 0 < t
  last : frames = [] ∧ d.lastPresentTime = 0 ∨ frames.getLast? = some d.lastPresentTime

theorem Frames.concat {timer : Bool} {frames : List ℤ} (hfps : 0 < c.targetFps) (hfreq : 0 < c.qpcFrequency)
    (h : Frames c timer d frames) (htimely : d.Timely c p) (hlost : p.deviceLost c = false)
    (htimer : timer = true → p.timer = true) {d' : Device} (hd' : d'.lastPresentTime = d.presentTime c p) :
    Frames c timer d' (frames ++ [d.presentTime c p]) := by
  have hle : p.currentTime ≤ d.presentTime c p := by
    unfold presentTime
    split
    · exact (htimely.2.2 ‹_›).1
    · exact le_rfl
  constructor
  · apply h.spaced.concat
    intro t ht
    obtain ⟨hnil, _⟩ | hlast := h.last
    · rw [hnil] at ht
      cases ht
    · obtain rfl : d.lastPresentTime = t := by rw [hlast] at ht; exact Option.some.inj ht
      have hpos := h.pos _ (List.mem_of_getLast? hlast)
      have hge := presentTime_ge hfps hfreq htimely hlost hpos
      have hslack : PresentSettings.slack p.timer * c.qpcFrequency ≤ PresentSettings.slack timer * c.qpcFrequency := by
        apply Int.mul_le_mul_of_nonneg_right _ hfreq.le
        cases timer with
        | true => rw [htimer rfl]
        | false => cases p.timer <;> decide
      have hmono := htimely.2.1
      unfold scaled gap
      omega
  · intro t ht
    rcases List.mem_append.1 ht with ht | ht
    · exact h.pos t ht
    · obtain rfl := List.mem_singleton.1 ht
      exact htimely.1.trans_le hle
  · right
    rw [List.getLast?_concat, hd']

theorem Frames.step {timer : Bool} {frames : List ℤ} (hfps : 0 < c.targetFps) (hfreq : 0 < c.qpcFrequency)
    (h : Frames c timer d frames) (hpaced : Paced c timer d call) :
    Frames c timer (d.step c call).1 (frames ++ (d.step c call).2.filterMap Event.frame?) := by
  cases call with
  | setRenderTarget device coop =>
    obtain ⟨hnone, hlast⟩ := setRenderTarget_frame? (c := c) d device coop
    rw [hnone, List.append_nil]
    exact ⟨h.spaced, h.pos, by rw [hlast]; exact h.last⟩
  | present p =>
    change Frames c timer (d.hookedPresent c p).1 (frames ++ (d.hookedPresent c p).2.filterMap Event.frame?)
    cases hthrough : p.through with
    | true =>
      have hnone : [Event.present none].filterMap Event.frame? = [] := rfl
      rw [hookedPresent_through hthrough, hnone, List.append_nil]
      exact h
    | false =>
      obtain ⟨htimely, hlost, htimer⟩ := hpaced hthrough
      rw [hookedPresent_frame? hthrough]
      exact h.concat hfps hfreq htimely hlost htimer (by rw [hookedPresent_eq hthrough])

abbrev PacedRun (c : PresentSettings) (timer : Bool) (calls : List Call) : Prop :=
  Run.Guarded (Run.state (step c)) (Paced c timer) start calls

theorem PacedRun.frames {timer : Bool} (hfps : 0 < c.targetFps) (hfreq : 0 < c.qpcFrequency) (hrun : PacedRun c timer calls) :
    Frames c timer (start.after c calls) ((start.log c calls).filterMap Event.frame?) := by
  induction calls using List.reverseRecOn with
  | nil => exact ⟨Spaced.nil, nofun, .inl ⟨rfl, rfl⟩⟩
  | append_singleton calls call ih =>
    obtain ⟨hcalls, hcall⟩ := Run.guarded_concat.1 hrun
    rw [after, Run.after_append, log, Run.emitted_concat, List.filterMap_append]
    exact (ih hcalls).step hfps hfreq hcall

/-- The frames that begin between two times. -/
def framesBetween (c : PresentSettings) (calls : List Call) (lo hi : ℤ) : List ℤ :=
  ((start.log c calls).filterMap Event.frame?).filter fun t => lo ≤ t ∧ t ≤ hi

/-- While the device is there, the frames that begin in any span of time are no more than targets fit in it, and one more:
a target is a unit of 100 ns shorter where the timer waits, ten thousand where Sleep does. -/
theorem frames_capped (c : PresentSettings) (timer : Bool) (calls : List Call) (lo hi : ℤ) (hfps : 0 < c.targetFps)
    (hfreq : 0 < c.qpcFrequency) (hrun : PacedRun c timer calls) : framesBetween c calls lo hi = [] ∨
      ((framesBetween c calls lo hi).length - 1 : ℤ) *
        (c.targetTicks * 10000000 - PresentSettings.slack timer * c.qpcFrequency + 1) ≤ (hi - lo) * 10000000 := by
  have hframes := hrun.frames hfps hfreq
  have hspaced : Spaced scaled (gap c timer) (framesBetween c calls lo hi) :=
    hframes.spaced.sublist List.filter_sublist
  have hbounds : ∀ t ∈ framesBetween c calls lo hi, 0 < t ∧ lo ≤ t ∧ t ≤ hi := by
    intro t ht
    obtain ⟨hmem, hin⟩ := List.mem_filter.1 ht
    exact ⟨hframes.pos t hmem, of_decide_eq_true hin⟩
  generalize framesBetween c calls lo hi = frames at hspaced hbounds
  rcases frames with _ | ⟨a, rest⟩
  · exact .inl rfl
  · right
    have ha := hbounds a (List.mem_cons_self ..)
    obtain ⟨b, hb⟩ : ∃ b, (a :: rest).getLast? = some b := ⟨_, List.getLast?_eq_some_getLast (List.cons_ne_nil a rest)⟩
    have hb' := hbounds b (List.mem_of_getLast? hb)
    have hfirst := hspaced.first_last b hb
    have hscaled : (rest.length : ℤ) * (gap c timer : ℤ) ≤ (b - a) * 10000000 := by
      rw [← Nat.cast_mul]
      generalize rest.length * gap c timer = n at hfirst
      unfold scaled at hfirst
      omega
    have hgap : c.targetTicks * 10000000 - PresentSettings.slack timer * c.qpcFrequency + 1 ≤ (gap c timer : ℤ) :=
      Int.self_le_toNat _
    calc (((a :: rest).length : ℤ) - 1) * (c.targetTicks * 10000000 - PresentSettings.slack timer * c.qpcFrequency + 1)
        = rest.length * (c.targetTicks * 10000000 - PresentSettings.slack timer * c.qpcFrequency + 1) := by
          rw [List.length_cons, Nat.cast_succ, add_sub_cancel_right]
      _ ≤ rest.length * (gap c timer : ℤ) := Int.mul_le_mul_of_nonneg_left hgap (Int.natCast_nonneg _)
      _ ≤ (b - a) * 10000000 := hscaled
      _ ≤ (hi - lo) * 10000000 := by omega

/-- Sixty frames a second, and a clock of 10 MHz: three frames, of which the second waits and the third is late. -/
def sampleSettings : PresentSettings := .resolve 10000000 none ⟨0, Char.ofNat 0⟩ none ⟨0, Char.ofNat 0⟩

def sampleCalls : List Call :=
  [.present ⟨false, 1000000, false, true, 0, true, 0⟩, .present ⟨false, 1050000, false, true, 0, true, 1166666⟩,
    .setRenderTarget true 0, .present ⟨false, 1400000, false, true, 0, true, 0⟩]

theorem frames_capped_sample : framesBetween sampleSettings sampleCalls 0 1400000 = [1000000, 1166666, 1400000] ∧
    (framesBetween sampleSettings sampleCalls 0 1400000 = [] ∨
      ((framesBetween sampleSettings sampleCalls 0 1400000).length - 1 : ℤ) *
        (sampleSettings.targetTicks * 10000000 - PresentSettings.slack true * sampleSettings.qpcFrequency + 1) ≤
          (1400000 - 0) * 10000000) :=
  ⟨by decide +kernel, frames_capped sampleSettings true sampleCalls 0 1400000 (by decide) (by decide) (by decide +kernel)⟩

/-! ## The hitches -/

def hitched (c : PresentSettings) (d : Device) : Call → Bool
  | .present p => !p.through && d.hitches c p
  | .setRenderTarget .. => false

/-- How many of the calls find that the frame took too long. -/
def hitchTotal (c : PresentSettings) : Device → List Call → ℕ
  | _, [] => 0
  | d, call :: calls => (d.hitched c call).toNat + hitchTotal c (d.step c call).1 calls

theorem hitchTotal_concat (c : PresentSettings) (call : Call) : ∀ (calls : List Call) (d : Device),
    hitchTotal c d (calls ++ [call]) = hitchTotal c d calls + ((d.after c calls).hitched c call).toNat
  | [], _ => Nat.add_comm ..
  | x :: calls, d => by
    rw [List.cons_append, hitchTotal, hitchTotal_concat c call calls, hitchTotal, Nat.add_assoc]
    rfl

theorem noteCoopLevel_hitch? (d : Device) (coop : ℕ) : (d.noteCoopLevel coop).2.filterMap Event.hitch? = [] ∧
    (d.noteCoopLevel coop).1.hitchCount = d.hitchCount ∧
    (d.noteCoopLevel coop).1.stackCaptureFailures = d.stackCaptureFailures := by
  rw [noteCoopLevel_eq, List.filterMap_map]
  exact ⟨List.filterMap_eq_nil_iff.2 fun lost _ => by cases lost <;> rfl, rfl, rfl⟩

theorem probe_hitch? (d : Device) (p : PresentCall) : (d.probe c p).2.filterMap Event.hitch? = [] ∧
    (d.probe c p).1.hitchCount = d.hitchCount ∧ (d.probe c p).1.stackCaptureFailures = d.stackCaptureFailures := by
  unfold probe
  cases p.probes c with
  | false => exact ⟨rfl, rfl, rfl⟩
  | true => exact noteCoopLevel_hitch? d p.coop

theorem hookedPresent_hitch? (h : p.through = false) :
    (d.hookedPresent c p).2.filterMap Event.hitch? = (d.noteHitch c p).2.filterMap Event.hitch? ∧
      (d.hookedPresent c p).1.hitchCount = (d.noteHitch c p).1.hitchCount ∧
      (d.hookedPresent c p).1.stackCaptureFailures = (d.noteHitch c p).1.stackCaptureFailures := by
  obtain ⟨hprobe, hcount, hfailures⟩ := probe_hitch? (c := c) (d.noteHitch c p).1 p
  have hpresent : [Event.present (some (d.presentTime c p))].filterMap Event.hitch? = [] := rfl
  rw [hookedPresent_eq h, List.filterMap_append, List.filterMap_append, hprobe, hpresent, List.append_nil, List.append_nil]
  exact ⟨rfl, hcount, hfailures⟩

/-- A call that is no hitch has no line. -/
theorem step_not_hitched (h : d.hitched c call = false) : (d.step c call).2.filterMap Event.hitch? = [] ∧
    (d.step c call).1.hitchCount = d.hitchCount ∧ (d.step c call).1.stackCaptureFailures = d.stackCaptureFailures := by
  cases call with
  | setRenderTarget device coop =>
    cases hoff : keepsOff c (.setRenderTarget device coop) with
    | false =>
      rw [step_goesOn hoff]
      exact ⟨rfl, rfl, rfl⟩
    | true =>
      obtain ⟨hnone, hcount, hfailures⟩ := noteCoopLevel_hitch? d coop
      rw [step_keepsOff hoff, List.filterMap_append, hnone]
      exact ⟨rfl, hcount, hfailures⟩
  | present p =>
    change (d.hookedPresent c p).2.filterMap _ = _ ∧ (d.hookedPresent c p).1.hitchCount = _ ∧
      (d.hookedPresent c p).1.stackCaptureFailures = _
    cases hthrough : p.through with
    | true =>
      rw [hookedPresent_through hthrough]
      exact ⟨rfl, rfl, rfl⟩
    | false =>
      have hnot : d.hitches c p = false := by simpa [hitched, hthrough] using h
      obtain ⟨hline, hcount, hfailures⟩ := hookedPresent_hitch? (c := c) (d := d) hthrough
      rw [hline, hcount, hfailures, noteHitch_none hnot]
      exact ⟨rfl, rfl, rfl⟩

/-- A hitch is counted, and every so many of them have a line. -/
theorem step_hitched (h : d.hitched c call = true) : ∃ ms trace, HITCH_THRESHOLD_MS < ms ∧
    (d.step c call).1.hitchCount = (d.hitchCount + 1) % 2 ^ 32 ∧
    (d.step c call).2.filterMap Event.hitch? =
      (if Logged c ((d.hitchCount + 1) % 2 ^ 32) then [⟨ms, (d.hitchCount + 1) % 2 ^ 32, trace⟩] else []) ∧
    (d.step c call).1.stackCaptureFailures =
      if Logged c ((d.hitchCount + 1) % 2 ^ 32) ∧ trace = some false then (d.stackCaptureFailures + 1) % 2 ^ 32
      else d.stackCaptureFailures := by
  cases call with
  | setRenderTarget => cases h
  | present p =>
    obtain ⟨hthrough, hhitch⟩ := Bool.and_eq_true_iff.1 h
    have hthrough : p.through = false := by simpa using hthrough
    obtain ⟨hline, hcount, hfailures⟩ := hookedPresent_hitch? (c := c) (d := d) hthrough
    have hslow : HITCH_THRESHOLD_MS < d.frameTimeMs c p := of_decide_eq_true (Bool.and_eq_true_iff.1 hhitch).2
    refine ⟨_, if c.captureHitchStacks then some p.captured else none, hslow, ?_, ?_, ?_⟩
    · change (d.hookedPresent c p).1.hitchCount = _
      rw [hcount, noteHitch_eq hhitch]
    · change (d.hookedPresent c p).2.filterMap _ = _
      rw [hline, noteHitch_eq hhitch, hitchLine]
      by_cases hl : Logged c ((d.hitchCount + 1) % 2 ^ 32)
      · rw [if_pos hl, if_pos hl]; rfl
      · rw [if_neg hl, if_neg hl]; rfl
    · change (d.hookedPresent c p).1.stackCaptureFailures = _
      have hfails : captureFails c p = true ↔ (if c.captureHitchStacks then some p.captured else none) = some false := by
        unfold captureFails
        cases c.captureHitchStacks <;> cases p.captured <;> decide
      rw [hfailures, noteHitch_eq hhitch]
      exact if_congr (and_congr_right fun _ => hfails) rfl rfl

/-- The hitches so far and their lines. -/
structure Sampled (c : PresentSettings) (d : Device) (total : ℕ) (lines : List HitchLine) : Prop where
  count : d.hitchCount = total
  numbers : lines.map HitchLine.n = (List.range (total / c.hitchLogInterval)).map fun i => (i + 1) * c.hitchLogInterval
  failures : d.stackCaptureFailures = lines.countP fun l => l.trace = some false
  slow : ∀ l ∈ lines, HITCH_THRESHOLD_MS < l.frameTimeMs

theorem range_succ_multiples (k n : ℕ) : ((List.range ((n + 1) / k)).map fun i => (i + 1) * k) =
    ((List.range (n / k)).map fun i => (i + 1) * k) ++ if (n + 1) % k = 0 then [n + 1] else [] := by
  rw [Nat.succ_div]
  by_cases h : k ∣ n + 1
  · have hdiv : (n / k + 1) * k = n + 1 := by
      rw [← Nat.succ_div_of_dvd h, Nat.div_mul_cancel h]
    rw [if_pos h, if_pos (Nat.mod_eq_zero_of_dvd h), List.range_succ, List.map_append, List.map_singleton, hdiv]
  · rw [if_neg h, if_neg (fun hmod => h (Nat.dvd_of_mod_eq_zero hmod)), Nat.add_zero, List.append_nil]

theorem Sampled.failures_le {total : ℕ} {lines : List HitchLine} (h : Sampled c d total lines) :
    d.stackCaptureFailures ≤ total := by
  have hlength := congrArg List.length h.numbers
  rw [List.length_map, List.length_map, List.length_range] at hlength
  calc d.stackCaptureFailures = lines.countP fun l => l.trace = some false := h.failures
    _ ≤ lines.length := List.countP_le_length
    _ = total / c.hitchLogInterval := hlength
    _ ≤ total := Nat.div_le_self ..

theorem Sampled.step {total : ℕ} {lines : List HitchLine} (hevery : 0 < c.hitchLogInterval) (h : Sampled c d total lines)
    (hfits : total + (d.hitched c call).toNat < 2 ^ 32) : Sampled c (d.step c call).1 (total + (d.hitched c call).toNat)
      (lines ++ (d.step c call).2.filterMap Event.hitch?) := by
  cases hhitched : d.hitched c call with
  | false =>
    obtain ⟨hnone, hcount, hfailures⟩ := step_not_hitched hhitched
    rw [hnone, List.append_nil]
    exact ⟨hcount.trans h.count, h.numbers, hfailures.trans h.failures, h.slow⟩
  | true =>
    rw [hhitched] at hfits
    have hfits : total + 1 < 2 ^ 32 := hfits
    obtain ⟨ms, trace, hslow, hcount, hline, hfailures⟩ := step_hitched hhitched
    rw [h.count, Nat.mod_eq_of_lt hfits] at hcount hline hfailures
    have hle := h.failures_le
    rw [Nat.mod_eq_of_lt (by omega)] at hfailures
    rw [hline]
    have hlogged : Logged c (total + 1) ↔ (total + 1) % c.hitchLogInterval = 0 := and_iff_right hevery
    constructor
    · exact hcount
    · rw [List.map_append, h.numbers, Bool.toNat_true, range_succ_multiples]
      by_cases hl : Logged c (total + 1)
      · rw [if_pos hl, if_pos (hlogged.1 hl)]; rfl
      · rw [if_neg hl, if_neg (fun hmod => hl (hlogged.2 hmod))]; rfl
    · rw [hfailures, List.countP_append, h.failures]
      by_cases hl : Logged c (total + 1)
      · by_cases htrace : trace = some false <;> simp [hl, htrace]
      · simp [hl]
    · intro l hmem
      rcases List.mem_append.1 hmem with hmem | hmem
      · exact h.slow l hmem
      · split at hmem
        · rw [List.mem_singleton.1 hmem]
          exact hslow
        · cases hmem

/-- While the counter does not wrap, the hitches that have a line are the multiples of the interval, in order, each over
the threshold, and the failures are the lines that say so. -/
theorem hitches_sampled (c : PresentSettings) (calls : List Call) (hevery : 0 < c.hitchLogInterval)
    (hfits : hitchTotal c start calls < 2 ^ 32) : Sampled c (start.after c calls) (hitchTotal c start calls)
      ((start.log c calls).filterMap Event.hitch?) := by
  induction calls using List.reverseRecOn with
  | nil => exact ⟨rfl, by rw [hitchTotal, Nat.zero_div]; rfl, rfl, nofun⟩
  | append_singleton calls call ih =>
    rw [hitchTotal_concat] at hfits
    rw [hitchTotal_concat, after, Run.after_append, log, Run.emitted_concat, List.filterMap_append]
    exact (ih (by omega)).step hevery hfits

/-- Every second hitch has a line. -/
theorem hitches_sampled_two : Sampled { sampleSettings with hitchLogInterval := 2 }
    (start.after { sampleSettings with hitchLogInterval := 2 } [.present ⟨false, 1000000, false, false, 0, true, 0⟩,
      .present ⟨false, 2000000, false, false, 0, true, 0⟩, .present ⟨false, 3000000, false, false, 0, true, 0⟩])
    2 [⟨100, 2, none⟩] :=
  hitches_sampled { sampleSettings with hitchLogInterval := 2 } [.present ⟨false, 1000000, false, false, 0, true, 0⟩,
    .present ⟨false, 2000000, false, false, 0, true, 0⟩, .present ⟨false, 3000000, false, false, 0, true, 0⟩]
    (by decide) (by decide +kernel)

end

end Device

end Ts3Vas.ObserverHooks
