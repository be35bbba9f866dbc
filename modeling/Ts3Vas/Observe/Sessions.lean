/-
World sessions in HeartbeatMonitor.cpp: the leak hunter's snapshot of the first beat in a world, the one of
the beat on which the phase machine leaves the world, and the diff between the two. One machine serves
all worlds of a process, so what a session leaves behind must not reach the next.
-/
import Ts3Vas.Observe.Heartbeat

namespace Ts3Vas.HeartbeatMonitor

/-! ## The leak hunter -/

/-- `LeakHunterSnapshot`, with those of the allocation counters that the diff adds up. -/
structure LeakHunterSnapshot where
  beat : ℕ
  tickMs : ℕ
  totalFreeMb : ℕ
  largestFreeMb : ℕ
  proxyUsedBytes : ℕ
  proxyActiveAllocs : ℕ
  mapViewPackageCount : ℕ
  bytesByModule : List ℤ
  deriving DecidableEq, Repr

/-- What a capture reads of the analytics and of the hooks. -/
structure Counters where
  mapViewPackage : ℕ
  bytesByModule : List ℤ
  deriving DecidableEq, Repr

/-- A beat with what the captures of its snapshots read: the proxy's statistics, and for the entry and
for the exit the counters of that moment. -/
structure SessionBeat extends Beat where
  proxyUsedBytes : ℕ
  activeAllocations : ℕ
  entryCounters : Counters
  exitTick : ℕ
  exitCounters : Counters

/-- `reportedProxyAllocs`. -/
def SessionBeat.reportedProxyAllocs (b : SessionBeat) : ℕ :=
  if 0xFFFFFFFF < b.activeAllocations then 0xFFFFFFFF else b.activeAllocations

/-- `CaptureLeakHunterSnapshot`. -/
def captureLeakHunterSnapshot (b : SessionBeat) (beat tickMs : ℕ) (c : Counters) : LeakHunterSnapshot :=
  ⟨beat, tickMs, b.currentVasMb, b.largestFreeMb, b.proxyUsedBytes, b.reportedProxyAllocs,
    c.mapViewPackage, c.bytesByModule⟩

inductive SessionEvent
  /-- `World entry snapshot captured`. -/
  | worldEntry (snap : LeakHunterSnapshot)
  /-- `world_session_diff`. -/
  | worldSessionDiff (entry now : LeakHunterSnapshot)
  deriving DecidableEq, Repr

def SessionEvent.isEntry : SessionEvent → Bool
  | .worldEntry _ => true
  | .worldSessionDiff .. => false

def SessionEvent.isDiff (e : SessionEvent) : Bool := !e.isEntry

/-- The thread's variables with `worldEntrySnap`. -/
structure Hunter where
  monitor : Monitor
  worldEntrySnap : LeakHunterSnapshot

namespace Hunter

/-- The first beat in the world. -/
def Enters (s : Hunter) : Prop := s.monitor.phase = .postWorldStable ∧ s.monitor.worldEntrySnapTaken = false

instance (s : Hunter) : Decidable s.Enters := inferInstanceAs (Decidable (_ ∧ _))

/-- `worldEntrySnap` once the beat has taken it. -/
def entrySnap (s : Hunter) (b : SessionBeat) : LeakHunterSnapshot :=
  if s.Enters then captureLeakHunterSnapshot b (add32 s.monitor.beatCount 1) b.entryTick b.entryCounters else s.worldEntrySnap

/-- `exitSnap`. -/
def exitSnap (s : Hunter) (b : SessionBeat) : LeakHunterSnapshot :=
  captureLeakHunterSnapshot b (add32 s.monitor.beatCount 1) b.exitTick b.exitCounters

/-- The beat detects the exit from the world. -/
def Exits (s : Hunter) (b : SessionBeat) : Prop := s.monitor.transition b.toBeat = some .worldExitDetected

instance (s : Hunter) (b : SessionBeat) : Decidable (s.Exits b) := inferInstanceAs (Decidable (_ = _))

def events (s : Hunter) (b : SessionBeat) : List SessionEvent :=
  (if s.Enters then [.worldEntry (s.entrySnap b)] else []) ++
    if s.Exits b then [.worldSessionDiff (s.entrySnap b) (s.exitSnap b)] else []

/-- One turn of `HeartbeatThreadFunc`. -/
def beat (s : Hunter) (b : SessionBeat) : Hunter := ⟨(s.monitor.beat b.toBeat).1, s.entrySnap b⟩

/-- Before the loop. -/
def start (space : AddressSpace) (tickMs : ℕ) : Hunter := ⟨.start space tickMs, ⟨0, 0, 0, 0, 0, 0, 0, []⟩⟩

/-- The state before the beat of that number. -/
def stateAt (s : Hunter) (bs : List SessionBeat) (i : ℕ) : Hunter := Run.after beat s (bs.take i)

def phaseAt (s : Hunter) (bs : List SessionBeat) (i : ℕ) : Phase := (s.stateAt bs i).monitor.phase

def eventsAt (s : Hunter) (bs : List SessionBeat) (i : ℕ) : List SessionEvent :=
  match bs[i]? with
  | some b => (s.stateAt bs i).events b
  | none => []

/-- The snapshots are all that is added to the phase machine. -/
theorem stateAt_monitor (space : AddressSpace) (tickMs : ℕ) (bs : List SessionBeat) (i : ℕ) :
    ((start space tickMs).stateAt bs i).monitor = Monitor.after space tickMs ((bs.take i).map (·.toBeat)) := by
  have hrun : ∀ (bs : List SessionBeat) (s : Hunter), (Run.after beat s bs).monitor =
      Run.after (fun m b => (m.beat b).1) s.monitor (bs.map (·.toBeat)) := by
    intro bs
    induction bs with
    | nil => exact fun _ => rfl
    | cons b bs ih => exact fun s => ih (s.beat b)
  exact hrun _ _

/-! ## Sessions -/

/-- The phases that a run visits, in order. -/
def visited : Hunter → List SessionBeat → List Phase
  | s, [] => [s.monitor.phase]
  | s, b :: bs =>
    if (s.beat b).monitor.phase = s.monitor.phase then visited (s.beat b) bs else s.monitor.phase :: visited (s.beat b) bs

/-- The menu after the injection, and then worlds. -/
def cycle : ℕ → Phase
  | 0 => .postInject
  | n + 1 =>
    match n % 4 with
    | 0 => .mainMenuStable
    | 1 => .worldLoadDetected
    | 2 => .postWorldStable
    | _ => .worldExitDetected

/-- The counter of mapped packages that a beat reads. -/
def packagesAt (bs : List SessionBeat) (i : ℕ) : ℕ := ((bs[i]?).map (·.mapViewPackage)).getD 0

/-- No package was mapped since the last beat. -/
def Quiet (bs : List SessionBeat) (i : ℕ) : Prop := packagesAt bs i = if i = 0 then 0 else packagesAt bs (i - 1)

/-- The beats of an uninterrupted stay in the world, from the first one up to the one before `past`. -/
structure Stay (s : Hunter) (bs : List SessionBeat) (first past : ℕ) : Prop where
  lt : first < past
  le : past ≤ bs.length
  inside : ∀ i, first ≤ i → i < past → s.phaseAt bs i = .postWorldStable
  begins : first = 0 ∨ s.phaseAt bs (first - 1) ≠ .postWorldStable
  ends : past = bs.length ∨ s.phaseAt bs past ≠ .postWorldStable

/-- What the beats from one to another log. -/
def eventsBetween (s : Hunter) (bs : List SessionBeat) (first past : ℕ) : List SessionEvent :=
  (List.range' first (past - first)).flatMap (s.eventsAt bs)

/-- Ticks in the order in which they are read, none of them past 64 bits. -/
structure Clock (bs : List SessionBeat) : Prop where
  within : ∀ b ∈ bs, b.entryTick ≤ b.dwellTick ∧ b.dwellTick ≤ b.snapTick ∧ b.snapTick ≤ b.exitTick ∧ b.exitTick < 2 ^ 64
  across : bs.Pairwise fun b b' => b.exitTick ≤ b'.entryTick

/-- The diff of a beat compares the snapshot of an earlier beat of the same stay, 45 seconds older at
least, with its own, and no package was mapped on this beat and the two before. -/
def Paired (s : Hunter) (bs : List SessionBeat) (j : ℕ) (entry now : LeakHunterSnapshot) : Prop :=
  (∃ b, bs[j]? = some b ∧ now = (s.stateAt bs j).exitSnap b) ∧
    (∃ i ≤ j, .worldEntry entry ∈ s.eventsAt bs i ∧ ∀ l, i ≤ l → l ≤ j → s.phaseAt bs l = .postWorldStable) ∧
    entry.tickMs + kMinWorldMs ≤ now.tickMs ∧ 2 ≤ j ∧ ∀ l, j ≤ l + 2 → l ≤ j → Quiet bs l

/-- World sessions are well paired. -/
structure WellPaired (s : Hunter) (bs : List SessionBeat) : Prop where
  phases : ∃ n, s.visited bs = (List.range (n + 1)).map cycle
  diff : ∀ j entry now, .worldSessionDiff entry now ∈ s.eventsAt bs j → s.Paired bs j entry now
  stay : ∀ first past, s.Stay bs first past →
    (s.eventsBetween bs first past).countP (·.isEntry) = 1 ∧ (s.eventsBetween bs first past).countP (·.isDiff) ≤ 1

end Hunter

/-! ## What one beat does -/

namespace Phase

/-- The phase that follows in the cycle. -/
def next : Phase → Phase
  | .postInject | .worldExitDetected => .mainMenuStable
  | .mainMenuStable => .worldLoadDetected
  | .worldLoadDetected => .postWorldStable
  | .postWorldStable => .worldExitDetected

theorem next_ne (p : Phase) : p.next ≠ p := by cases p <;> decide

end Phase

namespace Monitor

section
variable {m : Monitor} {b : Beat} {p : Phase}

theorem transition_next (h : m.transition b = some p) : p = m.phase.next := by
  unfold transition at h
  cases hphase : m.phase <;> rw [hphase] at h <;> dsimp only at h <;> split at h <;> cases h <;> rfl

/-- An exit: the dwell is long enough, and so is the streak that this beat ends. -/
theorem transition_exit (h : m.transition b = some .worldExitDetected) : m.phase = .postWorldStable ∧
    kMinWorldMs ≤ (b.dwellTick + 2 ^ 64 - (m.counted b).worldEntryTickMs) % 2 ^ 64 ∧ 3 ≤ (m.counted b).mapViewQuietStreak := by
  have hphase : m.phase = .postWorldStable := by
    have hnext := transition_next h
    cases hm : m.phase <;> rw [hm] at hnext <;> cases hnext
  unfold transition at h
  rw [hphase] at h
  dsimp only at h
  split at h
  · next hexit => exact ⟨hphase, hexit⟩
  · cases h

theorem beat_phase (m : Monitor) (b : Beat) : (m.beat b).1.phase = (m.transition b).getD m.phase := by
  unfold beat
  cases m.transition b <;> rfl

theorem beat_snapTaken (m : Monitor) (b : Beat) : (m.beat b).1.worldEntrySnapTaken =
    ((m.worldEntrySnapTaken || m.phase = .postWorldStable) && m.transition b ≠ some .worldExitDetected) := by
  unfold beat
  cases m.transition b with
  | none => simp [stay, counted]
  | some p => simp [changeTo, counted]

theorem beat_entryTick (m : Monitor) (b : Beat) : (m.beat b).1.worldEntryTickMs = (m.counted b).worldEntryTickMs := by
  unfold beat
  cases m.transition b <;> rfl

theorem beat_packages (m : Monitor) (b : Beat) : (m.beat b).1.prevMapViewPackageCount = b.mapViewPackage := by
  unfold beat
  cases m.transition b <;> rfl

theorem beat_quietStreak_le (m : Monitor) (b : Beat) : (m.beat b).1.mapViewQuietStreak ≤ (m.counted b).mapViewQuietStreak := by
  unfold beat
  cases m.transition b with
  | none => exact le_rfl
  | some p =>
    simp only [changeTo]
    split
    · exact Nat.zero_le _
    · exact le_rfl

/-- The streak goes on only over a beat that reads the counter as the last one did. -/
theorem counted_quietStreak (m : Monitor) (b : Beat) : (m.counted b).mapViewQuietStreak = 0 ∨
    (b.mapViewPackage = m.prevMapViewPackageCount ∧ (m.counted b).mapViewQuietStreak ≤ m.mapViewQuietStreak + 1) := by
  simp only [counted]
  split
  · next h => exact .inr ⟨h, Nat.mod_le _ _⟩
  · exact .inl rfl

end

end Monitor

namespace Hunter

section
variable {s : Hunter} {bs : List SessionBeat} {b : SessionBeat} {i j n first past : ℕ} {entry now : LeakHunterSnapshot}

theorem mem_events_entry : .worldEntry entry ∈ s.events b ↔ s.Enters ∧ entry = s.entrySnap b := by
  unfold events
  by_cases he : s.Enters <;> by_cases hx : s.Exits b <;> simp [he, hx]

theorem mem_events_diff : .worldSessionDiff entry now ∈ s.events b ↔ s.Exits b ∧ entry = s.entrySnap b ∧ now = s.exitSnap b := by
  unfold events
  by_cases he : s.Enters <;> by_cases hx : s.Exits b <;> simp [he, hx]

theorem countP_entry (s : Hunter) (b : SessionBeat) : (s.events b).countP (·.isEntry) = if s.Enters then 1 else 0 := by
  unfold events
  split <;> split <;> rfl

theorem countP_diff (s : Hunter) (b : SessionBeat) : (s.events b).countP (·.isDiff) = if s.Exits b then 1 else 0 := by
  unfold events
  split <;> split <;> rfl

/-! ## The phases -/

theorem cycle_succ (k : ℕ) : cycle (k + 1) = (cycle k).next := by
  cases k with
  | zero => rfl
  | succ n =>
    have hmod : n % 4 < 4 := Nat.mod_lt n (by decide)
    have hnext : (n + 1) % 4 = (n % 4 + 1) % 4 := by rw [Nat.mod_add_mod]
    simp only [cycle, hnext]
    interval_cases n % 4 <;> rfl

/-- A beat stays in its phase or goes on to the next. -/
theorem beat_phase_cases (s : Hunter) (b : SessionBeat) :
    (s.monitor.transition b.toBeat = none ∧ (s.beat b).monitor.phase = s.monitor.phase) ∨
      (s.beat b).monitor.phase = s.monitor.phase.next := by
  have hphase := s.monitor.beat_phase b.toBeat
  cases htrans : s.monitor.transition b.toBeat with
  | none =>
    rw [htrans] at hphase
    exact .inl ⟨rfl, hphase⟩
  | some p =>
    rw [htrans] at hphase
    exact .inr (hphase.trans (Monitor.transition_next htrans))

theorem visited_cycle (bs : List SessionBeat) (s : Hunter) (k : ℕ) (hs : s.monitor.phase = cycle k) :
    ∃ n, s.visited bs = (List.range' k (n + 1)).map cycle := by
  induction bs generalizing s k with
  | nil => exact ⟨0, by rw [visited, hs]; rfl⟩
  | cons b bs ih =>
    rcases s.beat_phase_cases b with ⟨-, hstay⟩ | hnext
    · obtain ⟨n, hn⟩ := ih (s.beat b) k (hstay.trans hs)
      exact ⟨n, by rw [visited, if_pos hstay, hn]⟩
    · obtain ⟨n, hn⟩ := ih (s.beat b) (k + 1) (by rw [hnext, hs, cycle_succ])
      refine ⟨n + 1, ?_⟩
      rw [visited, if_neg (by rw [hnext]; exact Phase.next_ne _), hn, hs]
      rfl

/-! ## Along a run -/

theorem stateAt_succ (s : Hunter) (hb : bs[n]? = some b) : s.stateAt bs (n + 1) = (s.stateAt bs n).beat b := by
  unfold stateAt
  rw [List.take_add_one, hb, Option.toList_some, Run.after_append]
  rfl

theorem eventsAt_some (s : Hunter) (hb : bs[n]? = some b) : s.eventsAt bs n = (s.stateAt bs n).events b := by
  unfold eventsAt
  rw [hb]

theorem eventsAt_mem {e : SessionEvent} (h : e ∈ s.eventsAt bs n) : ∃ b, bs[n]? = some b ∧ e ∈ (s.stateAt bs n).events b := by
  unfold eventsAt at h
  split at h
  · next b hb => exact ⟨b, hb, h⟩
  · cases h

theorem packagesAt_some (hb : bs[n]? = some b) : packagesAt bs n = b.mapViewPackage := by
  unfold packagesAt
  rw [hb]
  rfl

/-- What the thread's variables say of the beats before. -/
structure Tracked (s : Hunter) (bs : List SessionBeat) (n : ℕ) : Prop where
  /-- A snapshot that is held was taken on a beat of this stay. -/
  taken : (s.stateAt bs n).monitor.worldEntrySnapTaken = true →
    (s.stateAt bs n).monitor.worldEntryTickMs = (s.stateAt bs n).worldEntrySnap.tickMs ∧
      ∃ i < n, .worldEntry (s.stateAt bs n).worldEntrySnap ∈ s.eventsAt bs i ∧ ∀ l, i ≤ l → l ≤ n → s.phaseAt bs l = .postWorldStable
  /-- In the world and without one, the phase has just begun. -/
  fresh : (s.stateAt bs n).monitor.worldEntrySnapTaken = false → s.phaseAt bs n = .postWorldStable →
    n = 0 ∨ s.phaseAt bs (n - 1) ≠ .postWorldStable
  streak_le : (s.stateAt bs n).monitor.mapViewQuietStreak ≤ n
  streak : ∀ l < n, n ≤ l + (s.stateAt bs n).monitor.mapViewQuietStreak → Quiet bs l
  packages : (s.stateAt bs n).monitor.prevMapViewPackageCount = if n = 0 then 0 else packagesAt bs (n - 1)

theorem tracked_zero (space : AddressSpace) (tickMs : ℕ) (bs : List SessionBeat) : (start space tickMs).Tracked bs 0 where
  taken h := nomatch h
  fresh _ _ := .inl rfl
  streak_le := le_rfl
  streak l hl := absurd hl (Nat.not_lt_zero l)
  packages := rfl

/-- The beat's own streak is over quiet beats, this one included. -/
theorem Tracked.counted (h : s.Tracked bs n) (hb : bs[n]? = some b) :
    ((s.stateAt bs n).monitor.counted b.toBeat).mapViewQuietStreak ≤ n + 1 ∧
      ∀ l < n + 1, n + 1 ≤ l + ((s.stateAt bs n).monitor.counted b.toBeat).mapViewQuietStreak → Quiet bs l := by
  rcases (s.stateAt bs n).monitor.counted_quietStreak b.toBeat with hzero | ⟨hquiet, hle⟩
  · rw [hzero]
    exact ⟨Nat.zero_le _, fun l hl hle => absurd hl (by omega)⟩
  · have hn := h.streak_le
    refine ⟨by omega, fun l hl hlast => ?_⟩
    rcases Nat.lt_succ_iff_lt_or_eq.1 hl with hlt | rfl
    · exact h.streak l hlt (by omega)
    · unfold Quiet
      rw [packagesAt_some hb, hquiet, h.packages]

/-- The snapshot that the beat holds: its own, or the one it finds. -/
theorem Tracked.entrySnap (h : s.Tracked bs n) (hb : bs[n]? = some b) (hphase : s.phaseAt bs n = .postWorldStable) :
    ((s.stateAt bs n).monitor.counted b.toBeat).worldEntryTickMs = ((s.stateAt bs n).entrySnap b).tickMs ∧
      ∃ i ≤ n, .worldEntry ((s.stateAt bs n).entrySnap b) ∈ s.eventsAt bs i ∧ ∀ l, i ≤ l → l ≤ n → s.phaseAt bs l = .postWorldStable := by
  have hp : (s.stateAt bs n).monitor.phase = .postWorldStable := hphase
  cases htaken : (s.stateAt bs n).monitor.worldEntrySnapTaken with
  | false =>
    have henters : (s.stateAt bs n).Enters := ⟨hp, htaken⟩
    refine ⟨?_, n, le_rfl, ?_, ?_⟩
    · rw [Hunter.entrySnap, if_pos henters]
      exact if_pos henters
    · rw [eventsAt_some s hb]
      exact mem_events_entry.2 ⟨henters, rfl⟩
    · intro l hl hln
      rwa [Nat.le_antisymm hln hl]
  | true =>
    have hnot : ¬ (s.stateAt bs n).Enters := fun he => by rw [he.2] at htaken; cases htaken
    obtain ⟨htick, i, hi, hmem, hstay⟩ := h.taken htaken
    have hsnap : (s.stateAt bs n).entrySnap b = (s.stateAt bs n).worldEntrySnap := if_neg hnot
    rw [hsnap]
    exact ⟨(if_neg hnot).trans htick, i, hi.le, hmem, hstay⟩

/-- In the world, the beat that does not detect the exit stays there. -/
theorem phaseAt_stay (hb : bs[n]? = some b) (hphase : s.phaseAt bs n = .postWorldStable) (hexit : ¬ (s.stateAt bs n).Exits b) :
    s.phaseAt bs (n + 1) = .postWorldStable := by
  have hp : (s.stateAt bs n).monitor.phase = .postWorldStable := hphase
  rcases (s.stateAt bs n).beat_phase_cases b with ⟨-, hstay⟩ | hnext
  · rw [phaseAt, stateAt_succ s hb, hstay, hp]
  · cases htrans : (s.stateAt bs n).monitor.transition b.toBeat with
    | none =>
      rw [phaseAt, stateAt_succ s hb]
      exact (Monitor.beat_phase _ _).trans (by rw [htrans, Option.getD_none, hp])
    | some p =>
      have hleave := Monitor.transition_next htrans
      rw [hp] at hleave
      exact absurd (htrans.trans (congrArg some hleave)) hexit

theorem phaseAt_exit (hb : bs[n]? = some b) (hexit : (s.stateAt bs n).Exits b) :
    s.phaseAt bs n = .postWorldStable ∧ s.phaseAt bs (n + 1) = .worldExitDetected := by
  refine ⟨(Monitor.transition_exit hexit).1, ?_⟩
  have htrans : (s.stateAt bs n).monitor.transition b.toBeat = some .worldExitDetected := hexit
  rw [phaseAt, stateAt_succ s hb]
  exact (Monitor.beat_phase _ _).trans (by rw [htrans, Option.getD_some])

theorem Tracked.succ (h : s.Tracked bs n) (hb : bs[n]? = some b) : s.Tracked bs (n + 1) := by
  have hstate := stateAt_succ s hb
  have hsnap : (s.stateAt bs (n + 1)).monitor.worldEntrySnapTaken =
      (((s.stateAt bs n).monitor.worldEntrySnapTaken || s.phaseAt bs n = .postWorldStable) && !decide ((s.stateAt bs n).Exits b)) := by
    rw [hstate]
    exact ((s.stateAt bs n).monitor.beat_snapTaken b.toBeat).trans (by rw [decide_not]; rfl)
  have hstreak : (s.stateAt bs (n + 1)).monitor.mapViewQuietStreak ≤ ((s.stateAt bs n).monitor.counted b.toBeat).mapViewQuietStreak := by
    rw [hstate]
    exact Monitor.beat_quietStreak_le _ _
  obtain ⟨hle, hquiet⟩ := h.counted hb
  constructor
  · intro htaken
    rw [hsnap, Bool.and_eq_true, Bool.or_eq_true, Bool.not_eq_true', decide_eq_true_iff, decide_eq_false_iff_not] at htaken
    obtain ⟨hheld, hexit⟩ := htaken
    have hphase : s.phaseAt bs n = .postWorldStable := by
      rcases hheld with hheld | hphase
      · obtain ⟨-, i, hi, -, hstay⟩ := h.taken hheld
        exact hstay n hi.le le_rfl
      · exact hphase
    obtain ⟨htick, i, hi, hmem, hstay⟩ := h.entrySnap hb hphase
    rw [hstate]
    refine ⟨(Monitor.beat_entryTick _ _).trans htick, i, by omega, hmem, fun l hl hln => ?_⟩
    rcases Nat.le_succ_iff.1 hln with hln | rfl
    · exact hstay l hl hln
    · exact phaseAt_stay hb hphase hexit
  · intro hfree hphase
    right
    intro hbefore
    rw [Nat.add_sub_cancel] at hbefore
    rw [hsnap, decide_eq_true hbefore, Bool.or_true, Bool.true_and, Bool.not_eq_false', decide_eq_true_iff] at hfree
    rw [(phaseAt_exit hb hfree).2] at hphase
    cases hphase
  · omega
  · intro l hl hlast
    exact hquiet l hl (by omega)
  · rw [hstate, if_neg (Nat.succ_ne_zero n), Nat.add_sub_cancel, packagesAt_some hb]
    exact Monitor.beat_packages _ _

/-- The run lemma. -/
theorem tracked (space : AddressSpace) (tickMs : ℕ) (hn : n ≤ bs.length) : (start space tickMs).Tracked bs n := by
  induction n with
  | zero => exact tracked_zero space tickMs bs
  | succ n ih => exact (ih (by omega)).succ (List.getElem?_eq_getElem (show n < bs.length by omega))

/-! ## Each diff -/

theorem entry_tickMs (h : .worldEntry entry ∈ s.eventsAt bs i) : ∃ b, bs[i]? = some b ∧ entry.tickMs = b.entryTick := by
  obtain ⟨b, hb, hmem⟩ := eventsAt_mem h
  obtain ⟨henters, rfl⟩ := mem_events_entry.1 hmem
  refine ⟨b, hb, ?_⟩
  rw [entrySnap, if_pos henters]
  rfl

/-- An entry is noted before any later dwell is taken. -/
theorem Clock.entry_le (h : Clock bs) {b' : SessionBeat} (hij : i ≤ j) (hi : bs[i]? = some b') (hj : bs[j]? = some b) :
    b'.entryTick ≤ b.dwellTick := by
  obtain ⟨hilen, rfl⟩ := List.getElem?_eq_some_iff.1 hi
  obtain ⟨hjlen, rfl⟩ := List.getElem?_eq_some_iff.1 hj
  have hwi := h.within _ (List.getElem_mem hilen)
  have hwj := h.within _ (List.getElem_mem hjlen)
  rcases hij.lt_or_eq with hlt | rfl
  · have hacross := List.pairwise_iff_getElem.1 h.across i j hilen hjlen hlt
    omega
  · exact hwj.1

theorem Tracked.paired (h : s.Tracked bs j) (hclock : Clock bs) (hmem : .worldSessionDiff entry now ∈ s.eventsAt bs j) :
    s.Paired bs j entry now := by
  obtain ⟨b, hb, hmem⟩ := eventsAt_mem hmem
  obtain ⟨hexit, rfl, rfl⟩ := mem_events_diff.1 hmem
  obtain ⟨hphase, hdwell, hthree⟩ := Monitor.transition_exit hexit
  obtain ⟨htick, i, hij, hentry, hstay⟩ := h.entrySnap hb hphase
  obtain ⟨hle, hquiet⟩ := h.counted hb
  refine ⟨⟨b, hb, rfl⟩, ⟨i, hij, hentry, hstay⟩, ?_, by omega, fun l hl hlj => hquiet l (by omega) (by omega)⟩
  obtain ⟨b', hb', hsnap⟩ := entry_tickMs hentry
  have horder := hclock.entry_le hij hb' hb
  have hbounds := hclock.within b (List.mem_of_getElem? hb)
  have hnow : ((s.stateAt bs j).exitSnap b).tickMs = b.exitTick := rfl
  rw [htick, hsnap] at hdwell
  rw [hnow, hsnap]
  omega

/-! ## Each stay -/

theorem Stay.entry_count (h : s.Stay bs first past) (htracked : ∀ n ≤ bs.length, s.Tracked bs n) (hl : first ≤ i) (hp : i < past) :
    (s.eventsAt bs i).countP (·.isEntry) = if i = first then 1 else 0 := by
  have hlen : i < bs.length := hp.trans_le h.le
  have ht := htracked i hlen.le
  have hphase := h.inside i hl hp
  rw [eventsAt_some s (List.getElem?_eq_getElem hlen), countP_entry]
  refine if_congr ?_ rfl rfl
  constructor
  · rintro ⟨-, hfree⟩
    by_contra hne
    rcases ht.fresh hfree hphase with rfl | hbefore
    · omega
    · exact hbefore (h.inside (i - 1) (by omega) (by omega))
  · rintro rfl
    refine ⟨hphase, ?_⟩
    rw [← Bool.not_eq_true]
    intro htaken
    obtain ⟨-, l, hli, -, hstay⟩ := ht.taken htaken
    rcases h.begins with rfl | hbefore
    · exact absurd hli (Nat.not_lt_zero l)
    · exact hbefore (hstay (i - 1) (by omega) (Nat.sub_le i 1))

theorem Stay.diff_count (h : s.Stay bs first past) (hl : first ≤ i) (hp : i < past) :
    (s.eventsAt bs i).countP (·.isDiff) ≤ if i + 1 = past then 1 else 0 := by
  have hlen : i < bs.length := hp.trans_le h.le
  have hb := List.getElem?_eq_getElem hlen
  rw [eventsAt_some s hb, countP_diff]
  by_cases hexit : (s.stateAt bs i).Exits bs[i]
  · have hpast : i + 1 = past := by
      by_contra hne
      have hinside := h.inside (i + 1) (by omega) (by omega)
      rw [(phaseAt_exit hb hexit).2] at hinside
      cases hinside
    rw [if_pos hexit, if_pos hpast]
  · rw [if_neg hexit]
    exact Nat.zero_le _

theorem countP_between (s : Hunter) (bs : List SessionBeat) (first past : ℕ) (p : SessionEvent → Bool) :
    (s.eventsBetween bs first past).countP p = ((List.range' first (past - first)).map fun i => (s.eventsAt bs i).countP p).sum := by
  unfold eventsBetween
  rw [List.countP_flatMap]
  rfl

theorem Stay.counts (h : s.Stay bs first past) (htracked : ∀ n ≤ bs.length, s.Tracked bs n) :
    (s.eventsBetween bs first past).countP (·.isEntry) = 1 ∧ (s.eventsBetween bs first past).countP (·.isDiff) ≤ 1 := by
  obtain ⟨k, hk⟩ : ∃ k, past - first = k + 1 := ⟨past - first - 1, by have := h.lt; omega⟩
  rw [countP_between, countP_between, hk]
  constructor
  · -- the first beat's, and none after it
    rw [List.range'_succ, List.map_cons, List.sum_cons, h.entry_count htracked le_rfl h.lt, if_pos rfl, Nat.add_eq_left,
      List.sum_eq_zero_iff]
    intro c hc
    obtain ⟨i, hi, rfl⟩ := List.mem_map.1 hc
    rw [List.mem_range'_1] at hi
    rw [h.entry_count htracked (by omega) (by omega), if_neg (by omega)]
  · -- none before the last beat's
    rw [List.range'_1_concat, List.map_append, List.sum_append, List.map_singleton, List.sum_singleton]
    have hzero : ((List.range' first k).map fun i => (s.eventsAt bs i).countP (·.isDiff)).sum = 0 := by
      rw [List.sum_eq_zero_iff]
      intro c hc
      obtain ⟨i, hi, rfl⟩ := List.mem_map.1 hc
      rw [List.mem_range'_1] at hi
      have := h.diff_count (i := i) (by omega) (by omega)
      rw [if_neg (by omega)] at this
      exact Nat.le_zero.1 this
    have hlast := h.diff_count (i := first + k) (by omega) (by omega)
    rw [if_pos (by omega)] at hlast
    rw [hzero, Nat.zero_add]
    exact hlast

/-- World sessions are well paired, in every run. -/
theorem wellPaired (space : AddressSpace) (tickMs : ℕ) (bs : List SessionBeat) (hclock : Clock bs) :
    (start space tickMs).WellPaired bs where
  phases := by
    obtain ⟨n, hn⟩ := visited_cycle bs (start space tickMs) 0 rfl
    exact ⟨n, by rw [hn, List.range_eq_range']⟩
  diff j entry now hmem := by
    have hj : j ≤ bs.length := by
      obtain ⟨b, hb, -⟩ := eventsAt_mem hmem
      exact (List.getElem?_eq_some_iff.1 hb).1.le
    exact (tracked space tickMs hj).paired hclock hmem
  stay first past h := h.counts fun _ hn => tracked space tickMs hn

end

/-- A free region of 500 MB. -/
def loaded : AddressSpace := ⟨[⟨0, 500 * MB, .free, .priv⟩], by decide⟩

/-- The menu, a world that is entered on the eighth beat, and its exit on the next, 50 seconds later. -/
def session : List SessionBeat := (List.replicate 3 Monitor.wide ++ List.replicate 6 loaded).mapIdx fun i space =>
  ⟨⟨space, space, 0, 50000 * i, 50000 * i, 50000 * i⟩, 0, 0, ⟨0, []⟩, 50000 * i, ⟨0, []⟩⟩

theorem clock_session : Clock session := ⟨by decide +kernel, by decide +kernel⟩

theorem wellPaired_session : (start Monitor.wide 0).WellPaired session ∧
    ((start Monitor.wide 0).eventsBetween session 7 9).map (·.isDiff) = [false, true] :=
  ⟨wellPaired Monitor.wide 0 session clock_session, by decide +kernel⟩

end Hunter

end Ts3Vas.HeartbeatMonitor
