/-
What HeartbeatThreadFunc reports of the address space: milestones, the `VAS_SLOPE` lines of `emitVasSlope`, those of
the leak hunter among them, and `VAS_REPORT`. The changes that are logged add up to the whole change, and each
milestone is logged once.
-/
import Ts3Vas.Observe.Heartbeat
import Ts3Vas.Observe.Slope

namespace Ts3Vas.HeartbeatMonitor

/-- The counters that `emitVasSlope` compares with its last report; that of write-watched executable memory is the
sum of three. -/
inductive Total
  | writeWatchExecBytes
  | reserveCommitGameBytes
  | reserveOnlyGameBytes
  | reserveCommitGameCount
  | reserveOnlyGameCount
  | virtualAllocRedirectedCount
  deriving DecidableEq, Repr

/-- A row of `milestones` or `largestFreeMilestones`. -/
structure Milestone where
  thresholdMb : ℕ
  bit : ℕ
  label : String
  counter : String
  deriving DecidableEq, Repr

def milestones : List Milestone :=
  [⟨2000, 0, "2GB", "VAS_Milestone_Crossed"⟩, ⟨1500, 1, "1.5GB", "VAS_Milestone_Crossed"⟩,
    ⟨1000, 2, "1GB", "VAS_Milestone_Crossed"⟩, ⟨500, 3, "500MB", "VAS_Milestone_Crossed"⟩,
    ⟨250, 4, "250MB", "VAS_Milestone_Crossed"⟩]

def largestFreeMilestones : List Milestone :=
  [⟨128, 0, "128MB", "VAS_LargestFree_Warning_Crossed"⟩, ⟨96, 1, "96MB", "VAS_LargestFree_Critical_Crossed"⟩,
    ⟨64, 2, "64MB", "VAS_LargestFree_NearFail_Crossed"⟩]

/-- `reasonTag`. -/
inductive Reason
  | milestone
  | interval
  | leakHunter
  | leakHunterVas
  deriving DecidableEq, Repr

/-- The slope comes from the phase machine. -/
def Reason.ofPhases : Reason → Bool
  | .milestone | .interval => false
  | .leakHunter | .leakHunterVas => true

/-- The slope that goes with a decision of the phase machine: leaving the world, and free memory that came back. -/
def Event.reason? : Event → Option Reason
  | .phaseDiff _ new => if new = .worldExitDetected then some .leakHunter else none
  | .cumulativeVas _ => some .leakHunterVas

/-- What is logged. -/
inductive Line
  /-- `[VAS_MILESTONE]`, and whether its counter is incremented with it. -/
  | crossed (m : Milestone) (mb beat : ℕ) (counted : Bool)
  /-- The lines of one `emitVasSlope`. -/
  | slope (reason : Reason) (largestFreeMb : ℕ) (largestDeltaMb : ℤ) (delta : Total → ℕ) (rate : Option Rate)
  /-- `Local VAS`. -/
  | vasReport (totalFree largestFree : ℕ) (delta : ℤ)

/-- What one call of `emitVasSlope` reads: its tick and, where there is an `Analytics`, the counters. -/
structure SlopeReading where
  nowT : ℕ
  analytics : Option (Total → ℕ)

/-- What a beat reads. Its slopes read the counters anew: `early` is for the one of a milestone or an interval,
`late` for that of the phase machine. -/
structure Round extends Beat where
  nowTick : ℕ
  early : SlopeReading
  late : SlopeReading

namespace Round

def toReading (b : Round) : Reading := ⟨b.nowTick, b.largestFreeMb, b.currentVasMb⟩

def slopeReading (b : Round) (reasonTag : Reason) : SlopeReading := if reasonTag.ofPhases then b.late else b.early

@[simp] theorem slopeReading_milestone (b : Round) : b.slopeReading .milestone = b.early := rfl

@[simp] theorem slopeReading_interval (b : Round) : b.slopeReading .interval = b.early := rfl

end Round

/-- The variables of the thread that its reports depend on. -/
structure Reporter where
  passive : Bool
  analyticsReportEveryBeats : ℕ
  history : History
  beatCount : ℕ
  lastVasMb : ℕ
  vasMilestoneFlags : ℕ
  largestFreeMilestoneFlags : ℕ
  prev : Total → ℕ
  prevLargestFreeReportMb : ℕ
  hasSlopeBaseline : Bool
  monitor : Monitor

/-- One round of a loop over milestones: the flags, and the rows that are logged. -/
def Milestone.cross (mb : ℕ) (acc : ℕ × List Milestone) (m : Milestone) : ℕ × List Milestone :=
  if mb < m.thresholdMb ∧ acc.1.testBit m.bit = false then (acc.1 ||| 1 <<< m.bit, acc.2 ++ [m]) else acc

def crossings (table : List Milestone) (mb flags : ℕ) : ℕ × List Milestone := table.foldl (Milestone.cross mb) (flags, [])

namespace Reporter

def emitVasSlope (r : Reporter) (b : Round) (reasonTag : Reason) : Reporter × List Line :=
  match (b.slopeReading reasonTag).analytics with
  | none => (r, [])
  | some total =>
    ({ r with prev := total, prevLargestFreeReportMb := b.largestFreeMb, hasSlopeBaseline := true },
      [.slope reasonTag b.largestFreeMb
        (if r.hasSlopeBaseline then (b.largestFreeMb : ℤ) - r.prevLargestFreeReportMb else 0)
        (fun k => if r.prev k ≤ total k then total k - r.prev k else 0)
        (r.history.rate (b.slopeReading reasonTag).nowT b.currentVasMb)])

/-- The line of `VAS_REPORT`. -/
def local_ (r : Reporter) (b : Round) : Line := .vasReport b.currentVasMb b.largestFreeMb ((b.currentVasMb : ℤ) - r.lastVasMb)

def shouldLog (r : Reporter) (b : Round) : Bool :=
  r.beatCount ≤ 30 || b.currentVasMb ≠ r.lastVasMb || r.beatCount % 10 = 0

/-- The largest-free milestones of a beat and the slope that goes with them. -/
def milestoneSlope (r : Reporter) (b : Round) (crossed : List Milestone) : Reporter × List Line :=
  if crossed = [] then (r, []) else r.emitVasSlope b .milestone

/-- The slope of an analytics report, unless the beat has logged one. -/
def intervalSlope (r : Reporter) (b : Round) (emitted : List Line) : Reporter × List Line :=
  if 0 < r.beatCount ∧ r.beatCount % r.analyticsReportEveryBeats = 0 ∧ emitted.isEmpty then r.emitVasSlope b .interval
  else (r, [])

/-- The slope of the leak hunter, whether or not the beat has logged one. -/
def phaseSlope (r : Reporter) (b : Round) : Reporter × List Line :=
  let (monitor, events) := r.monitor.beat b.toBeat
  let r := { r with monitor := monitor }
  match events.findSome? Event.reason? with
  | none => (r, [])
  | some reasonTag => r.emitVasSlope b reasonTag

/-- The beat is counted and sampled. -/
def counted (r : Reporter) (b : Round) : Reporter :=
  { r with beatCount := r.beatCount + 1, history := r.history.feed b.toReading }

/-- The flags are set for the milestones that the beat is below. -/
def marked (r : Reporter) (b : Round) : Reporter :=
  { r with
    vasMilestoneFlags := (crossings milestones b.currentVasMb r.vasMilestoneFlags).1
    largestFreeMilestoneFlags := (crossings largestFreeMilestones b.largestFreeMb r.largestFreeMilestoneFlags).1 }

/-- The rest of a beat that is not passive. -/
def active (r : Reporter) (b : Round) : Reporter × List Line :=
  let vas := (crossings milestones b.currentVasMb r.vasMilestoneFlags).2
  let largest := (crossings largestFreeMilestones b.largestFreeMb r.largestFreeMilestoneFlags).2
  let first := (r.marked b).milestoneSlope b largest
  let second := first.1.intervalSlope b first.2
  let third := phaseSlope { second.1 with lastVasMb := b.currentVasMb } b
  (third.1,
    vas.map (fun m => .crossed m b.currentVasMb r.beatCount b.early.analytics.isSome) ++
      largest.map (fun m => .crossed m b.largestFreeMb r.beatCount b.early.analytics.isSome) ++
      first.2 ++ (if r.shouldLog b then [r.local_ b] else []) ++ second.2 ++ third.2)

/-- A beat, after its observe tables. -/
def beat (r : Reporter) (b : Round) : Reporter × List Line :=
  let r := r.counted b
  if r.passive then ({ r with lastVasMb := b.currentVasMb }, [r.local_ b]) else r.active b

/-- At the start of the thread, with what it reads from the environment and the address space that it finds. -/
def start (passive : Bool) (tick slopeWarmupMin analyticsReportEveryBeats : ℕ) (space : AddressSpace) (snapTick : ℕ) : Reporter :=
  ⟨passive, analyticsReportEveryBeats, .start tick slopeWarmupMin, 0, 0, 0, 0, fun _ => 0, 0, false, .start space snapTick⟩

abbrev after (r : Reporter) (bs : List Round) : Reporter := Run.after (Run.state beat) r bs

/-- All that is logged. -/
abbrev lines (r : Reporter) (bs : List Round) : List Line := Run.emitted beat r bs

end Reporter

/-! ## Milestones -/

theorem testBit_set (flags bit i : ℕ) : (flags ||| 1 <<< bit).testBit i = (flags.testBit i || decide (bit = i)) := by
  rw [Nat.testBit_or, Nat.one_shiftLeft, Nat.testBit_two_pow]

theorem foldl_cross (mb : ℕ) : ∀ (table : List Milestone) (acc : ℕ × List Milestone), table.Pairwise (·.bit ≠ ·.bit) →
    (∀ i, (table.foldl (Milestone.cross mb) acc).1.testBit i =
      (acc.1.testBit i || table.any fun m => decide (m.bit = i) && decide (mb < m.thresholdMb))) ∧
    (table.foldl (Milestone.cross mb) acc).2 =
      acc.2 ++ table.filter fun m => decide (mb < m.thresholdMb) && !acc.1.testBit m.bit
  | [], acc, _ => by simp
  | m :: table, (flags, out), hbits => by
    obtain ⟨hm, htable⟩ := List.pairwise_cons.1 hbits
    obtain ⟨hflags, hout⟩ := foldl_cross mb table (Milestone.cross mb (flags, out) m) htable
    rw [List.foldl_cons]
    by_cases hcross : mb < m.thresholdMb ∧ flags.testBit m.bit = false
    · have hstep : Milestone.cross mb (flags, out) m = (flags ||| 1 <<< m.bit, out ++ [m]) := if_pos hcross
      rw [hstep] at hflags hout ⊢
      refine ⟨fun i => ?_, ?_⟩
      · rw [hflags i, testBit_set, List.any_cons, decide_eq_true hcross.1, Bool.and_true, Bool.or_assoc]
      · rw [hout, List.filter_cons_of_pos (by simp [hcross]), List.append_assoc, List.singleton_append]
        have hsame : table.filter (fun m' => decide (mb < m'.thresholdMb) && !(flags ||| 1 <<< m.bit).testBit m'.bit) =
            table.filter fun m' => decide (mb < m'.thresholdMb) && !flags.testBit m'.bit :=
          List.filter_congr fun m' hm' => by rw [testBit_set, decide_eq_false (hm m' hm'), Bool.or_false]
        rw [hsame]
    · have hstep : Milestone.cross mb (flags, out) m = (flags, out) := if_neg hcross
      rw [hstep] at hflags hout ⊢
      refine ⟨fun i => ?_, ?_⟩
      · rw [hflags i, List.any_cons]
        by_cases hi : m.bit = i
        · subst hi
          by_cases hlt : mb < m.thresholdMb
          · have hset : flags.testBit m.bit = true := by simpa using fun hf => hcross ⟨hlt, hf⟩
            simp [hset]
          · simp [hlt]
        · simp [hi]
      · rw [hout, List.filter_cons_of_neg (by simpa using hcross)]

/-- The loop over a table with a bit for each row. -/
theorem crossings_spec {table : List Milestone} (hbits : table.Pairwise (·.bit ≠ ·.bit)) (mb flags : ℕ) :
    (∀ m ∈ table, (crossings table mb flags).1.testBit m.bit = (flags.testBit m.bit || decide (mb < m.thresholdMb))) ∧
    (crossings table mb flags).2 = table.filter fun m => decide (mb < m.thresholdMb) && !flags.testBit m.bit := by
  obtain ⟨hflags, hout⟩ := foldl_cross mb table (flags, []) hbits
  refine ⟨fun m hm => ?_, hout⟩
  rw [crossings, hflags m.bit]
  congr 1
  rw [Bool.eq_iff_iff, List.any_eq_true, decide_eq_true_eq]
  constructor
  · rintro ⟨m', hm', hhit⟩
    rw [Bool.and_eq_true, decide_eq_true_eq, decide_eq_true_eq] at hhit
    have : Std.Symm fun m m' : Milestone => m.bit ≠ m'.bit := ⟨fun _ _ h => Ne.symm h⟩
    have heq : m' = m := by
      by_contra hne
      exact hbits.forall hm' hm hne hhit.1
    exact heq ▸ hhit.2
  · intro hlt
    exact ⟨m, hm, by simp [hlt]⟩

/-! ## One beat -/

namespace Line

/-- The beat at which the milestone is logged. -/
def crossing (m : Milestone) : Line → Option ℕ
  | .crossed m' _ beat _ => if m' = m then some beat else none
  | .slope .. => none
  | .vasReport .. => none

/-- What the line says of the change of the free address space. -/
def vasDelta : Line → ℤ
  | .crossed .. => 0
  | .slope .. => 0
  | .vasReport _ _ delta => delta

def reason : Line → Option Reason
  | .crossed .. => none
  | .slope reasonTag _ _ _ _ => some reasonTag
  | .vasReport .. => none

end Line

namespace Reporter

/-- Slopes leave everything but their baseline. -/
structure SameBut (r r' : Reporter) : Prop where
  passive : r'.passive = r.passive
  every : r'.analyticsReportEveryBeats = r.analyticsReportEveryBeats
  history : r'.history = r.history
  beatCount : r'.beatCount = r.beatCount
  lastVasMb : r'.lastVasMb = r.lastVasMb
  vasFlags : r'.vasMilestoneFlags = r.vasMilestoneFlags
  largestFlags : r'.largestFreeMilestoneFlags = r.largestFreeMilestoneFlags
  monitor : r'.monitor = r.monitor

theorem SameBut.refl (r : Reporter) : r.SameBut r := ⟨rfl, rfl, rfl, rfl, rfl, rfl, rfl, rfl⟩

theorem SameBut.trans {r r' r'' : Reporter} (h : r.SameBut r') (h' : r'.SameBut r'') : r.SameBut r'' :=
  ⟨h'.passive.trans h.passive, h'.every.trans h.every, h'.history.trans h.history, h'.beatCount.trans h.beatCount,
    h'.lastVasMb.trans h.lastVasMb, h'.vasFlags.trans h.vasFlags, h'.largestFlags.trans h.largestFlags,
    h'.monitor.trans h.monitor⟩

/-- From one baseline to the next with at most one line, which says how far the counters have come. -/
def Sloped (prev : Total → ℕ) (s : SlopeReading) (prev' : Total → ℕ) (out : List Line) : Prop :=
  (out = [] ∧ prev' = prev) ∨ ∃ reasonTag total delta lf lfDelta rate, s.analytics = some total ∧ prev' = total ∧
    (∀ k, delta k = if prev k ≤ total k then total k - prev k else 0) ∧ out = [.slope reasonTag lf lfDelta delta rate]

/-- One call of `emitVasSlope`: nothing without an `Analytics`, else one line and a new baseline. -/
theorem emitVasSlope_spec (r : Reporter) (b : Round) (reasonTag : Reason) : r.SameBut (r.emitVasSlope b reasonTag).1 ∧
    Sloped r.prev (b.slopeReading reasonTag) (r.emitVasSlope b reasonTag).1.prev (r.emitVasSlope b reasonTag).2 ∧
    (r.emitVasSlope b reasonTag).2.filterMap Line.reason =
      if (b.slopeReading reasonTag).analytics = none then [] else [reasonTag] := by
  rcases hanalytics : (b.slopeReading reasonTag).analytics with _ | total
  · have hnone : r.emitVasSlope b reasonTag = (r, []) := by rw [emitVasSlope, hanalytics]
    rw [hnone]
    exact ⟨.refl r, .inl ⟨rfl, rfl⟩, rfl⟩
  · unfold emitVasSlope
    rw [hanalytics]
    exact ⟨⟨rfl, rfl, rfl, rfl, rfl, rfl, rfl, rfl⟩, .inr ⟨reasonTag, total, _, _, _, _, hanalytics, rfl, fun _ => rfl, rfl⟩, rfl⟩

theorem emitVasSlope_same (r : Reporter) (b : Round) (reasonTag : Reason) : r.SameBut (r.emitVasSlope b reasonTag).1 :=
  (emitVasSlope_spec r b reasonTag).1

theorem emitVasSlope_sloped (r : Reporter) (b : Round) (reasonTag : Reason) :
    Sloped r.prev (b.slopeReading reasonTag) (r.emitVasSlope b reasonTag).1.prev (r.emitVasSlope b reasonTag).2 :=
  (emitVasSlope_spec r b reasonTag).2.1

theorem emitVasSlope_reason (r : Reporter) (b : Round) (reasonTag : Reason) : (r.emitVasSlope b reasonTag).2.filterMap Line.reason =
    if (b.slopeReading reasonTag).analytics = none then [] else [reasonTag] := (emitVasSlope_spec r b reasonTag).2.2

/-- A slope that is logged is a line. -/
theorem Sloped.eq_nil {prev prev' : Total → ℕ} {s : SlopeReading} {out : List Line} (h : Sloped prev s prev' out)
    (hempty : out.isEmpty = true) : out = [] ∧ prev' = prev := by
  rcases h with hnone | ⟨_, _, _, _, _, _, -, -, -, rfl⟩
  · exact hnone
  · cases hempty

theorem milestoneSlope_spec (r : Reporter) (b : Round) (crossed : List Milestone) :
    r.SameBut (r.milestoneSlope b crossed).1 ∧
    Sloped r.prev b.early (r.milestoneSlope b crossed).1.prev (r.milestoneSlope b crossed).2 ∧
    (r.milestoneSlope b crossed).2.filterMap Line.reason =
      if crossed ≠ [] ∧ b.early.analytics ≠ none then [.milestone] else [] := by
  unfold milestoneSlope
  by_cases hcrossed : crossed = []
  · rw [if_pos hcrossed, if_neg fun h => h.1 hcrossed]
    exact ⟨.refl r, .inl ⟨rfl, rfl⟩, rfl⟩
  · rw [if_neg hcrossed]
    refine ⟨emitVasSlope_same .., emitVasSlope_sloped r b .milestone, ?_⟩
    rw [emitVasSlope_reason, Round.slopeReading_milestone]
    by_cases hnone : b.early.analytics = none
    · rw [if_pos hnone, if_neg fun h => h.2 hnone]
    · rw [if_neg hnone, if_pos ⟨hcrossed, hnone⟩]

theorem intervalSlope_spec (r : Reporter) (b : Round) (emitted : List Line) :
    r.SameBut (r.intervalSlope b emitted).1 ∧
    Sloped r.prev b.early (r.intervalSlope b emitted).1.prev (r.intervalSlope b emitted).2 ∧
    (r.intervalSlope b emitted).2.filterMap Line.reason = if (0 < r.beatCount ∧ r.beatCount % r.analyticsReportEveryBeats = 0 ∧
      emitted.isEmpty) ∧ b.early.analytics ≠ none then [.interval] else [] := by
  unfold intervalSlope
  by_cases hdue : 0 < r.beatCount ∧ r.beatCount % r.analyticsReportEveryBeats = 0 ∧ emitted.isEmpty
  · rw [if_pos hdue]
    refine ⟨emitVasSlope_same .., emitVasSlope_sloped r b .interval, ?_⟩
    rw [emitVasSlope_reason, Round.slopeReading_interval]
    by_cases hnone : b.early.analytics = none
    · rw [if_pos hnone, if_neg fun h => h.2 hnone]
    · rw [if_neg hnone, if_pos ⟨hdue, hnone⟩]
  · rw [if_neg hdue, if_neg fun h => hdue h.1]
    exact ⟨.refl r, .inl ⟨rfl, rfl⟩, rfl⟩

/-- The slopes of a milestone and of an interval: none, or one. -/
theorem slopes_spec (r : Reporter) (b : Round) (crossed : List Milestone) :
    let first := r.milestoneSlope b crossed
    let second := first.1.intervalSlope b first.2
    r.SameBut second.1 ∧ Sloped r.prev b.early second.1.prev (first.2 ++ second.2) ∧
    (first.2 ++ second.2).filterMap Line.reason = if b.early.analytics = none then [] else if crossed ≠ [] then [.milestone]
      else if 0 < r.beatCount ∧ r.beatCount % r.analyticsReportEveryBeats = 0 then [.interval] else [] := by
  intro first second
  obtain ⟨hsame, hsloped, hreason⟩ := milestoneSlope_spec r b crossed
  obtain ⟨hsame', hsloped', hreason'⟩ := intervalSlope_spec first.1 b first.2
  rw [hsame.beatCount, hsame.every] at hreason'
  refine ⟨hsame.trans hsame', ?_, ?_⟩
  · by_cases hempty : first.2.isEmpty = true
    · obtain ⟨hnil, hprev⟩ := hsloped.eq_nil hempty
      rw [show first.2 = [] from hnil, List.nil_append]
      rwa [show first.1.prev = r.prev from hprev] at hsloped'
    · -- a beat that has logged the slope of a milestone logs none for an interval
      have hsecond : second = (first.1, []) := if_neg fun h => hempty h.2.2
      rw [hsecond, List.append_nil]
      exact hsloped
  · rw [List.filterMap_append, hreason, hreason']
    by_cases hnone : b.early.analytics = none
    · rw [if_pos hnone, if_neg fun h => h.2 hnone, if_neg fun h => h.2 hnone]
      rfl
    · rw [if_neg hnone]
      by_cases hcrossed : crossed = []
      · have hfirst : first = (r, []) := if_pos hcrossed
        rw [if_neg fun h => h.1 hcrossed, if_neg (not_not_intro hcrossed), hfirst, List.nil_append]
        simp [hnone]
      · have hfirst : first.2.isEmpty = false := by
          have hfirst : first = r.emitVasSlope b .milestone := if_neg hcrossed
          rcases hsloped with ⟨hnil, -⟩ | ⟨_, _, _, _, _, _, -, -, -, hone⟩
          · have hlogged := emitVasSlope_reason r b .milestone
            rw [← hfirst, show first.2 = [] from hnil, Round.slopeReading_milestone, if_neg hnone] at hlogged
            cases hlogged
          · rw [show first.2 = _ from hone]
            rfl
        rw [if_pos ⟨hcrossed, hnone⟩, if_pos hcrossed, if_neg (by simp [hfirst])]
        rfl

/-- The reason for which the phase machine asks for a slope. -/
def phaseReason (r : Reporter) (b : Round) : Option Reason := (r.monitor.beat b.toBeat).2.findSome? Event.reason?

theorem ofPhases_of_reason {e : Event} {reasonTag : Reason} (h : e.reason? = some reasonTag) : reasonTag.ofPhases = true := by
  cases e with
  | phaseDiff old new =>
    rw [Event.reason?] at h
    split at h
    · cases h; rfl
    · cases h
  | cumulativeVas delta => cases h; rfl

theorem phaseReason_ofPhases {r : Reporter} {b : Round} {reasonTag : Reason} (h : r.phaseReason b = some reasonTag) :
    reasonTag.ofPhases = true := by
  obtain ⟨e, -, he⟩ := List.exists_of_findSome?_eq_some h
  exact ofPhases_of_reason he

theorem phaseSlope_spec (r : Reporter) (b : Round) :
    SameBut { r with monitor := (r.monitor.beat b.toBeat).1 } (r.phaseSlope b).1 ∧
    Sloped r.prev b.late (r.phaseSlope b).1.prev (r.phaseSlope b).2 ∧
    (r.phaseSlope b).2.filterMap Line.reason = if b.late.analytics = none then [] else (r.phaseReason b).toList := by
  unfold phaseSlope
  dsimp only
  cases hreason : r.phaseReason b with
  | none =>
    rw [show List.findSome? _ _ = none from hreason]
    exact ⟨.refl _, .inl ⟨rfl, rfl⟩, (ite_self _).symm⟩
  | some reasonTag =>
    have hlate : b.slopeReading reasonTag = b.late := if_pos (phaseReason_ofPhases hreason)
    rw [show List.findSome? _ _ = some reasonTag from hreason]
    obtain ⟨hsame, hsloped, hlogged⟩ := emitVasSlope_spec { r with monitor := (r.monitor.beat b.toBeat).1 } b reasonTag
    rw [hlate] at hsloped hlogged
    exact ⟨hsame, hsloped, hlogged⟩

/-- The reasons of the slopes of a beat, but for that of the phase machine. -/
def earlyReasons (r : Reporter) (b : Round) : List Reason :=
  if b.early.analytics = none then [] else
    if (crossings largestFreeMilestones b.largestFreeMb r.largestFreeMilestoneFlags).2 ≠ [] then [.milestone] else
    if 0 < r.beatCount ∧ r.beatCount % r.analyticsReportEveryBeats = 0 then [.interval] else []

def lateReasons (r : Reporter) (b : Round) : List Reason := if b.late.analytics = none then [] else (r.phaseReason b).toList

/-- The lines of a beat that is not passive. The slopes stand around the report, the last of them that of the phase
machine. -/
structure Slopes (r : Reporter) (b : Round) (slope slope' slope'' : List Line) : Prop where
  sloped : ∃ prev, Sloped r.prev b.early prev (slope ++ slope') ∧ Sloped prev b.late (r.active b).1.prev slope''
  early : (slope ++ slope').filterMap Line.reason = r.earlyReasons b
  late : slope''.filterMap Line.reason = r.lateReasons b
  lines : (r.active b).2 =
    (crossings milestones b.currentVasMb r.vasMilestoneFlags).2.map (fun m =>
        .crossed m b.currentVasMb r.beatCount b.early.analytics.isSome) ++
      (crossings largestFreeMilestones b.largestFreeMb r.largestFreeMilestoneFlags).2.map (fun m =>
        .crossed m b.largestFreeMb r.beatCount b.early.analytics.isSome) ++
      slope ++ (if r.shouldLog b then [r.local_ b] else []) ++ slope' ++ slope''

theorem active_spec (r : Reporter) (b : Round) : SameBut
    { r.marked b with lastVasMb := b.currentVasMb, monitor := (r.monitor.beat b.toBeat).1 } (r.active b).1 ∧
    ∃ slope slope' slope'', r.Slopes b slope slope' slope'' := by
  let first := (r.marked b).milestoneSlope b (crossings largestFreeMilestones b.largestFreeMb r.largestFreeMilestoneFlags).2
  let second := first.1.intervalSlope b first.2
  obtain ⟨hsame, hsloped, hearly⟩ := slopes_spec (r.marked b) b
    (crossings largestFreeMilestones b.largestFreeMb r.largestFreeMilestoneFlags).2
  obtain ⟨hsame', hsloped', hlate⟩ := phaseSlope_spec { second.1 with lastVasMb := b.currentVasMb } b
  have hmonitor : second.1.monitor = r.monitor := hsame.monitor
  constructor
  · refine ⟨hsame'.passive.trans hsame.passive, hsame'.every.trans hsame.every, hsame'.history.trans hsame.history,
      hsame'.beatCount.trans hsame.beatCount, hsame'.lastVasMb, hsame'.vasFlags.trans hsame.vasFlags,
      hsame'.largestFlags.trans hsame.largestFlags, hsame'.monitor.trans ?_⟩
    show (second.1.monitor.beat b.toBeat).1 = _
    rw [hmonitor]
  · refine ⟨first.2, second.2, (phaseSlope { second.1 with lastVasMb := b.currentVasMb } b).2, ⟨_, hsloped, hsloped'⟩,
      hearly, hlate.trans ?_, rfl⟩
    have hphase : phaseReason { second.1 with lastVasMb := b.currentVasMb } b = r.phaseReason b := by
      show (second.1.monitor.beat b.toBeat).2.findSome? _ = _
      rw [hmonitor]
      rfl
    rw [hphase]
    rfl

theorem beat_passive {r : Reporter} (hp : r.passive = true) (b : Round) :
    r.beat b = ({ r.counted b with lastVasMb := b.currentVasMb }, [(r.counted b).local_ b]) := if_pos hp

theorem beat_active {r : Reporter} (hp : r.passive = false) (b : Round) : r.beat b = (r.counted b).active b :=
  if_neg (ne_true_of_eq_false hp)

/-- What of the thread's variables a beat changes in every mode. -/
theorem beat_spec (r : Reporter) (b : Round) : (r.beat b).1.passive = r.passive ∧ (r.beat b).1.beatCount = r.beatCount + 1 ∧
    (r.beat b).1.lastVasMb = b.currentVasMb := by
  cases hp : r.passive with
  | true =>
    rw [beat_passive hp]
    exact ⟨hp, rfl, rfl⟩
  | false =>
    rw [beat_active hp]
    obtain ⟨hsame, -⟩ := (r.counted b).active_spec b
    exact ⟨hsame.passive.trans hp, hsame.beatCount, hsame.lastVasMb⟩

theorem beat_flags {r : Reporter} (hp : r.passive = false) (b : Round) :
    (r.beat b).1.vasMilestoneFlags = (crossings milestones b.currentVasMb r.vasMilestoneFlags).1 ∧
    (r.beat b).1.largestFreeMilestoneFlags = (crossings largestFreeMilestones b.largestFreeMb r.largestFreeMilestoneFlags).1 := by
  rw [beat_active hp]
  obtain ⟨hsame, -⟩ := (r.counted b).active_spec b
  exact ⟨hsame.vasFlags, hsame.largestFlags⟩

/-! ## What the lines add up to -/

theorem Sloped.vasDelta {prev prev' : Total → ℕ} {s : SlopeReading} {out : List Line} (h : Sloped prev s prev' out) :
    (out.map Line.vasDelta).sum = 0 := by
  rcases h with ⟨rfl, -⟩ | ⟨_, _, _, _, _, _, -, -, -, rfl⟩ <;> rfl

theorem filterMap_crossed (ms : List Milestone) (mb beat : ℕ) (counted : Bool) :
    (ms.map fun m => Line.crossed m mb beat counted).filterMap Line.reason = [] :=
  List.filterMap_eq_nil_iff.2 fun l hl => by
    obtain ⟨m, -, rfl⟩ := List.mem_map.1 hl
    rfl

theorem beat_reasons {r : Reporter} (hp : r.passive = false) (b : Round) :
    (r.beat b).2.filterMap Line.reason = (r.counted b).earlyReasons b ++ (r.counted b).lateReasons b := by
  obtain ⟨-, slope, slope', slope'', hslopes⟩ := (r.counted b).active_spec b
  have hreport : (if (r.counted b).shouldLog b then [(r.counted b).local_ b] else []).filterMap Line.reason = [] := by
    split <;> rfl
  rw [beat_active hp, hslopes.lines, ← hslopes.early, ← hslopes.late]
  simp only [List.filterMap_append]
  rw [filterMap_crossed, filterMap_crossed, hreport, List.append_nil, List.nil_append, List.nil_append]

/-- What of the lines of a beat is about a milestone of one of the two tables. -/
theorem filterMap_crossing {m : Milestone} {table : List Milestone} (hnodup : table.Nodup) (p : Milestone → Bool)
    (mb beat : ℕ) (counted : Bool) :
    ((table.filter p).map fun m' => Line.crossed m' mb beat counted).filterMap (Line.crossing m) =
      if m ∈ table ∧ p m then [beat] else [] := by
  rw [List.filterMap_map]
  have hcomp : (Line.crossing m ∘ fun m' => Line.crossed m' mb beat counted) = fun m' => if m' = m then some beat else none :=
    rfl
  rw [hcomp]
  clear hcomp
  induction table with
  | nil => rfl
  | cons m' table ih =>
    obtain ⟨hm', htable⟩ := List.nodup_cons.1 hnodup
    have ih := ih htable
    by_cases hp : p m'
    · rw [List.filter_cons_of_pos hp, List.filterMap_cons]
      by_cases heq : m' = m
      · subst heq
        rw [if_neg (fun h => hm' h.1)] at ih
        simp [ih, hp]
      · have : m ≠ m' := Ne.symm heq
        simp [heq, this, ih]
    · rw [List.filter_cons_of_neg hp, ih]
      have : m ∈ table ∧ p m ↔ m ∈ m' :: table ∧ p m := by
        constructor
        · exact fun h => ⟨List.mem_cons_of_mem _ h.1, h.2⟩
        · rintro ⟨hmem, hpm⟩
          rcases List.mem_cons.1 hmem with rfl | hmem
          · exact absurd hpm hp
          · exact ⟨hmem, hpm⟩
      simp only [this]

theorem milestones_bits : milestones.Pairwise (·.bit ≠ ·.bit) := by decide

theorem largestFreeMilestones_bits : largestFreeMilestones.Pairwise (·.bit ≠ ·.bit) := by decide

theorem tables_disjoint : ∀ m ∈ milestones, m ∉ largestFreeMilestones := by decide

theorem Sloped.crossing {prev prev' : Total → ℕ} {s : SlopeReading} {out : List Line} (h : Sloped prev s prev' out) (m : Milestone) :
    out.filterMap (Line.crossing m) = [] := by
  rcases h with ⟨rfl, -⟩ | ⟨_, _, _, _, _, _, -, -, -, rfl⟩ <;> rfl

/-- The milestones that a beat logs. -/
theorem beat_crossing {r : Reporter} (hp : r.passive = false) (b : Round) (m : Milestone) :
    (r.beat b).2.filterMap (Line.crossing m) =
      (if m ∈ milestones ∧ (decide (b.currentVasMb < m.thresholdMb) && !r.vasMilestoneFlags.testBit m.bit) = true
        then [r.beatCount + 1] else []) ++
      (if m ∈ largestFreeMilestones ∧
          (decide (b.largestFreeMb < m.thresholdMb) && !r.largestFreeMilestoneFlags.testBit m.bit) = true
        then [r.beatCount + 1] else []) := by
  obtain ⟨-, slope, slope', slope'', hslopes⟩ := (r.counted b).active_spec b
  obtain ⟨prev, hearly, hlate⟩ := hslopes.sloped
  have hfirst := hearly.crossing m
  rw [List.filterMap_append, List.append_eq_nil_iff] at hfirst
  have hreport : (if (r.counted b).shouldLog b then [(r.counted b).local_ b] else []).filterMap (Line.crossing m) = [] := by
    split <;> rfl
  rw [beat_active hp, hslopes.lines]
  simp only [List.filterMap_append]
  rw [hfirst.1, hfirst.2, hlate.crossing, hreport, (crossings_spec milestones_bits _ _).2,
    (crossings_spec largestFreeMilestones_bits _ _).2, filterMap_crossing (by decide), filterMap_crossing (by decide)]
  simp only [List.append_nil]
  rfl

theorem beat_crossing_vas {r : Reporter} (hp : r.passive = false) (b : Round) {m : Milestone} (hm : m ∈ milestones) :
    (r.beat b).2.filterMap (Line.crossing m) =
      if (decide (b.currentVasMb < m.thresholdMb) && !r.vasMilestoneFlags.testBit m.bit) = true then [r.beatCount + 1]
      else [] := by
  rw [beat_crossing hp]
  simp only [hm, tables_disjoint m hm, true_and, false_and, if_false, List.append_nil]

theorem beat_crossing_largest {r : Reporter} (hp : r.passive = false) (b : Round) {m : Milestone}
    (hm : m ∈ largestFreeMilestones) : (r.beat b).2.filterMap (Line.crossing m) =
      if (decide (b.largestFreeMb < m.thresholdMb) && !r.largestFreeMilestoneFlags.testBit m.bit) = true then [r.beatCount + 1]
      else [] := by
  have hother : m ∉ milestones := fun h => tables_disjoint m h hm
  rw [beat_crossing hp]
  simp only [hm, hother, true_and, false_and, if_false, List.nil_append]

/-- The first element with a property, and the flag that there has been one. -/
theorem findIdx_concat {α : Type*} (p : α → Bool) (l : List α) (x : α) : ((l ++ [x]).findIdx? p).map (· + 1) =
    if p x && !l.any p then some (l.length + 1) else (l.findIdx? p).map (· + 1) := by
  rw [List.findIdx?_append]
  rcases hl : l.findIdx? p with _ | i
  · have hnone : l.any p = false := by simpa using List.findIdx?_eq_none_iff.1 hl
    rw [hnone]
    by_cases hx : p x
    · simp [List.findIdx?_cons, hx]
    · simp [List.findIdx?_cons, hx]
  · have hany : l.any p = true := by
      by_contra hno
      have : l.findIdx? p = none := List.findIdx?_eq_none_iff.2 (by simpa using hno)
      simp [this] at hl
    rw [hany]
    simp

/-- Where the flags of a run stand. -/
structure Passed (r : Reporter) (bs : List Round) : Prop where
  passive : r.passive = false
  beatCount : r.beatCount = bs.length
  vas : ∀ m ∈ milestones, r.vasMilestoneFlags.testBit m.bit = bs.any fun b => decide (b.currentVasMb < m.thresholdMb)
  largest : ∀ m ∈ largestFreeMilestones,
    r.largestFreeMilestoneFlags.testBit m.bit = bs.any fun b => decide (b.largestFreeMb < m.thresholdMb)

theorem passed_after (tick slopeWarmupMin every : ℕ) (space : AddressSpace) (snapTick : ℕ) (bs : List Round) :
    Passed ((start false tick slopeWarmupMin every space snapTick).after bs) bs := by
  induction bs using List.reverseRecOn with
  | nil => exact ⟨rfl, rfl, fun m _ => Nat.zero_testBit _, fun m _ => Nat.zero_testBit _⟩
  | append_singleton bs b ih =>
    rw [after, Run.after_append]
    change Passed (((start false tick slopeWarmupMin every space snapTick).after bs).beat b).1 (bs ++ [b])
    obtain ⟨hpassive, hcount, -⟩ := beat_spec ((start false tick slopeWarmupMin every space snapTick).after bs) b
    obtain ⟨hvas, hlargest⟩ := beat_flags ih.passive b
    refine ⟨hpassive.trans ih.passive, ?_, fun m hm => ?_, fun m hm => ?_⟩
    · rw [hcount, ih.beatCount, List.length_append]
      rfl
    · rw [hvas, (crossings_spec milestones_bits _ _).1 m hm, ih.vas m hm, List.any_append]
      simp
    · rw [hlargest, (crossings_spec largestFreeMilestones_bits _ _).1 m hm, ih.largest m hm, List.any_append]
      simp

theorem count_lateReasons (r : Reporter) (b : Round) : (r.lateReasons b).count .milestone = 0 := by
  rw [List.count_eq_zero]
  unfold lateReasons
  split_ifs
  · exact List.not_mem_nil
  · intro h
    cases phaseReason_ofPhases (Option.mem_toList.1 h)

/-- The slopes for milestones are at most the milestones of the largest free block. -/
theorem beat_count {r : Reporter} (hp : r.passive = false) (b : Round) : ((r.beat b).2.filterMap Line.reason).count .milestone ≤
    (largestFreeMilestones.map fun m => ((r.beat b).2.filterMap (Line.crossing m)).length).sum := by
  rw [beat_reasons hp, List.count_append, count_lateReasons, Nat.add_zero, earlyReasons]
  by_cases hnone : (crossings largestFreeMilestones b.largestFreeMb (r.counted b).largestFreeMilestoneFlags).2 = []
  · rw [if_neg (not_not_intro hnone)]
    split_ifs <;> exact Nat.zero_le _
  · obtain ⟨m, hm⟩ := List.exists_mem_of_ne_nil _ hnone
    rw [(crossings_spec largestFreeMilestones_bits _ _).2] at hm
    obtain ⟨hmem, hnew⟩ := List.mem_filter.1 hm
    change (decide (b.largestFreeMb < m.thresholdMb) && !r.largestFreeMilestoneFlags.testBit m.bit) = true at hnew
    have hone : 1 ≤ ((r.beat b).2.filterMap (Line.crossing m)).length := by
      rw [beat_crossing_largest hp b hmem, if_pos hnew]
      exact le_rfl
    have hsum := List.single_le_sum (fun x _ => Nat.zero_le x) _ (List.mem_map_of_mem hmem
      (f := fun m => ((r.beat b).2.filterMap (Line.crossing m)).length))
    refine le_trans ?_ (hone.trans hsum)
    split_ifs <;> decide

theorem lines_count (tick slopeWarmupMin every : ℕ) (space : AddressSpace) (snapTick : ℕ) (bs : List Round) :
    (((start false tick slopeWarmupMin every space snapTick).lines bs).filterMap Line.reason).count .milestone ≤
      (largestFreeMilestones.map fun m => (((start false tick slopeWarmupMin every space snapTick).lines bs).filterMap (Line.crossing m)).length).sum := by
  induction bs using List.reverseRecOn with
  | nil => exact Nat.zero_le _
  | append_singleton bs b ih =>
    have hbeat := beat_count (passed_after tick slopeWarmupMin every space snapTick bs).passive b
    rw [lines, Run.emitted_concat]
    simp only [List.filterMap_append, List.count_append, List.length_append, List.sum_map_add]
    exact Nat.add_le_add ih hbeat

theorem lines_crossing (tick slopeWarmupMin every : ℕ) (space : AddressSpace) (snapTick : ℕ) (bs : List Round) {m : Milestone}
    {mb : Round → ℕ} (hbeat : ∀ bs b, (((start false tick slopeWarmupMin every space snapTick).after bs).beat b).2.filterMap (Line.crossing m) =
      if (decide (mb b < m.thresholdMb) && !bs.any fun b => decide (mb b < m.thresholdMb)) = true then [bs.length + 1] else []) :
    ((start false tick slopeWarmupMin every space snapTick).lines bs).filterMap (Line.crossing m) =
      ((bs.findIdx? fun b => decide (mb b < m.thresholdMb)).map (· + 1)).toList := by
  induction bs using List.reverseRecOn with
  | nil => rfl
  | append_singleton bs b ih =>
    rw [lines, Run.emitted_concat, List.filterMap_append, ih, findIdx_concat]
    change _ ++ (((start false tick slopeWarmupMin every space snapTick).after bs).beat b).2.filterMap (Line.crossing m) = _
    rw [hbeat]
    split
    · rename_i hfirst
      have hnone : (bs.findIdx? fun b => decide (mb b < m.thresholdMb)) = none := by
        simpa [List.findIdx?_eq_none_iff] using (Bool.and_eq_true_iff.1 hfirst).2
      rw [hnone]
      rfl
    · exact List.append_nil _

/-- Each milestone is logged at the first beat below it, and not again; hence at most three slopes are for milestones. -/
theorem milestones_once (tick slopeWarmupMin every : ℕ) (space : AddressSpace) (snapTick : ℕ) (bs : List Round) :
    let lines := (start false tick slopeWarmupMin every space snapTick).lines bs
    (∀ m ∈ milestones, lines.filterMap (Line.crossing m) =
      ((bs.findIdx? fun b => decide (b.currentVasMb < m.thresholdMb)).map (· + 1)).toList) ∧
    (∀ m ∈ largestFreeMilestones, lines.filterMap (Line.crossing m) =
      ((bs.findIdx? fun b => decide (b.largestFreeMb < m.thresholdMb)).map (· + 1)).toList) ∧
    (lines.filterMap Line.reason).count .milestone ≤ 3 := by
  intro lines
  have hlargest : ∀ m ∈ largestFreeMilestones, lines.filterMap (Line.crossing m) =
      ((bs.findIdx? fun b => decide (b.largestFreeMb < m.thresholdMb)).map (· + 1)).toList := by
    intro m hm
    apply lines_crossing
    intro bs b
    have hpassed := passed_after tick slopeWarmupMin every space snapTick bs
    rw [beat_crossing_largest hpassed.passive b hm, hpassed.largest m hm, hpassed.beatCount]
  refine ⟨fun m hm => ?_, hlargest, ?_⟩
  · apply lines_crossing
    intro bs b
    have hpassed := passed_after tick slopeWarmupMin every space snapTick bs
    rw [beat_crossing_vas hpassed.passive b hm, hpassed.vas m hm, hpassed.beatCount]
  · have hone : ∀ m ∈ largestFreeMilestones, (lines.filterMap (Line.crossing m)).length ≤ 1 := by
      intro m hm
      rw [hlargest m hm]
      exact Option.length_toList_le
    calc (lines.filterMap Line.reason).count .milestone
        ≤ (largestFreeMilestones.map fun m => (lines.filterMap (Line.crossing m)).length).sum := lines_count ..
      _ ≤ (largestFreeMilestones.map fun m => (lines.filterMap (Line.crossing m)).length).length • 1 :=
          List.sum_le_card_nsmul _ 1 fun x hx => by
            obtain ⟨m, hm, rfl⟩ := List.mem_map.1 hx
            exact hone m hm
      _ = 3 := rfl

end Reporter

end Ts3Vas.HeartbeatMonitor
