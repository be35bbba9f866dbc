/-
The rates of HitchDetector.cpp. Three counters go up from any hook; CheckApiFrequency measures them
against their values at the last completed check. The first call notes the time only, so the first
window reaches back to the start of the process.
-/
import Mathlib.Tactic
import Ts3Vas.Lib.Run
import Ts3Vas.Lib.Window

namespace Ts3Vas.HitchDetector

/-! ## CheckApiFrequency -/

/-- A kind of call that is counted. -/
inductive Kind
  | readFile | alloc | free
  deriving DecidableEq, Repr

structure Settings where
  frequencyCheckIntervalMs : UInt32
  frequencyThreshold : Kind → Int64

/-- Where no environment variable says otherwise. -/
def Settings.default : Settings where
  frequencyCheckIntervalMs := 250
  frequencyThreshold
    | .readFile => 2000
    | .alloc => 20000
    | .free => 20000

/-- The counters, and the static variables of `CheckApiFrequency`. -/
structure Detector where
  /-- `m_readFileCount`, `m_allocCount` and `m_freeCount`. -/
  count : Kind → Int64
  lastCheckTime : UInt32
  /-- `lastReadFileCount`, `lastAllocCount` and `lastFreeCount`. -/
  lastCount : Kind → Int64

/-- What a completed check compares with the thresholds. -/
structure Report where
  deltaT : UInt32
  delta : Kind → Int64

/-- The kinds that are warned about. -/
def Report.hitches (cfg : Settings) (r : Report) : List Kind :=
  [.readFile, .alloc, .free].filter fun k => cfg.frequencyThreshold k < r.delta k

namespace Detector

def start : Detector := ⟨fun _ => 0, 0, fun _ => 0⟩

/-- `IncrementReadFile`, `IncrementAlloc` and `IncrementFree`. -/
def increment (d : Detector) (k : Kind) : Detector := { d with count := Function.update d.count k (d.count k + 1) }

/-- `CheckApiFrequency` at a tick, with the report if the check is completed. -/
def checkApiFrequency (cfg : Settings) (d : Detector) (tick : UInt32) : Detector × Option Report :=
  if d.lastCheckTime = 0 then ({ d with lastCheckTime := tick }, none)
  else
    let deltaT := tick - d.lastCheckTime
    if deltaT < cfg.frequencyCheckIntervalMs then (d, none)
    else (⟨d.count, tick, d.count⟩, some ⟨deltaT, fun k => d.count k - d.lastCount k⟩)

end Detector

inductive Act
  | increment (k : Kind)
  | check (tick : UInt32)
  deriving DecidableEq, Repr

def step (cfg : Settings) (d : Detector) : Act → Detector
  | .increment k => d.increment k
  | .check tick => (d.checkApiFrequency cfg tick).1

abbrev after (cfg : Settings) (run : List Act) : Detector := Run.after (step cfg) .start run

/-- What the act of that number reports: something only if it is a check that is completed. -/
def reportAt (cfg : Settings) (run : List Act) (i : ℕ) : Option Report :=
  match run[i]? with
  | some (.check tick) => ((after cfg (run.take i)).checkApiFrequency cfg tick).2
  | _ => none

/-! ## Windows -/

/-- The first call of `CheckApiFrequency`. -/
def FirstCall (run : List Act) (i : ℕ) : Prop :=
  (∃ tick, run[i]? = some (.check tick)) ∧ ∀ l < i, ∀ tick, run[l]? ≠ some (.check tick)

/-- A completed check and the boundary before it: the previous completed check, or the first call. -/
abbrev Window (cfg : Settings) (run : List Act) (i j : ℕ) : Prop :=
  Marks.Window (FirstCall run) (fun l => (reportAt cfg run l).isSome) i j

/-- The calls of a kind after one act and before another. -/
def callsBetween (run : List Act) (i j : ℕ) (k : Kind) : ℕ := ((run.take j).drop (i + 1)).count (.increment k)

/-- Windows count their own calls: the deltas of a completed check are the calls since its boundary, and
each call after the first check and before a completed one lies in exactly one window. -/
structure OwnCalls (cfg : Settings) (run : List Act) : Prop where
  delta : ∀ j r, reportAt cfg run j = some r →
    ∃ i, Window cfg run i j ∧ ∀ k, r.delta k = Int64.ofNat (callsBetween run i j k)
  once : ∀ n k, run[n]? = some (.increment k) → (∃ i < n, FirstCall run i) → (∃ j > n, (reportAt cfg run j).isSome) →
    ∃! w : ℕ × ℕ, Window cfg run w.1 w.2 ∧ w.1 < n ∧ n < w.2

/-- The tick of the first check, 0 where there is none: a tick of 0 does not count as one. -/
def firstTick : List Act → UInt32
  | [] => 0
  | .increment _ :: run => firstTick run
  | .check tick :: run => if tick = 0 then firstTick run else tick

/-- No check comes the interval or more after the first one. -/
def Early (cfg : Settings) (run : List Act) : Prop :=
  ∀ j tick, run[j]? = some (.check tick) → firstTick (run.take j) ≠ 0 →
    tick - firstTick (run.take j) < cfg.frequencyCheckIntervalMs

section
variable {cfg : Settings} {run : List Act} {i j l n : ℕ} {k : Kind} {tick : UInt32} {r : Report}

/-! ## One call -/

theorem check_first {d : Detector} (h : d.lastCheckTime = 0) : d.checkApiFrequency cfg tick = ({ d with lastCheckTime := tick }, none) := by
  rw [Detector.checkApiFrequency, if_pos h]

/-- A check either leaves the counts and their baseline, or is completed and takes the counts over. -/
theorem check_cases (cfg : Settings) (d : Detector) (tick : UInt32) :
    ((d.checkApiFrequency cfg tick).2 = none ∧ (d.checkApiFrequency cfg tick).1.lastCount = d.lastCount) ∨
      (d.lastCheckTime ≠ 0 ∧ (d.checkApiFrequency cfg tick).2 = some ⟨tick - d.lastCheckTime, fun k => d.count k - d.lastCount k⟩ ∧
        (d.checkApiFrequency cfg tick).1.lastCount = d.count) := by
  by_cases h0 : d.lastCheckTime = 0
  · rw [check_first h0]
    exact .inl ⟨rfl, rfl⟩
  · unfold Detector.checkApiFrequency
    rw [if_neg h0]
    dsimp only
    split
    · exact .inl ⟨rfl, rfl⟩
    · exact .inr ⟨h0, rfl, rfl⟩

/-- A check that is not completed sets the time where it is not set. -/
theorem check_none {d : Detector} (h : (d.checkApiFrequency cfg tick).2 = none) :
    (d.checkApiFrequency cfg tick).1.lastCheckTime = if d.lastCheckTime = 0 then tick else d.lastCheckTime := by
  unfold Detector.checkApiFrequency at h ⊢
  dsimp only at h ⊢
  split_ifs at h ⊢
  · rfl
  · rfl

theorem check_none_iff {d : Detector} : (d.checkApiFrequency cfg tick).2 = none ↔
    (d.lastCheckTime ≠ 0 → tick - d.lastCheckTime < cfg.frequencyCheckIntervalMs) := by
  unfold Detector.checkApiFrequency
  dsimp only
  split_ifs with h0 hlt
  · exact iff_of_true rfl (absurd h0)
  · exact iff_of_true rfl fun _ => hlt
  · exact iff_of_false not_false fun h => hlt (h h0)

theorem check_count (d : Detector) (tick : UInt32) : (d.checkApiFrequency cfg tick).1.count = d.count := by
  unfold Detector.checkApiFrequency
  dsimp only
  split_ifs <;> rfl

/-! ## The counters along a run -/

theorem after_concat (cfg : Settings) (run : List Act) (a : Act) : after cfg (run ++ [a]) = step cfg (after cfg run) a :=
  Run.after_append (step cfg) .start run [a]

/-- The counters are the calls so far. -/
theorem after_count (cfg : Settings) (run : List Act) (k : Kind) :
    (after cfg run).count k = Int64.ofNat (run.count (.increment k)) := by
  induction run using List.reverseRecOn with
  | nil => rfl
  | append_singleton run a ih =>
    rw [after_concat, List.count_append, Int64.ofNat_add, ← ih]
    cases a with
    | check tick => simp [step, check_count]
    | increment k' =>
      by_cases hk : k' = k
      · simp [step, Detector.increment, hk]
      · simp [step, Detector.increment, hk, Function.update_of_ne (Ne.symm hk)]

/-- Before the first call the time is not set. -/
theorem after_unchecked (h : ∀ tick, .check tick ∉ run) : (after cfg run).lastCheckTime = 0 := by
  induction run using List.reverseRecOn with
  | nil => rfl
  | append_singleton run a ih =>
    simp only [List.mem_append, List.mem_singleton, not_or] at h
    rw [after_concat]
    cases a with
    | check tick => exact absurd rfl (h tick).2
    | increment k => exact ih fun tick => (h tick).1

/-! ## The completed checks -/

theorem reportAt_some (h : reportAt cfg run i = some r) : ∃ tick, run[i]? = some (.check tick) ∧
    ((after cfg (run.take i)).checkApiFrequency cfg tick).2 = some r := by
  unfold reportAt at h
  split at h
  · next tick hi => exact ⟨tick, hi, h⟩
  · cases h

/-- A completed check has a check before it. -/
theorem reportAt_isSome (h : (reportAt cfg run i).isSome) : (∃ tick, run[i]? = some (.check tick)) ∧
    ∃ l < i, ∃ tick, run[l]? = some (.check tick) := by
  obtain ⟨r, hr⟩ := Option.isSome_iff_exists.1 h
  obtain ⟨tick, hi, hr⟩ := reportAt_some hr
  refine ⟨⟨tick, hi⟩, ?_⟩
  rcases check_cases cfg (after cfg (run.take i)) tick with ⟨hnone, -⟩ | ⟨hset, -, -⟩
  · rw [hnone] at hr
    cases hr
  · by_contra hno
    push Not at hno
    refine hset (after_unchecked fun u hu => ?_)
    obtain ⟨l, hl, hget⟩ := List.mem_take_iff_getElem.1 hu
    exact hno l (by omega) u (by rw [List.getElem?_eq_getElem (by omega), hget])

theorem FirstCall.unique (hi : FirstCall run i) (hj : FirstCall run j) : i = j := by
  obtain ⟨ti, hti⟩ := hi.1
  obtain ⟨tj, htj⟩ := hj.1
  rcases lt_trichotomy i j with hlt | heq | hgt
  · exact absurd hti (hj.2 i hlt ti)
  · exact heq
  · exact absurd htj (hi.2 j hgt tj)

theorem FirstCall.lt (hi : FirstCall run i) (h : (reportAt cfg run j).isSome) : i < j := by
  obtain ⟨-, l, hl, tick, htick⟩ := reportAt_isSome h
  by_contra hge
  exact hi.2 l (by omega) tick htick

/-- The first call comes before every completed check. -/
theorem firstCall_origin (cfg : Settings) (run : List Act) : Marks.Origin (FirstCall run) fun l => (reportAt cfg run l).isSome :=
  ⟨fun _ _ => FirstCall.unique, fun _ _ => FirstCall.lt⟩

theorem exists_firstCall (h : (reportAt cfg run j).isSome) : ∃ i, FirstCall run i := by
  have hex : ∃ i, ∃ tick, run[i]? = some (Act.check tick) := ⟨j, (reportAt_isSome h).1⟩
  classical
  refine ⟨Nat.find hex, Nat.find_spec hex, ?_⟩
  intro l hl tick htick
  exact Nat.find_min hex hl ⟨tick, htick⟩

theorem reportAt_take (hl : l < n) : reportAt cfg (run.take n) l = reportAt cfg run l := by
  unfold reportAt
  rw [List.getElem?_take_of_lt hl, List.take_take, Nat.min_eq_left hl.le]

theorem reportAt_length (h : run.length ≤ l) : reportAt cfg run l = none := by
  unfold reportAt
  rw [List.getElem?_eq_none h]

theorem lt_length_of_reportAt (h : (reportAt cfg run l).isSome) : l < run.length := by
  obtain ⟨tick, htick⟩ := (reportAt_isSome h).1
  exact (List.getElem?_eq_some_iff.1 htick).1

/-- A completed check of the first `n` acts is one of the run. -/
theorem reportAt_of_take (h : (reportAt cfg (run.take n) l).isSome) : l < n ∧ (reportAt cfg run l).isSome := by
  have hlt := (lt_length_of_reportAt h).trans_le (List.length_take_le n run)
  rw [reportAt_take hlt] at h
  exact ⟨hlt, h⟩

theorem reportAt_append (run' : List Act) (hl : l < run.length) : reportAt cfg (run ++ run') l = reportAt cfg run l := by
  have htake : reportAt cfg ((run ++ run').take run.length) l = reportAt cfg (run ++ run') l := reportAt_take hl
  rw [← htake, List.take_left' rfl]

theorem reportAt_concat (a : Act) : reportAt cfg (run ++ [a]) run.length =
    match a with
    | .check tick => ((after cfg run).checkApiFrequency cfg tick).2
    | .increment _ => none := by
  unfold reportAt
  rw [List.getElem?_concat_length, List.take_left' rfl]
  cases a <;> rfl

/-- What an act reports, and the baseline of the counts after it. -/
theorem lastCount_concat (cfg : Settings) (run : List Act) (a : Act) :
    (reportAt cfg (run ++ [a]) run.length = none ∧ (after cfg (run ++ [a])).lastCount = (after cfg run).lastCount) ∨
      ((reportAt cfg (run ++ [a]) run.length).isSome ∧ (after cfg (run ++ [a])).lastCount = (after cfg run).count) := by
  rw [reportAt_concat, after_concat]
  cases a with
  | increment k => exact .inl ⟨rfl, rfl⟩
  | check tick =>
    rcases check_cases cfg (after cfg run) tick with ⟨hnone, hlast⟩ | ⟨-, hsome, hlast⟩
    · exact .inl ⟨hnone, hlast⟩
    · exact .inr ⟨Option.isSome_iff_exists.2 ⟨_, hsome⟩, hlast⟩

/-- The baseline of the counts: zero until a check is completed, and from then on what they were at the
last completed check. -/
theorem after_lastCount (cfg : Settings) (run : List Act) :
    ((∀ l, reportAt cfg run l = none) ∧ (after cfg run).lastCount = fun _ => 0) ∨
      ∃ i, (reportAt cfg run i).isSome ∧ (∀ l, i < l → reportAt cfg run l = none) ∧
        (after cfg run).lastCount = (after cfg (run.take i)).count := by
  induction run using List.reverseRecOn with
  | nil => exact .inl ⟨fun l => reportAt_length (Nat.zero_le l), rfl⟩
  | append_singleton run a ih =>
    have hbeyond : ∀ l, run.length < l → reportAt cfg (run ++ [a]) l = none := by
      intro l hl
      apply reportAt_length
      rw [List.length_append, List.length_singleton]
      omega
    rcases lastCount_concat cfg run a with ⟨hnone, hlast⟩ | ⟨hsome, hlast⟩
    · have hsame : ∀ l, reportAt cfg (run ++ [a]) l = reportAt cfg run l := by
        intro l
        rcases lt_trichotomy l run.length with hlt | rfl | hgt
        · exact reportAt_append [a] hlt
        · rw [hnone, reportAt_length le_rfl]
        · rw [hbeyond l hgt, reportAt_length hgt.le]
      simp only [hsame, hlast]
      refine ih.imp_right ?_
      rintro ⟨i, hi, hlater, hbase⟩
      have hlt := lt_length_of_reportAt hi
      exact ⟨i, hi, hlater, by rw [hbase, List.take_append_of_le_length hlt.le]⟩
    · exact .inr ⟨run.length, hsome, hbeyond, by rw [hlast, List.take_left' rfl]⟩

/-! ## Runs without a completed check -/

theorem firstTick_append (run run' : List Act) :
    firstTick (run ++ run') = if firstTick run = 0 then firstTick run' else firstTick run := by
  induction run with
  | nil => rfl
  | cons a run ih =>
    cases a with
    | increment k => exact ih
    | check tick =>
      rw [List.cons_append, firstTick, firstTick, ih]
      by_cases h : tick = 0
      · rw [if_pos h, if_pos h]
      · rw [if_neg h, if_neg h, if_neg h]

/-- Until a check is completed, the time is that of the first check. -/
theorem after_lastCheckTime (h : ∀ l < run.length, reportAt cfg run l = none) :
    (after cfg run).lastCheckTime = firstTick run := by
  induction run using List.reverseRecOn with
  | nil => rfl
  | append_singleton run a ih =>
    have hrun : ∀ l < run.length, reportAt cfg run l = none := by
      intro l hl
      rw [← reportAt_append [a] hl]
      exact h l (by rw [List.length_append]; omega)
    have hlast := h run.length (by rw [List.length_append, List.length_singleton]; omega)
    rw [reportAt_concat] at hlast
    rw [after_concat, firstTick_append, ← ih hrun]
    cases a with
    | increment k =>
      have hstep : (step cfg (after cfg run) (.increment k)).lastCheckTime = (after cfg run).lastCheckTime := rfl
      rw [hstep, firstTick, firstTick]
      split
      · next h0 => exact h0
      · rfl
    | check tick =>
      have htick : firstTick [.check tick] = tick := by
        rw [firstTick, firstTick]
        split
        · next h0 => exact h0.symm
        · rfl
      rw [step, check_none hlast, htick]

/-- Early checks are those that are never completed. -/
theorem early_iff : Early cfg run ↔ ∀ j, reportAt cfg run j = none := by
  constructor
  · intro h j
    induction j using Nat.strong_induction_on with
    | _ j ih =>
      have hbefore : ∀ l < (run.take j).length, reportAt cfg (run.take j) l = none := by
        intro l hl
        have hlj : l < j := hl.trans_le (List.length_take_le j run)
        rw [reportAt_take hlj]
        exact ih l hlj
      unfold reportAt
      split
      · next tick hj =>
        rw [check_none_iff, after_lastCheckTime hbefore]
        exact h j tick hj
      · rfl
  · intro h j tick hj
    have hbefore : ∀ l < (run.take j).length, reportAt cfg (run.take j) l = none := by
      intro l hl
      rw [reportAt_take (hl.trans_le (List.length_take_le j run))]
      exact h l
    have hnone := h j
    unfold reportAt at hnone
    rw [hj] at hnone
    dsimp only at hnone
    rwa [check_none_iff, after_lastCheckTime hbefore] at hnone

/-! ## The deltas -/

theorem reportAt_delta (h : reportAt cfg run j = some r) (k : Kind) :
    r.delta k = Int64.ofNat ((run.take j).count (.increment k)) - (after cfg (run.take j)).lastCount k := by
  obtain ⟨tick, -, hr⟩ := reportAt_some h
  rcases check_cases cfg (after cfg (run.take j)) tick with ⟨hnone, -⟩ | ⟨-, hsome, -⟩
  · rw [hnone] at hr
    cases hr
  · rw [hsome] at hr
    cases hr
    rw [← after_count cfg]

/-- The calls up to an act are those before an earlier check and those between the two. -/
theorem count_split (hi : run[i]? = some (.check tick)) (hlt : i < j) (k : Kind) :
    (run.take j).count (.increment k) = (run.take i).count (.increment k) + callsBetween run i j k := by
  have hlen : i < (run.take j).length := by
    have := (List.getElem?_eq_some_iff.1 hi).1
    rw [List.length_take]
    omega
  have hget : (run.take j)[i] = .check tick := by
    rw [List.getElem_take]
    exact (List.getElem?_eq_some_iff.1 hi).2
  calc (run.take j).count (.increment k)
      = ((run.take j).take i ++ (run.take j).drop i).count (.increment k) := by rw [List.take_append_drop]
    _ = (run.take i).count (.increment k) + callsBetween run i j k := by
      rw [List.drop_eq_getElem_cons hlen, hget, List.count_append, List.count_cons_of_ne (by simp), List.take_take,
        Nat.min_eq_left hlt.le]
      rfl

theorem Window.opens_check (h : Window cfg run i j) : ∃ tick, run[i]? = some (.check tick) :=
  h.opens.elim (·.1) fun hi => (reportAt_isSome hi).1

/-- A window that a completed check opens has its own calls as deltas. -/
theorem Window.delta (h : Window cfg run i j) (hi : (reportAt cfg run i).isSome) (hj : reportAt cfg run j = some r) (k : Kind) :
    r.delta k = Int64.ofNat (callsBetween run i j k) := by
  obtain ⟨tick, htick⟩ := h.opens_check
  rw [← reportAt_take h.lt] at hi
  have hbase : (after cfg (run.take j)).lastCount = (after cfg (run.take i)).count := by
    rcases after_lastCount cfg (run.take j) with ⟨hnone, -⟩ | ⟨l, hl, hlater, hbase⟩
    · rw [hnone] at hi
      cases hi
    · obtain ⟨hlj, hl⟩ := reportAt_of_take hl
      rcases lt_trichotomy i l with hlt | rfl | hgt
      · exact absurd hl (h.quiet l hlt hlj)
      · rw [hbase, List.take_take, Nat.min_eq_left hlj.le]
      · rw [hlater i hgt] at hi
        cases hi
  rw [reportAt_delta hj, hbase, after_count, count_split htick h.lt, Int64.ofNat_add, Int64.add_comm, Int64.add_sub_cancel]

/-- The first window has all calls so far. -/
theorem Window.delta_first (h : Window cfg run i j) (hi : FirstCall run i) (hj : reportAt cfg run j = some r) (k : Kind) :
    r.delta k = Int64.ofNat ((run.take i).count (.increment k)) + Int64.ofNat (callsBetween run i j k) := by
  obtain ⟨tick, htick⟩ := h.opens_check
  have hbase : (after cfg (run.take j)).lastCount = fun _ => 0 := by
    rcases after_lastCount cfg (run.take j) with ⟨-, hbase⟩ | ⟨l, hl, -, -⟩
    · exact hbase
    · obtain ⟨hlj, hl⟩ := reportAt_of_take hl
      exact absurd hl (h.quiet l (hi.lt hl) hlj)
  rw [reportAt_delta hj, hbase, Int64.sub_zero, count_split htick h.lt, Int64.ofNat_add]

/-! ## The windows of a run -/

/-- A call after the first check lies in the window of the next completed one, and in no other. -/
theorem once (hn : run[n]? = some (.increment k)) (hfirst : ∃ i < n, FirstCall run i) (hlater : ∃ j > n, (reportAt cfg run j).isSome) :
    ∃! w : ℕ × ℕ, Window cfg run w.1 w.2 ∧ w.1 < n ∧ n < w.2 := by
  obtain ⟨i, hi, hcall⟩ := hfirst
  refine Marks.existsUnique_window (firstCall_origin cfg run) hcall hi ?_ hlater
  intro hsome
  obtain ⟨tick, htick⟩ := (reportAt_isSome hsome).1
  rw [hn] at htick
  cases htick

/-- Windows count their own calls, exactly where no call was counted before the first check, or all
checks are early. -/
theorem ownCalls_iff (cfg : Settings) (run : List Act) : OwnCalls cfg run ↔
    Early cfg run ∨ ∀ i, FirstCall run i → ∀ k, Int64.ofNat ((run.take i).count (.increment k)) = 0 := by
  rw [early_iff]
  constructor
  · intro h
    by_cases hsome : ∃ j, (reportAt cfg run j).isSome
    · right
      intro i hi k
      -- the first completed check
      have hj := Nat.find_spec hsome
      have ho := firstCall_origin cfg run
      have hw : Window cfg run i (Nat.find hsome) := Marks.window_first ho hi hj fun l hl => Nat.find_min hsome hl
      obtain ⟨r, hr⟩ := Option.isSome_iff_exists.1 hj
      obtain ⟨i', hw', hdelta⟩ := h.delta _ r hr
      have heq := hw.delta_first hi hr k
      rw [hdelta k, ← Marks.Window.unique hw hw' ho] at heq
      exact Int64.add_eq_right.1 heq.symm
    · left
      intro j
      rw [← Option.not_isSome_iff_eq_none]
      exact fun h => hsome ⟨j, h⟩
  · intro h
    refine ⟨fun j r hr => ?_, fun n k hn hfirst hlater => once hn hfirst hlater⟩
    have hj : (reportAt cfg run j).isSome := Option.isSome_iff_exists.2 ⟨r, hr⟩
    obtain ⟨f, hf⟩ := exists_firstCall hj
    obtain ⟨i, hw⟩ := Marks.exists_window (firstCall_origin cfg run) hf hj
    refine ⟨i, hw, fun k => ?_⟩
    rcases h with hnone | hzero
    · rw [hnone] at hr
      cases hr
    · rcases hw.opens with hfirst | hsome
      · rw [Window.delta_first hw hfirst hr, hzero i hfirst k, Int64.zero_add]
      · exact Window.delta hw hsome hr k

end

/-- 2001 reads while the game starts, the first call, and 250 ms later another one: no read lies between
the two, and a hitch is reported. -/
def busyStart : List Act := List.replicate 2001 (.increment .readFile) ++ [.check 1000, .check 1250]

theorem firstCall_busyStart : FirstCall busyStart 2001 := by
  refine ⟨⟨1000, by decide +kernel⟩, ?_⟩
  intro l hl tick h
  rw [busyStart, List.getElem?_append_left (by rwa [List.length_replicate]), List.getElem?_replicate, if_pos hl] at h
  cases h

theorem busyStart_hitch : FirstCall busyStart 2001 ∧ callsBetween busyStart 2001 2002 .readFile = 0 ∧
    (reportAt .default busyStart 2002).map (fun r => (r.delta .readFile, r.hitches .default)) = some (2001, [.readFile]) ∧
    ¬ OwnCalls .default busyStart := by
  have hcalls : callsBetween busyStart 2001 2002 .readFile = 0 := by decide +kernel
  have hreport : (reportAt .default busyStart 2002).map (fun r => (r.delta .readFile, r.hitches .default)) = some (2001, [.readFile]) := by
    decide +kernel
  refine ⟨firstCall_busyStart, hcalls, hreport, fun h => ?_⟩
  obtain ⟨r, hr, heq⟩ := Option.map_eq_some_iff.1 hreport
  obtain ⟨i, hw, hdelta⟩ := h.delta 2002 r hr
  have hi : i = 2001 := by
    rcases hw.opens with hfirst | hsome
    · exact hfirst.unique firstCall_busyStart
    · have := firstCall_busyStart.lt hsome
      have := hw.lt
      omega
  have hreads := hdelta .readFile
  rw [hi, hcalls, (Prod.mk.inj heq).1] at hreads
  exact absurd hreads (by decide)

end Ts3Vas.HitchDetector
