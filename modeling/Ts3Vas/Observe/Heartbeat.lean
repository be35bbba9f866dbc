/-
The phase machine of HeartbeatMonitor.cpp. Each beat samples the free address space in bytes; a phase
change takes a snapshot that adds the regions up in megabytes, and the next beat is measured against it.
A beat in passive mode does not reach the machine and is not modelled; neither are the log lines but for
the two that the machine's decisions print.
-/
import Mathlib.Tactic
import Ts3Vas.Lib.Run

namespace Ts3Vas.HeartbeatMonitor

/-! ## The walk over the address space -/

inductive MemState
  | free
  | commit
  | reserve
  deriving DecidableEq, Repr

inductive MemType
  | priv
  | image
  | mapped
  deriving DecidableEq, Repr

/-- What the loops read of a `MEMORY_BASIC_INFORMATION`. -/
structure Region where
  base : ℕ
  size : ℕ
  state : MemState
  type : MemType
  deriving DecidableEq, Repr

def MB : ℕ := 1024 * 1024

/-- The regions follow one another from `addr` on and end below 2^32. -/
def Follows : ℕ → List Region → Prop
  | addr, [] => addr < 2 ^ 32
  | addr, r :: rs => r.base = addr ∧ 0 < r.size ∧ Follows (addr + r.size) rs

instance decidableFollows : (addr : ℕ) → (rs : List Region) → Decidable (Follows addr rs)
  | addr, [] => inferInstanceAs (Decidable (addr < 2 ^ 32))
  | addr, r :: rs =>
    have := decidableFollows (addr + r.size) rs
    inferInstanceAs (Decidable (_ ∧ _ ∧ _))

/-- The address space, as VirtualQuery reports it. -/
structure AddressSpace where
  regions : List Region
  follows : Follows 0 regions

/-- The regions that a walk from `addr` meets: the loop that both measures share, with its test for an
address that does not advance. -/
def walk : ℕ → List Region → List Region
  | _, [] => []
  | addr, r :: rs =>
    let next := (r.base + r.size) % 2 ^ 32
    r :: if next ≤ addr then [] else walk next rs

/-- Addition of DWORDs. -/
def add32 (a b : ℕ) : ℕ := (a + b) % 2 ^ 32

/-- The loop body of `GetProcessMemoryInfo`: the free bytes so far, and the largest free block. -/
def sample (acc : ℕ × ℕ) (r : Region) : ℕ × ℕ :=
  if r.state = .free then (add32 acc.1 r.size, if acc.2 < r.size then r.size else acc.2) else acc

/-- `GetProcessMemoryInfo`. -/
def getProcessMemoryInfo (space : AddressSpace) : ℕ × ℕ := (walk 0 space.regions).foldl sample (0, 0)

/-- `VasPhaseSnapshot`, but for the counters of allocations. -/
structure VasPhaseSnapshot where
  totalFreeMb : ℕ
  largestFreeMb : ℕ
  freeRegions : ℕ
  freeBucket : List ℕ
  commitPrivateMb : ℕ
  commitImageMb : ℕ
  commitMappedMb : ℕ
  reserveMb : ℕ
  reservePrivateMb : ℕ
  reserveMappedMb : ℕ
  beat : ℕ
  tickMs : ℕ
  deriving DecidableEq, Repr

/-- The bucket of a free region of so many megabytes. -/
def bucketOf (mb : ℕ) : ℕ :=
  if mb < 1 then 0 else if mb < 4 then 1 else if mb < 16 then 2 else if mb < 64 then 3 else if mb < 256 then 4 else 5

/-- The loop body of `CaptureVasPhaseSnapshot`. -/
def VasPhaseSnapshot.count (out : VasPhaseSnapshot) (r : Region) : VasPhaseSnapshot :=
  let mb := r.size / MB
  match r.state with
  | .free =>
    { out with
      freeRegions := add32 out.freeRegions 1
      totalFreeMb := add32 out.totalFreeMb mb
      largestFreeMb := if out.largestFreeMb < mb then mb else out.largestFreeMb
      freeBucket := out.freeBucket.modify (bucketOf mb) (add32 1) }
  | .commit =>
    match r.type with
    | .priv => { out with commitPrivateMb := add32 out.commitPrivateMb mb }
    | .image => { out with commitImageMb := add32 out.commitImageMb mb }
    | .mapped => { out with commitMappedMb := add32 out.commitMappedMb mb }
  | .reserve =>
    match r.type with
    | .mapped => { out with reserveMb := add32 out.reserveMb mb, reserveMappedMb := add32 out.reserveMappedMb mb }
    | _ => { out with reserveMb := add32 out.reserveMb mb, reservePrivateMb := add32 out.reservePrivateMb mb }

/-- `CaptureVasPhaseSnapshot`. -/
def captureVasPhaseSnapshot (space : AddressSpace) (beat tickMs : ℕ) : VasPhaseSnapshot :=
  (walk 0 space.regions).foldl VasPhaseSnapshot.count ⟨0, 0, 0, List.replicate 6 0, 0, 0, 0, 0, 0, 0, beat, tickMs⟩

/-! ## The phase machine -/

inductive Phase
  | postInject
  | mainMenuStable
  | worldLoadDetected
  | postWorldStable
  | worldExitDetected
  deriving DecidableEq, Repr

/-- What a beat logs: a phase change, or the warning about free memory that came back. -/
inductive Event
  | phaseDiff (old new : Phase)
  | cumulativeVas (delta : ℤ)
  deriving DecidableEq, Repr

/-- The thread's variables. -/
structure Monitor where
  phase : Phase
  beatCount : ℕ
  stableStreak : ℕ
  phaseSnap : VasPhaseSnapshot
  prevSnap : VasPhaseSnapshot
  mapViewQuietStreak : ℕ
  prevMapViewPackageCount : ℕ
  /-- `worldEntrySnap.tickMs`. -/
  worldEntryTickMs : ℕ
  worldEntrySnapTaken : Bool

/-- What a beat reads: the address space as the sample and as a snapshot walk it, the counter of
mapped packages, and the clock where the world entry is noted, where the dwell is taken and at the end. -/
structure Beat where
  sampled : AddressSpace
  captured : AddressSpace
  mapViewPackage : ℕ
  entryTick : ℕ
  dwellTick : ℕ
  snapTick : ℕ

def kMinWorldMs : ℕ := 45000

/-- `current_vas_mb`. -/
def Beat.currentVasMb (b : Beat) : ℕ := (getProcessMemoryInfo b.sampled).1 / MB

/-- `largest_free_mb`. -/
def Beat.largestFreeMb (b : Beat) : ℕ := (getProcessMemoryInfo b.sampled).2 / MB

namespace Monitor

/-- `vasDelta`: megabytes, far from the bounds of an int. -/
def vasDelta (m : Monitor) (b : Beat) : ℤ := (b.currentVasMb : ℤ) - m.prevSnap.totalFreeMb

def isStable (m : Monitor) (b : Beat) : Bool := -50 < m.vasDelta b && m.vasDelta b < 50

/-- The beat's counters and streaks, and the world-entry snapshot of the first beat in the world. -/
def counted (m : Monitor) (b : Beat) : Monitor :=
  { m with
    beatCount := add32 m.beatCount 1
    mapViewQuietStreak := if b.mapViewPackage = m.prevMapViewPackageCount then add32 m.mapViewQuietStreak 1 else 0
    prevMapViewPackageCount := b.mapViewPackage
    stableStreak := if m.isStable b then add32 m.stableStreak 1 else 0
    worldEntryTickMs := if m.phase = .postWorldStable ∧ m.worldEntrySnapTaken = false then b.entryTick else m.worldEntryTickMs
    worldEntrySnapTaken := m.worldEntrySnapTaken || m.phase = .postWorldStable }

/-- The phase that the beat changes to, if it does. -/
def transition (m : Monitor) (b : Beat) : Option Phase :=
  let c := m.counted b
  match m.phase with
  | .postInject => if 3 ≤ c.stableStreak ∧ 3 ≤ c.beatCount then some .mainMenuStable else none
  | .mainMenuStable => if m.vasDelta b ≤ -200 then some .worldLoadDetected else none
  | .worldLoadDetected => if 3 ≤ c.stableStreak then some .postWorldStable else none
  | .postWorldStable =>
    if kMinWorldMs ≤ (b.dwellTick + 2 ^ 64 - c.worldEntryTickMs) % 2 ^ 64 ∧ 3 ≤ c.mapViewQuietStreak then some .worldExitDetected else none
  | .worldExitDetected => if 3 ≤ c.stableStreak then some .mainMenuStable else none

/-- A phase change: the snapshot becomes the base of the phase, and of the next beat. -/
def changeTo (m : Monitor) (b : Beat) (phase : Phase) : Monitor :=
  let curSnap := captureVasPhaseSnapshot b.captured m.beatCount b.snapTick
  { m with
    phase := phase
    phaseSnap := curSnap
    prevSnap := curSnap
    stableStreak := 0
    worldEntrySnapTaken := m.worldEntrySnapTaken && phase ≠ .worldExitDetected
    mapViewQuietStreak := if phase = .worldExitDetected then 0 else m.mapViewQuietStreak }

def cumulativeDelta (m : Monitor) (b : Beat) : ℤ := (b.currentVasMb : ℤ) - m.phaseSnap.totalFreeMb

/-- In the world, and much more memory is free than at its start. -/
def drained (m : Monitor) (b : Beat) : Bool := m.phase = .postWorldStable && 150 ≤ m.cumulativeDelta b

/-- The snapshot with what the delta check needs brought up to date. -/
def light (m : Monitor) (b : Beat) (snap : VasPhaseSnapshot) : VasPhaseSnapshot :=
  { snap with totalFreeMb := b.currentVasMb, beat := m.beatCount, tickMs := b.snapTick }

/-- No phase change: the lightweight update. -/
def stay (m : Monitor) (b : Beat) : Monitor :=
  { m with
    phaseSnap := if m.drained b then m.light b m.phaseSnap else m.phaseSnap
    prevSnap := m.light b m.prevSnap }

/-- One turn of `HeartbeatThreadFunc`. -/
def beat (m : Monitor) (b : Beat) : Monitor × List Event :=
  match m.transition b with
  | some phase => ((m.counted b).changeTo b phase, [.phaseDiff m.phase phase])
  | none => ((m.counted b).stay b, if m.drained b then [.cumulativeVas (m.cumulativeDelta b)] else [])

/-- Before the loop. -/
def start (space : AddressSpace) (tickMs : ℕ) : Monitor :=
  let snap := captureVasPhaseSnapshot space 0 tickMs
  ⟨.postInject, 0, 0, snap, snap, 0, 0, 0, false⟩

abbrev after (space : AddressSpace) (tickMs : ℕ) (bs : List Beat) : Monitor :=
  Run.after (fun m b => (m.beat b).1) (start space tickMs) bs

end Monitor

/-! ## The two measures -/

theorem Follows.lt : ∀ {rs : List Region} {addr : ℕ}, Follows addr rs → addr < 2 ^ 32
  | [], _, h => h
  | _ :: _, _, h => by
    have := h.2.2.lt
    omega

/-- The address always advances, so the walk meets every region. -/
theorem walk_eq : ∀ {rs : List Region} {addr : ℕ}, Follows addr rs → walk addr rs = rs
  | [], _, _ => rfl
  | r :: rs, addr, h => by
    obtain ⟨hbase, hsize, hrest⟩ := h
    have hnext : (r.base + r.size) % 2 ^ 32 = addr + r.size := by rw [hbase, Nat.mod_eq_of_lt hrest.lt]
    simp only [walk, hnext]
    rw [if_neg (by omega), walk_eq hrest]

/-- A measure of the free regions, added up. -/
def sumFree (f : ℕ → ℕ) (rs : List Region) : ℕ := ((rs.filter (·.state = .free)).map fun r => f r.size).sum

theorem sumFree_cons (f : ℕ → ℕ) (r : Region) (rs : List Region) :
    sumFree f (r :: rs) = (if r.state = .free then f r.size else 0) + sumFree f rs := by
  by_cases hr : r.state = .free <;> simp [sumFree, hr]

theorem Follows.sum_lt : ∀ {rs : List Region} {addr : ℕ}, Follows addr rs → addr + sumFree id rs < 2 ^ 32
  | [], _, h => h
  | r :: rs, addr, h => by
    have := h.2.2.sum_lt
    rw [sumFree_cons]
    split
    · rw [id_eq]
      omega
    · omega

/-- The bytes are the whole megabytes of the regions and what is left over in each. -/
theorem sumFree_split (rs : List Region) : MB * sumFree (· / MB) rs + sumFree (· % MB) rs = sumFree id rs := by
  induction rs with
  | nil => rfl
  | cons r rs ih =>
    simp only [sumFree_cons]
    split
    · have := Nat.div_add_mod r.size MB
      simp only [id_eq, Nat.mul_add]
      omega
    · simpa using ih

theorem foldl_sample : ∀ (rs : List Region) (acc : ℕ × ℕ), acc.1 + sumFree id rs < 2 ^ 32 →
    (rs.foldl sample acc).1 = acc.1 + sumFree id rs
  | [], _, _ => by simp [sumFree]
  | r :: rs, acc, h => by
    rw [sumFree_cons] at h ⊢
    rw [List.foldl_cons]
    have hacc : (sample acc r).1 = acc.1 + if r.state = .free then id r.size else 0 := by
      rw [sample]
      split at h
      case isTrue hr => rw [if_pos hr, if_pos hr, add32, id_eq, Nat.mod_eq_of_lt (by simp only [id_eq] at h; omega)]
      case isFalse hr => rw [if_neg hr, if_neg hr, Nat.add_zero]
    rw [foldl_sample rs _ (by omega), hacc]
    omega

theorem foldl_count : ∀ (rs : List Region) (out : VasPhaseSnapshot), out.totalFreeMb + sumFree (· / MB) rs < 2 ^ 32 →
    (rs.foldl VasPhaseSnapshot.count out).totalFreeMb = out.totalFreeMb + sumFree (· / MB) rs
  | [], _, _ => by simp [sumFree]
  | r :: rs, out, h => by
    rw [sumFree_cons] at h ⊢
    rw [List.foldl_cons]
    have hout : (out.count r).totalFreeMb = out.totalFreeMb + if r.state = .free then r.size / MB else 0 := by
      rw [VasPhaseSnapshot.count]
      cases hr : r.state with
      | free =>
        rw [if_pos hr] at h
        simp only [add32, if_true]
        exact Nat.mod_eq_of_lt (by omega)
      | commit => cases r.type <;> rfl
      | reserve => cases r.type <;> rfl
    rw [foldl_count rs _ (by omega), hout]
    omega

/-- What is left over of the free regions beside their whole megabytes. -/
def AddressSpace.leftover (space : AddressSpace) : ℕ := sumFree (· % MB) space.regions

/-- The sample reads as many more megabytes than a snapshot as the leftovers add up to. -/
theorem measures_differ (space : AddressSpace) (beat tickMs : ℕ) : (getProcessMemoryInfo space).1 / MB =
    (captureVasPhaseSnapshot space beat tickMs).totalFreeMb + space.leftover / MB := by
  have hsum := space.follows.sum_lt
  have hsplit := sumFree_split space.regions
  have hle : sumFree (· / MB) space.regions ≤ MB * sumFree (· / MB) space.regions :=
    Nat.le_mul_of_pos_left _ (by decide)
  rw [getProcessMemoryInfo, captureVasPhaseSnapshot, walk_eq space.follows, foldl_sample _ _ hsum,
    foldl_count _ _ (by simp only; omega)]
  simp only [Nat.zero_add]
  rw [← hsplit, Nat.mul_add_div (by decide)]
  rfl

/-! ## An unchanged address space -/

namespace Monitor

/-- The beat looks stable: no change of free memory is seen, the streak goes on, and neither the load of
a world nor memory that came back is reported. -/
structure LooksStable (m : Monitor) (b : Beat) : Prop where
  delta : m.vasDelta b = 0
  stable : m.isStable b = true
  noLoad : ∀ phase, .phaseDiff phase .worldLoadDetected ∉ (m.beat b).2
  noWarning : ∀ delta, .cumulativeVas delta ∉ (m.beat b).2

section
variable {m : Monitor} {b b' : Beat}

theorem beat_none (h : m.transition b = none) :
    m.beat b = ((m.counted b).stay b, if m.drained b then [.cumulativeVas (m.cumulativeDelta b)] else []) := by
  simp only [beat, h]

theorem beat_some {phase : Phase} (h : m.transition b = some phase) :
    m.beat b = ((m.counted b).changeTo b phase, [.phaseDiff m.phase phase]) := by
  simp only [beat, h]

/-- Only a fall of free memory is taken for the load of a world. -/
theorem delta_of_load (h : m.transition b = some .worldLoadDetected) : m.vasDelta b ≤ -200 := by
  simp only [transition] at h
  split at h
  case h_2 =>
    split at h
    case isTrue hd => exact hd
    case isFalse => cases h
  all_goals
    split at h
    · cases h
    · cases h

/-- A beat without a change of free memory looks stable, unless the warning is due. -/
theorem looksStable_iff : m.LooksStable b ↔ m.vasDelta b = 0 ∧ (m.transition b = none → m.drained b = false) := by
  constructor
  · intro h
    refine ⟨h.delta, fun hnone => ?_⟩
    rw [← Bool.not_eq_true]
    intro hd
    apply h.noWarning (m.cumulativeDelta b)
    simp [beat_none hnone, hd]
  · rintro ⟨hdelta, hdrained⟩
    refine ⟨hdelta, by simp [isStable, hdelta], fun phase hmem => ?_, fun delta hmem => ?_⟩
    · cases ht : m.transition b with
      | none => simp [beat_none ht, hdrained ht] at hmem
      | some phase' =>
        simp only [beat_some ht, List.mem_singleton, Event.phaseDiff.injEq] at hmem
        obtain ⟨rfl, rfl⟩ := hmem
        have := delta_of_load ht
        omega
    · cases ht : m.transition b with
      | none => simp [beat_none ht, hdrained ht] at hmem
      | some phase' => simp [beat_some ht] at hmem

/-- After a beat without a phase change the next one is measured against the sample. -/
theorem delta_after_stay (h : m.transition b = none) (hsame : b'.sampled = b.sampled) :
    (m.beat b).1.vasDelta b' = 0 := by
  rw [beat_none h]
  simp [vasDelta, stay, light, Beat.currentVasMb, hsame]

/-- Then the warning is not due: the beat before was in the same phase, and gave it or was below it. -/
theorem drained_after_stay (h : m.transition b = none) (hsame : b'.sampled = b.sampled) :
    (m.beat b).1.drained b' = false := by
  have hcur : b'.currentVasMb = b.currentVasMb := by rw [Beat.currentVasMb, Beat.currentVasMb, hsame]
  rw [beat_none h]
  simp only [stay]
  by_cases hd : (m.counted b).drained b = true
  · rw [drained, cumulativeDelta, if_pos hd]
    simp [light, hcur]
  · rw [Bool.not_eq_true] at hd
    simp only [hd, Bool.false_eq_true, if_false]
    rw [← hd, drained, drained, cumulativeDelta, cumulativeDelta, hcur]

/-- After a phase change the next beat is measured against the snapshot: the leftovers show as new memory. -/
theorem delta_after_change {phase : Phase} (h : m.transition b = some phase) (hcaptured : b.captured = b.sampled)
    (hsame : b'.sampled = b.sampled) : (m.beat b).1.vasDelta b' = b.sampled.leftover / MB := by
  rw [beat_some h]
  simp only [vasDelta, changeTo, Beat.currentVasMb, hsame, hcaptured]
  rw [measures_differ b.sampled (m.counted b).beatCount b.snapTick]
  push_cast
  ring

theorem cumulative_after_change {phase : Phase} (h : m.transition b = some phase) :
    (m.beat b).1.cumulativeDelta b' = (m.beat b).1.vasDelta b' := by
  rw [beat_some h]
  rfl

end

/-- Of two beats of a run that see the same address space, the second looks stable exactly when the
first took no snapshot, or the leftovers of the free regions stay below a megabyte. -/
theorem unchanged_stable_iff (first : AddressSpace) (tickMs : ℕ) (bs : List Beat) (b b' : Beat) (space : AddressSpace) :
    (after first tickMs (bs ++ [{ b with sampled := space, captured := space }])).LooksStable
        { b' with sampled := space } ↔
      (after first tickMs bs).transition { b with sampled := space, captured := space } = none ∨ space.leftover < MB := by
  rw [after, after, Run.after_append, Run.after_cons, Run.after_nil, looksStable_iff]
  generalize Run.after _ _ bs = m
  cases ht : m.transition { b with sampled := space, captured := space } with
  | none => simp [delta_after_stay ht, drained_after_stay ht]
  | some phase =>
    have hdelta : (m.beat { b with sampled := space, captured := space }).1.vasDelta { b' with sampled := space } =
        space.leftover / MB := delta_after_change ht rfl rfl
    simp only [reduceCtorEq, false_or]
    constructor
    · rintro ⟨h, -⟩
      rw [hdelta] at h
      have h : space.leftover / MB = 0 := by exact_mod_cast h
      exact (Nat.div_eq_zero_iff_lt (by decide)).1 h
    · intro h
      have hz : (m.beat { b with sampled := space, captured := space }).1.vasDelta { b' with sampled := space } = 0 := by
        rw [hdelta]
        exact_mod_cast Nat.div_eq_of_lt h
      refine ⟨hz, fun _ => ?_⟩
      rw [drained, cumulative_after_change ht, hz]
      simp

/-- One free region of a thousand megabytes. -/
def wide : AddressSpace := ⟨[⟨0, 1000 * MB, .free, .priv⟩], by decide⟩

/-- The first 64 KB, and 152 committed regions of 1 MB and a page with 1020 KB free after each, up to the next
multiple of 64 KB. -/
def fragmented : AddressSpace where
  regions := ⟨0, 64 * 1024, .free, .priv⟩ :: (List.range 152).flatMap fun i =>
    [⟨64 * 1024 + i * (2 * MB), 1028 * 1024, .commit, .priv⟩, ⟨64 * 1024 + i * (2 * MB) + 1028 * 1024, 1020 * 1024, .free, .priv⟩]
  follows := by decide +kernel

def beatOf (space : AddressSpace) : Beat := ⟨space, space, 0, 0, 0, 0⟩

/-- The menu, the load of a world, and beats that see the world's address space unchanged. -/
def worldLoad : List Beat := List.replicate 3 (beatOf wide) ++ List.replicate 5 (beatOf fragmented)

/-- The world is entered on the last of these beats. The next one sees the same address space, and
reports that 151 megabytes came back. -/
theorem unchanged_space_warns : (after wide 0 worldLoad).vasDelta (beatOf fragmented) = 151 ∧
    ((after wide 0 worldLoad).beat (beatOf fragmented)).2 = [.cumulativeVas 151] ∧
    ¬ (after wide 0 worldLoad).LooksStable (beatOf fragmented) := by
  have hdelta : (after wide 0 worldLoad).vasDelta (beatOf fragmented) = 151 := by decide +kernel
  have hevents : ((after wide 0 worldLoad).beat (beatOf fragmented)).2 = [.cumulativeVas 151] := by decide +kernel
  refine ⟨hdelta, hevents, fun h => ?_⟩
  apply h.noWarning 151
  rw [hevents]
  exact List.mem_singleton_self _

end Monitor

end Ts3Vas.HeartbeatMonitor
