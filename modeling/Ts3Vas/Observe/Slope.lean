/-
The rolling history of free address space in HeartbeatThreadFunc: beats feed a ring of samples, some time
apart and not before the warm-up is over, and `emitVasSlope` averages over those of the last ten minutes.
-/
import Ts3Vas.Lib.RingBuffer
import Ts3Vas.Lib.Run
import Ts3Vas.Lib.Spaced

namespace Ts3Vas.HeartbeatMonitor

structure LfSample where
  t : ℕ
  lf : ℕ
  tf : ℕ
  deriving DecidableEq, Repr

def kLfRing : ℕ := 80

/-- Between two samples. -/
def sampleMs : ℕ := 30000

/-- `window`: ten minutes. -/
def windowMs : ℕ := 10 * 60 * 1000

/-- The variables of the thread that the history is kept in. -/
structure History where
  monitorStartTick : ℕ
  slopeWarmupMs : ℕ
  lfRing : RingBuffer LfSample
  lastLfSampleTick : ℕ
  /-- The tick of the last beat. -/
  clock : ℕ
  /-- All samples so far. -/
  samples : List LfSample

/-- What a beat reads: its tick, and what is free, in MB. -/
structure Reading where
  nowTick : ℕ
  largestFreeMb : ℕ
  currentVasMb : ℕ
  deriving DecidableEq, Repr

namespace History

/-- The beat is sampled. -/
def due (h : History) (nowTick : ℕ) : Prop :=
  h.slopeWarmupMs ≤ nowTick - h.monitorStartTick ∧ (h.lastLfSampleTick = 0 ∨ sampleMs ≤ nowTick - h.lastLfSampleTick)

instance (h : History) (nowTick : ℕ) : Decidable (h.due nowTick) := inferInstanceAs (Decidable (_ ∧ _))

def feed (h : History) (b : Reading) : History :=
  let x : LfSample := ⟨b.nowTick, b.largestFreeMb, b.currentVasMb⟩
  if h.due b.nowTick then
    { h with clock := b.nowTick, lastLfSampleTick := b.nowTick, lfRing := h.lfRing.push kLfRing x, samples := h.samples ++ [x] }
  else { h with clock := b.nowTick }

/-- The tick count goes on, from before the thread started. -/
def Allowed (h : History) (b : Reading) : Prop := 0 < b.nowTick ∧ h.monitorStartTick ≤ b.nowTick ∧ h.clock ≤ b.nowTick

instance (h : History) (b : Reading) : Decidable (h.Allowed b) := inferInstanceAs (Decidable (_ ∧ _))

/-- At the start of the thread, with an arbitrary tick and warm-up. -/
def start (tick warmupMin : ℕ) : History := ⟨tick, warmupMin * 60000, ⟨fun _ => ⟨0, 0, 0⟩, 0, 0⟩, 0, tick, []⟩

abbrev Run (h : History) (bs : List Reading) : Prop := Run.Guarded feed Allowed h bs

abbrev after (h : History) (bs : List Reading) : History := Run.after feed h bs

end History

/-- What the loop over the ring has found: the first sample in the window, and how many. -/
structure Found where
  first : Option LfSample
  n : ℕ
  deriving DecidableEq, Repr

/-- One round of the loop. -/
def Found.look (nowT : ℕ) (f : Found) (x : LfSample) : Found :=
  if windowMs < nowT - x.t then f else ⟨f.first.orElse fun _ => some x, f.n + 1⟩

/-- The rate lines of `VAS_SLOPE`: the ms until accounting starts, or the net change in MB, the ms that it took
and the number of samples. -/
inductive Rate
  | warmingUp (leftMs : ℕ)
  | average (net : ℤ) (spanMs samples : ℕ)
  deriving DecidableEq, Repr

/-- The end of `emitVasSlope`; nothing is logged where no sample is in the window. -/
def History.rate (h : History) (nowT currentVasMb : ℕ) : Option Rate :=
  if nowT - h.monitorStartTick < h.slopeWarmupMs then
    some (.warmingUp (h.slopeWarmupMs - (nowT - h.monitorStartTick)))
  else
    let f := (h.lfRing.read kLfRing).foldl (Found.look nowT) ⟨none, 0⟩
    f.first.map fun x => .average ((currentVasMb : ℤ) - x.tf) (nowT - x.t) f.n

/-! ## The history -/

namespace History

/-- The invariant of every run. -/
structure Kept (h : History) : Prop where
  ring : RingBuffer.Holds kLfRing h.samples h.lfRing
  spaced : Spaced (·.t) sampleMs h.samples
  last : h.lastLfSampleTick = (h.samples.getLast?.map (·.t)).getD 0
  ticks : ∀ x ∈ h.samples, 0 < x.t ∧ x.t ≤ h.clock
  warm : ∀ x ∈ h.samples, h.monitorStartTick + h.slopeWarmupMs ≤ x.t

theorem start_kept (tick warmupMin : ℕ) : (start tick warmupMin).Kept :=
  ⟨.empty _, .nil, rfl, by simp [start], by simp [start]⟩

theorem Kept.feed {h : History} (hk : h.Kept) {b : Reading} (hop : h.Allowed b) : (h.feed b).Kept := by
  obtain ⟨hpos, hstarted, hclock⟩ := hop
  have hticks : ∀ x ∈ h.samples, 0 < x.t ∧ x.t ≤ b.nowTick := fun x hx => ⟨(hk.ticks x hx).1, (hk.ticks x hx).2.trans hclock⟩
  unfold History.feed
  dsimp only
  split
  · rename_i hdue
    refine ⟨hk.ring.push _, hk.spaced.concat fun x hx => ?_, ?_, ?_, ?_⟩
    · have hlast := hk.last
      rw [Option.mem_def.1 hx] at hlast
      have hle := hticks x (List.mem_of_getLast? hx)
      have hsince : h.lastLfSampleTick = x.t := hlast
      rcases hdue.2 with h0 | hge
      · exact absurd (hsince.symm.trans h0) (by omega)
      · change sampleMs ≤ b.nowTick - h.lastLfSampleTick at hge
        show x.t + sampleMs ≤ b.nowTick
        unfold sampleMs at hge ⊢
        omega
    · rw [List.getLast?_concat]
      rfl
    · rw [List.forall_mem_append, List.forall_mem_singleton]
      exact ⟨hticks, hpos, le_rfl⟩
    · rw [List.forall_mem_append, List.forall_mem_singleton]
      refine ⟨hk.warm, ?_⟩
      have hover : h.slopeWarmupMs ≤ b.nowTick - h.monitorStartTick := hdue.1
      show h.monitorStartTick + h.slopeWarmupMs ≤ b.nowTick
      omega
  · exact ⟨hk.ring, hk.spaced, hk.last, hticks, hk.warm⟩

theorem Kept.after {h : History} (hk : h.Kept) {bs : List Reading} (hrun : h.Run bs) : (h.after bs).Kept :=
  hrun.invariant (fun _ _ hk hop => hk.feed hop) hk

/-- What the ring has lost is older than the window. -/
theorem Kept.lost {h : History} (hk : h.Kept) {x : LfSample} (hx : x ∈ h.samples.take (h.samples.length - kLfRing))
    {nowT : ℕ} (hnow : h.clock ≤ nowT) : windowMs < nowT - x.t := by
  obtain ⟨pre, post, hsplit⟩ := List.append_of_mem hx
  set kept := h.samples.drop (h.samples.length - kLfRing) with hdrop
  have hsamples : h.samples = pre ++ x :: (post ++ kept) := by
    rw [← List.take_append_drop (h.samples.length - kLfRing) h.samples, hsplit, List.append_assoc, List.cons_append]
  have hlong : kLfRing ≤ (post ++ kept).length := by
    have hne : (h.samples.take (h.samples.length - kLfRing)).length ≠ 0 := by
      rw [hsplit, List.length_append, List.length_cons]
      omega
    rw [List.length_take] at hne
    rw [List.length_append, hdrop, List.length_drop]
    omega
  obtain ⟨y, hy⟩ : ∃ y, (x :: (post ++ kept)).getLast? = some y := ⟨_, List.getLast?_eq_some_getLast (List.cons_ne_nil x _)⟩
  have hmem : y ∈ h.samples := by
    rw [hsamples]
    exact List.mem_append_right _ (List.mem_of_getLast? hy)
  have hlate := (hk.ticks y hmem).2
  have hfar : x.t + (post ++ kept).length * sampleMs ≤ y.t := by
    have hspaced := hk.spaced
    rw [hsamples] at hspaced
    exact hspaced.before_last hy
  have := Nat.mul_le_mul_right sampleMs hlong
  unfold kLfRing sampleMs at this
  unfold windowMs
  unfold sampleMs at hfar
  omega

/-- The samples that an average at `nowT` is over. -/
def window (h : History) (nowT : ℕ) : List LfSample := h.samples.filter fun x => nowT - x.t ≤ windowMs

/-- The loop over a list of samples. -/
theorem foldl_look (nowT : ℕ) (xs : List LfSample) (f : Found) :
    xs.foldl (Found.look nowT) f = ⟨f.first.or (xs.filter fun x => nowT - x.t ≤ windowMs).head?,
      f.n + (xs.filter fun x => nowT - x.t ≤ windowMs).length⟩ := by
  induction xs generalizing f with
  | nil => simp
  | cons x xs ih =>
    rw [List.foldl_cons, ih, Found.look]
    by_cases hold : windowMs < nowT - x.t
    · rw [if_pos hold, List.filter_cons_of_neg (by rw [decide_eq_true_eq]; omega)]
    · rw [if_neg hold, List.filter_cons_of_pos (by rw [decide_eq_true_eq]; omega)]
      rcases f with ⟨_ | y, n⟩ <;> simp <;> omega

theorem Kept.read {h : History} (hk : h.Kept) {nowT : ℕ} (hnow : h.clock ≤ nowT) :
    (h.lfRing.read kLfRing).filter (fun x => nowT - x.t ≤ windowMs) = h.window nowT := by
  have hlost : (h.samples.take (h.samples.length - kLfRing)).filter (fun x => nowT - x.t ≤ windowMs) = [] := by
    rw [List.filter_eq_nil_iff]
    intro x hx
    have := hk.lost hx hnow
    rw [decide_eq_true_eq]
    omega
  rw [hk.ring.read, window]
  conv_rhs => rw [← List.take_append_drop (h.samples.length - kLfRing) h.samples, List.filter_append, hlost, List.nil_append]

theorem Kept.rate_eq {h : History} (hk : h.Kept) {nowT : ℕ} (hnow : h.clock ≤ nowT)
    (hwarm : h.slopeWarmupMs ≤ nowT - h.monitorStartTick) (cur : ℕ) : h.rate nowT cur =
      (h.window nowT).head?.map fun x => .average ((cur : ℤ) - x.tf) (nowT - x.t) (h.window nowT).length := by
  rw [rate, if_neg (not_lt.2 hwarm), foldl_look, hk.read hnow, Option.none_or, Nat.zero_add]

/-- Ten minutes hold twenty gaps. -/
theorem Kept.window_length {h : History} (hk : h.Kept) {nowT : ℕ} (hnow : h.clock ≤ nowT) :
    (h.window nowT).length ≤ 21 := by
  have hin : ∀ x ∈ h.window nowT, nowT - windowMs ≤ x.t ∧ x.t ≤ nowT := by
    intro x hx
    obtain ⟨hmem, hage⟩ := List.mem_filter.1 hx
    rw [decide_eq_true_eq] at hage
    have := (hk.ticks x hmem).2
    omega
  rcases (hk.spaced.sublist List.filter_sublist).length_le hin with hnil | hlen
  · rw [window, hnil]
    simp
  · rw [← window] at hlen
    unfold windowMs sampleMs at hlen
    omega

/-! ## Beats at most `g` apart -/

/-- The invariant of such a run, on top of `Kept`. -/
structure Filled (g : ℕ) (h : History) : Prop where
  kept : h.Kept
  frequent : Frequent (·.t) (sampleMs + g) h.samples
  latest : ∀ x ∈ h.samples.getLast?, h.clock < x.t + sampleMs
  none : h.samples = [] → h.clock ≤ h.monitorStartTick + h.slopeWarmupMs
  head : ∀ x ∈ h.samples.head?, x.t ≤ h.monitorStartTick + h.slopeWarmupMs + g

def AllowedWithin (g : ℕ) (h : History) (b : Reading) : Prop := h.Allowed b ∧ b.nowTick ≤ h.clock + g

instance (g : ℕ) (h : History) (b : Reading) : Decidable (h.AllowedWithin g b) := inferInstanceAs (Decidable (_ ∧ _))

abbrev RunWithin (g : ℕ) (h : History) (bs : List Reading) : Prop := Run.Guarded feed (AllowedWithin g) h bs

theorem start_filled (g tick warmupMin : ℕ) : (start tick warmupMin).Filled g :=
  ⟨start_kept tick warmupMin, .nil, by simp [start], by simp [start], by simp [start]⟩

theorem feed_frame (h : History) (b : Reading) : (h.feed b).monitorStartTick = h.monitorStartTick ∧
    (h.feed b).slopeWarmupMs = h.slopeWarmupMs ∧ (h.feed b).clock = b.nowTick := by
  unfold History.feed
  dsimp only
  split <;> exact ⟨rfl, rfl, rfl⟩

theorem feed_samples (h : History) (b : Reading) : (h.feed b).samples =
    if h.due b.nowTick then h.samples ++ [⟨b.nowTick, b.largestFreeMb, b.currentVasMb⟩] else h.samples := by
  unfold History.feed
  dsimp only
  split <;> rfl

/-- A recorded tick is that of the last sample. -/
theorem Kept.lastTick {h : History} (hk : h.Kept) {x : LfSample} (hx : x ∈ h.samples.getLast?) : h.lastLfSampleTick = x.t := by
  have hlast := hk.last
  rwa [Option.mem_def.1 hx] at hlast

theorem Filled.feed {g : ℕ} {h : History} (hf : h.Filled g) {b : Reading} (hop : h.AllowedWithin g b) : (h.feed b).Filled g := by
  obtain ⟨hallowed, hwithin⟩ := hop
  obtain ⟨hstart, hwarmup, hclock⟩ := feed_frame h b
  have hsamples := feed_samples h b
  by_cases hdue : h.due b.nowTick
  · rw [if_pos hdue] at hsamples
    refine ⟨hf.kept.feed hallowed, ?_, ?_, ?_, ?_⟩
    · rw [hsamples]
      apply hf.frequent.concat
      intro a ha
      have := hf.latest a ha
      change b.nowTick ≤ a.t + (sampleMs + g)
      omega
    · rw [hsamples, List.getLast?_concat, hclock]
      rintro x ⟨⟩
      exact Nat.lt_add_of_pos_right (by decide)
    · rw [hsamples]
      intro hnil
      exact absurd hnil (by simp)
    · rw [hsamples, hstart, hwarmup]
      rcases hnil : h.samples with _ | ⟨x, xs⟩
      · rintro x ⟨⟩
        have := hf.none hnil
        change b.nowTick ≤ _
        omega
      · have := hf.head
        rwa [hnil] at this
  · rw [if_neg hdue] at hsamples
    refine ⟨hf.kept.feed hallowed, ?_, ?_, ?_, ?_⟩
    · rw [hsamples]
      exact hf.frequent
    · rw [hsamples, hclock]
      intro x hx
      have hmem := List.mem_of_getLast? hx
      have hwarm := hf.kept.warm x hmem
      have hbefore := (hf.kept.ticks x hmem).2
      have hafter := hallowed.2.2
      unfold due at hdue
      rw [hf.kept.lastTick hx] at hdue
      have hpos : 0 < sampleMs := by decide
      by_contra hlate
      exact hdue ⟨by omega, .inr (by omega)⟩
    · rw [hsamples, hclock, hstart, hwarmup]
      intro hnil
      have hlast : h.lastLfSampleTick = 0 := by rw [hf.kept.last, hnil]; rfl
      have hstarted := hallowed.2.1
      unfold due at hdue
      rw [hlast] at hdue
      by_contra hlate
      exact hdue ⟨by omega, .inl rfl⟩
    · rw [hsamples, hstart, hwarmup]
      exact hf.head

theorem Filled.after {g : ℕ} {h : History} (hf : h.Filled g) {bs : List Reading} (hrun : h.RunWithin g bs) :
    (h.after bs).Filled g :=
  hrun.invariant (fun _ _ hf hop => hf.feed hop) hf

/-- Ten minutes after the first sample the window reaches back to a sample, up to a gap, and there is no larger gap in it. -/
theorem Filled.window {g : ℕ} {h : History} (hf : h.Filled g) {nowT : ℕ} (hsoon : nowT ≤ h.clock + g)
    (hg : sampleMs + g ≤ windowMs) {a : LfSample} (ha : a ∈ h.samples.head?) (hlong : a.t + windowMs ≤ nowT) :
    ∃ x ∈ (h.window nowT).head?, windowMs < nowT - x.t + (sampleMs + g) ∧ nowT - x.t ≤ windowMs ∧
      windowMs < ((h.window nowT).length + 1) * (sampleMs + g) := by
  have hsplit := hf.kept.spaced.split (nowT - windowMs)
  have hwindow : (h.samples.filter fun x => nowT - windowMs ≤ x.t) = h.window nowT :=
    List.filter_congr fun x _ => decide_eq_decide.2 (by omega)
  set old := h.samples.filter fun x => x.t < nowT - windowMs with hold
  rw [hwindow] at hsplit
  have hin : ∀ x ∈ h.window nowT, nowT - x.t ≤ windowMs := fun x hx => of_decide_eq_true (List.mem_filter.1 hx).2
  have hfrequent := hf.frequent
  rcases List.eq_nil_or_concat old with hnone | ⟨pre, p, hp⟩
  · -- the first sample of all is just ten minutes old
    rw [hnone, List.nil_append] at hsplit
    rw [hsplit] at ha hfrequent
    obtain ⟨y, hy⟩ : ∃ y, (h.window nowT).getLast? = some y :=
      ⟨_, List.getLast?_eq_some_getLast (List.ne_nil_of_mem (List.mem_of_mem_head? ha))⟩
    have hlast := hf.latest y (by rw [hsplit, hy]; rfl)
    have hage := hin a (List.mem_of_mem_head? ha)
    obtain ⟨x, xs, hw⟩ := List.exists_cons_of_ne_nil (List.ne_nil_of_mem (List.mem_of_mem_head? ha))
    rw [hw] at ha hy hfrequent ⊢
    obtain rfl : x = a := Option.some.inj ha
    have hspan : y.t ≤ x.t + xs.length * (sampleMs + g) := hfrequent.first_last y hy
    refine ⟨x, rfl, ?_, hage, ?_⟩
    · have : 0 < sampleMs := by decide
      omega
    · rw [List.length_cons, Nat.succ_mul, Nat.succ_mul]
      omega
  · rw [hp, List.concat_eq_append, List.append_assoc, List.singleton_append] at hsplit
    have hpold : p.t < nowT - windowMs := by
      have hmem : p ∈ old := by rw [hp]; simp
      exact of_decide_eq_true (List.mem_filter.1 hmem).2
    rw [hsplit] at hfrequent
    have hfrequent : Frequent (·.t) (sampleMs + g) (p :: h.window nowT) := hfrequent.right
    obtain ⟨y, hy⟩ : ∃ y, (p :: h.window nowT).getLast? = some y := ⟨_, List.getLast?_eq_some_getLast (List.cons_ne_nil p _)⟩
    have hlast := hf.latest y (by rw [hsplit, List.getLast?_append, hy]; rfl)
    have hspan : y.t ≤ p.t + (h.window nowT).length * (sampleMs + g) := hfrequent.first_last y hy
    have hcount : windowMs < ((h.window nowT).length + 1) * (sampleMs + g) := by
      rw [Nat.succ_mul]
      omega
    rcases hw : h.window nowT with _ | ⟨x, xs⟩
    · rw [hw] at hcount
      simp at hcount
      omega
    · refine ⟨x, rfl, ?_, hin x (by rw [hw]; exact List.mem_cons_self), hw ▸ hcount⟩
      rw [hw] at hfrequent
      have : x.t ≤ p.t + (sampleMs + g) := (List.isChain_cons_cons.1 hfrequent).1
      omega

theorem feed_monitorStartTick (h : History) (b : Reading) : (h.feed b).monitorStartTick = h.monitorStartTick := (feed_frame h b).1

theorem feed_slopeWarmupMs (h : History) (b : Reading) : (h.feed b).slopeWarmupMs = h.slopeWarmupMs := (feed_frame h b).2.1

theorem after_frame (h : History) (bs : List Reading) :
    (h.after bs).monitorStartTick = h.monitorStartTick ∧ (h.after bs).slopeWarmupMs = h.slopeWarmupMs := by
  induction bs using List.reverseRecOn with
  | nil => exact ⟨rfl, rfl⟩
  | append_singleton bs b ih =>
    rw [after, Run.after, List.foldl_concat]
    exact ⟨(feed_monitorStartTick _ b).trans ih.1, (feed_slopeWarmupMs _ b).trans ih.2⟩

/-- Whatever the beats, what is logged at `nowT` is the change since the first of all the samples of the last ten
minutes, and their number: what the ring has lost is not missed. -/
theorem rate_over_window {tick warmupMin : ℕ} {bs : List Reading} (hrun : (start tick warmupMin).Run bs) {nowT : ℕ}
    (hnow : ((start tick warmupMin).after bs).clock ≤ nowT) (currentVasMb : ℕ) :
    let h := (start tick warmupMin).after bs
    (h.rate nowT currentVasMb = if nowT - tick < warmupMin * 60000 then some (.warmingUp (warmupMin * 60000 - (nowT - tick)))
      else (h.window nowT).head?.map fun x => .average ((currentVasMb : ℤ) - x.tf) (nowT - x.t) (h.window nowT).length) ∧
    (h.window nowT).length ≤ 21 ∧ ∀ x ∈ h.window nowT, tick + warmupMin * 60000 ≤ x.t := by
  intro h
  have hk : h.Kept := (start_kept tick warmupMin).after hrun
  obtain ⟨htick, hwarmup⟩ : h.monitorStartTick = tick ∧ h.slopeWarmupMs = warmupMin * 60000 := after_frame _ bs
  refine ⟨?_, hk.window_length hnow, fun x hx => ?_⟩
  · split
    · rename_i hwarm
      rw [rate, htick, hwarmup, if_pos hwarm]
    · rename_i hwarm
      exact hk.rate_eq hnow (by rw [htick, hwarmup]; exact not_lt.1 hwarm) currentVasMb
  · have := hk.warm x (List.mem_filter.1 hx).1
    rwa [htick, hwarmup] at this

/-- Three samples, the first of which is too old. -/
theorem rate_over_window_three :
    let h := (start 1 0).after [⟨1, 300, 900⟩, ⟨20001, 290, 890⟩, ⟨400001, 280, 880⟩, ⟨800001, 270, 800⟩]
    (h.rate 800005 790 = if 800005 - 1 < 0 * 60000 then some (.warmingUp (0 * 60000 - (800005 - 1)))
      else (h.window 800005).head?.map fun x => .average (790 - x.tf) (800005 - x.t) (h.window 800005).length) ∧
    (h.window 800005).length ≤ 21 ∧ ∀ x ∈ h.window 800005, 1 + 0 * 60000 ≤ x.t :=
  rate_over_window (by decide) (by decide) 790

/-- Beats that come at most `g` apart fill the window: the first sample comes at most `g` after the warm-up, and from ten
minutes after it on the average is over the whole window, up to a gap, and over as many samples as fit in. -/
theorem rate_fills_window {g tick warmupMin : ℕ} {bs : List Reading} (hrun : (start tick warmupMin).RunWithin g bs) {nowT : ℕ}
    (hnow : ((start tick warmupMin).after bs).clock ≤ nowT) (hsoon : nowT ≤ ((start tick warmupMin).after bs).clock + g)
    (hg : sampleMs + g ≤ windowMs) (currentVasMb : ℕ) :
    let h := (start tick warmupMin).after bs
    (tick + warmupMin * 60000 < h.clock → ∃ x ∈ h.samples.head?, x.t ≤ tick + warmupMin * 60000 + g) ∧
    ∀ x ∈ h.samples.head?, x.t + windowMs ≤ nowT → ∃ net spanMs n, h.rate nowT currentVasMb = some (.average net spanMs n) ∧
      windowMs < spanMs + (sampleMs + g) ∧ spanMs ≤ windowMs ∧ windowMs < (n + 1) * (sampleMs + g) := by
  intro h
  have hf : h.Filled g := (start_filled g tick warmupMin).after hrun
  obtain ⟨htick, hwarmup⟩ : h.monitorStartTick = tick ∧ h.slopeWarmupMs = warmupMin * 60000 := after_frame _ bs
  constructor
  · intro hclock
    rcases hsamples : h.samples with _ | ⟨x, xs⟩
    · have := hf.none hsamples
      omega
    · refine ⟨x, rfl, ?_⟩
      have := hf.head x (by rw [hsamples]; rfl)
      omega
  · intro a ha hlong
    obtain ⟨x, hx, hlow, hhigh, hcount⟩ := hf.window hsoon hg ha hlong
    refine ⟨(currentVasMb : ℤ) - x.tf, nowT - x.t, (h.window nowT).length, ?_, hlow, hhigh, hcount⟩
    have hwarm := hf.kept.warm a (List.mem_of_mem_head? ha)
    rw [hf.kept.rate_eq hnow (by omega), Option.mem_def.1 hx]
    rfl

/-- Five minutes between two beats. -/
theorem rate_fills_window_coarse :
    let h := (start 1 0).after [⟨1, 300, 900⟩, ⟨300001, 290, 890⟩, ⟨600001, 280, 880⟩, ⟨900001, 270, 800⟩]
    (1 + 0 * 60000 < h.clock → ∃ x ∈ h.samples.head?, x.t ≤ 1 + 0 * 60000 + 300000) ∧
    ∀ x ∈ h.samples.head?, x.t + windowMs ≤ 900002 → ∃ net spanMs n, h.rate 900002 790 = some (.average net spanMs n) ∧
      windowMs < spanMs + (sampleMs + 300000) ∧ spanMs ≤ windowMs ∧ windowMs < (n + 1) * (sampleMs + 300000) :=
  rate_fills_window (by decide) (by decide) (by decide) (by decide) 790

end History

end Ts3Vas.HeartbeatMonitor
