/-
Whether a segment that CorralReserve adds is of use to the request it was added for. The new segment
has twice the request's bytes, which wraps for requests of 2 GB or more.
-/
import Ts3Vas.Corral.Runs

namespace Ts3Vas

/-! ## The first call of a new allocator -/

theorem settle_addr (s : ProxyAllocator) (size : ℕ) (f : ProxyAllocator.Fit) : (s.settle size f).1 = f.grantedAddr := by
  unfold ProxyAllocator.settle
  split
  · exact Eq.symm ‹_›
  · rfl

/-- With nothing cached, `Allocate` returns what the search of the free list finds. -/
theorem allocate_uncached {s : ProxyAllocator} (hb : s.arenaBase ≠ 0) (hclasses : s.sizeClasses = [])
    (hbytes : s.classCachedBytes = 0) (size : ℕ) (fromTop : Bool) :
    (s.allocate size fromTop).1 = (s.takeFreeFit size fromTop).1.grantedAddr := by
  let t : ProxyAllocator := { s with totalAllocationRequests := (s.totalAllocationRequests + 1) % 2 ^ 64 }
  have hsame : (t.takeFreeFit size fromTop).1 = (s.takeFreeFit size fromTop).1 := by
    unfold ProxyAllocator.takeFreeFit
    dsimp only [t]
    split <;> rfl
  have hfit : t.fitOrReclaim size fromTop = t.takeFreeFit size fromTop := by
    have hzero : (t.takeFreeFit size fromTop).2.classCachedBytes = 0 := by
      rw [ProxyAllocator.takeFreeFit_bytes]
      exact hbytes
    unfold ProxyAllocator.fitOrReclaim
    dsimp only
    rw [if_neg]
    rintro ⟨-, hpos⟩
    omega
  have hpop : t.popSizeClass (alignUp size s.allocGranularity) = (none, t) :=
    ProxyAllocator.popSizeClass_none (by rw [show t.sizeClasses = [] from hclasses]; rfl)
  dsimp only [t] at hpop
  unfold ProxyAllocator.allocate
  dsimp only
  rw [if_neg hb, hpop]
  show ((t.fitOrReclaim size fromTop).2.settle size _).1 = _
  rw [settle_addr, hfit, hsame]

/-- Over one free block a request is granted exactly when it fits. -/
theorem Blank.allocate_adopt {u : ProxyAllocator} (hu : Blank u) {base segSz : ℕ} (hb : base ≠ 0) (size : ℕ) (owns : Bool) :
    ((Ts3Vas.adopt u base segSz owns).allocate size false).1 ≠ 0 ↔
      alignUp size u.allocGranularity ≤ alignUp segSz u.allocGranularity := by
  rw [allocate_uncached (s := Ts3Vas.adopt u base segSz owns) hb hu.classes hu.bytes]
  unfold Ts3Vas.adopt ProxyAllocator.takeFreeFit
  simp only [ProxyAllocator.firstFit, Bool.false_eq_true, if_false, Option.map_none]
  by_cases hfit : alignUp size u.allocGranularity ≤ alignUp segSz u.allocGranularity
  · refine iff_of_true ?_ hfit
    rw [if_pos hfit]
    by_cases hrest : u.allocGranularity ≤ alignUp segSz u.allocGranularity - alignUp size u.allocGranularity
    · rw [if_pos hrest]
      exact hb
    · rw [if_neg hrest]
      exact hb
  · refine iff_of_false ?_ hfit
    rw [if_neg hfit]
    exact not_not.2 rfl

namespace Corral

/-! ## The size of a new segment -/

/-- The requests that a segment grown for them has room for: those whose double does not wrap, those no
larger than the floor, and those so close to 4 GB that their slot size wraps to 0. -/
def Fits (c : Corral) (size : ℕ) : Prop := size < 2 ^ 31 ∨ size ≤ c.growFloor ∨ 2 ^ 32 - c.gran < size

instance (c : Corral) (size : ℕ) : Decidable (c.Fits size) := inferInstanceAs (Decidable (_ ∨ _ ∨ _))

section
variable {c : Corral} {size : ℕ}

theorem gran_granularity (c : Corral) : Granularity c.gran := granularity_construct _ _

theorem alignUp_mono {g m n : ℕ} (hg : Granularity g) (hn : NoWrap g n) (h : m ≤ n) : alignUp m g ≤ alignUp n g := by
  have hm : NoWrap g m := h.trans hn
  exact alignUp_le_of_dvd hg hm (dvd_alignUp hg n) (h.trans (alignUp_bounds hg hn).1)

/-- The slot fits into the segment exactly for these. -/
theorem fits_iff (hfloor : 65536 ∣ c.growFloor) (hsize : size < 2 ^ 32) (hseg : NoWrap c.gran (c.growSize size)) :
    alignUp size c.gran ≤ alignUp (c.growSize size) c.gran ↔ c.Fits size := by
  have hg := c.gran_granularity
  have hle := hg.le
  have hpos := hg.pos
  by_cases hwrap : NoWrap c.gran size
  · have hnot : ¬ 2 ^ 32 - c.gran < size := Nat.not_lt.2 hwrap
    by_cases hsmall : size ≤ c.growSize size
    · refine iff_of_true (alignUp_mono hg hseg hsmall) ?_
      unfold growSize at hsmall
      unfold Fits
      split_ifs at hsmall
      · exact .inr (.inl hsmall)
      · exact .inl (by omega)
    · -- the segment is at least a granule short
      have hshort : alignUp (c.growSize size) c.gran < alignUp size c.gran := by
        have hup := alignUp_bounds hg hwrap
        unfold NoWrap at hwrap
        unfold growSize at hsmall hseg ⊢
        split_ifs at hsmall hseg ⊢ with hf
        · have hround := alignUp_le_of_dvd hg hseg (hg.dvd.trans hfloor) le_rfl
          omega
        · have hround := (alignUp_bounds hg hseg).2
          omega
      refine iff_of_false (Nat.not_le.2 hshort) ?_
      unfold growSize at hsmall
      unfold Fits
      split_ifs at hsmall <;> omega
  · rw [alignUp_wrap hg hwrap hsize]
    exact iff_of_true (Nat.zero_le _) (.inr (.inr (Nat.not_le.1 hwrap)))

end

/-! ## One call -/

/-- CorralReserve adds a segment for the request. -/
def Grows (c : Corral) (o : Outcome) (size : ℕ) : Prop := c.ready = true ∧ c.grows o size = true

instance (c : Corral) (o : Outcome) (size : ℕ) : Decidable (c.Grows o size) := inferInstanceAs (Decidable (_ ∧ _))

/-- A segment added for the request grants it; a null without a failed commit leaves the number of
segments and their total as they were. -/
structure Unwasted (c : Corral) (o : Outcome) (size type : ℕ) : Prop where
  /-- The slot is what `Allocate` of the new segment returns. -/
  used : c.Grows o size → (c.findSlot o size).1.1 ≠ 0
  kept : (c.corralReserve o size type).1 = 0 → (hasFlag type MEM_COMMIT && !o.commit) = false →
    (c.corralReserve o size type).2.segs.length = c.segs.length ∧
      (c.corralReserve o size type).2.totalReserved = c.totalReserved

section
variable {c : Corral} {o : Outcome} {size : ℕ}

theorem length_allocateFrom (size : ℕ) : ∀ segs : List Segment, (allocateFrom size segs).2.length = segs.length
  | [] => rfl
  | s :: rest => by
    unfold allocateFrom
    dsimp only
    split
    · rfl
    · exact congrArg (· + 1) (length_allocateFrom size rest)

/-- The three ways to a slot: a segment has room, none has and none is added, or one is added and asked. -/
theorem findSlot_cases (c : Corral) (o : Outcome) (size : ℕ) : ∃ segs, segs.length = c.segs.length ∧
    ((c.grows o size = false ∧ (c.findSlot o size).1.1 ≠ 0 ∧ (c.findSlot o size).2 = { c with segs := segs }) ∨
    (c.grows o size = false ∧ (c.findSlot o size).1.1 = 0 ∧ (c.findSlot o size).2 = { c with segs := segs }) ∨
    (c.grows o size = true ∧ o.reserve ≠ 0 ∧ ∃ u, Blank u ∧ u.allocGranularity = c.gran ∧
      (c.findSlot o size).1.1 = ((adopt u o.reserve (c.growSize size) false).allocate size false).1)) := by
  have hlen := length_allocateFrom size c.segs
  rcases hr : allocateFrom size c.segs with ⟨⟨p, i⟩, segs⟩
  rw [hr] at hlen
  refine ⟨segs, hlen, ?_⟩
  unfold grows findSlot
  rw [hr]
  dsimp only
  by_cases hp : p = 0
  · rw [show growSize { c with segs := segs } size = c.growSize size from rfl, if_neg (not_not.2 hp)]
    rcases addCorralSegment_new { c with segs := segs } o (c.growSize size) with e | ⟨h0, u, hu, hg, -, e, -⟩
    · rw [e]
      exact .inr (.inl ⟨by simp, rfl, rfl⟩)
    · rw [e]
      refine .inr (.inr ⟨by simp [hp], h0, u, hu, hg, ?_⟩)
      simp
  · rw [if_pos hp]
    exact .inl ⟨by simp [hp], hp, rfl⟩

/-- A call wastes no segment exactly when the segment it may add for the request has room for it. -/
theorem unwasted_iff (hfloor : 65536 ∣ c.growFloor) (hpos : 0 < size) (hsize : size < 2 ^ 32) (type : ℕ)
    (ho : o.reserve ≠ 0 → Reserved o.reserve (c.growSize size)) :
    c.Unwasted o size type ↔ (c.Grows o size → c.Fits size) := by
  obtain ⟨segs, hlen, hcases⟩ := findSlot_cases c o size
  -- a slot found is returned unless its commit fails
  have hreturn : (c.findSlot o size).1.1 ≠ 0 → c.ready = true → (c.corralReserve o size type).1 = 0 →
      (hasFlag type MEM_COMMIT && !o.commit) = true := by
    intro hp hready h0
    by_contra hc
    unfold corralReserve at h0
    rw [if_neg (by simp [hready]; omega)] at h0
    dsimp only at h0
    rw [if_neg hp, if_neg hc] at h0
    exact hp h0
  have hidle : c.ready = false → c.corralReserve o size type = (0, c) := by
    intro hready
    unfold corralReserve
    rw [if_pos (by simp [hready])]
  have hnull : c.ready = true → (c.findSlot o size).1.1 = 0 → c.corralReserve o size type = (0, (c.findSlot o size).2) := by
    intro hready hp
    unfold corralReserve
    rw [if_neg (by simp [hready]; omega)]
    dsimp only
    rw [if_pos hp]
  cases hready : c.ready with
  | false =>
    have hno : ¬ c.Grows o size := fun h => Bool.false_ne_true (hready.symm.trans h.1)
    refine iff_of_true ⟨fun h => absurd h hno, fun _ _ => ?_⟩ fun h => absurd h hno
    rw [hidle hready]
    exact ⟨rfl, rfl⟩
  | true =>
    rcases hcases with ⟨hg, hp, -⟩ | ⟨hg, hp, e⟩ | ⟨hg, h0, u, hu, hgran, e⟩
    · have hno : ¬ c.Grows o size := fun h => Bool.false_ne_true (hg.symm.trans h.2)
      refine iff_of_true ⟨fun h => absurd h hno, fun h hc => ?_⟩ fun h => absurd h hno
      rw [hreturn hp hready h] at hc
      cases hc
    · have hno : ¬ c.Grows o size := fun h => Bool.false_ne_true (hg.symm.trans h.2)
      refine iff_of_true ⟨fun h => absurd h hno, fun _ _ => ?_⟩ fun h => absurd h hno
      rw [hnull hready hp, e]
      exact ⟨hlen, rfl⟩
    · have hgrows : c.Grows o size := ⟨hready, hg⟩
      have hr := ho h0
      have hseg := hr.noWrap c.gran_granularity
      have hslot : (c.findSlot o size).1.1 ≠ 0 ↔ c.Fits size := by
        rw [e, hu.allocate_adopt h0, hgran]
        exact fits_iff hfloor hsize hseg
      constructor
      · exact fun h hgrow => hslot.1 (h.used hgrow)
      · intro h
        have hp := hslot.2 (h hgrows)
        refine ⟨fun _ => hp, fun hnone hc => ?_⟩
        rw [hreturn hp hready hnone] at hc
        cases hc

/-! ## Runs -/

theorem addCorralSegment_growFloor (c : Corral) (o : Outcome) (size : ℕ) :
    (c.addCorralSegment o size).2.growFloor = c.growFloor := by
  rcases addCorralSegment_new c o size with e | ⟨-, u, -, -, -, e, -⟩
  · rw [e]
  · rw [e]

theorem findSlot_growFloor (c : Corral) (o : Outcome) (size : ℕ) : (c.findSlot o size).2.growFloor = c.growFloor := by
  have hadd := fun segs => addCorralSegment_growFloor { c with segs := segs } o (c.growSize size)
  rcases hr : allocateFrom size c.segs with ⟨⟨p, i⟩, segs⟩
  unfold findSlot
  rw [hr]
  dsimp only
  split
  · rfl
  · rw [show growSize { c with segs := segs } size = c.growSize size from rfl]
    have h := hadd segs
    rcases e : ({ c with segs := segs } : Corral).addCorralSegment o (c.growSize size) with ⟨_ | _, d⟩
    · rw [e] at h
      exact h
    · rw [e] at h
      dsimp only
      split
      · exact h
      · exact h

theorem corralReserve_growFloor (c : Corral) (o : Outcome) (size type : ℕ) :
    (c.corralReserve o size type).2.growFloor = c.growFloor := by
  have h := findSlot_growFloor c o size
  unfold corralReserve
  dsimp only
  split_ifs
  · rfl
  · exact h
  · exact h
  · exact h

theorem corralFree_growFloor (c : Corral) (addr : ℕ) : (c.corralFree addr).2.growFloor = c.growFloor := by
  unfold corralFree
  split_ifs
  · rfl
  · split
    · rfl
    · dsimp only
      split
      · rfl
      · split_ifs <;> rfl

end

end Corral

namespace Corralled

open Corral

/-- From any start and settings and after any calls at all, CorralReserve wastes no segment on a request
of any size exactly when the segment it may add has room for it. -/
theorem unwasted_after (granKb topDownKb : Option ℤ) (o₀ : Outcome) (startMb growMb maxMb : Option ℕ) (ops : List CorralOp)
    (o : Outcome) {size : ℕ} (type : ℕ) (hpos : 0 < size) (hsize : size < 2 ^ 32)
    (ho : o.reserve ≠ 0 → Reserved o.reserve
      ((Run.after step (start granKb topDownKb o₀ startMb growMb maxMb) ops).corral.growSize size)) :
    (Run.after step (start granKb topDownKb o₀ startMb growMb maxMb) ops).corral.Unwasted o size type ↔
      ((Run.after step (start granKb topDownKb o₀ startMb growMb maxMb) ops).corral.Grows o size →
        (Run.after step (start granKb topDownKb o₀ startMb growMb maxMb) ops).corral.Fits size) := by
  have hfloor : ∀ (ops : List CorralOp) (s : Corralled), (Run.after step s ops).corral.growFloor = s.corral.growFloor := by
    intro ops
    induction ops with
    | nil => exact fun _ => rfl
    | cons op ops ih =>
      intro s
      rw [Run.after_cons, ih]
      cases op with
      | reserve size type o => exact corralReserve_growFloor s.corral o size type
      | free addr => exact corralFree_growFloor s.corral addr
  have hstart : (start granKb topDownKb o₀ startMb growMb maxMb).corral.growFloor = envMb growMb 32 :=
    addCorralSegment_growFloor { Corral.new granKb topDownKb with
      startBytes := envMb startMb 126, growFloor := envMb growMb 32, maxReserved := envMb maxMb 512 } o₀ (envMb startMb 126)
  exact unwasted_iff (by rw [hfloor, hstart]; exact dvd_envMb _ _) hpos hsize type ho

/-- The first segment is full, and one of the grow floor's size is added. -/
theorem unwasted_grown : (Run.after step (start none none ⟨0x10000000, true, true, true⟩ (some 1) (some 1) none)
      [.reserve 0x100000 MEM_COMMIT ⟨0, true, true, true⟩]).corral.Unwasted ⟨0x20000000, true, true, true⟩ 0x5000 MEM_COMMIT ↔
    ((Run.after step (start none none ⟨0x10000000, true, true, true⟩ (some 1) (some 1) none)
      [.reserve 0x100000 MEM_COMMIT ⟨0, true, true, true⟩]).corral.Grows ⟨0x20000000, true, true, true⟩ 0x5000 →
    (Run.after step (start none none ⟨0x10000000, true, true, true⟩ (some 1) (some 1) none)
      [.reserve 0x100000 MEM_COMMIT ⟨0, true, true, true⟩]).corral.Fits 0x5000) :=
  unwasted_after none none _ _ _ _ _ _ MEM_COMMIT (by decide) (by decide) (by decide +kernel)

/-- All settings at their defaults, and a request of 2 GB and 16 MB: twice that is 32 MB, which are
reserved in vain. -/
theorem not_unwasted_wrapped :
    ¬ (start none none ⟨0x10000000, true, true, true⟩ none none none).corral.Unwasted
      ⟨0x20000000, true, true, true⟩ 0x81000000 MEM_RESERVE := by
  intro h
  exact absurd (h.used (by decide +kernel)) (by decide +kernel)

end Corralled

end Ts3Vas
