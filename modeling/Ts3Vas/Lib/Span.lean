/-
Half-open ranges of addresses: how often a list of ranges covers an address, when ranges are
pairwise apart, and how a sorted list of ranges is inserted into, merged and searched.
A list is read through its cover count: rearranging, splitting and joining ranges leaves the
count alone, so "disjoint" and "nothing lost" are both statements about one number.
-/
import Mathlib.Tactic
import Mathlib.Data.List.Pairwise
import Mathlib.Data.List.Count

/-- The addresses `lo … lo + len − 1`. -/
structure Span where
  lo : ℕ
  len : ℕ
  deriving DecidableEq, Repr

namespace Span

/-- One past the last address. -/
def hi (s : Span) : ℕ := s.lo + s.len

@[simp] theorem hi_mk (a n : ℕ) : hi ⟨a, n⟩ = a + n := rfl

instance : Membership ℕ Span := ⟨fun s x => s.lo ≤ x ∧ x < s.hi⟩

theorem mem_iff {s : Span} {x : ℕ} : x ∈ s ↔ s.lo ≤ x ∧ x < s.hi := Iff.rfl

@[simp] theorem mem_mk {a n x : ℕ} : x ∈ (⟨a, n⟩ : Span) ↔ a ≤ x ∧ x < a + n := Iff.rfl

instance (s : Span) (x : ℕ) : Decidable (x ∈ s) := inferInstanceAs (Decidable (_ ∧ _))

/-- The two ranges share no address. -/
def Apart (a b : Span) : Prop := ∀ x, x ∈ a → x ∉ b

theorem Apart.symm {a b : Span} (h : Apart a b) : Apart b a := fun x hb ha => h x ha hb

/-- Nonempty ranges are apart exactly when one ends before the other starts. -/
theorem apart_iff {a b : Span} (ha : 0 < a.len) (hb : 0 < b.len) :
    Apart a b ↔ a.hi ≤ b.lo ∨ b.hi ≤ a.lo := by
  constructor
  · intro h
    by_contra hc
    push Not at hc
    refine h (max a.lo b.lo) ?_ ?_ <;> simp only [mem_iff, hi] at * <;> omega
  · rintro h x hx hx'
    simp only [mem_iff] at hx hx'; omega

/-- The range lies in `[a, b)`. -/
def Within (a b : ℕ) (s : Span) : Prop := a ≤ s.lo ∧ s.hi ≤ b

instance (a b : ℕ) (s : Span) : Decidable (Within a b s) := inferInstanceAs (Decidable (_ ∧ _))

/-! ## Cover counts -/

/-- How many ranges of the list contain `x`. -/
def cover (l : List Span) (x : ℕ) : ℕ := l.countP (x ∈ ·)

/-- The number of addresses, ranges counted one by one. -/
def total (l : List Span) : ℕ := (l.map Span.len).sum

@[simp] theorem cover_nil (x : ℕ) : cover [] x = 0 := rfl

@[simp] theorem cover_cons (s : Span) (l : List Span) (x : ℕ) :
    cover (s :: l) x = (if x ∈ s then 1 else 0) + cover l x := by
  unfold cover; rw [List.countP_cons]; simp [Nat.add_comm]

@[simp] theorem cover_append (l m : List Span) (x : ℕ) : cover (l ++ m) x = cover l x + cover m x := by
  unfold cover; exact List.countP_append

@[simp] theorem total_nil : total [] = 0 := rfl

@[simp] theorem total_cons (s : Span) (l : List Span) : total (s :: l) = s.len + total l := by
  simp [total]

@[simp] theorem total_append (l m : List Span) : total (l ++ m) = total l + total m := by
  simp [total]

theorem cover_perm {l m : List Span} (h : l.Perm m) (x : ℕ) : cover l x = cover m x := h.countP_eq _

theorem total_perm {l m : List Span} (h : l.Perm m) : total l = total m := (h.map _).sum_eq

theorem cover_pos_iff {l : List Span} {x : ℕ} : 0 < cover l x ↔ ∃ s ∈ l, x ∈ s := by
  unfold cover; rw [List.countP_pos_iff]; simp

/-- An address of a member is counted. -/
theorem one_le_cover {l : List Span} {s : Span} (hs : s ∈ l) {x : ℕ} (hx : x ∈ s) : 1 ≤ cover l x :=
  cover_pos_iff.2 ⟨s, hs, hx⟩

/-- A list of no bytes covers nothing. -/
theorem cover_eq_zero {l : List Span} (h : total l = 0) (x : ℕ) : cover l x = 0 := by
  by_contra hne
  obtain ⟨s, hs, hx⟩ := cover_pos_iff.1 (Nat.pos_of_ne_zero hne)
  have hle : s.len ≤ total l := List.single_le_sum (by simp) _ (List.mem_map_of_mem hs)
  simp only [mem_iff, hi] at hx
  omega

/-- A list that covers no address twice is pairwise apart. -/
theorem pairwise_apart : ∀ {l : List Span}, (∀ x, cover l x ≤ 1) → l.Pairwise Apart
  | [], _ => List.Pairwise.nil
  | s :: l, h => by
    refine List.Pairwise.cons (fun t ht x hs hx => ?_) (pairwise_apart fun x => ?_)
    · have := h x
      have := one_le_cover ht hx
      simp only [cover_cons, hs, if_true] at *; omega
    · have := h x; simp only [cover_cons] at this; omega

/-- Pairwise disjoint ranges cover each address at most once. -/
theorem cover_le_one : ∀ {l : List Span}, l.Pairwise Apart → ∀ x, cover l x ≤ 1
  | [], _, _ => Nat.zero_le _
  | s :: l, h, x => by
    obtain ⟨hs, hl⟩ := List.pairwise_cons.1 h
    have ih := cover_le_one hl x
    rw [cover_cons]
    split
    · have hzero : cover l x = 0 := by
        by_contra hne
        obtain ⟨t, ht, hx⟩ := cover_pos_iff.1 (Nat.pos_of_ne_zero hne)
        exact hs t ht x ‹_› hx
      omega
    · omega

/-- The bytes of a list are its cover counts added up over the addresses. -/
theorem total_eq_sum_cover {a b : ℕ} : ∀ {l : List Span}, (∀ s ∈ l, Within a b s) →
    total l = ∑ x ∈ Finset.Ico a b, cover l x
  | [], _ => by simp
  | s :: l, h => by
    obtain ⟨hs, hl⟩ := List.forall_mem_cons.1 h
    have hcount : ∑ x ∈ Finset.Ico a b, (if x ∈ s then 1 else 0) = s.len := by
      have hset : (Finset.Ico a b).filter (· ∈ s) = Finset.Ico s.lo s.hi := by
        ext x
        simp only [Finset.mem_filter, Finset.mem_Ico, mem_iff]
        exact ⟨fun h => h.2, fun h => ⟨⟨hs.1.trans h.1, h.2.trans_le hs.2⟩, h⟩⟩
      rw [← Finset.card_filter, hset, Nat.card_Ico, hi, Nat.add_sub_cancel_left]
    simp only [cover_cons, Finset.sum_add_distrib]
    rw [total_cons, hcount, total_eq_sum_cover hl]

/-- Ranges that lie in `[a, b)` and cover each of its addresses once make up its bytes. -/
theorem total_of_cover_one {a b : ℕ} {l : List Span} (h : ∀ s ∈ l, Within a b s)
    (hc : ∀ x, a ≤ x → x < b → cover l x = 1) : total l = b - a := by
  have hsum : ∑ x ∈ Finset.Ico a b, cover l x = ∑ x ∈ Finset.Ico a b, 1 :=
    Finset.sum_congr rfl fun x hx => hc x (Finset.mem_Ico.1 hx).1 (Finset.mem_Ico.1 hx).2
  rw [total_eq_sum_cover h, hsum, Finset.sum_const, Nat.card_Ico, smul_eq_mul, Nat.mul_one]

/-- Disjoint ranges that lie in `[a, b)` have at most its bytes. -/
theorem total_le_of_apart {a b : ℕ} {l : List Span} (h : ∀ s ∈ l, Within a b s) (hl : l.Pairwise Apart) :
    total l ≤ b - a := by
  have hsum : ∑ x ∈ Finset.Ico a b, cover l x ≤ ∑ x ∈ Finset.Ico a b, 1 :=
    Finset.sum_le_sum fun x _ => cover_le_one hl x
  rwa [← total_eq_sum_cover h, Finset.sum_const, Nat.card_Ico, smul_eq_mul, Nat.mul_one] at hsum

/-! ## Cutting and joining -/

/-- Two touching ranges cover what their join covers. -/
theorem cover_join (a m n : ℕ) (l : List Span) (x : ℕ) :
    cover (⟨a, m⟩ :: ⟨a + m, n⟩ :: l) x = cover (⟨a, m + n⟩ :: l) x := by
  simp only [cover_cons, mem_mk]
  split_ifs <;> omega

/-- A range cut at `n` covers what it covered whole. -/
theorem cover_cut {a n m : ℕ} (h : n ≤ m) (l : List Span) (x : ℕ) :
    cover (⟨a, n⟩ :: ⟨a + n, m - n⟩ :: l) x = cover (⟨a, m⟩ :: l) x := by
  rw [cover_join, Nat.add_sub_cancel' h]

/-! ## Sorted lists -/

/-- Sorted, each range ending at or before the next one's start. -/
def Ordered (l : List Span) : Prop := l.Pairwise fun a b => a.hi ≤ b.lo

/-- Sorted, with a gap between any two ranges. -/
def Separated (l : List Span) : Prop := l.Pairwise fun a b => a.hi < b.lo

theorem Separated.ordered {l : List Span} (h : Separated l) : Ordered l := h.imp fun h => h.le

theorem separated_cons {s : Span} {l : List Span} :
    Separated (s :: l) ↔ (∀ t ∈ l, s.hi < t.lo) ∧ Separated l := List.pairwise_cons

theorem ordered_cons {s : Span} {l : List Span} :
    Ordered (s :: l) ↔ (∀ t ∈ l, s.hi ≤ t.lo) ∧ Ordered l := List.pairwise_cons

/-- Two members of a separated list are the same or have a gap between them. -/
theorem Separated.trichotomy : ∀ {l : List Span}, Separated l → ∀ {s t : Span}, s ∈ l → t ∈ l →
    s = t ∨ s.hi < t.lo ∨ t.hi < s.lo
  | u :: l, h, s, t, hs, ht => by
    obtain ⟨hu, hl⟩ := separated_cons.1 h
    rcases List.mem_cons.1 hs with rfl | hs' <;> rcases List.mem_cons.1 ht with rfl | ht'
    · exact .inl rfl
    · exact .inr (.inl (hu t ht'))
    · exact .inr (.inr (hu s hs'))
    · exact hl.trichotomy hs' ht'

/-- A run of covered addresses never crosses a gap: it lies inside one range. -/
theorem Separated.run {l : List Span} (h : Separated l) {a n : ℕ} (hn : 0 < n)
    (hc : ∀ x, a ≤ x → x < a + n → 0 < cover l x) : ∃ s ∈ l, s.lo ≤ a ∧ a + n ≤ s.hi := by
  obtain ⟨s, hs, hlo, hhi⟩ := cover_pos_iff.1 (hc a le_rfl (by omega))
  refine ⟨s, hs, hlo, ?_⟩
  by_contra hlt
  -- the first address after `s` is covered by another range, which then touches `s`
  obtain ⟨t, ht, htlo, hthi⟩ := cover_pos_iff.1 (hc s.hi hhi.le (by omega))
  rcases h.trichotomy hs ht with rfl | e | e <;> omega

/-! ## Joining touching ranges -/

/-- Walks the list from `s`, joining a range with every range that starts where it ends. -/
def mergeFrom (s : Span) : List Span → List Span
  | [] => [s]
  | t :: l => if s.hi = t.lo then mergeFrom ⟨s.lo, s.len + t.len⟩ l else s :: mergeFrom t l

theorem cover_mergeFrom (x : ℕ) : ∀ (l : List Span) (s : Span), cover (mergeFrom s l) x = cover (s :: l) x
  | [], _ => rfl
  | t :: l, s => by
    unfold mergeFrom
    split
    · rename_i h
      obtain ⟨a, m⟩ := s
      obtain ⟨b, n⟩ := t
      simp only [hi_mk] at h
      subst h
      rw [cover_mergeFrom x l, cover_join]
    · rw [cover_cons, cover_mergeFrom x l t, cover_cons s]

/-- What is closed under joining two touching ranges holds of every range of the result. -/
theorem forall_mergeFrom {P : Span → Prop} (hP : ∀ a m n, P ⟨a, m⟩ → P ⟨a + m, n⟩ → P ⟨a, m + n⟩) :
    ∀ (l : List Span) (s : Span), (∀ t ∈ s :: l, P t) → ∀ t ∈ mergeFrom s l, P t
  | [], _, h => h
  | t :: l, s, h => by
    unfold mergeFrom
    obtain ⟨hs, hl⟩ := List.forall_mem_cons.1 h
    obtain ⟨ht, hl'⟩ := List.forall_mem_cons.1 hl
    split
    · rename_i e
      refine forall_mergeFrom hP l _ (List.forall_mem_cons.2 ⟨hP _ _ _ hs ?_, hl'⟩)
      show P ⟨s.hi, t.len⟩
      rw [e]; exact ht
    · exact List.forall_mem_cons.2 ⟨hs, forall_mergeFrom hP l t hl⟩

/-- Merging leaves each range inside one of the merged ones. -/
theorem exists_mem_mergeFrom : ∀ (l : List Span) (s : Span), ∀ u ∈ s :: l,
    ∃ t ∈ mergeFrom s l, t.lo ≤ u.lo ∧ u.hi ≤ t.hi
  | [], s, u, hu => ⟨s, List.mem_singleton.2 rfl, by rw [List.mem_singleton.1 hu]; exact ⟨le_rfl, le_rfl⟩⟩
  | t :: l, s, u, hu => by
    unfold mergeFrom
    split
    · rename_i hst
      have hjoin := exists_mem_mergeFrom l ⟨s.lo, s.len + t.len⟩ ⟨s.lo, s.len + t.len⟩ (List.mem_cons_self ..)
      rcases List.mem_cons.1 hu with rfl | hu
      · obtain ⟨v, hv, h1, h2⟩ := hjoin
        simp only [hi] at h2 ⊢
        exact ⟨v, hv, h1, by omega⟩
      rcases List.mem_cons.1 hu with rfl | hu
      · obtain ⟨v, hv, h1, h2⟩ := hjoin
        simp only [hi] at hst h1 h2 ⊢
        exact ⟨v, hv, by omega, by omega⟩
      · exact exists_mem_mergeFrom l _ u (List.mem_cons_of_mem _ hu)
    · rcases List.mem_cons.1 hu with rfl | hu
      · exact ⟨u, List.mem_cons_self .., le_rfl, le_rfl⟩
      · obtain ⟨v, hv, h⟩ := exists_mem_mergeFrom l t u hu
        exact ⟨v, List.mem_cons_of_mem _ hv, h⟩

/-- The first range of the result starts where the walk started, so nothing lies before it. -/
theorem le_lo_mergeFrom : ∀ (l : List Span) (s : Span), Ordered (s :: l) → ∀ t ∈ mergeFrom s l, s.lo ≤ t.lo
  | [], s, _ => by simp [mergeFrom]
  | t :: l, s, h => by
    unfold mergeFrom
    obtain ⟨hs, hl⟩ := ordered_cons.1 h
    obtain ⟨ht, hl'⟩ := ordered_cons.1 hl
    have hst : s.lo + s.len ≤ t.lo := hs t (List.mem_cons_self ..)
    split
    · rename_i e
      refine le_lo_mergeFrom l _ (ordered_cons.2 ⟨fun u hu => ?_, hl'⟩)
      have := ht u hu
      simp only [hi] at *; omega
    · refine List.forall_mem_cons.2 ⟨le_rfl, fun u hu => ?_⟩
      have := le_lo_mergeFrom l t hl u hu
      omega

/-- Merging a sorted list leaves a gap between any two ranges. -/
theorem separated_mergeFrom : ∀ (l : List Span) (s : Span), Ordered (s :: l) → Separated (mergeFrom s l)
  | [], _, _ => List.pairwise_singleton _ _
  | t :: l, s, h => by
    unfold mergeFrom
    obtain ⟨hs, hl⟩ := ordered_cons.1 h
    obtain ⟨ht, hl'⟩ := ordered_cons.1 hl
    have hst := hs t (List.mem_cons_self ..)
    split
    · rename_i e
      refine separated_mergeFrom l _ (ordered_cons.2 ⟨fun u hu => ?_, hl'⟩)
      have := ht u hu
      simp only [hi] at *; omega
    · rename_i hne
      refine separated_cons.2 ⟨fun u hu => ?_, separated_mergeFrom l t hl⟩
      have := le_lo_mergeFrom l t hl u hu
      omega

/-- A list with gaps is left as it is. -/
theorem mergeFrom_of_separated : ∀ (l : List Span) (s : Span), Separated (s :: l) → mergeFrom s l = s :: l
  | [], _, _ => rfl
  | t :: l, s, h => by
    obtain ⟨hs, hl⟩ := separated_cons.1 h
    have := hs t (List.mem_cons_self ..)
    rw [mergeFrom, if_neg (by omega), mergeFrom_of_separated l t hl]

end Span
