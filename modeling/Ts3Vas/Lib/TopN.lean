/-
Tables of the largest: a fixed number of cells, largest first, in which an entry takes the place of the
first one with a smaller key and the rest move down. After any entries the table is the beginning of the
list of them sorted stably by key.
-/
import Mathlib.Tactic
import Mathlib.Data.List.Sort

namespace TopN

variable {α κ : Type*} [LinearOrder κ] (key : α → κ)

/-- The last cell is lost. -/
def insert (x : α) : List α → List α
  | [] => []
  | y :: ys => if key y < key x then x :: (y :: ys).dropLast else y :: insert x ys

/-- `n` cells: the first of the list, then empty ones. -/
def cells (z : α) : ℕ → List α → List α
  | 0, _ => []
  | n + 1, [] => z :: cells z n []
  | n + 1, y :: l => y :: cells z n l

/-- The entries in the order that a table of any length has them in. -/
def rank (xs : List α) : List α := xs.foldl (fun l x => l.orderedInsert (fun a b => key b < key a) x) []

variable {key} {x z : α}

theorem cells_dropLast : ∀ (n : ℕ) (l : List α), (cells z (n + 1) l).dropLast = cells z n l
  | 0, [] => rfl
  | 0, _ :: _ => rfl
  | n + 1, [] => congrArg (z :: ·) (cells_dropLast n [])
  | n + 1, y :: l => by
    have hne : cells z (n + 1) l ≠ [] := by
      cases l <;> simp [cells]
    rw [cells, List.dropLast_cons_of_ne_nil hne, cells_dropLast n l, cells]

theorem insert_cells (hx : key z < key x) : ∀ (n : ℕ) (l : List α),
    insert key x (cells z n l) = cells z n (l.orderedInsert (fun a b => key b < key a) x)
  | 0, l => rfl
  | n + 1, [] => by
    have hdrop : (z :: cells z n []).dropLast = cells z n [] := cells_dropLast n []
    rw [cells, insert, if_pos hx, hdrop, List.orderedInsert_nil, cells]
  | n + 1, y :: l => by
    have hdrop : (y :: cells z n l).dropLast = cells z n (y :: l) := cells_dropLast n (y :: l)
    rw [cells, insert, List.orderedInsert_cons]
    split
    · rw [hdrop, cells]
    · rw [insert_cells hx n l, cells]

theorem cells_nil : ∀ n, cells z n [] = List.replicate n z
  | 0 => rfl
  | n + 1 => congrArg (z :: ·) (cells_nil n)

/-- Sorted lists with the same entries of each key in the same order are the same. -/
theorem eq_of_filter : ∀ {l l' : List α}, l.Pairwise (fun a b => key b ≤ key a) → l'.Pairwise (fun a b => key b ≤ key a) →
    (∀ k, l.filter (key · = k) = l'.filter (key · = k)) → l = l'
  | [], [], _, _, _ => rfl
  | [], b :: l', _, _, h => by
    have := h (key b)
    simp at this
  | a :: l, [], _, _, h => by
    have := h (key a)
    simp at this
  | a :: l, b :: l', hl, hl', h => by
    obtain ⟨ha, hl⟩ := List.pairwise_cons.1 hl
    obtain ⟨hb, htail⟩ := List.pairwise_cons.1 hl'
    have hmem : ∀ {x y : α} {m : List α}, x ∈ y :: m → (∀ c ∈ m, key c ≤ key y) → key x ≤ key y := by
      intro x y m hx hm
      rcases List.mem_cons.1 hx with rfl | hx
      · exact le_rfl
      · exact hm x hx
    have hba : b ∈ a :: l := by
      have hb : b ∈ (b :: l').filter (key · = key b) := by simp
      rw [← h] at hb
      exact (List.mem_filter.1 hb).1
    have hab : a ∈ b :: l' := by
      have ha : a ∈ (a :: l).filter (key · = key a) := by simp
      rw [h] at ha
      exact (List.mem_filter.1 ha).1
    have hkey : key a = key b := le_antisymm (hmem hab hb) (hmem hba ha)
    have hfirst := h (key a)
    rw [List.filter_cons_of_pos (by simp), List.filter_cons_of_pos (by simp [hkey])] at hfirst
    obtain ⟨rfl, -⟩ := List.cons.inj hfirst
    refine congrArg (a :: ·) (eq_of_filter hl htail fun k => ?_)
    have hk := h k
    by_cases hak : key a = k
    · rw [List.filter_cons_of_pos (by simpa using hak), List.filter_cons_of_pos (by simpa using hak)] at hk
      exact (List.cons.inj hk).2
    · rwa [List.filter_cons_of_neg (by simpa using hak), List.filter_cons_of_neg (by simpa using hak)] at hk

theorem filter_orderedInsert (k : κ) : ∀ {l : List α}, l.Pairwise (fun a b => key b ≤ key a) →
    (l.orderedInsert (fun a b => key b < key a) x).filter (key · = k) =
      l.filter (key · = k) ++ if key x = k then [x] else []
  | [], _ => by
    by_cases hx : key x = k <;> simp [hx]
  | y :: l, h => by
    obtain ⟨hy, hl⟩ := List.pairwise_cons.1 h
    rw [List.orderedInsert_cons]
    split
    · rename_i hlt
      by_cases hx : key x = k
      · -- nothing in the list has the key
        have hnone : (y :: l).filter (key · = k) = [] := by
          rw [List.filter_eq_nil_iff]
          intro c hc
          have hcy : key c ≤ key y := by
            rcases List.mem_cons.1 hc with rfl | hc
            · exact le_rfl
            · exact hy c hc
          simpa using (hcy.trans_lt (hx ▸ hlt)).ne
        rw [List.filter_cons_of_pos (by simpa using hx), hnone, if_pos hx]
        rfl
      · rw [List.filter_cons_of_neg (by simpa using hx), if_neg hx, List.append_nil]
    · have ih := filter_orderedInsert k hl
      by_cases hyk : key y = k
      · rw [List.filter_cons_of_pos (by simpa using hyk), ih, List.filter_cons_of_pos (by simpa using hyk), List.cons_append]
      · rw [List.filter_cons_of_neg (by simpa using hyk), ih, List.filter_cons_of_neg (by simpa using hyk)]

theorem orderedInsert_sorted : ∀ {l : List α}, l.Pairwise (fun a b => key b ≤ key a) →
    (l.orderedInsert (fun a b => key b < key a) x).Pairwise fun a b => key b ≤ key a
  | [], _ => by simp
  | y :: l, h => by
    obtain ⟨hy, hl⟩ := List.pairwise_cons.1 h
    rw [List.orderedInsert_cons]
    split
    · rename_i hlt
      refine List.pairwise_cons.2 ⟨fun c hc => ?_, h⟩
      rcases List.mem_cons.1 hc with rfl | hc
      · exact hlt.le
      · exact (hy c hc).trans hlt.le
    · rename_i hge
      refine List.pairwise_cons.2 ⟨fun c hc => ?_, orderedInsert_sorted hl⟩
      rcases (List.mem_orderedInsert _).1 hc with rfl | hc
      · exact not_lt.1 hge
      · exact hy c hc

theorem rank_spec (xs : List α) : (rank key xs).Pairwise (fun a b => key b ≤ key a) ∧
    ∀ k, (rank key xs).filter (key · = k) = xs.filter (key · = k) := by
  induction xs using List.reverseRecOn with
  | nil => exact ⟨.nil, fun _ => rfl⟩
  | append_singleton xs x ih =>
    have hconcat : rank key (xs ++ [x]) = (rank key xs).orderedInsert (fun a b => key b < key a) x := List.foldl_concat ..
    rw [hconcat]
    refine ⟨orderedInsert_sorted ih.1, fun k => ?_⟩
    rw [filter_orderedInsert k ih.1, ih.2 k, List.filter_append]
    by_cases hx : key x = k <;> simp [hx]

theorem mergeSort_filter (xs : List α) (k : κ) :
    (xs.mergeSort fun a b => decide (key b ≤ key a)).filter (key · = k) = xs.filter (key · = k) := by
  have hsub : (xs.filter (key · = k)).Sublist (xs.mergeSort fun a b => decide (key b ≤ key a)) := by
    refine List.sublist_mergeSort (fun a b c hab hbc => ?_) (fun a b => ?_) ?_ List.filter_sublist
    · rw [decide_eq_true_eq] at hab hbc ⊢
      exact hbc.trans hab
    · rw [Bool.or_eq_true, decide_eq_true_eq, decide_eq_true_eq]
      exact le_total ..
    · refine List.pairwise_iff_forall_sublist.2 fun {a b} hab => ?_
      have ha : a ∈ xs.filter (key · = k) := hab.subset (by simp)
      have hb : b ∈ xs.filter (key · = k) := hab.subset (by simp)
      have ha := (List.mem_filter.1 ha).2
      have hb := (List.mem_filter.1 hb).2
      rw [decide_eq_true_eq] at ha hb ⊢
      rw [ha, hb]
  have hsub' := hsub.filter fun x => decide (key x = k)
  simp only [List.filter_filter, Bool.and_self] at hsub'
  exact (hsub'.eq_of_length ((List.mergeSort_perm xs _).filter _).length_eq.symm).symm

theorem rank_eq (xs : List α) : rank key xs = xs.mergeSort fun a b => decide (key b ≤ key a) := by
  obtain ⟨hsorted, hfilter⟩ := @rank_spec α κ _ key xs
  refine eq_of_filter hsorted ?_ fun k => (hfilter k).trans (mergeSort_filter xs k).symm
  have hmerge := @List.pairwise_mergeSort _ (fun a b => decide (key b ≤ key a))
    (fun a b c hab hbc => by
      rw [decide_eq_true_eq] at hab hbc ⊢
      exact hbc.trans hab)
    (fun a b => by
      rw [Bool.or_eq_true, decide_eq_true_eq, decide_eq_true_eq]
      exact le_total ..) xs
  exact hmerge.imp fun h => of_decide_eq_true h

/-- The table of the entries, from an empty one. -/
theorem foldl_insert (n : ℕ) {xs : List α} (hxs : ∀ x ∈ xs, key z < key x) :
    xs.foldl (fun t x => insert key x t) (List.replicate n z) = cells z n (xs.mergeSort fun a b => decide (key b ≤ key a)) := by
  rw [← rank_eq]
  induction xs using List.reverseRecOn with
  | nil => exact (cells_nil n).symm
  | append_singleton xs x ih =>
    have hconcat : rank key (xs ++ [x]) = (rank key xs).orderedInsert (fun a b => key b < key a) x := List.foldl_concat ..
    rw [List.foldl_concat, ih fun y hy => hxs y (List.mem_append_left _ hy), hconcat]
    exact insert_cells (hxs x (by simp)) n _

/-- The cells in use. -/
theorem takeWhile_cells : ∀ (n : ℕ) {l : List α}, (∀ x ∈ l, key z < key x) →
    (cells z n l).takeWhile (fun x => decide (key z < key x)) = l.take n
  | 0, l, _ => by
    rw [cells, List.take_zero, List.takeWhile_nil]
  | n + 1, [], _ => by
    rw [cells, List.takeWhile_cons_of_neg (by simp), List.take_nil]
  | n + 1, y :: l, h => by
    have hy : key z < key y := h y List.mem_cons_self
    rw [cells, List.takeWhile_cons_of_pos (by simpa using hy), List.take_succ_cons]
    exact congrArg (y :: ·) (takeWhile_cells n fun x hx => h x (List.mem_cons_of_mem _ hx))

/-- The cells in use, by any test that tells them from the empty ones. -/
theorem filter_cells {p : α → Bool} (hz : p z = false) : ∀ (n : ℕ) {l : List α}, (∀ x ∈ l, p x = true) →
    (cells z n l).filter p = l.take n
  | 0, l, _ => by
    rw [cells, List.take_zero, List.filter_nil]
  | n + 1, [], _ => by
    rw [cells_nil, List.filter_replicate_of_neg (by simp [hz]), List.take_nil]
  | n + 1, y :: l, h => by
    rw [cells, List.filter_cons_of_pos (h y List.mem_cons_self), List.take_succ_cons]
    exact congrArg (y :: ·) (filter_cells hz n fun x hx => h x (List.mem_cons_of_mem _ hx))

variable (key z) in
/-- What is read of the table are the entries with the largest keys, in order. -/
theorem takeWhile_foldl (n : ℕ) {xs : List α} (hxs : ∀ x ∈ xs, key z < key x) :
    (xs.foldl (fun t x => insert key x t) (List.replicate n z)).takeWhile (fun x => decide (key z < key x)) =
      (xs.mergeSort fun a b => decide (key b ≤ key a)).take n := by
  rw [foldl_insert n hxs]
  exact takeWhile_cells n fun x hx => hxs x (List.mem_mergeSort.1 hx)

end TopN
