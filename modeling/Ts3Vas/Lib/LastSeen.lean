/-
Direct-mapped tables: every event overwrites the one cell it falls in. A cell holds the last event that fell
in it, so a lookup sees an earlier event exactly if nothing else has fallen in its cell since. Beside them,
the events that are the first of their key.
-/
import Mathlib.Tactic

namespace LastSeen

variable {α β : Type*} (cell : α → ℕ) (entry : α → β)

def put (table : ℕ → β) (x : α) : ℕ → β := Function.update table (cell x) (entry x)

/-- The last event of a cell. -/
def last (xs : List α) (c : ℕ) : Option α := (xs.filter fun x => cell x = c).getLast?

variable {cell entry}

theorem last_concat (xs : List α) (x : α) (c : ℕ) : last cell (xs ++ [x]) c = if cell x = c then some x else last cell xs c := by
  unfold last
  rw [List.filter_append]
  by_cases hx : cell x = c
  · rw [if_pos hx, List.filter_cons_of_pos (by simpa using hx), List.filter_nil, List.getLast?_concat]
  · rw [if_neg hx, List.filter_cons_of_neg (by simpa using hx), List.filter_nil, List.append_nil]

theorem foldl_put (table : ℕ → β) (xs : List α) (c : ℕ) :
    xs.foldl (put cell entry) table c = ((last cell xs c).map entry).getD (table c) := by
  induction xs using List.reverseRecOn with
  | nil => rfl
  | append_singleton xs x ih =>
    rw [List.foldl_concat, last_concat, put]
    by_cases hx : cell x = c
    · rw [if_pos hx, ← hx, Function.update_self]
      rfl
    · rw [if_neg hx, Function.update_of_ne (Ne.symm hx), ih]

theorem mem_of_last {xs : List α} {x : α} {c : ℕ} (h : last cell xs c = some x) : x ∈ xs ∧ cell x = c := by
  have hx := List.mem_of_getLast? h
  rw [List.mem_filter, decide_eq_true_eq] at hx
  exact hx

/-! ## First ones -/

section
variable {κ : Type*} [DecidableEq κ] (key : α → κ)

/-- Those with a key that none before has. -/
def firsts (xs : List α) : List α := (xs.reverse.pwFilter fun x y => key y ≠ key x).reverse

variable {key}

theorem firsts_concat_of_pos {xs : List α} {x : α} (h : ∀ y ∈ firsts key xs, key y ≠ key x) :
    firsts key (xs ++ [x]) = firsts key xs ++ [x] := by
  unfold firsts at h ⊢
  rw [List.reverse_concat, List.pwFilter_cons_of_pos fun y hy => h y (List.mem_reverse.2 hy), List.reverse_cons]

theorem firsts_concat_of_neg {xs : List α} {x : α} (h : ∃ y ∈ firsts key xs, key y = key x) :
    firsts key (xs ++ [x]) = firsts key xs := by
  obtain ⟨y, hy, hkey⟩ := h
  unfold firsts at hy ⊢
  rw [List.reverse_concat, List.pwFilter_cons_of_neg fun hall => hall y (List.mem_reverse.1 hy) hkey]

theorem firsts_nodup (xs : List α) : ((firsts key xs).map key).Nodup := by
  rw [firsts, List.map_reverse, List.nodup_reverse, List.Nodup, List.pairwise_map]
  exact (List.pairwise_pwFilter _).imp fun h => Ne.symm h

theorem mem_firsts_key {xs : List α} {k : κ} : k ∈ (firsts key xs).map key ↔ k ∈ xs.map key := by
  induction xs using List.reverseRecOn with
  | nil => rfl
  | append_singleton xs x ih =>
    rw [List.map_append, List.map_singleton, List.mem_append, List.mem_singleton, ← ih]
    by_cases hx : key x ∈ (firsts key xs).map key
    · rw [firsts_concat_of_neg (List.mem_map.1 hx)]
      constructor
      · exact .inl
      · rintro (h | rfl)
        · exact h
        · exact hx
    · rw [firsts_concat_of_pos fun y hy hkey => hx (List.mem_map.2 ⟨y, hy, hkey⟩), List.map_append, List.mem_append,
        List.map_singleton, List.mem_singleton]

end

end LastSeen
