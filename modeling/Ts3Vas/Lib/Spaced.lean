/-
Events that come at least a gap apart. Over a span of time there are no more of them than gaps fit in it,
and one more. And the other way round: events that come at most a gap apart.
-/
import Mathlib.Tactic

/-- Each entry comes at least `gap` after the one before it. -/
def Spaced {α : Type*} (time : α → ℕ) (gap : ℕ) (l : List α) : Prop := l.IsChain fun a b => time a + gap ≤ time b

namespace Spaced

variable {α : Type*} {time : α → ℕ} {gap : ℕ} {l l' : List α} {a b : α}

theorem nil : Spaced time gap [] := List.IsChain.nil

theorem concat (h : Spaced time gap l) (hb : ∀ a ∈ l.getLast?, time a + gap ≤ time b) : Spaced time gap (l ++ [b]) := by
  refine List.IsChain.append h (.singleton b) fun a ha x hx => ?_
  cases hx
  exact hb a ha

theorem sublist (h : Spaced time gap l) (hs : l'.Sublist l) : Spaced time gap l' := by
  have : Trans (fun a b => time a + gap ≤ time b) (fun a b => time a + gap ≤ time b) (fun a b => time a + gap ≤ time b) :=
    ⟨fun hab hbc => by omega⟩
  exact List.IsChain.sublist h hs

/-- From the first to the last. -/
theorem first_last : ∀ {l : List α} {a : α}, Spaced time gap (a :: l) → ∀ b ∈ (a :: l).getLast?,
    time a + l.length * gap ≤ time b
  | [], a, _, b, hb => by
    cases hb
    simp
  | a' :: l, a, h, b, hb => by
    obtain ⟨ha, hrest⟩ := List.isChain_cons_cons.1 h
    rw [List.getLast?_cons_cons] at hb
    have ih := first_last hrest b hb
    rw [List.length_cons, Nat.succ_mul]
    omega

/-- An entry with `n` after it is `n` gaps before the last. -/
theorem before_last {pre post : List α} (h : Spaced time gap (pre ++ a :: post)) (hb : b ∈ (a :: post).getLast?) :
    time a + post.length * gap ≤ time b :=
  first_last (h.sublist (List.sublist_append_right ..)) b hb

/-- All entries lie between two times. -/
theorem length_le (h : Spaced time gap l) {lo hi : ℕ} (hl : ∀ x ∈ l, lo ≤ time x ∧ time x ≤ hi) :
    l = [] ∨ lo + (l.length - 1) * gap ≤ hi := by
  rcases l with _ | ⟨a, l⟩
  · exact .inl rfl
  · right
    obtain ⟨b, hb⟩ : ∃ b, (a :: l).getLast? = some b := ⟨_, List.getLast?_eq_some_getLast (List.cons_ne_nil a l)⟩
    have hfl := first_last h b hb
    have ha := (hl a (List.mem_cons_self ..)).1
    have hbhi := (hl b (List.mem_of_getLast? hb)).2
    rw [List.length_cons, Nat.add_sub_cancel]
    omega

theorem first_le (h : Spaced time gap (a :: l)) {x : α} (hx : x ∈ a :: l) : time a ≤ time x := by
  rcases List.mem_cons.1 hx with rfl | hx
  · exact le_rfl
  · have hpair : Spaced time gap [a, x] := h.sublist ((List.singleton_sublist.2 hx).cons_cons a)
    have := first_last hpair x rfl
    omega

/-- The earlier entries and the later ones. -/
theorem split : ∀ {l : List α}, Spaced time gap l → ∀ lo, l = l.filter (fun x => time x < lo) ++ l.filter fun x => lo ≤ time x
  | [], _, _ => rfl
  | a :: l, h, lo => by
    by_cases ha : time a < lo
    · rw [List.filter_cons_of_pos (by simpa using ha), List.filter_cons_of_neg (by simpa using ha), List.cons_append]
      exact congrArg (a :: ·) (split h.tail lo)
    · have hall : ∀ x ∈ a :: l, lo ≤ time x := fun x hx => (not_lt.1 ha).trans (h.first_le hx)
      rw [List.filter_eq_nil_iff.2, List.filter_eq_self.2, List.nil_append]
      · exact fun x hx => decide_eq_true (hall x hx)
      · exact fun x hx => by simpa using hall x hx

end Spaced

/-- Each entry comes at most `gap` after the one before it. -/
def Frequent {α : Type*} (time : α → ℕ) (gap : ℕ) (l : List α) : Prop := l.IsChain fun a b => time b ≤ time a + gap

namespace Frequent

variable {α : Type*} {time : α → ℕ} {gap : ℕ} {l : List α} {b : α}

theorem nil : Frequent time gap [] := List.IsChain.nil

theorem concat (h : Frequent time gap l) (hb : ∀ a ∈ l.getLast?, time b ≤ time a + gap) : Frequent time gap (l ++ [b]) := by
  refine List.IsChain.append h (.singleton b) fun a ha x hx => ?_
  cases hx
  exact hb a ha

theorem right {l l' : List α} (h : Frequent time gap (l ++ l')) : Frequent time gap l' := List.IsChain.right_of_append h

theorem first_last : ∀ {l : List α} {a : α}, Frequent time gap (a :: l) → ∀ b ∈ (a :: l).getLast?,
    time b ≤ time a + l.length * gap
  | [], a, _, b, hb => by
    cases hb
    simp
  | a' :: l, a, h, b, hb => by
    obtain ⟨ha, hrest⟩ := List.isChain_cons_cons.1 h
    rw [List.getLast?_cons_cons] at hb
    have ih := first_last hrest b hb
    rw [List.length_cons, Nat.succ_mul]
    omega

end Frequent
