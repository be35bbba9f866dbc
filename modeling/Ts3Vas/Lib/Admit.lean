/-
Tables of bounded size that are filled in order of first appearance: a value is admitted when fewer
than `cap` distinct ones come before it.
-/
import Mathlib.Tactic

namespace Admit

variable {α : Type*} [DecidableEq α]

/-- What comes before the first `t`. -/
def before (t : α) : List α → List α
  | [] => []
  | a :: l => if a = t then [] else a :: before t l

/-- `t` occurs, after fewer than `cap` distinct others. -/
def Admitted (cap : ℕ) (l : List α) (t : α) : Prop := t ∈ l ∧ (before t l).toFinset.card < cap

instance decidableAdmitted (cap : ℕ) (l : List α) (t : α) : Decidable (Admitted cap l t) :=
  inferInstanceAs (Decidable (_ ∧ _))

theorem before_append_of_mem {t : α} (m : List α) : ∀ {l : List α}, t ∈ l → before t (l ++ m) = before t l
  | a :: l, h => by
    by_cases ha : a = t
    · simp [before, ha]
    · have hl : t ∈ l := (List.mem_cons.1 h).resolve_left (Ne.symm ha)
      simp [before, ha, before_append_of_mem m hl]

theorem before_append_self {t : α} : ∀ {l : List α}, t ∉ l → before t (l ++ [t]) = l
  | [], _ => by simp [before]
  | a :: l, h => by
    rw [List.mem_cons, not_or] at h
    simp [before, Ne.symm h.1, before_append_self h.2]

theorem mem_before {a t : α} : ∀ {l : List α}, a ∈ before t l → a ∈ l ∧ a ≠ t
  | b :: l, h => by
    by_cases hb : b = t
    · simp [before, hb] at h
    · rw [before, if_neg hb, List.mem_cons] at h
      rcases h with rfl | h
      · exact ⟨List.mem_cons_self .., hb⟩
      · exact ⟨List.mem_cons_of_mem _ (mem_before h).1, (mem_before h).2⟩

/-- One more value: those admitted stay, and it is admitted when it is new and there is room. -/
theorem admitted_append {cap : ℕ} {l : List α} {x t : α} :
    Admitted cap (l ++ [x]) t ↔ Admitted cap l t ∨ t = x ∧ x ∉ l ∧ l.toFinset.card < cap := by
  by_cases ht : t ∈ l
  · simp only [Admitted, before_append_of_mem [x] ht, List.mem_append, ht, true_or, true_and]
    constructor
    · exact .inl
    · rintro (h | ⟨rfl, h, -⟩)
      · exact h
      · exact absurd ht h
  · have hn : ¬ Admitted cap l t := fun h => ht h.1
    constructor
    · rintro ⟨hm, hc⟩
      obtain rfl : t = x := by
        rcases List.mem_append.1 hm with hm | hm
        · exact absurd hm ht
        · exact List.mem_singleton.1 hm
      rw [before_append_self ht] at hc
      exact .inr ⟨rfl, ht, hc⟩
    · rintro (h | ⟨rfl, hx, hc⟩)
      · exact absurd h hn
      · exact ⟨by simp, by rw [before_append_self hx]; exact hc⟩

/-- With at most `cap` distinct values, every one is admitted. -/
theorem admitted_of_card_le {cap : ℕ} {l : List α} {t : α} (h : t ∈ l) (hc : l.toFinset.card ≤ cap) : Admitted cap l t := by
  refine ⟨h, lt_of_lt_of_le (Finset.card_lt_card ?_) hc⟩
  rw [Finset.ssubset_iff_of_subset]
  · exact ⟨t, List.mem_toFinset.2 h, fun hm => (mem_before (List.mem_toFinset.1 hm)).2 rfl⟩
  · intro a ha
    exact List.mem_toFinset.2 (mem_before (List.mem_toFinset.1 ha)).1

end Admit
