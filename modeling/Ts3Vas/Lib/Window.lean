/-
Windows of a sequence: what lies between one mark and the next, and between an origin that comes before
all marks and the first of them. Each mark closes one window, and what comes after the origin and before
some mark lies in one.
-/
import Mathlib.Tactic

namespace Marks

variable {origin mark : ℕ → Prop}

/-- A mark, and the mark before it or the origin. -/
structure Window (origin mark : ℕ → Prop) (i j : ℕ) : Prop where
  lt : i < j
  opens : origin i ∨ mark i
  closes : mark j
  quiet : ∀ l, i < l → l < j → ¬ mark l

/-- An origin comes before every mark, and no other does. -/
structure Origin (origin mark : ℕ → Prop) : Prop where
  sole : ∀ i j, origin i → origin j → i = j
  before : ∀ i j, origin i → mark j → i < j

section
variable {i i' j n : ℕ}

theorem Window.not_lt (h : Window origin mark i j) (h' : Window origin mark i' j) (ho : Origin origin mark) : ¬ i < i' := by
  intro hlt
  rcases h'.opens with horigin | hmark
  · rcases h.opens with hopen | hopen
    · exact hlt.ne (ho.sole i i' hopen horigin)
    · exact absurd (ho.before i' i horigin hopen) (by omega)
  · exact h.quiet i' hlt h'.lt hmark

theorem Window.unique (h : Window origin mark i j) (h' : Window origin mark i' j) (ho : Origin origin mark) : i = i' := by
  have := h.not_lt h' ho
  have := h'.not_lt h ho
  omega

/-- The first mark closes the window that the origin opens. -/
theorem window_first (ho : Origin origin mark) (hi : origin i) (hj : mark j) (hleast : ∀ l < j, ¬ mark l) :
    Window origin mark i j :=
  ⟨ho.before i j hi hj, .inl hi, hj, fun l _ hl => hleast l hl⟩

theorem exists_window (ho : Origin origin mark) (hi : origin i) (hj : mark j) : ∃ i, Window origin mark i j := by
  by_cases hprev : ∃ l < j, mark l
  · classical
    obtain ⟨l, hl, hmark⟩ := hprev
    have hlast := Nat.findGreatest_spec (P := fun l => l < j ∧ mark l) hl.le ⟨hl, hmark⟩
    refine ⟨_, hlast.1, .inr hlast.2, hj, fun k hk hkj hmark => ?_⟩
    exact Nat.findGreatest_is_greatest hk hkj.le ⟨hkj, hmark⟩
  · exact ⟨i, window_first ho hi hj fun l hl hmark => hprev ⟨l, hl, hmark⟩⟩

/-- What is neither origin nor mark lies in the window of the next mark, and in no other. -/
theorem existsUnique_window (ho : Origin origin mark) (hi : origin i) (hin : i < n) (hn : ¬ mark n) (hlater : ∃ j > n, mark j) :
    ∃! w : ℕ × ℕ, Window origin mark w.1 w.2 ∧ w.1 < n ∧ n < w.2 := by
  classical
  have hspec := Nat.find_spec hlater
  have hleast : ∀ l, n < l → l < Nat.find hlater → ¬ mark l := fun l hl hlt hmark => Nat.find_min hlater hlt ⟨hl, hmark⟩
  generalize Nat.find hlater = j at hspec hleast
  obtain ⟨hnj, hj⟩ := hspec
  obtain ⟨k, hk⟩ := exists_window ho hi hj
  have hkn : k < n := by
    rcases hk.opens with horigin | hmark
    · rwa [ho.sole k i horigin hi]
    · rcases lt_trichotomy k n with hlt | rfl | hgt
      · exact hlt
      · exact absurd hmark hn
      · exact absurd hmark (hleast k hgt hk.lt)
  refine ⟨(k, j), ⟨hk, hkn, hnj⟩, ?_⟩
  rintro ⟨k', j'⟩ ⟨hw, hk', hj'⟩
  dsimp only at hw hk' hj'
  have hjj : j' = j := by
    rcases lt_trichotomy j' j with hlt | heq | hgt
    · exact absurd hw.closes (hleast j' hj' hlt)
    · exact heq
    · exact absurd hj (hw.quiet j (hk'.trans hnj) hgt)
  subst hjj
  rw [hw.unique hk ho]

end

end Marks
