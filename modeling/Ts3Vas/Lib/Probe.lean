/-
Open addressing. A key is looked for along a sequence of slots of its own; a table is kept when no key
lies behind an empty slot of its sequence. Whoever claims the first empty slot of a sequence keeps it
so, in whatever order the keys come and whoever else claims slots meanwhile.
-/
import Mathlib.Tactic

namespace Probe

variable {κ : Type*} [Zero κ]

/-- The first `n` slots of a key's sequence hold other keys. -/
def Passed (index : κ → ℕ → ℕ) (slots : ℕ → κ) (key : κ) (n : ℕ) : Prop :=
  ∀ q < n, slots (index key q) ≠ 0 ∧ slots (index key q) ≠ key

/-- The key is in the table. -/
def Stored (slots : ℕ → κ) (key : κ) : Prop := ∃ i, slots i = key

/-- Each key in the table lies in its own sequence, behind other keys only. -/
def Filled (index : κ → ℕ → ℕ) (slots : ℕ → κ) : Prop :=
  ∀ i, slots i ≠ 0 → ∃ p, i = index (slots i) p ∧ Passed index slots (slots i) p

section
variable {index : κ → ℕ → ℕ} {slots : ℕ → κ} {key : κ} {n : ℕ}

theorem Passed.zero : Passed index slots key 0 := fun _ hq => absurd hq (Nat.not_lt_zero _)

theorem Passed.succ (h : Passed index slots key n) (h0 : slots (index key n) ≠ 0) (hk : slots (index key n) ≠ key) :
    Passed index slots key (n + 1) := by
  intro q hq
  rcases Nat.lt_succ_iff_lt_or_eq.1 hq with hq | rfl
  · exact h q hq
  · exact ⟨h0, hk⟩

theorem Filled.empty : Filled index (fun _ => (0 : κ)) := fun _ h => absurd rfl h

/-- A slot that is taken keeps its key when an empty one is claimed. -/
theorem update_of_taken {i j : ℕ} {v : κ} (h0 : slots i = 0) (hj : slots j ≠ 0) :
    Function.update slots i v j = slots j :=
  Function.update_of_ne (fun e => hj (by rw [e, h0])) _ _

theorem Passed.claim (h : Passed index slots key n) {i : ℕ} {v : κ} (h0 : slots i = 0) :
    Passed index (Function.update slots i v) key n := by
  intro q hq
  rw [update_of_taken h0 (h q hq).1]
  exact h q hq

/-- A key is in at most one slot. -/
theorem Filled.unique (h : Filled index slots) {i j : ℕ} (hi : slots i ≠ 0) (hij : slots i = slots j) : i = j := by
  obtain ⟨p, hp, hpass⟩ := h i hi
  obtain ⟨q, hq, hqass⟩ := h j (hij ▸ hi)
  rw [← hij] at hq hqass
  rcases Nat.lt_trichotomy p q with hlt | rfl | hlt
  · exact absurd (hp ▸ rfl) (hqass p hlt).2
  · rw [hp, hq]
  · exact absurd (hq ▸ hij.symm) (hpass q hlt).2

/-- Whoever has passed the slots before an empty one has a key that is not in the table. -/
theorem Filled.not_stored (h : Filled index slots) (hk : key ≠ 0) (hpass : Passed index slots key n)
    (h0 : slots (index key n) = 0) : ¬ Stored slots key := by
  rintro ⟨i, rfl⟩
  obtain ⟨p, hp, hp'⟩ := h i hk
  rcases Nat.lt_trichotomy p n with hlt | rfl | hlt
  · exact (hpass p hlt).2 (hp ▸ rfl)
  · rw [← hp] at h0; exact hk h0
  · exact (hp' n hlt).1 h0

theorem Filled.claim (h : Filled index slots) (hpass : Passed index slots key n) (h0 : slots (index key n) = 0) :
    Filled index (Function.update slots (index key n) key) := by
  intro i hi
  by_cases hin : i = index key n
  · subst hin
    rw [Function.update_self]
    exact ⟨n, rfl, hpass.claim h0⟩
  · rw [Function.update_of_ne hin] at hi ⊢
    obtain ⟨p, hp, hp'⟩ := h i hi
    exact ⟨p, hp, hp'.claim h0⟩

theorem stored_claim {i : ℕ} {v : κ} (h0 : slots i = 0) : Stored (Function.update slots i v) v ∧
    ∀ k ≠ 0, k ≠ v → (Stored (Function.update slots i v) k ↔ Stored slots k) := by
  refine ⟨⟨i, Function.update_self ..⟩, fun k hk hkv => ⟨?_, ?_⟩⟩
  · rintro ⟨j, hj⟩
    by_cases hji : j = i
    · subst hji
      rw [Function.update_self] at hj
      exact absurd hj.symm hkv
    · rw [Function.update_of_ne hji] at hj
      exact ⟨j, hj⟩
  · rintro ⟨j, rfl⟩
    exact ⟨j, update_of_taken h0 hk⟩

/-- A sequence of `cap` slots cannot all be taken by others while the table holds at most `cap` keys,
the one looked for among them. -/
theorem Filled.not_passed [DecidableEq κ] (h : Filled index slots) {cap : ℕ} {keys : Finset κ}
    (hinj : ∀ p q, p < cap → q < cap → index key p = index key q → p = q)
    (hkeys : ∀ i, slots i ≠ 0 → slots i ∈ keys) (hkey : key ∈ keys) (hcard : keys.card ≤ cap) :
    ¬ Passed index slots key cap := by
  intro hp
  have hmaps : ∀ q ∈ Finset.range cap, slots (index key q) ∈ keys.erase key := by
    intro q hq
    obtain ⟨h0, hne⟩ := hp q (Finset.mem_range.1 hq)
    exact Finset.mem_erase.2 ⟨hne, hkeys _ h0⟩
  -- different slots hold different keys, so `cap` keys other than this one would be in the table
  have hle := Finset.card_le_card_of_injOn _ hmaps fun p hp' q hq' e =>
    hinj p q (Finset.mem_range.1 hp') (Finset.mem_range.1 hq') (h.unique (hp p (Finset.mem_range.1 hp')).1 e)
  have hlt := Finset.card_erase_lt_of_mem hkey
  rw [Finset.card_range] at hle
  omega

/-- A sequence that goes once round a table of `cap` slots does not come back to a slot. -/
theorem round_injective {cap start p q : ℕ} (hp : p < cap) (hq : q < cap) (h : (start + p) % cap = (start + q) % cap) :
    p = q := by
  have hmod : p ≡ q [MOD cap] := Nat.ModEq.add_left_cancel' start h
  rwa [Nat.ModEq, Nat.mod_eq_of_lt hp, Nat.mod_eq_of_lt hq] at hmod

end

end Probe
