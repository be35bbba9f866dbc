/-
Blocks of memory, each with an owner, and what a function that grants, frees or moves one of them does
to the others. The relations hold between the states before and after, so the effect of a program is
put together from the effects of its calls.
-/
import Mathlib.Tactic
import Mathlib.Data.Set.Basic

namespace Blocks

variable {ι : Type*}

/-- Which blocks are allocated, and what the memory holds. -/
structure Snapshot (ι : Type*) where
  /-- The owner and the size of the block at an address. -/
  block : ℕ → Option (ι × ℕ)
  /-- The byte at an address, where memory is committed. -/
  byte : ℕ → Option ℕ

/-- The addresses of a block of `n` bytes at `p`: a block of none has its own address to itself. -/
def Touches (p n x : ℕ) : Prop := p ≤ x ∧ x < p + max n 1

theorem touches_self (p n : ℕ) : Touches p n p := by
  unfold Touches
  omega

theorem touches_of_lt {p n x : ℕ} (hp : p ≤ x) (hx : x < p + n) : Touches p n x := by
  unfold Touches
  omega

/-- Blocks share no address, and every byte of a block is committed. -/
structure Snapshot.Formed (s : Snapshot ι) : Prop where
  apart : ∀ p q b c, s.block p = some b → s.block q = some c → p ≠ q → ∀ x, Touches p b.2 x → ¬ Touches q c.2 x
  committed : ∀ p b, s.block p = some b → ∀ x, p ≤ x → x < p + b.2 → (s.byte x).isSome

/-! ## Effects -/

/-- The blocks outside `X` stay, with every byte. -/
def Spares (X : Set ℕ) (s s' : Snapshot ι) : Prop :=
  ∀ q, q ∉ X → ∀ b, s.block q = some b → s'.block q = some b ∧ ∀ x, q ≤ x → x < q + b.2 → s'.byte x = s.byte x

/-- A request of `n` bytes, answered with `r`: null, or a new block of an owner with `P`. -/
structure Grants (P : ι → Prop) (n r : ℕ) (s s' : Snapshot ι) : Prop where
  spares : Spares ∅ s s'
  fresh : r ≠ 0 → s.block r = none
  granted : r ≠ 0 → ∃ i, P i ∧ s'.block r = some (i, n)

/-- The block at `p` is freed. -/
structure Frees (p : ℕ) (s s' : Snapshot ι) : Prop where
  spares : Spares {p} s s'
  gone : s'.block p = none

/-- `n` bytes at `p` are copied to `q`. -/
structure Copies (q p n : ℕ) (s s' : Snapshot ι) : Prop where
  block : s'.block = s.block
  copied : ∀ k < n, s'.byte (q + k) = s.byte (p + k)
  others : ∀ x, ¬ (q ≤ x ∧ x < q + n) → s'.byte x = s.byte x

/-- The block at `p` is now one of `n` bytes at `q`, with what both have room for. -/
structure Resizes (P : ι → Prop) (p n q : ℕ) (s s' : Snapshot ι) : Prop where
  spares : Spares {p} s s'
  fresh : q ≠ p → s.block q = none
  granted : ∃ i, P i ∧ s'.block q = some (i, n)
  gone : q ≠ p → s'.block p = none
  copied : ∀ b, s.block p = some b → ∀ k < min b.2 n, s'.byte (q + k) = s.byte (p + k)

section
variable {X Y : Set ℕ} {P Q : ι → Prop} {n p q r : ℕ} {s s₁ s₂ s₃ : Snapshot ι}

/-! ## One effect after another -/

theorem Spares.refl (X : Set ℕ) (s : Snapshot ι) : Spares X s s := fun _ _ _ hb => ⟨hb, fun _ _ _ => rfl⟩

theorem Spares.trans (h : Spares X s s₁) (h' : Spares X s₁ s₂) : Spares X s s₂ := by
  rintro q hq b hb
  obtain ⟨hb₁, e₁⟩ := h q hq b hb
  obtain ⟨hb₂, e₂⟩ := h' q hq b hb₁
  exact ⟨hb₂, fun x hp hx => (e₂ x hp hx).trans (e₁ x hp hx)⟩

theorem Spares.mono (h : Spares X s s₁) (hXY : X ⊆ Y) : Spares Y s s₁ := fun q hq => h q fun hX => hq (hXY hX)

/-- What spares every block spares those outside any set. -/
theorem Spares.weaken (h : Spares ∅ s s₁) : Spares X s s₁ := h.mono (Set.empty_subset X)

theorem Spares.block (h : Spares ∅ s s₁) {b : ι × ℕ} (hb : s.block q = some b) : s₁.block q = some b := (h q id b hb).1

theorem Spares.none (h : Spares ∅ s s₁) (hq : s₁.block q = none) : s.block q = none := by
  cases hb : s.block q with
  | none => rfl
  | some b =>
    rw [h.block hb] at hq
    cases hq

/-- Nothing is granted. -/
theorem Grants.null (h : Spares ∅ s s₁) : Grants P n 0 s s₁ := ⟨h, fun h0 => absurd rfl h0, fun h0 => absurd rfl h0⟩

theorem Grants.mono (h : Grants P n r s s₁) (hPQ : ∀ i, P i → Q i) : Grants Q n r s s₁ := by
  refine ⟨h.spares, h.fresh, fun hr => ?_⟩
  obtain ⟨i, hi, hb⟩ := h.granted hr
  exact ⟨i, hPQ i hi, hb⟩

theorem Grants.after (h : Spares ∅ s s₁) (h' : Grants P n r s₁ s₂) : Grants P n r s s₂ :=
  ⟨h.trans h'.spares, fun hr => h.none (h'.fresh hr), h'.granted⟩

theorem Grants.before (h : Grants P n r s s₁) (h' : Spares ∅ s₁ s₂) : Grants P n r s s₂ := by
  refine ⟨h.spares.trans h', h.fresh, fun hr => ?_⟩
  obtain ⟨i, hi, hb⟩ := h.granted hr
  exact ⟨i, hi, h'.block hb⟩

/-- A new block is no old one. -/
theorem Grants.ne (h : Grants P n r s s₁) (hr : r ≠ 0) {b : ι × ℕ} (hp : s.block p = some b) : r ≠ p := by
  rintro rfl
  rw [h.fresh hr] at hp
  cases hp

/-- What is done to the new block does not touch the old ones. -/
theorem Grants.carried (h : Grants P n r s s₁) (hr : r ≠ 0) (h' : Spares {r} s₁ s₂) : Spares ∅ s s₂ := by
  rintro u - b hb
  obtain ⟨hb₁, e₁⟩ := h.spares u id b hb
  obtain ⟨hb₂, e₂⟩ := h' u (h.ne hr hb).symm b hb₁
  exact ⟨hb₂, fun x hp hx => (e₂ x hp hx).trans (e₁ x hp hx)⟩

theorem Resizes.mono (h : Resizes P p n q s s₁) (hPQ : ∀ i, P i → Q i) : Resizes Q p n q s s₁ := by
  obtain ⟨i, hi, hb⟩ := h.granted
  exact ⟨h.spares, h.fresh, ⟨i, hPQ i hi, hb⟩, h.gone, h.copied⟩

/-- A block that moves after others have been granted. -/
theorem Resizes.after (h : Spares ∅ s s₁) {b : ι × ℕ} (hp : s.block p = some b) (h' : Resizes P p n q s₁ s₂) :
    Resizes P p n q s s₂ := by
  constructor
  · exact h.weaken.trans h'.spares
  · exact fun hq => h.none (h'.fresh hq)
  · exact h'.granted
  · exact h'.gone
  · intro c hc k hk
    rw [hp] at hc
    cases hc
    rw [h'.copied b (h.block hp) k hk]
    exact (h p id b hp).2 _ (by omega) (by omega)

/-! ## A block more or less -/

/-- The two differ in the block at `p` alone: the second has it, -/
structure Gains (p : ℕ) (b : ι × ℕ) (s s' : Snapshot ι) : Prop where
  block : s'.block p = some b
  others : ∀ q, q ≠ p → s'.block q = s.block q
  byte : s'.byte = s.byte

/-- or has none there. -/
structure Loses (p : ℕ) (s s' : Snapshot ι) : Prop where
  gone : s'.block p = none
  others : ∀ q, q ≠ p → s'.block q = s.block q
  byte : s'.byte = s.byte

theorem Gains.formed {b : ι × ℕ} (h : Gains p b s s₁) (hs : s.Formed) (hc : ∀ x, p ≤ x → x < p + b.2 → (s.byte x).isSome)
    (hap : ∀ q c, q ≠ p → s.block q = some c → ∀ x, Touches p b.2 x → ¬ Touches q c.2 x) : s₁.Formed := by
  constructor
  · rintro q u c d hq hu hqu x hx hx'
    by_cases hqp : q = p
    · subst hqp
      rw [h.block] at hq
      cases hq
      rw [h.others u (Ne.symm hqu)] at hu
      exact hap u d (Ne.symm hqu) hu x hx hx'
    rw [h.others q hqp] at hq
    by_cases hup : u = p
    · subst hup
      rw [h.block] at hu
      cases hu
      exact hap q c hqp hq x hx' hx
    · rw [h.others u hup] at hu
      exact hs.apart q u c d hq hu hqu x hx hx'
  · rintro q c hq x hx hx'
    rw [h.byte]
    by_cases hqp : q = p
    · subst hqp
      rw [h.block] at hq
      cases hq
      exact hc x hx hx'
    · rw [h.others q hqp] at hq
      exact hs.committed q c hq x hx hx'

theorem Gains.grants {i : ι} (h : Gains p (i, n) s s₁) (hn : s.block p = none) (hi : P i) : Grants P n p s s₁ := by
  constructor
  · rintro q - b hb
    have hqp : q ≠ p := by
      rintro rfl
      rw [hn] at hb
      cases hb
    exact ⟨(h.others q hqp).trans hb, fun x _ _ => congrFun h.byte x⟩
  · exact fun _ => hn
  · exact fun _ => ⟨i, hi, h.block⟩

theorem Loses.block (h : Loses p s s₁) {b : ι × ℕ} (hq : s₁.block q = some b) : s.block q = some b := by
  by_cases hqp : q = p
  · rw [hqp, h.gone] at hq
    cases hq
  · rwa [h.others q hqp] at hq

theorem Loses.formed (h : Loses p s s₁) (hs : s.Formed) : s₁.Formed := by
  constructor
  · exact fun q u _ _ hb hc => hs.apart q u _ _ (h.block hb) (h.block hc)
  · rintro q _ hb x hx hx'
    rw [h.byte]
    exact hs.committed q _ (h.block hb) x hx hx'

theorem Loses.frees (h : Loses p s s₁) : Frees p s s₁ :=
  ⟨fun q hq _ hb => ⟨(h.others q hq).trans hb, fun x _ _ => congrFun h.byte x⟩, h.gone⟩

/-! ## Copies -/

theorem Copies.none (s : Snapshot ι) (q p : ℕ) : Copies q p 0 s s :=
  ⟨rfl, fun _ hk => absurd hk (Nat.not_lt_zero _), fun _ _ => rfl⟩

/-- A copy into a block touches no other. -/
theorem Copies.spares (h : Copies q p n s s₁) (hs : s.Formed) {b : ι × ℕ} (hq : s.block q = some b) (hn : n ≤ b.2) :
    Spares {q} s s₁ := by
  rintro u hu c hc
  refine ⟨h.block ▸ hc, fun x hp hx => h.others x fun hx' => ?_⟩
  refine hs.apart q u b c hq hc (Ne.symm hu) x ?_ (touches_of_lt hp hx)
  exact touches_of_lt hx'.1 (by omega)

/-- A new block, the copy, and only then the free of the old one. -/
theorem Resizes.of_copy (hg : Grants P n q s s₁) (hq : q ≠ 0) {b : ι × ℕ} (hp : s.block p = some b) (hs : s₁.Formed)
    (hc : Copies q p (min b.2 n) s₁ s₂) (hf : Frees p s₂ s₃) : Resizes P p n q s s₃ := by
  obtain ⟨i, hi, hqi⟩ := hg.granted hq
  have hne : q ≠ p := hg.ne hq hp
  have hspare : Spares {q} s₁ s₂ := hc.spares hs hqi (Nat.min_le_right _ _)
  constructor
  · exact (hg.carried hq hspare).weaken.trans hf.spares
  · exact fun _ => hg.fresh hq
  · have h₂ : s₂.block q = some (i, n) := hc.block ▸ hqi
    exact ⟨i, hi, (hf.spares q hne _ h₂).1⟩
  · exact fun _ => hf.gone
  · intro c hcp k hk
    rw [hp] at hcp
    cases hcp
    have h₂ : s₂.block q = some (i, n) := hc.block ▸ hqi
    rw [(hf.spares q hne _ h₂).2 _ (by omega) (by simp only; omega), hc.copied k hk]
    exact (hg.spares p id b hp).2 _ (by omega) (by omega)

end

end Blocks
