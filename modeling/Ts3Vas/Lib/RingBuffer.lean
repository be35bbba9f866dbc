/-
Rings that keep the latest entries: a position to write next, a count that stops at the capacity, and
cells. Read from the oldest on, a ring is the end of the list of all that was ever written.
-/
import Mathlib.Tactic

structure RingBuffer (α : Type*) where
  cells : ℕ → α
  head : ℕ
  count : ℕ

namespace RingBuffer

variable {α : Type*}

def push (cap : ℕ) (r : RingBuffer α) (x : α) : RingBuffer α where
  cells := Function.update r.cells r.head x
  head := (r.head + 1) % cap
  count := if r.count < cap then r.count + 1 else r.count

/-- The cell of the oldest entry. -/
def start (cap : ℕ) (r : RingBuffer α) : ℕ := if r.count < cap then 0 else r.head

/-- The entries, oldest first. -/
def read (cap : ℕ) (r : RingBuffer α) : List α := (List.range r.count).map fun k => r.cells ((r.start cap + k) % cap)

/-- The ring after the entries `xs`. -/
structure Holds (cap : ℕ) (xs : List α) (r : RingBuffer α) : Prop where
  head : r.head = xs.length % cap
  count : r.count = min cap xs.length
  cells : ∀ i (hi : i < xs.length), xs.length ≤ i + cap → r.cells (i % cap) = xs[i]

section
variable {cap : ℕ} {xs : List α} {r : RingBuffer α}

theorem Holds.empty (cells : ℕ → α) : Holds cap [] ⟨cells, 0, 0⟩ :=
  ⟨by simp, by simp, fun _ hi => absurd hi (Nat.not_lt_zero _)⟩

/-- Two positions less than a capacity apart have different cells. -/
theorem mod_ne {i n : ℕ} (hi : i < n) (hn : n < i + cap) : i % cap ≠ n % cap := by
  intro h
  have hd : cap ∣ n - i := (Nat.modEq_iff_dvd' hi.le).1 h
  have := Nat.le_of_dvd (by omega) hd
  omega

theorem Holds.push (h : Holds cap xs r) (x : α) : Holds cap (xs ++ [x]) (r.push cap x) where
  head := by
    rw [List.length_append, List.length_singleton, RingBuffer.push, h.head, Nat.mod_add_mod]
  count := by
    rw [List.length_append, List.length_singleton, RingBuffer.push, h.count]
    dsimp only
    split <;> omega
  cells := by
    intro i hi hcap
    rw [List.length_append, List.length_singleton] at hi hcap
    simp only [RingBuffer.push, h.head]
    by_cases hlast : i = xs.length
    · subst hlast
      rw [Function.update_self, List.getElem_concat_length rfl]
    · have hi' : i < xs.length := by omega
      rw [Function.update_of_ne (mod_ne hi' (by omega)), List.getElem_append_left hi']
      exact h.cells i hi' (by omega)

/-- What is read are the latest entries, as many as the ring can hold. -/
theorem Holds.read (h : Holds cap xs r) : r.read cap = xs.drop (xs.length - cap) := by
  refine List.ext_getElem ?_ fun k hk hk' => ?_
  · rw [RingBuffer.read, List.length_map, List.length_range, h.count, List.length_drop]
    omega
  · rw [List.length_drop] at hk'
    simp only [RingBuffer.read, List.getElem_map, List.getElem_range, List.getElem_drop]
    have hcell : (r.start cap + k) % cap = (xs.length - cap + k) % cap := by
      unfold start
      rw [h.count, h.head]
      split
      · rw [show xs.length - cap = 0 by omega]
      · rename_i hfull
        have hle : cap ≤ xs.length := by omega
        rw [Nat.mod_add_mod]
        conv_lhs => rw [← Nat.sub_add_cancel hle, Nat.add_right_comm, Nat.add_mod_right]
    rw [hcell]
    exact h.cells _ (by omega) (by omega)

end

end RingBuffer
