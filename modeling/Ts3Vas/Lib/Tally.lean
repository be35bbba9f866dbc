/-
Books kept by kind: events of some kind, each of some weight, and counters that sum the weights up. A
counter may be for one kind or for several, and it may wrap.
-/
import Mathlib.Tactic

namespace Tally

variable {ε κ : Type*} [DecidableEq κ]

/-- What the events of a kind amount to. -/
def amount (kind : ε → Option κ) (w : ε → ℕ) (es : List ε) (k : κ) : ℕ := ((es.filter fun e => kind e = some k).map w).sum

/-- The table of counters, modulo `n`, after one more event. -/
def bump (n : ℕ) (kind : ε → Option κ) (w : ε → ℕ) (cnt : κ → ℕ) (e : ε) : κ → ℕ :=
  match kind e with
  | some k => Function.update cnt k ((cnt k + w e) % n)
  | none => cnt

section
variable {kind : ε → Option κ} {w : ε → ℕ} {es : List ε} {e : ε} {k : κ} {ks : List κ} {n : ℕ}

@[simp] theorem amount_nil : amount kind w [] k = 0 := rfl

theorem amount_cons : amount kind w (e :: es) k = (if kind e = some k then w e else 0) + amount kind w es k := by
  unfold amount
  by_cases h : kind e = some k
  · simp [h]
  · simp [h]

theorem amount_append (es es' : List ε) : amount kind w (es ++ es') k = amount kind w es k + amount kind w es' k := by
  unfold amount
  rw [List.filter_append, List.map_append, List.sum_append]

theorem amount_concat : amount kind w (es ++ [e]) k = amount kind w es k + if kind e = some k then w e else 0 := by
  rw [amount_append, amount_cons, amount_nil, Nat.add_zero]

theorem bump_some {cnt : κ → ℕ} (h : kind e = some k) :
    bump n kind w cnt e = Function.update cnt k ((cnt k + w e) % n) := by rw [bump, h]

theorem bump_none {cnt : κ → ℕ} (h : kind e = none) : bump n kind w cnt e = cnt := by rw [bump, h]

/-- A sum over those that meet a condition. -/
theorem sum_ite_filter (P : ε → Prop) [DecidablePred P] (w : ε → ℕ) (es : List ε) :
    (es.map fun e => if P e then w e else 0).sum = ((es.filter fun e => P e).map w).sum := by
  rw [List.sum_map_ite, List.map_const', List.sum_replicate_nat, Nat.mul_zero, Nat.add_zero]

theorem sum_ite_countP (P : ε → Prop) [DecidablePred P] (es : List ε) :
    (es.map fun e => if P e then 1 else 0).sum = es.countP fun e => P e := by
  rw [sum_ite_filter, List.map_const', List.sum_replicate_nat, Nat.mul_one, List.countP_eq_length_filter]

theorem sum_mod (n : ℕ) : ∀ l : List ℕ, (l.map (· % n)).sum % n = l.sum % n
  | [] => rfl
  | a :: l => by rw [List.map_cons, List.sum_cons, List.sum_cons, Nat.add_mod, sum_mod n l, Nat.mod_mod, ← Nat.add_mod]

/-- One event among the kinds of a list. -/
theorem sum_one (hks : ks.Nodup) (x : Option κ) (v : ℕ) :
    (ks.map fun k => if x = some k then v else 0).sum = if ∃ k ∈ ks, x = some k then v else 0 := by
  induction ks with
  | nil => simp
  | cons k ks ih =>
    obtain ⟨hk, hks⟩ := List.nodup_cons.1 hks
    rw [List.map_cons, List.sum_cons, ih hks]
    by_cases hx : x = some k
    · have hno : ¬ ∃ k' ∈ ks, x = some k' := by
        rintro ⟨k', hk', he⟩
        rw [hx] at he
        exact hk (Option.some.inj he ▸ hk')
      rw [if_pos hx, if_neg hno, if_pos ⟨k, List.mem_cons_self .., hx⟩, Nat.add_zero]
    · simp [hx]

/-- A counter for several kinds holds what they amount to together. -/
theorem sum_amount (hks : ks.Nodup) : ∀ es : List ε,
    (ks.map (amount kind w es)).sum = (es.map fun e => if ∃ k ∈ ks, kind e = some k then w e else 0).sum
  | [] => by
    show (ks.map fun _ => 0).sum = 0
    simp
  | e :: es => by
    have hsplit : ks.map (amount kind w (e :: es)) =
        ks.map fun k => (if kind e = some k then w e else 0) + amount kind w es k :=
      List.map_congr_left fun k _ => amount_cons
    rw [hsplit, List.sum_map_add, sum_one hks, sum_amount hks es, List.map_cons, List.sum_cons]

end

end Tally
