/-
Runs of a deterministic machine: a list of operations applied one after another, each under a guard
on the state it meets. What every guarded step keeps, every guarded run keeps.
-/
import Mathlib.Tactic

namespace Run

variable {σ ο : Type*} (step : σ → ο → σ)

/-- Every operation of the list meets the guard in the state it is applied to. -/
def Guarded (guard : σ → ο → Prop) : σ → List ο → Prop
  | _, [] => True
  | s, op :: ops => guard s op ∧ Guarded guard (step s op) ops

instance decidableGuarded (guard : σ → ο → Prop) [∀ s op, Decidable (guard s op)] :
    (s : σ) → (ops : List ο) → Decidable (Guarded step guard s ops)
  | _, [] => inferInstanceAs (Decidable True)
  | s, op :: ops =>
    have := decidableGuarded guard (step s op) ops
    inferInstanceAs (Decidable (_ ∧ _))

/-- The state after the whole list. -/
def after (s : σ) (ops : List ο) : σ := ops.foldl step s

@[simp] theorem after_nil (s : σ) : after step s [] = s := rfl

@[simp] theorem after_cons (s : σ) (op : ο) (ops : List ο) :
    after step s (op :: ops) = after step (step s op) ops := rfl

theorem after_append (s : σ) (ops ops' : List ο) :
    after step s (ops ++ ops') = after step (after step s ops) ops' := List.foldl_append

variable {step} {guard guard' : σ → ο → Prop}

/-- The run lemma: what holds at the start and is kept by every guarded step holds at the end. -/
theorem Guarded.invariant {I : σ → Prop} (hstep : ∀ s op, I s → guard s op → I (step s op)) :
    ∀ {ops : List ο} {s : σ}, I s → Guarded step guard s ops → I (after step s ops)
  | [], _, h, _ => h
  | op :: ops, s, h, hg => by
    rw [after_cons]
    exact Guarded.invariant hstep (hstep s op h hg.1) hg.2

/-- An invariant may be used to weaken the guard. -/
theorem Guarded.mono {I : σ → Prop} (hstep : ∀ s op, I s → guard s op → I (step s op))
    (himp : ∀ s op, I s → guard s op → guard' s op) :
    ∀ {ops : List ο} {s : σ}, I s → Guarded step guard s ops → Guarded step guard' s ops
  | [], _, _, _ => trivial
  | op :: _, s, h, hg => ⟨himp s op h hg.1, Guarded.mono hstep himp (hstep s op h hg.1) hg.2⟩

theorem Guarded.imp (himp : ∀ s op, guard s op → guard' s op) {ops : List ο} {s : σ}
    (hg : Guarded step guard s ops) : Guarded step guard' s ops :=
  hg.mono (I := fun _ => True) (fun _ _ _ _ => trivial) (fun s op _ h => himp s op h) trivial

theorem Guarded.and : ∀ {ops : List ο} {s : σ}, Guarded step guard s ops → Guarded step guard' s ops →
    Guarded step (fun s op => guard s op ∧ guard' s op) s ops
  | [], _, _, _ => trivial
  | _ :: _, _, h, h' => ⟨⟨h.1, h'.1⟩, Guarded.and h.2 h'.2⟩

/-- Where a guarded step keeps what holds exactly if it is clean, all states of a guarded run have it
exactly if all steps are clean. -/
theorem Guarded.always_iff {I : σ → Prop} {clean : σ → ο → Prop}
    (hstep : ∀ s op, I s → guard s op → (I (step s op) ↔ clean s op)) : ∀ {ops : List ο} {s : σ}, I s →
      Guarded step guard s ops → (Guarded step (fun s op => I (step s op)) s ops ↔ Guarded step clean s ops)
  | [], _, _, _ => Iff.rfl
  | op :: _, s, h, hg => by
    have hiff := hstep s op h hg.1
    constructor
    · rintro ⟨hnext, hrest⟩
      exact ⟨hiff.1 hnext, (Guarded.always_iff hstep hnext hg.2).1 hrest⟩
    · rintro ⟨hclean, hrest⟩
      have hnext := hiff.2 hclean
      exact ⟨hnext, (Guarded.always_iff hstep hnext hg.2).2 hrest⟩

theorem guarded_append : ∀ {ops ops' : List ο} {s : σ}, Guarded step guard s (ops ++ ops') ↔
    Guarded step guard s ops ∧ Guarded step guard (after step s ops) ops'
  | [], _, _ => by simp [Guarded]
  | op :: ops, ops', s => by
    rw [List.cons_append, Guarded, Guarded, guarded_append, and_assoc, after_cons]

theorem Guarded.append {ops ops' : List ο} {s : σ} (h : Guarded step guard s ops)
    (h' : Guarded step guard (after step s ops) ops') : Guarded step guard s (ops ++ ops') := guarded_append.2 ⟨h, h'⟩

theorem guarded_concat {ops : List ο} {op : ο} {s : σ} : Guarded step guard s (ops ++ [op]) ↔
    Guarded step guard s ops ∧ guard (after step s ops) op := by
  rw [guarded_append]; simp [Guarded]

/-- The loop lemma, for rounds of operations: `ops 0`, …, `ops (n − 1)` in turn. -/
theorem Guarded.rounds {P : ℕ → σ → Prop} {ops : ℕ → List ο} {n : ℕ} {s : σ} (h : P 0 s)
    (hround : ∀ k t, k < n → P k t → Guarded step guard t (ops k) ∧ P (k + 1) (after step t (ops k))) :
    Guarded step guard s ((List.range n).flatMap ops) ∧ P n (after step s ((List.range n).flatMap ops)) := by
  induction n with
  | zero => exact ⟨trivial, h⟩
  | succ n ih =>
    obtain ⟨hg, hn⟩ := ih fun k t hk => hround k t (by omega)
    obtain ⟨hg', hn'⟩ := hround n _ (by omega) hn
    rw [List.range_succ, List.flatMap_append, List.flatMap_singleton, after_append]
    exact ⟨hg.append hg', hn'⟩

/-- The same for single operations. -/
theorem Guarded.loop {P : ℕ → σ → Prop} {op : ℕ → ο} {n : ℕ} {s : σ} (h : P 0 s)
    (hstep : ∀ k t, k < n → P k t → guard t (op k) ∧ P (k + 1) (step t (op k))) :
    Guarded step guard s ((List.range n).map op) ∧ P n (after step s ((List.range n).map op)) := by
  rw [List.map_eq_flatMap]
  exact Guarded.rounds h fun k t hk ht => ⟨⟨(hstep k t hk ht).1, trivial⟩, (hstep k t hk ht).2⟩

/-- A part of the machine, with the operations that reach it. -/
theorem Guarded.project {σ' ο' : Type*} {step' : σ' → ο' → σ'} {guardPart : σ' → ο' → Prop} (view : σ → σ') (pick : ο → Option ο')
    (hsome : ∀ s op op', guard s op → pick op = some op' → guardPart (view s) op' ∧ view (step s op) = step' (view s) op')
    (hnone : ∀ s op, guard s op → pick op = none → view (step s op) = view s) :
    ∀ {ops : List ο} {s : σ}, Guarded step guard s ops → Guarded step' guardPart (view s) (ops.filterMap pick) ∧
      view (after step s ops) = after step' (view s) (ops.filterMap pick)
  | [], _, _ => ⟨trivial, rfl⟩
  | op :: ops, s, h => by
    obtain ⟨hg, hview⟩ := Guarded.project view pick hsome hnone h.2
    rw [after_cons, hview]
    cases hpick : pick op with
    | none =>
      rw [hnone s op h.1 hpick] at hg ⊢
      rw [List.filterMap_cons_none hpick]
      exact ⟨hg, rfl⟩
    | some op' =>
      obtain ⟨hop, hstep⟩ := hsome s op op' h.1 hpick
      rw [hstep] at hg ⊢
      rw [List.filterMap_cons_some hpick]
      exact ⟨⟨hop, hg⟩, rfl⟩

/-! ## Machines with output -/

section
variable {ε : Type*} {stepOut : σ → ο → σ × List ε}

/-- All that the operations of the list put out, in order. -/
def emitted (stepOut : σ → ο → σ × List ε) : σ → List ο → List ε
  | _, [] => []
  | s, op :: ops => (stepOut s op).2 ++ emitted stepOut (stepOut s op).1 ops

/-- The state part. -/
abbrev state (stepOut : σ → ο → σ × List ε) (s : σ) (op : ο) : σ := (stepOut s op).1

theorem emitted_append (stepOut : σ → ο → σ × List ε) : ∀ (s : σ) (ops ops' : List ο), emitted stepOut s (ops ++ ops') =
    emitted stepOut s ops ++ emitted stepOut (after (state stepOut) s ops) ops'
  | _, [], _ => rfl
  | s, op :: ops, ops' => by
    rw [List.cons_append, emitted, emitted_append stepOut _ ops ops', emitted, List.append_assoc, after_cons]

theorem emitted_concat (stepOut : σ → ο → σ × List ε) (s : σ) (ops : List ο) (op : ο) :
    emitted stepOut s (ops ++ [op]) = emitted stepOut s ops ++ (stepOut (after (state stepOut) s ops) op).2 := by
  rw [emitted_append, emitted, emitted, List.append_nil]

end

end Run
