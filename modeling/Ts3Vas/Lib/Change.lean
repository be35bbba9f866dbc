/-
A value that is noted again and again, with a line each time it changes. The lines are the notes without their
repetitions; of a truth value they alternate.
-/
import Mathlib.Data.List.Destutter
import Ts3Vas.Lib.Run

namespace Change

variable {α : Type*} [DecidableEq α]

/-- The line for the note `b`, where the value was `a`. -/
def line (a b : α) : List α := if a ≠ b then [b] else []

def lines : α → List α → List α
  | _, [] => []
  | a, b :: bs => line a b ++ lines b bs

section
variable {a b : α} {bs : List α}

theorem line_of_ne (h : a ≠ b) : line a b = [b] := if_pos h

theorem line_self (a : α) : line a a = [] := if_neg (not_not_intro rfl)

theorem lines_singleton (a b : α) : lines a [b] = line a b := List.append_nil _

theorem lines_append : ∀ (a : α) (bs bs' : List α), lines a (bs ++ bs') = lines a bs ++ lines (bs.getLastD a) bs'
  | _, [], _ => rfl
  | a, b :: bs, bs' => by
    rw [List.cons_append, lines, lines, lines_append b bs bs', List.append_assoc, List.getLastD_cons]

omit [DecidableEq α] in
theorem getLastD_append : ∀ (a : α) (bs bs' : List α), (bs ++ bs').getLastD a = bs'.getLastD (bs.getLastD a)
  | _, [], _ => rfl
  | a, b :: bs, bs' => by rw [List.cons_append, List.getLastD_cons, List.getLastD_cons, getLastD_append b bs bs']

/-- Repetitions have no line. -/
theorem cons_lines : ∀ (a : α) (bs : List α), a :: lines a bs = bs.destutter' (· ≠ ·) a
  | _, [] => rfl
  | a, b :: bs => by
    by_cases h : a = b
    · subst h
      rw [lines, line_self, List.nil_append, cons_lines a bs, List.destutter'_cons_neg _ (not_not_intro rfl)]
    · rw [lines, line_of_ne h, List.destutter'_cons_pos _ h, List.singleton_append, cons_lines b bs]

theorem isChain_cons_lines (a : α) (bs : List α) : (a :: lines a bs).IsChain (· ≠ ·) := by
  rw [cons_lines]
  exact List.isChain_destutter' ..

end

/-- Of a truth value the lines go up and down in turn. -/
theorem count_lines : ∀ (a : Bool) (bs : List Bool),
    (lines a bs).count true + a.toNat = (lines a bs).count false + (bs.getLastD a).toNat
  | _, [] => rfl
  | a, b :: bs => by
    have ih := count_lines b bs
    rw [lines, List.count_append, List.count_append, List.getLastD_cons]
    cases a <;> cases b <;> simp [line] at ih ⊢ <;> omega

section
variable {σ ο ε : Type*} {stepOut : σ → ο → σ × List ε} {value : σ → α} {note : ο → List α} {pick : ε → Option α}

/-- Where each step of a machine notes a value so, its runs do. -/
theorem emitted_lines (hstep : ∀ s op, (stepOut s op).2.filterMap pick = lines (value s) (note op) ∧
      value (stepOut s op).1 = (note op).getLastD (value s)) :
    ∀ (ops : List ο) (s : σ), (Run.emitted stepOut s ops).filterMap pick = lines (value s) (ops.flatMap note) ∧
      value (Run.after (Run.state stepOut) s ops) = (ops.flatMap note).getLastD (value s)
  | [], _ => ⟨rfl, rfl⟩
  | op :: ops, s => by
    obtain ⟨hlines, hvalue⟩ := emitted_lines hstep ops (stepOut s op).1
    rw [Run.emitted, List.filterMap_append, (hstep s op).1, hlines, List.flatMap_cons, lines_append, (hstep s op).2,
      getLastD_append, Run.after_cons, ← (hstep s op).2]
    exact ⟨rfl, hvalue⟩

end

end Change
