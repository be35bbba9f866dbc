/-
Values that are worked out once. Whoever exchanges the mark first works the value out and stores it; everybody else
goes on to load it, whether or not it has been stored. So a load may come too early, but only between the first
exchange and the store.
-/
import Ts3Vas.Lib.Run

namespace Once

variable {τ α : Type*}

/-- Where a thread stands. -/
inductive Phase (α : Type*)
  | outside
  /-- It was the first, and has not stored the value yet. -/
  | first
  | loading
  | answered (a : α)
  deriving DecidableEq

def Phase.isAnswered : Phase α → Bool
  | .answered _ => true
  | _ => false

structure Cell (τ α : Type*) where
  marked : Bool
  value : α
  phase : τ → Phase α

/-- The atomic steps of a call, and its return. -/
inductive Act (τ : Type*)
  | mark (t : τ)
  | store (t : τ)
  | load (t : τ)
  | leave (t : τ)
  deriving DecidableEq

/-- The step stores the value. -/
def Act.isStore : Act τ → Bool
  | .store _ => true
  | _ => false

@[simp] theorem Act.isStore_mark (t : τ) : (mark t).isStore = false := rfl
@[simp] theorem Act.isStore_store (t : τ) : (store t).isStore = true := rfl
@[simp] theorem Act.isStore_load (t : τ) : (load t).isStore = false := rfl
@[simp] theorem Act.isStore_leave (t : τ) : (leave t).isStore = false := rfl

namespace Cell

def start (early : α) : Cell τ α := ⟨false, early, fun _ => .outside⟩

variable [DecidableEq τ]

def move (s : Cell τ α) (t : τ) (p : Phase α) : Cell τ α := { s with phase := Function.update s.phase t p }

/-- One step, when `right` is the value that is worked out. -/
def step (right : α) (s : Cell τ α) : Act τ → Cell τ α
  | .mark t => bif s.marked then s.move t .loading else { s.move t .first with marked := true }
  | .store t => { s.move t .loading with value := right }
  | .load t => s.move t (.answered s.value)
  | .leave t => s.move t .outside

/-- A thread makes its steps in turn, and may call again. -/
def Enabled (s : Cell τ α) : Act τ → Prop
  | .mark t => s.phase t = .outside
  | .store t => s.phase t = .first
  | .load t => s.phase t = .loading
  | .leave t => (s.phase t).isAnswered = true

instance [DecidableEq α] (s : Cell τ α) : DecidablePred s.Enabled
  | .mark t => inferInstanceAs (Decidable (s.phase t = .outside))
  | .store t => inferInstanceAs (Decidable (s.phase t = .first))
  | .load t => inferInstanceAs (Decidable (s.phase t = .loading))
  | .leave t => inferInstanceAs (Decidable ((s.phase t).isAnswered = true))

abbrev Run (right : α) (s : Cell τ α) (acts : List (Act τ)) : Prop := Run.Guarded (step right) Enabled s acts

abbrev after (right : α) (s : Cell τ α) (acts : List (Act τ)) : Cell τ α := Run.after (step right) s acts

/-- What a run so far can look like, with the cell it leaves: nobody has called, or the first to call works the
value out, or it has stored it and nobody stores again. -/
inductive Kept (early right : α) : List (Act τ) → Cell τ α → Prop
  | fresh {s} (marked : s.marked = false) (value : s.value = early)
      (phase : ∀ t, s.phase t = .outside) : Kept early right [] s
  | busy {s} (v : τ) (rest : List (Act τ)) (marked : s.marked = true) (value : s.value = early)
      (phase : ∀ u, s.phase u = .first ↔ u = v) (hrest : rest.any Act.isStore = false) : Kept early right (.mark v :: rest) s
  | settled {s} (v : τ) (pre post : List (Act τ)) (marked : s.marked = true) (value : s.value = right)
      (phase : ∀ u, s.phase u ≠ .first) (hpre : pre.any Act.isStore = false) (hpost : post.any Act.isStore = false) :
      Kept early right (.mark v :: (pre ++ .store v :: post)) s

section
variable {early right : α} {s : Cell τ α} {t u : τ} {acts : List (Act τ)}

omit [DecidableEq τ] in
theorem start_kept : Kept early right [] (start early : Cell τ α) :=
  .fresh rfl rfl fun _ => rfl

omit [DecidableEq τ] in
/-- A thread in a call finds the mark. -/
theorem Kept.marked_of_inside (h : Kept early right acts s) (ht : s.phase t ≠ .outside) : s.marked = true := by
  cases h with
  | fresh _ _ phase => exact absurd (phase t) ht
  | busy _ _ marked => exact marked
  | settled _ _ _ marked => exact marked

omit [DecidableEq τ] in
/-- The value is the one stored as soon as there was a store. -/
theorem Kept.value_eq (h : Kept early right acts s) : s.value = if acts.any Act.isStore then right else early := by
  cases h with
  | fresh _ value _ => exact value
  | busy v rest _ value _ hrest => simp [value, hrest]
  | settled v pre post _ value => simp [value]

theorem move_same (s : Cell τ α) (t : τ) (p : Phase α) : (s.move t p).phase t = p := Function.update_self ..

theorem move_other (s : Cell τ α) (p : Phase α) (h : u ≠ t) : (s.move t p).phase u = s.phase u :=
  Function.update_of_ne h ..

/-- A thread that is not the first and does not become it leaves the first ones as they are. -/
theorem move_first {p : Phase α} (ht : s.phase t ≠ .first) (hp : p ≠ .first) (u : τ) :
    (s.move t p).phase u = .first ↔ s.phase u = .first := by
  by_cases hu : u = t
  · subst hu
    rw [move_same]
    exact iff_of_false hp ht
  · rw [move_other s p hu]

/-- A step that neither stores nor makes a thread the first, once the mark is there. -/
theorem Kept.move (h : Kept early right acts s) (hm : s.marked = true) {act : Act τ} (hact : act.isStore = false)
    {p : Phase α} (ht : s.phase t ≠ .first) (hp : p ≠ .first) : Kept early right (acts ++ [act]) (s.move t p) := by
  cases h with
  | fresh marked _ _ => exact absurd hm (by rw [marked]; nofun)
  | busy v rest marked value phase hrest =>
    refine .busy v (rest ++ [act]) marked value (fun u => (move_first ht hp u).trans (phase u)) ?_
    simp [hrest, hact]
  | settled v pre post marked value phase hpre hpost =>
    rw [List.cons_append, List.append_assoc, List.cons_append]
    refine .settled v pre (post ++ [act]) marked value (fun u hu => phase u ((move_first ht hp u).1 hu)) hpre ?_
    simp [hpost, hact]

theorem step_mark_of_marked (h : s.marked = true) : s.step right (.mark t) = s.move t .loading := by
  simp only [Cell.step, h, cond_true]

theorem step_mark_of_not (h : s.marked = false) : s.step right (.mark t) = { s.move t .first with marked := true } := by
  simp only [Cell.step, h, cond_false]

theorem Kept.mark (h : Kept early right acts s) (ht : s.phase t ≠ .first) :
    Kept early right (acts ++ [.mark t]) (s.step right (.mark t)) := by
  cases hm : s.marked with
  | true =>
    rw [step_mark_of_marked hm]
    exact h.move hm rfl ht nofun
  | false =>
    rw [step_mark_of_not hm]
    cases h with
    | busy _ _ marked => exact absurd marked (by rw [hm]; nofun)
    | settled _ _ _ marked => exact absurd marked (by rw [hm]; nofun)
    | fresh _ value phase =>
      refine .busy t [] rfl value (fun u => ?_) rfl
      by_cases hu : u = t
      · subst hu
        exact iff_of_true (move_same s u .first) rfl
      · have hother := move_other s .first hu
        exact iff_of_false (by rw [show _ = s.phase u from hother, phase u]; nofun) hu

theorem Kept.store (h : Kept early right acts s) (ht : s.phase t = .first) :
    Kept early right (acts ++ [.store t]) (s.step right (.store t)) := by
  cases h with
  | fresh _ _ phase => exact absurd ht (by rw [phase t]; nofun)
  | settled _ _ _ _ _ phase => exact absurd ht (phase t)
  | busy v rest marked _ phase hrest =>
    obtain rfl := (phase t).1 ht
    refine .settled t rest [] marked rfl (fun u hu => ?_) hrest rfl
    by_cases hut : u = t
    · subst hut
      have hsame : Phase.loading = Phase.first := (move_same s u .loading).symm.trans hu
      cases hsame
    · have hother := move_other s .loading hut
      exact hut ((phase u).1 (hother.symm.trans hu))

theorem Kept.step (h : Kept early right acts s) {act : Act τ} (hact : s.Enabled act) :
    Kept early right (acts ++ [act]) (s.step right act) := by
  cases act with
  | mark t =>
    have ht : s.phase t = .outside := hact
    exact h.mark (by rw [ht]; nofun)
  | store t => exact h.store hact
  | load t =>
    have ht : s.phase t = .loading := hact
    exact h.move (h.marked_of_inside (by rw [ht]; nofun)) rfl (by rw [ht]; nofun) nofun
  | leave t =>
    have ht : (s.phase t).isAnswered = true := hact
    refine h.move (h.marked_of_inside (t := t) ?_) rfl ?_ nofun <;> (intro hphase; rw [hphase] at ht; cases ht)

theorem Run.kept (hrun : Run right (start early) acts) : Kept early right acts ((start early).after right acts) := by
  induction acts using List.reverseRecOn with
  | nil => exact start_kept
  | append_singleton acts act ih =>
    obtain ⟨hacts, hact⟩ := Run.guarded_concat.1 hrun
    rw [after, Run.after_append]
    exact (ih hacts).step hact

/-- A thread has an answer after a move if the move was to that, or it had it before. -/
theorem answered_of_move {p : Phase α} {a : α} (h : (s.move u p).phase t = .answered a) (hp : p ≠ .answered a) :
    s.phase t = .answered a := by
  by_cases htu : t = u
  · subst htu
    exact absurd ((move_same s t p).symm.trans h) hp
  · exact (move_other s p htu).symm.trans h

/-- A thread has its answer from the load, or had it before the step. -/
theorem answered_step {act : Act τ} {a : α} (h : (s.step right act).phase t = .answered a) :
    s.phase t = .answered a ∨ act = .load t ∧ s.value = a := by
  cases act with
  | mark u =>
    cases hm : s.marked with
    | true =>
      rw [step_mark_of_marked hm] at h
      exact .inl (answered_of_move h nofun)
    | false =>
      rw [step_mark_of_not hm] at h
      exact .inl (answered_of_move (p := .first) h nofun)
  | store u => exact .inl (answered_of_move (p := .loading) h nofun)
  | leave u => exact .inl (answered_of_move (p := .outside) h nofun)
  | load u =>
    by_cases htu : t = u
    · subst htu
      exact .inr ⟨rfl, Phase.answered.inj ((move_same s t _).symm.trans h)⟩
    · exact .inl ((move_other s _ htu).symm.trans h)

end

end Cell

end Once
