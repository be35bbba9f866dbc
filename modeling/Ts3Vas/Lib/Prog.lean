/-
Programs in the state monad: their execution, what a program keeps of the state, and what it leaves
behind whatever it started from.
-/
import Mathlib.Tactic

namespace Prog

variable {σ α β γ : Type}

/-- The result and the final state. -/
def exec (m : StateM σ α) (s : σ) : α × σ := m.run s

@[simp] theorem exec_pure (a : α) (s : σ) : exec (pure a : StateM σ α) s = (a, s) := rfl

@[simp] theorem exec_bind (m : StateM σ α) (k : α → StateM σ β) (s : σ) :
    exec (m >>= k) s = exec (k (exec m s).1) (exec m s).2 := rfl

@[simp] theorem exec_get (s : σ) : exec (get : StateM σ σ) s = (s, s) := rfl

@[simp] theorem exec_modify (f : σ → σ) (s : σ) : exec (modify f : StateM σ PUnit) s = (⟨⟩, f s) := rfl

@[simp] theorem exec_ite (c : Prop) [Decidable c] (m n : StateM σ α) (s : σ) :
    exec (if c then m else n) s = if c then exec m s else exec n s := by split <;> rfl

@[simp] theorem exec_map (g : α → β) (m : StateM σ α) (s : σ) : exec (g <$> m) s = (g (exec m s).1, (exec m s).2) := rfl

/-- Where `f` of the state has `P`, the program changes it by `g`, whatever the rest of the state is. -/
def Acts (P : γ → Prop) (f : σ → γ) (g : γ → γ) (m : StateM σ α) : Prop := ∀ s, P (f s) → f (exec m s).2 = g (f s)

/-- The program leaves `f` of the state as it was. -/
abbrev Keeps (P : γ → Prop) (f : σ → γ) (m : StateM σ α) : Prop := Acts P f id m

section
variable {P Q : γ → Prop} {f : σ → γ} {g g' h : γ → γ} {m n : StateM σ α} {k : α → StateM σ β}

theorem Acts.bind (hm : Acts P f g m) (hPQ : ∀ c, P c → Q (g c)) (hk : ∀ a, Acts Q f g' (k a))
    (e : ∀ c, g' (g c) = h c) : Acts P f h (m >>= k) := by
  intro s hs
  have hmid : f (exec m s).2 = g (f s) := hm s hs
  rw [exec_bind, hk _ _ (hmid ▸ hPQ _ hs), hmid, e]

theorem Acts.get {k : σ → StateM σ β} (hk : ∀ s, Acts P f g (k s)) : Acts P f g (MonadState.get >>= k) := fun s => hk s s

theorem Acts.ite {c : Prop} [Decidable c] (hm : Acts P f g m) (hn : Acts P f g n) : Acts P f g (if c then m else n) := by
  split
  · exact hm
  · exact hn

theorem Acts.map (hm : Acts P f g m) (r : α → β) : Acts P f g (r <$> m) := hm

theorem Acts.pure (a : α) : Acts P f id (Pure.pure a : StateM σ α) := fun _ _ => rfl

theorem Acts.modify {u : σ → σ} (hu : ∀ s, f (u s) = g (f s)) : Acts P f g (modify u : StateM σ PUnit) := fun s _ => hu s

/-- A program that keeps `f` may go first, -/
theorem Keeps.bind (hm : Keeps P f m) (hk : ∀ a, Acts P f g (k a)) : Acts P f g (m >>= k) :=
  Acts.bind hm (fun _ h => h) hk fun _ => rfl

/-- or last. -/
theorem Acts.bind_keeps (hm : Acts P f g m) (hPQ : ∀ c, P c → Q (g c)) (hk : ∀ a, Keeps Q f (k a)) : Acts P f g (m >>= k) :=
  Acts.bind hm hPQ hk fun _ => rfl

/-- A program behind a guard, where one side keeps `f` and the other acts on it, but as the identity
in the states that the guard lets through. -/
theorem Keeps.guarded {m n : σ → StateM σ α} {c : σ → Prop} [DecidablePred c]
    (hm : ∀ s, P (f s) → c s → f (exec (m s) s).2 = f s) (hn : ∀ s, Acts P f g (n s)) (hid : ∀ s, ¬ c s → g (f s) = f s) :
    Keeps P f (MonadState.get >>= fun s => if c s then m s else n s) := by
  intro s hs
  rw [exec_bind]
  show f (exec (if c s then m s else n s) s).2 = f s
  split
  · exact hm s hs ‹_›
  · exact (hn s s hs).trans (hid s ‹_›)

end

/-- The program takes the state along `R`. -/
def Within (R : σ → σ → Prop) (m : StateM σ α) : Prop := ∀ s, R s (exec m s).2

namespace Within
variable {R : σ → σ → Prop} {m n : StateM σ α} {k : α → StateM σ β}

theorem pure [IsPreorder σ R] (a : α) : Within R (Pure.pure a : StateM σ α) := fun s => refl s

theorem bind [IsPreorder σ R] (hm : Within R m) (hk : ∀ a, Within R (k a)) : Within R (m >>= k) :=
  fun s => IsTrans.trans _ _ _ (hm s) (hk _ _)

theorem get {k : σ → StateM σ β} (hk : ∀ s, Within R (k s)) : Within R (MonadState.get >>= k) := fun s => hk s s

theorem ite {c : Prop} [Decidable c] (hm : Within R m) (hn : Within R n) : Within R (if c then m else n) := by
  split
  · exact hm
  · exact hn

theorem map (hm : Within R m) (r : α → β) : Within R (r <$> m) := hm

end Within

/-- The program takes the state along `R` if its result has `Q`. -/
def WithinIf (Q : α → Prop) (R : σ → σ → Prop) (m : StateM σ α) : Prop := ∀ s, Q (exec m s).1 → R s (exec m s).2

namespace WithinIf
variable {R : σ → σ → Prop} {Q : α → Prop} {Q' : β → Prop} {m n : StateM σ α} {k : α → StateM σ β}

theorem pure [IsPreorder σ R] (a : α) : WithinIf Q R (Pure.pure a : StateM σ α) := fun s _ => refl s

theorem get {k : σ → StateM σ β} (hk : ∀ s, WithinIf Q' R (k s)) : WithinIf Q' R (MonadState.get >>= k) := fun s => hk s s

theorem ite {c : Prop} [Decidable c] (hm : WithinIf Q R m) (hn : WithinIf Q R n) : WithinIf Q R (if c then m else n) := by
  split
  · exact hm
  · exact hn

theorem mono {R' : σ → σ → Prop} (hm : WithinIf Q R m) (h : ∀ s s', R s s' → R' s s') : WithinIf Q R' m :=
  fun s hs => h _ _ (hm s hs)

/-- After a program that goes along `R` in any case. -/
theorem after [IsPreorder σ R] (hm : Within R m) (hk : ∀ a, WithinIf Q' R (k a)) : WithinIf Q' R (m >>= k) := by
  intro s h
  exact IsTrans.trans _ _ _ (hm s) (hk _ _ h)

/-- When the second program can only end with `Q'` if the first has ended with `Q`. -/
theorem bind [IsPreorder σ R] (hm : WithinIf Q R m) (hk : ∀ a, Q a → WithinIf Q' R (k a))
    (hn : ∀ a s, Q' (exec (k a) s).1 → Q a) : WithinIf Q' R (m >>= k) := by
  intro s h
  have ha : Q (exec m s).1 := hn _ _ h
  exact IsTrans.trans _ _ _ (hm s ha) (hk _ ha _ h)

end WithinIf

/-- From a state with `P` the program ends with a result and a state that have `Q`. -/
def Triple (P : σ → Prop) (m : StateM σ α) (Q : α → σ → Prop) : Prop := ∀ s, P s → Q (exec m s).1 (exec m s).2

namespace Triple
variable {P P' : σ → Prop} {Q Q' : α → σ → Prop} {R : β → σ → Prop} {m n : StateM σ α} {k : α → StateM σ β}

theorem pure {a : α} (h : ∀ s, P s → Q a s) : Triple P (Pure.pure a) Q := h

theorem bind (hm : Triple P m Q) (hk : ∀ a, Triple (Q a) (k a) R) : Triple P (m >>= k) R :=
  fun s hs => hk _ _ (hm s hs)

/-- What is read is the state. -/
theorem get {k : σ → StateM σ β} (hk : ∀ s, P s → Triple (fun t => t = s) (k s) R) : Triple P (MonadState.get >>= k) R :=
  fun s hs => hk s hs s rfl

theorem ite {c : Prop} [Decidable c] (hm : c → Triple P m Q) (hn : ¬ c → Triple P n Q) :
    Triple P (if c then m else n) Q := by
  split
  · exact hm ‹_›
  · exact hn ‹_›

theorem mono (h : Triple P' m Q') (hp : ∀ s, P s → P' s) (hq : ∀ a s, Q' a s → Q a s) : Triple P m Q :=
  fun s hs => hq _ _ (h s (hp s hs))

/-- From one state with `P`. -/
theorem here (h : Triple P m Q) {s : σ} (hs : P s) : Triple (fun t => t = s) m Q := fun t e => h t (e ▸ hs)

theorem map (h : Triple P m Q) {r : α → β} (hr : ∀ a s, Q a s → R (r a) s) : Triple P (r <$> m) R :=
  fun s hs => hr _ _ (h s hs)

end Triple

end Prog
