/-
The mode flags of WorkingHooks.cpp, each read from the environment by the first thread that asks for it, and
the proxy, which no thread may activate in passive mode. Interlocked calls are the steps, and they come in any order.
-/
import Ts3Vas.Lib.Once

namespace Ts3Vas.WorkingHooks

/-- What GetEnvironmentVariableA says of a variable: the length it returns, and the first character of the buffer. -/
structure Variable where
  n : ℕ
  first : Char
  deriving DecidableEq, Repr

namespace Variable

/-- Where any value but 0, f, F, n or N turns the mode on. -/
def mode (dflt : Bool) (value : Variable) : Bool :=
  if 0 < value.n then
    !(value.first == '0' || value.first == 'f' || value.first == 'F' || value.first == 'n' || value.first == 'N')
  else dflt

/-- Where 1, y, Y, t or T does. -/
def on (v : Variable) : Bool :=
  decide (0 < v.n) && (v.first == '1' || v.first == 'y' || v.first == 'Y' || v.first == 't' || v.first == 'T')

end Variable

inductive Mode
  | passive
  | strictRenderLocalOnly
  | forceProxyActive
  | forceHeapProxy
  deriving DecidableEq, Repr

/-- What the process finds in its environment, and whether passive.flag is there. -/
structure Settings where
  passive : Variable
  passiveFlag : Bool
  strictRenderLocalOnly : Variable
  forceProxyActive : Variable
  forceProxyHeapAll : Variable

/-- The value that the first thread stores. -/
def Settings.mode (c : Settings) : Mode → Bool
  | .passive => c.passive.on || c.passiveFlag
  | .strictRenderLocalOnly => c.strictRenderLocalOnly.mode false
  | .forceProxyActive => c.forceProxyActive.mode true
  | .forceHeapProxy => c.forceProxyHeapAll.mode true

structure Flags (τ : Type*) where
  cell : Mode → Once.Cell τ Bool
  proxyActive : Bool

/-- A step of a call of IsPassiveMode or one of its siblings, or ActivateProxy past its question. -/
inductive Act (τ : Type*)
  | flag (m : Mode) (act : Once.Act τ)
  | activate (t : τ)
  deriving DecidableEq

namespace Flags

variable {τ : Type*}

def start : Flags τ := ⟨fun _ => .start false, false⟩

variable [DecidableEq τ]

/-- What the step is to a mode's cell. -/
def reaching (m : Mode) : Act τ → Option (Once.Act τ)
  | .flag m' act => if m' = m then some act else none
  | .activate t => if m = .passive then some (.leave t) else none

def moved (c : Settings) (s : Flags τ) (m : Mode) (act : Once.Act τ) : Flags τ :=
  { s with cell := Function.update s.cell m ((s.cell m).step (c.mode m) act) }

def step (c : Settings) (s : Flags τ) : Act τ → Flags τ
  | .flag m act => s.moved c m act
  | .activate t => { s.moved c .passive (.leave t) with proxyActive := true }

/-- ActivateProxy goes on only when IsPassiveMode has answered no. -/
def Enabled (s : Flags τ) : Act τ → Prop
  | .flag m act => (s.cell m).Enabled act
  | .activate t => (s.cell .passive).phase t = .answered false

instance (s : Flags τ) : DecidablePred s.Enabled
  | .flag m act => inferInstanceAs (Decidable ((s.cell m).Enabled act))
  | .activate t => inferInstanceAs (Decidable ((s.cell .passive).phase t = .answered false))

abbrev Run (c : Settings) (s : Flags τ) (acts : List (Act τ)) : Prop := Run.Guarded (step c) Enabled s acts

abbrev after (c : Settings) (s : Flags τ) (acts : List (Act τ)) : Flags τ := Run.after (step c) s acts

/-- The steps that reach a mode's cell. -/
def calls (m : Mode) (acts : List (Act τ)) : List (Once.Act τ) := acts.filterMap (reaching m)

section
variable {c : Settings} {s : Flags τ} {m m' : Mode} {act : Once.Act τ} {t : τ} {acts : List (Act τ)}

theorem moved_same : (s.moved c m act).cell m = (s.cell m).step (c.mode m) act := Function.update_self ..

theorem moved_other (h : m' ≠ m) : (s.moved c m act).cell m' = s.cell m' := Function.update_of_ne h ..

/-- One mode's share of a run is a run of its cell. -/
theorem Run.cell (m : Mode) (h : Run c s acts) : Once.Cell.Run (c.mode m) (s.cell m) (calls m acts) ∧
    (s.after c acts).cell m = (s.cell m).after (c.mode m) (calls m acts) := by
  apply Run.Guarded.project (fun s : Flags τ => s.cell m) (reaching m) _ _ h
  · intro s act cellAct hact hreaching
    cases act with
    | flag m' a =>
      by_cases hm : m' = m
      · subst hm
        obtain rfl : a = cellAct := by simpa [reaching] using hreaching
        exact ⟨hact, moved_same⟩
      · simp [reaching, hm] at hreaching
    | activate t =>
      by_cases hm : m = .passive
      · subst hm
        obtain rfl : Once.Act.leave t = cellAct := by simpa [reaching] using hreaching
        have hcell : (s.moved c .passive (.leave t)).cell .passive = _ := moved_same
        have hanswered : ((s.cell .passive).phase t).isAnswered = true := congrArg Once.Phase.isAnswered hact
        exact ⟨hanswered, hcell⟩
      · simp [reaching, hm] at hreaching
  · intro s act _ hreaching
    cases act with
    | flag m' a => exact moved_other fun hm => by simp [reaching, hm] at hreaching
    | activate t => exact moved_other fun hm => by simp [reaching, hm] at hreaching

theorem Run.kept (m : Mode) (h : Run c start acts) :
    Once.Cell.Kept false (c.mode m) (calls m acts) ((start.after c acts).cell m) := by
  rw [(h.cell m).2]
  exact Once.Cell.Run.kept (h.cell m).1

/-- The answer to a call is the setting if it was stored before the load, else no. -/
theorem load_answered (h : Run c start (acts ++ [.flag m (.load t)])) :
    ((start.after c (acts ++ [.flag m (.load t)])).cell m).phase t =
      .answered (if (calls m acts).any Once.Act.isStore then c.mode m else false) := by
  have hkept := Run.kept m (Run.guarded_append.1 h).1
  rw [after, Run.after_append, ← hkept.value_eq]
  change (((start.after c acts).moved c m (.load t)).cell m).phase t = _
  rw [moved_same]
  exact Once.Cell.move_same ..

/-- However the calls interleave, the setting of a mode is stored once, by the thread that asked first. A load after that
answers the setting; one before it answers no, and until then that thread alone is on its way to the store. -/
theorem modes_answer (c : Settings) (acts : List (Act τ)) (m : Mode) (t : τ)
    (hrun : Run c start (acts ++ [.flag m (.load t)])) : ∃ v rest, calls m acts = .mark v :: rest ∧
      ((rest.any Once.Act.isStore = false ∧
          (∀ u, ((start.after c acts).cell m).phase u = .first ↔ u = v) ∧
          ((start.after c (acts ++ [.flag m (.load t)])).cell m).phase t = .answered false) ∨
        ∃ pre post, rest = pre ++ .store v :: post ∧ pre.any Once.Act.isStore = false ∧ post.any Once.Act.isStore = false ∧
          ((start.after c (acts ++ [.flag m (.load t)])).cell m).phase t = .answered (c.mode m)) := by
  obtain ⟨hacts, hload⟩ := Run.guarded_concat.1 hrun
  have hans := load_answered hrun
  have hkept := Run.kept m hacts
  generalize hcalls : calls m acts = past at hkept hans
  generalize hcell : (start.after c acts).cell m = cell at hkept
  cases hkept with
  | fresh _ _ phase =>
    have ht : cell.phase t = .loading := hcell ▸ hload
    rw [phase t] at ht
    cases ht
  | busy v rest _ _ phase hrest =>
    refine ⟨v, rest, rfl, .inl ⟨hrest, phase, ?_⟩⟩
    rw [hans]
    simp [hrest]
  | settled v pre post _ _ _ hpre hpost =>
    refine ⟨v, _, rfl, .inr ⟨pre, post, rfl, hpre, hpost, ?_⟩⟩
    rw [hans]
    simp

/-- No variable is set, and the buffers stay zero. -/
def unset : Settings := ⟨⟨0, Char.ofNat 0⟩, false, ⟨0, Char.ofNat 0⟩, ⟨0, Char.ofNat 0⟩, ⟨0, Char.ofNat 0⟩⟩

/-- Two threads ask at once whether to force the proxy active: the second loads before the first has stored the default. -/
theorem modes_answer_early : ∃ (v : ℕ) (rest : List (Once.Act ℕ)),
    calls .forceProxyActive [.flag .forceProxyActive (.mark 1), .flag .forceProxyActive (.mark 2)] = .mark v :: rest ∧
      unset.mode .forceProxyActive = true ∧
      ((start.after unset [.flag .forceProxyActive (.mark 1), .flag .forceProxyActive (.mark 2),
        .flag .forceProxyActive (.load 2)]).cell .forceProxyActive).phase 2 = .answered false := by
  obtain ⟨v, rest, hcalls, _⟩ := modes_answer unset [Act.flag .forceProxyActive (.mark 1),
    .flag .forceProxyActive (.mark 2)] .forceProxyActive 2 (by decide)
  exact ⟨v, rest, hcalls, by decide, by decide⟩

/-! ## Passive mode -/

/-- Some load of the passive flag came before its store. -/
def Early (acts : List (Act τ)) : Prop :=
  ∃ pre t post, acts = pre ++ .flag .passive (.load t) :: post ∧ (calls .passive pre).any Once.Act.isStore = false

omit [DecidableEq τ] in
theorem Early.append (h : Early acts) (acts' : List (Act τ)) : Early (acts ++ acts') := by
  obtain ⟨pre, t, post, rfl, hpre⟩ := h
  exact ⟨pre, t, post ++ acts', by simp, hpre⟩

/-- A thread has the answer no from a load of the flag, or had it before the step. -/
theorem answered_step {act : Act τ} (h : ((s.step c act).cell .passive).phase t = .answered false) :
    (s.cell .passive).phase t = .answered false ∨
      act = .flag .passive (.load t) ∧ (s.cell .passive).value = false := by
  cases act with
  | flag m a =>
    change ((s.moved c m a).cell .passive).phase t = _ at h
    by_cases hm : m = .passive
    · subst hm
      rw [moved_same] at h
      obtain hbefore | ⟨rfl, hvalue⟩ := Once.Cell.answered_step h
      · exact .inl hbefore
      · exact .inr ⟨rfl, hvalue⟩
    · rw [moved_other (Ne.symm hm)] at h
      exact .inl h
  | activate u =>
    change ((s.moved c .passive (.leave u)).cell .passive).phase t = _ at h
    rw [moved_same] at h
    obtain hbefore | ⟨hload, _⟩ := Once.Cell.answered_step h
    · exact .inl hbefore
    · cases hload

/-- In passive mode nobody is told otherwise, and the proxy is not active, unless a load came too early. -/
theorem Run.early (hc : c.mode .passive = true) (h : Run c start acts) (hnot : ¬ Early acts) :
    (start.after c acts).proxyActive = false ∧
      ∀ t, ((start.after c acts).cell .passive).phase t ≠ .answered false := by
  induction acts using List.reverseRecOn with
  | nil => exact ⟨rfl, nofun⟩
  | append_singleton acts act ih =>
    obtain ⟨hacts, hact⟩ := Run.guarded_concat.1 h
    obtain ⟨hactive, hanswered⟩ := ih hacts fun hearly => hnot (hearly.append [act])
    rw [after, Run.after_append]
    constructor
    · cases act with
      | flag m a => exact hactive
      | activate t => exact absurd hact (hanswered t)
    · intro t ht
      obtain hbefore | ⟨rfl, hvalue⟩ := answered_step ht
      · exact hanswered t hbefore
      · have hkept := (Run.kept .passive hacts).value_eq
        apply hnot
        refine ⟨acts, t, [], rfl, ?_⟩
        by_contra hstore
        rw [if_pos (Bool.eq_true_of_not_eq_false hstore), hc] at hkept
        rw [hkept] at hvalue
        cases hvalue

/-- The call that StartPatch makes before it starts anything else. -/
def startCall (t : τ) : List (Act τ) :=
  [.flag .passive (.mark t), .flag .passive (.store t), .flag .passive (.load t), .flag .passive (.leave t)]

omit [DecidableEq τ] in
theorem startCall_not_early (t : τ) (acts : List (Act τ)) : ¬ Early (startCall t ++ acts) := by
  rintro ⟨pre, u, post, heq, hpre⟩
  -- a step list that begins with the exchange and the store has the store before any load
  match pre with
  | [] => cases List.head_eq_of_cons_eq heq
  | [_] => cases List.head_eq_of_cons_eq (List.tail_eq_of_cons_eq heq)
  | x :: y :: pre =>
    have hx : .flag .passive (.mark t) = x := List.head_eq_of_cons_eq heq
    have hy : .flag .passive (.store t) = y := List.head_eq_of_cons_eq (List.tail_eq_of_cons_eq heq)
    subst hx hy
    simp [calls, reaching] at hpre

/-- In passive mode the proxy stays inactive, however the threads' calls of ActivateProxy interleave, once StartPatch has
asked. Without that the proxy becomes active only if some thread loaded the flag before it was stored. -/
theorem passive_inert (c : Settings) (hc : c.mode .passive = true) :
    (∀ (t : τ) (acts : List (Act τ)), Run c start (startCall t ++ acts) →
      (start.after c (startCall t ++ acts)).proxyActive = false) ∧
    ∀ acts : List (Act τ), Run c start acts → (start.after c acts).proxyActive = true → Early acts := by
  constructor
  · intro t acts hrun
    exact (hrun.early hc (startCall_not_early t acts)).1
  · intro acts hrun hactive
    by_contra hnot
    have hinactive := (hrun.early hc hnot).1
    rw [hactive] at hinactive
    cases hinactive

/-- StartPatch and two threads of the game: the flag file is there, and neither may activate the proxy. -/
theorem passive_inert_two : (start.after { unset with passiveFlag := true } (startCall 0 ++ [.flag .passive (.mark 1),
    .flag .passive (.mark 2), .flag .passive (.load 2), .flag .passive (.leave 2),
    .flag .passive (.load 1)])).proxyActive = false :=
  (passive_inert { unset with passiveFlag := true } (by decide)).1 0 _ (by decide)

end

end Flags

end Ts3Vas.WorkingHooks
