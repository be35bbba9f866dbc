/-
What `VirtualFree(p, 0, MEM_DECOMMIT)` on a slot does to the pages below the hooks. Hooked_VirtualFree
takes over MEM_RELEASE alone, so the system reads `p` as one of its own reservations or none.
-/
import Ts3Vas.Conc.Handover
import Ts3Vas.Hook.Virtual

namespace Ts3Vas

open Prog

variable {σ : Type}

/-- The memory below the hooks. -/
@[ext]
structure Memory where
  /-- The size of the reservation that starts at an address. -/
  reserved : ℕ → Option ℕ
  /-- What a page holds, by page number; `none` where it is not committed. -/
  page : ℕ → Option ℕ

/-- The memory once the pages touched by `[addr, addr + size)` are decommitted. -/
def Memory.without (m : Memory) (addr size : ℕ) : Memory :=
  { m with page := fun n => if InPages addr size n then none else m.page n }

/-- The memory once they are committed: new pages are zero. -/
def Memory.commit (m : Memory) (addr size : ℕ) : Memory :=
  { m with page := fun n => if InPages addr size n then some ((m.page n).getD 0) else m.page n }

/-- MEM_DECOMMIT with size 0 as it is documented: at the base of a reservation all of it goes,
elsewhere the call fails and changes nothing. -/
structure Decommits (env : Env σ) (mem : σ → Memory) : Prop where
  whole : ∀ w p n, (mem w.os).reserved p = some n →
    mem (env.real (.virtualFree p 0 MEM_DECOMMIT) w).2.os = (mem w.os).without p n
  refused : ∀ w p, (mem w.os).reserved p = none → mem (env.real (.virtualFree p 0 MEM_DECOMMIT) w).2.os = mem w.os

/-- The pages of the slot are decommitted, and all others are as they were. -/
def Confined (mem : σ → Memory) (w w' : World σ) (slot : Slot) : Prop :=
  mem w'.os = (mem w.os).without slot.addr slot.size

/-- The reservation that a call with this address reaches. -/
def World.reached (mem : σ → Memory) (w : World σ) (p : ℕ) : Option ℕ :=
  if w.tool.resolved .virtualFree then (mem w.os).reserved p else none

/-- The slot starts a reservation and its pages are all that is committed of it, or it starts none
and has no committed page. -/
def SoleTenant (mem : σ → Memory) (w : World σ) (slot : Slot) : Prop :=
  match w.reached mem slot.addr with
  | some n => ∀ k, (mem w.os).page k ≠ none → (InPages slot.addr n k ↔ InPages slot.addr slot.size k)
  | none => ∀ k, InPages slot.addr slot.size k → (mem w.os).page k = none

/-! ## The call -/

theorem os_rtlHookScope {α : Type} (m : Hook σ α) (w : World σ) : (exec (rtlHookScope m) w).2.os =
    (exec m { w with thread := { w.thread with hookActive := true } }).2.os := rfl

theorem os_setInHook (v : Bool) (w : World σ) :
    (exec (setInHook v) w).2.os = w.os ∧ (exec (setInHook v) w).2.tool = w.tool := by
  unfold setInHook
  rw [exec_modify]
  split <;> exact ⟨rfl, rfl⟩

/-- A call that is only forwarded has the effect of the real call, made in a state with the same
memory, or no effect where there is no real function to call. -/
theorem forward_effect (env : Env σ) (c : RealCall) (absent : ℕ) (w : World σ) :
    (w.tool.resolved c.api = true ∧ ∃ v : World σ, v.os = w.os ∧ (exec (forward env c absent) w).2.os = (env.real c v).2.os) ∨
      (w.tool.resolved c.api = false ∧ (exec (forward env c absent) w).2.os = w.os) := by
  unfold forward
  rw [exec_bind, exec_get]
  cases hr : w.tool.resolved c.api with
  | false =>
    refine .inr ⟨rfl, ?_⟩
    rw [if_pos (by simp), if_neg Bool.false_ne_true]
    rfl
  | true =>
    refine .inl ⟨rfl, ?_⟩
    by_cases hc : w.closed
    · rw [if_pos (by simp [hc]), if_pos rfl]
      exact ⟨w, rfl, rfl⟩
    · rw [if_neg (by simp [hc]), os_rtlHookScope, exec_bind, exec_bind, exec_bind, exec_pure, (os_setInHook _ _).1]
      refine ⟨(exec (setInHook true) { w with thread := { w.thread with hookActive := true } }).2, ?_, rfl⟩
      exact (os_setInHook true _).1

/-- MEM_DECOMMIT passes every branch of the hook. -/
theorem hookedVirtualFree_decommit (env : Env σ) (p : ℕ) (w : World σ) :
    exec (hookedVirtualFree env p 0 MEM_DECOMMIT) w = exec (forward env (.virtualFree p 0 MEM_DECOMMIT) 0) w := by
  have hf : hasFlag MEM_DECOMMIT MEM_RELEASE = false := by decide
  unfold hookedVirtualFree vatUntrack
  rw [exec_bind, exec_get, if_neg (by rw [hf]; exact fun h => Bool.false_ne_true h.1), exec_bind, hf]
  rfl

theorem step_decommit {env : Env σ} {mem : σ → Memory} (h : Decommits env mem) (w : World σ) (p : ℕ) :
    mem (w.step env (.virtualFree p 0 MEM_DECOMMIT)).os =
      match w.reached mem p with
      | some n => (mem w.os).without p n
      | none => mem w.os := by
  show mem (exec (hookedVirtualFree env p 0 MEM_DECOMMIT) w).2.os = _
  rw [hookedVirtualFree_decommit]
  unfold World.reached
  rcases forward_effect env (.virtualFree p 0 MEM_DECOMMIT) 0 w with ⟨hr, v, hv, e⟩ | ⟨hr, e⟩
  · replace hr : w.tool.resolved .virtualFree = true := hr
    rw [e, hr, if_pos rfl, ← hv]
    cases hn : (mem v.os).reserved p with
    | none => exact h.refused v p hn
    | some n => exact h.whole v p n hn
  · replace hr : w.tool.resolved .virtualFree = false := hr
    rw [e, hr]
    rfl

/-- Taking one range of pages away is the same as taking another one away. -/
theorem without_eq_iff (m : Memory) (a n b k : ℕ) :
    m.without a n = m.without b k ↔ ∀ x, m.page x ≠ none → (InPages a n x ↔ InPages b k x) := by
  constructor
  · intro h x hx
    have hp := congrFun (congrArg Memory.page h) x
    simp only [Memory.without] at hp
    by_cases h1 : InPages a n x
    · by_cases h2 : InPages b k x
      · exact iff_of_true h1 h2
      · rw [if_pos h1, if_neg h2] at hp
        exact absurd hp.symm hx
    · by_cases h2 : InPages b k x
      · rw [if_neg h1, if_pos h2] at hp
        exact absurd hp hx
      · exact iff_of_false h1 h2
  · intro h
    refine Memory.ext rfl (funext fun x => ?_)
    simp only [Memory.without]
    by_cases hx : m.page x = none
    · rw [hx]; simp
    · simp only [h x hx]

theorem eq_without_iff (m : Memory) (a n : ℕ) : m = m.without a n ↔ ∀ x, InPages a n x → m.page x = none := by
  constructor
  · intro h x hx
    rw [h]
    exact if_pos hx
  · intro h
    refine Memory.ext rfl (funext fun x => ?_)
    simp only [Memory.without]
    split
    · exact h x ‹_›
    · rfl

/-- In every state, for every slot: the decommit is confined to the slot exactly when the slot is the
sole tenant of the reservation that it starts. -/
theorem confined_iff {env : Env σ} {mem : σ → Memory} (h : Decommits env mem) (w : World σ) (slot : Slot) :
    Confined mem w (w.step env (.virtualFree slot.addr 0 MEM_DECOMMIT)) slot ↔ SoleTenant mem w slot := by
  unfold Confined SoleTenant
  rw [step_decommit h]
  cases w.reached mem slot.addr with
  | some n => exact without_eq_iff _ _ _ _ _
  | none => exact eq_without_iff _ _ _

/-! ## Two slots of one arena -/

/-- A system with one reservation and nothing but virtual memory. -/
def Env.paged : Env Memory where
  real c w := match c with
    | .virtualAlloc addr size type _ =>
      if addr ≠ 0 ∧ hasFlag type MEM_COMMIT then (⟨addr, 0, 0⟩, { w with os := w.os.commit addr size })
      else (⟨0, 0, 0⟩, w)
    | .virtualFree addr size _ =>
      match (if size = 0 then w.os.reserved addr else some size) with
      | some n => (⟨1, 0, 0⟩, { w with os := w.os.without addr n })
      | none => (⟨0, 0, 0⟩, w)
    | _ => (⟨0, 0, 0⟩, w)
  handleLive _ _ := true
  stray _ := 0
  memcpy _ _ _ s := s
  isCorralAddress _ _ := false
  corralReserve _ _ _ s := (0, s)
  corralFree _ s := s

theorem decommits_paged : Decommits Env.paged id := by
  constructor
  · intro w p n hn
    have hn : w.os.reserved p = some n := hn
    simp [Env.paged, hn]
  · intro w p hn
    have hn : w.os.reserved p = none := hn
    simp [Env.paged, hn]

/-- The arena as the system sees it: one reservation of 1 GB, nothing committed. -/
def Memory.arena1G : Memory := ⟨fun p => if p = 0x40000000 then some 0x40000000 else none, fun _ => none⟩

/-- After the redirect of one slot that takes the whole arena. -/
def World.filled : World Memory :=
  (World.install Sys.arena1G Memory.arena1G).step Env.paged (.virtualAlloc 0 0x40000000 (MEM_RESERVE ||| MEM_COMMIT) PAGE_READWRITE)

/-- It is decommitted alone. -/
theorem confined_filled : Confined id World.filled
    (World.filled.step Env.paged (.virtualFree 0x40000000 0 MEM_DECOMMIT)) ⟨0x40000000, 0x40000000⟩ := by
  refine (confined_iff decommits_paged World.filled ⟨0x40000000, 0x40000000⟩).2 ?_
  have hr : World.filled.reached id 0x40000000 = some 0x40000000 := by decide +kernel
  unfold SoleTenant
  rw [hr]
  exact fun k _ => Iff.rfl

/-- Two redirects of 20 KB. -/
def twoRedirects : List HookCall :=
  [.virtualAlloc 0 0x5000 (MEM_RESERVE ||| MEM_COMMIT) PAGE_READWRITE, .virtualAlloc 0 0x5000 (MEM_RESERVE ||| MEM_COMMIT) PAGE_READWRITE]

/-- The first of two redirected slots lies at the base of the arena: its decommit takes the pages of
the second one with it. -/
theorem not_confined_twoRedirects : ¬ ∀ (env : Env Memory), Decommits env id →
    ∀ (a : ProxyAllocator) (m : Memory) (calls : List HookCall) (slot : Slot), Started a →
      (Run.after (World.step env) (World.install a m) calls).tool.tables.view slot.addr .vat = some ⟨slot.addr, slot.size⟩ →
      Confined id (Run.after (World.step env) (World.install a m) calls)
        ((Run.after (World.step env) (World.install a m) calls).step env (.virtualFree slot.addr 0 MEM_DECOMMIT)) slot := by
  intro h
  have hlive : (Run.after (World.step Env.paged) (World.install Sys.arena1G Memory.arena1G) twoRedirects).tool.tables.view
      0x40000000 .vat = some ⟨0x40000000, 0x5000⟩ := by decide +kernel
  have hc := h Env.paged decommits_paged Sys.arena1G Memory.arena1G twoRedirects ⟨0x40000000, 0x5000⟩
    Sys.arena1G_started hlive
  -- page 0x40005 is the first of the second slot
  have hpage := congrFun (congrArg Memory.page hc) 0x40005
  revert hpage
  decide +kernel

end Ts3Vas
