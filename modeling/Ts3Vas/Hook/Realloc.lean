/-
What a reallocation that returns null has done to the block it was asked to move.
-/
import Ts3Vas.Hook.Route

namespace Ts3Vas

open Prog

variable {σ : Type}

/-! ## Failure below the hooks -/

/-- What can be seen of the system below the hooks. -/
structure View (σ : Type) where
  /-- The byte at an address, where a page is committed. -/
  contents : σ → ℕ → Option ℕ
  /-- The heap and the size of the block at an address, where one is allocated. -/
  block : σ → ℕ → Option (ℕ × ℕ)

/-- A view that shows no memory at all. -/
def View.blind : View σ := ⟨fun _ _ => none, fun _ _ => none⟩

/-- The functions that give memory or null. -/
def RealCall.mayFail : RealCall → Bool
  | virtualAlloc .. | rtlAllocateHeap .. | heapAlloc .. | rtlReAllocateHeap .. | heapReAlloc .. => true
  | _ => false

/-- Nothing is lost between two states: every record, every slot, every block, every page. -/
structure Unharmed (v : View σ) (w w' : World σ) : Prop where
  tables : w'.tool.tables = w.tool.tables
  live : w'.tool.sys.live.Perm w.tool.sys.live
  contents : v.contents w'.os = v.contents w.os
  block : v.block w'.os = v.block w.os

/-- As the functions are documented: one that returns null has left all memory as it was. -/
def FailsCleanly (env : Env σ) (v : View σ) : Prop :=
  ∀ c, c.mayFail → ∀ w, (env.real c w).1.value = 0 → Unharmed v w (env.real c w).2

instance (v : View σ) : IsPreorder (World σ) (Unharmed v) where
  refl _ := ⟨rfl, .refl _, rfl, rfl⟩
  trans _ _ _ h h' := ⟨h'.tables.trans h.tables, h'.live.trans h.live, h'.contents.trans h.contents, h'.block.trans h.block⟩

/-- Null. -/
abbrev Null (p : ℕ) : Prop := p = 0

section
variable {env : Env σ} {v : View σ} {α : Type}

theorem unharmed_of_thread {w w' : World σ} (ho : w'.os = w.os) (ht : w'.tool = w.tool) : Unharmed v w w' := by
  constructor
  · rw [ht]
  · rw [ht]
  · rw [ho]
  · rw [ho]

theorem within_setHookActive (b : Bool) : Within (Unharmed v) (setHookActive b) := fun _ => unharmed_of_thread rfl rfl

theorem within_setInHook (b : Bool) : Within (Unharmed v) (setInHook b) := fun w => by
  show Unharmed v w (if _ then _ else _)
  split <;> exact unharmed_of_thread rfl rfl

/-- A program followed by one that cannot harm, its result returned. -/
theorem nullThen {m : Hook σ ℕ} (hm : WithinIf Null (Unharmed v) m) {n : Hook σ Unit} (hn : Within (Unharmed v) n) :
    WithinIf Null (Unharmed v) (do let r ← m; n; return r) :=
  hm.bind (fun _ _ => .after hn fun _ => .pure _) fun _ _ h => h

theorem null_rtlHookScope {m : Hook σ ℕ} (hm : WithinIf Null (Unharmed v) m) :
    WithinIf Null (Unharmed v) (rtlHookScope m) :=
  .after (within_setHookActive true) fun _ => nullThen hm (within_setHookActive false)

theorem null_proxyHeapHookScope {m : Hook σ ℕ} (hm : WithinIf Null (Unharmed v) m) :
    WithinIf Null (Unharmed v) (proxyHeapHookScope m) :=
  .get fun _ => .ite hm <| .after (within_setInHook true) fun _ => nullThen hm (within_setInHook false)

theorem null_attempt {c : Prop} [Decidable c] {m : Hook σ ℕ} (hm : WithinIf Null (Unharmed v) m) :
    WithinIf Null (Unharmed v) (attempt c m) := .ite hm (.pure _)

/-- A second attempt after a first, then the rest; both have failed if the result is null. -/
theorem null_orElse {R : World σ → World σ → Prop} [IsPreorder (World σ) R] {m n : Hook σ ℕ} {k : ℕ → Hook σ ℕ}
    (hm : WithinIf Null R m) (hn : WithinIf Null R n) (hk : ∀ p, WithinIf Null R (k p))
    (h0 : ∀ p w, (exec (k p) w).1 = 0 → p = 0) : WithinIf Null R (do let p ← m; let p ← orElse p n; k p) := by
  refine hm.bind (fun p hp => ?_) fun p w h => ?_
  · rw [orElse, if_pos hp]
    exact hn.bind (fun q _ => hk q) h0
  · by_contra hp
    rw [orElse, if_neg hp] at h
    exact hp (h0 p w h)

theorem FailsCleanly.callValue (h : FailsCleanly env v) {c : RealCall} (hc : c.mayFail) :
    WithinIf Null (Unharmed v) (callValue env c) := by
  intro w hr
  have hu : Unharmed v w (env.real c w).2 := h c hc w hr
  exact ⟨hu.tables, hu.live, hu.contents, hu.block⟩

theorem FailsCleanly.forward (h : FailsCleanly env v) {c : RealCall} (hc : c.mayFail) (absent : ℕ) :
    WithinIf Null (Unharmed v) (forward env c absent) :=
  .get fun _ => .ite (.ite (h.callValue hc) (.pure _)) <| null_rtlHookScope <|
    .after (within_setInHook true) fun _ => nullThen (h.callValue hc) (within_setInHook false)

/-! ## A new slot that could not be used -/

/-- A slot is granted and live, or there is none and nothing has changed but the allocator. -/
theorem arenaAllocate_cases (w : World σ) (size : ℕ) :
    ((exec (arenaAllocate size) w).1 = 0 ∧ Unharmed v w (exec (arenaAllocate size) w).2) ∨
    ((exec (arenaAllocate size) w).1 ≠ 0 ∧
      (exec (arenaAllocate size) w).2.tool.sys.live = w.tool.sys.live ++ [⟨(exec (arenaAllocate size) w).1, size⟩] ∧
      (exec (arenaAllocate size) w).2.tool.tables = w.tool.tables ∧ (exec (arenaAllocate size) w).2.os = w.os) := by
  rw [exec_arenaAllocate, Sys.step_allocate]
  by_cases hp : (w.tool.sys.alloc.allocate size (w.tool.sys.alloc.prefersTopDown size)).1 = 0
  · left
    refine ⟨hp, rfl, ?_, rfl, rfl⟩
    rw [if_pos hp]
  · right
    refine ⟨hp, ?_, rfl, rfl⟩
    rw [if_neg hp]

theorem FailsCleanly.createProxyAllocation (h : FailsCleanly env v) (caller : Caller) (size protect : ℕ) :
    WithinIf Null (Unharmed v) (createProxyAllocation env caller size protect) := by
  refine .get fun w' => .ite (.pure _) <| .ite (.pure _) fun w hr => ?_
  rw [exec_bind] at hr ⊢
  rcases arenaAllocate_cases (v := v) w size with ⟨hp, hu⟩ | ⟨hp, hl, ht, ho⟩
  · rw [if_pos hp]
    exact hu
  · rw [if_neg hp] at hr ⊢
    generalize (exec (arenaAllocate size) w).1 = p at *
    generalize (exec (arenaAllocate size) w).2 = w₁ at *
    -- the slot that `Allocate` has added goes back, after a failed check or a failed commit
    have hfree : ∀ w', Unharmed v w₁ w' → Unharmed v w (exec (arenaFree p size) w').2 := by
      intro w' hu
      refine ⟨hu.tables.trans ht, ?_, hu.contents.trans (by rw [ho]), hu.block.trans (by rw [ho])⟩
      show (w'.tool.sys.live.erase ⟨p, size⟩).Perm _
      have hperm := hu.live.erase ⟨p, size⟩
      rw [hl] at hperm
      exact hperm.trans ((List.perm_append_singleton _ _).erase _ |>.trans (by rw [List.erase_cons_head]))
    rw [exec_ite] at hr ⊢
    by_cases hc : (!isProxyAddress w'.tool p || decide (p % pageSize ≠ 0)) = true
    · rw [if_pos hc]
      exact hfree _ (refl _)
    · rw [if_neg hc, exec_bind, exec_ite] at hr ⊢
      by_cases hcommit : (exec (commitSlot env p size (if protect = 0 then PAGE_READWRITE else protect)) w₁).1 = 0
      · rw [if_pos hcommit]
        exact hfree _ (h.forward rfl 0 _ hcommit)
      · rw [if_neg hcommit] at hr
        exact absurd hr hp

theorem FailsCleanly.proxyHeapReAlloc (h : FailsCleanly env v) (flags p size : ℕ) :
    WithinIf Null (Unharmed v) (proxyHeapReAlloc env flags p size) := by
  refine .get fun w => ?_
  cases proxyHeapShardOf w.tool p with
  | none => exact .pure _
  | some s => exact .ite (null_proxyHeapHookScope (h.callValue rfl)) (.pure _)

/-! ## Slots of the arena -/

/-- A block that `CreateProxyAllocation` has captured, and that no shard claims. -/
def Captured (t : Tool) (p : ℕ) : Prop :=
  p ≠ 0 ∧ proxyHeapShardOf t p = none ∧ t.memManager ∧ isProxyAddress t p ∧ (t.tables.view p .allocations).isSome

instance (t : Tool) (p : ℕ) : Decidable (Captured t p) := inferInstanceAs (Decidable (_ ∧ _))

/-- Nothing is lost when there is no record of `p` to begin with. -/
def Spared (v : View σ) (p : ℕ) (w w' : World σ) : Prop := w.tool.tables.view p .allocations = none → Unharmed v w w'

instance (v : View σ) (p : ℕ) : IsPreorder (World σ) (Spared v p) where
  refl w _ := refl w
  trans w₁ w₂ w₃ h h' hn := by
    have h₁ := h hn
    exact IsTrans.trans _ _ _ h₁ (h' (by rw [h₁.tables]; exact hn))

/-- Without a record there is nothing to free. -/
theorem spared_freeProxyAllocation (p : ℕ) : Within (Spared v p) (freeProxyAllocation env p) := by
  intro w hn
  unfold freeProxyAllocation
  rw [exec_bind, exec_get, exec_ite]
  split
  · have hlookup : w.tool.tables.allocations.lookup p = none := hn
    have hsame : w.tool.tables.allocations.erase p = w.tool.tables.allocations :=
      AList.ext (List.kerase_of_notMem_keys (AList.lookup_eq_none.1 hlookup))
    have hfound : (exec (takeRecord p .allocations) w).1 = none := hn
    rw [exec_bind, hfound]
    refine ⟨?_, .refl _, rfl, rfl⟩
    show (⟨w.tool.tables.allocations.erase p, w.tool.tables.vat⟩ : Tables) = _
    rw [hsame]
  · exact refl w

theorem FailsCleanly.arenaReAlloc (h : FailsCleanly env v) (caller : Caller) {fallback : RealCall}
    (hc : fallback.mayFail) (p size : ℕ) : WithinIf Null (Spared v p) (arenaReAlloc env caller fallback p size) := by
  refine .get fun w => ?_
  have hfree : ∀ q, WithinIf Null (Spared v p) (do let _ ← freeProxyAllocation env p; return q) := fun q =>
    .after (spared_freeProxyAllocation p) fun _ => .pure q
  have hspared : ∀ {m : Hook σ ℕ}, WithinIf Null (Unharmed v) m → WithinIf Null (Spared v p) m := fun hm =>
    hm.mono fun _ _ hu _ => hu
  refine null_orElse (hspared (null_attempt (h.createProxyAllocation caller size PAGE_READWRITE)))
    (hspared (h.callValue hc)) (fun q => ?_) fun q w hr => ?_
  · by_cases hq : q = 0
    · rw [if_neg (not_not.2 hq)]
      exact hfree q
    · -- a block was found, so the result is not null
      rw [if_pos hq]
      exact fun w hr => absurd hr hq
  · rw [exec_ite] at hr
    split at hr <;> exact hr

/-! ## The two hooks -/

theorem FailsCleanly.forceReAlloc (h : FailsCleanly env v) (caller : Caller) (heap flags p size : ℕ) :
    WithinIf Null (Unharmed v) (forceReAlloc env caller heap flags p size) := by
  refine (h.createProxyAllocation caller size PAGE_READWRITE).bind (fun q hq => ?_) fun q w hr => ?_
  · rw [if_neg fun hn => hn.1 hq]
    exact .pure q
  · rw [exec_ite] at hr
    split at hr <;> exact hr

/-- A pointer that the arena branch would not free: not captured. -/
theorem not_arena_of_not_captured {w : World σ} {p : ℕ} (hn : ¬ Captured w.tool p)
    (hs : ¬ (p ≠ 0 ∧ (proxyHeapShardOf w.tool p).isSome)) (h0 : p ≠ 0) (hm : w.tool.memManager)
    (hp : isProxyAddress w.tool p) : w.tool.tables.view p .allocations = none := by
  by_contra hne
  refine hn ⟨h0, ?_, hm, hp, Option.isSome_iff_ne_none.2 hne⟩
  cases hshard : proxyHeapShardOf w.tool p with
  | none => rfl
  | some s => exact absurd ⟨h0, by rw [hshard]; rfl⟩ hs

theorem FailsCleanly.hookedHeapReAlloc (h : FailsCleanly env v) {w : World σ} {p : ℕ} (hn : ¬ Captured w.tool p)
    (caller : Caller) (heap flags size : ℕ) (hr : (exec (hookedHeapReAlloc env caller heap flags p size) w).1 = 0) :
    Unharmed v w (exec (hookedHeapReAlloc env caller heap flags p size) w).2 := by
  unfold Ts3Vas.hookedHeapReAlloc at hr ⊢
  rw [exec_bind, exec_get, exec_ite, exec_ite] at hr ⊢
  by_cases hs : p ≠ 0 ∧ (proxyHeapShardOf w.tool p).isSome
  · rw [if_pos hs] at hr ⊢
    exact h.proxyHeapReAlloc flags p size w hr
  rw [if_neg hs] at hr ⊢
  by_cases ha : p ≠ 0 ∧ w.tool.memManager ∧ isProxyAddress w.tool p
  · rw [if_pos ha] at hr ⊢
    exact h.arenaReAlloc caller rfl p size w hr (not_arena_of_not_captured hn hs ha.1 ha.2.1 ha.2.2)
  rw [if_neg ha] at hr ⊢
  have hreal : WithinIf Null (Unharmed v) (Ts3Vas.callValue env (.heapReAlloc heap flags p size)) := h.callValue rfl
  refine WithinIf.ite (.ite hreal (.pure _)) (null_rtlHookScope <| .after (within_setInHook true) fun _ => ?_) w hr
  exact .get fun w => null_orElse (null_attempt (h.forceReAlloc caller heap flags p size)) hreal
    (fun q => .after (within_setInHook false) fun _ => .pure q) fun _ _ hr => hr

theorem FailsCleanly.hookedRtlReAllocateHeap (h : FailsCleanly env v) {w : World σ} {p : ℕ}
    (hn : w.rtlReAllocateClosed ∨ ¬ Captured w.tool p) (caller : Caller) (heap flags size : ℕ)
    (hr : (exec (hookedRtlReAllocateHeap env caller heap flags p size) w).1 = 0) :
    Unharmed v w (exec (hookedRtlReAllocateHeap env caller heap flags p size) w).2 := by
  have hreal : WithinIf Null (Unharmed v) (Ts3Vas.callValue env (.rtlReAllocateHeap heap flags p size)) := h.callValue rfl
  unfold Ts3Vas.hookedRtlReAllocateHeap at hr ⊢
  rw [exec_bind, exec_get, exec_ite, exec_ite, exec_ite] at hr ⊢
  by_cases hg : w.busy || !w.tool.memManager || w.tool.shuttingDown
  · rw [if_pos hg] at hr ⊢
    exact hreal w hr
  rw [if_neg hg] at hr ⊢
  -- past the guard the block's owner decides: a shard, the arena, or the heap
  by_cases hs : p ≠ 0 ∧ (proxyHeapShardOf w.tool p).isSome
  · rw [if_pos hs] at hr ⊢
    exact h.proxyHeapReAlloc flags p size w hr
  rw [if_neg hs] at hr ⊢
  by_cases ha : w.tool.memManager ∧ p ≠ 0 ∧ isProxyAddress w.tool p
  · rw [if_pos ha] at hr ⊢
    exact h.arenaReAlloc caller rfl p size w hr
      (not_arena_of_not_captured (hn.resolve_left hg) hs ha.2.1 ha.1 ha.2.2)
  rw [if_neg ha] at hr ⊢
  exact null_rtlHookScope (.after (within_setInHook true) fun _ => nullThen hreal (within_setInHook false)) w hr

end

/-! ## When nothing can be had -/

/-- A system that refuses every call. -/
def Env.refusing : Env σ where
  real _ w := (⟨0, 0, 0⟩, w)
  handleLive _ _ := true
  stray _ := 0
  memcpy _ _ _ s := s
  isCorralAddress _ _ := false
  corralReserve _ _ _ s := (0, s)
  corralFree _ s := s

theorem failsCleanly_refusing (v : View σ) : FailsCleanly Env.refusing v := fun _ _ w _ => refl w

theorem settled_refusing : Settled (Env.refusing : Env σ) := fun _ w => refl w.tool

theorem forward_refusing (c : RealCall) (w : World σ) :
    (exec (forward .refusing c 0) w).1 = 0 ∧ (exec (forward .refusing c 0) w).2.tool = w.tool := by
  unfold forward
  rw [exec_bind, exec_get, exec_ite, exec_ite]
  split_ifs
  · exact ⟨rfl, rfl⟩
  · exact ⟨rfl, rfl⟩
  · refine ⟨rfl, ?_⟩
    have hset : ∀ (b : Bool) (w : World σ), (exec (setInHook b) w).2.tool = w.tool := fun b w => by
      show World.tool (if _ then _ else _) = _
      split <;> rfl
    exact (hset false _).trans (hset true _)

theorem createProxyAllocation_refusing (caller : Caller) (size protect : ℕ) (w : World σ) :
    (exec (createProxyAllocation .refusing caller size protect) w).1 = 0 := by
  have hcommit : ∀ p n r (w : World σ), (exec (commitSlot .refusing p n r) w).1 = 0 := fun _ _ _ w => (forward_refusing _ w).1
  unfold createProxyAllocation
  generalize (if protect = 0 then PAGE_READWRITE else protect) = r
  rw [exec_bind, exec_get, exec_ite, exec_ite, exec_bind, exec_ite, exec_ite, exec_bind, exec_bind, exec_ite,
    if_pos (hcommit ..)]
  split_ifs <;> rfl

/-- A record that `FreeProxyAllocation` has taken is gone. -/
theorem view_freeProxyAllocation_refusing {w : World σ} {p : ℕ} (hp : isProxyAddress w.tool p) :
    (exec (freeProxyAllocation .refusing p) w).2.tool.tables.view p .allocations = none := by
  have herase : (w.tool.tables.allocations.erase p).lookup p = none := AList.lookup_erase _ _
  unfold freeProxyAllocation
  rw [exec_bind, exec_get, exec_ite, if_pos hp, exec_bind]
  cases (exec (takeRecord p .allocations) w).1 with
  | none => exact herase
  | some r =>
    -- the decommit leaves the tables alone, and so does the arena's `Free`
    have hd := (forward_refusing (.virtualFree r.proxyBase r.proxySize MEM_DECOMMIT)
      (exec (takeRecord p .allocations) w).2).2
    show Tables.view (exec (decommitSlot .refusing r.proxyBase r.proxySize)
      (exec (takeRecord p .allocations) w).2).2.tool.tables p .allocations = none
    rw [decommitSlot, hd]
    exact herase

/-- The slot of a captured block is freed though there was nothing to move its contents to. -/
theorem arenaReAlloc_refusing {w : World σ} {p : ℕ} (hp : isProxyAddress w.tool p) (caller : Caller)
    (fallback : RealCall) (size : ℕ) :
    (exec (arenaReAlloc .refusing caller fallback p size) w).1 = 0 ∧
      (exec (arenaReAlloc .refusing caller fallback p size) w).2.tool.tables.view p .allocations = none := by
  unfold arenaReAlloc
  rw [exec_bind, exec_get]
  generalize hc : (capturable w.tool size && w.tool.proxyActive && !w.tool.shuttingDown) = c
  have htry : (exec (attempt c (createProxyAllocation .refusing caller size PAGE_READWRITE)) w).1 = 0 := by
    rw [attempt, exec_ite]
    split
    · exact createProxyAllocation_refusing caller size PAGE_READWRITE w
    · rfl
  -- what has been tried leaves the arena where it is
  have hfix : World.Fixed w (exec (attempt c (createProxyAllocation .refusing caller size PAGE_READWRITE)) w).2 :=
    Atoms.attempt (settled_refusing.atoms.createProxyAllocation (fun _ _ _ _ => trivial) caller size PAGE_READWRITE) w
  rw [exec_bind, htry, exec_bind]
  exact ⟨rfl, view_freeProxyAllocation_refusing ((hfix.isProxyAddress p).trans hp)⟩

/-! ## Failed reallocations -/

/-- The block at `p` is still there: its record, its contents, its place in its heap, every slot. -/
structure Intact (v : View σ) (p : ℕ) (w w' : World σ) : Prop where
  record : w'.tool.tables.view p .allocations = w.tool.tables.view p .allocations
  contents : v.contents w'.os = v.contents w.os
  block : v.block w'.os p = v.block w.os p
  live : w'.tool.sys.live.Perm w.tool.sys.live

theorem Unharmed.intact {v : View σ} {w w' : World σ} (h : Unharmed v w w') (p : ℕ) : Intact v p w w' :=
  ⟨by rw [h.tables], h.contents, by rw [h.block], h.live⟩

/-- However the calls below the hooks turn out, a reallocation that returns null leaves the block
intact: for `HeapReAlloc` exactly when the block is not captured, for `RtlReAllocateHeap` exactly when
it is not captured or the guard keeps the hook from routing it. -/
theorem reAlloc_intact_iff (w : World σ) (caller : Caller) (heap flags p size : ℕ) :
    ((∀ (env : Env σ) (v : View σ), FailsCleanly env v → (exec (hookedHeapReAlloc env caller heap flags p size) w).1 = 0 →
        Intact v p w (exec (hookedHeapReAlloc env caller heap flags p size) w).2) ↔ ¬ Captured w.tool p) ∧
    ((∀ (env : Env σ) (v : View σ), FailsCleanly env v →
        (exec (hookedRtlReAllocateHeap env caller heap flags p size) w).1 = 0 →
        Intact v p w (exec (hookedRtlReAllocateHeap env caller heap flags p size) w).2) ↔
      w.rtlReAllocateClosed ∨ ¬ Captured w.tool p) := by
  -- any view of memory will do where the record itself is lost
  refine ⟨⟨fun h hc => ?_, fun hn env v hf hr => ?_⟩, ⟨fun h => ?_, fun hn env v hf hr => ?_⟩⟩
  · obtain ⟨h0, hs, hm, hp, hrec⟩ := hc
    have hx : exec (hookedHeapReAlloc .refusing caller heap flags p size) w =
        exec (arenaReAlloc .refusing caller (.heapAlloc heap flags size) p size) w := by
      unfold hookedHeapReAlloc
      rw [exec_bind, exec_get, hs, if_neg (by simp), if_pos ⟨h0, hm, hp⟩]
    obtain ⟨hz, hv⟩ := arenaReAlloc_refusing hp caller (.heapAlloc heap flags size) size
    have hi := h .refusing .blind (failsCleanly_refusing _) (by rw [hx]; exact hz)
    rw [hx] at hi
    rw [← hi.record, hv] at hrec
    cases hrec
  · exact (hf.hookedHeapReAlloc hn caller heap flags size hr).intact p
  · by_contra hcon
    obtain ⟨hg, hc⟩ := not_or.1 hcon
    obtain ⟨h0, hs, hm, hp, hrec⟩ := not_not.1 hc
    have hx : exec (hookedRtlReAllocateHeap .refusing caller heap flags p size) w =
        exec (arenaReAlloc .refusing caller (.rtlAllocateHeap heap flags size) p size) w := by
      unfold hookedRtlReAllocateHeap
      rw [exec_bind, exec_get, if_neg (by rw [← World.rtlReAllocateClosed]; exact hg), hs, if_neg (by simp), if_pos ⟨hm, h0, hp⟩]
    obtain ⟨hz, hv⟩ := arenaReAlloc_refusing hp caller (.rtlAllocateHeap heap flags size) size
    have hi := h .refusing .blind (failsCleanly_refusing _) (by rw [hx]; exact hz)
    rw [hx] at hi
    rw [← hi.record, hv] at hrec
    cases hrec
  · exact (hf.hookedRtlReAllocateHeap hn caller heap flags size hr).intact p

/-- 5000 bytes captured, asked to become 128 KB that neither the arena can commit nor the heap has:
null is returned and the record of the old block is gone. -/
theorem not_intact_heapReAlloc : FailsCleanly (Env.refusing : Env (List ℕ)) .blind ∧
    Captured (World.captured ⟨false, false, false⟩).tool 0x40000000 ∧
    (exec (hookedHeapReAlloc .refusing .plain 7 0 0x40000000 0x20000) (World.captured ⟨false, false, false⟩)).1 = 0 ∧
    ¬ Intact .blind 0x40000000 (World.captured ⟨false, false, false⟩)
      (exec (hookedHeapReAlloc .refusing .plain 7 0 0x40000000 0x20000) (World.captured ⟨false, false, false⟩)).2 := by
  refine ⟨failsCleanly_refusing _, by decide +kernel, by decide +kernel, fun h => ?_⟩
  have hbefore : ((World.captured ⟨false, false, false⟩).tool.tables.view 0x40000000 .allocations).isSome := by decide +kernel
  have hafter : (exec (hookedHeapReAlloc .refusing .plain 7 0 0x40000000 0x20000)
      (World.captured ⟨false, false, false⟩)).2.tool.tables.view 0x40000000 .allocations = none := by decide +kernel
  rw [← h.record, hafter] at hbefore
  cases hbefore

end Ts3Vas
