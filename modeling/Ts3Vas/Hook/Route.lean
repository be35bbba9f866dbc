/-
Where Free and Realloc send a pointer that came from a shard or from the arena: which heap handles the
`Real_*` heap functions see together with it, whatever marks the thread carries.
-/
import Ts3Vas.Hook.Steps

namespace Ts3Vas

open Prog

variable {σ : Type}

/-! ## What the heap functions are given -/

/-- The heap handle that a call of a heap function pairs with `p`. -/
def RealCall.handleWith (p : ℕ) : RealCall → Option ℕ
  | rtlFreeHeap heap _ q => if q = p then some heap else none
  | rtlReAllocateHeap heap _ q _ => if q = p then some heap else none
  | heapFree heap _ q => if q = p then some heap else none
  | heapReAlloc heap _ q _ => if q = p then some heap else none
  | heapSize heap _ q => if q = p then some heap else none
  | _ => none

/-- A call that gives `p` to no heap, or to the heap of the shard that owns it. -/
def ToOwner (t : Tool) (p : ℕ) (c : RealCall) : Prop :=
  ∀ h, c.handleWith p = some h → ∃ s, proxyHeapShardOf t p = some s ∧ s.handle = h

theorem toOwner_of_none {t : Tool} {p : ℕ} {c : RealCall} (h : c.handleWith p = none) : ToOwner t p c := by
  intro x hx
  rw [h] at hx
  cases hx

/-- The trace grows by calls with `P`. -/
def Adds (P : RealCall → Prop) (w w' : World σ) : Prop := ∃ l, w'.trace = w.trace ++ l ∧ ∀ c ∈ l, P c

theorem Adds.of_trace {P : RealCall → Prop} {w w' : World σ} (h : w'.trace = w.trace) : Adds P w w' :=
  ⟨[], by rw [h, List.append_nil], fun _ hc => absurd hc List.not_mem_nil⟩

instance (P : RealCall → Prop) : IsPreorder (World σ) (Adds P) where
  refl _ := .of_trace rfl
  trans := by
    rintro w₁ w₂ w₃ ⟨l, hl, hP⟩ ⟨l', hl', hP'⟩
    refine ⟨l ++ l', by rw [hl', hl, List.append_assoc], fun c hc => ?_⟩
    rcases List.mem_append.1 hc with hc | hc
    · exact hP c hc
    · exact hP' c hc

theorem atoms_adds (env : Env σ) (P : RealCall → Prop) : Atoms env (Adds P) P where
  os _ _ := .of_trace rfl
  thread _ _ := .of_trace rfl
  tool _ _ _ := .of_trace rfl
  call c hc _ := ⟨[c], rfl, fun _ hx => List.mem_singleton.1 hx ▸ hc⟩

/-! ## Pointers of the shards and of the arena -/

/-- The pointers whose owner the hooks can tell: inside a shard with its heap alive, or inside the
arena. -/
structure Owned (env : Env σ) (w : World σ) (p : ℕ) : Prop where
  ne_zero : p ≠ 0
  owner : (∃ s, proxyHeapShardOf w.tool p = some s ∧ shardHandleLive env s.handle w) ∨
    (w.tool.memManager ∧ isProxyAddress w.tool p)

section
variable {env : Env σ} {w : World σ} {p : ℕ}

/-- A shard takes its own pointer, or nothing happens. -/
theorem proxyHeapFree_cases (env : Env σ) (w : World σ) (flags p : ℕ) :
    (∃ s, proxyHeapShardOf w.tool p = some s ∧ (exec (proxyHeapFree env flags p) w).1 = true ∧
        Adds (ToOwner w.tool p) w (exec (proxyHeapFree env flags p) w).2) ∨
      (exec (proxyHeapFree env flags p) w = (false, w) ∧
        ¬ ∃ s, proxyHeapShardOf w.tool p = some s ∧ shardHandleLive env s.handle w) := by
  unfold proxyHeapFree
  rw [exec_bind, exec_get]
  cases hs : proxyHeapShardOf w.tool p with
  | none => exact .inr ⟨rfl, fun ⟨_, h, _⟩ => by cases h⟩
  | some s =>
    by_cases hl : shardHandleLive env s.handle w
    · have hcall : ToOwner w.tool p (.rtlFreeHeap s.handle (dropNoSerialize flags) p) := by
        rintro h hh
        rw [RealCall.handleWith, if_pos rfl] at hh
        exact ⟨s, hs, Option.some.inj hh⟩
      have hm := (atoms_adds env (ToOwner w.tool p)).proxyHeapHookScope
        (((atoms_adds env _).call _ hcall).bind fun _ => Within.pure true)
      simp only [if_pos hl]
      refine .inl ⟨s, rfl, ?_, hm w⟩
      unfold proxyHeapHookScope
      rw [exec_bind, exec_get, exec_ite]
      split <;> rfl
    · simp only [if_neg hl]
      refine .inr ⟨rfl, ?_⟩
      rintro ⟨s', h, hl'⟩
      cases h
      exact hl hl'

theorem adds_proxyHeapReAlloc (env : Env σ) (w : World σ) (flags p size : ℕ) :
    Adds (ToOwner w.tool p) w (exec (proxyHeapReAlloc env flags p size) w).2 := by
  unfold proxyHeapReAlloc
  rw [exec_bind, exec_get]
  cases hs : proxyHeapShardOf w.tool p with
  | none => exact refl w
  | some s =>
    have hcall : ToOwner w.tool p (.rtlReAllocateHeap s.handle (flags &&& HEAP_ZERO_MEMORY) p size) := by
      rintro h hh
      rw [RealCall.handleWith, if_pos rfl] at hh
      exact ⟨s, hs, Option.some.inj hh⟩
    have h := atoms_adds env (ToOwner w.tool p)
    exact Within.ite (h.proxyHeapHookScope (h.callValue hcall)) (.pure _) w

theorem adds_freeProxyAllocation (env : Env σ) (t : Tool) (w : World σ) (p : ℕ) :
    Adds (ToOwner t p) w (exec (freeProxyAllocation env p) w).2 :=
  (atoms_adds env _).freeProxyAllocation (fun _ _ _ => toOwner_of_none rfl) p w

/-- A slot of the arena is copied and freed; the heap functions are asked for a new block only. -/
theorem adds_arenaReAlloc (env : Env σ) (t : Tool) (caller : Caller) {fallback : RealCall}
    (hc : fallback.handleWith p = none) (size : ℕ) (w : World σ) :
    Adds (ToOwner t p) w (exec (arenaReAlloc env caller fallback p size) w).2 :=
  (atoms_adds env _).arenaReAlloc (fun _ _ _ _ => toOwner_of_none rfl) (fun _ _ _ => toOwner_of_none rfl) caller
    (toOwner_of_none hc) p size w

/-! ## The four hooks -/

theorem Owned.hookedRtlFreeHeap (h : Owned env w p) (heap flags : ℕ) :
    Adds (ToOwner w.tool p) w (exec (hookedRtlFreeHeap env heap flags p) w).2 := by
  unfold Ts3Vas.hookedRtlFreeHeap
  rw [if_neg h.ne_zero, exec_bind]
  rcases proxyHeapFree_cases env w flags p with ⟨s, hs, ht, ha⟩ | ⟨he, hn⟩
  · rw [ht]
    exact ha
  · obtain ⟨hm, hp⟩ := h.owner.resolve_left hn
    rw [he]
    simp only [Bool.false_eq_true, if_false, exec_bind, exec_get, hm, hp, Bool.and_self, if_true]
    exact adds_freeProxyAllocation env _ w p

theorem Owned.hookedHeapFree (h : Owned env w p) (heap flags : ℕ) :
    Adds (ToOwner w.tool p) w (exec (hookedHeapFree env heap flags p) w).2 := by
  unfold Ts3Vas.hookedHeapFree
  rw [exec_bind]
  rcases proxyHeapFree_cases env w flags p with ⟨s, hs, ht, ha⟩ | ⟨he, hn⟩
  · rw [ht]
    exact ha
  · obtain ⟨hm, hp⟩ := h.owner.resolve_left hn
    rw [he]
    simp only [Bool.false_eq_true, if_false, exec_bind, exec_get, hm, hp, h.ne_zero, ne_eq, not_false_eq_true,
      decide_true, Bool.and_self, if_true]
    exact adds_freeProxyAllocation env _ w p

/-- What both reallocation hooks do with an owned pointer before anything else. -/
theorem Owned.reAlloc (h : Owned env w p) (caller : Caller) {fallback : RealCall} (hc : fallback.handleWith p = none)
    {arena : Prop} [Decidable arena] (ha : w.tool.memManager → p ≠ 0 → isProxyAddress w.tool p → arena)
    (flags size : ℕ) (rest : Hook σ ℕ) :
    Adds (ToOwner w.tool p) w (exec (if p ≠ 0 ∧ (proxyHeapShardOf w.tool p).isSome then proxyHeapReAlloc env flags p size
      else if arena then arenaReAlloc env caller fallback p size else rest) w).2 := by
  by_cases hs : (proxyHeapShardOf w.tool p).isSome
  · rw [if_pos ⟨h.ne_zero, hs⟩]
    exact adds_proxyHeapReAlloc env w flags p size
  · have hn : ¬ ∃ s, proxyHeapShardOf w.tool p = some s ∧ shardHandleLive env s.handle w := by
      rintro ⟨s, hs', _⟩
      exact hs (by rw [hs']; rfl)
    obtain ⟨hm, hp⟩ := h.owner.resolve_left hn
    rw [if_neg fun hc => hs hc.2, if_pos (ha hm h.ne_zero hp)]
    exact adds_arenaReAlloc env _ caller hc size w

theorem Owned.hookedHeapReAlloc (h : Owned env w p) (caller : Caller) (heap flags size : ℕ) :
    Adds (ToOwner w.tool p) w (exec (hookedHeapReAlloc env caller heap flags p size) w).2 :=
  h.reAlloc caller rfl (fun hm h0 hp => ⟨h0, hm, hp⟩) flags size _

/-- The guard of `Hooked_RtlReAllocateHeap`, which stands before its routing. -/
def World.rtlReAllocateClosed (w : World σ) : Bool := w.busy || !w.tool.memManager || w.tool.shuttingDown

theorem Owned.hookedRtlReAllocateHeap (h : Owned env w p) (hg : w.rtlReAllocateClosed = false) (caller : Caller)
    (heap flags size : ℕ) :
    Adds (ToOwner w.tool p) w (exec (hookedRtlReAllocateHeap env caller heap flags p size) w).2 := by
  unfold Ts3Vas.hookedRtlReAllocateHeap
  rw [exec_bind, exec_get, if_neg (by rw [← World.rtlReAllocateClosed, hg]; exact Bool.false_ne_true)]
  exact h.reAlloc caller rfl (fun hm h0 hp => ⟨hm, h0, hp⟩) flags size _

/-- Behind the closed guard the pointer goes to the heap that the caller named, as ntdll expects when
it moves a block through the patched entries. -/
theorem trace_hookedRtlReAllocateHeap (hg : w.rtlReAllocateClosed) (caller : Caller) (heap flags size : ℕ) :
    (exec (hookedRtlReAllocateHeap env caller heap flags p size) w).2.trace =
      w.trace ++ [.rtlReAllocateHeap heap flags p size] := by
  unfold Ts3Vas.hookedRtlReAllocateHeap
  rw [exec_bind, exec_get, if_pos (by rw [← World.rtlReAllocateClosed, hg])]
  rfl

/-- Whatever the state of the thread, the three hooks that route before their guards give an owned
pointer to its owner alone; the fourth does when its guard is open, and passes the call on otherwise. -/
theorem routed_to_owner (h : Owned env w p) (caller : Caller) (heap flags size : ℕ) :
    Adds (ToOwner w.tool p) w (exec (hookedRtlFreeHeap env heap flags p) w).2 ∧
    Adds (ToOwner w.tool p) w (exec (hookedHeapFree env heap flags p) w).2 ∧
    Adds (ToOwner w.tool p) w (exec (hookedHeapReAlloc env caller heap flags p size) w).2 ∧
    if w.rtlReAllocateClosed then (exec (hookedRtlReAllocateHeap env caller heap flags p size) w).2.trace =
      w.trace ++ [.rtlReAllocateHeap heap flags p size]
    else Adds (ToOwner w.tool p) w (exec (hookedRtlReAllocateHeap env caller heap flags p size) w).2 := by
  refine ⟨h.hookedRtlFreeHeap heap flags, h.hookedHeapFree heap flags, h.hookedHeapReAlloc caller heap flags size, ?_⟩
  split
  · exact trace_hookedRtlReAllocateHeap ‹_› caller heap flags size
  · exact h.hookedRtlReAllocateHeap (Bool.eq_false_iff.2 ‹_›) caller heap flags size

end

/-! ## A captured block -/

/-- After the capture of 5000 bytes at 0x40000000, on a thread that is now in the given state. -/
def World.captured (thread : Thread) : World (List ℕ) :=
  { (World.install Sys.arena1G [1]).step Env.scripted (.rtlAllocateHeap .plain 7 0 5000) with thread := thread }

/-- A thread inside a hook of the heap functions. -/
def Thread.hooking : Thread := ⟨false, true, false⟩

theorem owned_captured : Owned Env.scripted (World.captured .hooking) 0x40000000 := ⟨by decide, .inr (by decide +kernel)⟩

/-- The slot is freed by its record, on a thread inside a hook as anywhere. -/
theorem routed_to_owner_captured : Adds (ToOwner (World.captured .hooking).tool 0x40000000) (World.captured .hooking)
    (exec (hookedHeapFree Env.scripted 7 0 0x40000000) (World.captured .hooking)).2 :=
  (routed_to_owner owned_captured .plain 7 0 0).2.1

/-- On the same thread `RtlReAllocateHeap` passes the slot on to the process heap. -/
theorem not_routed_rtlReAllocateHeap : Owned Env.scripted (World.captured .hooking) 0x40000000 ∧
    ¬ Adds (ToOwner (World.captured .hooking).tool 0x40000000) (World.captured .hooking)
      (exec (hookedRtlReAllocateHeap Env.scripted .plain 7 0 0x40000000 6000) (World.captured .hooking)).2 := by
  refine ⟨owned_captured, ?_⟩
  rintro ⟨l, hl, hP⟩
  rw [trace_hookedRtlReAllocateHeap (by decide +kernel)] at hl
  obtain rfl := List.append_cancel_left hl
  obtain ⟨s, hs, -⟩ := hP _ (List.mem_singleton_self _) 7 rfl
  have hnone : proxyHeapShardOf (World.captured .hooking).tool 0x40000000 = none := by decide +kernel
  rw [hnone] at hs
  cases hs

end Ts3Vas
