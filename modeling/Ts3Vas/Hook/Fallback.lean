/-
What an allocation hook that reports failure has tried: the real function on the caller's own heap,
or the system, was called for the request and failed. A log of the calls and of what they returned
is kept below the hooks.
-/
import Ts3Vas.Hook.Realloc

namespace Ts3Vas

open Prog

variable {σ : Type}

/-! ## The log -/

/-- The calls that the hooks have made, with their replies. -/
abbrev Log := List (RealCall × Reply)

/-- The functions below the hooks, on a system that keeps a log beside its state. -/
def Env.logged (env : Env σ) : Env (σ × Log) where
  real c w :=
    let (r, v) := exec (env.real c) ⟨w.os.1, w.tool, w.thread, w.trace⟩
    (r, ⟨(v.os, w.os.2 ++ [(c, r)]), v.tool, v.thread, v.trace⟩)
  handleLive h s := env.handleLive h s.1
  stray := env.stray
  memcpy dst src n s := (env.memcpy dst src n s.1, s.2)
  isCorralAddress p s := env.isCorralAddress p s.1
  corralReserve size type protect s :=
    ((env.corralReserve size type protect s.1).1, ((env.corralReserve size type protect s.1).2, s.2))
  corralFree p s := (env.corralFree p s.1, s.2)

/-- The state with an empty log. -/
def World.logged (w : World σ) : World (σ × Log) := ⟨(w.os, []), w.tool, w.thread, w.trace⟩

/-! ## Failure -/

/-- An NTSTATUS that is not a success. -/
def ntFailed (status : ℕ) : Bool := 0x80000000 ≤ status

/-- What a failing call of one of the allocation functions returns. -/
def RealCall.failed : RealCall → ℕ → Bool
  | .rtlAllocateHeap .., v | .heapAlloc .., v | .rtlReAllocateHeap .., v | .heapReAlloc .., v | .virtualAlloc .., v =>
    v = 0
  | .ntAllocateVirtualMemory .., v => ntFailed v
  | _, _ => false

/-- The same for the hooks; those that do not allocate never count as failed. -/
def HookCall.failed : HookCall → ℕ → Bool
  | .rtlAllocateHeap .., v | .heapAlloc .., v | .rtlReAllocateHeap .., v | .heapReAlloc .., v | .virtualAlloc .., v =>
    v = 0
  | .ntAllocateVirtualMemory .., v => ntFailed v
  | _, _ => false

/-- The real allocations for a request, on the caller's own heap or from the system. -/
def HookCall.fallbacks : HookCall → List RealCall
  | .rtlAllocateHeap _ heap flags size => [.rtlAllocateHeap heap flags size]
  | .heapAlloc _ heap flags size => [.heapAlloc heap flags size]
  | .rtlReAllocateHeap _ heap flags p size => [.rtlReAllocateHeap heap flags p size, .rtlAllocateHeap heap flags size]
  | .heapReAlloc _ heap flags p size => [.heapReAlloc heap flags p size, .heapAlloc heap flags size]
  | .virtualAlloc addr size type protect => [.virtualAlloc addr size type protect]
  | .ntAllocateVirtualMemory process base zeroBits region type protect =>
    [.ntAllocateVirtualMemory process base zeroBits region type protect]
  | _ => []

/-- The block that a reallocation is asked to move, with the flags and the new size. -/
def HookCall.moved : HookCall → Option (ℕ × ℕ × ℕ)
  | .rtlReAllocateHeap _ _ flags p size | .heapReAlloc _ _ flags p size => some (flags, p, size)
  | _ => none

/-- `Install` attaches a hook only where its `Real_*` pointer is not null. -/
def HookCall.attached (t : Tool) : HookCall → Bool
  | .heapAlloc .. => t.resolved .heapAlloc
  | .heapReAlloc .. => t.resolved .heapReAlloc
  | .virtualAlloc .. => t.resolved .virtualAlloc
  | _ => true

/-- One of the calls was made, and failed. -/
def Log.Failed (l : Log) (cs : List RealCall) : Prop := ∃ e ∈ l, e.1 ∈ cs ∧ e.1.failed e.2.value

/-- The shard that a reallocation is handed to: `Hooked_RtlReAllocateHeap` looks for it behind its guard, and
`Hooked_HeapReAlloc` at once. -/
def HookCall.shardAsked (w : World σ) : HookCall → Option Shard
  | .rtlReAllocateHeap _ _ _ p _ => if w.rtlReAllocateClosed = true ∨ p = 0 then none else proxyHeapShardOf w.tool p
  | .heapReAlloc _ _ _ p _ => if p = 0 then none else proxyHeapShardOf w.tool p
  | _ => none

/-- All that was called: nothing, as the shard is dead, or its own reallocation, which failed. -/
def ShardRefused (env : Env σ) (w : World σ) (c : HookCall) (s : Shard) (l : Log) : Prop :=
  (shardHandleLive env s.handle w = false ∧ l = []) ∨
    ∃ flags p size r, c.moved = some (flags, p, size) ∧
      l = [(.rtlReAllocateHeap s.handle (flags &&& HEAP_ZERO_MEMORY) p size, r)] ∧ r.value = 0

/-! ## Programs that fail only after a fallback -/

/-- From any state to one whose log has the failure of one of the calls. -/
def Tried (cs : List RealCall) (_ w : World (σ × Log)) : Prop := w.os.2.Failed cs

/-- The program loses nothing of the log. -/
def Logging {α : Type} (m : Hook (σ × Log) α) : Prop := ∀ w e, e ∈ w.os.2 → e ∈ (exec m w).2.os.2

section
variable {env : Env σ} {cs : List RealCall} {α β : Type}

theorem Logging.failed {m : Hook (σ × Log) α} (hm : Logging m) {w : World (σ × Log)} (h : w.os.2.Failed cs) :
    (exec m w).2.os.2.Failed cs := by
  obtain ⟨e, he, hc⟩ := h
  exact ⟨e, hm w e he, hc⟩

theorem Logging.bind {m : Hook (σ × Log) α} {k : α → Hook (σ × Log) β} (hm : Logging m) (hk : ∀ a, Logging (k a)) :
    Logging (m >>= k) := fun w e he => hk _ _ e (hm w e he)

theorem Logging.get {k : World (σ × Log) → Hook (σ × Log) β} (hk : ∀ s, Logging (k s)) :
    Logging (MonadState.get >>= k) := fun w => hk w w

theorem Logging.pure (a : α) : Logging (Pure.pure a : Hook (σ × Log) α) := fun _ _ he => he

theorem Logging.ite {c : Prop} [Decidable c] {m n : Hook (σ × Log) α} (hm : Logging m) (hn : Logging n) :
    Logging (if c then m else n) := by
  split
  · exact hm
  · exact hn

theorem logging_setHookActive (b : Bool) : Logging (setHookActive b : Hook (σ × Log) Unit) := fun _ _ he => he

theorem logging_setInHook (b : Bool) : Logging (setInHook b : Hook (σ × Log) Unit) := fun w e he => by
  show e ∈ (if _ then _ else _ : World (σ × Log)).os.2
  split <;> exact he

theorem logging_call (c : RealCall) : Logging (call env.logged c) := fun _ _ he => List.mem_append_left _ he

theorem logging_onTool (f : Tool → Tool) : Logging (onTool f : Hook (σ × Log) Unit) := fun _ _ he => he

theorem logging_callValue (c : RealCall) : Logging (callValue env.logged c) :=
  (logging_call c).bind fun _ => .pure _

theorem logging_rtlHookScope {m : Hook (σ × Log) α} (hm : Logging m) : Logging (rtlHookScope m) :=
  (logging_setHookActive true).bind fun _ => hm.bind fun _ => (logging_setHookActive false).bind fun _ => .pure _

theorem logging_forward (c : RealCall) (absent : ℕ) : Logging (forward env.logged c absent) :=
  .get fun _ => .ite (.ite (logging_callValue c) (.pure _)) <| logging_rtlHookScope <|
    (logging_setInHook true).bind fun _ => (logging_callValue c).bind fun _ => (logging_setInHook false).bind fun _ => .pure _

theorem logging_freeProxyAllocation (p : ℕ) : Logging (freeProxyAllocation env.logged p) := by
  refine .get fun w => .ite ?_ (.pure _)
  have htake : Logging (takeRecord p .allocations : Hook (σ × Log) _) := .get fun _ => (logging_onTool _).bind fun _ => .pure _
  refine htake.bind fun found => ?_
  cases found with
  | none => exact .pure _
  | some r => exact (logging_forward _ _).bind fun _ => (logging_onTool _).bind fun _ => .pure _

/-! ## The rules -/

/-- The fallback itself. -/
theorem tried_call {Q : Reply → Prop} {c : RealCall} (hc : c ∈ cs) (hbad : ∀ r, Q r → c.failed r.value) :
    WithinIf Q (Tried cs) (call env.logged c) := fun _ hr =>
  ⟨(c, _), List.mem_append_right _ (List.mem_singleton_self _), hc, hbad _ hr⟩

theorem tried_callValue {c : RealCall} (hc : c ∈ cs) (hbad : c.failed 0) : WithinIf Null (Tried cs) (callValue env.logged c) :=
  fun w hr => tried_call (Q := fun r => r.value = 0) hc (fun _ h => h ▸ hbad) w hr

/-- What the last part tries, the whole tries. -/
theorem tried_last {Q : β → Prop} {m : Hook (σ × Log) α} {k : α → Hook (σ × Log) β}
    (hk : ∀ a, WithinIf Q (Tried cs) (k a)) : WithinIf Q (Tried cs) (m >>= k) := fun _ h => hk _ _ h

/-- What comes after cannot undo it. -/
theorem tried_then {Q : α → Prop} {m : Hook (σ × Log) α} (hm : WithinIf Q (Tried cs) m) {n : Hook (σ × Log) Unit}
    (hn : Logging n) : WithinIf Q (Tried cs) (do let r ← m; n; return r) := fun w h => hn.failed (hm w h)

theorem tried_rtlHookScope {Q : α → Prop} {m : Hook (σ × Log) α} (hm : WithinIf Q (Tried cs) m) :
    WithinIf Q (Tried cs) (rtlHookScope m) := tried_last fun (_ : PUnit) => tried_then hm (logging_setHookActive false)

theorem tried_orElse (p : ℕ) {m : Hook (σ × Log) ℕ} (hm : WithinIf Null (Tried cs) m) :
    WithinIf Null (Tried cs) (orElse p m) := by
  unfold orElse
  split
  · exact hm
  · exact fun _ h => absurd h ‹_›

/-- A pointer that was found is no failure. -/
theorem tried_found {p : ℕ} (hp : p ≠ 0) {m : Hook (σ × Log) α} : WithinIf Null (Tried cs) (do let _ ← m; return p) :=
  fun _ h => absurd h hp

/-! ## The hooks -/

section
variable (caller : Caller) (heap flags p size : ℕ)

theorem tried_hookedRtlAllocateHeap :
    WithinIf Null (Tried [.rtlAllocateHeap heap flags size]) (hookedRtlAllocateHeap env.logged caller heap flags size) := by
  have hreal : WithinIf Null (Tried [.rtlAllocateHeap heap flags size]) (callValue env.logged (.rtlAllocateHeap heap flags size)) :=
    tried_callValue (List.mem_singleton_self _) rfl
  refine .get fun _ => .ite hreal <| tried_rtlHookScope <| tried_last fun _ => tried_last fun q => ?_
  split
  · exact tried_found ‹_›
  · refine .get fun w => tried_last fun q => ?_
    split
    · exact tried_last fun _ => tried_found ‹_›
    · refine tried_last fun q => ?_
      split
      · exact tried_found ‹_›
      · exact tried_then hreal (logging_setInHook false)

/-- The arena's share of both reallocation hooks: the slot is freed after the fallback has failed. -/
theorem tried_arenaReAlloc {fallback : RealCall} (hc : fallback ∈ cs) (hbad : fallback.failed 0) :
    WithinIf Null (Tried cs) (arenaReAlloc env.logged caller fallback p size) := by
  refine .get fun w => tried_last fun q => ?_
  intro v h
  rw [exec_bind] at h ⊢
  have hq : (exec (orElse q (callValue env.logged fallback)) v).1 = 0 := by
    by_contra hne
    rw [if_pos hne] at h
    exact hne h
  rw [if_neg (not_not.2 hq)]
  exact (logging_freeProxyAllocation p).failed (tried_orElse q (tried_callValue hc hbad) v hq)

theorem tried_hookedHeapAlloc {w : World (σ × Log)} (hr : w.tool.resolved .heapAlloc = true)
    (h : (exec (hookedHeapAlloc env.logged caller heap flags size) w).1 = 0) :
    (exec (hookedHeapAlloc env.logged caller heap flags size) w).2.os.2.Failed [.heapAlloc heap flags size] := by
  have hreal : WithinIf Null (Tried [.heapAlloc heap flags size]) (callValue env.logged (.heapAlloc heap flags size)) :=
    tried_callValue (List.mem_singleton_self _) rfl
  unfold hookedHeapAlloc at h ⊢
  rw [exec_bind, exec_get] at h ⊢
  by_cases hc : (w.closed || !w.tool.resolved .heapAlloc) = true
  · rw [if_pos hc, if_pos hr] at h ⊢
    exact hreal w h
  · rw [if_neg hc] at h ⊢
    refine tried_rtlHookScope (Q := Null) (tried_last fun _ => .get fun _ => tried_last fun _ => tried_last fun _ =>
      .get fun _ => tried_last fun _ => ?_) w h
    exact tried_then (tried_orElse _ hreal) (logging_setInHook false)

/-- The scope of a shard operation calls nothing itself. -/
theorem log_proxyHeapHookScope (c : RealCall) (w : World (σ × Log)) :
    ∃ r, (exec (proxyHeapHookScope (callValue env.logged c)) w).1 = r.value ∧
      (exec (proxyHeapHookScope (callValue env.logged c)) w).2.os.2 = w.os.2 ++ [(c, r)] := by
  unfold proxyHeapHookScope
  rw [exec_bind, exec_get, exec_ite]
  split
  · exact ⟨_, rfl, rfl⟩
  · obtain ⟨th, -, e⟩ := exec_setInHook true w
    rw [exec_bind, e]
    refine ⟨_, rfl, ?_⟩
    obtain ⟨th', -, e'⟩ := exec_setInHook false (exec (callValue env.logged c) { w with thread := th }).2
    rw [exec_bind, exec_bind, e']
    rfl

/-- A reallocation inside a shard fails when the shard is dead or its heap does. -/
theorem refused_proxyHeapReAlloc {w : World σ} {s : Shard} (hs : proxyHeapShardOf w.tool p = some s)
    (h : (exec (proxyHeapReAlloc env.logged flags p size) w.logged).1 = 0) :
    (shardHandleLive env s.handle w = false ∧ (exec (proxyHeapReAlloc env.logged flags p size) w.logged).2.os.2 = []) ∨
      ∃ r, (exec (proxyHeapReAlloc env.logged flags p size) w.logged).2.os.2 =
        [(.rtlReAllocateHeap s.handle (flags &&& HEAP_ZERO_MEMORY) p size, r)] ∧ r.value = 0 := by
  unfold proxyHeapReAlloc at h ⊢
  rw [exec_bind, exec_get, show proxyHeapShardOf w.logged.tool p = some s from hs] at h ⊢
  dsimp only at h ⊢
  rw [exec_ite] at h ⊢
  split at h
  · rename_i hlive
    obtain ⟨r, hvalue, hlog⟩ := @log_proxyHeapHookScope _ env
      (.rtlReAllocateHeap s.handle (flags &&& HEAP_ZERO_MEMORY) p size) w.logged
    rw [if_pos hlive]
    exact .inr ⟨r, hlog, hvalue.symm.trans h⟩
  · rename_i hdead
    rw [if_neg hdead]
    exact .inl ⟨Bool.eq_false_iff.2 hdead, rfl⟩

/-- Both reallocation hooks hand a block of a shard to its shard. -/
theorem exec_hookedHeapReAlloc (env : Env σ) {w : World σ} (hs : p ≠ 0 ∧ (proxyHeapShardOf w.tool p).isSome) :
    exec (hookedHeapReAlloc env caller heap flags p size) w = exec (proxyHeapReAlloc env flags p size) w := by
  unfold hookedHeapReAlloc
  rw [exec_bind, exec_get, if_pos hs]

theorem exec_hookedRtlReAllocateHeap (env : Env σ) {w : World σ} (hc : ¬ w.rtlReAllocateClosed = true)
    (hs : p ≠ 0 ∧ (proxyHeapShardOf w.tool p).isSome) :
    exec (hookedRtlReAllocateHeap env caller heap flags p size) w = exec (proxyHeapReAlloc env flags p size) w := by
  unfold hookedRtlReAllocateHeap
  rw [exec_bind, exec_get]
  rw [World.rtlReAllocateClosed] at hc
  rw [if_neg hc, if_pos hs]

theorem tried_hookedHeapReAlloc {w : World (σ × Log)} (hr : w.tool.resolved .heapReAlloc = true)
    (hs : ¬ (p ≠ 0 ∧ (proxyHeapShardOf w.tool p).isSome))
    (h : (exec (hookedHeapReAlloc env.logged caller heap flags p size) w).1 = 0) :
    (exec (hookedHeapReAlloc env.logged caller heap flags p size) w).2.os.2.Failed
      [.heapReAlloc heap flags p size, .heapAlloc heap flags size] := by
  have hreal : WithinIf Null (Tried [.heapReAlloc heap flags p size, .heapAlloc heap flags size])
      (callValue env.logged (.heapReAlloc heap flags p size)) := tried_callValue (by simp) rfl
  unfold hookedHeapReAlloc at h ⊢
  rw [exec_bind, exec_get, if_neg hs] at h ⊢
  by_cases ha : p ≠ 0 ∧ w.tool.memManager ∧ isProxyAddress w.tool p
  · rw [if_pos ha] at h ⊢
    exact tried_arenaReAlloc caller p size (by simp) rfl w h
  rw [if_neg ha] at h ⊢
  by_cases hc : (w.closed || !w.tool.resolved .heapReAlloc) = true
  · rw [if_pos hc, if_pos hr] at h ⊢
    exact hreal w h
  · rw [if_neg hc] at h ⊢
    refine tried_rtlHookScope (Q := Null) (tried_last fun _ => .get fun _ => tried_last fun _ => ?_) w h
    exact tried_then (tried_orElse _ hreal) (logging_setInHook false)

theorem tried_hookedRtlReAllocateHeap {w : World (σ × Log)}
    (hs : w.rtlReAllocateClosed = true ∨ ¬ (p ≠ 0 ∧ (proxyHeapShardOf w.tool p).isSome))
    (h : (exec (hookedRtlReAllocateHeap env.logged caller heap flags p size) w).1 = 0) :
    (exec (hookedRtlReAllocateHeap env.logged caller heap flags p size) w).2.os.2.Failed
      [.rtlReAllocateHeap heap flags p size, .rtlAllocateHeap heap flags size] := by
  have hreal : WithinIf Null (Tried [.rtlReAllocateHeap heap flags p size, .rtlAllocateHeap heap flags size])
      (callValue env.logged (.rtlReAllocateHeap heap flags p size)) := tried_callValue (by simp) rfl
  unfold hookedRtlReAllocateHeap at h ⊢
  rw [exec_bind, exec_get] at h ⊢
  by_cases hc : (w.busy || !w.tool.memManager || w.tool.shuttingDown) = true
  · rw [if_pos hc] at h ⊢
    exact hreal w h
  have hs : ¬ (p ≠ 0 ∧ (proxyHeapShardOf w.tool p).isSome) := hs.resolve_left hc
  rw [if_neg hc, if_neg hs] at h ⊢
  by_cases ha : w.tool.memManager ∧ p ≠ 0 ∧ isProxyAddress w.tool p
  · rw [if_pos ha] at h ⊢
    exact tried_arenaReAlloc caller p size (by simp) rfl w h
  · rw [if_neg ha] at h ⊢
    exact tried_rtlHookScope (Q := Null) (tried_last fun _ => tried_then hreal (logging_setInHook false)) w h

theorem tried_hookedVirtualAlloc {w : World (σ × Log)} (hr : w.tool.resolved .virtualAlloc = true)
    {addr type protect : ℕ} (h : (exec (hookedVirtualAlloc env.logged addr size type protect) w).1 = 0) :
    (exec (hookedVirtualAlloc env.logged addr size type protect) w).2.os.2.Failed
      [.virtualAlloc addr size type protect] := by
  have hreal : WithinIf Null (Tried [.virtualAlloc addr size type protect])
      (callValue env.logged (.virtualAlloc addr size type protect)) := tried_callValue (List.mem_singleton_self _) rfl
  unfold hookedVirtualAlloc at h ⊢
  rw [exec_bind, exec_get] at h ⊢
  by_cases hc : (w.closed || !w.tool.resolved .virtualAlloc) = true
  · rw [if_pos hc, if_pos hr] at h ⊢
    exact hreal w h
  · rw [if_neg hc] at h ⊢
    refine tried_rtlHookScope (Q := Null) (tried_last fun _ => tried_last fun _ => .get fun _ => tried_last fun _ =>
      tried_last fun _ => ?_) w h
    exact tried_then (tried_orElse _ hreal) (logging_setInHook false)

/-- The status that an Nt hook returns for a failure is the one that the real function returned. -/
theorem tried_hookedNtAllocateVirtualMemory (process : ℕ) (base : Option ℕ) (zeroBits : ℕ) (region : Option ℕ)
    (type protect : ℕ) : WithinIf (fun r => ntFailed r.status = true)
      (Tried [.ntAllocateVirtualMemory process base zeroBits region type protect])
      (hookedNtAllocateVirtualMemory env.logged process base zeroBits region type protect) := by
  have hreal : WithinIf (fun r => ntFailed r.status = true)
      (Tried [.ntAllocateVirtualMemory process base zeroBits region type protect])
      (realNtAllocateVirtualMemory env.logged process base zeroBits region type protect) := fun w h =>
    tried_call (Q := fun r => ntFailed r.value = true)
      (c := .ntAllocateVirtualMemory process base zeroBits region type protect) (List.mem_singleton_self _) (fun _ h => h) w h
  rcases base with _ | addr
  · exact .get fun _ => hreal
  rcases region with _ | len
  · exact .get fun _ => hreal
  refine .get fun _ => .ite hreal <| tried_rtlHookScope <| tried_last fun _ => tried_last fun _ => .get fun _ =>
    tried_last fun _ => .ite ?_ hreal
  exact fun _ (h : ntFailed 0 = true) => absurd h (by decide)

end

end

section
variable {env : Env σ} {w : World σ} {c : HookCall} {caller : Caller} {heap flags p size : ℕ} {s : Shard}

theorem shardAsked_rtlReAllocateHeap (h : (HookCall.rtlReAllocateHeap caller heap flags p size).shardAsked w = some s) :
    (¬ w.rtlReAllocateClosed = true ∧ p ≠ 0) ∧ proxyHeapShardOf w.tool p = some s := by
  rwa [HookCall.shardAsked, Option.ite_none_left_eq_some, not_or] at h

theorem shardAsked_heapReAlloc (h : (HookCall.heapReAlloc caller heap flags p size).shardAsked w = some s) :
    p ≠ 0 ∧ proxyHeapShardOf w.tool p = some s := by
  rwa [HookCall.shardAsked, Option.ite_none_left_eq_some] at h

/-- Off the shards. -/
theorem HookCall.tried (ha : c.attached w.tool = true) (hs : c.shardAsked w = none)
    (h : c.failed (exec (c.run env.logged) w.logged).1 = true) :
    (exec (c.run env.logged) w.logged).2.os.2.Failed c.fallbacks := by
  cases c with
  | rtlAllocateHeap caller heap flags size =>
    exact tried_hookedRtlAllocateHeap caller heap flags size w.logged (of_decide_eq_true h)
  | heapAlloc caller heap flags size =>
    exact tried_hookedHeapAlloc caller heap flags size (w := w.logged) ha (of_decide_eq_true h)
  | virtualAlloc addr size type protect => exact tried_hookedVirtualAlloc size (w := w.logged) ha (of_decide_eq_true h)
  | ntAllocateVirtualMemory process base zeroBits region type protect =>
    exact tried_hookedNtAllocateVirtualMemory process base zeroBits region type protect w.logged h
  | rtlReAllocateHeap caller heap flags p size =>
    refine tried_hookedRtlReAllocateHeap (w := w.logged) caller heap flags p size ?_ (of_decide_eq_true h)
    by_cases hc : w.rtlReAllocateClosed = true
    · exact .inl hc
    · refine .inr fun ⟨hp, hsome⟩ => ?_
      rw [HookCall.shardAsked, if_neg (not_or.2 ⟨hc, hp⟩)] at hs
      exact absurd hs (Option.isSome_iff_ne_none.1 hsome)
  | heapReAlloc caller heap flags p size =>
    refine tried_hookedHeapReAlloc (w := w.logged) caller heap flags p size ha ?_ (of_decide_eq_true h)
    rintro ⟨hp, hsome⟩
    rw [HookCall.shardAsked, if_neg hp] at hs
    exact absurd hs (Option.isSome_iff_ne_none.1 hsome)
  | _ => cases h

/-- A block of a shard: the shard alone is asked. -/
theorem HookCall.refused (hs : c.shardAsked w = some s)
    (h : c.failed (exec (c.run env.logged) w.logged).1 = true) :
    ShardRefused env w c s (exec (c.run env.logged) w.logged).2.os.2 := by
  have hof : ∀ {flags p size}, c.moved = some (flags, p, size) → proxyHeapShardOf w.tool p = some s →
      exec (c.run env.logged) w.logged = exec (proxyHeapReAlloc env.logged flags p size) w.logged →
      (exec (c.run env.logged) w.logged).1 = 0 → ShardRefused env w c s (exec (c.run env.logged) w.logged).2.os.2 := by
    intro flags p size hm hp e h0
    rw [e] at h0 ⊢
    rcases refused_proxyHeapReAlloc flags p size hp h0 with hdead | ⟨r, hlog, hr⟩
    · exact .inl hdead
    · exact .inr ⟨flags, p, size, r, hm, hlog, hr⟩
  cases c with
  | rtlReAllocateHeap caller heap flags p size =>
    obtain ⟨⟨hc, hp⟩, hsome⟩ := shardAsked_rtlReAllocateHeap hs
    exact hof rfl hsome (exec_hookedRtlReAllocateHeap (w := w.logged) caller heap flags p size env.logged hc
      ⟨hp, Option.isSome_iff_exists.2 ⟨s, hsome⟩⟩) (of_decide_eq_true h)
  | heapReAlloc caller heap flags p size =>
    obtain ⟨hp, hsome⟩ := shardAsked_heapReAlloc hs
    exact hof rfl hsome (exec_hookedHeapReAlloc (w := w.logged) caller heap flags p size env.logged
      ⟨hp, Option.isSome_iff_exists.2 ⟨s, hsome⟩⟩) (of_decide_eq_true h)
  | _ => cases hs

/-- In every state, with any outcome of every call below: a hook that reports failure has tried the
caller's own heap, or the system, for the request, and that has failed; unless it has handed a block of a
shard to that shard, and then it has called nothing else. -/
theorem fell_back (ha : c.attached w.tool = true) (h : c.failed (exec (c.run env.logged) w.logged).1 = true) :
    (c.shardAsked w = none → (exec (c.run env.logged) w.logged).2.os.2.Failed c.fallbacks) ∧
    ∀ s, c.shardAsked w = some s → ShardRefused env w c s (exec (c.run env.logged) w.logged).2.os.2 :=
  ⟨fun hs => HookCall.tried ha hs h, fun _ hs => HookCall.refused hs h⟩

end

/-! ## A shard without room -/

/-- The tool with one shard of 1 MB and without the probe of its packing. -/
def Tool.sheltered : Tool :=
  { Tool.install Sys.arena1G with
    sys := Sys.after Sys.arena1G [.allocate 0x100000 false]
    proxyHeapEnabled := true
    sardineLossProbe := false
    shards := [⟨0x40000000, 0x40000000, 0x40100000⟩] }

/-- After a block of 100 bytes from the shard; from there on every call below fails. -/
def World.sheltered : World (List ℕ) :=
  World.step Env.scripted ⟨[0x40000100], .sheltered, ⟨false, false, false⟩, []⟩ (.heapAlloc .plain 7 0 100)

/-- A capture that finds no memory below ends with `RtlAllocateHeap` on the caller's heap; a block of the
shard that cannot grow, with the shard. -/
theorem fell_back_sheltered : (exec ((HookCall.rtlAllocateHeap .plain 7 0 5000).run Env.scripted.logged)
      World.sheltered.logged).2.os.2.Failed [.rtlAllocateHeap 7 0 5000] ∧
    ShardRefused Env.scripted World.sheltered (.heapReAlloc .plain 7 0 0x40000100 6000) ⟨0x40000000, 0x40000000, 0x40100000⟩
      (exec ((HookCall.heapReAlloc .plain 7 0 0x40000100 6000).run Env.scripted.logged) World.sheltered.logged).2.os.2 := by
  have hcapture : (HookCall.rtlAllocateHeap .plain 7 0 5000).failed
      (exec ((HookCall.rtlAllocateHeap .plain 7 0 5000).run Env.scripted.logged) World.sheltered.logged).1 = true := by decide +kernel
  have hgrow : (HookCall.heapReAlloc .plain 7 0 0x40000100 6000).failed
      (exec ((HookCall.heapReAlloc .plain 7 0 0x40000100 6000).run Env.scripted.logged) World.sheltered.logged).1 = true := by
    decide +kernel
  constructor
  · exact (fell_back (by decide +kernel) hcapture).1 rfl
  · exact (fell_back (by decide +kernel) hgrow).2 _ (by decide +kernel)

/-- When the shard cannot grow the block, `HeapReAlloc` fails and the caller's heap is never tried. -/
theorem not_fell_back_sheltered : ¬ ∀ (env : Env (List ℕ)) (w : World (List ℕ)) (c : HookCall), c.attached w.tool = true →
    c.failed (exec (c.run env.logged) w.logged).1 = true →
    (exec (c.run env.logged) w.logged).2.os.2.Failed c.fallbacks := by
  intro h
  obtain ⟨e, he, hc, -⟩ := h Env.scripted World.sheltered (.heapReAlloc .plain 7 0 0x40000100 6000) (by decide +kernel) (by decide +kernel)
  have hlog : (exec ((HookCall.heapReAlloc .plain 7 0 0x40000100 6000).run Env.scripted.logged) World.sheltered.logged).2.os.2 =
      [(.rtlReAllocateHeap 0x40000000 0 0x40000100 6000, ⟨0, 0, 0⟩)] := by decide +kernel
  rw [hlog, List.mem_singleton] at he
  subst he
  revert hc
  decide

end Ts3Vas
