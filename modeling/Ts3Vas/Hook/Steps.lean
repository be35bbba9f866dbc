/-
What a hook can do to the state of the process: every change that any hook makes is one of a few
steps of the tool. An invariant that these steps keep is kept by every call of every hook.
-/
import Ts3Vas.Hook.Virtual

namespace Ts3Vas

open Prog

variable {σ : Type}

/-- One change of the tool's state. -/
inductive ToolStep : Tool → Tool → Prop
  | pickShard (t : Tool) : ToolStep t { t with proxyHeapRR := toLong (t.proxyHeapRR + 1) }
  | allocate (t : Tool) (size : ℕ) :
      ToolStep t { t with sys := t.sys.step (.allocate size (t.sys.alloc.prefersTopDown size)) }
  | free (t : Tool) (p size : ℕ) : ToolStep t { t with sys := t.sys.step (.free ⟨p, size⟩) }
  | put (t : Tool) (p size : ℕ) (k : Keeper) : ToolStep t { t with tables := t.tables.put p size k }
  | take (t : Tool) (p : ℕ) (k : Keeper) : ToolStep t { t with tables := (t.tables.take p k).2 }
  | activate (t : Tool) : t.passive = false → ToolStep t { t with proxyActive := true }
  | note (t : Tool) (h : ℕ) : h ≠ 0 → t.execHeaps.length < kMaxExecHeaps → ToolStep t { t with execHeaps := t.execHeaps ++ [h] }

/-- What stays as it is, whatever hooks run: where the arena and the shards lie, and every executable
heap once it is noted. -/
structure Fixed (t t' : Tool) : Prop where
  arena : ProxyAllocator.SameArena t.sys.alloc t'.sys.alloc
  shards : t'.shards = t.shards
  memManager : t'.memManager = t.memManager
  execHeaps : t.execHeaps ⊆ t'.execHeaps

instance : IsPreorder Tool Fixed where
  refl _ := ⟨.refl _, rfl, rfl, List.Subset.refl _⟩
  trans _ _ _ h h' := ⟨h.arena.trans h'.arena, h'.shards.trans h.shards, h'.memManager.trans h.memManager,
    List.Subset.trans h.execHeaps h'.execHeaps⟩

theorem ToolStep.fixed {t t' : Tool} (h : ToolStep t t') : Fixed t t' := by
  cases h with
  | allocate size => exact ⟨ProxyAllocator.sameArena_allocate _ _ _, rfl, rfl, List.Subset.refl _⟩
  | free p size => exact ⟨ProxyAllocator.sameArena_free _ _ _, rfl, rfl, List.Subset.refl _⟩
  | note h => exact ⟨.refl _, rfl, rfl, List.subset_append_left _ _⟩
  | pickShard | put | take | activate => exact ⟨.refl _, rfl, rfl, List.Subset.refl _⟩

theorem Fixed.isProxyAddress {t t' : Tool} (h : Fixed t t') (p : ℕ) : isProxyAddress t' p = isProxyAddress t p :=
  h.arena.isProxyAddress p

theorem Fixed.proxyHeapShardOf {t t' : Tool} (h : Fixed t t') (p : ℕ) : proxyHeapShardOf t' p = proxyHeapShardOf t p := by
  rw [Ts3Vas.proxyHeapShardOf, Ts3Vas.proxyHeapShardOf, h.shards]

/-- What a relation must allow to follow a hook: changes below the hooks, marks of the thread, calls
of the `Real_*` functions with `P`, and steps of the tool. -/
structure Atoms (env : Env σ) (R : World σ → World σ → Prop) (P : RealCall → Prop) : Prop where
  os : ∀ w s, R w { w with os := s }
  thread : ∀ w t, R w { w with thread := t }
  tool : ∀ w t, ToolStep w.tool t → R w { w with tool := t }
  call : ∀ c, P c → Within R (call env c)

section
variable {env : Env σ} {R : World σ → World σ → Prop} {P : RealCall → Prop} {α : Type} {m : Hook σ α}

namespace Atoms

theorem setHookActive (h : Atoms env R P) (v : Bool) : Within R (setHookActive v) := fun w => h.thread w _

theorem onOs (h : Atoms env R P) (f : σ → σ) : Within R (onOs f) := fun w => h.os w _

theorem onTool (h : Atoms env R P) {f : Tool → Tool} (hf : ∀ t, ToolStep t (f t)) : Within R (onTool f) :=
  fun w => h.tool w _ (hf _)

theorem arenaFree (h : Atoms env R P) (p size : ℕ) : Within R (arenaFree p size) := h.onTool fun t => .free t p size

variable [IsPreorder (World σ) R]

theorem setInHook (h : Atoms env R P) (v : Bool) : Within R (setInHook v) := fun w => by
  show R w (if _ then _ else _)
  split
  · exact h.thread w _
  · exact refl w

theorem rtlHookScope (h : Atoms env R P) (hm : Within R m) : Within R (rtlHookScope m) :=
  (h.setHookActive true).bind fun _ => hm.bind fun _ => (h.setHookActive false).bind fun _ => .pure _

theorem proxyHeapHookScope (h : Atoms env R P) (hm : Within R m) : Within R (proxyHeapHookScope m) :=
  .get fun _ => .ite hm <| (h.setInHook true).bind fun _ => hm.bind fun _ => (h.setInHook false).bind fun _ => .pure _

/-- `SetInHook(true); …; SetInHook(false); return r;` inside a scope. -/
theorem inside (h : Atoms env R P) (hm : Within R m) :
    Within R (Ts3Vas.rtlHookScope do Ts3Vas.setInHook true; let r ← m; Ts3Vas.setInHook false; return r) :=
  h.rtlHookScope <| (h.setInHook true).bind fun _ => hm.bind fun _ => (h.setInHook false).bind fun _ => .pure _

theorem onlyIf {c : Prop} [Decidable c] {m : Hook σ Unit} (hm : Within R m) : Within R (onlyIf c m) := .ite hm (.pure _)

theorem attempt {c : Prop} [Decidable c] {m : Hook σ ℕ} (hm : Within R m) : Within R (attempt c m) := .ite hm (.pure _)

theorem orElse (p : ℕ) {m : Hook σ ℕ} (hm : Within R m) : Within R (orElse p m) := .ite hm (.pure _)

theorem callValue (h : Atoms env R P) {c : RealCall} (hc : P c) : Within R (callValue env c) :=
  (h.call c hc).bind fun _ => .pure _

theorem callNt (h : Atoms env R P) {c : RealCall} (hc : P c) (base region : Option ℕ) : Within R (callNt env c base region) :=
  (h.call c hc).bind fun _ => .pure _

theorem forward (h : Atoms env R P) {c : RealCall} (hc : P c) (absent : ℕ) : Within R (forward env c absent) :=
  .get fun _ => .ite (.ite (h.callValue hc) (.pure _)) (h.inside (h.callValue hc))

theorem suppressed (h : Atoms env R P) {c : RealCall} (hc : P c) : Within R (suppressed env c) :=
  .get fun _ => .ite (h.proxyHeapHookScope (h.callValue hc)) (.pure _)

/-! ## The arena -/

theorem arenaAllocate (h : Atoms env R P) (size : ℕ) : Within R (arenaAllocate size) :=
  .get fun _ => (h.onTool fun t => .allocate t size).bind fun _ => .pure _

theorem activateProxy (h : Atoms env R P) : Within R activateProxy := fun w => by
  show R w { w with tool := if _ then _ else _ }
  split
  · exact refl w
  · exact h.tool w _ (.activate _ (Bool.eq_false_iff.2 ‹_›))

theorem createProxyAllocation (h : Atoms env R P) (hP : ∀ a n t r, P (.virtualAlloc a n t r)) (caller : Caller)
    (size protect : ℕ) : Within R (createProxyAllocation env caller size protect) := by
  refine .get fun w => .ite (.pure _) <| .ite (.pure _) <| (h.arenaAllocate size).bind fun p => .ite (.pure _) ?_
  have hback : Within R (do Ts3Vas.arenaFree p size; return 0 : Hook σ ℕ) := (h.arenaFree p size).bind fun _ => .pure _
  refine .ite hback <| (h.forward (hP ..) _).bind fun _ => .ite hback ?_
  exact (h.onTool fun t => .put t p size _).bind fun _ => .pure _

theorem takeRecord (h : Atoms env R P) (p : ℕ) (k : Keeper) : Within R (takeRecord p k) :=
  .get fun _ => (h.onTool fun t => .take t p k).bind fun _ => .pure _

theorem freeProxyAllocation (h : Atoms env R P) (hP : ∀ a n t, P (.virtualFree a n t)) (p : ℕ) :
    Within R (freeProxyAllocation env p) := by
  refine .get fun w => .ite ((h.takeRecord p .allocations).bind fun found => ?_) (.pure _)
  cases found with
  | none => exact .pure _
  | some r => exact (h.forward (hP ..) 0).bind fun _ => (h.arenaFree p r.proxySize).bind fun _ => .pure _

/-! ## The shards -/

theorem proxyHeapTry (h : Atoms env R P) (hP : ∀ x f n, P (.rtlAllocateHeap x f n)) (flags size : ℕ) (start : ℤ) (n : ℕ) :
    ∀ ks, Within R (proxyHeapTry env flags size start n ks)
  | [] => .pure _
  | _ :: ks => .get fun _ => .ite
    ((h.callValue (hP ..)).bind fun _ => .ite (.pure _) (h.proxyHeapTry hP flags size start n ks))
    (h.proxyHeapTry hP flags size start n ks)

theorem proxyHeapAlloc (h : Atoms env R P) (hP : ∀ x f n, P (.rtlAllocateHeap x f n)) (flags size : ℕ) :
    Within R (proxyHeapAlloc env flags size) :=
  .get fun _ => .ite (.pure _) <| h.proxyHeapHookScope <| (h.onTool .pickShard).bind fun _ =>
    .get fun _ => h.proxyHeapTry hP _ _ _ _ _

theorem proxyHeapFree (h : Atoms env R P) (flags p : ℕ) (hP : ∀ x f, P (.rtlFreeHeap x f p)) :
    Within R (proxyHeapFree env flags p) := by
  refine .get fun w => ?_
  cases proxyHeapShardOf w.tool p with
  | none => exact .pure _
  | some s => exact .ite (h.proxyHeapHookScope ((h.call _ (hP ..)).bind fun _ => .pure _)) (.pure _)

theorem proxyHeapReAlloc (h : Atoms env R P) (flags p size : ℕ) (hP : ∀ x f, P (.rtlReAllocateHeap x f p size)) :
    Within R (proxyHeapReAlloc env flags p size) := by
  refine .get fun w => ?_
  cases proxyHeapShardOf w.tool p with
  | none => exact .pure _
  | some s => exact .ite (h.proxyHeapHookScope (h.callValue (hP ..))) (.pure _)

theorem proxyHeapSize (h : Atoms env R P) (flags p : ℕ) (hP : ∀ x f, P (.heapSize x f p)) :
    Within R (proxyHeapSize env flags p) := by
  refine .get fun w => ?_
  cases proxyHeapShardOf w.tool p with
  | none => exact .pure _
  | some s => exact .ite (h.proxyHeapHookScope (h.callValue (hP ..))) (.pure _)

/-! ## The heap hooks -/

theorem arenaReAlloc (h : Atoms env R P) (hA : ∀ a n t r, P (.virtualAlloc a n t r)) (hF : ∀ a n t, P (.virtualFree a n t))
    (caller : Caller) {fallback : RealCall} (hc : P fallback) (p size : ℕ) :
    Within R (arenaReAlloc env caller fallback p size) := by
  have hfree : ∀ q, Within R (do let _ ← Ts3Vas.freeProxyAllocation env p; return q : Hook σ ℕ) := fun q =>
    (h.freeProxyAllocation hF p).bind fun _ => .pure _
  have hcopy : ∀ q, Within R (copyRecorded env q p size) := fun q => by
    refine .get fun w => ?_
    cases w.tool.tables.allocations.findRecordByAddress p with
    | none => exact .pure _
    | some r => exact .ite (h.onOs _) (.pure _)
  refine .get fun w => (attempt (h.createProxyAllocation hA _ _ _)).bind fun q => ?_
  refine (orElse _ (h.callValue hc)).bind fun q => .ite ?_ (hfree q)
  exact (hcopy q).bind fun _ => hfree q

end Atoms

variable [IsPreorder (World σ) R]

section
variable (h : Atoms env R fun _ => True)
include h

theorem Atoms.hookedRtlCreateHeap (flags base reserve commit lock params : ℕ) :
    Within R (hookedRtlCreateHeap env flags base reserve commit lock params) := by
  refine .get fun _ => .ite (h.callValue trivial) <| h.rtlHookScope <| (h.setInHook true).bind fun _ =>
    (h.callValue trivial).bind fun heap => (onlyIf ?_).bind fun _ => (h.setInHook false).bind fun _ => .pure _
  intro w
  show R w { w with tool := if _ then _ else if _ then _ else _ }
  split_ifs with h0 h1
  · exact refl w
  · exact refl w
  · exact h.tool w _ (.note _ _ h0 (by omega))

theorem Atoms.capture {c : World σ → Prop} [DecidablePred c] {d : World σ → Prop} [DecidablePred d] (caller : Caller) (size : ℕ) :
    Within R (do
      let w ← get
      if c w then do
        Ts3Vas.onlyIf (!w.tool.proxyActive) Ts3Vas.activateProxy
        let w ← get
        if d w then Ts3Vas.createProxyAllocation env caller size PAGE_READWRITE else return 0
      else return 0 : Hook σ ℕ) :=
  .get fun _ => .ite ((Atoms.onlyIf h.activateProxy).bind fun _ => .get fun _ =>
    .ite (h.createProxyAllocation (fun _ _ _ _ => trivial) _ _ _) (.pure _)) (.pure _)

theorem Atoms.corralCapture (caller : Caller) (size : ℕ) : Within R (corralCapture env caller size) := h.capture caller size

theorem Atoms.arenaCapture (caller : Caller) (size : ℕ) : Within R (arenaCapture env caller size) := h.capture caller size

theorem Atoms.probeSardineLoss (p : ℕ) : Within R (probeSardineLoss env p) :=
  .get fun _ => .ite ((h.proxyHeapSize 0 p fun _ _ => trivial).map _) (.pure _)

theorem Atoms.hookedRtlAllocateHeap (caller : Caller) (heap flags size : ℕ) :
    Within R (hookedRtlAllocateHeap env caller heap flags size) := by
  have hleave : ∀ p, Within R (do Ts3Vas.setInHook false; return p : Hook σ ℕ) := fun p =>
    (h.setInHook false).bind fun _ => .pure p
  refine .get fun _ => .ite (h.callValue trivial) <| h.rtlHookScope <| (h.setInHook true).bind fun _ =>
    (h.corralCapture _ _).bind fun p => .ite (hleave p) ?_
  refine .get fun _ => (Atoms.attempt (h.proxyHeapAlloc (fun _ _ _ => trivial) _ _)).bind fun p => .ite ?_ ?_
  · exact (h.probeSardineLoss p).bind fun _ => hleave p
  · exact (h.arenaCapture _ _).bind fun p => .ite (hleave p) <| (h.callValue trivial).bind hleave

theorem Atoms.hookedHeapAlloc (caller : Caller) (heap flags size : ℕ) :
    Within R (hookedHeapAlloc env caller heap flags size) := by
  refine .get fun _ => .ite (.ite (h.callValue trivial) (.pure _)) <| h.rtlHookScope <| (h.setInHook true).bind fun _ => ?_
  refine .get fun _ => (Atoms.attempt (h.proxyHeapAlloc (fun _ _ _ => trivial) _ _)).bind fun p =>
    (Atoms.onlyIf (h.probeSardineLoss p)).bind fun _ => .get fun _ => ?_
  refine (Atoms.orElse _ (Atoms.attempt (h.createProxyAllocation (fun _ _ _ _ => trivial) _ _ _))).bind fun p => ?_
  exact (Atoms.orElse _ (h.callValue trivial)).bind fun p => (h.setInHook false).bind fun _ => .pure _

theorem Atoms.hookedRtlFreeHeap (heap flags p : ℕ) : Within R (hookedRtlFreeHeap env heap flags p) :=
  .ite (.pure _) <| (h.proxyHeapFree _ _ fun _ _ => trivial).bind fun _ => .ite (.pure _) <| .get fun _ =>
    .ite ((h.freeProxyAllocation (fun _ _ _ => trivial) p).bind fun _ => .pure _) <|
    .ite (h.callValue trivial) (h.inside (h.callValue trivial))

theorem Atoms.hookedHeapFree (heap flags p : ℕ) : Within R (hookedHeapFree env heap flags p) :=
  (h.proxyHeapFree _ _ fun _ _ => trivial).bind fun _ => .ite (.pure _) <| .get fun _ =>
    .ite ((h.freeProxyAllocation (fun _ _ _ => trivial) p).bind fun _ => .pure _) (h.forward trivial _)

theorem Atoms.hookedRtlReAllocateHeap (caller : Caller) (heap flags p size : ℕ) :
    Within R (hookedRtlReAllocateHeap env caller heap flags p size) :=
  .get fun _ => .ite (h.callValue trivial) <| .ite (h.proxyHeapReAlloc _ _ _ fun _ _ => trivial) <|
    .ite (h.arenaReAlloc (fun _ _ _ _ => trivial) (fun _ _ _ => trivial) _ trivial _ _) (h.inside (h.callValue trivial))

theorem Atoms.hookedHeapSize (heap flags p : ℕ) : Within R (hookedHeapSize env heap flags p) :=
  .get fun _ => .ite (h.proxyHeapSize _ _ fun _ _ => trivial) (h.forward trivial _)

theorem Atoms.forceReAlloc (caller : Caller) (heap flags p size : ℕ) : Within R (forceReAlloc env caller heap flags p size) :=
  (h.createProxyAllocation (fun _ _ _ _ => trivial) _ _ _).bind fun _ => .ite
    ((h.hookedHeapSize _ _ _).bind fun _ => (Atoms.onlyIf (h.onOs _)).bind fun _ => (h.call _ trivial).bind fun _ => .pure _)
    (.pure _)

theorem Atoms.hookedHeapReAlloc (caller : Caller) (heap flags p size : ℕ) :
    Within R (hookedHeapReAlloc env caller heap flags p size) := by
  refine .get fun _ => .ite (h.proxyHeapReAlloc _ _ _ fun _ _ => trivial) <|
    .ite (h.arenaReAlloc (fun _ _ _ _ => trivial) (fun _ _ _ => trivial) _ trivial _ _) <|
    .ite (.ite (h.callValue trivial) (.pure _)) <| h.rtlHookScope <| (h.setInHook true).bind fun _ => ?_
  refine .get fun _ => (Atoms.attempt (h.forceReAlloc _ _ _ _ _)).bind fun q => ?_
  exact (Atoms.orElse _ (h.callValue trivial)).bind fun q => (h.setInHook false).bind fun _ => .pure _

/-! ## The virtual-memory hooks -/

theorem Atoms.ensureProxyActive (size type protect : ℕ) : Within R (ensureProxyActive size type protect) :=
  .get fun _ => .ite (.pure _) <| .ite (.pure _) <| .ite (.pure _) <| .ite (.pure _) <| .ite (.pure _) <| .ite (.pure _)
    h.activateProxy

theorem Atoms.redirectSlot (size protect : ℕ) : Within R (redirectSlot env size protect) := by
  refine (h.arenaAllocate size).bind fun slot => .ite (.pure _) <| (h.forward trivial _).bind fun _ => .ite ?_ ?_
  · exact (h.arenaFree slot size).bind fun _ => .pure _
  · exact (h.onTool fun t => .put t slot size _).bind fun _ => .pure _

theorem Atoms.hookedVirtualAlloc (addr size type protect : ℕ) : Within R (hookedVirtualAlloc env addr size type protect) := by
  have hcorral : Within R (corralReserve env size type protect) := .get fun _ => (h.onOs _).bind fun _ => .pure _
  refine .get fun _ => .ite (.ite (h.callValue trivial) (.pure _)) <| h.rtlHookScope <| (h.setInHook true).bind fun _ => ?_
  refine (h.ensureProxyActive _ _ _).bind fun _ => .get fun _ => (Atoms.attempt (h.redirectSlot _ _)).bind fun p => ?_
  refine (Atoms.orElse _ (Atoms.attempt hcorral)).bind fun p => (Atoms.orElse _ (h.callValue trivial)).bind fun p => ?_
  exact (h.setInHook false).bind fun _ => .pure _

theorem Atoms.vatUntrack (addr type : ℕ) : Within R (vatUntrack addr type) := .ite (h.takeRecord _ _) (.pure _)

theorem Atoms.releaseSlot (addr : ℕ) (r : ProxyAllocRecord) : Within R (releaseSlot env addr r) :=
  (h.forward trivial _).bind fun _ => .get fun _ => .ite (h.arenaFree _ _) (.pure _)

theorem Atoms.hookedVirtualFree (addr size type : ℕ) : Within R (hookedVirtualFree env addr size type) := by
  refine .get fun _ => .ite ((h.onOs _).bind fun _ => .pure _) <| (h.vatUntrack _ _).bind fun found => ?_
  cases found with
  | none => exact h.forward trivial _
  | some r => exact (h.releaseSlot addr r).bind fun _ => .pure _

theorem Atoms.hookedNtAllocateVirtualMemory (process : ℕ) (base : Option ℕ) (zeroBits : ℕ) (region : Option ℕ)
    (type protect : ℕ) : Within R (hookedNtAllocateVirtualMemory env process base zeroBits region type protect) := by
  rcases base with _ | addr
  · exact .get fun _ => h.callNt trivial _ _
  rcases region with _ | size
  · exact .get fun _ => h.callNt trivial _ _
  refine .get fun _ => .ite (h.callNt trivial _ _) <| h.rtlHookScope <| (h.setInHook true).bind fun _ => ?_
  refine (Atoms.onlyIf (h.ensureProxyActive _ _ _)).bind fun _ => .get fun _ => ?_
  exact (Atoms.attempt (h.redirectSlot _ _)).bind fun _ => .ite (.pure _) (h.callNt trivial _ _)

theorem Atoms.hookedNtAllocateVirtualMemoryEx (process : ℕ) (base region : Option ℕ) (type protect params count : ℕ) :
    Within R (hookedNtAllocateVirtualMemoryEx env process base region type protect params count) := by
  refine .get fun _ => .ite (.pure _) ?_
  rcases base with _ | addr
  · exact h.callNt trivial _ _
  rcases region with _ | size
  · exact h.callNt trivial _ _
  refine .ite (h.callNt trivial _ _) <| h.rtlHookScope <| (h.setInHook true).bind fun _ => ?_
  exact (Atoms.attempt (h.redirectSlot _ _)).bind fun _ => .ite (.pure _) (h.callNt trivial _ _)

theorem Atoms.hookedNtFreeVirtualMemory (process : ℕ) (base region : Option ℕ) (type : ℕ) :
    Within R (hookedNtFreeVirtualMemory env process base region type) := by
  rcases base with _ | addr
  · exact .get fun _ => h.callNt trivial _ _
  refine .get fun _ => .ite (h.callNt trivial _ _) <| h.rtlHookScope <| (h.setInHook true).bind fun _ => ?_
  refine .ite ((h.onOs _).bind fun _ => .pure _) <| (h.vatUntrack _ _).bind fun found => ?_
  cases found with
  | none => exact h.callNt trivial _ _
  | some r => exact (h.releaseSlot addr r).bind fun _ => .pure _

theorem Atoms.hookedNtMapViewOfSection (sect process : ℕ) (base : Option ℕ) (zeroBits commit : ℕ)
    (offset view : Option ℕ) (inherit type protect : ℕ) :
    Within R (hookedNtMapViewOfSection env sect process base zeroBits commit offset view inherit type protect) :=
  .get fun _ => .ite (h.callNt trivial _ _) <| h.rtlHookScope <| (h.setInHook true).bind fun _ => h.callNt trivial _ _

/-- Every call of every hook goes along a relation that allows its atoms. -/
theorem Atoms.run (c : HookCall) : Within R (c.run env) := by
  cases c with
  | rtlCreateHeap => exact h.hookedRtlCreateHeap _ _ _ _ _ _
  | rtlAllocateHeap => exact h.hookedRtlAllocateHeap _ _ _ _
  | rtlFreeHeap => exact h.hookedRtlFreeHeap _ _ _
  | rtlReAllocateHeap => exact h.hookedRtlReAllocateHeap _ _ _ _ _
  | ntAllocateVirtualMemory => exact (h.hookedNtAllocateVirtualMemory _ _ _ _ _ _).map _
  | ntFreeVirtualMemory => exact (h.hookedNtFreeVirtualMemory _ _ _ _).map _
  | ntAllocateVirtualMemoryEx => exact (h.hookedNtAllocateVirtualMemoryEx _ _ _ _ _ _ _).map _
  | ntMapViewOfSection => exact (h.hookedNtMapViewOfSection _ _ _ _ _ _ _ _ _ _).map _
  | virtualAlloc => exact h.hookedVirtualAlloc _ _ _ _
  | virtualFree => exact h.hookedVirtualFree _ _ _
  | heapCreate => exact h.forward trivial _
  | heapAlloc => exact h.hookedHeapAlloc _ _ _ _
  | heapFree => exact h.hookedHeapFree _ _ _
  | heapReAlloc => exact h.hookedHeapReAlloc _ _ _ _ _
  | heapSize => exact h.hookedHeapSize _ _ _
  | globalAlloc => exact h.suppressed trivial
  | globalReAlloc => exact h.suppressed trivial
  | localAlloc => exact h.suppressed trivial
  | localReAlloc => exact h.suppressed trivial

end

end

/-- The layout of two states. -/
abbrev World.Fixed (w w' : World σ) : Prop := Ts3Vas.Fixed w.tool w'.tool

instance : IsPreorder (World σ) World.Fixed where
  refl w := refl w.tool
  trans _ _ _ h h' := IsTrans.trans _ _ _ h h'

/-- Functions below the hooks that leave the layout as it is, hooks that they run included. -/
def Settled (env : Env σ) : Prop := ∀ c w, World.Fixed w (env.real c w).2

theorem Settled.atoms {env : Env σ} (h : Settled env) : Atoms env World.Fixed fun _ => True where
  os w _ := refl w.tool
  thread w _ := refl w.tool
  tool _ _ ht := ht.fixed
  call c _ w := h c w

theorem Settled.step {env : Env σ} (h : Settled env) (w : World σ) (c : HookCall) : World.Fixed w (w.step env c) :=
  h.atoms.run c w

end Ts3Vas
