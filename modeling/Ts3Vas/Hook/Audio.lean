/-
Calls of the three hooks that hand out blocks on a heap, from a caller that is to be left alone: when
the block is sure to lie in no shard and not in the arena, whatever runs below the hooks.
-/
import Ts3Vas.Hook.Tiers

namespace Ts3Vas

open Prog

variable {σ : Type}

/-! ## What is asked for -/

/-- The pointer is one into a shard or into the arena. -/
def Tool.Captured (t : Tool) (p : ℕ) : Prop := p ≠ 0 ∧ ((∃ s ∈ t.shards, s.Holds p) ∨ isProxyAddress t p = true)

instance Tool.decidableCaptured (t : Tool) (p : ℕ) : Decidable (t.Captured p) := inferInstanceAs (Decidable (_ ∧ (_ ∨ _)))

/-- The hooks that hand out a block on a heap. -/
inductive Entry
  | rtlAllocateHeap
  | heapAlloc
  | heapReAlloc (p : ℕ)
  deriving DecidableEq, Repr

namespace Entry

/-- What the hook learns of its caller. `Hooked_HeapReAlloc` looks nothing up. -/
def look (mods : List Module) (t : Tool) (heap size : ℕ) (site : Site) (last : LastHeap) (seen : Seen) : Entry → Caller
  | rtlAllocateHeap => (lookRtl mods t heap size site last seen).caller
  | heapAlloc => (lookHeapAlloc mods t heap size site last seen).caller
  | heapReAlloc _ => { Caller.plain with self := site.self }

def run (env : Env σ) (caller : Caller) (heap flags size : ℕ) : Entry → Hook σ ℕ
  | rtlAllocateHeap => hookedRtlAllocateHeap env caller heap flags size
  | heapAlloc => hookedHeapAlloc env caller heap flags size
  | heapReAlloc p => hookedHeapReAlloc env caller heap flags p size

/-- The function below the hook. -/
def realCall (heap flags size : ℕ) : Entry → RealCall
  | rtlAllocateHeap => .rtlAllocateHeap heap flags size
  | heapAlloc => .heapAlloc heap flags size
  | heapReAlloc p => .heapReAlloc heap flags p size

/-- The hook does more than to pass the call on. -/
def passes (w : World σ) : Entry → Bool
  | rtlAllocateHeap => !w.rtlReAllocateClosed
  | heapAlloc => !w.closed && w.tool.resolved .heapAlloc
  | heapReAlloc _ => !w.closed && w.tool.resolved .heapReAlloc

end Entry

/-- The caller's heap hands out memory of its own, behind the guard of the heap hooks. -/
structure Foreign (env : Env σ) (t : Tool) (c : RealCall) : Prop where
  calm : Calm env
  own : ∀ w, w.rtlReAllocateClosed = true → ¬ t.Captured (exec (env.real c) w).1.value

/-- The audio check of `Hooked_RtlAllocateHeap` knows the caller's module for audio: the module is in
the table or there is room for it, and what is kept of its name says so. -/
def Seen.hears (seen : Seen) (ra : ℕ) (m : Module) : Bool :=
  decide (seen.caches ra = true ∨ seen.callerMods.length < kCallerModMax) && isAudioModule (m.baseName 64)

/-- A shard or a slot of the arena is within the caller's reach: the gate of the branch lets the
request through, and there is a shard, or a slot to commit. -/
def Entry.exposed (t : Tool) (caller : Caller) (heard : Bool) (heap size : ℕ) : Entry → Bool
  | rtlAllocateHeap =>
    (heapAllocSardineGate t caller heap size && !heard && !t.shards.isEmpty) ||
      (arenaGate t caller size && decide (slotFor t caller.self size ≠ 0))
  | heapAlloc =>
    (heapAllocSardineGate t caller heap size && !t.shards.isEmpty) ||
      (forceGate t size && decide (slotFor t caller.self size ≠ 0))
  | heapReAlloc _ => forceGate t size && decide (slotFor t caller.self size ≠ 0)

/-! ## The audio lookup -/

section
variable {mods : List Module} {seen : Seen} {heap size : ℕ} {site : Site} {last : LastHeap} {t : Tool} {m : Module}

/-- The graphics lookup, where it comes first, changes no answer of the audio lookup. -/
theorem hears_grown (h : Resolved mods seen) (hl : Loaded mods) (hr : seen.diagCSInit = true) {ra : ℕ}
    (hm : moduleAt mods ra = some m) {c : Prop} [Decidable c] :
    (callerIsAudioModule mods ra (if c then (callerIsGraphicsModule mods ra seen).2 else seen)).1 = seen.hears ra m := by
  have hof : (CallerModRange.of m).Holds ra := (moduleAt_some hm).2
  have hg := grown_callerIsGraphicsModule mods ra seen
  split
  · rw [(h.grown hg).audio hl (hg.diagCSInit.trans hr) hm, h.graphics hl hr hm, Seen.hears]
    by_cases hroom : seen.caches ra = false ∧ seen.callerMods.length < kCallerModMax
    · have hcov : Seen.caches { seen with callerMods := seen.callerMods ++ [.of m] } ra = true := by
        rw [Seen.caches, List.any_append, Bool.or_eq_true]
        exact .inr (by simpa using hof)
      rw [if_pos hroom, decide_eq_true (.inl hcov), decide_eq_true (.inr hroom.2)]
    · rw [if_neg hroom]
  · exact h.audio hl hr hm

theorem audio_lookRtl (h : Resolved mods seen) (hl : Loaded mods) (hr : seen.diagCSInit = true)
    (hm : moduleAt mods site.ra = some m) :
    (lookRtl mods t heap size site last seen).caller.audio = seen.hears site.ra m := by
  obtain ⟨hc, hi⟩ := recordHeapUse_keeps mods heap site.ra last seen
  have hears : (recordHeapUse mods heap site.ra last seen).2.2.hears site.ra m = seen.hears site.ra m := by
    rw [Seen.hears, Seen.caches, hc, Seen.hears, Seen.caches]
  exact (hears_grown (h.recordHeapUse heap site.ra last) hl (hi.trans hr) hm).trans hears

end

/-! ## The branches of a hook -/

/-- A branch that hands out a captured block if `b`, and else nothing and leaves a state in `R`. -/
def Yields (t : Tool) (b : Bool) (R : World σ → Prop) (m : Hook σ ℕ) : Prop :=
  Triple (Exact t) m fun p w => if b = true then t.Captured p else p = 0 ∧ R w

/-- Inside a hook. -/
def Hooking (w : World σ) : Prop := w.thread.hookActive = true

section
variable {env : Env σ} {w : World σ} {t : Tool} {caller : Caller} {heap flags size p : ℕ} {b s a : Bool}
  {R : World σ → Prop}

theorem not_captured_zero : ¬ t.Captured 0 := fun h => h.1 rfl

theorem captured_of_yields {q : ℕ} (h : if b = true then t.Captured p else p = 0 ∧ R w) (hp : p ≠ 0) (hq : q = p) (c : Bool) :
    t.Captured q ↔ (b || c) = true := by
  cases b with
  | true => exact iff_of_true (hq ▸ h) rfl
  | false => exact absurd h.1 hp

theorem silent_of_yields (h : if b = true then t.Captured p else p = 0 ∧ R w) (hp : ¬ p ≠ 0) : b = false ∧ R w := by
  rw [not_not.1 hp] at h
  cases b with
  | true => exact absurd h not_captured_zero
  | false => exact ⟨rfl, h.2⟩

theorem Foreign.hooking {c : RealCall} (h : Foreign env t c) (hw : Hooking w) : ¬ t.Captured (exec (env.real c) w).1.value :=
  h.own w (by simp [World.rtlReAllocateClosed, World.busy, show w.thread.hookActive = true from hw])

/-- No heap is corralled. -/
theorem exact_corralCapture (hc : caller.corralTarget = false) :
    Triple (Exact t) (corralCapture env caller size) fun p v => p = 0 ∧ Exact t v := by
  refine .get fun v hv => ?_
  rw [hc, Bool.false_and, Bool.false_and]
  exact .pure fun _ e => e ▸ ⟨rfl, hv⟩

/-- The three tiers of `Hooked_RtlAllocateHeap`, one after the other. -/
theorem captured_hookedRtlAllocateHeap (hc : caller.corralTarget = false)
    (hs : Yields t s (Exact t) (attempt (sardineGate t caller heap size) (proxyHeapAlloc env flags size)))
    (ha : Yields t a Hooking (arenaCapture env caller size)) (hr : Foreign env t (.rtlAllocateHeap heap flags size)) :
    Triple (fun w => w.tool = t ∧ w.rtlReAllocateClosed = false) (hookedRtlAllocateHeap env caller heap flags size)
      fun p _ => t.Captured p ↔ (s || a) = true := by
  refine .get fun w hw => .ite (fun hclosed => ?_) fun _ => ?_
  · exact absurd hclosed (Bool.eq_false_iff.1 hw.2)
  refine (exact_rtlHookScope ?_).here hw.1
  refine (exact_setInHook true).bind fun _ => (exact_corralCapture hc).bind fun p => ?_
  refine .ite (fun hp v hv => absurd hv.1 hp) fun _ => .get fun v hv => ?_
  rw [hv.2.2]
  refine Triple.bind (Triple.here hs hv.2) fun p => .ite (fun hp => ?_) fun hp => ?_
  · exact fun u hu => captured_of_yields hu hp rfl a
  -- past the shards `s` is known to be false
  refine Triple.bind (Q := fun q u => s = false ∧ if a = true then t.Captured q else q = 0 ∧ Hooking u) ?_ fun q => ?_
  · intro u hu
    obtain ⟨hs0, hx⟩ := silent_of_yields hu hp
    exact ⟨hs0, ha u hx⟩
  refine .ite (fun hq => ?_) fun hq => ?_
  · rintro u ⟨hs0, hu⟩
    rw [hs0, Bool.false_or, ← Bool.or_false a]
    exact captured_of_yields hu hq rfl false
  · rintro u ⟨hs0, hu⟩
    obtain ⟨ha0, hx⟩ := silent_of_yields hu hq
    rw [hs0, ha0]
    exact iff_of_false (hr.hooking hx) (by simp)

theorem captured_hookedHeapAlloc
    (hs : Yields t s (Exact t) (attempt (heapAllocSardineGate t caller heap size) (proxyHeapAlloc env flags size)))
    (ha : Yields t a Hooking (attempt (forceGate t size) (createProxyAllocation env caller size PAGE_READWRITE)))
    (hr : Foreign env t (.heapAlloc heap flags size)) :
    Triple (fun w => w.tool = t ∧ (!w.closed && w.tool.resolved .heapAlloc) = true) (hookedHeapAlloc env caller heap flags size)
      fun p _ => t.Captured p ↔ (s || a) = true := by
  refine .get fun w hw => .ite (fun hclosed => ?_) fun _ => ?_
  · have hopen := hw.2
    cases hcl : w.closed <;> simp_all
  refine (exact_rtlHookScope ?_).here hw.1
  refine (exact_setInHook true).bind fun _ => .get fun v hv => ?_
  rw [hv.2]
  refine Triple.bind (Triple.here hs hv) fun p => ?_
  by_cases hp : p = 0
  · rw [hp]
    -- nothing from the shards, and nothing to probe
    refine Triple.bind (Q := fun _ u => s = false ∧ Exact t u) ?_ fun _ => .get fun u hu => ?_
    · refine .ite (fun h0 => absurd rfl h0) fun _ => .pure fun u hu => silent_of_yields hu (not_not.2 rfl)
    rw [hu.2.2]
    refine Triple.bind (Q := fun q u => s = false ∧ if a = true then t.Captured q else q = 0 ∧ Hooking u) ?_ fun q => ?_
    · refine .ite (fun _ => ?_) fun h0 => absurd rfl h0
      exact fun u' e => ⟨hu.1, ha u' (e ▸ hu.2)⟩
    by_cases hq : q = 0
    · refine Triple.bind (Q := fun r _ => t.Captured r ↔ (s || a) = true) ?_ fun r => fun _ h => h
      refine .ite (fun _ => ?_) fun h0 => absurd hq h0
      rintro u' ⟨hs0, hu'⟩
      obtain ⟨ha0, hx⟩ := silent_of_yields hu' (not_not.2 hq)
      rw [hs0, ha0]
      exact iff_of_false (hr.hooking hx) (by simp)
    · refine Triple.bind (Q := fun r _ => t.Captured r ↔ (s || a) = true) ?_ fun r => fun _ h => h
      refine .ite (fun h0 => absurd h0 hq) fun _ => .pure ?_
      rintro u' ⟨hs0, hu'⟩
      rw [hs0, Bool.false_or, ← Bool.or_false a]
      exact captured_of_yields hu' hq rfl false
  · intro u hu
    refine captured_of_yields hu hp ?_ a
    simp [orElse, hp]

theorem not_shard_of_own (hp : ¬ t.Captured p) : ¬ (p ≠ 0 ∧ (proxyHeapShardOf t p).isSome) := by
  rintro ⟨h0, hs⟩
  unfold proxyHeapShardOf at hs
  rw [if_neg h0, List.find?_isSome] at hs
  obtain ⟨s, hm, hold⟩ := hs
  exact hp ⟨h0, .inl ⟨s, hm, of_decide_eq_true hold⟩⟩

/-- A block that is not the tool's goes to the arena or stays on its heap. -/
theorem captured_hookedHeapReAlloc (hp : ¬ t.Captured p)
    (ha : Yields t a Hooking (attempt (forceGate t size) (forceReAlloc env caller heap flags p size)))
    (hr : Foreign env t (.heapReAlloc heap flags p size)) :
    Triple (fun w => w.tool = t ∧ (!w.closed && w.tool.resolved .heapReAlloc) = true)
      (hookedHeapReAlloc env caller heap flags p size) fun q _ => t.Captured q ↔ a = true := by
  refine .get fun w hw => ?_
  rw [hw.1, if_neg (not_shard_of_own hp), if_neg fun h => hp ⟨h.1, .inr h.2.2⟩]
  refine .ite (fun hclosed => ?_) fun _ => ?_
  · have hopen := hw.2
    rw [hw.1] at hopen
    cases hcl : w.closed <;> simp_all
  refine (exact_rtlHookScope ?_).here hw.1
  refine (exact_setInHook true).bind fun _ => .get fun v hv => ?_
  rw [hv.2]
  refine Triple.bind (Triple.here ha hv) fun q => ?_
  refine Triple.bind (Q := fun r _ => t.Captured r ↔ a = true) ?_ fun r => fun _ h => h
  refine .ite (fun hq => ?_) fun hq => .pure ?_
  · intro u hu
    obtain ⟨ha0, hx⟩ := silent_of_yields hu (not_not.2 hq)
    rw [ha0]
    exact iff_of_false (hr.hooking hx) (by simp)
  · intro u hu
    rw [← Bool.or_false a]
    exact captured_of_yields hu hq rfl false

/-! ## When a branch hands out a block -/

theorem hooking_of_keeps {α : Type} {m : Hook σ α} (hm : Keeps Marks.Inside World.marks m) (hw : Hooking w) :
    Hooking (exec m w).2 := by
  have hin : w.marks.Inside := inside_of_closed (closed_of_busy (by simp [World.busy, show w.thread.hookActive = true from hw]))
  have e : (exec m w).2.marks.thread.hookActive = w.thread.hookActive := congrArg (·.thread.hookActive) (hm w hin)
  exact e.trans hw

/-- The slot that goes to be committed is one of the arena. -/
theorem captured_slotFor {self : Bool} (h : slotFor t self size ≠ 0) : t.Captured (slotFor t self size) := by
  refine ⟨h, .inr ?_⟩
  unfold slotFor at h ⊢
  dsimp only at h ⊢
  split_ifs at h ⊢ <;> try exact absurd rfl h
  rename_i hout _
  simp only [Bool.or_eq_true, Bool.not_eq_true', not_or, Bool.not_eq_false] at hout
  exact hout.1

/-- A commit of the slot that never fails. -/
def Commits (env : Env σ) (t : Tool) (self : Bool) (size : ℕ) : Prop :=
  ∀ w, (exec (env.real (.virtualAlloc (slotFor t self size) size MEM_COMMIT PAGE_READWRITE)) w).1.value ≠ 0

/-- A capture hands out its slot, if there is one and it gets committed. -/
theorem yields_createProxyAllocation (hcalm : Calm env) (hc : slotFor t caller.self size ≠ 0 → Commits env t caller.self size)
    (hw : Poised t w) :
    if decide (slotFor t caller.self size ≠ 0) = true then t.Captured (exec (createProxyAllocation env caller size PAGE_READWRITE) w).1
    else (exec (createProxyAllocation env caller size PAGE_READWRITE) w).1 = 0 ∧
      Hooking (exec (createProxyAllocation env caller size PAGE_READWRITE) w).2 := by
  obtain ⟨u, e⟩ := createProxyAllocation_value env hw.hooking caller size PAGE_READWRITE
  rw [hw.slotFor, if_neg (by decide : PAGE_READWRITE ≠ 0)] at e
  by_cases h0 : slotFor t caller.self size = 0
  · rw [if_pos h0] at e
    rw [if_neg (by simp [h0])]
    exact ⟨e, hooking_of_keeps (hcalm.createProxyAllocation caller size _) hw.hooking⟩
  · rw [if_neg h0, if_neg (hc h0 u)] at e
    rw [if_pos (decide_eq_true h0), e]
    exact captured_slotFor h0

/-- The same behind a gate. -/
theorem yields_attempt {g c : Bool} {m : Hook σ ℕ} (hm : g = true → Yields t c R m) (hR : ∀ w, Exact t w → R w) :
    Yields t (g && c) R (attempt g m) := by
  refine .ite (fun hg => ?_) fun hg => .pure fun w hw => ?_
  · rw [hg, Bool.true_and]
    exact hm hg
  · rw [Bool.eq_false_iff.2 hg, Bool.false_and]
    exact ⟨rfl, hR w hw⟩

theorem yields_force (hcalm : Calm env) {g : Bool}
    (hc : g = true → slotFor t caller.self size ≠ 0 → Commits env t caller.self size) :
    Yields t (g && decide (slotFor t caller.self size ≠ 0)) Hooking
      (attempt g (createProxyAllocation env caller size PAGE_READWRITE)) :=
  yields_attempt (fun hg _ hw => yields_createProxyAllocation hcalm (hc hg) hw.poised) fun _ hw => hw.1

/-- The reallocation returns what the capture hands out. -/
theorem yields_forceReAlloc (hcalm : Calm env) {g : Bool}
    (hc : g = true → slotFor t caller.self size ≠ 0 → Commits env t caller.self size) :
    Yields t (g && decide (slotFor t caller.self size ≠ 0)) Hooking
      (attempt g (forceReAlloc env caller heap flags p size)) := by
  refine yields_attempt (fun hg => ?_) fun _ hw => hw.1
  have hy : Yields t (decide (slotFor t caller.self size ≠ 0)) Hooking (createProxyAllocation env caller size PAGE_READWRITE) :=
    fun _ hw => yields_createProxyAllocation hcalm (hc hg) hw.poised
  refine Triple.bind hy fun q => .ite (fun hq => ?_) fun _ => ?_
  · intro u hu
    split at hu
    · rwa [if_pos ‹_›]
    · exact absurd hu.1 hq.1
  · exact .pure fun _ h => h

theorem yields_arenaCapture (hcalm : Calm env)
    (hc : arenaGate t caller size = true → slotFor t caller.self size ≠ 0 → Commits env t caller.self size) :
    Yields t (arenaGate t caller size && decide (slotFor t caller.self size ≠ 0)) Hooking (arenaCapture env caller size) := by
  intro w hw
  have hafter : Hooking (exec (arenaCapture env caller size) w).2 := hooking_of_keeps (hcalm.arenaCapture caller size) hw.1
  obtain ⟨v, hv, e⟩ := hw.still.arenaCapture env caller size
  by_cases hg : arenaGate t caller size = true
  · have hy := yields_createProxyAllocation hcalm (hc hg) hv
    rw [if_pos hg] at e
    rw [hg, Bool.true_and, e]
    split at hy
    · rwa [if_pos ‹_›]
    · rw [if_neg ‹_›]
      exact ⟨hy.1, hafter⟩
  · rw [Bool.eq_false_iff.2 hg, Bool.false_and]
    exact ⟨e.trans (if_neg hg), hafter⟩

/-- Without a shard there is nothing to try. -/
theorem yields_noShard (h : t.shards = []) : Yields t false (Exact t) (proxyHeapAlloc env flags size) := by
  refine .get fun w hw => .ite (fun _ => .pure fun _ e => e ▸ ⟨rfl, hw⟩) fun hn => ?_
  rw [hw.2, h] at hn
  exact absurd rfl hn

end

/-! ## A system that takes every chance -/

/-- Every shard hands out its middle, every commit succeeds, and no other heap has anything. -/
def Outcomes.bait (t : Tool) : Outcomes where
  reply c := ⟨match c with
    | .rtlAllocateHeap heap _ _ => ((t.shards.find? fun s => s.handle = heap).map fun s => s.lo + (s.hi - s.lo) / 2).getD 0
    | .virtualAlloc p _ _ _ => p
    | _ => 0, 0, 0⟩
  live _ := true
  stray _ := (t.shards.head?.map (·.handle)).getD 0

/-- The shards are heaps over some bytes. -/
def Tool.Stocked (t : Tool) : Prop := ∀ s ∈ t.shards, s.handle ≠ 0 ∧ 0 < s.lo ∧ s.lo < s.hi

instance Tool.decidableStocked (t : Tool) : Decidable t.Stocked := inferInstanceAs (Decidable (∀ s ∈ t.shards, _))

section
variable {t : Tool} {caller : Caller} {heap flags size : ℕ} {R : World σ → Prop}

theorem calm_fixed (o : Outcomes) : Calm (Env.fixed o : Env σ) := fun _ _ _ => rfl

theorem commits_bait (self : Bool) (h : slotFor t self size ≠ 0) : Commits (Env.fixed (.bait t) : Env σ) t self size := fun _ => h

/-- Any index leads to a shard. -/
theorem handleAt_bait (h : t.shards ≠ []) {u : Tool} (hu : u.shards = t.shards) (i : ℤ) :
    ∃ s ∈ t.shards, proxyHeapAt (Env.fixed (.bait t) : Env σ) u i = s.handle := by
  obtain ⟨s, ss, e⟩ := List.exists_cons_of_ne_nil h
  have hstray : (Env.fixed (.bait t) : Env σ).stray i = s.handle := by
    show (t.shards.head?.map (·.handle)).getD 0 = s.handle
    rw [e]
    rfl
  have hs : s ∈ t.shards := e ▸ List.mem_cons_self
  unfold proxyHeapAt
  rw [hu, hstray]
  split
  · split
    · exact ⟨_, List.mem_of_getElem? ‹_›, rfl⟩
    · exact ⟨s, hs, rfl⟩
  · exact ⟨s, hs, rfl⟩

/-- What a shard hands out is its own. -/
theorem captured_bait (hS : t.Stocked) {s : Shard} (hs : s ∈ t.shards) (flags size : ℕ) :
    t.Captured ((Outcomes.bait t).reply (.rtlAllocateHeap s.handle flags size)).value := by
  show t.Captured (((t.shards.find? fun s' => s'.handle = s.handle).map fun s => s.lo + (s.hi - s.lo) / 2).getD 0)
  cases e : t.shards.find? fun s' => s'.handle = s.handle with
  | none =>
    rw [List.find?_eq_none] at e
    exact absurd (decide_eq_true rfl) (e s hs)
  | some s' =>
    have hs' := List.mem_of_find?_eq_some e
    obtain ⟨-, hlo, hhi⟩ := hS s' hs'
    refine ⟨(Nat.add_pos_left hlo _).ne', .inl ⟨s', hs', Nat.le_add_right _ _, ?_⟩⟩
    show s'.lo + (s'.hi - s'.lo) / 2 < s'.hi
    omega

/-- The first shard that is tried serves. -/
theorem yields_bait (hS : t.Stocked) (h : t.shards ≠ []) :
    Yields t true R (proxyHeapAlloc (Env.fixed (.bait t) : Env σ) flags size) := by
  refine .get fun w hw => .ite (fun hn => ?_) fun _ => ?_
  · rw [hw.2] at hn
    exact absurd (List.length_eq_zero_iff.1 hn) h
  refine (still_proxyHeapHookScope (P := Exact t) (t := t) (Q := fun p => t.Captured p) exact_setInHook ?_).mono
    (fun _ e => e ▸ hw) fun _ _ hp => hp.1
  refine Triple.bind (Q := fun _ => Still t) ?_ fun _ => .get fun v hv => ?_
  · rintro v ⟨ha, rfl⟩
    exact ⟨ha, _, rfl⟩
  have hvs : v.tool.shards = t.shards := by
    obtain ⟨-, r, e⟩ := hv
    rw [e]
  generalize v.tool.proxyHeapRR = start
  obtain ⟨n, hn⟩ := Nat.exists_eq_succ_of_ne_zero fun h0 => h (List.length_eq_zero_iff.1 h0)
  rw [hvs, hn, List.range_succ_eq_map]
  refine .get fun u hu => ?_
  obtain ⟨s, hs, e⟩ := handleAt_bait (σ := σ) h (show u.tool.shards = t.shards by rw [hu, hvs]) ((toLong (start + (0 : ℕ))).tmod n.succ)
  have hlive : shardHandleLive (Env.fixed (.bait t) : Env σ) s.handle u = true := by
    rw [shardHandleLive, decide_eq_true (hS s hs).1]
    rfl
  have hcap := captured_bait hS hs (flags &&& HEAP_ZERO_MEMORY) size
  rw [e, if_pos hlive]
  refine Triple.bind (still_callValue (t := t) (.rtlAllocateHeap s.handle (flags &&& HEAP_ZERO_MEMORY) size)) ?_ |>.mono
    (fun _ e => by rw [e, hu]; exact hv) fun _ _ hp => hp
  refine fun p => .ite (fun _ => .pure fun x hx => ⟨hx.1 ▸ hcap, hx.2⟩) fun hp x hx => ?_
  exact absurd (hx.1 ▸ hcap.1) hp

end

/-! ## Hands off -/

namespace Entry

/-- The block that is reallocated, if there is one, is not the tool's. -/
def Own (t : Tool) : Entry → Prop
  | heapReAlloc p => ¬ t.Captured p
  | _ => True

instance decidableOwn (t : Tool) : (e : Entry) → Decidable (e.Own t)
  | heapReAlloc _ => inferInstanceAs (Decidable (¬ _))
  | rtlAllocateHeap | heapAlloc => inferInstanceAs (Decidable True)

section
variable {env : Env σ} {w : World σ} {caller : Caller} {heap flags size : ℕ} {heard : Bool}

/-- A hook that only passes the call on returns what the heap does. -/
theorem not_captured_of_closed {e : Entry} (hp : e.passes w = false) (ho : e.Own w.tool)
    (hf : Foreign env w.tool (e.realCall heap flags size)) :
    ¬ w.tool.Captured (exec (e.run env caller heap flags size) w).1 := by
  cases e with
  | rtlAllocateHeap =>
    have hc : w.rtlReAllocateClosed = true := by simpa [passes] using hp
    have hv : Triple (fun v => v = w) (hookedRtlAllocateHeap env caller heap flags size) fun p _ => ¬ w.tool.Captured p :=
      .get fun v hv => .ite (fun _ u e => hf.own u (by rw [e, hv]; exact hc)) fun hn => absurd (hv ▸ hc) hn
    exact hv w rfl
  | heapAlloc =>
    have hv : Triple (fun v => v = w) (hookedHeapAlloc env caller heap flags size) fun p _ => ¬ w.tool.Captured p := by
      refine .get fun v hv => .ite (fun hc => .ite (fun hr u e => hf.own u ?_) fun _ _ _ => not_captured_zero) fun hn => ?_
      · rw [hr, Bool.not_true, Bool.or_false] at hc
        exact e ▸ closed_of_forward hc
      · exact absurd (by simpa [hv, passes, or_iff_not_imp_left] using hp) hn
    exact hv w rfl
  | heapReAlloc p =>
    have hv : Triple (fun v => v = w) (hookedHeapReAlloc env caller heap flags p size) fun p _ => ¬ w.tool.Captured p := by
      refine .get fun v hv => ?_
      rw [hv, if_neg (not_shard_of_own ho), if_neg fun h => ho ⟨h.1, .inr h.2.2⟩]
      refine .ite (fun hc => .ite (fun hr u e => hf.own u ?_) fun _ _ _ => not_captured_zero) fun hn => ?_
      · rw [hr, Bool.not_true, Bool.or_false] at hc
        exact e ▸ closed_of_forward hc
      · exact absurd (by simpa [passes, or_iff_not_imp_left] using hp) hn
    exact hv w rfl

/-- Past its guard a hook hands out a captured block just if the caller is exposed, in a system that
lets no chance slip. -/
theorem captured_run {e : Entry} (hp : e.passes w = true) (ho : e.Own w.tool) (hf : Foreign env w.tool (e.realCall heap flags size))
    (hcorral : caller.corralTarget = false) (haudio : e = .rtlAllocateHeap → caller.audio = heard)
    (hc : e.exposed w.tool caller heard heap size = true → slotFor w.tool caller.self size ≠ 0 → Commits env w.tool caller.self size)
    (hs : e.exposed w.tool caller heard heap size = true → w.tool.shards ≠ [] →
      Yields w.tool true (Exact w.tool) (proxyHeapAlloc env flags size)) :
    w.tool.Captured (exec (e.run env caller heap flags size) w).1 ↔ e.exposed w.tool caller heard heap size = true := by
  -- a sardine branch hands out a block if its gate is open and there is a shard
  have hsardine : ∀ g : Bool, (g = true → w.tool.shards ≠ [] → e.exposed w.tool caller heard heap size = true) →
      Yields w.tool (g && !w.tool.shards.isEmpty) (Exact w.tool) (attempt g (proxyHeapAlloc env flags size)) := by
    intro g hg
    refine yields_attempt (fun hopen => ?_) fun _ h => h
    by_cases hn : w.tool.shards = []
    · rw [hn]
      exact yields_noShard hn
    · rw [List.isEmpty_eq_false_iff.2 hn]
      exact hs (hg hopen hn) hn
  cases e with
  | rtlAllocateHeap =>
    have hgate : sardineGate w.tool caller heap size = (heapAllocSardineGate w.tool caller heap size && !heard) := by
      rw [sardineGate_eq, haudio rfl]
    refine (captured_hookedRtlAllocateHeap hcorral (hsardine _ fun hg hn => ?_)
      (yields_arenaCapture hf.calm fun hg h0 => hc ?_ h0) hf w ⟨rfl, by simpa [passes] using hp⟩).trans ?_
    · rw [hgate] at hg
      simp [exposed, hg, List.isEmpty_eq_false_iff.2 hn]
    · simp [exposed, hg, h0]
    · rw [hgate]
      rfl
  | heapAlloc =>
    refine captured_hookedHeapAlloc (hsardine _ fun hg hn => ?_) (yields_force hf.calm fun hg h0 => hc ?_ h0) hf w ⟨rfl, hp⟩
    · simp [exposed, hg, List.isEmpty_eq_false_iff.2 hn]
    · simp [exposed, hg, h0]
  | heapReAlloc p =>
    refine captured_hookedHeapReAlloc ho (yields_forceReAlloc hf.calm fun hg h0 => hc ?_ h0) hf w ⟨rfl, hp⟩
    simp [exposed, hg, h0]

theorem foreign_bait {t : Tool} (hh : heap ∉ t.shards.map (·.handle)) {e : Entry} :
    Foreign (Env.fixed (.bait t) : Env σ) t (e.realCall heap flags size) := by
  refine ⟨calm_fixed _, fun w _ => ?_⟩
  cases e with
  | rtlAllocateHeap =>
    have hnone : (t.shards.find? fun s => s.handle = heap) = none := by
      rw [List.find?_eq_none]
      rintro s hs hsh
      exact hh (List.mem_map.2 ⟨s, hs, of_decide_eq_true hsh⟩)
    show ¬ t.Captured (((t.shards.find? fun s => s.handle = heap).map fun s => s.lo + (s.hi - s.lo) / 2).getD 0)
    rw [hnone]
    exact not_captured_zero
  | heapAlloc => exact not_captured_zero
  | heapReAlloc => exact not_captured_zero

/-- A caller in any module, one of audio too, is sure to get a block that is neither a shard's nor the
arena's just if the hook passes the call on or neither of its branches is open to the request. -/
theorem hands_off_iff {e : Entry} {mods : List Module} {seen : Seen} {last : LastHeap} {site : Site} {m : Module}
    (hl : Loaded mods) (hr : Resolved mods seen) (hi : seen.diagCSInit = true) (hu : seen.Uncorralled)
    (hm : moduleAt mods site.ra = some m) (hS : w.tool.Stocked) (hh : heap ∉ w.tool.shards.map (·.handle)) (ho : e.Own w.tool) :
    (∀ env : Env σ, Foreign env w.tool (e.realCall heap flags size) →
      ¬ w.tool.Captured (exec (e.run env (e.look mods w.tool heap size site last seen) heap flags size) w).1) ↔
    ¬ (e.passes w = true ∧
      e.exposed w.tool (e.look mods w.tool heap size site last seen) (seen.hears site.ra m) heap size = true) := by
  have hcorral : (e.look mods w.tool heap size site last seen).corralTarget = false := by
    cases e with
    | rtlAllocateHeap => exact (hu.recordHeapUse heap site.ra last).1
    | heapAlloc | heapReAlloc => rfl
  have haudio : e = .rtlAllocateHeap → (e.look mods w.tool heap size site last seen).audio = seen.hears site.ra m := by
    rintro rfl
    exact audio_lookRtl hr hl hi hm
  constructor
  -- a system whose commits all succeed baits the open branch
  · rintro h ⟨hp, hx⟩
    have hf : Foreign (Env.fixed (.bait w.tool) : Env σ) w.tool (e.realCall heap flags size) := foreign_bait hh
    have hrun := captured_run hp ho hf hcorral haudio (fun _ => commits_bait _) fun _ => yields_bait hS
    exact h _ hf (hrun.2 hx)
  · intro h env hf
    by_cases hp : e.passes w = true
    · have hx : ¬ _ := fun hx => h ⟨hp, hx⟩
      exact fun hc => hx ((captured_run hp ho hf hcorral haudio (fun hx' => absurd hx' hx) fun hx' => absurd hx' hx).1 hc)
    · exact not_captured_of_closed (Bool.eq_false_iff.2 hp) ho hf

end

end Entry

theorem loaded_gameAndSound : Loaded gameAndSound := ⟨by decide, by decide⟩

/-- By the lower hook the sound library is left alone on the game's heap, -/
theorem hands_off_sound : ¬ Process.sharded.world.tool.Captured
    (exec (Entry.run (Env.fixed (.bait Process.sharded.world.tool) : Env Unit) (Entry.look gameAndSound Process.sharded.world.tool
      0x50000000 100 soundSite .start afterGame .rtlAllocateHeap) 0x50000000 0 100 .rtlAllocateHeap) Process.sharded.world).1 := by
  have hlook : Resolved gameAndSound afterGame ∧ afterGame.diagCSInit = true := look_lookRtl (fun _ h => (nomatch h)) rfl
  have hu : Seen.Uncorralled afterGame := (uncorralled_start.look Process.sharded.world.tool 100 gameSite).1
  refine (Entry.hands_off_iff (e := .rtlAllocateHeap) (m := ⟨0x60000000, 0x60080000, "DSOUND.dll".toList⟩) loaded_gameAndSound
    hlook.1 hlook.2 hu (by decide) (by decide +kernel) (by decide +kernel) trivial).2 ?_ _ ?_
  · decide +kernel
  · exact Entry.foreign_bait (by decide +kernel)

/-- but not by the upper one. -/
theorem captured_sound : isAudioModule "DSOUND.dll".toList = true ∧
    moduleAt gameAndSound soundSite.ra = some ⟨0x60000000, 0x60080000, "DSOUND.dll".toList⟩ ∧
    Foreign (Env.fixed (.bait Process.sharded.world.tool) : Env Unit) Process.sharded.world.tool (.heapAlloc 0x50000000 0 100) ∧
    Process.sharded.world.tool.Captured (exec (Entry.run (Env.fixed (.bait Process.sharded.world.tool))
      (Entry.look gameAndSound Process.sharded.world.tool 0x50000000 100 soundSite .start afterGame .heapAlloc)
      0x50000000 0 100 .heapAlloc) Process.sharded.world).1 :=
  ⟨by decide, by decide, Entry.foreign_bait (e := .heapAlloc) (by decide +kernel), by decide +kernel⟩

end Ts3Vas
