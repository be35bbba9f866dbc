/-
What the heap hooks do to the blocks of a program, over heaps that do what is documented: a block that
is asked for is a new one, a free takes one block and no other, and a block that is moved takes its
contents along.
-/
import Ts3Vas.Hook.Blocks

namespace Ts3Vas

open Prog Blocks

variable {σ : Type}

/-! ## The functions below the hooks -/

/-- The pointer is a block of the heap, and what is decommitted holds no byte of a block. -/
def RealCall.Legit (v : View σ) (os : σ) (t : Tool) : RealCall → Prop
  | rtlAllocateHeap .. | heapAlloc .. => True
  | rtlFreeHeap heap _ p | rtlReAllocateHeap heap _ p _ | heapFree heap _ p | heapReAlloc heap _ p _ | heapSize heap _ p =>
    ∃ n, v.block os p = some (heap, n)
  | virtualAlloc _ _ type _ => type = MEM_COMMIT
  | virtualFree p n type => type = MEM_DECOMMIT ∧ 0 < n ∧ ∀ q b, (v.snapshot os t.tables.allocations).block q = some b →
      ∀ x, Touches q b.2 x → ¬ InPages p n (x / 4096)
  | _ => False

/-- What the call does to the blocks, as it is documented. A heap may itself be served by the hooks that
its functions run. -/
def RealCall.Served (t : Tool) (r : ℕ) (s s' : Snapshot Owner) : RealCall → Prop
  | rtlAllocateHeap heap _ n | heapAlloc heap _ n => Grants (Owner.Found t heap) n r s s'
  | rtlFreeHeap _ _ p | heapFree _ _ p => Frees p s s'
  | rtlReAllocateHeap heap _ p n | heapReAlloc heap _ p n =>
    (r = 0 → Spares ∅ s s') ∧ (r ≠ 0 → Resizes (· = Owner.heap heap) p n r s s')
  | heapSize heap _ p => Spares ∅ s s' ∧ ∀ n, s.block p = some (.heap heap, n) → r = n
  | virtualAlloc p n _ _ =>
    Spares ∅ s s' ∧ (r ≠ 0 → 0 < n ∧ p + n ≤ 2 ^ 32 ∧ ∀ x, p ≤ x → x < p + n → (s'.byte x).isSome)
  | _ => Spares ∅ s s'

/-- What is asked of the functions below the hooks. Inside a hook, and behind the guard, the hooks that
they run pass everything on; elsewhere these keep the tool and the heaps tidy, as hooks do. Only the arena
branch of `Hooked_RtlReAllocateHeap` asks a heap outside any scope: that it does not grow into the arena
there is part of `tidy`. -/
structure Genuine (env : Env σ) (v : View σ) : Prop where
  settled : Settled env
  quiet : ∀ (c : RealCall) (w : World σ), w.closed = true → Tidy v w.os w.tool → c.Legit v w.os w.tool →
    (exec (env.real c) w).2.tool = w.tool
  tidy : ∀ (c : RealCall) (w : World σ), Tidy v w.os w.tool → c.Legit v w.os w.tool →
    Tidy v (exec (env.real c) w).2.os (exec (env.real c) w).2.tool
  serves : ∀ (c : RealCall) (w : World σ), Tidy v w.os w.tool → c.Legit v w.os w.tool →
    c.Served w.tool (exec (env.real c) w).1.value (v.seen w) (v.seen (exec (env.real c) w).2)
  /-- `memcpy` into a block, from what is committed, writes its target alone, -/
  writes : ∀ q p n os t b, Tidy v os t → (v.snapshot os t.tables.allocations).block q = some b → n ≤ b.2 →
    (∀ k < n, (v.contents os (p + k)).isSome) → v.block (env.memcpy q p n os) = v.block os ∧
      (∀ x, (v.contents (env.memcpy q p n os) x).isSome = (v.contents os x).isSome) ∧
      ∀ x, ¬ (q ≤ x ∧ x < q + n) → v.contents (env.memcpy q p n os) x = v.contents os x
  /-- and copies what does not overlap. -/
  memcpy : ∀ q p n os t b, Tidy v os t → (v.snapshot os t.tables.allocations).block q = some b → n ≤ b.2 →
    (∀ k < n, (v.contents os (p + k)).isSome) → (∀ j < n, ∀ k < n, q + j ≠ p + k) →
    ∀ k < n, v.contents (env.memcpy q p n os) (q + k) = v.contents os (p + k)
  /-- A shard with a block has its heap, whose first page is committed. -/
  alive : ∀ os t, Tidy v os t → ∀ s ∈ t.shards, ∀ p n, v.block os p = some (s.handle, n) →
    s.handle ≠ 0 ∧ env.handleLive s.handle os = true

section
variable {env : Env σ} {v : View σ} {w : World σ} {S : Snapshot Owner} {caller : Caller} {heap flags p q n size : ℕ}

namespace Genuine

theorem call (h : Genuine env v) {c : RealCall} (ht : Tidy v w.os w.tool) (hl : c.Legit v w.os w.tool) :
    Tidy v (exec (call env c) w).2.os (exec (call env c) w).2.tool ∧
      c.Served w.tool (exec (call env c) w).1.value (v.seen w) (v.seen (exec (call env c) w).2) :=
  ⟨h.tidy c w ht hl, h.serves c w ht hl⟩

theorem callValue (h : Genuine env v) {c : RealCall} (ht : Tidy v w.os w.tool) (hl : c.Legit v w.os w.tool) :
    Tidy v (exec (callValue env c) w).2.os (exec (callValue env c) w).2.tool ∧
      c.Served w.tool (exec (callValue env c) w).1 (v.seen w) (v.seen (exec (callValue env c) w).2) := h.call ht hl

/-- A hook that only forwards does what the function does, with the tool as it was, if there is one. -/
theorem forward (h : Genuine env v) (absent : ℕ) {c : RealCall} (ht : Tidy v w.os w.tool) (hl : c.Legit v w.os w.tool) :
    (exec (forward env c absent) w).2.tool = w.tool ∧ Tidy v (exec (forward env c absent) w).2.os w.tool ∧
      (w.tool.resolved c.api = false ∧ exec (Ts3Vas.forward env c absent) w = (absent, w) ∨ w.tool.resolved c.api = true ∧
        c.Served w.tool (exec (Ts3Vas.forward env c absent) w).1 (v.seen w) (v.seen (exec (Ts3Vas.forward env c absent) w).2)) := by
  obtain ⟨hr, e⟩ | ⟨hr, th, th', hclosed, e⟩ := exec_forward_cases env c absent w
  · rw [e]
    exact ⟨rfl, ht, .inl ⟨hr, rfl⟩⟩
  · obtain ⟨ht', hs⟩ := h.callValue (w := { w with thread := th }) ht hl
    have hq : (exec (Ts3Vas.callValue env c) { w with thread := th }).2.tool = w.tool := h.quiet c _ hclosed ht hl
    rw [e]
    refine ⟨hq, ?_, .inr ⟨hr, hs⟩⟩
    rw [hq] at ht'
    exact ht'

end Genuine

/-! ## Captures -/

/-- Since the blocks were as in `S` none has been lost, -/
structure Since (v : View σ) (S : Snapshot Owner) (w : World σ) : Prop where
  tidy : Tidy v w.os w.tool
  spares : Spares ∅ S (v.seen w)

/-- and a request of `n` bytes has been answered with `r`. -/
structure Got (v : View σ) (S : Snapshot Owner) (P : Owner → Prop) (n r : ℕ) (w : World σ) : Prop where
  tidy : Tidy v w.os w.tool
  grants : Grants P n r S (v.seen w)

theorem Got.since {P : Owner → Prop} {r : ℕ} (h : Got v S P n r w) : Since v S w := ⟨h.tidy, h.grants.spares⟩

theorem Since.null (h : Since v S w) (P : Owner → Prop) (n : ℕ) : Got v S P n 0 w := ⟨h.tidy, .null h.spares⟩

namespace Genuine

/-- A commit of a slot leaves the blocks alone, and the bytes of the slot can be used. -/
theorem commitSlot (h : Genuine env v) (ht : Tidy v w.os w.tool) (p n protect : ℕ) :
    (exec (commitSlot env p n protect) w).2.tool = w.tool ∧ Tidy v (exec (commitSlot env p n protect) w).2.os w.tool ∧
      Spares ∅ (v.seen w) (v.seen (exec (commitSlot env p n protect) w).2) ∧
      ((exec (commitSlot env p n protect) w).1 ≠ 0 → 0 < n ∧ p + n ≤ 2 ^ 32 ∧
        ∀ x, p ≤ x → x < p + n → (v.contents (exec (commitSlot env p n protect) w).2.os x).isSome) := by
  obtain ⟨e, ht', ⟨-, hw⟩ | ⟨-, hspare, hc⟩⟩ := h.forward 0 (c := .virtualAlloc p n MEM_COMMIT protect) ht rfl
  · refine ⟨e, ht', ?_, fun h0 => ?_⟩
    · rw [Ts3Vas.commitSlot, hw]
      exact .refl _ _
    · rw [Ts3Vas.commitSlot, hw] at h0
      exact absurd rfl h0
  · exact ⟨e, ht', hspare, hc⟩

/-- A capture is a block of the arena, or there is none. -/
theorem createProxyAllocation (h : Genuine env v) (caller : Caller) (size protect : ℕ) :
    Triple (Since v S) (createProxyAllocation env caller size protect) (Got v S (· = Owner.arena) size) := by
  refine .get fun w hw => .ite (fun _ => .pure fun _ e => e ▸ hw.null _ _) fun _ =>
    .ite (fun _ => .pure fun _ e => e ▸ hw.null _ _) fun _ => ?_
  rintro w rfl
  obtain ⟨ht, hS⟩ := hw
  generalize (if protect = 0 then PAGE_READWRITE else protect) = commitProtect
  rw [exec_bind, exec_arenaAllocate]
  generalize w.tool.sys.alloc.prefersTopDown size = fromTop
  have hgrant := ht.allocate size fromTop
  dsimp only
  rw [exec_ite]
  by_cases hp : (w.tool.sys.alloc.allocate size fromTop).1 = 0
  · rw [if_pos hp]
    exact ⟨hgrant, .null hS⟩
  rw [if_neg hp, exec_ite]
  by_cases hc : (!isProxyAddress w.tool (w.tool.sys.alloc.allocate size fromTop).1 ||
      decide ((w.tool.sys.alloc.allocate size fromTop).1 % pageSize ≠ 0)) = true
  · rw [if_pos hc]
    exact ⟨ht.giveBack hp hgrant, .null hS⟩
  rw [if_neg hc, exec_bind, exec_ite]
  rw [Bool.not_eq_true, Bool.or_eq_false_iff, Bool.not_eq_false'] at hc
  obtain ⟨e, ht', hspare, hcommit⟩ := h.commitSlot
    (w := { w with tool := { w.tool with sys := w.tool.sys.step (.allocate size fromTop) } }) hgrant
    (w.tool.sys.alloc.allocate size fromTop).1 size commitProtect
  generalize exec (Ts3Vas.commitSlot env (w.tool.sys.alloc.allocate size fromTop).1 size commitProtect)
    { w with tool := { w.tool with sys := w.tool.sys.step (.allocate size fromTop) } } = u at *
  obtain ⟨c, u⟩ := u
  replace hspare : Spares ∅ S (v.seen u) := hS.trans hspare
  by_cases hz : c = 0
  · -- the commit has failed, and the slot goes back
    rw [if_pos hz, exec_bind, exec_arenaFree]
    refine ⟨?_, .null hspare⟩
    show Tidy v u.os { u.tool with sys := u.tool.sys.step _ }
    rw [e]
    exact ht.giveBack hp ht'
  · rw [if_neg hz]
    obtain ⟨hpos, htop, hbytes⟩ := hcommit hz
    obtain ⟨hslot, hnone⟩ := ht.slotted hp hc.1 hpos htop
    obtain ⟨ht'', hg⟩ := ht'.put hslot hnone hbytes
    constructor
    · show Tidy v u.os { u.tool with tables := u.tool.tables.put _ size .allocations }
      rw [e]
      exact ht''
    · refine .after hspare ?_
      show Grants _ _ _ (v.snapshot u.os u.tool.tables.allocations) (v.snapshot u.os (u.tool.tables.put _ size .allocations).allocations)
      rw [e]
      exact hg

end Genuine

/-! ## Scopes -/

/-- What is said of the memory and of the tool, not of the thread. -/
def Threadless (P : World σ → Prop) : Prop := ∀ w th, P w → P { w with thread := th }

theorem threadless_since : Threadless (Since v S) := fun _ _ h => ⟨h.tidy, h.spares⟩

theorem threadless_got (P : Owner → Prop) (n r : ℕ) : Threadless (Got v S P n r) := fun _ _ h => ⟨h.tidy, h.grants⟩

section
variable {α : Type} {P : World σ → Prop} {Q : α → World σ → Prop} {m : Hook σ α}

theorem Threadless.setInHook (hP : Threadless P) (b : Bool) : Triple P (setInHook b) fun _ => P := by
  intro w hw
  obtain ⟨th, -, e⟩ := exec_setInHook b w
  rw [e]
  exact hP w th hw

theorem Threadless.rtlHookScope (hP : Threadless P) (hQ : ∀ a, Threadless (Q a)) (hm : Triple P m Q) :
    Triple P (rtlHookScope m) Q := fun w hw => hQ _ _ _ (hm _ (hP w _ hw))

theorem Threadless.proxyHeapHookScope (hP : Threadless P) (hQ : ∀ a, Threadless (Q a)) (hm : Triple P m Q) :
    Triple P (proxyHeapHookScope m) Q := by
  intro w hw
  obtain ⟨th, th', e⟩ := exec_proxyHeapHookScope m w
  rw [e]
  exact hQ _ _ _ (hm _ (hP w th hw))

/-- `SetInHook(false); return p;` -/
theorem Threadless.leave {a : α} (hQ : Threadless (Q a)) : Triple (Q a) (do Ts3Vas.setInHook false; return a) Q :=
  (hQ.setInHook false).bind fun _ => .pure fun _ h => h

end

/-! ## The allocation hooks -/

/-- A shard that holds a block is the block's heap. -/
theorem Tidy.shard_block {os : σ} {t : Tool} (h : Tidy v os t) {s : Shard} (hs : proxyHeapShardOf t p = some s) {b : Owner × ℕ}
    (hb : (v.snapshot os t.tables.allocations).block p = some b) :
    s ∈ t.shards ∧ s.Holds p ∧ v.block os p = some (s.handle, b.2) := by
  unfold proxyHeapShardOf at hs
  split at hs
  · cases hs
  have hmem : s ∈ t.shards := List.mem_of_find?_eq_some hs
  have hold : s.Holds p := by simpa [Shard.Holds] using List.find?_some hs
  refine ⟨hmem, hold, ?_⟩
  obtain ⟨o, n⟩ := b
  rcases View.snapshot_cases hb with ⟨handle, -, hb⟩ | ⟨-, -, r, hr, -⟩
  · rw [hb, h.homes.own p handle n hb s hmem p (touches_self p n) hold]
  · exact absurd hold ((h.records p r hr).2.clear s hmem)

/-- Any heap, for what is said of a block alone. -/
abbrev Anyone : Owner → Prop := fun _ => True

namespace Genuine

theorem asked (h : Genuine env v) {c : RealCall} (hl : ∀ os t, c.Legit v os t)
    (hs : ∀ t r s s', c.Served t r s s' → Grants (Owner.Found t heap) n r s s') :
    Triple (Since v S) (Ts3Vas.callValue env c) (Got v S Anyone n) := by
  rintro w ⟨ht, hS⟩
  obtain ⟨ht', hg⟩ := h.callValue ht (hl _ _)
  exact ⟨ht', .after hS ((hs _ _ _ _ hg).mono fun _ _ => trivial)⟩

theorem rtlAllocateHeap (h : Genuine env v) (heap flags size : ℕ) :
    Triple (Since v S) (Ts3Vas.callValue env (.rtlAllocateHeap heap flags size)) (Got v S Anyone size) :=
  h.asked (fun _ _ => trivial) fun _ _ _ _ hg => hg

theorem heapAlloc (h : Genuine env v) (heap flags size : ℕ) :
    Triple (Since v S) (Ts3Vas.callValue env (.heapAlloc heap flags size)) (Got v S Anyone size) :=
  h.asked (fun _ _ => trivial) fun _ _ _ _ hg => hg

/-- Each handle of the round robin is asked in turn. -/
theorem proxyHeapTry (h : Genuine env v) (flags size : ℕ) (start : ℤ) (n : ℕ) : ∀ ks : List ℕ,
    Triple (Since v S) (proxyHeapTry env flags size start n ks) (Got v S Anyone size)
  | [] => .pure fun _ hw => hw.null _ _
  | k :: ks => by
    have ih := h.proxyHeapTry flags size start n ks
    refine .get fun w hw => .ite (fun _ => ?_) fun _ => ih.here hw
    refine ((h.rtlAllocateHeap _ _ size).here hw).bind fun p => ?_
    exact .ite (fun _ => .pure fun _ hg => hg) fun _ => ih.mono (fun _ hg => hg.since) fun _ _ hg => hg

theorem proxyHeapAlloc (h : Genuine env v) (flags size : ℕ) :
    Triple (Since v S) (proxyHeapAlloc env flags size) (Got v S Anyone size) := by
  refine .get fun w hw => .ite (fun _ => .pure fun _ e => e ▸ hw.null _ _) fun _ => ?_
  refine (threadless_since.proxyHeapHookScope (fun _ => threadless_got _ _ _) ?_).here hw
  refine Triple.bind (Q := fun _ => Since v S) ?_ fun _ => .get fun u hu => (h.proxyHeapTry flags size _ _ _).here hu
  rintro u ⟨ht, hS⟩
  exact ⟨ht.of_eq rfl rfl rfl rfl rfl, hS⟩

/-- The probe asks the heap of the shard about its own block. -/
theorem probeSardineLoss (h : Genuine env v) {P : Owner → Prop} (hp : p ≠ 0) :
    Triple (Got v S P n p) (probeSardineLoss env p) fun _ => Got v S P n p := by
  refine .get fun w hw => .ite (fun _ => ?_) fun _ => .pure fun _ e => e ▸ hw
  rintro w rfl
  show Got v S P n p (exec (proxyHeapSize env 0 p) w).2
  unfold proxyHeapSize
  rw [exec_bind, exec_get]
  cases hs : proxyHeapShardOf w.tool p with
  | none => exact hw
  | some s =>
    dsimp only
    rw [exec_ite]
    split
    · obtain ⟨i, -, hb⟩ := hw.grants.granted hp
      obtain ⟨-, -, hblock⟩ := hw.tidy.shard_block hs hb
      obtain ⟨th, th', e⟩ := exec_proxyHeapHookScope (Ts3Vas.callValue env (.heapSize s.handle (dropNoSerialize 0) p)) w
      obtain ⟨ht', hspare, -⟩ := h.callValue (w := { w with thread := th }) (c := .heapSize s.handle (dropNoSerialize 0) p)
        hw.tidy ⟨_, hblock⟩
      rw [e]
      exact ⟨ht', hw.grants.before hspare⟩
    · exact hw

theorem since_activateProxy : Triple (Since v S) (activateProxy : Hook σ Unit) fun _ => Since v S := by
  rintro w ⟨ht, hS⟩
  show Since v S { w with tool := if _ then _ else _ }
  split
  · exact ⟨ht, hS⟩
  · exact ⟨ht.of_eq rfl rfl rfl rfl rfl, hS⟩

theorem since_onlyIf {c : Prop} [Decidable c] {m : Hook σ Unit} (hm : Triple (Since v S) m fun _ => Since v S) :
    Triple (Since v S) (onlyIf c m) fun _ => Since v S := .ite (fun _ => hm) fun _ => .pure fun _ h => h

theorem captured (h : Genuine env v) (caller : Caller) (size protect : ℕ) :
    Triple (Since v S) (Ts3Vas.createProxyAllocation env caller size protect) (Got v S Anyone size) :=
  (h.createProxyAllocation caller size protect).mono (fun _ hw => hw)
    fun _ _ hg => ⟨hg.tidy, hg.grants.mono fun _ _ => trivial⟩

theorem corralCapture (h : Genuine env v) (caller : Caller) (size : ℕ) :
    Triple (Since v S) (corralCapture env caller size) (Got v S Anyone size) := by
  refine .get fun w hw => .ite (fun _ => ?_) fun _ => .pure fun _ e => e ▸ hw.null _ _
  refine ((since_onlyIf since_activateProxy).here hw).bind fun _ => .get fun u hu => ?_
  exact .ite (fun _ => (h.captured caller size _).here hu) fun _ => .pure fun _ e => e ▸ hu.null _ _

theorem arenaCapture (h : Genuine env v) (caller : Caller) (size : ℕ) :
    Triple (Since v S) (arenaCapture env caller size) (Got v S Anyone size) := by
  refine .get fun w hw => .ite (fun _ => ?_) fun _ => .pure fun _ e => e ▸ hw.null _ _
  refine ((since_onlyIf since_activateProxy).here hw).bind fun _ => .get fun u hu => ?_
  exact .ite (fun _ => (h.captured caller size _).here hu) fun _ => .pure fun _ e => e ▸ hu.null _ _

theorem hookedRtlAllocateHeap (h : Genuine env v) (caller : Caller) (heap flags size : ℕ) :
    Triple (Since v S) (hookedRtlAllocateHeap env caller heap flags size) (Got v S Anyone size) := by
  have hreal := h.rtlAllocateHeap (S := S) heap flags size
  have hleave : ∀ p, Triple (Got v S Anyone size p) (do Ts3Vas.setInHook false; return p) (Got v S Anyone size) :=
    fun p => (threadless_got _ _ p).leave
  refine .get fun w hw => .ite (fun _ => hreal.here hw) fun _ => ?_
  refine (threadless_since.rtlHookScope (fun _ => threadless_got _ _ _) ?_).here hw
  refine (threadless_since.setInHook true).bind fun _ => ?_
  refine (h.corralCapture caller size).bind fun p => .ite (fun _ => hleave p) fun _ => .get fun u hu => ?_
  refine Triple.bind (Q := Got v S Anyone size) ?_ fun p => .ite (fun hp => ?_) fun _ => ?_
  · exact .ite (fun _ => (h.proxyHeapAlloc flags size).here hu.since) fun _ => .pure fun _ e => e ▸ hu.since.null _ _
  · exact (h.probeSardineLoss hp).bind fun _ => hleave p
  refine ((h.arenaCapture caller size).mono (fun _ hg => hg.since) fun _ _ hg => hg).bind fun p => .ite (fun _ => hleave p) fun _ => ?_
  exact (hreal.mono (fun _ hg => hg.since) fun _ _ hg => hg).bind fun r => hleave r

/-- `if (!p) p = …;` -/
theorem orElse {m : Hook σ ℕ} (hm : Triple (Since v S) m (Got v S Anyone n)) (p : ℕ) :
    Triple (Got v S Anyone n p) (orElse p m) (Got v S Anyone n) :=
  .ite (fun _ => hm.mono (fun _ hg => hg.since) fun _ _ hg => hg) fun _ => .pure fun _ hg => hg

theorem hookedHeapAlloc (h : Genuine env v) (caller : Caller) (heap flags size : ℕ) :
    Triple (Since v S) (hookedHeapAlloc env caller heap flags size) (Got v S Anyone size) := by
  have hreal := h.heapAlloc (S := S) heap flags size
  refine .get fun w hw => .ite (fun _ => ?_) fun _ => ?_
  · exact .ite (fun _ => hreal.here hw) fun _ => .pure fun _ e => e ▸ hw.null _ _
  refine (threadless_since.rtlHookScope (fun _ => threadless_got _ _ _) ?_).here hw
  refine (threadless_since.setInHook true).bind fun _ => .get fun u hu => ?_
  refine Triple.bind (Q := Got v S Anyone size) ?_ fun p => ?_
  · exact .ite (fun _ => (h.proxyHeapAlloc flags size).here hu) fun _ => .pure fun _ e => e ▸ hu.null _ _
  refine Triple.bind (Q := fun _ => Got v S Anyone size p) ?_ fun _ => .get fun u hu => ?_
  · exact .ite (fun hp => h.probeSardineLoss hp) fun _ => .pure fun _ hg => hg
  refine Triple.bind (Q := Got v S Anyone size) ((orElse ?_ p).here hu) fun p => ?_
  · exact .ite (fun _ => h.captured caller size _) fun _ => .pure fun _ hu => hu.null _ _
  exact (orElse hreal p).bind fun p => (threadless_got _ _ p).leave

end Genuine

/-! ## The free hooks -/

/-- What a program may hand to a hook that is called on the heap: an arena address that is no shard's,
or a block of that heap or of a shard. -/
def Reached (v : View σ) (os : σ) (t : Tool) (heap p : ℕ) : Prop :=
  (isProxyAddress t p = true ∧ Clear t.shards p) ∨ ∃ o n, v.block os p = some (o, n) ∧ Owner.Found t heap (.heap o)

/-- The hooks see from the address whose block it is. -/
theorem Tidy.reached_cases {os : σ} {t : Tool} (h : Tidy v os t) (hp : Reached v os t heap p) : p ≠ 0 ∧
    ((∃ s n, proxyHeapShardOf t p = some s ∧ s ∈ t.shards ∧ v.block os p = some (s.handle, n)) ∨
      (proxyHeapShardOf t p = none ∧ isProxyAddress t p = true ∧ Clear t.shards p) ∨
      (proxyHeapShardOf t p = none ∧ isProxyAddress t p = false ∧ ∃ n, v.block os p = some (heap, n))) := by
  have hclear : ∀ q, Clear t.shards q → proxyHeapShardOf t q = none := by
    intro q hq
    unfold proxyHeapShardOf
    split
    · rfl
    · exact List.find?_eq_none.2 fun s hs => by simpa [Shard.Holds] using hq s hs
  rcases hp with ⟨hin, hc⟩ | ⟨o, n, hb, ho⟩
  · exact ⟨h.sheltered.sound.ne_zero hin, .inr (.inl ⟨hclear p hc, hin, hc⟩)⟩
  · refine ⟨h.homes.nonzero p _ hb, ?_⟩
    cases hs : proxyHeapShardOf t p with
    | some s =>
      obtain ⟨hmem, -, hb'⟩ := h.shard_block hs (View.snapshot_heap _ hb)
      exact .inl ⟨s, n, rfl, hmem, hb'⟩
    | none =>
      have hc : Clear t.shards p := by
        intro s hmem hold
        unfold proxyHeapShardOf at hs
        rw [if_neg (h.homes.nonzero p _ hb)] at hs
        have := List.find?_eq_none.1 hs s hmem
        simp [hold.1, hold.2] at this
      -- a shard's heap has its blocks in shards
      have hnot : o ∉ t.shards.map (·.handle) := by
        intro hm
        obtain ⟨s, hmem, hold⟩ := h.homes.inShard p o n hb hm p (touches_self p n)
        exact hc s hmem hold
      refine .inr (.inr ⟨rfl, h.homes.outside p o n hb hnot p (touches_self p n), n, ?_⟩)
      rw [hb, ho.resolve_right hnot]

namespace Genuine

/-- A captured block is freed with its record, its pages and its slot. -/
theorem freeProxyAllocation (h : Genuine env v) (ht : Tidy v w.os w.tool) {r : ProxyAllocRecord}
    (hr : w.tool.tables.allocations.lookup p = some r) :
    Tidy v (exec (freeProxyAllocation env p) w).2.os (exec (freeProxyAllocation env p) w).2.tool ∧
      Frees p (v.seen w) (v.seen (exec (freeProxyAllocation env p) w).2) := by
  obtain ⟨hbase, hslot⟩ := ht.records p r hr
  obtain ⟨ht₁, hf⟩ := ht.take hr
  have hin : isProxyAddress w.tool p = true := hslot.isProxyAddress ht.sheltered.sound
  have hslot₁ : Slotted { w.tool with tables := (w.tool.tables.take p .allocations).2 } ⟨p, r.proxySize⟩ :=
    ⟨hslot.live, hslot.clear, hslot.positive, hslot.top⟩
  have hnone : (w.tool.tables.take p .allocations).2.allocations.lookup p = none := AList.lookup_erase _ _
  have hlegit : RealCall.Legit v w.os { w.tool with tables := (w.tool.tables.take p .allocations).2 }
      (.virtualFree r.proxyBase r.proxySize MEM_DECOMMIT) := by
    refine ⟨rfl, hslot.positive, fun q b hb x hx hpages => ?_⟩
    rw [hbase] at hpages
    exact ht₁.not_in_slot hslot₁ hnone hb hx (hslot₁.pages ht.sheltered.sound hpages)
  obtain ⟨e, ht₂, hcase⟩ := h.forward 0 (w := { w with tool := { w.tool with tables := (w.tool.tables.take p .allocations).2 } })
    (c := .virtualFree r.proxyBase r.proxySize MEM_DECOMMIT) ht₁ hlegit
  unfold Ts3Vas.freeProxyAllocation
  rw [exec_bind, exec_get, exec_ite, if_pos hin, exec_bind]
  have htake : exec (takeRecord p .allocations) w =
      (some r, { w with tool := { w.tool with tables := (w.tool.tables.take p .allocations).2 } }) := Prod.ext hr rfl
  rw [htake]
  dsimp only
  rw [exec_bind, exec_bind, exec_arenaFree, exec_pure, decommitSlot]
  generalize exec (Ts3Vas.forward env (.virtualFree r.proxyBase r.proxySize MEM_DECOMMIT) 0)
    { w with tool := { w.tool with tables := (w.tool.tables.take p .allocations).2 } } = u at *
  obtain ⟨c, u⟩ := u
  dsimp only at e ht₂ hcase ⊢
  have hspare : Spares ∅ (v.snapshot w.os (w.tool.tables.take p .allocations).2.allocations)
      (v.snapshot u.os (w.tool.tables.take p .allocations).2.allocations) := by
    rcases hcase with ⟨-, hu⟩ | ⟨-, hs⟩
    · cases hu
      exact .refl _ _
    · have hs' : Spares ∅ _ (v.snapshot u.os u.tool.tables.allocations) := hs
      rw [e] at hs'
      exact hs'
  rw [e]
  refine ⟨ht₂.free hslot₁ hnone, hf.spares.trans hspare.weaken, ?_⟩
  have hb : v.block u.os p = none := (ht₂.block_none hslot₁ :)
  simp [View.snapshot, hb, hnone]

/-- Without a record nothing is freed. -/
theorem freeProxyAllocation_none (env : Env σ) (ht : Tidy v w.os w.tool) (hr : w.tool.tables.allocations.lookup p = none) :
    Tidy v (exec (Ts3Vas.freeProxyAllocation env p) w).2.os (exec (Ts3Vas.freeProxyAllocation env p) w).2.tool ∧
      v.seen (exec (Ts3Vas.freeProxyAllocation env p) w).2 = v.seen w := by
  unfold Ts3Vas.freeProxyAllocation
  rw [exec_bind, exec_get, exec_ite]
  split
  · have htake : exec (takeRecord p .allocations) w =
        (none, { w with tool := { w.tool with tables := (w.tool.tables.take p .allocations).2 } }) := Prod.ext hr rfl
    have herase : w.tool.tables.allocations.erase p = w.tool.tables.allocations :=
      AList.ext (List.kerase_of_notMem_keys (AList.lookup_eq_none.1 hr))
    rw [exec_bind, htake]
    refine ⟨ht.of_eq rfl rfl rfl rfl herase, ?_⟩
    show v.snapshot w.os (w.tool.tables.allocations.erase p) = _
    rw [herase]
  · exact ⟨ht, rfl⟩

/-- A free takes the block at the address, if there is one, and no other. -/
theorem freed (h : Genuine env v) (ht : Tidy v w.os w.tool) (p : ℕ) :
    Tidy v (exec (Ts3Vas.freeProxyAllocation env p) w).2.os (exec (Ts3Vas.freeProxyAllocation env p) w).2.tool ∧
      Spares {p} (v.seen w) (v.seen (exec (Ts3Vas.freeProxyAllocation env p) w).2) := by
  cases hr : w.tool.tables.allocations.lookup p with
  | some r =>
    obtain ⟨ht', hf⟩ := h.freeProxyAllocation ht hr
    exact ⟨ht', hf.spares⟩
  | none =>
    obtain ⟨ht', e⟩ := freeProxyAllocation_none env ht hr
    exact ⟨ht', e ▸ .refl _ _⟩

/-- A shard frees its own block. -/
theorem proxyHeapFree (h : Genuine env v) (ht : Tidy v w.os w.tool) {s : Shard} (hs : proxyHeapShardOf w.tool p = some s)
    (hmem : s ∈ w.tool.shards) (hb : v.block w.os p = some (s.handle, n)) (flags : ℕ) :
    (exec (proxyHeapFree env flags p) w).1 = true ∧
      Tidy v (exec (proxyHeapFree env flags p) w).2.os (exec (proxyHeapFree env flags p) w).2.tool ∧
      Frees p (v.seen w) (v.seen (exec (proxyHeapFree env flags p) w).2) := by
  obtain ⟨h0, halive⟩ := h.alive w.os w.tool ht s hmem p n hb
  have hlive : shardHandleLive env s.handle w = true := by simp [shardHandleLive, h0, halive]
  unfold Ts3Vas.proxyHeapFree
  rw [exec_bind, exec_get, hs]
  dsimp only
  rw [if_pos hlive]
  obtain ⟨th, th', e⟩ := exec_proxyHeapHookScope (do
    let _ ← Ts3Vas.call env (.rtlFreeHeap s.handle (dropNoSerialize flags) p)
    return true) w
  obtain ⟨ht', hf⟩ := h.call (w := { w with thread := th }) (c := .rtlFreeHeap s.handle (dropNoSerialize flags) p) ht ⟨n, hb⟩
  rw [e]
  exact ⟨rfl, ht', hf⟩

theorem proxyHeapFree_none (hs : proxyHeapShardOf w.tool p = none) : exec (Ts3Vas.proxyHeapFree env flags p) w = (false, w) := by
  unfold Ts3Vas.proxyHeapFree
  rw [exec_bind, exec_get, hs]
  rfl

/-- `HeapFree` takes the block and no other. -/
theorem hookedHeapFree (h : Genuine env v) (ht : Tidy v w.os w.tool) (hp : Reached v w.os w.tool heap p) (flags : ℕ) :
    Tidy v (exec (hookedHeapFree env heap flags p) w).2.os (exec (hookedHeapFree env heap flags p) w).2.tool ∧
      Spares {p} (v.seen w) (v.seen (exec (hookedHeapFree env heap flags p) w).2) := by
  unfold Ts3Vas.hookedHeapFree
  rw [exec_bind]
  obtain ⟨h0, ⟨s, n, hs, hmem, hb⟩ | ⟨hs, hin, -⟩ | ⟨hs, hout, n, hb⟩⟩ := ht.reached_cases hp
  · obtain ⟨htrue, ht', hf⟩ := h.proxyHeapFree ht hs hmem hb flags
    rw [htrue, if_pos rfl]
    exact ⟨ht', hf.spares⟩
  · rw [proxyHeapFree_none hs, if_neg Bool.false_ne_true, exec_bind, exec_get, if_pos (by simp [h0, ht.memManager, hin])]
    exact h.freed ht p
  · rw [proxyHeapFree_none hs, if_neg Bool.false_ne_true, exec_bind, exec_get, if_neg (by simp [hout])]
    obtain ⟨e, ht', ⟨-, hu⟩ | ⟨-, hf⟩⟩ := h.forward 0 (c := .heapFree heap flags p) ht ⟨n, hb⟩
    · rw [hu]
      exact ⟨ht, .refl _ _⟩
    · rw [e]
      exact ⟨ht', hf.spares⟩

theorem hookedRtlFreeHeap (h : Genuine env v) (ht : Tidy v w.os w.tool) (hp : p = 0 ∨ Reached v w.os w.tool heap p)
    (flags : ℕ) :
    Tidy v (exec (hookedRtlFreeHeap env heap flags p) w).2.os (exec (hookedRtlFreeHeap env heap flags p) w).2.tool ∧
      Spares {p} (v.seen w) (v.seen (exec (hookedRtlFreeHeap env heap flags p) w).2) := by
  unfold Ts3Vas.hookedRtlFreeHeap
  by_cases hz : p = 0
  · rw [if_pos hz]
    exact ⟨ht, .refl _ _⟩
  rw [if_neg hz, exec_bind]
  obtain ⟨-, ⟨s, n, hs, hmem, hb⟩ | ⟨hs, hin, -⟩ | ⟨hs, hout, n, hb⟩⟩ := ht.reached_cases (hp.resolve_left hz)
  · obtain ⟨htrue, ht', hf⟩ := h.proxyHeapFree ht hs hmem hb flags
    rw [htrue, if_pos rfl]
    exact ⟨ht', hf.spares⟩
  · rw [proxyHeapFree_none hs, if_neg Bool.false_ne_true, exec_bind, exec_get, if_pos (by simp [ht.memManager, hin])]
    exact h.freed ht p
  · have hlegit : RealCall.Legit v w.os w.tool (.rtlFreeHeap heap flags p) := ⟨n, hb⟩
    rw [proxyHeapFree_none hs, if_neg Bool.false_ne_true, exec_bind, exec_get, if_neg (by simp [hout]), exec_ite]
    split
    · obtain ⟨ht', hf⟩ := h.callValue ht hlegit
      exact ⟨ht', hf.spares⟩
    · obtain ⟨th, th', -, e⟩ := exec_scoped (Ts3Vas.callValue env (.rtlFreeHeap heap flags p)) w
      obtain ⟨ht', hf⟩ := h.callValue (w := { w with thread := th }) ht hlegit
      rw [e]
      exact ⟨ht', hf.spares⟩

end Genuine

/-! ## Copies -/

/-- The record that is found for a captured block is its own. -/
theorem Tidy.findRecordByAddress {os : σ} {t : Tool} (h : Tidy v os t) {r : ProxyAllocRecord}
    (hr : t.tables.allocations.lookup p = some r) : t.tables.allocations.findRecordByAddress p = some r := by
  have hs := h.sheltered.sound
  have hslot := (h.records p r hr).2
  -- no other record has `p` in its range
  have honly : ∀ e ∈ t.tables.allocations.entries.filter (fun e => decide (e.1 ≤ p ∧ p < ptrAdd e.1 e.2.proxySize)),
      e = ⟨p, r⟩ := by
    rintro ⟨q, r'⟩ he
    obtain ⟨hmem, hdec⟩ := List.mem_filter.1 he
    have hin : q ≤ p ∧ p < (q + r'.proxySize) % 2 ^ 32 := of_decide_eq_true hdec
    have hq : t.tables.allocations.lookup q = some r' := AList.mem_lookup_iff.2 hmem
    have hslot' := (h.records q r' hq).2
    by_cases hqp : q = p
    · subst hqp
      rw [hr] at hq
      cases hq
      rfl
    · have hne : (⟨q, r'.proxySize⟩ : Slot) ≠ ⟨p, r.proxySize⟩ := fun e => hqp (congrArg Slot.addr e)
      refine absurd (hslot.touches hs (touches_self _ _)) (hs.apart hslot'.live hslot.live hne p (hslot'.touches hs ?_))
      exact touches_of_lt hin.1 (hin.2.trans_le (Nat.mod_le _ _))
  have hself : (⟨p, r⟩ : Sigma fun _ : ℕ => ProxyAllocRecord) ∈
      t.tables.allocations.entries.filter (fun e => decide (e.1 ≤ p ∧ p < ptrAdd e.1 e.2.proxySize)) := by
    refine List.mem_filter.2 ⟨AList.mem_lookup_iff.1 hr, decide_eq_true ⟨le_rfl, ?_⟩⟩
    have hlt := (hs.inArena hslot.live).hi_lt hs.books.placed.top_lt
    have hb := alignUp_bounds hs.books.placed.gran (hs.noWrap hslot.live hslot.top)
    have hpos := hslot.positive
    simp only [Slot.span] at hlt hb hpos
    show p < (p + r.proxySize) % 2 ^ 32
    rw [Nat.mod_eq_of_lt (by omega)]
    omega
  unfold Allocations.findRecordByAddress
  cases hm : (t.tables.allocations.entries.filter fun e => decide (e.1 ≤ p ∧ p < ptrAdd e.1 e.2.proxySize)).argmin Sigma.fst with
  | none =>
    rw [List.argmin_eq_none.1 hm] at hself
    cases hself
  | some e =>
    rw [honly e (List.argmin_mem hm)]
    rfl

/-- Bytes may change where memory stays committed. -/
theorem Tidy.overwritten {os os' : σ} {t : Tool} (h : Tidy v os t) (hb : v.block os' = v.block os)
    (hc : ∀ x, (v.contents os' x).isSome = (v.contents os x).isSome) : Tidy v os' t := by
  have hsame : (v.snapshot os' t.tables.allocations).block = (v.snapshot os t.tables.allocations).block := by
    simp only [View.snapshot, hb]
  refine ⟨h.memManager, h.heapSize, h.sheltered, h.records, ?_, ?_⟩
  · exact ⟨hb ▸ h.homes.nonzero, hb ▸ h.homes.small, hb ▸ h.homes.own, hb ▸ h.homes.inShard, hb ▸ h.homes.outside⟩
  · constructor
    · rw [hsame]
      exact h.formed.apart
    · rintro q b hq x hx hx'
      rw [hsame] at hq
      exact (hc x).trans (h.formed.committed q b hq x hx hx')

namespace Genuine

/-- A copy from a block to a block. -/
theorem copied (h : Genuine env v) {os : σ} {t : Tool} (ht : Tidy v os t) {b c : Owner × ℕ}
    (hq : (v.snapshot os t.tables.allocations).block q = some b) (hp : (v.snapshot os t.tables.allocations).block p = some c)
    (hb : n ≤ b.2) (hc : n ≤ c.2) : Tidy v (env.memcpy q p n os) t ∧
      v.block (env.memcpy q p n os) = v.block os ∧
      Spares {q} (v.snapshot os t.tables.allocations) (v.snapshot (env.memcpy q p n os) t.tables.allocations) ∧
      (q ≠ p → Copies q p n (v.snapshot os t.tables.allocations) (v.snapshot (env.memcpy q p n os) t.tables.allocations)) := by
  have hcommitted : ∀ k < n, (v.contents os (p + k)).isSome := by
    intro k hk
    exact ht.formed.committed p c hp _ (by omega) (by omega)
  obtain ⟨hblock, hsome, hothers⟩ := h.writes q p n os t b ht hq hb hcommitted
  have hsame : (v.snapshot (env.memcpy q p n os) t.tables.allocations).block = (v.snapshot os t.tables.allocations).block := by
    simp only [View.snapshot, hblock]
  refine ⟨ht.overwritten hblock hsome, hblock, ?_, fun hne => ⟨hsame, ?_, hothers⟩⟩
  · rintro u hu d hd
    refine ⟨hsame ▸ hd, fun x hx hx' => hothers x fun hin => ?_⟩
    refine ht.formed.apart q u b d hq hd (Ne.symm hu) x ?_ (touches_of_lt hx hx')
    exact touches_of_lt hin.1 (by omega)
  · refine h.memcpy q p n os t b ht hq hb hcommitted fun j hj k hk e => ?_
    apply ht.formed.apart q p b c hq hp hne (q + j) (touches_of_lt (by omega) (by omega))
    exact touches_of_lt (by omega) (by omega)

/-- What is recorded for a slot is copied to a new block, if anything is. -/
theorem copyRecorded (h : Genuine env v) (ht : Tidy v w.os w.tool) {i : Owner} (hq : (v.seen w).block q = some (i, size)) (p : ℕ) :
    (exec (copyRecorded env q p size) w).2.tool = w.tool ∧
      Tidy v (exec (Ts3Vas.copyRecorded env q p size) w).2.os w.tool ∧
      v.block (exec (Ts3Vas.copyRecorded env q p size) w).2.os = v.block w.os ∧
      Spares {q} (v.seen w) (v.seen (exec (Ts3Vas.copyRecorded env q p size) w).2) ∧
      ∀ r, w.tool.tables.allocations.lookup p = some r → q ≠ p →
        Copies q p (min r.proxySize size) (v.seen w) (v.seen (exec (Ts3Vas.copyRecorded env q p size) w).2) := by
  unfold Ts3Vas.copyRecorded
  rw [exec_bind, exec_get]
  cases hf : w.tool.tables.allocations.findRecordByAddress p with
  | none =>
    refine ⟨rfl, ht, rfl, .refl _ _, fun r hr _ => ?_⟩
    rw [ht.findRecordByAddress hr] at hf
    cases hf
  | some r =>
    -- a record that is found is one of a block
    obtain ⟨a, ha⟩ : ∃ a, w.tool.tables.allocations.lookup a = some r := by
      unfold Allocations.findRecordByAddress at hf
      obtain ⟨e, he, rfl⟩ := Option.map_eq_some_iff.1 hf
      exact ⟨e.1, AList.mem_lookup_iff.2 (List.mem_filter.1 (List.argmin_mem he)).1⟩
    obtain ⟨hbase, hslot⟩ := ht.records a r ha
    have hblock := ht.snapshot_record ha
    obtain ⟨ht', hb, hs, hc⟩ := h.copied ht hq hblock (Nat.min_le_right r.proxySize size) (Nat.min_le_left r.proxySize size)
    have hsame : ∀ r', w.tool.tables.allocations.lookup p = some r' → p = a ∧ r' = r := by
      intro r' hr'
      rw [ht.findRecordByAddress hr'] at hf
      cases hf
      exact ⟨(ht.records p r hr').1.symm.trans hbase, rfl⟩
    dsimp only
    rw [exec_ite]
    split
    · rw [hbase]
      refine ⟨rfl, ht', hb, hs, fun r' hr' hne => ?_⟩
      obtain ⟨rfl, rfl⟩ := hsame r' hr'
      exact hc hne
    · rename_i hno
      refine ⟨rfl, ht, rfl, .refl _ _, fun r' hr' _ => ?_⟩
      obtain ⟨rfl, rfl⟩ := hsame r' hr'
      -- only a request of no bytes copies nothing
      have hpos := hslot.positive
      have hz : min r'.proxySize size = 0 := by
        by_contra hne
        refine hno ⟨?_, hpos, by omega⟩
        rw [hbase]
        exact ht.sheltered.sound.ne_zero (hslot.isProxyAddress ht.sheltered.sound)
      rw [hz]
      exact .none _ _ _

end Genuine

/-! ## The reallocation hooks -/

/-- Where a block that a hook has handed out lies: with a heap, or at an arena address that is no shard's. -/
def Lies (v : View σ) (os : σ) (t : Tool) (p n : ℕ) : Prop :=
  (∃ o, v.block os p = some (o, n)) ∨ (isProxyAddress t p = true ∧ Clear t.shards p)

theorem Tidy.lies {os : σ} {t : Tool} (h : Tidy v os t) {o : Owner} (hb : (v.snapshot os t.tables.allocations).block p = some (o, n)) :
    Lies v os t p n := by
  rcases View.snapshot_cases hb with ⟨handle, -, hb⟩ | ⟨-, -, r, hr, -⟩
  · exact .inl ⟨handle, hb⟩
  · have hslot := (h.records p r hr).2
    exact .inr ⟨hslot.isProxyAddress h.sheltered.sound, hslot.clear⟩

/-- A heap has no block where a slot may be. -/
theorem Homes.block_none {os : σ} {t : Tool} (h : Homes v os t) (hin : isProxyAddress t p = true) (hc : Clear t.shards p) :
    v.block os p = none := by
  cases hb : v.block os p with
  | none => rfl
  | some b =>
    by_cases hm : b.1 ∈ t.shards.map (·.handle)
    · obtain ⟨s, hmem, hold⟩ := h.inShard p b.1 b.2 hb hm p (touches_self p _)
      exact absurd hold (hc s hmem)
    · rw [h.outside p b.1 b.2 hb hm p (touches_self p _)] at hin
      cases hin

theorem Fixed.found {t t' : Tool} (h : Fixed t t') {o : Owner} (ho : Owner.Found t' heap o) : Owner.Found t heap o := by
  cases o with
  | arena => trivial
  | heap handle =>
    unfold Owner.Found at ho ⊢
    rwa [h.shards] at ho

/-- What a reallocation hook on `heap` has done with the block at `p`, returning `r`. Null leaves a block
of a heap as it was. -/
structure ReAlloced (v : View σ) (heap p size r : ℕ) (w w' : World σ) : Prop where
  tidy : Tidy v w'.os w'.tool
  spares : Spares {p} (v.seen w) (v.seen w')
  survives : r = 0 → ∀ b, v.block w.os p = some b → v.block w'.os p = some b
  resizes : r ≠ 0 → ∀ b, (v.seen w).block p = some b → Resizes (Owner.Found w.tool heap) p size r (v.seen w) (v.seen w')
  lies : r ≠ 0 → Lies v w'.os w'.tool r size

/-- A block that a heap or a capture resizes, or that stays as it was. -/
theorem Tidy.reAlloced {r : ℕ} {w w' : World σ} {P : Owner → Prop} (h : Tidy v w'.os w'.tool)
    (hP : ∀ i, P i → Owner.Found w.tool heap i) (hz : r = 0 → Spares ∅ (v.seen w) (v.seen w'))
    (hr : r ≠ 0 → Resizes P p size r (v.seen w) (v.seen w')) : ReAlloced v heap p size r w w' := by
  constructor
  · exact h
  · by_cases h0 : r = 0
    · exact (hz h0).weaken
    · exact (hr h0).spares
  · rintro h0 b hb
    exact View.block_of_snapshot ((hz h0).block (View.snapshot_heap _ hb))
  · rintro h0 b -
    exact (hr h0).mono hP
  · intro h0
    obtain ⟨i, -, hi⟩ := (hr h0).granted
    exact h.lies hi

/-- The block at `p` is now one of the arena at `r`, or there is no slot for it. -/
structure Forced (v : View σ) (S : Snapshot Owner) (p n r : ℕ) (w : World σ) : Prop where
  tidy : Tidy v w.os w.tool
  null : r = 0 → Spares ∅ S (v.seen w)
  moved : r ≠ 0 → Resizes (· = Owner.arena) p n r S (v.seen w)

namespace Genuine

/-- The block that a slot is given up for. -/
theorem replacement (h : Genuine env v) (ht : Tidy v w.os w.tool) {fallback : RealCall} (hl : ∀ os t, fallback.Legit v os t)
    (hs : ∀ t r s s', fallback.Served t r s s' → Grants (Owner.Found t heap) size r s s') (caller : Caller) (c : Bool) :
    Triple (fun u => u = w) (do
      let q ← attempt c (Ts3Vas.createProxyAllocation env caller size PAGE_READWRITE)
      Ts3Vas.orElse q (Ts3Vas.callValue env fallback)) (Got v (v.seen w) (Owner.Found w.tool heap) size) := by
  rintro w rfl
  have hfix : World.Fixed w (exec (attempt c (Ts3Vas.createProxyAllocation env caller size PAGE_READWRITE)) w).2 :=
    Atoms.attempt (h.settled.atoms.createProxyAllocation (fun _ _ _ _ => trivial) caller size PAGE_READWRITE) w
  have hgot : Got v (v.seen w) (· = Owner.arena) size
      (exec (attempt c (Ts3Vas.createProxyAllocation env caller size PAGE_READWRITE)) w).1
      (exec (attempt c (Ts3Vas.createProxyAllocation env caller size PAGE_READWRITE)) w).2 := by
    rw [Ts3Vas.attempt, exec_ite]
    split
    · exact h.createProxyAllocation caller size PAGE_READWRITE w ⟨ht, .refl _ _⟩
    · exact Since.null ⟨ht, .refl _ _⟩ _ _
  rw [exec_bind, Ts3Vas.orElse, exec_ite]
  split
  · obtain ⟨ht', hg⟩ := h.callValue hgot.tidy (hl _ _)
    exact ⟨ht', .after hgot.grants.spares ((hs _ _ _ _ hg).mono fun o ho => hfix.found ho)⟩
  · exact ⟨hgot.tidy, hgot.grants.mono fun o ho => ho ▸ trivial⟩

/-- A slot is given up: its contents move first, if there is a block for them. -/
theorem arenaReAlloc (h : Genuine env v) (ht : Tidy v w.os w.tool) (hin : isProxyAddress w.tool p = true)
    (hclear : Clear w.tool.shards p) {fallback : RealCall} (hl : ∀ os t, fallback.Legit v os t)
    (hs : ∀ t r s s', fallback.Served t r s s' → Grants (Owner.Found t heap) size r s s') :
    ReAlloced v heap p size (exec (arenaReAlloc env caller fallback p size) w).1 w
      (exec (Ts3Vas.arenaReAlloc env caller fallback p size) w).2 := by
  have hgot := h.replacement ht hl hs caller (capturable w.tool size && w.tool.proxyActive && !w.tool.shuttingDown) w rfl
  have hnone : ∀ b, v.block w.os p ≠ some b := by
    rintro b hb
    rw [ht.homes.block_none hin hclear] at hb
    cases hb
  generalize hu : exec (do
    let q ← attempt (capturable w.tool size && w.tool.proxyActive && !w.tool.shuttingDown)
      (Ts3Vas.createProxyAllocation env caller size PAGE_READWRITE)
    Ts3Vas.orElse q (Ts3Vas.callValue env fallback)) w = u at hgot
  have e : exec (Ts3Vas.arenaReAlloc env caller fallback p size) w = exec (if u.1 ≠ 0 then do
      Ts3Vas.copyRecorded env u.1 p size
      let _ ← Ts3Vas.freeProxyAllocation env p
      return u.1
    else do
      let _ ← Ts3Vas.freeProxyAllocation env p
      return u.1) u.2 := by
    rw [← hu]
    rfl
  have hall : World.Fixed w (exec (Ts3Vas.arenaReAlloc env caller fallback p size) w).2 :=
    h.settled.atoms.arenaReAlloc (fun _ _ _ _ => trivial) (fun _ _ _ => trivial) caller trivial p size w
  rw [e, exec_ite] at hall ⊢
  obtain ⟨q, u⟩ := u
  dsimp only at hgot hall ⊢
  by_cases hq : q = 0
  · rw [if_neg (not_not.2 hq), exec_bind, exec_pure]
    obtain ⟨ht', hspare⟩ := h.freed hgot.tidy p
    exact ⟨ht', hgot.grants.spares.weaken.trans hspare, fun _ b hb => absurd hb (hnone b), fun h0 => absurd hq h0,
      fun h0 => absurd hq h0⟩
  rw [if_pos hq, exec_bind, exec_bind, exec_pure] at hall ⊢
  obtain ⟨i, -, hqi⟩ := hgot.grants.granted hq
  obtain ⟨htool, ht₁, hblock, hspare, hcopy⟩ := h.copyRecorded hgot.tidy hqi p
  generalize (exec (Ts3Vas.copyRecorded env q p size) u).2 = x at htool ht₁ hblock hspare hcopy hall ⊢
  rw [← htool] at ht₁
  have hfix : World.Fixed x (exec (Ts3Vas.freeProxyAllocation env p) x).2 :=
    h.settled.atoms.freeProxyAllocation (fun _ _ _ => trivial) p x
  obtain ⟨ht₂, hspare₂⟩ := h.freed ht₁ p
  refine ⟨ht₂, ((hgot.grants.carried hq hspare).weaken).trans hspare₂, fun h0 => absurd h0 hq, fun _ b hb => ?_, fun _ => ?_⟩
  · -- the block has a record still, and its bytes are copied before it is freed
    have hbu := hgot.grants.spares.block hb
    obtain ⟨o, m⟩ := b
    rcases View.snapshot_cases hb with ⟨o, -, hv⟩ | ⟨rfl, -, -⟩
    · exact absurd hv (hnone _)
    rcases View.snapshot_cases hbu with ⟨o, e, -⟩ | ⟨-, -, r, hr, rfl⟩
    · cases e
    have hne : q ≠ p := hgot.grants.ne hq hb
    obtain ⟨-, hf⟩ := h.freeProxyAllocation ht₁ (htool ▸ hr)
    exact .of_copy hgot.grants hq hb hgot.tidy.formed (hcopy r hr hne) hf
  · rcases hgot.tidy.lies hqi with ⟨o, hv⟩ | ⟨hqin, hqc⟩
    · rw [← hblock] at hv
      have hne : q ≠ p := by
        rintro rfl
        have hqx : v.block x.os q = none := by
          apply ht₁.homes.block_none
          · exact (hfix.isProxyAddress q).symm.trans ((hall.isProxyAddress q).trans hin)
          · rw [← hfix.shards, hall.shards]
            exact hclear
        rw [hqx] at hv
        cases hv
      exact .inl ⟨o, View.block_of_snapshot (hspare₂ q hne _ (View.snapshot_heap _ hv)).1⟩
    · rw [← htool] at hqin hqc
      refine .inr ⟨(hfix.isProxyAddress q).trans hqin, ?_⟩
      rw [hfix.shards]
      exact hqc

/-- A shard resizes its own block. -/
theorem proxyHeapReAlloc (h : Genuine env v) (ht : Tidy v w.os w.tool) {s : Shard} (hs : proxyHeapShardOf w.tool p = some s)
    (hmem : s ∈ w.tool.shards) (hb : v.block w.os p = some (s.handle, n)) (heap flags size : ℕ) :
    ReAlloced v heap p size (exec (proxyHeapReAlloc env flags p size) w).1 w
      (exec (Ts3Vas.proxyHeapReAlloc env flags p size) w).2 := by
  obtain ⟨h0, halive⟩ := h.alive w.os w.tool ht s hmem p n hb
  have hlive : shardHandleLive env s.handle w = true := by simp [shardHandleLive, h0, halive]
  unfold Ts3Vas.proxyHeapReAlloc
  rw [exec_bind, exec_get, hs]
  dsimp only
  rw [if_pos hlive]
  obtain ⟨th, th', e⟩ := exec_proxyHeapHookScope
    (Ts3Vas.callValue env (.rtlReAllocateHeap s.handle (flags &&& HEAP_ZERO_MEMORY) p size)) w
  obtain ⟨ht', hz, hr⟩ := h.callValue (w := { w with thread := th })
    (c := .rtlReAllocateHeap s.handle (flags &&& HEAP_ZERO_MEMORY) p size) ht ⟨n, hb⟩
  rw [e]
  refine Tidy.reAlloced ht' (fun i hi => ?_) hz hr
  rw [hi]
  exact .inr (List.mem_map_of_mem hmem)

/-- The heap is asked for the size of its own block. -/
theorem hookedHeapSize (h : Genuine env v) (ht : Tidy v w.os w.tool) (hs : proxyHeapShardOf w.tool p = none)
    (hb : v.block w.os p = some (heap, n)) (flags : ℕ) :
    (exec (hookedHeapSize env heap flags p) w).1 = n ∧ (exec (Ts3Vas.hookedHeapSize env heap flags p) w).2.tool = w.tool ∧
      Tidy v (exec (Ts3Vas.hookedHeapSize env heap flags p) w).2.os w.tool ∧
      Spares ∅ (v.seen w) (v.seen (exec (Ts3Vas.hookedHeapSize env heap flags p) w).2) := by
  unfold Ts3Vas.hookedHeapSize
  rw [exec_bind, exec_get, hs, if_neg (by simp)]
  obtain ⟨e, ht', ⟨hr, -⟩ | ⟨-, hspare, hsize⟩⟩ := h.forward minusOne (c := .heapSize heap flags p) ht ⟨n, hb⟩
  · have hr' : w.tool.resolved .heapSize = false := hr
    rw [ht.heapSize] at hr'
    cases hr'
  · exact ⟨hsize n (View.snapshot_heap _ hb), e, ht', hspare⟩

/-- A block of the heap is captured: its contents move before the heap frees it. -/
theorem forceReAlloc (h : Genuine env v) (ht : Tidy v w.os w.tool) (hs : proxyHeapShardOf w.tool p = none)
    (hb : v.block w.os p = some (heap, n)) (caller : Caller) (flags size : ℕ) :
    Forced v (v.seen w) p size (exec (forceReAlloc env caller heap flags p size) w).1
      (exec (Ts3Vas.forceReAlloc env caller heap flags p size) w).2 := by
  have hgot := h.createProxyAllocation caller size PAGE_READWRITE w ⟨ht, .refl _ _⟩
  have hfix : World.Fixed w (exec (Ts3Vas.createProxyAllocation env caller size PAGE_READWRITE) w).2 :=
    h.settled.atoms.createProxyAllocation (fun _ _ _ _ => trivial) caller size PAGE_READWRITE w
  have hseen := View.snapshot_heap w.tool.tables.allocations hb
  have h0 := ht.homes.nonzero p _ hb
  unfold Ts3Vas.forceReAlloc
  rw [exec_bind, exec_ite]
  generalize exec (Ts3Vas.createProxyAllocation env caller size PAGE_READWRITE) w = u at hgot hfix ⊢
  obtain ⟨q, u⟩ := u
  dsimp only at hgot hfix ⊢
  by_cases hq : q = 0
  · rw [if_neg fun hn => hn.1 hq]
    exact ⟨hgot.tidy, fun _ => hgot.grants.spares, fun hn => absurd hq hn⟩
  rw [if_pos ⟨hq, h0⟩, exec_bind, exec_bind, exec_bind, exec_pure]
  -- the block is the heap's still
  have hbu : v.block u.os p = some (heap, n) := View.block_of_snapshot (hgot.grants.spares.block hseen)
  have hsu : proxyHeapShardOf u.tool p = none := (hfix.proxyHeapShardOf p).trans hs
  obtain ⟨hold, htool, ht₁, hspare⟩ := h.hookedHeapSize hgot.tidy hsu hbu flags
  generalize exec (Ts3Vas.hookedHeapSize env heap flags p) u = x at hold htool ht₁ hspare ⊢
  obtain ⟨m, x⟩ := x
  dsimp only at hold htool ht₁ hspare ⊢
  subst hold
  have hsmall : m ≠ minusOne := (ht.homes.small p _ hb).ne
  have hg : Grants (· = Owner.arena) size q (v.seen w) (v.seen x) := hgot.grants.before hspare
  rw [← htool] at ht₁
  have hpx : (v.seen x).block p = some (.heap heap, m) := hg.spares.block hseen
  obtain ⟨i, -, hqx⟩ := hg.granted hq
  have hne : q ≠ p := hg.ne hq hseen
  obtain ⟨ht₂, hblock, -, hcopy⟩ := h.copied ht₁ hqx hpx (Nat.min_le_right m size) (Nat.min_le_left m size)
  have hbx : v.block x.os p = some (heap, m) := View.block_of_snapshot hpx
  rw [onlyIf, if_pos hsmall]
  obtain ⟨ht₃, hfree⟩ := h.call (w := { x with os := env.memcpy q p (min m size) x.os }) (c := .heapFree heap flags p) ht₂
    ⟨m, hblock.symm ▸ hbx⟩
  exact ⟨ht₃, fun hz => absurd hz hq, fun _ => .of_copy hg hq hseen ht₁.formed (hcopy hne) hfree⟩

end Genuine

/-- What the marks of the thread are makes no difference. -/
theorem ReAlloced.threads {r : ℕ} {w' : World σ} (th th' : Thread) (h : ReAlloced v heap p size r { w with thread := th } w') :
    ReAlloced v heap p size r w { w' with thread := th' } := ⟨h.tidy, h.spares, h.survives, h.resizes, h.lies⟩

namespace Genuine

/-- However the calls turn out, `HeapReAlloc` moves the block whole, or returns null. -/
theorem hookedHeapReAlloc (h : Genuine env v) (ht : Tidy v w.os w.tool) (hp : Reached v w.os w.tool heap p)
    (caller : Caller) (flags size : ℕ) :
    ReAlloced v heap p size (exec (hookedHeapReAlloc env caller heap flags p size) w).1 w
      (exec (Ts3Vas.hookedHeapReAlloc env caller heap flags p size) w).2 := by
  unfold Ts3Vas.hookedHeapReAlloc
  rw [exec_bind, exec_get]
  obtain ⟨h0, ⟨s, n, hs, hmem, hb⟩ | ⟨hs, hin, hclear⟩ | ⟨hs, hout, n, hb⟩⟩ := ht.reached_cases hp
  · rw [if_pos ⟨h0, by simp [hs]⟩]
    exact h.proxyHeapReAlloc ht hs hmem hb heap flags size
  · rw [hs, if_neg (by simp), if_pos ⟨h0, ht.memManager, hin⟩]
    exact h.arenaReAlloc ht hin hclear (fun _ _ => trivial) fun _ _ _ _ hg => hg
  rw [hs, if_neg (by simp), if_neg (by simp [hout]), exec_ite]
  have hown : ∀ i, i = Owner.heap heap → Owner.Found w.tool heap i := fun i hi => hi ▸ .inl rfl
  split
  · rw [exec_ite]
    split
    · obtain ⟨ht', hz, hr⟩ := h.callValue (c := .heapReAlloc heap flags p size) ht ⟨n, hb⟩
      exact Tidy.reAlloced ht' hown hz hr
    · exact Tidy.reAlloced (P := (· = Owner.heap heap)) ht hown (fun _ => .refl _ _) fun hn => absurd rfl hn
  obtain ⟨th, th', -, e⟩ := exec_scoped (do
    let w ← get
    let q ← attempt (forceGate w.tool size) (Ts3Vas.forceReAlloc env caller heap flags p size)
    Ts3Vas.orElse q (Ts3Vas.callValue env (.heapReAlloc heap flags p size))) w
  refine Eq.mpr (congrArg (fun a => ReAlloced v heap p size a.1 w a.2) e) ?_
  apply ReAlloced.threads th th'
  rw [exec_bind, exec_get, exec_bind]
  have htry : Forced v (v.seen w) p size
      (exec (attempt (forceGate w.tool size) (Ts3Vas.forceReAlloc env caller heap flags p size)) { w with thread := th }).1
      (exec (attempt (forceGate w.tool size) (Ts3Vas.forceReAlloc env caller heap flags p size)) { w with thread := th }).2 := by
    rw [attempt, exec_ite]
    split
    · exact h.forceReAlloc (w := { w with thread := th }) ht hs hb caller flags size
    · exact ⟨ht, fun _ => .refl _ _, fun hn => absurd rfl hn⟩
  generalize exec (attempt (forceGate w.tool size) (Ts3Vas.forceReAlloc env caller heap flags p size)) { w with thread := th } = u
    at htry ⊢
  obtain ⟨q, u⟩ := u
  obtain ⟨ht₁, hz, hr⟩ := htry
  dsimp only at ht₁ hz hr ⊢
  rw [Ts3Vas.orElse, exec_ite]
  by_cases hq : q = 0
  · -- nothing was captured, and the block is the heap's to resize
    rw [if_pos hq]
    have hseen := View.snapshot_heap w.tool.tables.allocations hb
    have hbu : v.block u.os p = some (heap, n) := View.block_of_snapshot ((hz hq).block hseen)
    obtain ⟨ht', hz', hr'⟩ := h.callValue (c := .heapReAlloc heap flags p size) ht₁ ⟨n, hbu⟩
    exact Tidy.reAlloced ht' hown (fun h1 => (hz hq).trans (hz' h1)) fun h1 => .after (hz hq) hseen (hr' h1)
  · rw [if_neg hq]
    exact Tidy.reAlloced (P := (· = Owner.arena)) ht₁ (fun i hi => hi ▸ trivial) (fun h1 => absurd h1 hq) fun _ => hr hq

/-- `RtlReAllocateHeap` does the same, but for what it passes on behind its guard: there the block must be the
heap's own. -/
theorem hookedRtlReAllocateHeap (h : Genuine env v) (ht : Tidy v w.os w.tool) (hp : Reached v w.os w.tool heap p)
    (hguard : w.rtlReAllocateClosed = true → ∃ n, v.block w.os p = some (heap, n)) (caller : Caller) (flags size : ℕ) :
    ReAlloced v heap p size (exec (hookedRtlReAllocateHeap env caller heap flags p size) w).1 w
      (exec (Ts3Vas.hookedRtlReAllocateHeap env caller heap flags p size) w).2 := by
  have hown : ∀ i, i = Owner.heap heap → Owner.Found w.tool heap i := fun i hi => hi ▸ .inl rfl
  unfold Ts3Vas.hookedRtlReAllocateHeap
  rw [exec_bind, exec_get, ← World.rtlReAllocateClosed]
  by_cases hc : w.rtlReAllocateClosed = true
  · rw [if_pos hc]
    obtain ⟨ht', hz, hr⟩ := h.callValue (c := .rtlReAllocateHeap heap flags p size) ht (hguard hc)
    exact Tidy.reAlloced ht' hown hz hr
  rw [if_neg hc]
  obtain ⟨h0, ⟨s, n, hs, hmem, hb⟩ | ⟨hs, hin, hclear⟩ | ⟨hs, hout, n, hb⟩⟩ := ht.reached_cases hp
  · rw [if_pos ⟨h0, by simp [hs]⟩]
    exact h.proxyHeapReAlloc ht hs hmem hb heap flags size
  · rw [hs, if_neg (by simp), if_pos ⟨ht.memManager, h0, hin⟩]
    exact h.arenaReAlloc ht hin hclear (fun _ _ => trivial) fun _ _ _ _ hg => hg
  · rw [hs, if_neg (by simp), if_neg (by simp [hout])]
    obtain ⟨th, th', -, e⟩ := exec_scoped (Ts3Vas.callValue env (.rtlReAllocateHeap heap flags p size)) w
    obtain ⟨ht', hz, hr⟩ := h.callValue (w := { w with thread := th }) (c := .rtlReAllocateHeap heap flags p size) ht ⟨n, hb⟩
    rw [e]
    exact Tidy.reAlloced ht' hown hz hr

end Genuine

end

end Ts3Vas
