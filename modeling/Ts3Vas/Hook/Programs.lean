/-
Runs of a program over the heap hooks, with the blocks that it has been given and not freed: what a
size query answers about them, and where a reallocation leaves them.
-/
import Ts3Vas.Hook.Copies
import Ts3Vas.Hook.Shards
import Ts3Vas.Lib.Run

namespace Ts3Vas

open Prog Blocks

variable {σ : Type}

/-! ## Size queries -/

/-- The heap that `HeapSize` asks about `p`. -/
def queried (t : Tool) (heap p : ℕ) : ℕ := ((proxyHeapShardOf t p).map (·.handle)).getD heap

section
variable {env : Env σ} {v : View σ} {w : World σ} {heap flags p n : ℕ}

/-- However its guard is, `HeapSize` makes one call. -/
theorem exec_hookedHeapSize (env : Env σ) (heap flags p : ℕ) (hr : w.tool.resolved .heapSize = true) : ∃ f th th',
    exec (hookedHeapSize env heap flags p) w =
      ((exec (callValue env (.heapSize (queried w.tool heap p) f p)) { w with thread := th }).1,
        { (exec (callValue env (.heapSize (queried w.tool heap p) f p)) { w with thread := th }).2 with thread := th' }) := by
  unfold hookedHeapSize queried
  rw [exec_bind, exec_get]
  cases hs : proxyHeapShardOf w.tool p with
  | none =>
    rw [if_neg (by simp)]
    obtain ⟨hr', -⟩ | ⟨-, th, th', -, e⟩ := exec_forward_cases env (.heapSize heap flags p) minusOne w
    · have hr' : w.tool.resolved .heapSize = false := hr'
      rw [hr] at hr'
      cases hr'
    · exact ⟨flags, th, th', e⟩
  | some s =>
    have h0 : p ≠ 0 := by
      rintro rfl
      cases hs
    rw [if_pos ⟨h0, rfl⟩]
    unfold proxyHeapSize
    rw [exec_bind, exec_get, hs]
    dsimp only
    rw [if_pos hr]
    obtain ⟨th, th', e⟩ := exec_proxyHeapHookScope (callValue env (.heapSize s.handle (dropNoSerialize flags) p)) w
    exact ⟨dropNoSerialize flags, th, th', e⟩

/-- The heap that is asked has the block exactly if a hook on `heap` finds the heap that has it. -/
theorem Tidy.queried_iff {os : σ} {t : Tool} (h : Tidy v os t) :
    (∃ m, v.block os p = some (queried t heap p, m)) ↔ ∃ o m, v.block os p = some (o, m) ∧ Owner.Found t heap (.heap o) := by
  constructor
  · rintro ⟨m, hb⟩
    refine ⟨queried t heap p, m, hb, ?_⟩
    unfold queried at hb ⊢
    cases hs : proxyHeapShardOf t p with
    | none => exact .inl rfl
    | some s =>
      obtain ⟨hmem, -⟩ := h.shard_block hs (View.snapshot_heap _ hb)
      exact .inr (List.mem_map_of_mem hmem)
  · rintro ⟨o, m, hb, ho⟩
    unfold queried
    obtain ⟨-, ⟨s, n, hs, -, hb'⟩ | ⟨-, hin, hc⟩ | ⟨hs, -, n, hb'⟩⟩ := h.reached_cases (.inr ⟨o, m, hb, ho⟩)
    · rw [hs]
      exact ⟨n, hb'⟩
    · rw [h.homes.block_none hin hc] at hb
      cases hb
    · rw [hs]
      exact ⟨n, hb'⟩

/-- `HeapSize` answers for the `n` bytes at `p` from the owner of the block, with no error, and asks no heap about
a block of another owner. -/
structure Answers (env : Env σ) (v : View σ) (w : World σ) (heap flags p n : ℕ) : Prop where
  owner : ∃ o, (v.seen w).block p = some (o, (exec (hookedHeapSize env heap flags p) w).1)
  enough : n ≤ (exec (hookedHeapSize env heap flags p) w).1
  valid : (exec (hookedHeapSize env heap flags p) w).1 ≠ minusOne
  asked : ∃ cs, (exec (hookedHeapSize env heap flags p) w).2.trace = w.trace ++ cs ∧
    ∀ h f q, RealCall.heapSize h f q ∈ cs → ∃ m, v.block w.os q = some (h, m)

/-- The heap that has the block is asked for its size, and no block is lost. -/
theorem Genuine.heapSize (h : Genuine env v) (ht : Tidy v w.os w.tool) {m : ℕ} (hb : v.block w.os p = some (queried w.tool heap p, m))
    (flags : ℕ) : (exec (Ts3Vas.hookedHeapSize env heap flags p) w).1 = m ∧
      Tidy v (exec (Ts3Vas.hookedHeapSize env heap flags p) w).2.os (exec (Ts3Vas.hookedHeapSize env heap flags p) w).2.tool ∧
      Spares ∅ (v.seen w) (v.seen (exec (Ts3Vas.hookedHeapSize env heap flags p) w).2) := by
  obtain ⟨f, th, th', e⟩ := exec_hookedHeapSize env heap flags p ht.heapSize
  obtain ⟨ht', hspare, hsize⟩ := h.callValue (w := { w with thread := th }) (c := .heapSize (queried w.tool heap p) f p) ht ⟨m, hb⟩
  rw [e]
  exact ⟨hsize m (View.snapshot_heap _ hb), ht', hspare⟩

theorem Genuine.answers_iff (h : Genuine env v) (ht : Tidy v w.os w.tool) (hl : Lies v w.os w.tool p n) (heap flags : ℕ) :
    Answers env v w heap flags p n ↔ ∃ o m, v.block w.os p = some (o, m) ∧ Owner.Found w.tool heap (.heap o) := by
  obtain ⟨f, th, th', e⟩ := exec_hookedHeapSize env heap flags p ht.heapSize
  rw [← ht.queried_iff]
  constructor
  · rintro ⟨-, -, -, cs, hcs, hown⟩
    rw [e] at hcs
    -- what has been asked is the last call
    have hlast : [RealCall.heapSize (queried w.tool heap p) f p] = cs := List.append_cancel_left hcs
    exact hown _ f p (hlast ▸ List.mem_singleton_self _)
  · rintro ⟨m, hb⟩
    obtain ⟨hm, -⟩ := h.heapSize ht hb flags
    have hn : n = m := by
      rcases hl with ⟨o, hb'⟩ | ⟨hin, hc⟩
      · rw [hb'] at hb
        cases hb
        rfl
      · rw [ht.homes.block_none hin hc] at hb
        cases hb
    constructor
    · rw [hm]
      exact ⟨_, View.snapshot_heap _ hb⟩
    · exact (hn.trans hm.symm).le
    · rw [hm]
      exact (ht.homes.small p _ hb).ne
    · rw [e]
      refine ⟨[.heapSize (queried w.tool heap p) f p], rfl, fun o g q hq => ?_⟩
      cases List.mem_singleton.1 hq
      exact ⟨m, hb⟩

end

/-! ## Reallocations -/

/-- Unless null is returned, the block at `p` is now one of `size` bytes where the result points, all bytes that
both have room for are there, and every other block is as it was. -/
def MovesWhole (v : View σ) (heap p size : ℕ) (w : World σ) (result : ℕ × World σ) : Prop :=
  result.1 ≠ 0 → Resizes (Owner.Found w.tool heap) p size result.1 (v.seen w) (v.seen result.2)

/-- A hook on the heap is told whose block it is by the address. -/
theorem Tidy.reached {v : View σ} {os : σ} {t : Tool} {heap p n : ℕ} {o : Owner} (h : Tidy v os t)
    (hb : (v.snapshot os t.tables.allocations).block p = some (o, n)) (ho : o.Found t heap) : Reached v os t heap p := by
  rcases View.snapshot_cases hb with ⟨handle, rfl, hv⟩ | ⟨-, -, r, hr, -⟩
  · exact .inr ⟨handle, n, hv, ho⟩
  · have hslot := (h.records p r hr).2
    exact .inl ⟨hslot.isProxyAddress h.sheltered.sound, hslot.clear⟩

/-! ## Runs -/

/-- What runs besides the calls of a program: no block is lost, arena and shards stay where they are. -/
structure Elsewhere (v : View σ) (w w' : World σ) : Prop where
  fixed : World.Fixed w w'
  tidy : Tidy v w'.os w'.tool
  spares : Spares ∅ (v.seen w) (v.seen w')

/-- A block that is spared lies where it lay. -/
theorem Lies.spared {v : View σ} {w w' : World σ} {X : Set ℕ} {p n : ℕ} (h : Lies v w.os w.tool p n) (hf : World.Fixed w w')
    (hs : Spares X (v.seen w) (v.seen w')) (hp : p ∉ X) : Lies v w'.os w'.tool p n := by
  rcases h with ⟨o, hb⟩ | ⟨hin, hc⟩
  · exact .inl ⟨o, View.block_of_snapshot (hs p hp _ (View.snapshot_heap _ hb)).1⟩
  · refine .inr ⟨(hf.isProxyAddress p).trans hin, ?_⟩
    rw [hf.shards]
    exact hc

/-- The blocks after a call that has returned `r`. One that is asked to move stays if null is returned. -/
def HookCall.blocksWith (blocks : List (ℕ × ℕ)) (r : ℕ) : HookCall → List (ℕ × ℕ)
  | rtlAllocateHeap _ _ _ size | heapAlloc _ _ _ size => if r = 0 then blocks else blocks ++ [(r, size)]
  | rtlFreeHeap _ _ p | heapFree _ _ p => blocks.filter fun b => b.1 ≠ p
  | rtlReAllocateHeap _ _ _ p size | heapReAlloc _ _ _ p size =>
    if r = 0 then blocks else (blocks.filter fun b => b.1 ≠ p) ++ [(r, size)]
  | _ => blocks

/-- A process, and the blocks that have been handed out in it, with the sizes they were asked for. -/
structure Program (σ : Type) where
  world : World σ
  blocks : List (ℕ × ℕ)

/-- `BeginShutdown`, while the hooks are still attached. -/
def World.beginShutdown (w : World σ) : World σ := { w with tool := { w.tool with shuttingDown := true } }

theorem elsewhere_beginShutdown {v : View σ} {w : World σ} (h : Tidy v w.os w.tool) : Elsewhere v w w.beginShutdown :=
  ⟨⟨.refl _, rfl, rfl, List.Subset.refl _⟩, h.of_eq rfl rfl rfl rfl rfl, .refl _ _⟩

namespace Program

/-- A thread, with whatever marks, calls a hook, or something else runs. -/
inductive Act (σ : Type)
  | call (thread : Thread) (c : HookCall)
  | elsewhere (w : World σ)

def start (w : World σ) : Program σ := ⟨w, []⟩

/-- The world as a thread with these marks sees it. -/
def onThread (s : Program σ) (thread : Thread) : World σ := { s.world with thread := thread }

def step (env : Env σ) (s : Program σ) : Act σ → Program σ
  | .call thread c => ⟨(exec (c.run env) (s.onThread thread)).2, c.blocksWith s.blocks (exec (c.run env) (s.onThread thread)).1⟩
  | .elsewhere w => ⟨w, s.blocks⟩

/-- The process after a run. -/
abbrev after (env : Env σ) (w : World σ) (acts : List (Act σ)) : Program σ := Run.after (step env) (start w) acts

/-- A block is handed to a heap hook that can tell whose it is, and no other hook takes one. -/
def Lawful (env : Env σ) (v : View σ) (s : Program σ) : Act σ → Prop
  | .call thread c => match c with
    | .rtlAllocateHeap .. | .heapAlloc .. => True
    | .rtlFreeHeap heap _ p => p = 0 ∨ Reached v s.world.os s.world.tool heap p
    | .heapFree heap _ p | .heapReAlloc _ heap _ p _ => Reached v s.world.os s.world.tool heap p
    | .rtlReAllocateHeap _ heap _ p _ => Reached v s.world.os s.world.tool heap p ∧
        ((s.onThread thread).rtlReAllocateClosed = true → ∃ n, v.block s.world.os p = some (heap, n))
    | .heapSize heap _ p => ∃ o n, v.block s.world.os p = some (o, n) ∧ Owner.Found s.world.tool heap (.heap o)
    | c => Elsewhere v s.world ((s.onThread thread).step env c)
  | .elsewhere w => Elsewhere v s.world w

/-- What every run keeps: every block lies with a heap or in a slot. -/
structure Sound (v : View σ) (s : Program σ) : Prop where
  tidy : Tidy v s.world.os s.world.tool
  lies : ∀ b ∈ s.blocks, Lies v s.world.os s.world.tool b.1 b.2

section
variable {env : Env σ} {v : View σ} {w : World σ} {s : Program σ} {heap p n r : ℕ}

/-- A block more, -/
theorem Sound.granted (hs : s.Sound v) (hf : World.Fixed s.world w) (hg : Got v (v.seen s.world) Anyone n r w) :
    Sound v ⟨w, if r = 0 then s.blocks else s.blocks ++ [(r, n)]⟩ := by
  have hold : ∀ b ∈ s.blocks, Lies v w.os w.tool b.1 b.2 := fun b hb => (hs.lies b hb).spared hf hg.grants.spares id
  refine ⟨hg.tidy, fun b hb => ?_⟩
  dsimp only at hb
  split at hb
  · exact hold b hb
  rename_i hr
  rcases List.mem_append.1 hb with hb | hb
  · exact hold b hb
  · obtain ⟨o, -, ho⟩ := hg.grants.granted hr
    rw [List.mem_singleton.1 hb]
    exact hg.tidy.lies ho

/-- a block less, -/
theorem Sound.freed (hs : s.Sound v) (hf : World.Fixed s.world w) (ht : Tidy v w.os w.tool)
    (hp : Spares {p} (v.seen s.world) (v.seen w)) : Sound v ⟨w, s.blocks.filter fun b => b.1 ≠ p⟩ := by
  refine ⟨ht, fun b hb => ?_⟩
  obtain ⟨hb, hne⟩ := List.mem_filter.1 hb
  exact (hs.lies b hb).spared hf hp (of_decide_eq_true hne)

/-- and a block in place of another, -/
theorem Sound.reAlloced (hs : s.Sound v) (hf : World.Fixed s.world w) (hr : ReAlloced v heap p n r s.world w) :
    Sound v ⟨w, if r = 0 then s.blocks else (s.blocks.filter fun b => b.1 ≠ p) ++ [(r, n)]⟩ := by
  refine ⟨hr.tidy, fun b hb => ?_⟩
  dsimp only at hb
  split at hb
  · -- null: the other blocks stay, and this one where it lay
    rename_i h0
    by_cases hp : b.1 = p
    · rcases hs.lies b hb with ⟨o, hv⟩ | ⟨hin, hc⟩
      · rw [hp] at hv ⊢
        exact .inl ⟨o, hr.survives h0 _ hv⟩
      · refine .inr ⟨(hf.isProxyAddress b.1).trans hin, ?_⟩
        rw [hf.shards]
        exact hc
    · exact (hs.lies b hb).spared hf hr.spares hp
  rename_i h0
  rcases List.mem_append.1 hb with hb | hb
  · obtain ⟨hb, hne⟩ := List.mem_filter.1 hb
    exact (hs.lies b hb).spared hf hr.spares (of_decide_eq_true hne)
  · rw [List.mem_singleton.1 hb]
    exact hr.lies h0

/-- or the same blocks. -/
theorem Sound.elsewhere (hs : s.Sound v) (h : Elsewhere v s.world w) : Sound v ⟨w, s.blocks⟩ :=
  ⟨h.tidy, fun b hb => (hs.lies b hb).spared h.fixed h.spares id⟩

theorem Sound.step {a : Act σ} (hs : s.Sound v) (h : Genuine env v) (hl : s.Lawful env v a) : (s.step env a).Sound v := by
  cases a with
  | elsewhere w => exact hs.elsewhere hl
  | call thread c =>
    have hf : World.Fixed s.world ((s.onThread thread).step env c) := h.settled.step (s.onThread thread) c
    have hsince : Since v (v.seen s.world) (s.onThread thread) := ⟨hs.tidy, .refl _ _⟩
    cases c with
    | rtlAllocateHeap caller heap flags size => exact hs.granted hf (h.hookedRtlAllocateHeap caller heap flags size _ hsince)
    | heapAlloc caller heap flags size => exact hs.granted hf (h.hookedHeapAlloc caller heap flags size _ hsince)
    | rtlFreeHeap heap flags p =>
      obtain ⟨ht, hp⟩ := h.hookedRtlFreeHeap (w := s.onThread thread) hs.tidy hl flags
      exact hs.freed hf ht hp
    | heapFree heap flags p =>
      obtain ⟨ht, hp⟩ := h.hookedHeapFree (w := s.onThread thread) hs.tidy hl flags
      exact hs.freed hf ht hp
    | rtlReAllocateHeap caller heap flags p size =>
      have hr := h.hookedRtlReAllocateHeap (w := s.onThread thread) hs.tidy hl.1 hl.2 caller flags size
      exact hs.reAlloced hf ⟨hr.tidy, hr.spares, hr.survives, hr.resizes, hr.lies⟩
    | heapReAlloc caller heap flags p size =>
      have hr := h.hookedHeapReAlloc (w := s.onThread thread) hs.tidy hl caller flags size
      exact hs.reAlloced hf ⟨hr.tidy, hr.spares, hr.survives, hr.resizes, hr.lies⟩
    | heapSize heap flags p =>
      obtain ⟨m, hb⟩ := hs.tidy.queried_iff.2 hl
      obtain ⟨-, ht, hspare⟩ := h.heapSize (w := s.onThread thread) hs.tidy hb flags
      exact hs.elsewhere ⟨hf, ht, hspare⟩
    | _ => exact hs.elsewhere hl

/-- The run lemma: the blocks of a program lie with a heap or in a slot after any lawful run. -/
theorem sound_after {acts : List (Act σ)} (h : Genuine env v) (ht : Tidy v w.os w.tool)
    (hrun : Run.Guarded (step env) (Lawful env v) (start w) acts) : (after env w acts).Sound v :=
  hrun.invariant (fun _ _ hs hl => hs.step h hl) ⟨ht, fun _ hb => (nomatch hb)⟩

end

end Program

/-! ## Where a run starts -/

/-- Nothing is captured yet, and the heaps have no block in the arena or in a shard. -/
theorem Tidy.start {v : View σ} {os : σ} {t : Tool} (hm : t.memManager = true) (hr : t.resolved .heapSize = true)
    (hs : Sheltered t.sys t.shards) (hrec : t.tables.allocations = ∅) (hf : (v.snapshot os ∅).Formed)
    (hb : ∀ p h n, v.block os p = some (h, n) → p ≠ 0 ∧ n < minusOne ∧ h ∉ t.shards.map (·.handle) ∧
      ∀ x, Touches p n x → isProxyAddress t x = false ∧ Clear t.shards x) : Tidy v os t := by
  constructor
  · exact hm
  · exact hr
  · exact hs
  · intro p r hp
    rw [hrec] at hp
    cases hp
  · constructor
    · exact fun p b hp => (hb p b.1 b.2 hp).1
    · exact fun p b hp => (hb p b.1 b.2 hp).2.1
    · exact fun p h n hp s hs x hx hold => absurd hold (((hb p h n hp).2.2.2 x hx).2 s hs)
    · exact fun p h n hp hh => absurd hh (hb p h n hp).2.2.1
    · exact fun p h n hp _ x hx => ((hb p h n hp).2.2.2 x hx).1
  · rw [hrec]
    exact hf

section
variable {boot : Env σ} {owns : σ → ℕ → ℕ → Prop} {v : View σ} {w : World σ}

/-- `ProxyHeapInit` changes neither of these. -/
abbrev World.attached (w : World σ) : Bool × (Api → Bool) × Tables := (w.tool.memManager, w.tool.resolved, w.tool.tables)

theorem Boot.keeps_proxyHeapInit (hb : Boot boot owns) (off : Bool) (maxSize shardCount : ℕ) :
    Keeps (fun _ => True) World.attached (Ts3Vas.proxyHeapInit boot off maxSize shardCount) := by
  have hreal : ∀ c, Keeps (fun _ => True) World.attached (Ts3Vas.callValue boot c) := fun c w _ =>
    congrArg (fun t : Tool => (t.memManager, t.resolved, t.tables)) (hb.quiet c w)
  have hslot : ∀ slot, Keeps (fun _ => True) World.attached (Ts3Vas.heapOverSlot boot slot maxSize) := by
    intro slot
    refine (hreal _).bind fun c => Keeps.bind (.ite (hreal _) (.pure _)) fun h => ?_
    exact Keeps.bind (.ite (fun _ _ => rfl) (.pure _)) fun _ => .pure h
  have hshard : Keeps (fun _ => True) World.attached (Ts3Vas.makeShard boot maxSize) := by
    refine .get fun w => Keeps.bind (.ite (fun _ _ => rfl) (.pure _)) fun slot => ?_
    refine Keeps.bind (.ite (hslot slot) (.pure _)) fun h => .ite (.pure _) ?_
    exact (hreal _).bind fun h => .ite (.pure _) (.pure _)
  have hshards : ∀ n, Keeps (fun _ => True) World.attached (Ts3Vas.makeShards boot maxSize n) := by
    intro n
    induction n with
    | zero => exact .pure _
    | succ n ih => exact hshard.bind fun _ => ih.bind fun _ => .pure _
  exact .get fun w => .ite (.pure _) ((hshards shardCount).bind fun _ _ _ => rfl)

/-- A run may start after `ProxyHeapInit`, while the new heaps are empty and no heap has a block in the arena. -/
theorem Boot.tidy (hb : Boot boot owns) (hw : w.tool.sys.Sound) (hS : w.tool.shards = []) (hm : w.tool.memManager = true)
    (hr : w.tool.resolved .heapSize = true) (hrec : w.tool.tables.allocations = ∅) (off : Bool) (maxSize shardCount : ℕ)
    (hf : (v.snapshot (exec (Ts3Vas.proxyHeapInit boot off maxSize shardCount) w).2.os ∅).Formed)
    (hblock : ∀ p h n, v.block (exec (Ts3Vas.proxyHeapInit boot off maxSize shardCount) w).2.os p = some (h, n) → p ≠ 0 ∧ n < minusOne ∧
      h ∉ (exec (Ts3Vas.proxyHeapInit boot off maxSize shardCount) w).2.tool.shards.map (·.handle) ∧
      ∀ x, Touches p n x → owns (exec (Ts3Vas.proxyHeapInit boot off maxSize shardCount) w).2.os h x ∧
        isProxyAddress (exec (Ts3Vas.proxyHeapInit boot off maxSize shardCount) w).2.tool x = false) :
    Tidy v (exec (Ts3Vas.proxyHeapInit boot off maxSize shardCount) w).2.os
      (exec (Ts3Vas.proxyHeapInit boot off maxSize shardCount) w).2.tool := by
  obtain ⟨S, hshards, hsheltered, hown⟩ := hb.proxyHeapInit hw hS off maxSize shardCount
  have hkept := hb.keeps_proxyHeapInit off maxSize shardCount w
  generalize exec (Ts3Vas.proxyHeapInit boot off maxSize shardCount) w = u at *
  obtain ⟨hm', hr', hrec'⟩ : u.2.tool.memManager = w.tool.memManager ∧ u.2.tool.resolved = w.tool.resolved ∧
      u.2.tool.tables = w.tool.tables := by simpa [World.attached] using hkept
  apply Tidy.start
  · exact hm'.trans hm
  · exact hr' ▸ hr
  · exact hshards ▸ hsheltered
  · exact hrec' ▸ hrec
  · exact hf
  · intro p h n hp
    obtain ⟨h0, hn, hh, hx⟩ := hblock p h n hp
    refine ⟨h0, hn, hh, fun x htouch => ⟨(hx x htouch).2, fun s hs hold => hh ?_⟩⟩
    -- what a shard holds is its heap's
    rw [hown s (hshards ▸ hs) h x (hx x htouch).1 hold]
    exact List.mem_map_of_mem hs

end

/-! ## A heap with room for one block -/

/-- Memory that is committed throughout, and what heap 7 has at 0x90000000. -/
structure Ram where
  bytes : ℕ → ℕ
  block : Option ℕ

def View.ram : View Ram where
  contents m x := some (m.bytes x)
  block m p := if p = 0x90000000 then m.block.map fun n => (7, n) else none

/-- Neither the arena nor a shard reaches up to the block. -/
def Tool.under (t : Tool) : Bool := t.shards.isEmpty && decide (t.sys.alloc.arenaBase + t.sys.alloc.arenaSize ≤ 0x90000000)

/-- The heap does not resize its block, and takes any other pointer for one that has moved. -/
def Env.ram : Env Ram where
  real c w := match c with
    | .rtlAllocateHeap heap _ n | .heapAlloc heap _ n =>
      if heap = 7 ∧ w.os.block = none ∧ n < minusOne ∧ w.tool.under = true then
        (⟨0x90000000, 0, 0⟩, { w with os := { w.os with block := some n } })
      else (⟨0, 0, 0⟩, w)
    | .rtlFreeHeap _ _ p | .heapFree _ _ p =>
      if p = 0x90000000 then (⟨1, 0, 0⟩, { w with os := { w.os with block := none } }) else (⟨0, 0, 0⟩, w)
    | .rtlReAllocateHeap _ _ p _ | .heapReAlloc _ _ p _ => (⟨if p = 0x90000000 then 0 else 0xA0000000, 0, 0⟩, w)
    | .heapSize _ _ p => (⟨if p = 0x90000000 then w.os.block.getD minusOne else minusOne, 0, 0⟩, w)
    | .virtualAlloc p n _ _ => (⟨if 0 < n ∧ p + n ≤ 2 ^ 32 then p else 0, 0, 0⟩, w)
    | _ => (⟨0, 0, 0⟩, w)
  handleLive _ _ := true
  stray _ := 0
  memcpy q p n m := { m with bytes := fun x => if q ≤ x ∧ x < q + n then m.bytes (p + (x - q)) else m.bytes x }
  isCorralAddress _ _ := false
  corralReserve _ _ _ m := (0, m)
  corralFree _ m := m

section
variable {t : Tool} {m : Ram} {n p x : ℕ} {records : Allocations}

theorem View.snapshot_ram_ne (m m' : Ram) (records : Allocations) (hp : p ≠ 0x90000000) :
    (View.ram.snapshot m records).block p = (View.ram.snapshot m' records).block p := by
  simp [View.snapshot, View.ram, hp]

theorem Tool.under_outside (h : t.under = true) (hx : 0x90000000 ≤ x) : isProxyAddress t x = false := by
  simp only [Tool.under, Bool.and_eq_true, decide_eq_true_eq] at h
  have htop : ptrAdd t.sys.alloc.arenaBase t.sys.alloc.arenaSize ≤ 0x90000000 := (Nat.mod_le _ _).trans h.2
  simp only [Ts3Vas.isProxyAddress, ProxyAllocator.isProxyAddress, Bool.and_eq_false_iff, decide_eq_false_iff_not]
  omega

/-- A block elsewhere is a capture, and lies in the arena. -/
theorem Tidy.ram_arena (h : Tidy .ram m t) (hp : p ≠ 0x90000000) {b : Owner × ℕ}
    (hb : (View.ram.snapshot m t.tables.allocations).block p = some b) (hx : Touches p b.2 x) : isProxyAddress t x = true := by
  obtain ⟨o, n⟩ := b
  rcases View.snapshot_cases hb with ⟨_, -, hv⟩ | ⟨-, -, r, hr, rfl⟩
  · rw [View.ram] at hv
    dsimp only at hv
    rw [if_neg hp] at hv
    cases hv
  · have hs := h.sheltered.sound
    have hslot := (h.records p r hr).2
    exact hs.isProxyAddress_span hslot.live (hslot.touches hs hx)

/-- The heap hands out its block. -/
theorem Tidy.ram_filled (h : Tidy .ram m t) (hm : m.block = none) (hn : n < minusOne) (hu : t.under = true) :
    Tidy .ram { m with block := some n } t ∧ Grants (Owner.Found t 7) n 0x90000000
      (View.ram.snapshot m t.tables.allocations) (View.ram.snapshot { m with block := some n } t.tables.allocations) := by
  have hgains : Gains 0x90000000 (.heap 7, n) (View.ram.snapshot m t.tables.allocations)
      (View.ram.snapshot { m with block := some n } t.tables.allocations) := by
    constructor
    · exact View.snapshot_heap _ rfl
    · exact fun q hq => View.snapshot_ram_ne _ m _ hq
    · rfl
  have hb : ∀ q b, View.ram.block { m with block := some n } q = some b → q = 0x90000000 ∧ b = (7, n) := by
    intro q b hq
    simp only [View.ram, Option.map_some, Option.ite_none_right_eq_some, Option.some.injEq] at hq
    exact ⟨hq.1, hq.2.symm⟩
  have hnone : (View.ram.snapshot m t.tables.allocations).block 0x90000000 = none := by
    cases hq : (View.ram.snapshot m t.tables.allocations).block 0x90000000 with
    | none => rfl
    | some b =>
      obtain ⟨o, k⟩ := b
      rcases View.snapshot_cases hq with ⟨_, -, hv⟩ | ⟨-, -, r, hr, -⟩
      · simp [View.ram, hm] at hv
      · have hin := (h.records _ r hr).2.isProxyAddress h.sheltered.sound
        rw [Tool.under_outside hu le_rfl] at hin
        cases hin
  have hsh : t.shards = [] := by
    simp only [Tool.under, Bool.and_eq_true] at hu
    exact List.isEmpty_iff.1 hu.1
  refine ⟨⟨h.memManager, h.heapSize, h.sheltered, h.records, ?_, ?_⟩, hgains.grants hnone (.inl rfl)⟩
  · constructor
    · rintro q b hq
      obtain ⟨rfl, -⟩ := hb q b hq
      decide
    · rintro q b hq
      obtain ⟨-, rfl⟩ := hb q b hq
      exact hn
    · rintro q handle k - s hs
      rw [hsh] at hs
      cases hs
    · rintro q handle k - hs
      rw [hsh] at hs
      cases hs
    · rintro q handle k hq - x hx
      obtain ⟨rfl, -⟩ := hb q _ hq
      exact Tool.under_outside hu hx.1
  · apply hgains.formed h.formed
    · exact fun _ _ _ => rfl
    · -- no capture lies that high
      intro q c hq hqc x hx hx'
      have hin := h.ram_arena hq hqc hx'
      rw [Tool.under_outside hu hx.1] at hin
      cases hin

/-- The heap takes its block back. -/
theorem Tidy.ram_emptied (h : Tidy .ram m t) (hm : m.block ≠ none) : Tidy .ram { m with block := none } t ∧
    Frees 0x90000000 (View.ram.snapshot m t.tables.allocations) (View.ram.snapshot { m with block := none } t.tables.allocations) := by
  have hb : ∀ q, View.ram.block { m with block := none } q = none := by
    intro q
    simp [View.ram]
  obtain ⟨n, hn⟩ := Option.ne_none_iff_exists'.1 hm
  have hold : View.ram.block m 0x90000000 = some (7, n) := by simp [View.ram, hn]
  have hloses : Loses 0x90000000 (View.ram.snapshot m t.tables.allocations)
      (View.ram.snapshot { m with block := none } t.tables.allocations) := by
    constructor
    · cases hr : t.tables.allocations.lookup 0x90000000 with
      | none => simp [View.snapshot, hb, hr]
      | some r =>
        have hnone := h.block_none (h.records _ r hr).2
        rw [hold] at hnone
        cases hnone
    · exact fun q hq => View.snapshot_ram_ne _ m _ hq
    · rfl
  refine ⟨⟨h.memManager, h.heapSize, h.sheltered, h.records, ?_, hloses.formed h.formed⟩, hloses.frees⟩
  constructor
  · exact fun q b hq => absurd hq (by simp [hb])
  · exact fun q b hq => absurd hq (by simp [hb])
  · exact fun q _ _ hq => absurd hq (by simp [hb])
  · exact fun q _ _ hq => absurd hq (by simp [hb])
  · exact fun q _ _ hq => absurd hq (by simp [hb])

theorem tool_ram (c : RealCall) (w : World Ram) : (exec (Env.ram.real c) w).2.tool = w.tool := by
  cases c <;> try rfl
  all_goals
    show World.tool (Prod.snd (if _ then _ else _)) = _
    split <;> rfl

/-- A block of heap 7 is the one it has. -/
theorem block_ram {heap : ℕ} (hb : View.ram.block m p = some (heap, n)) : p = 0x90000000 ∧ heap = 7 ∧ m.block = some n := by
  simp only [View.ram, Option.ite_none_right_eq_some, Option.map_eq_some_iff, Prod.mk.injEq] at hb
  obtain ⟨hp, k, hk, rfl, rfl⟩ := hb
  exact ⟨hp, rfl, hk⟩

theorem ram_alloc {w : World Ram} {heap flags : ℕ} (h : Tidy .ram w.os w.tool) (c : RealCall)
    (hc : c = .rtlAllocateHeap heap flags n ∨ c = .heapAlloc heap flags n) :
    Tidy .ram (exec (Env.ram.real c) w).2.os (exec (Env.ram.real c) w).2.tool ∧
      Grants (Owner.Found w.tool heap) n (exec (Env.ram.real c) w).1.value (View.ram.seen w) (View.ram.seen (exec (Env.ram.real c) w).2) := by
  have e : exec (Env.ram.real c) w = if heap = 7 ∧ w.os.block = none ∧ n < minusOne ∧ w.tool.under = true then
      (⟨0x90000000, 0, 0⟩, { w with os := { w.os with block := some n } }) else (⟨0, 0, 0⟩, w) := by
    rcases hc with rfl | rfl <;> rfl
  rw [e]
  split
  · rename_i hcond
    obtain ⟨rfl, hm, hn, hu⟩ := hcond
    exact h.ram_filled hm hn hu
  · exact ⟨h, .null (.refl _ _)⟩

theorem ram_free {w : World Ram} {heap flags : ℕ} (h : Tidy .ram w.os w.tool) (c : RealCall)
    (hc : c = .rtlFreeHeap heap flags p ∨ c = .heapFree heap flags p) (hb : View.ram.block w.os p = some (heap, n)) :
    Tidy .ram (exec (Env.ram.real c) w).2.os (exec (Env.ram.real c) w).2.tool ∧
      Frees p (View.ram.seen w) (View.ram.seen (exec (Env.ram.real c) w).2) := by
  obtain ⟨rfl, -, hm⟩ := block_ram hb
  have e : exec (Env.ram.real c) w = (⟨1, 0, 0⟩, { w with os := { w.os with block := none } }) := by
    rcases hc with rfl | rfl <;> rfl
  rw [e]
  exact h.ram_emptied (by rw [hm]; exact Option.some_ne_none n)

theorem genuine_ram : Genuine Env.ram .ram := by
  have hsame : ∀ (c : RealCall) (w : World Ram), Tidy .ram w.os w.tool → c.Legit .ram w.os w.tool →
      Tidy .ram (exec (Env.ram.real c) w).2.os (exec (Env.ram.real c) w).2.tool ∧
        c.Served w.tool (exec (Env.ram.real c) w).1.value (View.ram.seen w) (View.ram.seen (exec (Env.ram.real c) w).2) := by
    intro c w h hl
    cases c with
    | rtlAllocateHeap heap flags n => exact ram_alloc h _ (.inl rfl)
    | heapAlloc heap flags n => exact ram_alloc h _ (.inr rfl)
    | rtlFreeHeap heap flags p =>
      obtain ⟨n, hb⟩ := hl
      exact ram_free h _ (.inl rfl) hb
    | heapFree heap flags p =>
      obtain ⟨n, hb⟩ := hl
      exact ram_free h _ (.inr rfl) hb
    | rtlReAllocateHeap heap flags p n | heapReAlloc heap flags p n =>
      obtain ⟨k, hb⟩ := hl
      obtain ⟨rfl, -⟩ := block_ram hb
      exact ⟨h, fun _ => .refl _ _, fun h0 => absurd rfl h0⟩
    | heapSize heap flags p =>
      obtain ⟨k, hb⟩ := hl
      obtain ⟨rfl, rfl, hm⟩ := block_ram hb
      refine ⟨h, .refl _ _, fun n hn => ?_⟩
      obtain ⟨-, -, hm'⟩ := block_ram (View.block_of_snapshot hn)
      show w.os.block.getD minusOne = n
      rw [hm', Option.getD_some]
    | virtualAlloc p n type protect =>
      refine ⟨h, .refl _ _, fun h0 => ?_⟩
      have hv : (if 0 < n ∧ p + n ≤ 2 ^ 32 then p else 0) ≠ 0 := h0
      split at hv
      · rename_i hn
        exact ⟨hn.1, hn.2, fun _ _ _ => rfl⟩
      · exact absurd rfl hv
    | virtualFree p n type => exact ⟨h, .refl _ _⟩
    | _ => exact absurd hl id
  constructor
  · intro c w
    show Fixed w.tool (exec (Env.ram.real c) w).2.tool
    rw [tool_ram]
    exact refl w.tool
  · exact fun c w _ _ _ => tool_ram c w
  · exact fun c w h hl => (hsame c w h hl).1
  · exact fun c w h hl => (hsame c w h hl).2
  · exact fun q p n m _ _ _ _ _ _ => ⟨rfl, fun _ => rfl, fun x hx => congrArg some (if_neg hx)⟩
  · intro q p n m _ _ _ _ _ _ _ k hk
    have hin : q ≤ q + k ∧ q + k < q + n := by omega
    show some (if _ then _ else _) = some _
    rw [if_pos hin, Nat.add_sub_cancel_left]
  · intro m t _ s _ p n hb
    obtain ⟨-, e, -⟩ := block_ram hb
    rw [e]
    exact ⟨by decide, rfl⟩

end

/-- The arena below the heap. -/
def World.ram : World Ram := .install Sys.arena1G ⟨fun x => x % 256, none⟩

theorem tidy_ram : Tidy .ram World.ram.os World.ram.tool := by
  have hb : ∀ p, (View.ram.snapshot World.ram.os ∅).block p = none := fun p => by simp [View.snapshot, View.ram, World.ram, World.install]
  apply Tidy.start rfl rfl
  · exact ⟨(Sys.start_proper Sys.arena1G_started.whole.idle).toSound, fun _ hs => (by cases hs), fun _ hs => (by cases hs)⟩
  · rfl
  · constructor
    · intro p q b c h
      rw [hb] at h
      cases h
    · intro p b h
      rw [hb] at h
      cases h
  · intro p h n hp
    cases (block_ram hp).2.2

/-! ## What a program finds -/

namespace Program

/-- A thread outside any hook. -/
def outside : Thread := ⟨false, false, false⟩

/-- Two blocks of heap 7: one goes to the arena, one stays with the heap. -/
def twoBlocks : List (Act Ram) := [.call outside (.rtlAllocateHeap .plain 7 0 5000), .call outside (.heapAlloc .plain 7 0 100)]

theorem lawful_twoBlocks : Run.Guarded (step Env.ram) (Lawful Env.ram .ram) (start World.ram) twoBlocks :=
  ⟨trivial, trivial, trivial⟩

/-- The tool starts to detach. -/
def detaching : List (Act Ram) := twoBlocks ++ [.elsewhere (after Env.ram World.ram twoBlocks).world.beginShutdown]

theorem lawful_detaching : Run.Guarded (step Env.ram) (Lawful Env.ram .ram) (start World.ram) detaching :=
  Run.guarded_concat.2 ⟨lawful_twoBlocks, elsewhere_beginShutdown (sound_after genuine_ram tidy_ram lawful_twoBlocks).tidy⟩

section
variable {env : Env σ} {v : View σ} {w : World σ} {acts : List (Act σ)}

/-- In every state of every lawful run, `HeapSize` answers for a block that has been handed out exactly if
the block is one of the heap that it is called on, or of a shard. -/
theorem heapSize_answers_iff (h : Genuine env v) (ht : Tidy v w.os w.tool)
    (hrun : Run.Guarded (step env) (Lawful env v) (start w) acts) :
    ∀ b ∈ (after env w acts).blocks, ∀ (thread : Thread) (heap flags : ℕ),
      Answers env v ((after env w acts).onThread thread) heap flags b.1 b.2 ↔
        ∃ o m, v.block (after env w acts).world.os b.1 = some (o, m) ∧
          Owner.Found (after env w acts).world.tool heap (.heap o) := by
  have hs := sound_after h ht hrun
  intro b hb thread heap flags
  exact h.answers_iff (w := onThread _ thread) hs.tidy (hs.lies b hb) heap flags

end

theorem heapSize_answers_twoBlocks : Answers Env.ram .ram ((after Env.ram World.ram twoBlocks).onThread outside) 7 0 0x90000000 100 :=
  (heapSize_answers_iff genuine_ram tidy_ram lawful_twoBlocks (0x90000000, 100) (by decide +kernel) outside 7 0).2
    ⟨7, 100, by decide +kernel, .inl rfl⟩

/-- The real heap is asked about an arena address, and the answer is an error. -/
theorem not_heapSize_answers_captured : Genuine Env.ram .ram ∧ Tidy .ram World.ram.os World.ram.tool ∧
    Run.Guarded (step Env.ram) (Lawful Env.ram .ram) (start World.ram) twoBlocks ∧
    (0x40000000, 5000) ∈ (after Env.ram World.ram twoBlocks).blocks ∧
    isProxyAddress (after Env.ram World.ram twoBlocks).world.tool 0x40000000 = true ∧
    (exec (hookedHeapSize Env.ram 7 0 0x40000000) ((after Env.ram World.ram twoBlocks).onThread outside)).2.trace.getLast? =
      some (.heapSize 7 0 0x40000000) ∧
    ¬ Answers Env.ram .ram ((after Env.ram World.ram twoBlocks).onThread outside) 7 0 0x40000000 5000 :=
  ⟨genuine_ram, tidy_ram, lawful_twoBlocks, by decide +kernel, by decide +kernel, by decide +kernel,
    fun h => h.valid (by decide +kernel)⟩

section
variable {env : Env σ} {v : View σ} {w : World σ} {acts : List (Act σ)}

/-- In every state of every lawful run, and whichever of the calls below fail, a live block of the arena, of a
shard or of the heap itself is moved whole. `RtlReAllocateHeap` does so outside any hook, and during a shutdown
for a block of the heap alone. -/
theorem reAlloc_moves (h : Genuine env v) (ht : Tidy v w.os w.tool)
    (hrun : Run.Guarded (step env) (Lawful env v) (start w) acts) (thread : Thread) (caller : Caller) (heap flags p size : ℕ)
    (o : Owner) (old : ℕ) (hb : (v.seen (after env w acts).world).block p = some (o, old))
    (ho : o.Found (after env w acts).world.tool heap) :
    MovesWhole v heap p size ((after env w acts).onThread thread)
      (exec (hookedHeapReAlloc env caller heap flags p size) ((after env w acts).onThread thread)) ∧
    (((after env w acts).onThread thread).busy = false → ((after env w acts).world.tool.shuttingDown = true → o = .heap heap) →
      MovesWhole v heap p size ((after env w acts).onThread thread)
        (exec (hookedRtlReAllocateHeap env caller heap flags p size) ((after env w acts).onThread thread))) := by
  have hs := (sound_after h ht hrun).tidy
  generalize after env w acts = s at hb ho hs ⊢
  have hp := hs.reached hb ho
  constructor
  · exact fun h0 => (h.hookedHeapReAlloc (w := s.onThread thread) hs hp caller flags size).resizes h0 _ hb
  · intro hidle hshut h0
    refine (h.hookedRtlReAllocateHeap (w := s.onThread thread) hs hp (fun hc => ?_) caller flags size).resizes h0 _ hb
    -- only the shutdown closes the guard
    have hm : (s.onThread thread).tool.memManager = true := hs.memManager
    have hdown : (s.onThread thread).tool.shuttingDown = true := by simpa [World.rtlReAllocateClosed, hidle, hm] using hc
    obtain rfl := hshut hdown
    exact ⟨old, View.block_of_snapshot hb⟩

end

/-- A captured block grows, by either hook, into the next slot of the arena. -/
theorem reAlloc_moves_twoBlocks :
    Resizes (Owner.Found (after Env.ram World.ram twoBlocks).world.tool 7) 0x40000000 6000 0x40002000
      (View.ram.seen (after Env.ram World.ram twoBlocks).world)
      (View.ram.seen (exec (hookedHeapReAlloc Env.ram .plain 7 0 0x40000000 6000)
        ((after Env.ram World.ram twoBlocks).onThread outside)).2) ∧
    Resizes (Owner.Found (after Env.ram World.ram twoBlocks).world.tool 7) 0x40000000 6000 0x40002000
      (View.ram.seen (after Env.ram World.ram twoBlocks).world)
      (View.ram.seen (exec (hookedRtlReAllocateHeap Env.ram .plain 7 0 0x40000000 6000)
        ((after Env.ram World.ram twoBlocks).onThread outside)).2) := by
  have h := reAlloc_moves genuine_ram tidy_ram lawful_twoBlocks outside .plain 7 0 0x40000000 6000 .arena 5000
    (by decide +kernel) trivial
  have e : (exec (hookedHeapReAlloc Env.ram .plain 7 0 0x40000000 6000)
      ((after Env.ram World.ram twoBlocks).onThread outside)).1 = 0x40002000 := by decide +kernel
  have e' : (exec (hookedRtlReAllocateHeap Env.ram .plain 7 0 0x40000000 6000)
      ((after Env.ram World.ram twoBlocks).onThread outside)).1 = 0x40002000 := by decide +kernel
  constructor
  · exact e ▸ h.1 (by rw [e]; decide)
  · exact e' ▸ h.2 (by decide +kernel) (fun hs => absurd hs (by decide +kernel)) (by rw [e']; decide)

/-- During a shutdown the heap is handed a block of the arena: the pointer that it returns has none of its bytes,
and the block stays. -/
theorem not_reAlloc_moves_detaching : Genuine Env.ram .ram ∧ Tidy .ram World.ram.os World.ram.tool ∧
    Run.Guarded (step Env.ram) (Lawful Env.ram .ram) (start World.ram) detaching ∧
    (View.ram.seen (after Env.ram World.ram detaching).world).block 0x40000000 = some (.arena, 5000) ∧
    ((after Env.ram World.ram detaching).onThread outside).busy = false ∧
    ¬ MovesWhole .ram 7 0x40000000 6000 ((after Env.ram World.ram detaching).onThread outside)
      (exec (hookedRtlReAllocateHeap Env.ram .plain 7 0 0x40000000 6000) ((after Env.ram World.ram detaching).onThread outside)) := by
  refine ⟨genuine_ram, tidy_ram, lawful_detaching, by decide +kernel, by decide +kernel, fun h => ?_⟩
  have hgone := (h (by decide +kernel)).gone (by decide +kernel)
  have hstays : (View.ram.seen (exec (hookedRtlReAllocateHeap Env.ram .plain 7 0 0x40000000 6000)
      ((after Env.ram World.ram detaching).onThread outside)).2).block 0x40000000 = some (.arena, 5000) := by decide +kernel
  rw [hstays] at hgone
  cases hgone

end Program

end Ts3Vas
