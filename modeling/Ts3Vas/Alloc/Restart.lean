/-
Shutdown and a new start of one allocator object: what the new life finds of the old one.
-/
import Ts3Vas.Alloc.Runs

namespace Ts3Vas

namespace ProxyAllocator

/-! ## Reachable states -/

/-- The states of an allocator object after any calls at all, in any order and with any arguments. What
a call does that reads a lost node is not known, so none goes on from there. -/
inductive Reachable : ProxyAllocator → Prop
  | construct (granKb topDownKb : Option ℤ) : Reachable (construct granKb topDownKb)
  | initializeArena {s : ProxyAllocator} (arenaSize reserved : ℕ) (mem : Bool) :
      Reachable s → Reachable (s.initializeArena arenaSize reserved mem).2
  | initFromShared {s : ProxyAllocator} (base size : ℕ) (mem : Bool) :
      Reachable s → Reachable (s.initFromShared base size mem).2
  | allocate {s : ProxyAllocator} (size : ℕ) (fromTop : Bool) : Reachable s → s.readsLost size fromTop = false →
      Reachable (s.allocate size fromTop).2
  | free {s : ProxyAllocator} (ptr size : ℕ) : Reachable s → Reachable (s.free ptr size)
  | shutdown {s : ProxyAllocator} : Reachable s → Reachable s.shutdown

/-- What no call breaks. -/
structure Formed (s : ProxyAllocator) : Prop where
  gran : Granularity s.allocGranularity
  table : ClassTable False s.sizeClasses

section
variable {s t : ProxyAllocator}

theorem Formed.of_same (h : Formed s) (hg : t.allocGranularity = s.allocGranularity) (ht : t.sizeClasses = s.sizeClasses) :
    Formed t := ⟨hg ▸ h.gran, ht ▸ h.table⟩

theorem Formed.initNodePool (h : Formed s) (mem : Bool) : Formed (s.initNodePool mem).2 := by
  unfold ProxyAllocator.initNodePool
  split_ifs <;> exact h.of_same rfl rfl

theorem Formed.insert (h : Formed s) (addr size : ℕ) : Formed (s.insertFreeSortedAndCoalesce addr size).2 := by
  rcases insert_cases s addr size with ⟨-, e⟩ | ⟨-, m, e, -⟩
  · rw [e]; exact h
  · rw [e]; exact h.of_same rfl rfl

theorem Formed.initFromShared (h : Formed s) (base size : ℕ) (mem : Bool) : Formed (s.initFromShared base size mem).2 := by
  unfold ProxyAllocator.initFromShared
  split
  · exact h
  have hp := h.initNodePool mem
  rcases hu : s.initNodePool mem with ⟨_ | _, u⟩
  · rw [hu] at hp; exact hp
  rw [hu] at hp
  have hi := Formed.insert (s := { u with arenaBase := base, arenaSize := alignUp size u.allocGranularity, ownsArena := false, freeList := [] })
    (hp.of_same rfl rfl) base (alignUp size u.allocGranularity)
  simp only
  split
  · rename_i e; rw [e] at hi; exact hi.of_same rfl rfl
  · rename_i e; rw [e] at hi; exact hi

theorem Formed.initializeArena (h : Formed s) (arenaSize reserved : ℕ) (mem : Bool) :
    Formed (s.initializeArena arenaSize reserved mem).2 := by
  unfold ProxyAllocator.initializeArena
  split
  · exact h
  have hp := h.initNodePool mem
  rcases hu : s.initNodePool mem with ⟨_ | _, u⟩
  · rw [hu] at hp; exact hp
  rw [hu] at hp
  simp only
  split
  · exact hp
  have hi := Formed.insert (s := { u with arenaBase := reserved, arenaSize := alignUp arenaSize u.allocGranularity, freeList := [], ownsArena := true })
    (hp.of_same rfl rfl) reserved (alignUp arenaSize u.allocGranularity)
  split
  · rename_i e; rw [e] at hi; exact hi.of_same rfl rfl
  · rename_i e; rw [e] at hi; exact hi

theorem Formed.reclaimCache (h : Formed s) : Formed s.reclaimCache := by
  have hfold : ∀ (bs : List Block) (s : ProxyAllocator), Formed s → Formed (bs.foldl reclaimBlock s) := by
    intro bs
    induction bs with
    | nil => exact fun _ h => h
    | cons b bs ih =>
      intro s h
      exact ih _ ((h.insert b.address b.size).of_same rfl rfl)
  have hf := hfold (s.sizeClasses.flatMap (·.blocks)) s h
  exact ⟨hf.gran, hf.table.drain.forget⟩

theorem Formed.takeFreeFit (h : Formed s) (size : ℕ) (fromTop : Bool) : Formed (s.takeFreeFit size fromTop).2 := by
  simp only [ProxyAllocator.takeFreeFit]
  split <;> exact h.of_same rfl rfl

theorem Formed.allocate (h : Formed s) (size : ℕ) (fromTop : Bool) : Formed (s.allocate size fromTop).2 := by
  have hc : Formed s.counted := h.of_same rfl rfl
  simp only [ProxyAllocator.allocate, popSizeClass]
  split
  · exact h.of_same rfl rfl
  cases hp : popFrom (alignUp size s.allocGranularity) s.sizeClasses with
  | some bc => exact ⟨h.gran, (popFrom_table h.table hp).1⟩
  | none =>
    have hfit : Formed (s.counted.fitOrReclaim size fromTop).2 := by
      simp only [fitOrReclaim]
      split
      · exact ((hc.takeFreeFit size fromTop).reclaimCache).takeFreeFit size fromTop
      · exact hc.takeFreeFit size fromTop
    have hsettle : ∀ {u : ProxyAllocator} (f : Fit), Formed u → Formed (u.settle size f).2 := by
      intro u f hu
      unfold settle
      split
      · exact hu.of_same rfl rfl
      · split <;> exact hu.of_same rfl rfl
    exact hsettle _ hfit

theorem Formed.free (h : Formed s) (ptr size : ℕ) : Formed (s.free ptr size) := by
  unfold ProxyAllocator.free
  split
  · exact h
  split
  · exact h
  rcases push_cases h.table ptr (s.slotSize_lt size) with ⟨-, cs, e, ht, -⟩ | ⟨cs, e, ht, -⟩
  · simp only [slotSize] at e
    simp only [e]
    exact Formed.of_same (s := { s with sizeClasses := cs }) ⟨h.gran, ht⟩ rfl rfl
  · simp only [slotSize] at e
    simp only [e]
    have hi : Formed ({ s with sizeClasses := cs }.insertFreeSortedAndCoalesce ptr (alignUp size s.allocGranularity)).2 :=
      Formed.insert (s := { s with sizeClasses := cs }) ⟨h.gran, ht⟩ _ _
    exact hi.of_same rfl rfl

theorem Formed.shutdown (h : Formed s) : Formed s.shutdown := ⟨h.gran, h.table.release⟩

theorem Reachable.formed (h : Reachable s) : Formed s := by
  induction h with
  | construct granKb topDownKb => exact ⟨granularity_construct _ _, ClassTable.nil⟩
  | initializeArena arenaSize reserved mem _ ih => exact ih.initializeArena arenaSize reserved mem
  | initFromShared base size mem _ ih => exact ih.initFromShared base size mem
  | allocate size fromTop _ _ ih => exact ih.allocate size fromTop
  | free ptr size _ ih => exact ih.free ptr size
  | shutdown _ ih => exact ih.shutdown

end

/-! ## The new life -/

/-- `Shutdown`, then a successful `Initialize` or `InitFromShared`. -/
inductive Restarted (s : ProxyAllocator) : ProxyAllocator → Prop
  | initializeArena {t : ProxyAllocator} {arenaSize reserved : ℕ} {mem : Bool} : arenaSize < 2 ^ 32 →
      Reserved reserved (s.slotSize arenaSize) → s.shutdown.initializeArena arenaSize reserved mem = (true, t) →
      Restarted s t
  | initFromShared {t : ProxyAllocator} {base size : ℕ} {mem : Bool} : Reserved base size →
      s.shutdown.initFromShared base size mem = (true, t) → Restarted s t

/-- What a start promises. -/
structure Clean (t : ProxyAllocator) : Prop where
  free : t.freeList = [⟨t.arenaBase, t.arenaSize⟩]
  /-- No size class has a head. -/
  cached : ∀ c ∈ t.sizeClasses, c.blocks = [] ∧ c.lost = 0
  used : t.usedBytes = 0
  liveRequested : t.liveRequestedBytes = 0
  cachedBytes : t.classCachedBytes = 0
  active : t.activeAllocations = 0
  /-- Every slot of every later run lies in the arena, apart from the other live slots. -/
  later : ∀ ops, Sys.Run Sys.WellFormed t ops →
    (∀ p ∈ (Sys.after t ops).spans, p.Within t.arenaBase (t.arenaBase + t.arenaSize)) ∧
      (Sys.after t ops).spans.Pairwise Span.Apart

/-- The old state with a new arena and a new pool. -/
def restart (s : ProxyAllocator) (base size : ℕ) (owns : Bool) : ProxyAllocator :=
  adopt { s.shutdown with nodePoolMem := true, nodeFree := kNodePoolBytes / blockBytes } base size owns

section
variable {s t : ProxyAllocator}

theorem shutdown_initNodePool (s : ProxyAllocator) (mem : Bool) : s.shutdown.initNodePool mem =
    if mem then (true, { s.shutdown with nodePoolMem := true, nodeFree := kNodePoolBytes / blockBytes })
    else (false, s.shutdown) := rfl

/-- A restart puts the new arena over the old state. -/
theorem Restarted.eq_restart (hg : Granularity s.allocGranularity) (h : Restarted s t) : ∃ base size owns, t = s.restart base size owns ∧ 65536 ∣ base ∧
    0 < base ∧ 0 < s.slotSize size ∧ base + s.slotSize size < 2 ^ 32 := by
  -- after a shutdown there is no arena, so the initialisation goes through
  have hbase : s.shutdown.arenaBase = 0 := rfl
  cases h with
  | @initializeArena arenaSize reserved mem hlt hr e =>
    have htop := hr.top
    refine ⟨reserved, arenaSize, true, ?_, hr.dvd, hr.base_pos, hr.size_pos, by omega⟩
    rw [ProxyAllocator.initializeArena, if_neg (not_not.2 hbase), shutdown_initNodePool] at e
    cases mem with
    | false => cases e
    | true =>
      simp only [if_true, if_neg hr.base_pos.ne'] at e
      rw [insert_first rfl rfl] at e
      cases e; rfl
  | @initFromShared base size mem hr e =>
    have htop := hr.top
    have hle := hg.le
    have hb := alignUp_bounds hg (hr.noWrap hg)
    refine ⟨base, size, false, ?_, hr.dvd, hr.base_pos, hr.size_pos.trans_le hb.1, ?_⟩
    · rw [ProxyAllocator.initFromShared, if_neg (not_not.2 hbase), shutdown_initNodePool] at e
      cases mem with
      | false => cases e
      | true =>
        simp only [if_true] at e
        rw [insert_first rfl rfl] at e
        cases e; rfl
    · rw [slotSize]; omega

/-- The classes of a restart are those of the old life with their nodes lost. -/
theorem restart_empty (base size : ℕ) (owns : Bool) : (∀ c ∈ (s.restart base size owns).sizeClasses, c.blocks = [] ∧ c.lost = 0) ↔
    ∀ c ∈ s.sizeClasses, c.blocks = [] ∧ c.lost = 0 := by
  rw [show (s.restart base size owns).sizeClasses = s.sizeClasses.map SizeClassList.release from rfl, List.forall_mem_map]
  refine forall₂_congr fun c _ => ?_
  simp only [SizeClassList.release, true_and, Nat.add_eq_zero_iff, List.length_eq_zero_iff]
  exact and_comm

theorem Formed.restart_idle (h : Formed s) (hc : ∀ c ∈ s.sizeClasses, c.blocks = [] ∧ c.lost = 0) (hb : s.classCachedBytes = 0)
    {base size : ℕ} (hd : 65536 ∣ base) (hpos : 0 < base) (hsize : 0 < s.slotSize size)
    (htop : base + s.slotSize size < 2 ^ 32) (owns : Bool) : Idle (s.restart base size owns) := by
  have hempty := (restart_empty base size owns).2 hc
  have hchains : chains (s.restart base size owns).sizeClasses = [] := List.flatMap_eq_nil_iff.2 fun c hc => (hempty c hc).1
  refine ⟨⟨⟨h.gran, Nat.le_of_dvd hpos hd, h.gran.dvd.trans hd, dvd_alignUp h.gran size, htop⟩,
    h.table.release.whole fun c hc => (hempty c hc).2, ?_, ?_⟩, hsize, rfl, hchains⟩
  · rw [hchains]
    show kNodePoolBytes / blockBytes - 1 + 1 + 0 = _
    rfl
  · rw [hchains]; exact hb

end

/-- A restart is clean exactly when the old life left no node in a cache and no byte on the books
that `Shutdown` does not reset. -/
theorem restart_clean_iff {s t : ProxyAllocator} (h : Reachable s) (ht : Restarted s t) : Clean t ↔
    (∀ c ∈ s.sizeClasses, c.blocks = [] ∧ c.lost = 0) ∧ s.classCachedBytes = 0 ∧ s.liveRequestedBytes = 0 := by
  obtain ⟨base, size, owns, rfl, hd, hpos, hsize, htop⟩ := ht.eq_restart h.formed.gran
  constructor
  · intro hc
    exact ⟨(restart_empty base size owns).1 hc.cached, hc.cachedBytes, hc.liveRequested⟩
  · rintro ⟨hcached, hbytes, hlive⟩
    have hidle := h.formed.restart_idle hcached hbytes hd hpos hsize htop owns
    refine ⟨rfl, (restart_empty base size owns).2 hcached, rfl, hlive, hbytes, rfl, fun ops hops => ?_⟩
    have hproper := Sys.proper_after hidle hops
    have hsame := Sys.sameArena_after (s.restart base size owns) ops
    refine ⟨fun p hp => ?_, hproper.pairwise⟩
    have hin := hproper.laid.within p (List.mem_append_left _ hp)
    rw [hsame.1, hsame.2.1] at hin
    exact hin

open Sys in
/-- Nothing was granted before the restart. -/
theorem restart_clean_arena64K : Clean (arena64K.shutdown.initFromShared 0x20000000 0x10000 true).2 :=
  have hr : Reserved 0x20000000 0x10000 := ⟨by decide, by decide, by decide, by decide⟩
  have ht : Restarted arena64K (arena64K.shutdown.initFromShared 0x20000000 0x10000 true).2 :=
    .initFromShared hr (rfl : arena64K.shutdown.initFromShared _ _ true = _)
  (restart_clean_iff (.initFromShared 0x10000000 0x10000 true (.construct none none)) ht).2 ⟨by decide, rfl, rfl⟩

open Sys in
/-- One slot granted and freed in the first life. -/
def reused : ProxyAllocator := (arena64K.allocate 5000 false).2.free 0x10000000 5000

/-- After the restart its class has a head in the pool that is gone, and a request of the size reads it. -/
theorem not_clean_reused : Reachable reused ∧
    Restarted reused (reused.shutdown.initFromShared 0x20000000 0x10000 true).2 ∧
    (reused.shutdown.initFromShared 0x20000000 0x10000 true).2.readsLost 5000 false = true ∧
    ¬ Clean (reused.shutdown.initFromShared 0x20000000 0x10000 true).2 := by
  have hr : Reserved 0x20000000 0x10000 := ⟨by decide, by decide, by decide, by decide⟩
  refine ⟨.free _ _ (.allocate _ _ (.initFromShared 0x10000000 0x10000 true (.construct none none)) (by decide +kernel)),
    .initFromShared hr (rfl : reused.shutdown.initFromShared _ _ true = _), by decide +kernel, fun h => ?_⟩
  have hcached : ¬ ∀ c ∈ (reused.shutdown.initFromShared 0x20000000 0x10000 true).2.sizeClasses, c.blocks = [] ∧ c.lost = 0 := by
    decide +kernel
  exact hcached h.cached

end ProxyAllocator

end Ts3Vas
