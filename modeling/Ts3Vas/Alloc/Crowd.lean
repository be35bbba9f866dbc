/-
A run that uses up the node pool: every second page of the arena is freed, so that no two free
blocks touch and each takes a node of its own. The next Free loses its slot, and the next Allocate
that has to drain the caches loses the cached block it needs.
-/
import Ts3Vas.Alloc.Exhaust

namespace Ts3Vas.Sys

open ProxyAllocator

/-- The `i`-th page of the arena, granted for one page. -/
def page (i : ℕ) : Slot := ⟨0x10000000 + i * 4096, 4096⟩

def pageBlock (i : ℕ) : Block := ⟨0x10000000 + i * 4096, 4096⟩

/-- An arena of 174762 pages. -/
def crowdArena : ProxyAllocator := ((construct none none).initFromShared 0x10000000 (174762 * 4096) true).2

theorem crowdArena_started : Started crowdArena :=
  have hr : Reserved 0x10000000 (174762 * 4096) := ⟨by decide, by decide, by decide, by decide⟩
  .initFromShared (.construct none none) hr (rfl : (construct none none).initFromShared _ _ true = _)

/-- All pages but the last are granted; sixteen even pages go to the size class; the even pages below
them go to the free list from the top down. -/
@[irreducible] def fillOps : List Op := (List.range 174761).map fun _ => .allocate 4096 false
@[irreducible] def parkOps : List Op := (List.range 16).map fun j => .free (page (2 * (87365 + j)))
@[irreducible] def gapOps : List Op := (List.range 87364).map fun n => .free (page (2 * (87364 - n)))
def crowdOps : List Op := fillOps ++ (parkOps ++ gapOps)

/-- What stays as it was while the run goes on. -/
structure OnCrowd (s : Sys) : Prop extends Proper s where
  full : s.Full
  gran : s.alloc.allocGranularity = 4096
  base : s.alloc.arenaBase = 0x10000000
  size : s.alloc.arenaSize = 174762 * 4096

theorem OnCrowd.step {s : Sys} (hs : s.OnCrowd) {op : Op} (hop : s.Good op) : (s.step op).OnCrowd := by
  obtain ⟨e1, e2, e3⟩ := (hs.stepped hop.1).same
  exact ⟨hs.toProper.step hop.1, hs.full.step hs.toProper hop.1 hop.2, e3.trans hs.gran, e1.trans hs.base, e2.trans hs.size⟩

theorem crowdArena_onCrowd : OnCrowd ⟨crowdArena, []⟩ :=
  ⟨start_proper crowdArena_started.whole.idle, start_full crowdArena_started.whole, rfl, rfl, rfl⟩

/-! ## Granting the pages -/

structure Filling (k : ℕ) (s : Sys) : Prop extends OnCrowd s where
  free : s.alloc.freeList = [⟨0x10000000 + k * 4096, (174762 - k) * 4096⟩]
  classes : s.alloc.sizeClasses = []
  live : ∀ i < k, page i ∈ s.live

/-- The next page comes off the front of the last block. -/
theorem Filling.allocate {k : ℕ} (hk : k < 174761) {s : Sys} (hs : Filling k s) :
    s.alloc.counted.takeFreeFit 4096 false = (⟨0x10000000 + k * 4096, 4096, false⟩,
      { s.alloc.counted with freeList := [⟨0x10000000 + (k + 1) * 4096, (174762 - (k + 1)) * 4096⟩] }) ∧
    s.alloc.allocate 4096 false = (0x10000000 + k * 4096,
      { s.alloc.counted with freeList := [⟨0x10000000 + (k + 1) * 4096, (174762 - (k + 1)) * 4096⟩] }.grant 4096 4096) := by
  have hneed : s.alloc.slotSize 4096 = 4096 := by rw [slotSize, hs.gran]; decide
  have hpop : popFrom (s.alloc.slotSize 4096) s.alloc.sizeClasses = none := by rw [hs.classes]; rfl
  have hadd : ptrAdd (0x10000000 + k * 4096) 4096 = 0x10000000 + (k + 1) * 4096 := by
    rw [ptrAdd, Nat.mod_eq_of_lt (by omega)]; omega
  have hfit : s.alloc.counted.takeFreeFit 4096 false =
      (⟨0x10000000 + k * 4096, 4096, false⟩,
        { s.alloc.counted with freeList := [⟨0x10000000 + (k + 1) * 4096, (174762 - (k + 1)) * 4096⟩] }) := by
    have hrem : (174762 - k) * 4096 - 4096 = (174762 - (k + 1)) * 4096 := by omega
    have hff : firstFit (alignUp 4096 s.alloc.counted.allocGranularity) s.alloc.counted.allocGranularity
        s.alloc.counted.freeList = some (⟨0x10000000 + k * 4096, 4096, false⟩,
          [⟨0x10000000 + (k + 1) * 4096, (174762 - (k + 1)) * 4096⟩]) := by
      show firstFit (alignUp 4096 s.alloc.allocGranularity) s.alloc.allocGranularity s.alloc.freeList = _
      rw [hs.gran, hs.free, show alignUp 4096 4096 = 4096 by decide]
      simp only [firstFit, if_pos (show 4096 ≤ (174762 - k) * 4096 by omega), hrem,
        if_pos (show 4096 ≤ (174762 - (k + 1)) * 4096 by omega), hadd]
    unfold takeFreeFit
    simp only [Bool.false_eq_true, if_false]
    rw [hff]
  have hne : ¬ (0x10000000 + k * 4096 = 0) := by omega
  refine ⟨hfit, ?_⟩
  rw [allocate_eq hs.books.placed, hpop]
  simp only [fitOrReclaim, hfit, hne, false_and, if_false, settle, Bool.false_eq_true]

theorem Filling.step {k : ℕ} (hk : k < 174761) {s : Sys} (hs : Filling k s) :
    s.Good (.allocate 4096 false) ∧ Filling (k + 1) (s.step (.allocate 4096 false)) := by
  obtain ⟨hfit, halloc⟩ := hs.allocate hk
  have hne : ¬ (0x10000000 + k * 4096 = 0) := by omega
  have hgood : s.Good (.allocate 4096 false) := by
    refine ⟨⟨by decide, ?_⟩, fun hd => ?_⟩
    · rw [hs.gran]; decide
    · have h1 : (s.alloc.takeFreeFit 4096 false).1.grantedAddr = 0x10000000 + k * 4096 := by
        rw [← takeFreeFit_counted ((s.alloc.totalAllocationRequests + 1) % 2 ^ 64)]
        exact congrArg (fun r => r.1.grantedAddr) hfit
      simp [drains, h1] at hd
  refine ⟨hgood, hs.toOnCrowd.step hgood, ?_, ?_, ?_⟩
  · rw [Sys.step_allocate, halloc]; rfl
  · rw [Sys.step_allocate, halloc]; exact hs.classes
  · intro i hi
    rw [Sys.step_allocate, halloc]
    simp only [if_neg hne]
    rcases Nat.lt_succ_iff_lt_or_eq.1 hi with hi | rfl
    · exact List.mem_append_left _ (hs.live i hi)
    · exact List.mem_append_right _ (List.mem_singleton_self _)

/-! ## Filling the size class -/

/-- The chain after `c` frees: the last page freed is its head. -/
def parked : ℕ → List Block
  | 0 => []
  | c + 1 => pageBlock (2 * (87365 + c)) :: parked c

structure Parking (c : ℕ) (s : Sys) : Prop extends OnCrowd s where
  free : s.alloc.freeList = [pageBlock 174761]
  classes : s.alloc.sizeClasses = if c = 0 then [] else [⟨4096, parked c, c, 0⟩]
  live : ∀ i < 174761, (∀ j < c, i ≠ 2 * (87365 + j)) → page i ∈ s.live

theorem length_parked : ∀ c, (parked c).length = c
  | 0 => rfl
  | c + 1 => by rw [parked, List.length_cons, length_parked c]

theorem mem_parked {b : Block} : ∀ {c : ℕ}, b ∈ parked c → ∃ j < c, b = pageBlock (2 * (87365 + j))
  | c + 1, h => by
    rcases List.mem_cons.1 h with rfl | h
    · exact ⟨c, by omega, rfl⟩
    · obtain ⟨j, hj, rfl⟩ := mem_parked h
      exact ⟨j, by omega, rfl⟩

theorem page_addr_injective : Function.Injective fun i => (page i).addr := by
  intro i j e
  simp only [page] at e
  omega

theorem page_ne {i j : ℕ} (h : i ≠ j) : page i ≠ page j := fun e => h (page_addr_injective (congrArg Slot.addr e))

/-- A free of a live page on this arena is an accepted `Free` of one page. -/
theorem OnCrowd.free_eq {s : Sys} (hs : s.OnCrowd) {i : ℕ} (hi : page i ∈ s.live) :
    s.alloc.free (page i).addr (page i).size = match s.alloc.pushSizeClass (page i).addr 4096 with
      | (true, t) => { t with classCachedBytes := (t.classCachedBytes + 4096) % 2 ^ 64 }.discount 4096 4096
      | (false, t) => { (t.insertFreeSortedAndCoalesce (page i).addr 4096).2 with hasMainArenaFree := true }.discount
          4096 4096 := by
  have hal : alignUp (page i).size s.alloc.allocGranularity = 4096 := by
    rw [hs.gran]; show alignUp 4096 4096 = 4096; decide
  have hp := hs.isProxyAddress hi (by rw [hal]; decide)
  have hne : (page i).addr ≠ 0 := by simp only [page]; omega
  unfold ProxyAllocator.free
  rw [if_neg hne, hp, hal]
  rfl

theorem Parking.step {c : ℕ} (hc : c < 16) {s : Sys} (hs : Parking c s) :
    s.Good (.free (page (2 * (87365 + c)))) ∧ Parking (c + 1) (s.step (.free (page (2 * (87365 + c))))) := by
  have hmem : page (2 * (87365 + c)) ∈ s.live := hs.live _ (by omega) fun j hj => by omega
  have hchains : (chains s.alloc.sizeClasses).length ≤ 16 := by
    rw [hs.classes]
    split_ifs
    · simp
    · simp only [chains_cons, chains_nil, List.append_nil, length_parked]; omega
  have hnode : s.alloc.nodeFree ≠ 0 := by
    have := hs.books.nodes
    rw [hs.free, show kNodePoolBytes / blockBytes = 87381 from rfl, List.length_singleton] at this
    omega
  have hgood : s.Good (.free (page (2 * (87365 + c)))) := ⟨hmem, hnode⟩
  have hpush : s.alloc.pushSizeClass (page (2 * (87365 + c))).addr 4096 =
      (true, { s.alloc with sizeClasses := [⟨4096, parked (c + 1), (c + 1 : ℕ), 0⟩], nodeFree := s.alloc.nodeFree - 1 }) := by
    unfold pushSizeClass
    -- the first free makes the class, the others find it
    rcases Nat.eq_zero_or_pos c with rfl | hpos
    · rw [hs.classes]
      simp [findClass, pushInto, kMaxSizeClasses, kMaxCachedPerClass, allocNode, hnode, parked, pageBlock, page]
    · rw [hs.classes, if_neg hpos.ne']
      have hcap : ¬ kMaxCachedPerClass ≤ (c : ℤ) := by simp only [kMaxCachedPerClass]; omega
      simp [findClass, pushInto, hcap, allocNode, hnode, parked, pageBlock, page]
  have hst : s.step (.free (page (2 * (87365 + c)))) = ⟨_, s.live.erase (page (2 * (87365 + c)))⟩ :=
    (Sys.step_free _ _).trans (by rw [hs.free_eq hmem, hpush])
  refine ⟨hgood, hs.toOnCrowd.step hgood, ?_, ?_, fun i hi hne => ?_⟩
  · rw [hst]; exact hs.free
  · rw [hst]; rfl
  · rw [hst]
    refine (List.mem_erase_of_ne (page_ne (hne c (by omega)))).2 (hs.live i hi fun j hj => hne j (by omega))

/-! ## Spreading the free list -/

/-- The free list after `n` more frees. -/
def gaps : ℕ → List Block
  | 0 => [pageBlock 174761]
  | n + 1 => pageBlock (2 * (87364 - n)) :: gaps n

structure Crowded (n : ℕ) (s : Sys) : Prop extends OnCrowd s where
  free : s.alloc.freeList = gaps n
  classes : s.alloc.sizeClasses = [⟨4096, parked 16, 16, 0⟩]
  live : ∀ i < 174761, i % 2 = 1 ∨ i < 2 * (87365 - n) → page i ∈ s.live

theorem length_gaps : ∀ n, (gaps n).length = n + 1
  | 0 => rfl
  | n + 1 => by rw [gaps, List.length_cons, length_gaps n]

theorem last_mem_gaps : ∀ n, pageBlock 174761 ∈ gaps n
  | 0 => List.mem_singleton_self _
  | n + 1 => List.mem_cons_of_mem _ (last_mem_gaps n)

/-- Every block is an even page below the parked ones, or the last page. -/
theorem mem_gaps {b : Block} : ∀ {n : ℕ}, n ≤ 87364 → b ∈ gaps n →
    b = pageBlock 174761 ∨ ∃ i, 87365 - n ≤ i ∧ i < 87365 ∧ b = pageBlock (2 * i)
  | 0, _, h => .inl (List.mem_singleton.1 h)
  | n + 1, hn, h => by
    rcases List.mem_cons.1 h with rfl | h
    · exact .inr ⟨87364 - n, by omega, by omega, rfl⟩
    · rcases mem_gaps (by omega) h with rfl | ⟨i, h1, h2, rfl⟩
      · exact .inl rfl
      · exact .inr ⟨i, by omega, h2, rfl⟩

theorem Crowded.nodes {n : ℕ} {s : Sys} (hs : Crowded n s) : s.alloc.nodeFree + n = 87364 := by
  have := hs.books.nodes
  rw [hs.free, hs.classes, length_gaps, show kNodePoolBytes / blockBytes = 87381 from rfl] at this
  simp only [chains_cons, chains_nil, List.append_nil, length_parked] at this
  omega

theorem Crowded.step {n : ℕ} (hn : n < 87364) {s : Sys} (hs : Crowded n s) :
    s.Good (.free (page (2 * (87364 - n)))) ∧ Crowded (n + 1) (s.step (.free (page (2 * (87364 - n))))) := by
  have hmem : page (2 * (87364 - n)) ∈ s.live := hs.live _ (by omega) (.inr (by omega))
  have hnode : s.alloc.nodeFree ≠ 0 := by have := hs.nodes; omega
  have hgood : s.Good (.free (page (2 * (87364 - n)))) := ⟨hmem, hnode⟩
  have hpush : s.alloc.pushSizeClass (page (2 * (87364 - n))).addr 4096 = (false, s.alloc) := by
    unfold pushSizeClass
    have hfind : findClass 4096 s.alloc.sizeClasses = some s.alloc.sizeClasses := by rw [hs.classes]; rfl
    have hinto : pushInto (page (2 * (87364 - n))).addr 4096 s.alloc.sizeClasses = none := by rw [hs.classes]; rfl
    rw [hfind]
    simp only
    rw [hinto]
  -- the page ends before the first gap, so it becomes the head of the list
  have hfront : insertBlock (pageBlock (2 * (87364 - n))) (gaps n) = gaps (n + 1) := by
    have hlt : ∀ b ∈ gaps n, (pageBlock (2 * (87364 - n))).span.hi < b.span.lo ∧ b.address + b.size < 2 ^ 32 := by
      intro b hb
      simp only [Block.span_hi, Block.span_lo]
      rcases mem_gaps (by omega) hb with rfl | ⟨i, h1, h2, rfl⟩
      · simp only [pageBlock]; omega
      · simp only [pageBlock]; omega
    refine insertBlock_front (List.forall_mem_cons.2 ⟨by simp only [pageBlock]; omega, fun b hb => (hlt b hb).2⟩) ?_
    exact Span.separated_cons.2 ⟨forall_spans.2 fun b hb => (hlt b hb).1, hs.free ▸ hs.sorted.separated⟩
  have hst : (s.step (.free (page (2 * (87364 - n))))).alloc.freeList = gaps (n + 1) ∧
      (s.step (.free (page (2 * (87364 - n))))).alloc.sizeClasses = s.alloc.sizeClasses := by
    rw [Sys.step_free, hs.free_eq hmem, hpush]
    rcases insert_cases s.alloc (page (2 * (87364 - n))).addr 4096 with ⟨h0, -⟩ | ⟨-, m, e, -⟩
    · exact absurd h0 hnode
    · simp only [e]
      exact ⟨by rw [← hfront, ← hs.free]; rfl, rfl⟩
  refine ⟨hgood, hs.toOnCrowd.step hgood, hst.1, hst.2.trans hs.classes, fun i hi h => ?_⟩
  rw [Sys.step_free]
  exact (List.mem_erase_of_ne (page_ne (by omega))).2 (hs.live i hi (by omega))

/-! ## The whole run -/

theorem filled : Run.Guarded step Good ⟨crowdArena, []⟩ fillOps ∧ Filling 174761 (Run.after step ⟨crowdArena, []⟩ fillOps) := by
  unfold fillOps
  exact Run.Guarded.loop ⟨crowdArena_onCrowd, rfl, rfl, fun i hi => absurd hi (Nat.not_lt_zero i)⟩ fun _ _ hk ht => ht.step hk

theorem Filling.parked {s : Sys} (hs : Filling 174761 s) :
    Run.Guarded Sys.step Good s parkOps ∧ Parking 16 (Run.after Sys.step s parkOps) := by
  unfold parkOps
  exact Run.Guarded.loop (P := Parking) ⟨hs.toOnCrowd, hs.free, hs.classes, fun i hi _ => hs.live i hi⟩
    fun _ _ hk ht => ht.step hk

theorem Parking.spread {s : Sys} (hs : Parking 16 s) :
    Run.Guarded Sys.step Good s gapOps ∧ Crowded 87364 (Run.after Sys.step s gapOps) := by
  unfold gapOps
  exact Run.Guarded.loop (P := Crowded)
    ⟨hs.toOnCrowd, hs.free, hs.classes, fun i hi h => hs.live i hi fun j hj => by omega⟩ fun _ _ hk ht => ht.step hk

theorem crowded : Run.Guarded step Good ⟨crowdArena, []⟩ crowdOps ∧
    Crowded 87364 (Run.after step ⟨crowdArena, []⟩ crowdOps) := by
  obtain ⟨g1, h1⟩ := filled
  obtain ⟨g2, h2⟩ := h1.parked
  obtain ⟨g3, h3⟩ := h2.spread
  have hg := g1.append (Run.Guarded.append g2 g3)
  rw [← Run.after_append, ← Run.after_append] at h3
  exact ⟨hg, h3⟩

/-! ## What goes wrong at its end -/

section
variable {s : Sys} (hs : Crowded 87364 s)
include hs

theorem Crowded.no_node : s.alloc.nodeFree = 0 := by have := hs.nodes; omega

/-- The free of one more page loses the page. -/
theorem Crowded.free_loses : s.WellFormed (.free (page 0)) ∧ ¬ (s.step (.free (page 0))).Conserved := by
  have hmem : s.WellFormed (.free (page 0)) := hs.live 0 (by omega) (.inr (by omega))
  exact ⟨hmem, hs.full.not_conserved hs.toProper hmem fun hr => hr hs.no_node⟩

theorem Crowded.slotSize_eq : s.alloc.slotSize 8192 = 8192 := by rw [slotSize, hs.gran]; decide

theorem Crowded.size_eq {b : Block} (hb : b ∈ s.alloc.freeList) : b.size = 4096 := by
  rw [hs.free] at hb
  rcases mem_gaps le_rfl hb with rfl | ⟨i, -, -, rfl⟩ <;> rfl

theorem Crowded.drains : s.alloc.drains 8192 false := by
  have hpop : popFrom (s.alloc.slotSize 8192) s.alloc.sizeClasses = none := by
    rw [hs.slotSize_eq, hs.classes]; rfl
  have hbytes : 0 < s.alloc.classCachedBytes := by
    rw [hs.books.bytes, hs.classes]; decide
  have hfit : (s.alloc.takeFreeFit 8192 false).1.grantedAddr = 0 := by
    rcases takeFreeFit_cases hs.books.placed hs.laid 8192 false with ⟨f, l, -, hc, -⟩ | ⟨e, -⟩
    · obtain ⟨-, pre, cur, post, hl, hle, -⟩ := hc
      have := hs.size_eq (b := cur) (by rw [hl]; simp)
      rw [hs.slotSize_eq] at hle
      omega
    · rw [e]
  simp [ProxyAllocator.drains, hpop, hfit, hbytes]

/-- Bytes that a block of the free list or of the caches holds are not live. -/
theorem Crowded.not_live {x : ℕ} (hx : 0 < Span.cover (Ts3Vas.spans s.alloc.freeList) x +
    Span.cover (Ts3Vas.spans (chains s.alloc.sizeClasses)) x) : Span.cover s.spans x = 0 := by
  have h := hs.laid.once x
  simp only [Pieces.cover_all, Sys.pieces, ProxyAllocator.pieces] at h
  omega

/-- The last parked page and the last page of the arena are neighbours, and neither is live. -/
theorem Crowded.room : s.Room 8192 := by
  refine ⟨0x10000000 + 174760 * 4096, by rw [hs.gran]; decide, by rw [hs.base, hs.size]; decide, fun q hq x hx hx' => ?_⟩
  have hfree : (pageBlock 174761).span ∈ Ts3Vas.spans s.alloc.freeList := by
    rw [hs.free]; exact mem_spans (last_mem_gaps _)
  have hcached : (pageBlock 174760).span ∈ Ts3Vas.spans (chains s.alloc.sizeClasses) := by
    rw [hs.classes]; exact mem_spans (List.mem_cons_self ..)
  have hdead : Span.cover s.spans x = 0 := by
    apply hs.not_live
    simp only [Span.mem_mk] at hx
    by_cases h : x < 0x10000000 + 174761 * 4096
    · have := Span.one_le_cover hcached (x := x) (by simp only [Span.mem_iff, Block.span_lo, Block.span_hi, pageBlock]; omega)
      omega
    · have := Span.one_le_cover hfree (x := x) (by simp only [Span.mem_iff, Block.span_lo, Block.span_hi, pageBlock]; omega)
      omega
  have := Span.one_le_cover hq hx'
  omega

/-- Odd pages are live, so two neighbours that are not are the last parked page and the last page;
but the first block reclaimed, which is that parked page, goes nowhere. -/
theorem Crowded.null : (s.alloc.allocate 8192 false).1 = 0 := by
  by_contra hne
  have htop := hs.books.placed.top_lt
  have hgran := hs.gran
  have hbase := hs.base
  have hsize := hs.size
  have h := allocate_granting (s.alloc.allocGranularity ∣ ·) hs.books hs.laid false
    (dvd_alignUp hs.books.placed.gran 8192)
  obtain ⟨hcs, hst⟩ := h.lost fun hr => hr hs.drains hs.no_node
  have hl := hs.laid.steps (fun _ h => h) htop h.steps
  have hlq : s.alloc.Laid ⟨s.spans, s.alloc.freeList, (chains s.alloc.sizeClasses).tail⟩ :=
    hs.laid.loss (.reclaimed (b := (chains s.alloc.sizeClasses).head hcs)
      ((List.cons_head_tail hcs).symm ▸ List.Perm.refl _))
  have hle := fun x => hst.cover_le (fun _ h => h) htop hlq x
  rw [handOut_of_ne hne, hs.slotSize_eq] at hl hle
  generalize (s.alloc.allocate 8192 false).1 = p at *
  generalize (s.alloc.allocate 8192 false).2 = t at *
  have hin := (Pieces.forall_all.1 hl.inArena).1 ⟨p, 8192⟩ (List.mem_append_right _ (List.mem_singleton_self _))
  have hone := hl.once
  simp only [Pieces.cover_all, ProxyAllocator.pieces, Span.cover_append, Span.cover_cons, Span.cover_nil] at hone hle
  -- a byte of the grant is not live, so it was free or cached after the loss
  have hheld : ∀ x, p ≤ x → x < p + 8192 → Span.cover s.spans x = 0 ∧
      0 < Span.cover (Ts3Vas.spans s.alloc.freeList) x +
        Span.cover (Ts3Vas.spans (chains s.alloc.sizeClasses).tail) x := by
    intro x h1 h2
    have ha := hone x
    have hb := hle x
    rw [if_pos (Span.mem_mk.2 ⟨h1, h2⟩)] at ha hb
    omega
  obtain ⟨k, hk⟩ : ∃ k, p = 0x10000000 + k * 4096 := by
    obtain ⟨c, hc⟩ := hgran ▸ hin.lo_dvd
    have := hbase ▸ hin.within.1
    simp only at hc this
    exact ⟨c - 65536, by omega⟩
  have hk2 : k + 2 ≤ 174762 := by
    have := hin.within.2
    rw [hbase, hsize] at this
    simp only [Span.hi_mk] at this
    omega
  have hodd : ∀ i, i % 2 = 1 → i < 174761 → i = k ∨ i = k + 1 → False := by
    intro i h1 h2 h3
    have hx := Span.one_le_cover (List.mem_map_of_mem (f := Slot.span s.alloc.allocGranularity) (hs.live i h2 (.inl h1)))
      (x := 0x10000000 + i * 4096) (by
        rw [hgran]
        simp only [Slot.span, page, Span.mem_mk, show alignUp 4096 4096 = 4096 by decide]; omega)
    have := (hheld (0x10000000 + i * 4096) (by omega) (by omega)).1
    exact absurd (this ▸ hx) (by decide)
  have hk : k = 174760 := by
    by_contra hne'
    rcases Nat.mod_two_eq_zero_or_one k with h | h
    · exact hodd (k + 1) (by omega) (by omega) (.inr rfl)
    · exact hodd k h (by omega) (.inl rfl)
  obtain ⟨-, hx⟩ := hheld p le_rfl (by omega)
  rcases Nat.add_pos_iff_pos_or_pos.1 hx with hx | hx
  · obtain ⟨q, hq, hxq⟩ := Span.cover_pos_iff.1 hx
    obtain ⟨b, hb, rfl⟩ := List.mem_map.1 hq
    rw [hs.free] at hb
    rcases mem_gaps le_rfl hb with rfl | ⟨i, -, hi, rfl⟩
    · simp only [Span.mem_iff, Block.span_lo, pageBlock] at hxq; omega
    · simp only [Span.mem_iff, Block.span_hi, pageBlock] at hxq; omega
  · obtain ⟨q, hq, hxq⟩ := Span.cover_pos_iff.1 hx
    obtain ⟨b, hb, rfl⟩ := List.mem_map.1 hq
    rw [hs.classes] at hb
    obtain ⟨j, hj, rfl⟩ := mem_parked (c := 15) hb
    simp only [Span.mem_iff, Block.span_hi, pageBlock] at hxq; omega

end

/-- The bytes are not conserved in every run: the crowded arena loses a page. -/
theorem not_conserved_crowd : ¬ ∀ a, Started a → ∀ ops, Run WellFormed a ops →
    (∀ pre, pre <+: ops → (after a pre).Conserved) ∧ Run Keeps a ops := by
  intro h
  obtain ⟨hrun, hc⟩ := crowded
  obtain ⟨hmem, hlost⟩ := hc.free_loses
  have hops : Run WellFormed crowdArena (crowdOps ++ [.free (page 0)]) :=
    Run.guarded_concat.2 ⟨hrun.imp fun _ _ h => h.1, hmem⟩
  have := (h crowdArena crowdArena_started _ hops).1 _ (List.prefix_refl _)
  rw [after, Run.after_append] at this
  exact hlost this

/-- A null although there is room, after a run in which every insert found a node. -/
theorem not_allocate_null_crowd : ¬ ∀ a, Started a → ∀ ops, Run Good a ops → ∀ size fromTop, 0 < size →
    NoWrap (after a ops).alloc.allocGranularity size → (after a ops).NullIffNoRoom size fromTop := by
  intro h
  obtain ⟨hrun, hc⟩ := crowded
  have hnull := h crowdArena crowdArena_started _ hrun 8192 false (by decide) (by rw [hc.gran]; decide)
  apply hnull.1 hc.null
  rw [hc.slotSize_eq]
  exact hc.room

end Ts3Vas.Sys
