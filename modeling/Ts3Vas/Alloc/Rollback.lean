/-
A slot that is granted and given back at once, as by a redirect that cannot commit its pages: what
`Free` undoes of `Allocate`, in every state that calls of any sizes lead to.
-/
import Ts3Vas.Alloc.Stats

namespace Ts3Vas

namespace ProxyAllocator

section
variable {s : ProxyAllocator} {live : List Span} {size : ℕ}

/-! ## What a search is sure to find -/

theorem popFrom_none {n : ℕ} : ∀ {cs : List SizeClassList}, ClassTable True cs → popFrom n cs = none → ∀ b ∈ chains cs, b.size ≠ n
  | [], _, _ => fun b hb => absurd hb List.not_mem_nil
  | c :: cs, ht, h => by
    have htail : ClassTable True cs := by
      obtain ⟨h1, h2, h3, h4, h5, h6, h7⟩ := ht
      refine ⟨(List.nodup_cons.1 h1).2, fun d hd => h2 d (List.mem_cons_of_mem _ hd), fun d hd => h3 d (List.mem_cons_of_mem _ hd),
        fun d hd => h4 d (List.mem_cons_of_mem _ hd), fun d hd => h5 d (List.mem_cons_of_mem _ hd),
        fun hk d hd => h6 hk d (List.mem_cons_of_mem _ hd), (Nat.le_succ _).trans h7⟩
    unfold popFrom at h
    intro b hb
    rw [chains_cons, List.mem_append] at hb
    split at h
    · rename_i m next hbl
      split at h
      · cases h
      · rename_i hn
        rcases hb with hb | hb
        · rw [ht.own c (List.mem_cons_self ..) b hb]
          exact hn
        · exact popFrom_none htail (Option.map_eq_none_iff.1 h) b hb
    · rename_i hbl
      rcases hb with hb | hb
      · rw [hbl] at hb
        exact absurd hb List.not_mem_nil
      · exact popFrom_none htail (Option.map_eq_none_iff.1 h) b hb

/-- The null page belongs to no arena. -/
theorem Books.address_ne_zero (hs : s.Books) (hl : s.Laid (s.pieces live)) {b : Block} (hb : b ∈ chains s.sizeClasses) :
    b.address ≠ 0 := by
  have hin := ((Pieces.forall_all.1 hl.inArena).2.2 b hb).within.1
  have hlow := hs.placed.low
  rw [Block.span_lo] at hin
  omega

/-- A cached block of the size is enough for `Allocate`, -/
theorem Books.allocate_of_cached (hs : s.Books) (hl : s.Laid (s.pieces live)) {b : Block} (hb : b ∈ chains s.sizeClasses)
    (hsize : b.size = s.slotSize size) (fromTop : Bool) : (s.allocate size fromTop).1 ≠ 0 := by
  rw [allocate_eq hs.placed]
  cases hq : popFrom (s.slotSize size) s.sizeClasses with
  | some q =>
    obtain ⟨c, cs⟩ := q
    exact hs.address_ne_zero hl ((popFrom_table hs.table hq).2.2.mem_iff.2 (List.mem_cons_self ..))
  | none => exact absurd hsize (popFrom_none hs.table hq b hb)

/-- and so is a free block that is large enough. -/
theorem Books.allocate_of_free (hs : s.Books) (hl : s.Laid (s.pieces live)) {b : Block} (hb : b ∈ s.freeList)
    (hsize : s.slotSize size ≤ b.size) (fromTop : Bool) : (s.allocate size fromTop).1 ≠ 0 := by
  rw [allocate_eq hs.placed]
  cases hq : popFrom (s.slotSize size) s.sizeClasses with
  | some q =>
    obtain ⟨c, cs⟩ := q
    exact hs.address_ne_zero hl ((popFrom_table hs.table hq).2.2.mem_iff.2 (List.mem_cons_self ..))
  | none =>
    have hplaced : s.counted.Placed := hs.placed.of_same ⟨rfl, rfl, rfl⟩
    rcases takeFreeFit_cases hplaced hl size fromTop with ⟨f, l, e, -, hne⟩ | ⟨-, hsmall⟩
    · have hfit : s.counted.fitOrReclaim size fromTop = (f, { s.counted with freeList := l }) := by
        unfold fitOrReclaim
        rw [e]
        exact if_neg fun h => hne h.1
      rw [hfit]
      show (settle _ size f).1 ≠ 0
      unfold settle
      rw [if_neg hne]
      exact hne
    · exact absurd (hsmall b hb) (Nat.not_lt.2 hsize)

/-! ## The node pool -/

theorem nodeFree_foldl_reclaimBlock : ∀ (bs : List Block) (s : ProxyAllocator), s.nodeFree ≠ 0 →
    (bs.foldl reclaimBlock s).nodeFree ≠ 0
  | [], _, h => h
  | b :: bs, s, _ => nodeFree_foldl_reclaimBlock bs (s.reclaimBlock b) (Nat.succ_ne_zero _)

/-- `Allocate` takes no node for good. -/
theorem Books.nodeFree_allocate (hs : s.Books) (hn : s.nodeFree ≠ 0) (size : ℕ) (fromTop : Bool) :
    (s.allocate size fromTop).2.nodeFree ≠ 0 := by
  have hsettle : ∀ (t : ProxyAllocator) (f : Fit), t.nodeFree ≠ 0 → (t.settle size f).2.nodeFree ≠ 0 := by
    intro t f h
    unfold settle
    split
    · exact h
    · cases f.removed with
      | true => exact Nat.succ_ne_zero _
      | false => exact h
  have hfit : ∀ t : ProxyAllocator, (t.takeFreeFit size fromTop).2.nodeFree = t.nodeFree := by
    intro t
    unfold takeFreeFit
    dsimp only
    split <;> rfl
  rw [allocate_eq hs.placed]
  cases popFrom (s.slotSize size) s.sizeClasses with
  | some q => exact Nat.succ_ne_zero _
  | none =>
    refine hsettle _ _ ?_
    unfold fitOrReclaim
    dsimp only
    split
    · rw [hfit]
      refine nodeFree_foldl_reclaimBlock _ _ ?_
      rw [hfit]
      exact hn
    · rw [hfit]
      exact hn

end

end ProxyAllocator

namespace Sys

open ProxyAllocator

/-! ## What every run keeps -/

/-- The invariant of runs with requests of any size: what is used is what is live, and the sum of what was
asked for is a 32-bit number, right or not, as the count of slots is a 64-bit one. -/
structure Ledger (s : Sys) : Prop extends Sound s where
  used : s.alloc.usedBytes = Span.total s.spans
  requested : s.alloc.liveRequestedBytes < 2 ^ 32
  active : s.alloc.activeAllocations < 2 ^ 64

/-- A live slot, or an empty one on the allocator's grid. -/
def Givable (s : Sys) (slot : Slot) : Prop :=
  slot ∈ s.live ∨ s.alloc.slotSize slot.size = 0 ∧ s.alloc.allocGranularity ∣ slot.addr

section
variable {s : Sys} {size : ℕ} {fromTop : Bool}

theorem Ledger.allocate (hs : s.Ledger) (size : ℕ) (fromTop : Bool) : (s.step (.allocate size fromTop)).Ledger := by
  obtain ⟨hsound, hsame⟩ := hs.allocate_same size fromTop
  refine ⟨hsound, ?_, ?_, ?_⟩
  · rcases tally_allocate hs.books hs.laid size fromTop with ⟨hp, ht⟩ | ⟨hp, r, -, ht⟩
    · have hused : (s.alloc.allocate size fromTop).2.usedBytes = s.alloc.usedBytes := congrArg Tally.used ht
      rw [Sys.spans, hsame.2.2, Sys.step_allocate, if_pos hp, hused]
      exact hs.used
    · have hused : (s.alloc.allocate size fromTop).2.usedBytes = (s.alloc.usedBytes + s.alloc.slotSize size) % 2 ^ 32 :=
        congrArg Tally.used ht
      have htotal : Span.total (s.step (.allocate size fromTop)).spans = Span.total s.spans + s.alloc.slotSize size := by
        rw [Sys.spans, hsame.2.2, live_granted hp, List.map_append, Span.total_append]
        rfl
      -- what is live fits in the arena, so the sum does not wrap
      have hle := hsound.total_le
      have htop := hsound.books.placed.top_lt
      rw [htotal, Sys.step_allocate, hused, hs.used]
      rw [htotal] at hle
      exact Nat.mod_eq_of_lt (by omega)
  · rcases tally_allocate hs.books hs.laid size fromTop with ⟨hp, ht⟩ | ⟨hp, r, -, ht⟩
    · have hreq : (s.alloc.allocate size fromTop).2.liveRequestedBytes = s.alloc.liveRequestedBytes := congrArg Tally.requested ht
      rw [Sys.step_allocate, hreq]
      exact hs.requested
    · have hreq : (s.alloc.allocate size fromTop).2.liveRequestedBytes = (s.alloc.liveRequestedBytes + size) % 2 ^ 32 :=
        congrArg Tally.requested ht
      rw [Sys.step_allocate, hreq]
      exact Nat.mod_lt _ (by norm_num)
  · rcases tally_allocate hs.books hs.laid size fromTop with ⟨hp, ht⟩ | ⟨hp, r, -, ht⟩
    · have hact : (s.alloc.allocate size fromTop).2.activeAllocations = s.alloc.activeAllocations := congrArg Tally.active ht
      rw [Sys.step_allocate, hact]
      exact hs.active
    · have hact : (s.alloc.allocate size fromTop).2.activeAllocations = (s.alloc.activeAllocations + 1) % 2 ^ 64 :=
        congrArg Tally.active ht
      rw [Sys.step_allocate, hact]
      exact Nat.mod_lt _ (by norm_num)

theorem Ledger.free (hs : s.Ledger) {slot : Slot} (h : slot ∈ s.live) : (s.step (.free slot)).Ledger := by
  obtain ⟨hsound, hsame⟩ := hs.step_same (show s.Owned (.free slot) from h)
  have htotal := Span.total_perm (spans_erase h)
  rw [Span.total_cons] at htotal
  have hspans : (s.step (.free slot)).spans = (s.live.erase slot).map (Slot.span s.alloc.allocGranularity) := by
    rw [Sys.spans, hsame.2.2, Sys.step_free]
  by_cases hp : s.alloc.isProxyAddress slot.addr
  · have ht := tally_free hs.books hp slot.size
    have hused : (s.alloc.free slot.addr slot.size).usedBytes =
        if s.alloc.slotSize slot.size ≤ s.alloc.usedBytes then s.alloc.usedBytes - s.alloc.slotSize slot.size else 0 :=
      congrArg Tally.used ht
    have hreq : (s.alloc.free slot.addr slot.size).liveRequestedBytes =
        if slot.size ≤ s.alloc.liveRequestedBytes then s.alloc.liveRequestedBytes - slot.size else 0 :=
      congrArg Tally.requested ht
    have hact : (s.alloc.free slot.addr slot.size).activeAllocations = s.alloc.activeAllocations - 1 := congrArg Tally.active ht
    have hlen : (slot.span s.alloc.allocGranularity).len = s.alloc.slotSize slot.size := rfl
    refine ⟨hsound, ?_, ?_, ?_⟩
    · rw [hspans, Sys.step_free, hused, hs.used, if_pos (by omega)]
      omega
    · have := hs.requested
      rw [Sys.step_free, hreq]
      split <;> omega
    · rw [Sys.step_free, hact]
      exact (Nat.sub_le ..).trans_lt hs.active
  · -- `Free` ignores it, and it held no byte
    have hempty : alignUp slot.size s.alloc.allocGranularity = 0 := by
      by_contra hne
      exact hp (hs.isProxyAddress h (Nat.pos_of_ne_zero hne))
    have hf : s.alloc.free slot.addr slot.size = s.alloc := by
      unfold ProxyAllocator.free
      rw [Bool.not_eq_true] at hp
      rw [hp]
      simp
    refine ⟨hsound, ?_, ?_, ?_⟩
    · rw [hspans, Sys.step_free, hf, hs.used, htotal]
      show alignUp slot.size s.alloc.allocGranularity + _ = _
      omega
    · rw [Sys.step_free, hf]
      exact hs.requested
    · rw [Sys.step_free, hf]
      exact hs.active

/-- An empty slot may be given back wherever it lies. -/
theorem Ledger.give (hs : s.Ledger) {slot : Slot} (h : s.Givable slot) : (s.step (.free slot)).Ledger := by
  by_cases hl : slot ∈ s.live
  · exact hs.free hl
  obtain ⟨hempty, hgrid⟩ := h.resolve_left hl
  have herase : s.live.erase slot = s.live := List.erase_of_not_mem hl
  by_cases hp : s.alloc.isProxyAddress slot.addr
  · -- as if it had been live
    have hin : s.alloc.arenaBase ≤ slot.addr ∧ slot.addr < s.alloc.arenaBase + s.alloc.arenaSize := by
      have htop : ptrAdd s.alloc.arenaBase s.alloc.arenaSize = s.alloc.arenaBase + s.alloc.arenaSize :=
        Nat.mod_eq_of_lt hs.books.placed.top_lt
      have hp' := hp
      rw [ProxyAllocator.isProxyAddress, htop] at hp'
      simp only [Bool.and_eq_true, decide_eq_true_eq] at hp'
      exact hp'.2
    have hspan : slot.span s.alloc.allocGranularity = ⟨slot.addr, 0⟩ := by
      rw [Slot.span]
      exact congrArg _ hempty
    have hs' : Ledger ⟨s.alloc, slot :: s.live⟩ := by
      have hpieces : (Sys.pieces ⟨s.alloc, slot :: s.live⟩).all = ⟨slot.addr, 0⟩ :: s.pieces.all := by
        rw [← hspan]
        rfl
      refine ⟨⟨hs.books, fun t ht => ?_, fun x => ?_⟩, ?_, hs.requested, hs.active⟩
      · rw [hpieces] at ht
        rcases List.mem_cons.1 ht with rfl | ht
        · exact ⟨⟨hin.1, hin.2.le⟩, hgrid, dvd_zero _⟩
        · exact hs.laid.inArena t ht
      · rw [hpieces, Span.cover_cons, if_neg (by simp), Nat.zero_add]
        exact hs.laid.once x
      · show s.alloc.usedBytes = Span.total (slot.span s.alloc.allocGranularity :: s.spans)
        rw [hspan, Span.total_cons, hs.used]
        exact (Nat.zero_add _).symm
    have hfree := hs'.free (List.mem_cons_self ..)
    rw [Sys.step_free, List.erase_cons_head] at hfree
    rw [Sys.step_free, herase]
    exact hfree
  · have hf : s.alloc.free slot.addr slot.size = s.alloc := by
      unfold ProxyAllocator.free
      rw [Bool.not_eq_true] at hp
      rw [hp]
      simp
    rw [Sys.step_free, hf, herase]
    exact hs

theorem Ledger.step (hs : s.Ledger) {op : Op} (hop : s.Owned op) : (s.step op).Ledger := by
  cases op with
  | allocate size fromTop => exact hs.allocate size fromTop
  | free slot => exact hs.free hop

theorem start_ledger {a : ProxyAllocator} (h : Started a) : Ledger ⟨a, []⟩ := by
  have hs := start_tallied h
  refine ⟨hs.toSound, hs.used, ?_, ?_⟩
  · show a.tally.requested < 2 ^ 32
    rw [h.tally]
    norm_num
  · show a.tally.active < 2 ^ 64
    rw [h.tally]
    norm_num

/-- The run lemma, for requests of any size. -/
theorem ledger_after {a : ProxyAllocator} (h : Started a) {ops : List Op} (hops : Run Owned a ops) : (after a ops).Ledger :=
  hops.invariant (fun _ _ hs hop => hs.step hop) (start_ledger h)

end

/-! ## Giving a slot back at once -/

/-- `t` has the live slots of `s` and its three counters of them. -/
structure Unmoved (s t : Sys) : Prop where
  live : t.live.Perm s.live
  usedBytes : t.alloc.usedBytes = s.alloc.usedBytes
  liveRequestedBytes : t.alloc.liveRequestedBytes = s.alloc.liveRequestedBytes
  activeAllocations : t.alloc.activeAllocations = s.alloc.activeAllocations

/-- Each byte of the slot is on the free list or in a cache, and `Allocate` grants its size. -/
structure Available (t : Sys) (slot : Slot) : Prop where
  bytes : ∀ x ∈ slot.span t.alloc.allocGranularity, ∃ b ∈ t.alloc.freeList ++ chains t.alloc.sizeClasses, x ∈ b.span
  again : ∀ fromTop, (t.alloc.allocate slot.size fromTop).1 ≠ 0

section
variable {s : Sys} {slot : Slot} {size : ℕ} {fromTop : Bool}

/-- An `Allocate` that finds nothing. -/
theorem Ledger.refused (hs : s.Ledger) (h0 : (s.alloc.allocate size fromTop).1 = 0) :
    Unmoved s (s.step (.allocate size fromTop)) := by
  rw [Sys.step_allocate]
  rcases tally_allocate hs.books hs.laid size fromTop with ⟨-, ht⟩ | ⟨hp, -⟩
  · refine ⟨?_, congrArg Tally.used ht, congrArg Tally.requested ht, congrArg Tally.active ht⟩
    dsimp only
    rw [if_pos h0]
  · exact absurd h0 hp

/-- With a node at hand, `Free` leaves the slot in one block, cached under its size or free. -/
theorem Ledger.stored (hs : s.Ledger) (h : slot ∈ s.live) (hp : s.alloc.isProxyAddress slot.addr) (hn : s.alloc.nodeFree ≠ 0) :
    ⟨slot.addr, s.alloc.slotSize slot.size⟩ ∈ chains (s.alloc.free slot.addr slot.size).sizeClasses ∨
    ∃ b ∈ (s.alloc.free slot.addr slot.size).freeList, b.address ≤ slot.addr ∧
      slot.addr + s.alloc.slotSize slot.size ≤ b.address + b.size := by
  rw [free_eq hs.books hp]
  unfold store
  rcases push_cases hs.books.table slot.addr (s.alloc.slotSize_lt slot.size) with ⟨-, cs, e, -, hperm⟩ | ⟨cs, e, -, -⟩
  · rw [e]
    exact .inl (hperm.mem_iff.2 (List.mem_cons_self ..))
  · rw [e]
    simp only
    right
    rcases insert_cases { s.alloc with sizeClasses := cs } slot.addr (s.alloc.slotSize slot.size) with ⟨h0, -⟩ | ⟨-, m, e', -⟩
    · exact absurd h0 hn
    · have hlt : ∀ b ∈ (⟨slot.addr, s.alloc.slotSize slot.size⟩ : Block) :: s.alloc.freeList, b.address + b.size < 2 ^ 32 := by
        have htop := hs.books.placed.top_lt
        exact List.forall_mem_cons.2 ⟨(hs.inArena h).hi_lt htop,
          fun b hb => ((Pieces.forall_all.1 hs.laid.inArena).2.1 b hb).hi_lt htop⟩
      obtain ⟨t, l, hperm, -, hmerge⟩ := spans_insertBlock hlt
      obtain ⟨u, hu, hlo, hhi⟩ := Span.exists_mem_mergeFrom l t _ (hperm.mem_iff.2 (List.mem_cons_self ..))
      rw [← hmerge] at hu
      obtain ⟨b, hb, rfl⟩ := List.mem_map.1 hu
      rw [e']
      exact ⟨b, hb, hlo, hhi⟩

/-- A slot that is granted and given back. -/
abbrev backAgain (s : Sys) (size : ℕ) (fromTop : Bool) : Sys :=
  (s.step (.allocate size fromTop)).step (.free ⟨(s.alloc.allocate size fromTop).1, size⟩)

/-- The slot granted, for a request of at least a byte, is one that `Free` takes. -/
theorem Ledger.granted_isProxyAddress (hs : s.Ledger) (hsize : 0 < size) (hw : NoWrap s.alloc.allocGranularity size)
    (hp : (s.alloc.allocate size fromTop).1 ≠ 0) :
    (s.step (.allocate size fromTop)).alloc.isProxyAddress (s.alloc.allocate size fromTop).1 := by
  refine (hs.allocate size fromTop).isProxyAddress (mem_granted hp) ?_
  rw [(hs.allocate_same size fromTop).2.2.2]
  exact alignUp_pos hs.books.placed.gran hw hsize

/-- What the way there and back leaves of the counters. -/
theorem Ledger.tally_backAgain (hs : s.Ledger) (hsize : 0 < size) (hw : NoWrap s.alloc.allocGranularity size)
    (hp : (s.alloc.allocate size fromTop).1 ≠ 0) :
    (s.backAgain size fromTop).alloc.usedBytes = s.alloc.usedBytes ∧
    (s.backAgain size fromTop).alloc.activeAllocations = (s.alloc.activeAllocations + 1) % 2 ^ 64 - 1 ∧
    (s.backAgain size fromTop).alloc.liveRequestedBytes = if size ≤ (s.alloc.liveRequestedBytes + size) % 2 ^ 32 then
      (s.alloc.liveRequestedBytes + size) % 2 ^ 32 - size else 0 := by
  have hgranted := hs.allocate size fromTop
  have hsame := (hs.allocate_same size fromTop).2
  have hslot : (s.step (.allocate size fromTop)).alloc.slotSize size = s.alloc.slotSize size := by
    rw [slotSize, slotSize, hsame.2.2]
  have hused : (s.step (.allocate size fromTop)).alloc.usedBytes = s.alloc.usedBytes + s.alloc.slotSize size := by
    rw [hgranted.used, hs.used, Sys.spans, hsame.2.2, live_granted hp, List.map_append, Span.total_append]
    rfl
  have hserve : (s.step (.allocate size fromTop)).alloc.liveRequestedBytes = (s.alloc.liveRequestedBytes + size) % 2 ^ 32 ∧
      (s.step (.allocate size fromTop)).alloc.activeAllocations = (s.alloc.activeAllocations + 1) % 2 ^ 64 := by
    rcases tally_allocate hs.books hs.laid size fromTop with ⟨h0, -⟩ | ⟨-, r, -, ht⟩
    · exact absurd h0 hp
    · exact ⟨congrArg Tally.requested ht, congrArg Tally.active ht⟩
  have htake := tally_free hgranted.books (hs.granted_isProxyAddress hsize hw hp) size
  rw [hslot] at htake
  unfold backAgain
  generalize s.step (.allocate size fromTop) = u at *
  have htused : (u.step (.free ⟨(s.alloc.allocate size fromTop).1, size⟩)).alloc.usedBytes =
      if s.alloc.slotSize size ≤ u.alloc.usedBytes then u.alloc.usedBytes - s.alloc.slotSize size else 0 := congrArg Tally.used htake
  have htactive : (u.step (.free ⟨(s.alloc.allocate size fromTop).1, size⟩)).alloc.activeAllocations =
      u.alloc.activeAllocations - 1 := congrArg Tally.active htake
  have htreq : (u.step (.free ⟨(s.alloc.allocate size fromTop).1, size⟩)).alloc.liveRequestedBytes =
      if size ≤ u.alloc.liveRequestedBytes then u.alloc.liveRequestedBytes - size else 0 := congrArg Tally.requested htake
  rw [hserve.1] at htreq
  refine ⟨?_, ?_, htreq⟩
  · rw [htused, hused, if_pos (Nat.le_add_left ..), Nat.add_sub_cancel]
  · rw [htactive, hserve.2]

/-- The sum of what was asked for and the count of slots have room for one more of the size. -/
def RoomFor (s : Sys) (size : ℕ) : Prop :=
  s.alloc.liveRequestedBytes + size < 2 ^ 32 ∧ s.alloc.activeAllocations + 1 < 2 ^ 64

instance (s : Sys) (size : ℕ) : Decidable (s.RoomFor size) := inferInstanceAs (Decidable (_ ∧ _))

/-- Slots and counters are as before exactly if neither wraps when the slot is granted; what has wrapped,
the clamps of `Free` make zero. -/
theorem Ledger.unmoved_iff (hs : s.Ledger) (hsize : 0 < size) (hw : NoWrap s.alloc.allocGranularity size)
    (hp : (s.alloc.allocate size fromTop).1 ≠ 0) :
    Unmoved s (s.backAgain size fromTop) ↔ s.RoomFor size := by
  obtain ⟨hused, hactive, hreq⟩ := hs.tally_backAgain hsize hw hp
  obtain ⟨-, -, hperm⟩ := hs.returned hp
  have hL := hs.requested
  have hA := hs.active
  have hsize32 := hw.lt hs.books.placed.gran
  constructor
  · intro h
    have hback := h.liveRequestedBytes
    have hcount := h.activeAllocations
    rw [hreq] at hback
    rw [hactive] at hcount
    refine ⟨?_, by omega⟩
    by_contra hwrap
    have hsum : (s.alloc.liveRequestedBytes + size) % 2 ^ 32 = s.alloc.liveRequestedBytes + size - 2 ^ 32 := by
      rw [Nat.mod_eq_sub_mod (by omega), Nat.mod_eq_of_lt (by omega)]
    rw [hsum, if_neg (by omega)] at hback
    omega
  · rintro ⟨h, hcount⟩
    refine ⟨hperm, hused, ?_, ?_⟩
    · rw [hreq, Nat.mod_eq_of_lt h, if_pos (Nat.le_add_left ..), Nat.add_sub_cancel]
    · rw [hactive, Nat.mod_eq_of_lt hcount, Nat.add_sub_cancel]

/-- While there is a node for it, the slot can be granted again, whatever block `Allocate` had cut it from. -/
theorem Ledger.available (hs : s.Ledger) (hsize : 0 < size) (hw : NoWrap s.alloc.allocGranularity size)
    (hn : s.alloc.nodeFree ≠ 0) (hp : (s.alloc.allocate size fromTop).1 ≠ 0) :
    Available (s.backAgain size fromTop) ⟨(s.alloc.allocate size fromTop).1, size⟩ := by
  have hmem := mem_granted hp
  have hgranted := hs.allocate size fromTop
  have hback := hgranted.free hmem
  have hsame := (hgranted.step_same (show Owned _ (.free _) from hmem)).2
  have hstored := hgranted.stored hmem (hs.granted_isProxyAddress hsize hw hp) (hs.books.nodeFree_allocate hn size fromTop)
  unfold backAgain
  generalize s.step (.allocate size fromTop) = u at *
  generalize (s.alloc.allocate size fromTop).1 = p at *
  have hslot : (u.step (.free ⟨p, size⟩)).alloc.slotSize size = u.alloc.slotSize size := by rw [slotSize, slotSize, hsame.2.2]
  constructor
  · intro x hx
    rcases hstored with hc | ⟨b, hb, hlo, hhi⟩
    · refine ⟨_, List.mem_append_right _ hc, ?_⟩
      rwa [hsame.2.2] at hx
    · refine ⟨b, List.mem_append_left _ hb, ?_⟩
      rw [hsame.2.2] at hx
      simp only [Slot.span, Span.mem_mk] at hx
      simp only [Block.span, Span.mem_mk, slotSize] at hlo hhi ⊢
      omega
  · intro fromTop
    rcases hstored with hc | ⟨b, hb, hlo, hhi⟩
    · exact hback.books.allocate_of_cached hback.laid hc hslot.symm fromTop
    · refine hback.books.allocate_of_free hback.laid hb ?_ fromTop
      rw [hslot]
      dsimp only at hlo hhi
      omega

end

end Sys

end Ts3Vas
