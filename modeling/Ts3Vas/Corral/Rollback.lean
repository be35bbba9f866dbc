/-
CorralReserve when the system does not commit the slot: what is left of the call in the segments and in
the map of sizes, after runs with requests of any size.
-/
import Ts3Vas.Alloc.Rollback
import Ts3Vas.Corral.Growth

namespace Ts3Vas

/-! ## Segments -/

/-- A segment in runs with requests of any size. -/
structure Segment.Ledgered (g : ℕ) (s : Segment) : Prop where
  ledger : s.sys.Ledger
  arenaBase : s.sys.alloc.arenaBase = s.base
  arenaSize : s.sys.alloc.arenaSize = alignUp s.size g
  gran : s.sys.alloc.allocGranularity = g
  reserved : Reserved s.base s.size

namespace Segment

section
variable {g : ℕ} {s t : Segment} {slot : Slot}

theorem Ledgered.granularity (h : s.Ledgered g) : Granularity g := h.gran ▸ h.ledger.books.placed.gran

theorem Ledgered.allocate (h : s.Ledgered g) (size : ℕ) : (s.call (.allocate size false)).Ledgered g := by
  obtain ⟨hb, hs, hg⟩ := (h.ledger.allocate_same size false).2
  exact ⟨h.ledger.allocate size false, hb.trans h.arenaBase, hs.trans h.arenaSize, hg.trans h.gran, h.reserved⟩

theorem Ledgered.free (h : s.Ledgered g) (hslot : s.sys.Givable slot) : (s.call (.free slot)).Ledgered g := by
  obtain ⟨hb, hs, hg⟩ := ProxyAllocator.sameArena_free s.sys.alloc slot.addr slot.size
  exact ⟨h.ledger.give hslot, hb.trans h.arenaBase, hs.trans h.arenaSize, hg.trans h.gran, h.reserved⟩

end

end Segment

namespace Corral

/-! ## The search for a slot -/

/-- Asked for the size, the segment has no room. -/
def Refuses (size : ℕ) (s : Segment) : Prop := (s.sys.alloc.allocate size false).1 = 0

/-- The segment after it has been asked. -/
def asked (size : ℕ) (s : Segment) : Segment := s.call (.allocate size false)

/-- A segment of `n` bytes that is added: its allocator has granted nothing. -/
structure Added (c : Corral) (o : Outcome) (n : ℕ) (s : Segment) : Prop where
  zone : o.reserve ≠ 0 ∧ s.base = o.reserve ∧ s.size = n
  live : s.sys.live = []
  started : Reserved s.base s.size → Started s.sys.alloc
  arenaBase : s.sys.alloc.arenaBase = s.base
  arenaSize : s.sys.alloc.arenaSize = alignUp s.size c.gran
  gran : s.sys.alloc.allocGranularity = c.gran
  nodes : s.sys.alloc.nodeFree ≠ 0

section
variable {c : Corral} {o : Outcome} {size : ℕ}

/-- All segments are asked in vain, or those before the one that has room. -/
theorem allocateFrom_cases (size : ℕ) : ∀ segs : List Segment,
    ((∀ s ∈ segs, Refuses size s) ∧ allocateFrom size segs = ((0, segs.length), segs.map (asked size))) ∨
    ∃ pre s post, segs = pre ++ s :: post ∧ (∀ t ∈ pre, Refuses size t) ∧ ¬ Refuses size s ∧
      allocateFrom size segs = (((s.sys.alloc.allocate size false).1, pre.length), pre.map (asked size) ++ asked size s :: post)
  | [] => .inl ⟨fun _ h => absurd h List.not_mem_nil, rfl⟩
  | s :: rest => by
    by_cases hs : (s.sys.alloc.allocate size false).1 = 0
    · have hstep : allocateFrom size (s :: rest) =
          (((allocateFrom size rest).1.1, (allocateFrom size rest).1.2 + 1), asked size s :: (allocateFrom size rest).2) := by
        rw [allocateFrom, if_neg (not_not.2 hs)]
        rfl
      rcases allocateFrom_cases size rest with ⟨hall, e⟩ | ⟨pre, t, post, rfl, hpre, ht, e⟩
      · exact .inl ⟨List.forall_mem_cons.2 ⟨hs, hall⟩, by rw [hstep, e]; rfl⟩
      · exact .inr ⟨s :: pre, t, post, rfl, List.forall_mem_cons.2 ⟨hs, hpre⟩, ht, by rw [hstep, e]; rfl⟩
    · refine .inr ⟨[], s, rest, rfl, fun _ h => absurd h List.not_mem_nil, hs, ?_⟩
      rw [allocateFrom, if_pos hs]
      rfl

/-- Where a search ends: with the segment `s`, the first with room or else one added for the request, after
those of `pre` have been asked in vain; those of `post` are not asked. -/
structure Search (c : Corral) (o : Outcome) (size : ℕ) (pre : List Segment) (s : Segment) (post : List Segment) : Prop where
  segs : c.segs = pre ++ s :: post ∧ ¬ Refuses size s ∨ c.segs = pre ∧ post = [] ∧ c.Added o (c.growSize size) s
  refuse : ∀ t ∈ pre, Refuses size t

theorem addCorralSegment_grown (c : Corral) (o : Outcome) (n : ℕ) : c.addCorralSegment o n = (false, c) ∨
    ∃ s, c.Added o n s ∧ c.addCorralSegment o n =
      (true, { c with segs := c.segs ++ [s], totalReserved := (c.totalReserved + n) % 2 ^ 32 }) := by
  have hnodes : kNodePoolBytes / blockBytes - 1 ≠ 0 := by decide
  rcases addCorralSegment_new c o n with e | ⟨h0, u, -, hg, hst, e, -⟩
  · exact .inl e
  · exact .inr ⟨⟨o.reserve, n, ⟨adopt u o.reserve n false, []⟩⟩,
      ⟨⟨h0, rfl, rfl⟩, rfl, hst, rfl, congrArg (alignUp n) hg, hg, hnodes⟩, e⟩

/-- A search asks all segments in vain and adds none, or ends with one. -/
theorem findSlot_search (c : Corral) (o : Outcome) (size : ℕ) :
    c.findSlot o size = ((0, c.segs.length), { c with segs := c.segs.map (asked size) }) ∨
    ∃ pre s post total, c.Search o size pre s post ∧ c.findSlot o size = (((s.sys.alloc.allocate size false).1, pre.length),
      { c with segs := pre.map (asked size) ++ asked size s :: post, totalReserved := total }) := by
  rcases allocateFrom_cases size c.segs with ⟨hall, e⟩ | ⟨pre, s, post, hsegs, hpre, hs, e⟩
  · unfold findSlot
    rw [e]
    dsimp only
    rw [if_neg (not_not.2 rfl), show growSize { c with segs := c.segs.map (asked size) } size = c.growSize size from rfl]
    rcases addCorralSegment_grown { c with segs := c.segs.map (asked size) } o (c.growSize size) with e' | ⟨s, hs, e'⟩
    · rw [e']
      exact .inl rfl
    · rw [e']
      refine .inr ⟨c.segs, s, [], (c.totalReserved + c.growSize size) % 2 ^ 32, ⟨.inr ⟨rfl, rfl, ⟨hs.zone, hs.live, hs.started,
        hs.arenaBase, hs.arenaSize, hs.gran, hs.nodes⟩⟩, hall⟩, ?_⟩
      simp only [List.length_append, List.length_map, List.length_singleton, Nat.add_sub_cancel]
      rw [show c.segs.length = (c.segs.map (asked size)).length from (List.length_map _).symm, List.getElem?_concat_length,
        modify_length]
      rfl
  · refine .inr ⟨pre, s, post, c.totalReserved, ⟨.inl ⟨hsegs, hs⟩, hpre⟩, ?_⟩
    unfold findSlot
    rw [e]
    exact if_pos hs

end

/-! ## The invariant of all runs -/

/-- The segments on their own reservations; each size on record is that of a slot which a segment has
granted, or of an empty one. -/
structure Ledgered (c : Corral) : Prop where
  segs : ∀ s ∈ c.segs, s.Ledgered c.gran
  clear : c.segs.Pairwise Segment.Clear
  sizes : ∀ a n, c.sizes.lookup a = some n →
    alignUp n c.gran = 0 ∧ c.gran ∣ a ∨ ∃ s ∈ c.segs, (⟨a, n⟩ : Slot) ∈ s.sys.live

/-- What a segment may become: it stays where it is, keeps its invariant and loses no slot. -/
structure Onward (g : ℕ) (s t : Segment) : Prop where
  base : t.base = s.base
  size : t.size = s.size
  ledgered : s.Ledgered g → t.Ledgered g
  live : s.sys.live ⊆ t.sys.live

section
variable {c : Corral} {o : Outcome} {size : ℕ} {pre post segs : List Segment} {s t : Segment} {slot : Slot}

theorem Onward.refl (g : ℕ) (s : Segment) : Onward g s s := ⟨rfl, rfl, id, List.Subset.refl _⟩

theorem onward_asked (g size : ℕ) (s : Segment) : Onward g s (asked size s) := by
  refine ⟨rfl, rfl, fun h => h.allocate size, ?_⟩
  show s.sys.live ⊆ (s.sys.step (.allocate size false)).live
  rw [Sys.step_allocate]
  dsimp only
  split_ifs
  · exact List.Subset.refl _
  · exact List.subset_append_left _ _

theorem exists_of_forall₂ {α β : Type*} {R : α → β → Prop} {l : List α} {m : List β} (h : List.Forall₂ R l m) {a : α}
    (ha : a ∈ l) : ∃ b ∈ m, R a b := by
  induction h with
  | nil => exact absurd ha List.not_mem_nil
  | cons hab _ ih =>
    rcases List.mem_cons.1 ha with rfl | ha
    · exact ⟨_, List.mem_cons_self .., hab⟩
    · obtain ⟨b, hb, hr⟩ := ih ha
      exact ⟨b, List.mem_cons_of_mem _ hb, hr⟩

/-- The segments go onward one by one. -/
theorem Ledgered.onward (h : c.Ledgered) (hsegs : List.Forall₂ (Onward c.gran) c.segs segs) (total : ℕ) :
    Ledgered { c with segs := segs, totalReserved := total } := by
  have hzones : zones segs = zones c.segs := by
    refine Eq.symm (List.forall₂_eq_eq_eq ▸ ?_)
    exact List.rel_map (fun s t hst => by rw [hst.base, hst.size]) hsegs
  have hclear : ∀ l : List Segment, l.Pairwise Segment.Clear ↔ (zones l).Pairwise fun u v => u.hi ≤ v.lo ∨ v.hi ≤ u.lo := by
    intro l
    rw [zones, List.pairwise_map]
    rfl
  refine ⟨fun t ht => ?_, (hclear _).2 (hzones ▸ (hclear _).1 h.clear), fun a n ha => ?_⟩
  · obtain ⟨s, hs, hst⟩ := exists_of_forall₂ (R := fun t s => Onward c.gran s t) hsegs.flip ht
    exact hst.ledgered (h.segs s hs)
  · rcases h.sizes a n ha with he | ⟨s, hs, hl⟩
    · exact .inl he
    · obtain ⟨t, ht, hst⟩ := exists_of_forall₂ hsegs hs
      exact .inr ⟨t, ht, hst.live hl⟩

/-- The corral with a segment more. -/
theorem Ledgered.grown {n : ℕ} (h : c.Ledgered) (hs : c.Added o n s) (ho : c.Granted o n) :
    Ledgered { c with segs := c.segs ++ [s] } := by
  obtain ⟨h0, hbase, hsize⟩ := hs.zone
  obtain ⟨hr, hclear⟩ := ho h0
  rw [← hbase, ← hsize] at hr
  have hnew : s.Ledgered c.gran := by
    refine ⟨?_, hs.arenaBase, hs.arenaSize, hs.gran, hr⟩
    have hst := Sys.start_ledger (hs.started hr)
    rwa [← hs.live] at hst
  refine ⟨fun t ht => ?_, List.pairwise_append.2 ⟨h.clear, List.pairwise_singleton _ _, ?_⟩, fun a n ha => ?_⟩
  · rcases List.mem_append.1 ht with ht | ht
    · exact h.segs t ht
    · exact List.mem_singleton.1 ht ▸ hnew
  · intro t ht u hu
    rw [List.mem_singleton.1 hu, Segment.Clear, hbase, hsize]
    exact hclear t ht
  · rcases h.sizes a n ha with he | ⟨t, ht, hl⟩
    · exact .inl he
    · exact .inr ⟨t, List.mem_append_left _ ht, hl⟩

/-- The segments that a search has to do with. -/
theorem Ledgered.search (h : c.Ledgered) (hs : c.Search o size pre s post) (ho : c.Granted o (c.growSize size)) :
    Ledgered { c with segs := pre ++ s :: post } := by
  rcases hs.segs with ⟨e, -⟩ | ⟨rfl, rfl, hg⟩
  · rw [← e]
    exact h
  · exact h.grown hg ho

theorem Ledgered.asked_all (h : c.Ledgered) : Ledgered { c with segs := c.segs.map (asked size) } :=
  h.onward (List.forall₂_map_right_iff.2 (List.forall₂_same.2 fun s _ => onward_asked c.gran size s)) c.totalReserved

/-- The segments after a search, with `t` for the one it has ended with. -/
theorem Ledgered.searched (h : c.Ledgered) (hs : c.Search o size pre s post) (ho : c.Granted o (c.growSize size))
    (ht : Onward c.gran s t) (total : ℕ) :
    Ledgered { c with segs := pre.map (asked size) ++ t :: post, totalReserved := total } := by
  refine (h.search hs ho).onward ?_ total
  refine List.rel_append (List.forall₂_map_right_iff.2 (List.forall₂_same.2 fun s _ => onward_asked c.gran size s)) ?_
  exact .cons ht (List.forall₂_same.2 fun s _ => .refl c.gran s)

/-- The segment that has granted a slot takes it back. -/
theorem onward_returned (g : ℕ) (hp : ¬ Refuses size s) :
    Onward g s ((asked size s).call (.free ⟨(s.sys.alloc.allocate size false).1, size⟩)) := by
  have hmem : (⟨(s.sys.alloc.allocate size false).1, size⟩ : Slot) ∈ (s.sys.step (.allocate size false)).live := Sys.mem_granted hp
  refine ⟨rfl, rfl, fun h => (h.allocate size).free (.inl hmem), ?_⟩
  show s.sys.live ⊆ ((s.sys.step (.allocate size false)).step (.free _)).live
  intro slot hslot
  rw [Sys.step_free, Sys.live_granted hp]
  have hmem' : (⟨(s.sys.alloc.allocate size false).1, size⟩ : Slot) ∈
      s.sys.live ++ [⟨(s.sys.alloc.allocate size false).1, size⟩] := by simp
  exact ((List.perm_cons_erase hmem').symm.trans (List.perm_append_singleton _ _)).cons_inv.mem_iff.2 hslot

/-- The record of a slot that a segment has just granted. -/
theorem Ledgered.recorded (h : c.Ledgered) (hs : s ∈ c.segs) (hslot : slot ∈ s.sys.live) :
    Ledgered { c with sizes := c.sizes.insert slot.addr slot.size } := by
  refine ⟨h.segs, h.clear, fun a n ha => ?_⟩
  have ha : (c.sizes.insert slot.addr slot.size).lookup a = some n := ha
  by_cases e : a = slot.addr
  · rw [e, AList.lookup_insert, Option.some.injEq] at ha
    rw [e, ← ha]
    exact .inr ⟨s, hs, hslot⟩
  · rw [AList.lookup_insert_ne e] at ha
    exact h.sizes a n ha

theorem Ledgered.corralReserve (h : c.Ledgered) (ho : c.Granted o (c.growSize size)) (type : ℕ) :
    (c.corralReserve o size type).2.Ledgered := by
  unfold Corral.corralReserve
  by_cases h0 : (!c.ready || size = 0) = true
  · rw [if_pos h0]
    exact h
  rw [if_neg h0]
  rcases findSlot_search c o size with e | ⟨pre, s, post, total, hs, e⟩
  · rw [e]
    exact h.asked_all
  rw [e]
  dsimp only
  by_cases hp : (s.sys.alloc.allocate size false).1 = 0
  · rw [if_pos hp]
    exact h.searched hs ho (onward_asked c.gran size s) total
  rw [if_neg hp]
  by_cases hc : (hasFlag type MEM_COMMIT && !o.commit) = true
  · rw [if_pos hc, show pre.length = (pre.map (asked size)).length from (List.length_map _).symm, modify_length]
    exact h.searched hs ho (onward_returned c.gran hp) total
  · rw [if_neg hc]
    have hall := h.searched hs ho (onward_asked c.gran size s) total
    exact hall.recorded (List.mem_append_right _ (List.mem_cons_self ..)) (Sys.mem_granted hp)

/-! ## Frees -/

/-- The first segment that holds the address takes the slot. -/
theorem freeFrom_cases {addr size : ℕ} : ∀ {segs segs' : List Segment}, freeFrom addr size segs = some segs' →
    ∃ pre t post, segs = pre ++ t :: post ∧ t.contains addr = true ∧ segs' = pre ++ t.call (.free ⟨addr, size⟩) :: post
  | [], segs', h => nomatch h
  | s :: rest, segs', h => by
    rw [freeFrom] at h
    split at h
    · rename_i hc
      cases h
      exact ⟨[], s, rest, rfl, hc, rfl⟩
    · obtain ⟨rest', hr, rfl⟩ := Option.map_eq_some_iff.1 h
      obtain ⟨pre, t, post, rfl, hc, rfl⟩ := freeFrom_cases hr
      exact ⟨s :: pre, t, post, rfl, hc, rfl⟩

/-- A slot that holds a byte is found in the segment that has granted it. -/
theorem Ledgered.owner (h : c.Ledgered) (hs : s ∈ c.segs) (ht : t ∈ c.segs) (hslot : slot ∈ s.sys.live)
    (hpos : alignUp slot.size c.gran ≠ 0) (hc : t.contains slot.addr = true) : t = s := by
  by_contra hne
  have hs' := h.segs s hs
  obtain ⟨hlo, hhi⟩ := (Segment.within_of_sound hs'.ledger.toSound hs'.arenaBase hs'.arenaSize hs'.gran hs'.reserved hslot).2.2
    (Nat.pos_of_ne_zero hpos)
  have hin := (Segment.contains_iff (h.segs t ht).reserved slot.addr).1 hc
  have : Std.Symm Segment.Clear := ⟨fun _ _ h => h.symm⟩
  have hclear : t.Clear s := h.clear.forall ht hs hne
  unfold Segment.Clear at hclear
  omega

/-- The segment that holds the address of a record can take its slot. -/
theorem Ledgered.givable (h : c.Ledgered) {addr : ℕ} (hl : c.sizes.lookup addr = some size) (ht : t ∈ c.segs)
    (hc : t.contains addr = true) : t.sys.Givable ⟨addr, size⟩ := by
  have hgran := (h.segs t ht).gran
  have hempty : alignUp size c.gran = 0 → c.gran ∣ addr → t.sys.Givable ⟨addr, size⟩ := fun h0 hd =>
    .inr ⟨by rw [ProxyAllocator.slotSize, hgran]; exact h0, by rw [hgran]; exact hd⟩
  rcases h.sizes addr size hl with ⟨h0, hd⟩ | ⟨s, hs, hslot⟩
  · exact hempty h0 hd
  by_cases h0 : alignUp size c.gran = 0
  · have hs' := h.segs s hs
    exact hempty h0 (Segment.within_of_sound hs'.ledger.toSound hs'.arenaBase hs'.arenaSize hs'.gran hs'.reserved hslot).1
  · exact .inl (h.owner hs ht hslot h0 hc ▸ hslot)

/-- A record less. -/
theorem Ledgered.erased (h : c.Ledgered) (addr : ℕ) : Ledgered { c with sizes := c.sizes.erase addr } := by
  refine ⟨h.segs, h.clear, fun a n ha => ?_⟩
  have ha : (c.sizes.erase addr).lookup a = some n := ha
  by_cases e : a = addr
  · rw [e, AList.lookup_erase] at ha
    cases ha
  · rw [AList.lookup_erase_ne e] at ha
    exact h.sizes a n ha

/-- A segment takes a slot whose record is gone. -/
theorem Ledgered.taken (h : c.Ledgered) (e : c.segs = pre ++ t :: post) (hgive : t.sys.Givable slot)
    (hgone : c.sizes.lookup slot.addr = none) : Ledgered { c with segs := pre ++ t.call (.free slot) :: post } := by
  refine ⟨fun u hu => ?_, clear_set (s := t) rfl rfl (e ▸ h.clear), fun a n ha => ?_⟩
  · rcases List.mem_append.1 hu with hu | hu
    · exact h.segs u (e ▸ List.mem_append_left _ hu)
    rcases List.mem_cons.1 hu with rfl | hu
    · exact (h.segs t (e ▸ List.mem_append_right _ (List.mem_cons_self ..))).free hgive
    · exact h.segs u (e ▸ List.mem_append_right _ (List.mem_cons_of_mem _ hu))
  · -- only that slot may have left its segment
    have hne : a ≠ slot.addr := by
      rintro rfl
      rw [show c.sizes.lookup slot.addr = some n from ha] at hgone
      cases hgone
    refine (h.sizes a n ha).imp_right fun ⟨u, hu, hslot⟩ => ?_
    rw [e] at hu
    rcases List.mem_append.1 hu with hu | hu
    · exact ⟨u, List.mem_append_left _ hu, hslot⟩
    rcases List.mem_cons.1 hu with rfl | hu
    · refine ⟨_, List.mem_append_right _ (List.mem_cons_self ..), ?_⟩
      exact (List.mem_erase_of_ne fun e => hne (congrArg Slot.addr e)).2 hslot
    · exact ⟨u, List.mem_append_right _ (List.mem_cons_of_mem _ hu), hslot⟩

theorem Ledgered.corralFree (h : c.Ledgered) (addr : ℕ) : (c.corralFree addr).2.Ledgered := by
  unfold Corral.corralFree
  by_cases h0 : (!c.ready || addr = 0) = true
  · rw [if_pos h0]
    exact h
  rw [if_neg h0]
  cases hl : c.sizes.lookup addr with
  | none => exact h
  | some size =>
    dsimp only
    cases hf : freeFrom addr size c.segs with
    | none => exact h.erased addr
    | some segs =>
      dsimp only
      by_cases hz : size = 0
      · rw [if_pos hz]
        exact h.erased addr
      rw [if_neg hz]
      obtain ⟨pre, t, post, e, hc, rfl⟩ := freeFrom_cases hf
      have hgive := h.givable hl (e ▸ List.mem_append_right _ (List.mem_cons_self ..)) hc
      exact (h.erased addr).taken e hgive (AList.lookup_erase addr c.sizes)

/-! ## A slot that is not committed -/

/-- The call has found a slot, is to commit it, and the system does not. -/
structure Uncommitted (c : Corral) (o : Outcome) (size type : ℕ) : Prop where
  asks : c.ready = true ∧ size ≠ 0
  slot : (c.findSlot o size).1.1 ≠ 0
  fails : hasFlag type MEM_COMMIT = true ∧ o.commit = false

/-- `t` stands where `s` does and has its live slots and its counters. -/
def Same (s t : Segment) : Prop := t.base = s.base ∧ t.size = s.size ∧ s.sys.Unmoved t.sys

/-- Nothing is left of the slot: each segment has its live slots and its counters as before, one that was
added has nothing live, no record has changed, and a segment has the slot's bytes for another request. -/
structure RolledBack (c d : Corral) (slot : Slot) : Prop where
  segs : ∃ added, (∀ s ∈ added, Sys.Unmoved ⟨c.blank, []⟩ s.sys) ∧
    List.Forall₂ Same (c.segs ++ added) d.segs
  sizes : d.sizes = c.sizes
  available : ∃ t ∈ d.segs, t.sys.Available slot

/-- The segment that will grant the request, when one of them can. -/
def granting (size : ℕ) (segs : List Segment) : Option Segment :=
  segs.find? fun s => (s.sys.alloc.allocate size false).1 ≠ 0

theorem granting_refuse {segs : List Segment} (h : ∀ s ∈ segs, Refuses size s) (rest : List Segment) :
    granting size (segs ++ rest) = granting size rest := by
  have hnone : segs.find? (fun s => (s.sys.alloc.allocate size false).1 ≠ 0) = none := by
    refine List.find?_eq_none.2 fun s hs => ?_
    have hs : (s.sys.alloc.allocate size false).1 = 0 := h s hs
    simp [hs]
  rw [granting, List.find?_append, hnone, Option.none_or]; rfl

/-- A segment that has been added has the counters of a new allocator. -/
theorem Added.unmoved {n : ℕ} (hg : c.Added o n s) (hr : Reserved s.base s.size) : Sys.Unmoved ⟨c.blank, []⟩ s.sys := by
  have ht : s.sys.alloc.tally = c.blank.tally := (hg.started hr).tally.trans (Fresh.construct c.granKb c.topDownKb).tally.symm
  exact ⟨hg.live ▸ .refl _, congrArg (·.used) ht, congrArg (·.requested) ht, congrArg (·.active) ht⟩

/-- The segment where the search has ended takes the slot back. -/
theorem Uncommitted.returned (hu : c.Uncommitted o size type) : ∃ pre s post total, c.Search o size pre s post ∧
    (s.sys.alloc.allocate size false).1 ≠ 0 ∧ (c.findSlot o size).1.1 = (s.sys.alloc.allocate size false).1 ∧
    (c.corralReserve o size type).2 = { c with
      segs := pre.map (asked size) ++ ⟨s.base, s.size, s.sys.backAgain size false⟩ :: post, totalReserved := total } := by
  rcases findSlot_search c o size with e | ⟨pre, s, post, total, hs, e⟩
  · exact absurd (congrArg (·.1.1) e) hu.slot
  have hp : (s.sys.alloc.allocate size false).1 ≠ 0 := by
    have hp := hu.slot
    rwa [e] at hp
  refine ⟨pre, s, post, total, hs, hp, by rw [e], ?_⟩
  unfold Corral.corralReserve
  rw [if_neg (by simp [hu.asks]), e]
  dsimp only
  rw [if_neg hp, if_pos (by simp [hu.fails]), show pre.length = (pre.map (asked size)).length from (List.length_map _).symm,
    modify_length]
  rfl

/-- The segments on both sides of the one where a search has ended. -/
theorem Ledgered.same (h : Ledgered { c with segs := pre ++ s :: post }) (hrefuse : ∀ t ∈ pre, Refuses size t) {t : Segment}
    (ht : Same s t) : List.Forall₂ Same (pre ++ s :: post) (pre.map (asked size) ++ t :: post) := by
  have hpost : List.Forall₂ Same post post := List.forall₂_same.2 fun u _ => ⟨rfl, rfl, .refl _, rfl, rfl, rfl⟩
  refine List.rel_append (List.forall₂_map_right_iff.2 (List.forall₂_same.2 fun u hmem => ⟨rfl, rfl, ?_⟩)) (.cons ht hpost)
  exact (h.segs u (List.mem_append_left _ hmem)).ledger.refused (hrefuse u hmem)

/-- A commit that fails leaves nothing of the slot behind exactly if the counters of the segment that grants
it have room; those of a new one do. -/
theorem Ledgered.rolledBack (h : c.Ledgered) (hw : NoWrap c.gran size) (ho : c.Granted o (c.growSize size))
    (hn : ∀ s ∈ c.segs, s.sys.alloc.nodeFree ≠ 0) (hu : c.Uncommitted o size type) :
    c.RolledBack (c.corralReserve o size type).2 ⟨(c.findSlot o size).1.1, size⟩ ↔
      ∀ s ∈ granting size c.segs, s.sys.RoomFor size := by
  obtain ⟨pre, s, post, total, hs, hp, hslot, hd⟩ := hu.returned
  rw [hd, hslot]
  have hall := h.search hs ho
  have hsl : s.Ledgered c.gran := hall.segs s (List.mem_append_right _ (List.mem_cons_self ..))
  have hpos : 0 < size := Nat.pos_of_ne_zero hu.asks.2
  have hw' : NoWrap s.sys.alloc.allocGranularity size := hsl.gran ▸ hw
  have hnode : s.sys.alloc.nodeFree ≠ 0 := by
    rcases hs.segs with ⟨e, -⟩ | ⟨-, -, hg⟩
    · exact hn s (e ▸ List.mem_append_right _ (List.mem_cons_self ..))
    · exact hg.nodes
  have havailable := hsl.ledger.available hpos hw' hnode hp
  have hunmoved := hsl.ledger.unmoved_iff hpos hw' hp
  rcases hs.segs with ⟨hsegs, -⟩ | ⟨hsegs, rfl, hg⟩
  · have hgrant : granting size c.segs = some s := by
      rw [hsegs, granting_refuse hs.refuse, granting, List.find?_cons_of_pos (by simpa using hp)]
    simp only [hgrant, Option.mem_def, Option.some.injEq, forall_eq', ← hunmoved]
    constructor
    · rintro ⟨⟨added, -, hback⟩, -, -⟩
      have hlen : (pre.map (asked size)).length = pre.length := List.length_map _
      rw [hsegs, List.append_assoc] at hback
      have hdrop := List.forall₂_drop_append _ _ _ hback
      rw [hlen, List.drop_left, List.cons_append] at hdrop
      exact (List.forall₂_cons.1 hdrop).1.2.2
    · intro hmoved
      refine ⟨⟨[], fun _ hmem => absurd hmem List.not_mem_nil, ?_⟩, rfl, _, List.mem_append_right _ (List.mem_cons_self ..), havailable⟩
      rw [List.append_nil, hsegs]
      exact hall.same hs.refuse ⟨rfl, rfl, hmoved⟩
  · have hnew := hg.unmoved hsl.reserved
    have hzero : s.sys.alloc.liveRequestedBytes = 0 := hnew.liveRequestedBytes
    have hnone : s.sys.alloc.activeAllocations = 0 := hnew.activeAllocations
    have hgrant : granting size c.segs = none := by
      rw [hsegs, ← List.append_nil pre, granting_refuse hs.refuse]
      rfl
    have hsize := hw.lt c.gran_granularity
    rw [hgrant]
    refine iff_of_true ⟨⟨[s], fun u hmem => List.mem_singleton.1 hmem ▸ hnew, ?_⟩, rfl, _,
      List.mem_append_right _ (List.mem_cons_self ..), havailable⟩ fun _ h => absurd h (Option.not_mem_none _)
    rw [hsegs]
    exact hall.same hs.refuse ⟨rfl, rfl, hunmoved.2 ⟨by omega, by omega⟩⟩

end

end Corral

namespace Corralled

open Corral

theorem start_ledgered (granKb topDownKb : Option ℤ) {o : Outcome} {startMb : Option ℕ} (growMb maxMb : Option ℕ)
    (ho : StartGranted o startMb) : (start granKb topDownKb o startMb growMb maxMb).corral.Ledgered := by
  let c : Corral := { Corral.new granKb topDownKb with
    startBytes := envMb startMb 126, growFloor := envMb growMb 32, maxReserved := envMb maxMb 512 }
  have hc : c.Ledgered := ⟨fun s hs => absurd hs List.not_mem_nil, .nil, fun a n ha => by simp [c, Corral.new] at ha⟩
  have hg : c.Granted o c.startBytes := fun h0 => ⟨ho h0, fun s hs => absurd hs List.not_mem_nil⟩
  show Ledgered { (c.addCorralSegment o c.startBytes).2 with ready := (c.addCorralSegment o c.startBytes).1 }
  rcases addCorralSegment_grown c o c.startBytes with e | ⟨s, hs, e⟩
  · rw [e]
    exact ⟨hc.segs, hc.clear, hc.sizes⟩
  · rw [e]
    have h := hc.grown hs hg
    exact ⟨h.segs, h.clear, h.sizes⟩

theorem ledgered_step (s : Corralled) (op : CorralOp) (h : s.corral.Ledgered) (hop : s.Promised op) :
    (s.step op).corral.Ledgered := by
  cases op with
  | reserve size type o => exact h.corralReserve hop type
  | free addr => exact h.corralFree addr

/-- The run lemma, for requests of any size. -/
theorem ledgered_after {s : Corralled} (h : s.corral.Ledgered) {ops : List CorralOp} (hops : Run.Guarded step Promised s ops) :
    (Run.after step s ops).corral.Ledgered :=
  hops.invariant ledgered_step h

end Corralled

end Ts3Vas
