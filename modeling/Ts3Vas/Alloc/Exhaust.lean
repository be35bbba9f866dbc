/-
Allocate fails only when there is no room: in runs where every insert found a node, a null means
that no aligned run of the slot's length is free of live slots, however the free bytes are parked.
-/
import Ts3Vas.Alloc.Conserve

namespace Ts3Vas.Sys

open ProxyAllocator

/-- The well-formed calls that find the nodes they need. -/
def Good (s : Sys) (op : Op) : Prop := s.WellFormed op ∧ s.Ready op

instance (s : Sys) (op : Op) : Decidable (s.Good op) := inferInstanceAs (Decidable (_ ∧ _))

/-- An aligned run of `need` bytes of the arena that no live slot touches. -/
def Room (s : Sys) (need : ℕ) : Prop :=
  ∃ a, s.alloc.allocGranularity ∣ a ∧
    Span.Within s.alloc.arenaBase (s.alloc.arenaBase + s.alloc.arenaSize) ⟨a, need⟩ ∧
    ∀ q ∈ s.spans, Span.Apart ⟨a, need⟩ q

/-- `Allocate` returns null exactly when there is no room for the slot. -/
def NullIffNoRoom (s : Sys) (size : ℕ) (fromTop : Bool) : Prop :=
  (s.alloc.allocate size fromTop).1 = 0 ↔ ¬ s.Room (s.alloc.slotSize size)

section
variable {s : Sys} {size : ℕ} {fromTop : Bool}

/-- What is granted was room before. -/
theorem Proper.room_of_grant (hs : s.Proper) (hne : (s.alloc.allocate size fromTop).1 ≠ 0) :
    s.Room (s.alloc.slotSize size) := by
  have h := allocate_granting (s.alloc.allocGranularity ∣ ·) hs.books hs.laid fromTop
    (dvd_alignUp hs.books.placed.gran size)
  have hl := hs.laid.steps (fun _ h => h) hs.books.placed.top_lt h.steps
  rw [handOut_of_ne hne] at hl
  have hin := (Pieces.forall_all.1 hl.inArena).1 ⟨(s.alloc.allocate size fromTop).1, s.alloc.slotSize size⟩
    (List.mem_append_right _ (List.mem_singleton_self _))
  refine ⟨_, hin.lo_dvd, hin.within, fun q hq x hx hx' => ?_⟩
  have h1 := hl.once x
  have h2 := Span.one_le_cover hq hx'
  simp only [Pieces.cover_all, ProxyAllocator.pieces, Span.cover_append, Span.cover_cons, Span.cover_nil] at h1
  rw [if_pos hx] at h1
  omega

/-- A null of a ready call leaves every byte that is not live in one sorted list of blocks, each of
them too small; a run of free bytes would lie in one block. -/
theorem Proper.no_room_of_null (hs : s.Proper) (hf : s.Full) (hok : SlotLength s.alloc.allocGranularity (s.alloc.slotSize size))
    (hr : s.Ready (.allocate size fromTop)) (h0 : (s.alloc.allocate size fromTop).1 = 0) :
    ¬ s.Room (s.alloc.slotSize size) := by
  rintro ⟨a, -, hw, hap⟩
  have htop := hs.books.placed.top_lt
  have h := allocate_granting _ hs.books hs.laid fromTop hok
  obtain ⟨hsmall, hcache⟩ := h.null h0
  have hsorted := hs.sorted.steps (fun _ h => h) htop hs.laid h.steps
  have hcover := (h.moves hr).cover (fun _ h => h.1) htop hs.laid
  rw [h0] at hsorted hcover
  generalize (s.alloc.allocate size fromTop).2 = t at *
  -- after the reclaim nothing is cached, so what no slot covers is free
  have hrun : ∀ x, a ≤ x → x < a + s.alloc.slotSize size → 0 < Span.cover (Ts3Vas.spans t.freeList) x := by
    intro x h1 h2
    have hone := (hcover x).trans (hf x (hw.1.trans h1) (h2.trans_le hw.2))
    have hlive : Span.cover s.spans x = 0 := by
      by_contra hne
      obtain ⟨q, hq, hx⟩ := Span.cover_pos_iff.1 (Nat.pos_of_ne_zero hne)
      exact hap q hq x ⟨h1, h2⟩ hx
    have hcached := Span.cover_eq_zero hcache x
    simp only [Pieces.cover_all, ProxyAllocator.pieces, handOut, if_true] at hone
    omega
  -- such a run lies in one block, which the search would have found
  obtain ⟨b, hb, hlo, hhi⟩ := hsorted.separated.run hok.2 hrun
  obtain ⟨c, hc, rfl⟩ := List.mem_map.1 hb
  have := hsmall c hc
  simp only [Block.span_lo, Block.span_hi] at hlo hhi
  omega

end

/-- In a well-formed run whose calls all find the nodes they need, the last one included, `Allocate`
fails exactly when there is no room. -/
theorem allocate_null_iff {a : ProxyAllocator} (h : Started a) {ops : List Op} {size : ℕ} {fromTop : Bool}
    (hops : Run Good a (ops ++ [.allocate size fromTop])) :
    (after a ops).NullIffNoRoom size fromTop := by
  obtain ⟨hops, ⟨hpos, hw⟩, hr⟩ := Run.guarded_concat.1 hops
  have hinv : (after a ops).Proper ∧ (after a ops).Full :=
    hops.invariant (I := fun s => s.Proper ∧ s.Full)
      (fun s op hs hop => ⟨hs.1.step hop.1, hs.2.step hs.1 hop.1 hop.2⟩) ⟨start_proper h.whole.idle, start_full h.whole⟩
  obtain ⟨hs, hf⟩ := hinv
  have hg := hs.books.placed.gran
  have hok : SlotLength (after a ops).alloc.allocGranularity ((after a ops).alloc.slotSize size) :=
    ⟨dvd_alignUp hg size, alignUp_pos hg hw hpos⟩
  refine ⟨hs.no_room_of_null hf hok hr, fun hno => ?_⟩
  by_contra hne
  exact hno (hs.room_of_grant hne)

/-- Between two live slots only 14 pages are left. -/
theorem allocate_null_arena64K :
    (after arena64K [.allocate 5000 false, .allocate 4096 true, .free ⟨0x10000000, 5000⟩]).NullIffNoRoom 0x10000 false :=
  allocate_null_iff arena64K_started (by decide +kernel)

end Ts3Vas.Sys
