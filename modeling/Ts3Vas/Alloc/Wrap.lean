/-
Requests within one granule of 2 ^ 32: rounding up wraps to an empty slot, every block fits it, and
the address handed out owns none of the bytes asked for.
-/
import Ts3Vas.Alloc.Runs

namespace Ts3Vas.Sys

open ProxyAllocator

/-- `size` bytes at `p` lie inside the arena, apart from every live slot of `s` and from every block
that `t` has free or cached. -/
def Owns (s : Sys) (size p : ℕ) (t : ProxyAllocator) : Prop :=
  Span.Within s.alloc.arenaBase (s.alloc.arenaBase + s.alloc.arenaSize) ⟨p, size⟩ ∧
    (∀ q ∈ s.spans, Span.Apart ⟨p, size⟩ q) ∧
    ∀ b ∈ t.freeList ++ chains t.sizeClasses, Span.Apart ⟨p, size⟩ b.span

/-- A non-null result of `Allocate` owns the bytes asked for. -/
def SoundGrant (s : Sys) (size : ℕ) (fromTop : Bool) : Prop :=
  (s.alloc.allocate size fromTop).1 ≠ 0 →
    s.Owns size (s.alloc.allocate size fromTop).1 (s.alloc.allocate size fromTop).2

/-- The free list and the caches are empty. -/
def Exhausted (s : Sys) : Prop := s.alloc.freeList = [] ∧ chains s.alloc.sizeClasses = []

instance (s : Sys) : Decidable s.Exhausted := inferInstanceAs (Decidable (_ ∧ _))

/-- The request does not wrap, or there is nothing it could be given. -/
def Fits (s : Sys) : Op → Prop
  | .allocate size _ => NoWrap s.alloc.allocGranularity size ∨ s.Exhausted
  | .free _ => True

instance (s : Sys) : (op : Op) → Decidable (s.Fits op)
  | .allocate .. => inferInstanceAs (Decidable (_ ∨ _))
  | .free _ => inferInstanceAs (Decidable True)

section
variable {s : Sys} {size : ℕ} {fromTop : Bool}

/-- With nothing to give, `Allocate` returns null and moves nothing. -/
theorem Proper.allocate_exhausted (hs : s.Proper) (hx : s.Exhausted) (size : ℕ) (fromTop : Bool) :
    (s.alloc.allocate size fromTop).1 = 0 ∧ (s.alloc.allocate size fromTop).2.pieces s.spans = s.pieces := by
  have hpop : popFrom (s.alloc.slotSize size) s.alloc.sizeClasses = none := by
    cases hq : popFrom (s.alloc.slotSize size) s.alloc.sizeClasses with
    | none => rfl
    | some q =>
      have hp := (popFrom_table hs.books.table hq).2.2
      rw [hx.2] at hp
      exact absurd hp.length_eq (by simp)
  have hbytes : ¬ 0 < s.alloc.counted.classCachedBytes := by
    have := hs.books.bytes
    rw [hx.2, Ts3Vas.spans_nil, Span.total_nil] at this
    exact Nat.not_lt.2 this.le
  have hfit : s.alloc.counted.takeFreeFit size fromTop = (⟨0, 0, false⟩, s.alloc.counted) := by
    have hnil : s.alloc.counted.freeList = [] := hx.1
    unfold takeFreeFit
    cases fromTop <;> simp [hnil, firstFit, lastFit]
  rw [allocate_eq hs.books.placed, hpop]
  -- nothing is cached, so there is no second search
  simp only [fitOrReclaim, hfit, hbytes, and_false, if_false]
  exact ⟨rfl, rfl⟩

/-- A grant whose rounding does not wrap owns its bytes. -/
theorem Proper.soundGrant (hs : s.Proper) (hw : NoWrap s.alloc.allocGranularity size) : s.SoundGrant size fromTop := by
  intro hp
  have hg := hs.books.placed.gran
  have h := allocate_granting (s.alloc.allocGranularity ∣ ·) hs.books hs.laid fromTop (dvd_alignUp hg size)
  have hl := hs.laid.steps (fun _ h => h) hs.books.placed.top_lt h.steps
  rw [handOut_of_ne hp] at hl
  have hle := (alignUp_bounds hg hw).1
  generalize (s.alloc.allocate size fromTop).1 = p at *
  generalize (s.alloc.allocate size fromTop).2 = t at *
  have hin := ((Pieces.forall_all.1 hl.inArena).1 ⟨p, s.alloc.slotSize size⟩ (by simp [ProxyAllocator.pieces])).within
  -- the bytes asked for are part of the slot
  have hsub : ∀ x, x ∈ (⟨p, size⟩ : Span) → x ∈ (⟨p, s.alloc.slotSize size⟩ : Span) := by
    intro x hx
    simp only [Span.mem_mk, slotSize] at hx ⊢; omega
  have hone := hl.once
  simp only [Pieces.cover_all, ProxyAllocator.pieces, Span.cover_append, Span.cover_cons, Span.cover_nil] at hone
  refine ⟨⟨hin.1, ?_⟩, fun q hq x hx hx' => ?_, fun b hb x hx hx' => ?_⟩
  · have := hin.2
    simp only [Span.hi_mk, slotSize] at this ⊢; omega
  · have h1 := hone x
    have h2 := Span.one_le_cover hq hx'
    rw [if_pos (hsub x hx)] at h1; omega
  · have h1 := hone x
    have h2 : 1 ≤ Span.cover (Ts3Vas.spans (t.freeList ++ chains t.sizeClasses)) x := Span.one_le_cover (mem_spans hb) hx'
    rw [spans_append, Span.cover_append] at h2
    rw [if_pos (hsub x hx)] at h1; omega

/-- An empty pool and an empty free list do not go together: the caches hold too few nodes. -/
theorem Proper.nodeFree_ne (hs : s.Proper) (hf : s.alloc.freeList = []) : s.alloc.nodeFree ≠ 0 := by
  have h1 := hs.books.nodes
  have h2 := hs.books.table.length_chains
  have h3 : kNodePoolBytes / blockBytes = 87381 := rfl
  rw [hf, h3] at h1
  simp only [List.length_nil] at h1
  omega

/-- When the rounding wraps and anything is free or cached, `Allocate` hands out an address. -/
theorem Proper.allocate_wrap (hs : s.Proper) (fromTop : Bool) (hw : s.alloc.slotSize size = 0) (hx : ¬ s.Exhausted) :
    (s.alloc.allocate size fromTop).1 ≠ 0 := by
  intro hp
  have hg := hs.books.placed.gran
  have h := allocate_granting (s.alloc.allocGranularity ∣ ·) hs.books hs.laid fromTop (dvd_alignUp hg size)
  obtain ⟨hfree, hbytes⟩ := h.null hp
  have hready : s.alloc.drains size fromTop → s.alloc.nodeFree ≠ 0 := by
    intro hd
    simp only [drains, Bool.and_eq_true, decide_eq_true_eq] at hd
    rcases takeFreeFit_cases hs.books.placed hs.laid size fromTop with ⟨f, l, e, -, hne⟩ | ⟨-, hall⟩
    · rw [e] at hd; exact absurd hd.1.2 hne
    · rw [hw] at hall
      exact hs.nodeFree_ne (List.eq_nil_iff_forall_not_mem.2 fun b hb => absurd (hall b hb) (Nat.not_lt_zero _))
  have hc := fun x => (h.moves hready).cover (fun _ h => h) hs.books.placed.top_lt hs.laid x
  rw [hp] at hc
  generalize (s.alloc.allocate size fromTop).2 = t at *
  rw [hw] at hfree
  have hf : t.freeList = [] := List.eq_nil_iff_forall_not_mem.2 fun b hb => absurd (hfree b hb) (Nat.not_lt_zero _)
  -- an address of a free or cached block of `s` is held by nobody in `t`
  have hlost : ∀ b, b ∈ s.alloc.freeList ++ chains s.alloc.sizeClasses → False := by
    intro b hb
    have hpos : 0 < b.size := by
      obtain ⟨-, h1, h2⟩ := Pieces.forall_all.1 hs.sorted.pos
      rcases List.mem_append.1 hb with hb | hb
      · exact h1 b hb
      · exact h2 b hb
    have hx : b.address ∈ b.span := by simp only [Span.mem_iff, Block.span_lo, Block.span_hi]; omega
    have h1 : 1 ≤ Span.cover (Ts3Vas.spans (s.alloc.freeList ++ chains s.alloc.sizeClasses)) b.address :=
      Span.one_le_cover (mem_spans hb) hx
    have h2 := hc b.address
    have h3 : Span.cover (Ts3Vas.spans (chains t.sizeClasses)) b.address = 0 := Span.cover_eq_zero hbytes _
    rw [spans_append, Span.cover_append] at h1
    simp only [Pieces.cover_all, ProxyAllocator.pieces, handOut, if_true, hf, Ts3Vas.spans_nil, Span.cover_nil, h3] at h2
    simp only [Sys.pieces, ProxyAllocator.pieces] at h2
    omega
  exact hx ⟨List.eq_nil_iff_forall_not_mem.2 fun b hb => hlost b (List.mem_append_left _ hb),
    List.eq_nil_iff_forall_not_mem.2 fun b hb => hlost b (List.mem_append_right _ hb)⟩

/-- A step that fits keeps the invariant of well-formed runs. -/
theorem Proper.step_fits (hs : s.Proper) {op : Op} (hop : s.Owned op ∧ s.Fits op) : (s.step op).Proper := by
  cases op with
  | free slot => exact hs.step hop.1
  | allocate size fromTop =>
    rcases hop.2 with hw | hx
    · exact hs.step ⟨hop.1.1, hw⟩
    · have hsound := hs.toSound.step hop.1
      obtain ⟨h0, hp⟩ := hs.allocate_exhausted hx size fromTop
      have hst : (s.step (.allocate size fromTop)).pieces = s.pieces := by
        rw [← hp, Sys.step_allocate, if_pos h0]
        have hg := (allocate_granting (s.alloc.allocGranularity ∣ ·) hs.books hs.laid fromTop
          (dvd_alignUp hs.books.placed.gran size)).same.2.2
        simp only [Sys.pieces, Sys.spans, hg]
      exact ⟨hsound, hst ▸ hs.sorted⟩

/-- An address handed out for a request that wraps lies in the arena, so the bytes asked for run past
the end of the address space. -/
theorem Proper.not_soundGrant (hs : s.Proper) (hlt : size < 2 ^ 32) (hw : ¬ NoWrap s.alloc.allocGranularity size)
    (hx : ¬ s.Exhausted) : ¬ s.SoundGrant size fromTop := by
  intro hsound
  have hg := hs.books.placed.gran
  have hne := hs.allocate_wrap fromTop (alignUp_wrap hg hw hlt) hx
  obtain ⟨⟨h1, h2⟩, -⟩ := hsound hne
  have hlow := hs.books.placed.low
  have htop := hs.books.placed.top_lt
  have hle := hg.le
  unfold NoWrap at hw
  simp only [Span.hi_mk] at h1 h2
  omega

end

/-- In a run whose calls all fit, `Allocate` is sound exactly for the calls that fit. -/
theorem soundGrant_iff {a : ProxyAllocator} (h : Started a) {ops : List Op}
    (hops : Run (fun s op => s.Owned op ∧ s.Fits op) a ops) {size : ℕ} (hlt : size < 2 ^ 32)
    (fromTop : Bool) : (after a ops).SoundGrant size fromTop ↔ (after a ops).Fits (.allocate size fromTop) := by
  have hs : (after a ops).Proper := hops.invariant (fun _ _ hs hop => hs.step_fits hop) (start_proper h.whole.idle)
  constructor
  · intro hsound
    by_contra hf
    exact hs.not_soundGrant hlt (fun hw => hf (.inl hw)) (fun hx => hf (.inr hx)) hsound
  · rintro (hw | hx)
    · exact hs.soundGrant hw
    · exact fun hne => absurd (hs.allocate_exhausted hx size fromTop).1 hne

/-- After one slot is granted, the largest request that does not wrap. -/
theorem soundGrant_arena64K : (after arena64K [.allocate 5000 false]).SoundGrant 0xFFFFF000 true :=
  (soundGrant_iff arena64K_started (by decide +kernel) (by decide) true).2 (by decide +kernel)

/-- A fresh arena gives 0xFFFFFFFF bytes at its base. -/
theorem not_soundGrant_arena64K : ¬ ∀ a, Started a → ∀ ops, Run Owned a ops → ∀ size fromTop, 0 < size → size < 2 ^ 32 →
    (after a ops).SoundGrant size fromTop := by
  intro h
  have hs := h arena64K arena64K_started [] trivial 0xFFFFFFFF false (by decide) (by decide)
  have hp : ((after arena64K []).alloc.allocate 0xFFFFFFFF false).1 = 0x10000000 := by decide +kernel
  obtain ⟨⟨-, htop⟩, -⟩ := hs (by decide +kernel)
  rw [hp] at htop
  revert htop
  decide +kernel

end Ts3Vas.Sys
