/-
Address space is kept exactly as long as every insert finds a node. Free and ReclaimCache do not
look at the result of InsertFreeSortedAndCoalesce: with the pool empty the slot belongs to nobody.
-/
import Ts3Vas.Alloc.Runs

namespace Ts3Vas

section
variable {ok : ℕ → Prop} {g base top : ℕ} {p q : Pieces}

/-- Steps never cover more than was covered. -/
theorem Steps.cover_le (hok : ∀ n, ok n → g ∣ n) (htop : top < 2 ^ 32) (h : Layout g base top p) (hs : Steps ok p q)
    (x : ℕ) : Span.cover q.all x ≤ Span.cover p.all x := by
  induction hs with
  | refl => exact le_rfl
  | tail hs' hstep ih =>
    rcases hstep with hm | hl
    · exact (hm.cover (h.steps hok htop hs') htop x).le.trans ih
    · exact (hl.cover x).trans ih

theorem Layout.total_le (hp : Layout g base top p) (hq : Layout g base top q)
    (h : ∀ x, Span.cover q.all x ≤ Span.cover p.all x) : Span.total q.all ≤ Span.total p.all := by
  rw [Span.total_eq_sum_cover hp.within, Span.total_eq_sum_cover hq.within]
  exact Finset.sum_le_sum fun x _ => h x

theorem Layout.total_congr (hp : Layout g base top p) (hq : Layout g base top q)
    (h : ∀ x, Span.cover q.all x = Span.cover p.all x) : Span.total q.all = Span.total p.all :=
  le_antisymm (hp.total_le hq fun x => (h x).le) (hq.total_le hp fun x => (h x).ge)

/-- A lost piece is missing from the total. -/
theorem Loss.total_lt (hs : Sorted p) (h : Loss p q) : Span.total q.all < Span.total p.all := by
  rw [Pieces.total_all, Pieces.total_all]
  obtain ⟨h1, -, h3⟩ := Pieces.forall_all.1 hs.pos
  cases h with
  | freed hp =>
    have := h1 _ (hp.mem_iff.2 (List.mem_cons_self ..))
    have := Span.total_perm hp
    simp only [Span.total_cons] at *; omega
  | reclaimed hp =>
    have := h3 _ (hp.mem_iff.2 (List.mem_cons_self ..))
    have := Span.total_perm (spans_perm hp)
    simp only [spans_cons, Span.total_cons] at *; omega

end

namespace Sys

open ProxyAllocator

/-- The bytes of live slots, free blocks and cached blocks make up the arena. -/
def Conserved (s : Sys) : Prop :=
  Span.total s.spans + Span.total (Ts3Vas.spans s.alloc.freeList) +
    Span.total (Ts3Vas.spans (chains s.alloc.sizeClasses)) = s.alloc.arenaSize

instance (s : Sys) : Decidable s.Conserved := inferInstanceAs (Decidable (_ = _))

/-- The freed slot is available again, and a reclaim moves every cached byte onto the free list. -/
def Keeps (s : Sys) : Op → Prop
  | .free slot => ∀ x ∈ slot.span s.alloc.allocGranularity,
      0 < Span.cover (Ts3Vas.spans ((s.step (.free slot)).alloc.freeList ++
        chains (s.step (.free slot)).alloc.sizeClasses)) x
  | .allocate size fromTop => s.alloc.drains size fromTop →
      chains s.alloc.reclaimCache.sizeClasses = [] ∧
      Span.total (Ts3Vas.spans s.alloc.reclaimCache.freeList) =
        Span.total (Ts3Vas.spans s.alloc.freeList) + Span.total (Ts3Vas.spans (chains s.alloc.sizeClasses))

/-- Every address of the arena belongs to a live slot, a free block or a cached block. -/
def Full (s : Sys) : Prop := Tiled s.alloc.arenaBase (s.alloc.arenaBase + s.alloc.arenaSize) s.pieces

section
variable {s : Sys} {op : Op}

theorem conserved_iff_total : s.Conserved ↔ Span.total s.pieces.all = s.alloc.arenaSize := by
  rw [Pieces.total_all, Conserved, Nat.add_assoc]; rfl

theorem Full.conserved (hs : s.Sound) (h : s.Full) : s.Conserved := by
  rw [conserved_iff_total, hs.laid.total_eq h, Nat.add_sub_cancel_left]

/-- A ready step keeps the arena full. -/
theorem Full.step (hs : s.Proper) (h : s.Full) (hop : s.WellFormed op) (hr : s.Ready op) : (s.step op).Full := by
  have hst := hs.stepped hop
  obtain ⟨e1, e2, -⟩ := hst.same
  unfold Full
  rw [e1, e2]
  exact Tiled.moves (fun _ h => h.1) hs.books.placed.top_lt hs.laid h (hst.moves hr)

/-- A step that is not ready loses bytes for good. -/
theorem Full.not_conserved (hs : s.Proper) (h : s.Full) (hop : s.WellFormed op) (hr : ¬ s.Ready op) :
    ¬ (s.step op).Conserved := by
  have hst := hs.stepped hop
  obtain ⟨q, hl, hq⟩ := hst.lost hr
  have hlq : s.alloc.Laid q := hs.laid.loss hl
  have hlt := hl.total_lt hs.sorted
  have hle := hlq.total_le (hs.laid.steps (fun _ h => h.1) hs.books.placed.top_lt hst.steps)
    (hq.cover_le (fun _ h => h.1) hs.books.placed.top_lt hlq)
  have hs' := (conserved_iff_total.1 (h.conserved hs.toSound))
  rw [conserved_iff_total, hst.same.2.1]
  omega

theorem Full.keeps (hs : s.Proper) (hop : s.WellFormed op) (hr : s.Ready op) : s.Keeps op := by
  cases op with
  | free slot =>
    intro x hx
    have hst := hs.stepped hop
    -- a free node makes every step a move, and moves keep the cover of each address
    have hc := (hst.moves hr).cover (fun _ h => h.1) hs.books.placed.top_lt hs.laid x
    have hone := hs.laid.once x
    have hperm := Span.cover_perm (spans_erase hop) x
    rw [Span.cover_cons, if_pos hx] at hperm
    have hlive : (s.step (.free slot)).spans = (s.live.erase slot).map (Slot.span s.alloc.allocGranularity) := by
      rw [Sys.spans, hst.same.2.2]; rfl
    rw [Pieces.cover_all, Pieces.cover_all] at hc
    rw [Pieces.cover_all] at hone
    rw [spans_append, Span.cover_append]
    simp only [Sys.pieces, ProxyAllocator.pieces, hlive] at hc hone ⊢
    omega
  | allocate size fromTop =>
    intro hd
    obtain ⟨-, hsame, hch, hst, hmv, -⟩ :=
      reclaimCache_spec (SlotLength s.alloc.allocGranularity) hs.books s.spans
    have htop := hs.books.placed.top_lt
    have hl : s.alloc.Laid (s.alloc.reclaimCache.pieces s.spans) := hs.laid.steps (fun _ h => h.1) htop hst
    have ht := Layout.total_congr (p := s.pieces) hs.laid hl ((hmv (hr hd)).cover (fun _ h => h.1) htop hs.laid)
    rw [Pieces.total_all, Pieces.total_all] at ht
    simp only [Sys.pieces, ProxyAllocator.pieces, hch, Ts3Vas.spans_nil, Span.total_nil] at ht
    exact ⟨hch, by omega⟩

end

theorem conserved_iff_of_full : ∀ {ops : List Op} {s : Sys}, s.Proper → s.Full → Run.Guarded step WellFormed s ops →
    (((∀ pre, pre <+: ops → (Run.after step s pre).Conserved) ∧ Run.Guarded step Keeps s ops) ↔
      Run.Guarded step Ready s ops)
  | [], s, hs, hf, _ => by
    refine iff_of_true ⟨fun pre hpre => ?_, trivial⟩ trivial
    rw [List.prefix_nil.1 hpre]
    exact hf.conserved hs.toSound
  | op :: ops, s, hs, hf, hops => by
    obtain ⟨hop, hops'⟩ := hops
    constructor
    · rintro ⟨hc, hk⟩
      -- the first step that is not ready loses a piece, and the prefix up to it shows it
      have hr : s.Ready op := by
        by_contra hr
        exact hf.not_conserved hs hop hr (hc [op] (by simp))
      refine ⟨hr, (conserved_iff_of_full (hs.step hop) (hf.step hs hop hr) hops').1 ⟨fun pre hpre => ?_, hk.2⟩⟩
      exact hc (op :: pre) (List.cons_prefix_cons.2 ⟨rfl, hpre⟩)
    · rintro ⟨hr, hrs⟩
      obtain ⟨hc, hk⟩ := (conserved_iff_of_full (hs.step hop) (hf.step hs hop hr) hops').2 hrs
      refine ⟨fun pre hpre => ?_, Full.keeps hs hop hr, hk⟩
      rcases List.prefix_cons_iff.1 hpre with rfl | ⟨pre', rfl, hpre'⟩
      · exact hf.conserved hs.toSound
      · exact hc pre' hpre'

theorem start_full {a : ProxyAllocator} (h : Whole a) : Full ⟨a, []⟩ := h.idle.tiled

/-- The bytes are conserved in every state of a well-formed run, every free makes its slot available
again and every reclaim empties the caches into the free list, exactly when each call finds a node
for the inserts it makes. -/
theorem conserved_iff {a : ProxyAllocator} (h : Started a) {ops : List Op} (hops : Run WellFormed a ops) :
    ((∀ pre, pre <+: ops → (after a pre).Conserved) ∧ Run Keeps a ops) ↔ Run Ready a ops :=
  conserved_iff_of_full (start_proper h.whole.idle) (start_full h.whole) hops

/-- Two slots, one of them cached, then a request that drains the cache. -/
theorem conserved_arena64K :
    ((∀ pre, pre <+: [Op.allocate 5000 false, .allocate 4096 true, .free ⟨0x10000000, 5000⟩, .allocate 0xF000 false] →
      (after arena64K pre).Conserved) ∧
      Run Keeps arena64K [.allocate 5000 false, .allocate 4096 true, .free ⟨0x10000000, 5000⟩, .allocate 0xF000 false]) :=
  (conserved_iff arena64K_started (by decide +kernel)).2 (by decide +kernel)

end Sys

end Ts3Vas
