/-
Opposite ends: TakeFreeFit grants the lowest or the highest address at which the slot fits in the
free bytes, over all addresses and not only over the blocks of the list.
-/
import Ts3Vas.Alloc.Runs
import Mathlib.Order.Bounds.Basic

namespace Ts3Vas

open ProxyAllocator

/-! ## Free bytes -/

/-- The byte at `x` is on the free list. -/
def Holds (l : List Block) (x : ℕ) : Prop := ∃ b ∈ l, x ∈ b.span

/-- Every byte of `[a, a + need)` is on the free list. -/
def Fits (l : List Block) (need a : ℕ) : Prop := ∀ x, a ≤ x → x < a + need → Holds l x

theorem holds_iff {l : List Block} {x : ℕ} : Holds l x ↔ 0 < Span.cover (spans l) x := by
  rw [Span.cover_pos_iff]
  constructor
  · rintro ⟨b, hb, hx⟩
    exact ⟨b.span, mem_spans hb, hx⟩
  · rintro ⟨s, hs, hx⟩
    obtain ⟨b, hb, rfl⟩ := List.mem_map.1 hs
    exact ⟨b, hb, hx⟩

/-- A free list as the allocator keeps it: sorted, no two blocks touching, every block a whole number
of granules above address 0. -/
structure Neat (g : ℕ) (l : List Block) : Prop where
  separated : Span.Separated (spans l)
  low : ∀ b ∈ l, 0 < b.address
  aligned : ∀ b ∈ l, g ∣ b.address ∧ g ∣ b.size
  pos : ∀ b ∈ l, 0 < b.size
  top : ∀ b ∈ l, b.address + b.size < 2 ^ 32

section
variable {g need : ℕ} {l l' : List Block} {f : Fit}

/-- The list is coalesced, so a run of free bytes lies in one block. -/
theorem Neat.run (h : Neat g l) (hn : 0 < need) {a : ℕ} (ha : Fits l need a) :
    ∃ b ∈ l, b.address ≤ a ∧ a + need ≤ b.address + b.size := by
  obtain ⟨s, hs, hlo, hhi⟩ := h.separated.run hn fun x h1 h2 => holds_iff.1 (ha x h1 h2)
  obtain ⟨b, hb, rfl⟩ := List.mem_map.1 hs
  exact ⟨b, hb, hlo, hhi⟩

theorem fits_of_mem {b : Block} (hb : b ∈ l) {a : ℕ} (hlo : b.address ≤ a) (hhi : a + need ≤ b.address + b.size) :
    Fits l need a := fun _ h1 h2 => ⟨b, hb, hlo.trans h1, h2.trans_le hhi⟩

theorem Neat.once (h : Neat g l) (x : ℕ) : Span.cover (spans l) x ≤ 1 := by
  refine Span.cover_le_one (h.separated.imp fun hab x ha hb => ?_) x
  simp only [Span.mem_iff] at ha hb
  omega

/-! ## The two ends -/

/-- First fit: every block before the one that is carved is too small, and the front of that one goes. -/
theorem ProxyAllocator.firstFit_front : ∀ {l : List Block} {f : Fit} {l' : List Block}, firstFit need g l = some (f, l') →
    ∃ pre cur post, l = pre ++ cur :: post ∧ (∀ b ∈ pre, b.size < need) ∧ need ≤ cur.size ∧
      f.grantedAddr = cur.address
  | cur :: next, f, l', h => by
    unfold firstFit at h
    split at h
    · rename_i hle
      refine ⟨[], cur, next, rfl, by simp, hle, ?_⟩
      simp only at h
      split at h
      · cases h; rfl
      · cases h; rfl
    · obtain ⟨⟨f₁, l₁⟩, h₁, he⟩ := Option.map_eq_some_iff.1 h
      cases he
      obtain ⟨pre, b, post, rfl, hpre, hle, ha⟩ := firstFit_front h₁
      exact ⟨cur :: pre, b, post, rfl, List.forall_mem_cons.2 ⟨by omega, hpre⟩, hle, ha⟩

/-- Last fit: every block after the one that is carved is too small, and the back of that one goes. -/
theorem ProxyAllocator.lastFit_back (hg : 0 < g) (hd : g ∣ need) : ∀ {l : List Block} {f : Fit} {l' : List Block},
    (∀ b ∈ l, g ∣ b.size ∧ b.address + b.size < 2 ^ 32) → lastFit need g l = some (f, l') →
    ∃ pre cur post, l = pre ++ cur :: post ∧ (∀ b ∈ post, b.size < need) ∧ need ≤ cur.size ∧
      f.grantedAddr + need = cur.address + cur.size
  | cur :: next, f, l', hb, h => by
    obtain ⟨⟨hdc, hlt⟩, hb'⟩ := List.forall_mem_cons.1 hb
    unfold lastFit at h
    split at h
    · rename_i f₁ l₁ h₁
      cases h
      obtain ⟨pre, b, post, rfl, hpost, hle, ha⟩ := lastFit_back hg hd hb' h₁
      exact ⟨cur :: pre, b, post, rfl, hpost, hle, ha⟩
    · rename_i hnone
      split at h
      · rename_i hle
        refine ⟨[], cur, next, rfl, lastFit_none.1 hnone, hle, ?_⟩
        simp only at h
        split at h
        · cases h
          show ptrAdd cur.address (cur.size - need) + need = _
          rw [ptrAdd, Nat.mod_eq_of_lt (by omega)]; omega
        · rename_i hrem
          cases h
          have he := eq_of_remain_lt hdc hd hle hrem
          show cur.address + need = _
          rw [he]
      · cases h

/-- The block that the bottom-up search carves starts at the lowest address that fits. -/
theorem Neat.isLeast (h : Neat g l) (hn : 0 < need) (hf : firstFit need g l = some (f, l')) :
    IsLeast {a | Fits l need a} f.grantedAddr := by
  obtain ⟨pre, cur, post, rfl, hpre, hle, ha⟩ := firstFit_front hf
  rw [ha]
  constructor
  · exact fits_of_mem (by simp) le_rfl (by omega)
  · rintro a hfits
    obtain ⟨b, hb, hlo, hhi⟩ := h.run hn hfits
    have hsep := h.separated
    rw [spans_append, spans_cons] at hsep
    rcases List.mem_append.1 hb with hb | hb
    -- too small for the run
    · have := hpre b hb
      omega
    · rcases List.mem_cons.1 hb with rfl | hb
      · exact hlo
      · have := (Span.separated_cons.1 (List.pairwise_append.1 hsep).2.1).1 _ (mem_spans hb)
        simp only [Block.span_hi, Block.span_lo] at this
        omega

/-- The block that the top-down search carves ends where the highest run that fits ends. -/
theorem Neat.isGreatest (h : Neat g l) (hg : 0 < g) (hd : g ∣ need) (hn : 0 < need) (hf : lastFit need g l = some (f, l')) :
    IsGreatest {a | Fits l need a} f.grantedAddr := by
  obtain ⟨pre, cur, post, rfl, hpost, hle, ha⟩ :=
    lastFit_back hg hd (fun b hb => ⟨(h.aligned b hb).2, h.top b hb⟩) hf
  constructor
  · exact fits_of_mem (b := cur) (by simp) (by omega) ha.le
  · rintro a hfits
    obtain ⟨b, hb, hlo, hhi⟩ := h.run hn hfits
    have hsep := h.separated
    rw [spans_append, spans_cons] at hsep
    rcases List.mem_append.1 hb with hb | hb
    · have := (List.pairwise_append.1 hsep).2.2 _ (mem_spans hb) cur.span (List.mem_cons_self ..)
      simp only [Block.span_hi, Block.span_lo] at this
      omega
    · rcases List.mem_cons.1 hb with rfl | hb
      · omega
      · have := hpost b hb
        omega

/-! ## The search -/

/-- What a search for a slot of `size` bytes does to the free list. -/
structure ProxyAllocator.Extremal (s : ProxyAllocator) (size : ℕ) (fromTop : Bool) (r : Fit × ProxyAllocator) : Prop where
  /-- The slot is of the rounded size and starts at the lowest address that fits, or at the highest. -/
  granted : r.1.grantedAddr ≠ 0 → r.1.grantedSize = alignUp size s.allocGranularity ∧
    if fromTop then IsGreatest {a | Fits s.freeList (alignUp size s.allocGranularity) a} r.1.grantedAddr
    else IsLeast {a | Fits s.freeList (alignUp size s.allocGranularity) a} r.1.grantedAddr
  failed : r.1.grantedAddr = 0 ↔ ¬ ∃ a, Fits s.freeList (alignUp size s.allocGranularity) a
  /-- The slot's bytes leave the list and no other byte does. -/
  bytes : ∀ x, Holds r.2.freeList x ↔ Holds s.freeList x ∧ x ∉ (⟨r.1.grantedAddr, r.1.grantedSize⟩ : Span)
  neat : Neat s.allocGranularity r.2.freeList

theorem ProxyAllocator.Carved.neat (h : Neat g l) (hd : g ∣ need) (hc : Carved need l f l') : Neat g l' := by
  have hsep := hc.separated h.separated
  have hpos := hc.pos h.pos
  -- a list with gaps lies in its own range of addresses
  have hin : ∀ b ∈ l, InArena g 1 (2 ^ 32 - 1) b.span := fun b hb => by
    have h1 := h.low b hb
    have h2 := h.top b hb
    exact ⟨⟨h1, by simp only [Block.span_hi]; omega⟩, (h.aligned b hb).1, (h.aligned b hb).2⟩
  have hin' := (hc.inArena hd hin).2
  refine ⟨hsep, fun b hb => (hin' b hb).within.1, fun b hb => ⟨(hin' b hb).lo_dvd, (hin' b hb).len_dvd⟩, hpos, ?_⟩
  intro b hb
  have := (hin' b hb).within.2
  simp only [Block.span_hi] at this
  omega

theorem Neat.extremal {s : ProxyAllocator} (hg : Granularity s.allocGranularity)
    (h : Neat s.allocGranularity s.freeList) {size : ℕ} (hpos : 0 < size) (hw : NoWrap s.allocGranularity size)
    (fromTop : Bool) : s.Extremal size fromTop (s.takeFreeFit size fromTop) := by
  have hn := alignUp_pos hg hw hpos
  have hd := dvd_alignUp hg size
  have hb : ∀ b ∈ s.freeList, s.allocGranularity ∣ b.size ∧ b.address + b.size < 2 ^ 32 :=
    fun b hb => ⟨(h.aligned b hb).2, h.top b hb⟩
  unfold takeFreeFit
  generalize hneed : alignUp size s.allocGranularity = need at hn hd
  simp only
  split
  · rename_i f l he
    have hc : Carved need s.freeList f l := by
      cases fromTop with
      | true => exact lastFit_some hg.pos hd hb he
      | false => exact firstFit_some hg.pos hd hb he
    have hbest : if fromTop then IsGreatest {a | Fits s.freeList need a} f.grantedAddr
        else IsLeast {a | Fits s.freeList need a} f.grantedAddr := by
      cases fromTop with
      | true => exact h.isGreatest hg.pos hd hn he
      | false => exact h.isLeast hn he
    have hfits : Fits s.freeList need f.grantedAddr := by
      cases fromTop with
      | true => exact hbest.1
      | false => exact hbest.1
    -- no block starts at address 0, so the slot does not either
    have hne : f.grantedAddr ≠ 0 := by
      obtain ⟨b, hb, hlo, -⟩ := h.run hn hfits
      have := h.low b hb
      omega
    refine ⟨fun _ => ⟨hneed ▸ hc.size, hneed ▸ hbest⟩, ?_, fun x => ?_, hc.neat h hd⟩
    · rw [hneed]
      exact iff_of_false hne (not_not.2 ⟨_, hfits⟩)
    · have hcover := hc.cover x
      have honce := h.once x
      rw [Span.cover_cons] at hcover
      rw [holds_iff, holds_iff, hc.size]
      by_cases hx : x ∈ (⟨f.grantedAddr, need⟩ : Span)
      · rw [if_pos hx] at hcover
        simp only [hx, not_true_eq_false, and_false, iff_false]
        omega
      · rw [if_neg hx] at hcover
        simp only [hx, not_false_eq_true, and_true]
        omega
  · rename_i he
    have hsmall : ∀ b ∈ s.freeList, b.size < need := by
      cases fromTop with
      | true => exact lastFit_none.1 he
      | false => exact firstFit_none.1 he
    refine ⟨fun hne => absurd rfl hne, ?_, fun x => by simp, h⟩
    rw [hneed]
    refine iff_of_true rfl ?_
    rintro ⟨a, ha⟩
    obtain ⟨b, hb, hlo, hhi⟩ := h.run hn ha
    have := hsmall b hb
    omega

end

/-! ## Reachable free lists -/

namespace Sys

theorem neat_of_pieces {s : ProxyAllocator} {live : List Span} (hp : s.Placed) (hl : s.Laid (s.pieces live))
    (hs : Sorted (s.pieces live)) : Neat s.allocGranularity s.freeList := by
  have hin := (Pieces.forall_all.1 hl.inArena).2.1
  have hlow := hp.low
  refine ⟨hs.separated, fun b hb => ?_, fun b hb => ⟨(hin b hb).lo_dvd, (hin b hb).len_dvd⟩,
    (Pieces.forall_all.1 hs.pos).2.1, fun b hb => (hin b hb).hi_lt hp.top_lt⟩
  have := (hin b hb).within.1
  simp only [Block.span_lo] at this
  omega

theorem Proper.neat {s : Sys} (hs : s.Proper) : Neat s.alloc.allocGranularity s.alloc.freeList :=
  neat_of_pieces hs.books.placed hs.laid hs.sorted

/-- The list that the second attempt of `Allocate` searches, also when some insert found no node. -/
theorem Proper.neat_reclaimCache {s : Sys} (hs : s.Proper) :
    Neat s.alloc.reclaimCache.allocGranularity s.alloc.reclaimCache.freeList := by
  obtain ⟨hb, hsm, -, hst, -⟩ := reclaimCache_spec (SlotLength s.alloc.allocGranularity) hs.books s.spans
  have htop := hs.books.placed.top_lt
  have hl := hsm.laid (hs.laid.steps (fun _ h => h.1) htop hst)
  exact neat_of_pieces hb.placed hl (hs.sorted.steps (fun _ h => h) htop hs.laid hst)

/-- In every state that a well-formed run reaches, before or after ReclaimCache has emptied the caches,
TakeFreeFit grants the lowest or the highest address that fits, fails only when none does, and takes
from the free list exactly the bytes it grants. -/
theorem takeFreeFit_extremal {a : ProxyAllocator} (h : Started a) {ops : List Op} (hops : Run WellFormed a ops)
    {s : ProxyAllocator} (hs : s = (after a ops).alloc ∨ s = (after a ops).alloc.reclaimCache) {size : ℕ}
    (hpos : 0 < size) (hw : NoWrap s.allocGranularity size) (fromTop : Bool) :
    s.Extremal size fromTop (s.takeFreeFit size fromTop) := by
  have hproper := proper_after h.whole.idle hops
  have hneat : Granularity s.allocGranularity ∧ Neat s.allocGranularity s.freeList := by
    rcases hs with rfl | rfl
    · exact ⟨hproper.books.placed.gran, hproper.neat⟩
    · obtain ⟨hb, -⟩ := reclaimCache_spec (SlotLength (after a ops).alloc.allocGranularity) hproper.books (after a ops).spans
      exact ⟨hb.placed.gran, hproper.neat_reclaimCache⟩
  exact hneat.2.extremal hneat.1 hpos hw fromTop

/-- A hole of two pages below the rest: the top-down search passes it over. -/
theorem takeFreeFit_extremal_arena64K :
    let s := (after arena64K [.allocate 8192 false, .allocate 4096 false, .free ⟨0x10000000, 8192⟩]).alloc.reclaimCache
    s.Extremal 5000 true (s.takeFreeFit 5000 true) :=
  have hops : Run WellFormed arena64K [.allocate 8192 false, .allocate 4096 false, .free ⟨0x10000000, 8192⟩] := by
    decide +kernel
  takeFreeFit_extremal arena64K_started hops (.inr rfl) (by decide) (by decide +kernel) true

end Sys

end Ts3Vas
