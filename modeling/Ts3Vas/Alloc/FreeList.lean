/-
The free list: slot rounding, sorted insertion with coalescing, and the two carving searches.
Each operation is described once, by what it does to the ranges of the list; the invariants of the
allocator use these descriptions and never the loops.
-/
import Ts3Vas.Alloc.Basic

namespace Ts3Vas

/-! ## Slot rounding -/

/-- The slot granularities the constructor accepts. -/
def Granularity (g : ℕ) : Prop := ∃ k, 12 ≤ k ∧ k ≤ 16 ∧ g = 2 ^ k

theorem Granularity.pos {g : ℕ} : Granularity g → 0 < g
  | ⟨_, _, _, h⟩ => h ▸ Nat.two_pow_pos _

theorem Granularity.dvd {g : ℕ} : Granularity g → g ∣ 65536
  | ⟨k, _, hk, h⟩ => h ▸ (pow_dvd_pow 2 hk : 2 ^ k ∣ 2 ^ 16)

theorem Granularity.le {g : ℕ} (h : Granularity g) : g ≤ 65536 := Nat.le_of_dvd (by omega) h.dvd

theorem Granularity.page_dvd {g : ℕ} : Granularity g → 4096 ∣ g
  | ⟨k, hk, _, h⟩ => h ▸ (pow_dvd_pow 2 hk : 2 ^ 12 ∣ 2 ^ k)

theorem granularity_construct (granKb topDownKb : Option ℤ) :
    Granularity (ProxyAllocator.construct granKb topDownKb).allocGranularity := by
  have default : Granularity (4 * 1024) := ⟨12, by omega, by omega, rfl⟩
  cases granKb with
  | none => exact default
  | some k =>
    simp only [ProxyAllocator.construct]
    split_ifs with h
    · rcases h with rfl | rfl | rfl | rfl | rfl
      · exact default
      · exact ⟨13, by omega, by omega, rfl⟩
      · exact ⟨14, by omega, by omega, rfl⟩
      · exact ⟨15, by omega, by omega, rfl⟩
      · exact ⟨16, by omega, by omega, rfl⟩
    · exact default

/-- Masking off the low `k` bits of a 32-bit word. -/
theorem and_high_mask {x k : ℕ} (hk : k ≤ 32) (hx : x < 2 ^ 32) : x &&& (2 ^ 32 - 2 ^ k) = x / 2 ^ k * 2 ^ k := by
  have hp : 2 ^ k - 1 + 1 = 2 ^ k := Nat.sub_add_cancel Nat.one_le_two_pow
  have hlt : 2 ^ k - 1 < 2 ^ 32 := by
    have := Nat.pow_le_pow_right (n := 2) (by omega) hk; omega
  apply Nat.eq_of_testBit_eq
  intro i
  rw [← hp, Nat.testBit_and, Nat.testBit_two_pow_sub_succ hlt, hp, Nat.testBit_two_pow_sub_one,
    ← Nat.shiftLeft_eq, Nat.testBit_shiftLeft, Nat.testBit_div_two_pow]
  by_cases hi : k ≤ i
  · rw [show i - k + k = i by omega]
    by_cases h32 : i < 32
    · simp [hi, h32]
    · have := Nat.testBit_lt_two_pow (hx.trans_le (Nat.pow_le_pow_right (by omega) (by omega : 32 ≤ i)))
      simp [this]
  · simp only [ge_iff_le, hi, decide_false, Bool.false_and]
    simp; omega

theorem alignUp_eq {g : ℕ} (hg : Granularity g) (v : ℕ) : alignUp v g = (v + (g - 1)) % 2 ^ 32 / g * g := by
  obtain ⟨k, _, hk, rfl⟩ := hg
  exact and_high_mask (by omega) (Nat.mod_lt _ (by omega))

theorem dvd_alignUp {g : ℕ} (hg : Granularity g) (v : ℕ) : g ∣ alignUp v g :=
  alignUp_eq hg v ▸ Nat.dvd_mul_left _ _

/-- The request can be rounded up without leaving 32 bits. -/
def NoWrap (g size : ℕ) : Prop := size ≤ 2 ^ 32 - g

instance (g size : ℕ) : Decidable (NoWrap g size) := inferInstanceAs (Decidable (_ ≤ _))

theorem NoWrap.lt {g size : ℕ} (h : NoWrap g size) (hg : Granularity g) : size < 2 ^ 32 := by
  have := hg.pos
  unfold NoWrap at h
  omega

/-- Rounding up without a wrap: the least multiple of the granularity that holds the request. -/
theorem alignUp_bounds {g size : ℕ} (hg : Granularity g) (h : NoWrap g size) :
    size ≤ alignUp size g ∧ alignUp size g < size + g := by
  have hpos := hg.pos
  have := hg.le
  unfold NoWrap at h
  rw [alignUp_eq hg, Nat.mod_eq_of_lt (by omega)]
  have hd := Nat.div_add_mod (size + (g - 1)) g
  have hm := Nat.mod_lt (size + (g - 1)) hpos
  rw [Nat.mul_comm] at hd
  constructor <;> omega

theorem alignUp_pos {g size : ℕ} (hg : Granularity g) (h : NoWrap g size) (hs : 0 < size) : 0 < alignUp size g :=
  hs.trans_le (alignUp_bounds hg h).1

/-- A request within one granule of `2 ^ 32` rounds to nothing. -/
theorem alignUp_wrap {g size : ℕ} (hg : Granularity g) (h : ¬ NoWrap g size) (hs : size < 2 ^ 32) :
    alignUp size g = 0 := by
  have hpos := hg.pos
  have := hg.le
  unfold NoWrap at h
  rw [alignUp_eq hg, show (size + (g - 1)) % 2 ^ 32 = size + (g - 1) - 2 ^ 32 by omega,
    Nat.div_eq_of_lt (by omega), Nat.zero_mul]

/-- What fits below a boundary still fits when rounded up to the boundary's granularity. -/
theorem alignUp_le_of_dvd {g size m : ℕ} (hg : Granularity g) (h : NoWrap g size) (hm : g ∣ m) (hle : size ≤ m) :
    alignUp size g ≤ m := by
  obtain ⟨c, rfl⟩ := hm
  obtain ⟨d, hd⟩ := dvd_alignUp hg size
  have hb := (alignUp_bounds hg h).2
  rw [hd] at hb ⊢
  apply Nat.mul_le_mul_left
  by_contra hc
  have : g * (c + 1) ≤ g * d := Nat.mul_le_mul_left _ (by omega)
  rw [Nat.mul_add] at this; omega

/-! ## Blocks as ranges -/

def Block.span (b : Block) : Span := ⟨b.address, b.size⟩

@[simp] theorem Block.span_lo (b : Block) : b.span.lo = b.address := rfl
@[simp] theorem Block.span_len (b : Block) : b.span.len = b.size := rfl
@[simp] theorem Block.span_hi (b : Block) : b.span.hi = b.address + b.size := rfl

def spans (l : List Block) : List Span := l.map Block.span

@[simp] theorem spans_nil : spans [] = [] := rfl
@[simp] theorem spans_cons (b : Block) (l : List Block) : spans (b :: l) = b.span :: spans l := rfl
@[simp] theorem spans_append (l m : List Block) : spans (l ++ m) = spans l ++ spans m := List.map_append

theorem spans_perm {l m : List Block} (h : l.Perm m) : (spans l).Perm (spans m) := h.map _

theorem mem_spans {l : List Block} {b : Block} (h : b ∈ l) : b.span ∈ spans l := List.mem_map_of_mem h

theorem forall_spans {l : List Block} {P : Span → Prop} : (∀ s ∈ spans l, P s) ↔ ∀ b ∈ l, P b.span := by
  simp [spans]

/-- A slot-sized range of the arena `[base, top)`: aligned to the granularity at both ends. -/
structure InArena (g base top : ℕ) (s : Span) : Prop where
  within : s.Within base top
  lo_dvd : g ∣ s.lo
  len_dvd : g ∣ s.len

theorem InArena.hi_lt {g base top : ℕ} {s : Span} (h : InArena g base top s) (htop : top < 2 ^ 32) :
    s.lo + s.len < 2 ^ 32 := h.within.2.trans_lt htop

theorem InArena.join {g base top a m n : ℕ} (h : InArena g base top ⟨a, m⟩) (h' : InArena g base top ⟨a + m, n⟩) :
    InArena g base top ⟨a, m + n⟩ := by
  have h1 := h.within.1
  have h2 := h'.within.2
  simp only [Span.hi_mk] at h2
  exact ⟨⟨h1, by simp only [Span.hi_mk]; omega⟩, h.lo_dvd, dvd_add h.len_dvd h'.len_dvd⟩

/-- The low part of a cut range. -/
theorem InArena.left {g base top a m n : ℕ} (h : InArena g base top ⟨a, m⟩) (hn : n ≤ m) (hd : g ∣ n) :
    InArena g base top ⟨a, n⟩ := by
  have h2 := h.within.2
  simp only [Span.hi_mk] at h2
  exact ⟨⟨h.within.1, by simp only [Span.hi_mk]; omega⟩, h.lo_dvd, hd⟩

/-- The high part of a cut range. -/
theorem InArena.right {g base top a m n : ℕ} (h : InArena g base top ⟨a, m⟩) (hn : n ≤ m) (hd : g ∣ n) :
    InArena g base top ⟨a + n, m - n⟩ := by
  have h1 := h.within.1
  have h2 := h.within.2
  simp only [Span.hi_mk] at h1 h2
  exact ⟨⟨by simp only; omega, by simp only [Span.hi_mk]; omega⟩, dvd_add h.lo_dvd hd, Nat.dvd_sub h.len_dvd hd⟩

namespace ProxyAllocator

/-! ## Sorted insertion -/

theorem linkAfter_perm (node : Block) : ∀ (rest : List Block) (cur : Block),
    (linkAfter node cur rest).Perm (node :: cur :: rest)
  | [], cur => List.Perm.swap ..
  | next :: rest, cur => by
    unfold linkAfter
    split
    · exact ((linkAfter_perm node rest next).cons cur).trans (List.Perm.swap ..)
    · exact List.Perm.swap ..

theorem linkSorted_perm (node : Block) : ∀ l : List Block, (linkSorted node l).Perm (node :: l)
  | [] => List.Perm.refl _
  | head :: rest => by
    simp only [linkSorted]
    split
    · exact List.Perm.refl _
    · exact linkAfter_perm node rest head

theorem spans_linkSorted_perm (node : Block) (l : List Block) :
    (spans (linkSorted node l)).Perm (node.span :: spans l) := spans_perm (linkSorted_perm node l)

/-- Blocks apart from each other: the one that starts first ends before the other. -/
theorem hi_le_of_apart {a b : Block} (ha : 0 < a.size) (hb : 0 < b.size) (h : Span.Apart a.span b.span)
    (hle : a.address ≤ b.address) : a.span.hi ≤ b.span.lo := by
  rcases (Span.apart_iff (by exact ha) (by exact hb)).1 h with h | h
  · exact h
  · simp only [Block.span_hi, Block.span_lo] at h ⊢; omega

theorem ordered_linkAfter {node : Block} (hn : 0 < node.size) : ∀ (rest : List Block) (cur : Block),
    cur.address ≤ node.address → Span.Ordered (spans (cur :: rest)) →
    (∀ b ∈ cur :: rest, 0 < b.size ∧ Span.Apart node.span b.span) →
    Span.Ordered (spans (linkAfter node cur rest))
  | [], cur, hle, _, hb => by
    obtain ⟨hc, hap⟩ := hb cur (List.mem_cons_self ..)
    simpa [linkAfter, Span.Ordered] using hi_le_of_apart hc hn hap.symm hle
  | next :: rest, cur, hle, ho, hb => by
    obtain ⟨hcur, hnext⟩ := Span.ordered_cons.1 ho
    obtain ⟨hc, hap⟩ := hb cur (List.mem_cons_self ..)
    have hcn := hi_le_of_apart hc hn hap.symm hle
    have hb' : ∀ b ∈ next :: rest, 0 < b.size ∧ Span.Apart node.span b.span :=
      fun b hm => hb b (List.mem_cons_of_mem _ hm)
    unfold linkAfter
    split
    -- `node` goes further down the list
    · rename_i hlt
      refine Span.ordered_cons.2 ⟨fun t ht => ?_, ordered_linkAfter hn rest next hlt.le hnext hb'⟩
      have ht' := ((linkAfter_perm node rest next).map Block.span).mem_iff.1 ht
      rcases List.mem_cons.1 ht' with rfl | ht'
      · exact hcn
      · exact hcur t ht'
    -- `node` goes between `cur` and `next`
    · rename_i hge
      obtain ⟨hx, hapx⟩ := hb' next (List.mem_cons_self ..)
      have hnx := hi_le_of_apart hn hx hapx (by omega)
      refine Span.ordered_cons.2 ⟨fun t ht => ?_, Span.ordered_cons.2 ⟨fun t ht => ?_, hnext⟩⟩
      · rcases List.mem_cons.1 ht with rfl | ht
        · exact hcn
        · exact hcur t ht
      · rcases List.mem_cons.1 ht with rfl | ht
        · exact hnx
        · have := (Span.ordered_cons.1 hnext).1 t ht
          simp only [Block.span_hi, Block.span_lo] at this hnx ⊢; omega

/-- A nonempty block that is apart from a sorted list of nonempty blocks is linked in order. -/
theorem ordered_linkSorted {node : Block} (hn : 0 < node.size) {l : List Block} (ho : Span.Ordered (spans l))
    (hb : ∀ b ∈ l, 0 < b.size ∧ Span.Apart node.span b.span) : Span.Ordered (spans (linkSorted node l)) := by
  cases l with
  | nil => exact List.pairwise_singleton _ _
  | cons head rest =>
    simp only [linkSorted]
    split
    · rename_i hlt
      obtain ⟨hh, hap⟩ := hb head (List.mem_cons_self ..)
      have hnh := hi_le_of_apart hn hh hap hlt.le
      refine Span.ordered_cons.2 ⟨fun t ht => ?_, ho⟩
      rcases List.mem_cons.1 ht with rfl | ht
      · exact hnh
      · have := (Span.ordered_cons.1 ho).1 t ht
        simp only [Block.span_hi, Block.span_lo] at this hnh ⊢; omega
    · rename_i hge
      exact ordered_linkAfter hn rest head (by omega) ho hb

/-! ## Coalescing -/

/-- Away from the end of the address space the 32-bit loop joins ranges as `Span.mergeFrom` does. -/
theorem spans_coalesceFrom : ∀ (rest : List Block) (cur : Block),
    (∀ b ∈ cur :: rest, b.address + b.size < 2 ^ 32) →
    spans (coalesceFrom cur rest).1 = Span.mergeFrom cur.span (spans rest)
  | [], _, _ => rfl
  | next :: rest, cur, h => by
    obtain ⟨hc, hr⟩ := List.forall_mem_cons.1 h
    obtain ⟨hn, hr'⟩ := List.forall_mem_cons.1 hr
    have hadd : ptrAdd cur.address cur.size = cur.address + cur.size := Nat.mod_eq_of_lt hc
    by_cases e : cur.address + cur.size = next.address
    · have hsz : (cur.size + next.size) % 2 ^ 32 = cur.size + next.size := Nat.mod_eq_of_lt (by omega)
      have he : cur.span.hi = next.span.lo := e
      rw [coalesceFrom, if_pos (hadd.trans e), spans_cons, Span.mergeFrom, if_pos he]
      simp only [hsz]
      exact spans_coalesceFrom rest _ (List.forall_mem_cons.2 ⟨by simp only; omega, hr'⟩)
    · have he : ¬ cur.span.hi = next.span.lo := e
      have ih := spans_coalesceFrom rest next hr
      simp only [coalesceFrom, hadd, if_neg e, spans_cons, ih]
      rw [Span.mergeFrom, if_neg he]

/-- Every node the loop gives back is one fewer in the list. -/
theorem length_coalesceFrom : ∀ (rest : List Block) (cur : Block),
    (coalesceFrom cur rest).1.length + (coalesceFrom cur rest).2 = rest.length + 1
  | [], _ => rfl
  | next :: rest, cur => by
    unfold coalesceFrom
    split
    · have := length_coalesceFrom rest { cur with size := (cur.size + next.size) % 2 ^ 32 }
      simp only [List.length_cons] at *; omega
    · have := length_coalesceFrom rest next
      simp only [List.length_cons] at *; omega

theorem length_coalesce (l : List Block) : (coalesce l).1.length + (coalesce l).2 = l.length := by
  cases l with
  | nil => rfl
  | cons head rest => exact length_coalesceFrom rest head

/-! ## Insertion -/

/-- The list after a successful insert. -/
def insertBlock (node : Block) (l : List Block) : List Block := (coalesce (linkSorted node l)).1

section
variable {node : Block} {l : List Block} {g base top : ℕ}

theorem spans_insertBlock (hb : ∀ b ∈ node :: l, b.address + b.size < 2 ^ 32) :
    ∃ s t, (s :: t).Perm (node.span :: spans l) ∧ s :: t = spans (linkSorted node l) ∧
      spans (insertBlock node l) = Span.mergeFrom s t := by
  have hp := linkSorted_perm node l
  unfold insertBlock
  cases hl : linkSorted node l with
  | nil => rw [hl] at hp; exact absurd hp.length_eq (by simp)
  | cons c r =>
    have hs := spans_linkSorted_perm node l
    rw [hl] at hp hs
    exact ⟨c.span, spans r, hs, rfl, spans_coalesceFrom r c fun b hm => hb b (hp.mem_iff.1 hm)⟩

theorem cover_insertBlock (hb : ∀ b ∈ node :: l, b.address + b.size < 2 ^ 32) (x : ℕ) :
    Span.cover (spans (insertBlock node l)) x = Span.cover (node.span :: spans l) x := by
  obtain ⟨s, t, hp, -, h⟩ := spans_insertBlock hb
  rw [h, Span.cover_mergeFrom, Span.cover_perm hp]

theorem forall_insertBlock {P : Span → Prop} (hP : ∀ a m n, P ⟨a, m⟩ → P ⟨a + m, n⟩ → P ⟨a, m + n⟩)
    (hb : ∀ b ∈ node :: l, b.address + b.size < 2 ^ 32) (h : ∀ b ∈ node :: l, P b.span) :
    ∀ b ∈ insertBlock node l, P b.span := by
  obtain ⟨s, t, hp, -, hm⟩ := spans_insertBlock hb
  rw [← forall_spans, hm]
  refine Span.forall_mergeFrom hP t s fun u hu => ?_
  exact forall_spans.2 h u (hp.mem_iff.1 hu)

/-- Inserting a nonempty block apart from the list leaves it sorted with gaps. -/
theorem separated_insertBlock (hb : ∀ b ∈ node :: l, b.address + b.size < 2 ^ 32) (hn : 0 < node.size)
    (ho : Span.Ordered (spans l)) (hap : ∀ b ∈ l, 0 < b.size ∧ Span.Apart node.span b.span) :
    Span.Separated (spans (insertBlock node l)) := by
  obtain ⟨s, t, -, he, h⟩ := spans_insertBlock hb
  rw [h]
  exact Span.separated_mergeFrom t s (he ▸ ordered_linkSorted hn ho hap)

theorem spans_injective : Function.Injective spans :=
  List.map_injective_iff.2 fun a b h => by
    obtain ⟨a, m⟩ := a
    obtain ⟨b, n⟩ := b
    simp only [Block.span, Span.mk.injEq] at h
    rw [h.1, h.2]

/-- A block that ends before the list starts becomes its head. -/
theorem insertBlock_front (hb : ∀ b ∈ node :: l, b.address + b.size < 2 ^ 32)
    (hs : Span.Separated (spans (node :: l))) : insertBlock node l = node :: l := by
  have hlink : linkSorted node l = node :: l := by
    cases l with
    | nil => rfl
    | cons head rest =>
      have := (Span.separated_cons.1 hs).1 head.span (mem_spans (List.mem_cons_self ..))
      simp only [Block.span_hi, Block.span_lo] at this
      simp only [linkSorted]
      rw [if_pos (by omega)]
  apply spans_injective
  show spans (coalesce (linkSorted node l)).1 = _
  rw [hlink]
  exact (spans_coalesceFrom l node hb).trans (Span.mergeFrom_of_separated _ _ hs)

end

/-! ## Carving -/

/-- What a successful search does: one block of the list gives up `need` bytes at one of its ends,
and leaves the list when nothing remains of it. -/
structure Carved (need : ℕ) (l : List Block) (f : Fit) (l' : List Block) : Prop where
  size : f.grantedSize = need
  cut : ∃ pre cur post, l = pre ++ cur :: post ∧ need ≤ cur.size ∧
    ((l' = pre ++ post ∧ f.removed = true ∧ f.grantedAddr = cur.address ∧ need = cur.size) ∨
     (l' = pre ++ ⟨cur.address + need, cur.size - need⟩ :: post ∧ f.removed = false ∧
        f.grantedAddr = cur.address ∧ need < cur.size) ∨
     (l' = pre ++ ⟨cur.address, cur.size - need⟩ :: post ∧ f.removed = false ∧
        f.grantedAddr = cur.address + (cur.size - need) ∧ need < cur.size))

theorem Carved.cons {need : ℕ} {l l' : List Block} {f : Fit} (h : Carved need l f l') (b : Block) :
    Carved need (b :: l) f (b :: l') := by
  obtain ⟨hs, pre, cur, post, rfl, hle, hc⟩ := h
  refine ⟨hs, b :: pre, cur, post, rfl, hle, ?_⟩
  rcases hc with ⟨rfl, h⟩ | ⟨rfl, h⟩ | ⟨rfl, h⟩
  · exact .inl ⟨rfl, h⟩
  · exact .inr (.inl ⟨rfl, h⟩)
  · exact .inr (.inr ⟨rfl, h⟩)

section
variable {need gran : ℕ}

/-- Multiples of the granularity that differ by less than it are equal. -/
theorem eq_of_remain_lt {a b : ℕ} (ha : gran ∣ a) (hb : gran ∣ b) (hle : b ≤ a) (h : ¬ gran ≤ a - b) : b = a := by
  have := Nat.eq_zero_of_dvd_of_lt (Nat.dvd_sub ha hb) (by omega)
  omega

theorem firstFit_some (hg : 0 < gran) (hd : gran ∣ need) : ∀ {l : List Block} {f : Fit} {l' : List Block},
    (∀ b ∈ l, gran ∣ b.size ∧ b.address + b.size < 2 ^ 32) → firstFit need gran l = some (f, l') →
    Carved need l f l'
  | cur :: next, f, l', hb, h => by
    obtain ⟨⟨hdc, hlt⟩, hb'⟩ := List.forall_mem_cons.1 hb
    unfold firstFit at h
    split at h
    · rename_i hle
      simp only at h
      split at h
      · cases h
        have hadd : ptrAdd cur.address need = cur.address + need := Nat.mod_eq_of_lt (by omega)
        exact ⟨rfl, [], cur, next, rfl, hle, .inr (.inl ⟨by rw [hadd]; rfl, rfl, rfl, by omega⟩)⟩
      -- what remains is less than a granule, so nothing does
      · rename_i hrem
        cases h
        have he := eq_of_remain_lt hdc hd hle hrem
        exact ⟨he.symm, [], cur, next, rfl, hle, .inl ⟨rfl, rfl, rfl, he⟩⟩
    · obtain ⟨⟨f₁, l₁⟩, h₁, he⟩ := Option.map_eq_some_iff.1 h
      cases he
      exact (firstFit_some hg hd hb' h₁).cons cur

theorem lastFit_some (hg : 0 < gran) (hd : gran ∣ need) : ∀ {l : List Block} {f : Fit} {l' : List Block},
    (∀ b ∈ l, gran ∣ b.size ∧ b.address + b.size < 2 ^ 32) → lastFit need gran l = some (f, l') →
    Carved need l f l'
  | cur :: next, f, l', hb, h => by
    obtain ⟨⟨hdc, hlt⟩, hb'⟩ := List.forall_mem_cons.1 hb
    unfold lastFit at h
    split at h
    · rename_i f₁ l₁ h₁
      -- a later block fits, and is taken first
      cases h
      exact (lastFit_some hg hd hb' h₁).cons cur
    · split at h
      · rename_i hle
        simp only at h
        split at h
        · cases h
          have hadd : ptrAdd cur.address (cur.size - need) = cur.address + (cur.size - need) :=
            Nat.mod_eq_of_lt (by omega)
          exact ⟨rfl, [], cur, next, rfl, hle, .inr (.inr ⟨rfl, rfl, hadd, by omega⟩)⟩
        · rename_i hrem
          cases h
          have he := eq_of_remain_lt hdc hd hle hrem
          exact ⟨he.symm, [], cur, next, rfl, hle, .inl ⟨rfl, rfl, rfl, he⟩⟩
      · cases h

theorem firstFit_none : ∀ {l : List Block}, firstFit need gran l = none ↔ ∀ b ∈ l, b.size < need
  | [] => by simp [firstFit]
  | cur :: next => by
    unfold firstFit
    rw [List.forall_mem_cons]
    split
    · rename_i hle
      refine iff_of_false ?_ fun h => absurd h.1 (by omega)
      simp only; split <;> simp
    · rw [Option.map_eq_none_iff, firstFit_none]
      exact ⟨fun h => ⟨by omega, h⟩, fun h => h.2⟩

theorem lastFit_none : ∀ {l : List Block}, lastFit need gran l = none ↔ ∀ b ∈ l, b.size < need
  | [] => by simp [lastFit]
  | cur :: next => by
    unfold lastFit
    rw [List.forall_mem_cons, ← lastFit_none (l := next)]
    cases lastFit need gran next with
    | some p => simp
    | none =>
      simp only [and_true]
      split
      · rename_i hle
        refine iff_of_false ?_ (by omega)
        split <;> simp
      · exact iff_of_true rfl (by omega)

end

/-- The grant and what stays in the list cover what the list covered. -/
theorem Carved.cover {need : ℕ} {l l' : List Block} {f : Fit} (h : Carved need l f l') (x : ℕ) :
    Span.cover (⟨f.grantedAddr, need⟩ :: spans l') x = Span.cover (spans l) x := by
  obtain ⟨hs, pre, cur, post, rfl, hle, hc⟩ := h
  rcases hc with ⟨rfl, -, ha, he⟩ | ⟨rfl, -, ha, hlt⟩ | ⟨rfl, -, ha, hlt⟩
  · rw [ha, he]
    simp only [spans_append, spans_cons, Span.cover_cons, Span.cover_append, Block.span]
    omega
  · have := Span.cover_cut (a := cur.address) hle (spans post) x
    rw [ha]
    simp only [spans_append, spans_cons, Span.cover_cons, Span.cover_append, Block.span] at *
    omega
  · have := Span.cover_join cur.address (cur.size - need) need (spans post) x
    rw [Nat.sub_add_cancel hle] at this
    rw [ha]
    simp only [spans_append, spans_cons, Span.cover_cons, Span.cover_append, Block.span] at *
    omega

theorem Carved.inArena {g base top need : ℕ} {l l' : List Block} {f : Fit} (h : Carved need l f l') (hd : g ∣ need)
    (hl : ∀ b ∈ l, InArena g base top b.span) :
    InArena g base top ⟨f.grantedAddr, need⟩ ∧ ∀ b ∈ l', InArena g base top b.span := by
  obtain ⟨hs, pre, cur, post, rfl, hle, hc⟩ := h
  have hcur : InArena g base top ⟨cur.address, cur.size⟩ := hl cur (by simp)
  have hpre : ∀ b ∈ pre, InArena g base top b.span := fun b hb => hl b (by simp [hb])
  have hpost : ∀ b ∈ post, InArena g base top b.span := fun b hb => hl b (by simp [hb])
  have hrem : g ∣ cur.size - need := Nat.dvd_sub hcur.len_dvd hd
  rcases hc with ⟨rfl, -, ha, he⟩ | ⟨rfl, -, ha, hlt⟩ | ⟨rfl, -, ha, hlt⟩
  · rw [ha, he]
    exact ⟨hcur, List.forall_mem_append.2 ⟨hpre, hpost⟩⟩
  · rw [ha]
    exact ⟨hcur.left hle hd, List.forall_mem_append.2 ⟨hpre, List.forall_mem_cons.2 ⟨hcur.right hle hd, hpost⟩⟩⟩
  · rw [ha]
    have hr := hcur.right (Nat.sub_le ..) hrem
    rw [Nat.sub_sub_self hle] at hr
    exact ⟨hr, List.forall_mem_append.2 ⟨hpre, List.forall_mem_cons.2 ⟨hcur.left (Nat.sub_le ..) hrem, hpost⟩⟩⟩

theorem Carved.pos {need : ℕ} {l l' : List Block} {f : Fit} (h : Carved need l f l') (hl : ∀ b ∈ l, 0 < b.size) :
    ∀ b ∈ l', 0 < b.size := by
  obtain ⟨hs, pre, cur, post, rfl, hle, hc⟩ := h
  have hpre : ∀ b ∈ pre, 0 < b.size := fun b hb => hl b (by simp [hb])
  have hpost : ∀ b ∈ post, 0 < b.size := fun b hb => hl b (by simp [hb])
  rcases hc with ⟨rfl, -, ha, he⟩ | ⟨rfl, -, ha, hlt⟩ | ⟨rfl, -, ha, hlt⟩
  · exact List.forall_mem_append.2 ⟨hpre, hpost⟩
  · exact List.forall_mem_append.2 ⟨hpre, List.forall_mem_cons.2 ⟨by simp only; omega, hpost⟩⟩
  · exact List.forall_mem_append.2 ⟨hpre, List.forall_mem_cons.2 ⟨by simp only; omega, hpost⟩⟩

/-- Shrinking or dropping one range keeps a list sorted with gaps. -/
theorem separated_replace {pre post : List Span} {s : Span} {r : List Span} (h : Span.Separated (pre ++ s :: post))
    (hr : r = [] ∨ ∃ t, r = [t] ∧ s.lo ≤ t.lo ∧ t.hi ≤ s.hi) : Span.Separated (pre ++ (r ++ post)) := by
  obtain ⟨hp, hs, hps⟩ := List.pairwise_append.1 h
  obtain ⟨hsp, hpost⟩ := List.pairwise_cons.1 hs
  rcases hr with rfl | ⟨t, rfl, h1, h2⟩
  · exact List.pairwise_append.2 ⟨hp, hpost, fun a ha b hb => hps a ha b (List.mem_cons_of_mem _ hb)⟩
  · refine List.pairwise_append.2 ⟨hp, List.pairwise_cons.2 ⟨fun b hb => ?_, hpost⟩, fun a ha b hb => ?_⟩
    · exact h2.trans_lt (hsp b hb)
    · rcases List.mem_cons.1 hb with rfl | hb
      · exact (hps a ha s (List.mem_cons_self ..)).trans_le h1
      · exact hps a ha b (List.mem_cons_of_mem _ hb)

theorem Carved.separated {need : ℕ} {l l' : List Block} {f : Fit} (h : Carved need l f l')
    (hl : Span.Separated (spans l)) : Span.Separated (spans l') := by
  obtain ⟨hs, pre, cur, post, rfl, hle, hc⟩ := h
  rw [spans_append, spans_cons] at hl
  rcases hc with ⟨rfl, -, ha, he⟩ | ⟨rfl, -, ha, hlt⟩ | ⟨rfl, -, ha, hlt⟩
  · rw [spans_append]
    exact separated_replace hl (.inl rfl)
  · rw [spans_append]
    refine separated_replace hl (.inr ⟨_, rfl, ?_, ?_⟩) <;> simp only [Block.span, Span.hi]
    · omega
    · omega
  · rw [spans_append]
    refine separated_replace hl (.inr ⟨_, rfl, ?_, ?_⟩) <;> simp only [Block.span, Span.hi]
    · omega
    · omega

end ProxyAllocator

end Ts3Vas
