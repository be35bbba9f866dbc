/-
Runs of the allocator from a successful Initialize or InitFromShared: calls of Allocate and Free by
callers who free what they own. The representation invariant holds in every state reached, also
when the node pool has run out.
-/
import Ts3Vas.Lib.Run
import Ts3Vas.Alloc.Refine

namespace Ts3Vas

open ProxyAllocator

/-! ## The start -/

/-- The system's promise about an address range it maps or reserves: a 64 KB aligned base and an end
below the last 64 KB of the address space. -/
structure Reserved (base size : ℕ) : Prop where
  dvd : 65536 ∣ base
  base_pos : 0 < base
  size_pos : 0 < size
  top : base + size ≤ 2 ^ 32 - 65536

instance (base size : ℕ) : Decidable (Reserved base size) :=
  decidable_of_iff (65536 ∣ base ∧ 0 < base ∧ 0 < size ∧ base + size ≤ 2 ^ 32 - 65536)
    ⟨fun ⟨h1, h2, h3, h4⟩ => ⟨h1, h2, h3, h4⟩, fun ⟨h1, h2, h3, h4⟩ => ⟨h1, h2, h3, h4⟩⟩

/-- No reservation is so long that its rounding wraps. -/
theorem Reserved.noWrap {g base size : ℕ} (h : Reserved base size) (hg : Granularity g) : NoWrap g size := by
  have hle := hg.le
  have htop := h.top
  unfold NoWrap
  omega

/-- A new allocator, whatever attempts to initialise it have failed. -/
inductive Fresh : ProxyAllocator → Prop
  | construct (granKb topDownKb : Option ℤ) : Fresh (construct granKb topDownKb)
  | initializeArena {s t : ProxyAllocator} {arenaSize reserved : ℕ} {mem : Bool} :
      Fresh s → s.initializeArena arenaSize reserved mem = (false, t) → Fresh t
  | initFromShared {s t : ProxyAllocator} {base size : ℕ} {mem : Bool} :
      Fresh s → s.initFromShared base size mem = (false, t) → Fresh t

/-- The state after the first success. -/
inductive Started : ProxyAllocator → Prop
  | initializeArena {s t : ProxyAllocator} {arenaSize reserved : ℕ} {mem : Bool} : Fresh s → arenaSize < 2 ^ 32 →
      Reserved reserved (s.slotSize arenaSize) → s.initializeArena arenaSize reserved mem = (true, t) → Started t
  | initFromShared {s t : ProxyAllocator} {base size : ℕ} {mem : Bool} : Fresh s →
      Reserved base size → s.initFromShared base size mem = (true, t) → Started t

/-- What a new allocator has: no arena, empty lists, and a full pool if it has one. -/
structure Blank (s : ProxyAllocator) : Prop where
  gran : Granularity s.allocGranularity
  base : s.arenaBase = 0
  classes : s.sizeClasses = []
  bytes : s.classCachedBytes = 0
  pool : s.nodePoolMem = true → s.nodeFree = kNodePoolBytes / blockBytes

theorem Blank.initNodePool {s t : ProxyAllocator} {mem ok : Bool} (h : Blank s) (e : s.initNodePool mem = (ok, t)) :
    Blank t ∧ t.allocGranularity = s.allocGranularity ∧ (ok = true → t.nodeFree = kNodePoolBytes / blockBytes) := by
  unfold ProxyAllocator.initNodePool at e
  split_ifs at e with hp hm
  · cases e; exact ⟨h, rfl, fun _ => h.pool hp⟩
  · cases e; exact ⟨⟨h.gran, h.base, h.classes, h.bytes, fun _ => rfl⟩, rfl, fun _ => rfl⟩
  · cases e; exact ⟨h, rfl, fun h => absurd h (by decide)⟩

/-- The first insert into an empty list with a full pool always finds a node. -/
theorem insert_first {s : ProxyAllocator} (hn : s.nodeFree = kNodePoolBytes / blockBytes) (hf : s.freeList = [])
    (addr size : ℕ) : s.insertFreeSortedAndCoalesce addr size =
      (true, { s with freeList := [⟨addr, size⟩], nodeFree := kNodePoolBytes / blockBytes - 1 }) := by
  rcases insert_cases s addr size with ⟨h0, -⟩ | ⟨-, m, e, hm⟩
  · rw [hn] at h0; exact absurd h0 (by decide)
  · have hl : insertBlock ⟨addr, size⟩ [] = [⟨addr, size⟩] := rfl
    rw [hf, hl] at e hm
    simp only [List.length_cons, List.length_nil] at hm
    rw [e, show m = kNodePoolBytes / blockBytes - 1 by omega]

/-- The allocator over an arena of its own: one free block, one node in use. -/
def adopt (s : ProxyAllocator) (base size : ℕ) (owns : Bool) : ProxyAllocator :=
  { s with
    arenaBase := base
    arenaSize := alignUp size s.allocGranularity
    ownsArena := owns
    freeList := [⟨base, alignUp size s.allocGranularity⟩]
    nodeFree := kNodePoolBytes / blockBytes - 1 }

/-- An initialisation fails and leaves the allocator blank, or adopts the arena. -/
theorem Blank.initFromShared {s : ProxyAllocator} (h : Blank s) (base size : ℕ) (mem : Bool) :
    ∃ u, Blank u ∧ u.allocGranularity = s.allocGranularity ∧
      (s.initFromShared base size mem = (false, u) ∨ s.initFromShared base size mem = (true, adopt u base size false)) := by
  unfold ProxyAllocator.initFromShared
  rw [if_neg (not_not.2 h.base)]
  rcases hp : s.initNodePool mem with ⟨ok, u⟩
  obtain ⟨hb, hg, hn⟩ := h.initNodePool hp
  refine ⟨u, hb, hg, ?_⟩
  cases ok with
  | false => exact .inl rfl
  | true =>
    right
    simp only
    rw [insert_first (by exact hn rfl) (by rfl)]
    rfl

theorem Blank.initializeArena {s : ProxyAllocator} (h : Blank s) (arenaSize reserved : ℕ) (mem : Bool) :
    ∃ u, Blank u ∧ u.allocGranularity = s.allocGranularity ∧
      (s.initializeArena arenaSize reserved mem = (false, u) ∨
        s.initializeArena arenaSize reserved mem = (true, adopt u reserved arenaSize true)) := by
  unfold ProxyAllocator.initializeArena
  rw [if_neg (not_not.2 h.base)]
  rcases hp : s.initNodePool mem with ⟨ok, u⟩
  obtain ⟨hb, hg, hn⟩ := h.initNodePool hp
  refine ⟨u, hb, hg, ?_⟩
  cases ok with
  | false => exact .inl rfl
  | true =>
    simp only
    split_ifs with h0
    · exact .inl rfl
    · right
      rw [insert_first (by exact hn rfl) (by rfl)]
      rfl

theorem Fresh.blank {s : ProxyAllocator} (h : Fresh s) : Blank s := by
  induction h with
  | construct granKb topDownKb => exact ⟨granularity_construct _ _, rfl, rfl, rfl, fun h => Bool.noConfusion h⟩
  | initializeArena _ e ih =>
    obtain ⟨u, hu, -, e' | e'⟩ := ih.initializeArena _ _ _
    · rw [e'] at e; cases e; exact hu
    · rw [e'] at e; cases e
  | initFromShared _ e ih =>
    obtain ⟨u, hu, -, e' | e'⟩ := ih.initFromShared _ _ _
    · rw [e'] at e; cases e; exact hu
    · rw [e'] at e; cases e

/-- The started arena is one free block. -/
structure Whole (s : ProxyAllocator) : Prop where
  books : s.Books
  size_pos : 0 < s.arenaSize
  free : s.freeList = [⟨s.arenaBase, s.arenaSize⟩]
  classes : s.sizeClasses = []

theorem Blank.adopt {u : ProxyAllocator} (h : Blank u) {base size : ℕ} (hd : 65536 ∣ base) (hb : 0 < base)
    (hpos : 0 < alignUp size u.allocGranularity) (htop : base + alignUp size u.allocGranularity < 2 ^ 32)
    (owns : Bool) : Whole (adopt u base size owns) := by
  refine ⟨⟨⟨h.gran, Nat.le_of_dvd hb hd, h.gran.dvd.trans hd, dvd_alignUp h.gran size, htop⟩, ?_, ?_, ?_⟩, hpos, rfl,
    h.classes⟩
  · show ClassTable True u.sizeClasses
    rw [h.classes]; exact ClassTable.nil
  · show kNodePoolBytes / blockBytes - 1 + 1 + (chains u.sizeClasses).length = _
    rw [h.classes]; rfl
  · show u.classCachedBytes = Span.total (spans (chains u.sizeClasses))
    rw [h.classes, h.bytes]; rfl

theorem Started.whole {t : ProxyAllocator} (h : Started t) : Whole t := by
  cases h with
  | @initializeArena s _ arenaSize reserved mem hf hlt hr e =>
    have htop := hr.top
    obtain ⟨u, hu, hg, e' | e'⟩ := hf.blank.initializeArena arenaSize reserved mem
    · rw [e'] at e; cases e
    · rw [e'] at e; cases e
      rw [slotSize, ← hg] at hr htop
      exact hu.adopt hr.dvd hr.base_pos hr.size_pos (by omega) true
  | @initFromShared s _ base size mem hf hr e =>
    have htop := hr.top
    have hpos := hr.base_pos
    obtain ⟨u, hu, hg, e' | e'⟩ := hf.blank.initFromShared base size mem
    · rw [e'] at e; cases e
    · rw [e'] at e; cases e
      have hle := hu.gran.le
      have hb := alignUp_bounds hu.gran (hr.noWrap hu.gran)
      exact hu.adopt hr.dvd hpos (hr.size_pos.trans_le hb.1) (by omega) false

/-- An arena with no slot out: one free block and empty caches. -/
structure Idle (s : ProxyAllocator) : Prop where
  books : s.Books
  size_pos : 0 < s.arenaSize
  free : s.freeList = [⟨s.arenaBase, s.arenaSize⟩]
  cached : chains s.sizeClasses = []

theorem Whole.idle {s : ProxyAllocator} (h : Whole s) : Idle s := ⟨h.books, h.size_pos, h.free, by rw [h.classes]; rfl⟩

theorem Idle.all_eq {s : ProxyAllocator} (h : Idle s) : (s.pieces []).all = [⟨s.arenaBase, s.arenaSize⟩] := by
  simp [pieces, Pieces.all, h.free, h.cached, Block.span]

theorem Idle.laid {s : ProxyAllocator} (h : Idle s) : s.Laid (s.pieces []) := by
  refine ⟨fun t ht => ?_, fun x => ?_⟩
  · rw [h.all_eq, List.mem_singleton] at ht
    subst ht
    exact ⟨⟨le_rfl, le_rfl⟩, h.books.placed.base_dvd, h.books.placed.size_dvd⟩
  · rw [h.all_eq, Span.cover_cons, Span.cover_nil]; split <;> omega

theorem Idle.sorted {s : ProxyAllocator} (h : Idle s) : Sorted (s.pieces []) := by
  refine ⟨?_, ?_⟩
  · show Span.Separated (spans s.freeList)
    rw [h.free]; exact List.pairwise_singleton _ _
  · rw [h.all_eq, List.forall_mem_singleton]
    exact h.size_pos

theorem Idle.tiled {s : ProxyAllocator} (h : Idle s) : Tiled s.arenaBase (s.arenaBase + s.arenaSize) (s.pieces []) := by
  intro x h1 h2
  rw [h.all_eq, Span.cover_cons, Span.cover_nil, if_pos ⟨h1, h2⟩]

/-! ## Runs -/

/-- A slot as its owner knows it: where it lies and what was asked for. -/
structure Slot where
  addr : ℕ
  size : ℕ
  deriving DecidableEq, Repr

/-- The slot's bytes `[addr, addr + AlignUp(size, gran))`. -/
def Slot.span (g : ℕ) (s : Slot) : Span := ⟨s.addr, alignUp s.size g⟩

/-- The allocator and the slots granted and not yet freed. -/
structure Sys where
  alloc : ProxyAllocator
  live : List Slot
  deriving DecidableEq

inductive Op
  | allocate (size : ℕ) (fromTop : Bool)
  | free (slot : Slot)
  deriving DecidableEq

namespace Sys

def step (s : Sys) : Op → Sys
  | .allocate size fromTop =>
    let (p, a) := s.alloc.allocate size fromTop
    ⟨a, if p = 0 then s.live else s.live ++ [⟨p, size⟩]⟩
  | .free slot => ⟨s.alloc.free slot.addr slot.size, s.live.erase slot⟩

theorem step_allocate (s : Sys) (size : ℕ) (fromTop : Bool) : s.step (.allocate size fromTop) =
    ⟨(s.alloc.allocate size fromTop).2, if (s.alloc.allocate size fromTop).1 = 0 then s.live
      else s.live ++ [⟨(s.alloc.allocate size fromTop).1, size⟩]⟩ := rfl

theorem step_free (s : Sys) (slot : Slot) :
    s.step (.free slot) = ⟨s.alloc.free slot.addr slot.size, s.live.erase slot⟩ := rfl

/-- Any 32-bit request, and frees of live slots with the size asked for. -/
def Owned (s : Sys) : Op → Prop
  | .allocate size _ => 0 < size ∧ size < 2 ^ 32
  | .free slot => slot ∈ s.live

/-- Owned calls whose rounding does not wrap. -/
def WellFormed (s : Sys) : Op → Prop
  | .allocate size _ => 0 < size ∧ NoWrap s.alloc.allocGranularity size
  | .free slot => slot ∈ s.live

instance (s : Sys) : (op : Op) → Decidable (s.Owned op)
  | .allocate .. => inferInstanceAs (Decidable (_ ∧ _))
  | .free _ => inferInstanceAs (Decidable (_ ∈ _))

instance (s : Sys) : (op : Op) → Decidable (s.WellFormed op)
  | .allocate .. => inferInstanceAs (Decidable (_ ∧ _))
  | .free _ => inferInstanceAs (Decidable (_ ∈ _))

/-- A run of well-formed calls, from the empty list of live slots. -/
abbrev Run (guard : Sys → Op → Prop) (a : ProxyAllocator) (ops : List Op) : Prop :=
  Run.Guarded step guard ⟨a, []⟩ ops

abbrev after (a : ProxyAllocator) (ops : List Op) : Sys := Run.after step ⟨a, []⟩ ops

def spans (s : Sys) : List Span := s.live.map (Slot.span s.alloc.allocGranularity)

def pieces (s : Sys) : Pieces := s.alloc.pieces s.spans

/-! ## One step -/

/-- Every insert of the step finds a node: a free node is there before a `Free`, and before an
`Allocate` that reaches `ReclaimCache` with bytes to reclaim. -/
def Ready (s : Sys) : Op → Prop
  | .allocate size fromTop => s.alloc.drains size fromTop → s.alloc.nodeFree ≠ 0
  | .free _ => s.alloc.nodeFree ≠ 0

instance (s : Sys) : (op : Op) → Decidable (s.Ready op)
  | .allocate .. => inferInstanceAs (Decidable (_ → _))
  | .free _ => inferInstanceAs (Decidable (_ ≠ _))

/-- The invariant of every run, whatever the sizes asked for. -/
structure Sound (s : Sys) : Prop where
  books : s.alloc.Books
  laid : s.alloc.Laid s.pieces

/-- What one step does: pieces change hands by moves, and are lost only when it is not `Ready`. -/
structure Stepped (ok : ℕ → Prop) (ready : Prop) (s t : Sys) : Prop where
  books : t.alloc.Books
  same : SameArena s.alloc t.alloc
  steps : Steps ok s.pieces t.pieces
  moves : ready → Moves ok s.pieces t.pieces
  lost : ¬ ready → ∃ q, Loss s.pieces q ∧ Steps ok q t.pieces

section
variable {ok : ℕ → Prop} {s t : Sys}

theorem Sound.step_allocate (ok : ℕ → Prop) (hs : s.Sound) {size : ℕ} (fromTop : Bool) (hok : ok (s.alloc.slotSize size)) :
    Stepped ok (s.Ready (.allocate size fromTop)) s (s.step (.allocate size fromTop)) := by
  have h := allocate_granting ok hs.books hs.laid fromTop hok
  have hp : (s.step (.allocate size fromTop)).pieces =
      (s.alloc.allocate size fromTop).2.pieces (handOut s.spans (s.alloc.allocate size fromTop).1
        (s.alloc.slotSize size)) := by
    rw [Sys.step_allocate]
    simp only [Sys.pieces, Sys.spans, h.same.2.2, handOut]
    split_ifs
    · rfl
    · rw [List.map_append]; rfl
  refine ⟨h.books, h.same, hp ▸ h.steps, fun hr => hp ▸ h.moves hr, fun hr => ?_⟩
  obtain ⟨hne, hst⟩ := h.lost hr
  refine ⟨_, .reclaimed (b := (chains s.alloc.sizeClasses).head hne) ?_, hp ▸ hst⟩
  exact (List.cons_head_tail hne).symm ▸ List.Perm.refl _

theorem spans_erase {slot : Slot} (h : slot ∈ s.live) :
    s.spans.Perm (slot.span s.alloc.allocGranularity :: (s.live.erase slot).map (Slot.span s.alloc.allocGranularity)) :=
  (List.perm_cons_erase h).map _

theorem Sound.step_free (ok : ℕ → Prop) (hs : s.Sound) {slot : Slot} (h : slot ∈ s.live) (hp : s.alloc.isProxyAddress slot.addr) :
    Stepped ok (s.Ready (.free slot)) s (s.step (.free slot)) := by
  have h := free_freeing ok hs.books hp (spans_erase h)
  have hp : (s.step (.free slot)).pieces = (s.alloc.free slot.addr slot.size).pieces
      ((s.live.erase slot).map (Slot.span s.alloc.allocGranularity)) := by
    rw [Sys.step_free]
    simp only [Sys.pieces, Sys.spans, h.same.2.2]
  exact ⟨h.books, h.same, hp ▸ h.steps, fun hr => hp ▸ h.moves hr,
    fun hr => ⟨_, hp ▸ h.lost (not_not.1 hr), .refl⟩⟩

/-- A live slot lies in the arena, on the allocator's grid. -/
theorem Sound.inArena (hs : s.Sound) {slot : Slot} (h : slot ∈ s.live) :
    InArena s.alloc.allocGranularity s.alloc.arenaBase (s.alloc.arenaBase + s.alloc.arenaSize)
      (slot.span s.alloc.allocGranularity) :=
  (Pieces.forall_all.1 hs.laid.inArena).1 _ (List.mem_map_of_mem h)

/-- A live slot of the arena with at least one byte is recognised. -/
theorem Sound.isProxyAddress (hs : s.Sound) {slot : Slot} (h : slot ∈ s.live)
    (hpos : 0 < alignUp slot.size s.alloc.allocGranularity) : s.alloc.isProxyAddress slot.addr := by
  have hin := (hs.inArena h).within
  have hlow := hs.books.placed.low
  have htop : ptrAdd s.alloc.arenaBase s.alloc.arenaSize = s.alloc.arenaBase + s.alloc.arenaSize :=
    Nat.mod_eq_of_lt hs.books.placed.top_lt
  simp only [Span.Within, Slot.span, Span.hi_mk] at hin
  simp only [ProxyAllocator.isProxyAddress, htop, Bool.and_eq_true, decide_eq_true_eq]
  omega

theorem Stepped.laid {ready : Prop} (hs : s.Sound) (h : Stepped ok ready s t) (hok : ∀ n, ok n → s.alloc.allocGranularity ∣ n) :
    t.alloc.Laid t.pieces := h.same.laid (hs.laid.steps hok hs.books.placed.top_lt h.steps)

/-- An `Allocate` of any size keeps the invariant and the arena. -/
theorem Sound.allocate_same (hs : s.Sound) (size : ℕ) (fromTop : Bool) :
    (s.step (.allocate size fromTop)).Sound ∧ SameArena s.alloc (s.step (.allocate size fromTop)).alloc := by
  have h := hs.step_allocate (s.alloc.allocGranularity ∣ ·) fromTop (dvd_alignUp hs.books.placed.gran size)
  exact ⟨⟨h.books, h.laid hs fun _ h => h⟩, h.same⟩

/-- Every owned step keeps the invariant and the arena, also one whose rounding wraps. -/
theorem Sound.step_same (hs : s.Sound) {op : Op} (hop : s.Owned op) :
    (s.step op).Sound ∧ SameArena s.alloc (s.step op).alloc := by
  cases op with
  | allocate size fromTop => exact hs.allocate_same size fromTop
  | free slot =>
    by_cases hp : s.alloc.isProxyAddress slot.addr
    · have h := hs.step_free (s.alloc.allocGranularity ∣ ·) hop hp
      exact ⟨⟨h.books, h.laid hs fun _ h => h⟩, h.same⟩
    · -- `Free` ignores an address outside the arena; only an empty slot at its very end is one
      have hf : s.alloc.free slot.addr slot.size = s.alloc := by
        unfold ProxyAllocator.free
        rw [Bool.not_eq_true] at hp
        rw [hp]; simp
      have hst : s.step (.free slot) = ⟨s.alloc, s.live.erase slot⟩ := by rw [Sys.step_free, hf]
      rw [hst]
      exact ⟨⟨hs.books, hs.laid.loss (.freed (b := ⟨slot.addr, alignUp slot.size _⟩) (spans_erase hop))⟩, .refl _⟩

theorem Sound.step (hs : s.Sound) {op : Op} (hop : s.Owned op) : (s.step op).Sound := (hs.step_same hop).1

/-- A request that stays inside the address space cannot wrap. -/
theorem Sound.noWrap (hs : s.Sound) {slot : Slot} (h : slot ∈ s.live) (htop : slot.addr + slot.size ≤ 2 ^ 32) :
    NoWrap s.alloc.allocGranularity slot.size := by
  have hlow := hs.books.placed.low
  have hle := hs.books.placed.gran.le
  have hin := (hs.inArena h).within.1
  simp only [Slot.span] at hin
  unfold NoWrap
  omega

/-- The order in which the live slots are listed does not matter. -/
theorem Sound.perm (hs : s.Sound) {live : List Slot} (h : s.live.Perm live) : Sound ⟨s.alloc, live⟩ := by
  have hp : s.pieces.all.Perm (Sys.pieces ⟨s.alloc, live⟩).all := (h.map _).append_right _
  exact ⟨hs.books, fun t ht => hs.laid.inArena t (hp.mem_iff.2 ht), fun x => Span.cover_perm hp x ▸ hs.laid.once x⟩

theorem live_granted {size : ℕ} {fromTop : Bool} (hp : (s.alloc.allocate size fromTop).1 ≠ 0) :
    (s.step (.allocate size fromTop)).live = s.live ++ [⟨(s.alloc.allocate size fromTop).1, size⟩] := by
  rw [Sys.step_allocate, if_neg hp]

theorem mem_granted {size : ℕ} {fromTop : Bool} (hp : (s.alloc.allocate size fromTop).1 ≠ 0) :
    (⟨(s.alloc.allocate size fromTop).1, size⟩ : Slot) ∈ (s.step (.allocate size fromTop)).live := by
  rw [live_granted hp]
  exact List.mem_append_right _ (List.mem_singleton_self _)

/-- A slot that is granted and given back at once. -/
theorem Sound.returned (hs : s.Sound) {size : ℕ} {fromTop : Bool} (hp : (s.alloc.allocate size fromTop).1 ≠ 0) :
    ((s.step (.allocate size fromTop)).step (.free ⟨(s.alloc.allocate size fromTop).1, size⟩)).Sound ∧
    SameArena s.alloc ((s.step (.allocate size fromTop)).step (.free ⟨(s.alloc.allocate size fromTop).1, size⟩)).alloc ∧
    ((s.step (.allocate size fromTop)).step (.free ⟨(s.alloc.allocate size fromTop).1, size⟩)).live.Perm s.live := by
  obtain ⟨h1, e1⟩ := hs.allocate_same size fromTop
  have hop : Owned (s.step (.allocate size fromTop)) (.free ⟨(s.alloc.allocate size fromTop).1, size⟩) := mem_granted hp
  obtain ⟨h2, e2⟩ := h1.step_same hop
  refine ⟨h2, e1.trans e2, ?_⟩
  rw [Sys.step_free, live_granted hp]
  have hmem : (⟨(s.alloc.allocate size fromTop).1, size⟩ : Slot) ∈ s.live ++ [⟨(s.alloc.allocate size fromTop).1, size⟩] := by simp
  exact ((List.perm_cons_erase hmem).symm.trans (List.perm_append_singleton _ _)).cons_inv

theorem Sound.allocate_free (hs : s.Sound) (size : ℕ) (fromTop : Bool) (hp : (s.alloc.allocate size fromTop).1 ≠ 0) :
    Sound ⟨(s.alloc.allocate size fromTop).2.free (s.alloc.allocate size fromTop).1 size, s.live⟩ ∧
      SameArena s.alloc ((s.alloc.allocate size fromTop).2.free (s.alloc.allocate size fromTop).1 size) := by
  obtain ⟨h, e, hperm⟩ := hs.returned hp
  exact ⟨h.perm hperm, e⟩

/-- Two entries of the live list hold no byte in common. -/
theorem Sound.pairwise (hs : s.Sound) : s.spans.Pairwise Span.Apart :=
  (List.pairwise_append.1 (Span.pairwise_apart hs.laid.once)).1

/-- A slot that ends inside the address space has at least a byte. -/
theorem Sound.granted_pos (hs : s.Sound) {size : ℕ} {fromTop : Bool} (hp : (s.alloc.allocate size fromTop).1 ≠ 0) (hsize : 0 < size)
    (htop : (s.alloc.allocate size fromTop).1 + size ≤ 2 ^ 32) : 0 < alignUp size s.alloc.allocGranularity := by
  obtain ⟨h, e⟩ := hs.allocate_same size fromTop
  have hnw := h.noWrap (mem_granted hp) htop
  rw [e.2.2] at hnw
  exact alignUp_pos hs.books.placed.gran hnw hsize

/-- A slot that is granted lies apart from the live ones. -/
theorem Sound.granted_apart (hs : s.Sound) {size : ℕ} {fromTop : Bool} (hp : (s.alloc.allocate size fromTop).1 ≠ 0) {slot : Slot}
    (h : slot ∈ s.live) : Span.Apart (slot.span s.alloc.allocGranularity)
      (Slot.span s.alloc.allocGranularity ⟨(s.alloc.allocate size fromTop).1, size⟩) := by
  obtain ⟨h1, e⟩ := hs.allocate_same size fromTop
  have hpw := h1.pairwise
  rw [Sys.spans, live_granted hp, List.map_append, List.map_singleton, e.2.2] at hpw
  exact (List.pairwise_append.1 hpw).2.2 _ (List.mem_map_of_mem h) _ (List.mem_singleton_self _)

end

/-- No run moves the arena, whatever its calls. -/
theorem sameArena_after (a : ProxyAllocator) (ops : List Op) : SameArena a (after a ops).alloc := by
  have hstep : ∀ (s : Sys) (op : Op), SameArena s.alloc (s.step op).alloc := by
    rintro s (⟨size, fromTop⟩ | slot)
    · exact sameArena_allocate s.alloc size fromTop
    · exact sameArena_free s.alloc slot.addr slot.size
  have hrun : ∀ (ops : List Op) (s : Sys), SameArena s.alloc (Run.after Sys.step s ops).alloc := by
    intro ops
    induction ops with
    | nil => exact fun s => .refl s.alloc
    | cons op ops ih => exact fun s => (hstep s op).trans (ih (s.step op))
  exact hrun ops ⟨a, []⟩

/-! ## Well-formed runs -/

/-- The invariant of well-formed runs: no piece is empty, and the free list has gaps. -/
structure Proper (s : Sys) : Prop extends Sound s where
  sorted : Sorted s.pieces

theorem start_proper {a : ProxyAllocator} (h : Idle a) : Proper ⟨a, []⟩ := ⟨⟨h.books, h.laid⟩, h.sorted⟩

section
variable {s t : Sys}

/-- The lengths that a well-formed run carves. -/
def SlotLength (g n : ℕ) : Prop := g ∣ n ∧ 0 < n

theorem WellFormed.owned (hs : s.Sound) : ∀ {op : Op}, s.WellFormed op → s.Owned op
  | .allocate size _, h => by
    have := hs.books.placed.gran.pos
    have h2 : size ≤ 2 ^ 32 - s.alloc.allocGranularity := h.2
    exact ⟨h.1, by omega⟩
  | .free _, h => h

theorem Proper.stepped (hs : s.Proper) {op : Op} (hop : s.WellFormed op) :
    Stepped (SlotLength s.alloc.allocGranularity) (s.Ready op) s (s.step op) := by
  cases op with
  | allocate size fromTop =>
    have hg := hs.books.placed.gran
    exact hs.step_allocate _ fromTop ⟨dvd_alignUp hg size, alignUp_pos hg hop.2 hop.1⟩
  | free slot =>
    have hpos := (Pieces.forall_all.1 hs.sorted.pos).1 _ (List.mem_map_of_mem hop)
    exact hs.step_free _ hop (hs.isProxyAddress hop hpos)

theorem Proper.step (hs : s.Proper) {op : Op} (hop : s.WellFormed op) : (s.step op).Proper := by
  have h := hs.stepped hop
  exact ⟨⟨h.books, h.laid hs.toSound fun _ h => h.1⟩,
    hs.sorted.steps (fun _ h => h) hs.books.placed.top_lt hs.laid h.steps⟩

/-- The run lemma of well-formed runs. -/
theorem proper_after {a : ProxyAllocator} (h : Idle a) {ops : List Op} (hops : Run WellFormed a ops) :
    (after a ops).Proper :=
  hops.invariant (fun _ _ hs hop => hs.step hop) (start_proper h)

end

/-! ## The representation invariant -/

/-- What every well-formed run keeps of the allocator's representation. -/
structure RepInvariant (s : Sys) : Prop where
  /-- Live slots, free blocks and cached blocks are pairwise disjoint. -/
  disjoint : s.pieces.all.Pairwise Span.Apart
  nonempty : ∀ p ∈ s.pieces.all, 0 < p.len
  inside : ∀ p ∈ s.pieces.all, p.Within s.alloc.arenaBase (s.alloc.arenaBase + s.alloc.arenaSize)
  aligned : ∀ p ∈ s.pieces.all, s.alloc.allocGranularity ∣ p.lo ∧ s.alloc.allocGranularity ∣ p.len
  increasing : s.alloc.freeList.Pairwise fun a b => a.address < b.address
  /-- No two blocks of the free list touch. -/
  coalesced : s.alloc.freeList.Pairwise fun a b => a.address + a.size < b.address
  classOwn : ∀ c ∈ s.alloc.sizeClasses, ∀ b ∈ c.blocks, b.size = c.classSize
  classDistinct : (s.alloc.sizeClasses.map (·.classSize)).Nodup
  classCount : ∀ c ∈ s.alloc.sizeClasses, c.count = c.blocks.length ∧ c.count ≤ 16
  classWhole : ∀ c ∈ s.alloc.sizeClasses, c.lost = 0

theorem Proper.repInvariant {s : Sys} (hs : s.Proper) : RepInvariant s := by
  have hgap : s.alloc.freeList.Pairwise fun a b => a.address + a.size < b.address :=
    List.pairwise_map.1 hs.sorted.separated
  have hwhole := hs.books.table.lost trivial
  exact {
    disjoint := Span.pairwise_apart hs.laid.once
    nonempty := hs.sorted.pos
    inside := hs.laid.within
    aligned := fun p hp => ⟨(hs.laid.inArena p hp).lo_dvd, (hs.laid.inArena p hp).len_dvd⟩
    increasing := hgap.imp fun h => by omega
    coalesced := hgap
    classOwn := hs.books.table.own
    classDistinct := hs.books.table.sizes
    classCount := fun c hc => ⟨by have := hs.books.table.count c hc; rw [hwhole c hc] at this; simpa using this,
      hs.books.table.cap c hc⟩
    classWhole := hwhole }

/-- From a successful Initialize or InitFromShared, every well-formed run of Allocate and Free keeps
the representation invariant, whether or not the node pool runs out on the way. -/
theorem repInvariant_after {a : ProxyAllocator} (h : Started a) {ops : List Op} (hops : Run WellFormed a ops) :
    RepInvariant (after a ops) := (proper_after h.whole.idle hops).repInvariant

/-- A 64 KB arena. -/
def arena64K : ProxyAllocator := ((construct none none).initFromShared 0x10000000 0x10000 true).2

theorem arena64K_started : Started arena64K :=
  have hr : Reserved 0x10000000 0x10000 := ⟨by decide, by decide, by decide, by decide⟩
  .initFromShared (.construct none none) hr (rfl : (construct none none).initFromShared _ _ true = _)

/-- The arena of the tool: 1 GB. -/
def arena1G : ProxyAllocator := ((construct none none).initFromShared 0x40000000 0x40000000 true).2

theorem arena1G_started : Started arena1G :=
  have hr : Reserved 0x40000000 0x40000000 := ⟨by decide, by decide, by decide, by decide⟩
  .initFromShared (.construct none none) hr (rfl : (construct none none).initFromShared _ _ true = _)

/-- Two slots from both ends, one of them freed into its cache. -/
theorem repInvariant_arena64K : RepInvariant (after arena64K
    [.allocate 5000 false, .allocate 4096 true, .free ⟨0x10000000, 5000⟩]) :=
  repInvariant_after arena64K_started (by decide +kernel)

end Sys

end Ts3Vas
