/-
What Allocate and Free do to the arena, said once: the class table stays a table, the books stay
right, and the pieces change hands by moves. Pieces are lost only when an insert finds no node.
-/
import Ts3Vas.Alloc.Moves

namespace Ts3Vas.ProxyAllocator

/-! ## The class table -/

/-- The chains of all caches, in table order. -/
def chains (cs : List SizeClassList) : List Block := cs.flatMap (·.blocks)

@[simp] theorem chains_nil : chains [] = [] := rfl
@[simp] theorem chains_cons (c : SizeClassList) (cs : List SizeClassList) :
    chains (c :: cs) = c.blocks ++ chains cs := rfl
@[simp] theorem chains_append (cs ds : List SizeClassList) : chains (cs ++ ds) = chains cs ++ chains ds :=
  List.flatMap_append

/-- No two classes share a size; a chain holds blocks of its class's size, counted right and capped.
Under `kept` no node was lost with its pool. -/
structure ClassTable (kept : Prop) (cs : List SizeClassList) : Prop where
  sizes : (cs.map (·.classSize)).Nodup
  own : ∀ c ∈ cs, ∀ b ∈ c.blocks, b.size = c.classSize
  count : ∀ c ∈ cs, c.count = c.blocks.length + c.lost
  cap : ∀ c ∈ cs, c.count ≤ kMaxCachedPerClass
  small : ∀ c ∈ cs, c.classSize < 2 ^ 32
  lost : kept → ∀ c ∈ cs, c.lost = 0
  room : cs.length ≤ kMaxSizeClasses

variable {kept : Prop}

theorem ClassTable.nil : ClassTable kept [] :=
  ⟨List.nodup_nil, fun _ h => absurd h List.not_mem_nil, fun _ h => absurd h List.not_mem_nil,
    fun _ h => absurd h List.not_mem_nil, fun _ h => absurd h List.not_mem_nil,
    fun _ _ h => absurd h List.not_mem_nil, Nat.zero_le _⟩

/-- Changing the chain of one class. -/
theorem ClassTable.replace {pre post : List SizeClassList} {c c' : SizeClassList}
    (h : ClassTable kept (pre ++ c :: post)) (hsize : c'.classSize = c.classSize) (hlost : c'.lost = c.lost)
    (hown : ∀ b ∈ c'.blocks, b.size = c'.classSize) (hcount : c'.count = c'.blocks.length + c'.lost)
    (hcap : c'.count ≤ kMaxCachedPerClass) : ClassTable kept (pre ++ c' :: post) := by
  have hmem : ∀ d ∈ pre ++ c' :: post, d = c' ∨ d ∈ pre ++ c :: post := by
    intro d hd
    simp only [List.mem_append, List.mem_cons] at hd ⊢
    tauto
  refine ⟨?_, fun d hd => ?_, fun d hd => ?_, fun d hd => ?_, fun d hd => ?_, fun hk d hd => ?_, ?_⟩
  · have := h.sizes
    simp only [List.map_append, List.map_cons, hsize] at this ⊢
    exact this
  · rcases hmem d hd with rfl | hd
    · exact hown
    · exact h.own d hd
  · rcases hmem d hd with rfl | hd
    · exact hcount
    · exact h.count d hd
  · rcases hmem d hd with rfl | hd
    · exact hcap
    · exact h.cap d hd
  · rcases hmem d hd with rfl | hd
    · exact hsize ▸ h.small c (by simp)
    · exact h.small d hd
  · rcases hmem d hd with rfl | hd
    · exact hlost.trans (h.lost hk c (by simp))
    · exact h.lost hk d hd
  · have := h.room
    simp only [List.length_append, List.length_cons] at this ⊢
    exact this

/-- Entering a class that the table does not have. -/
theorem ClassTable.enter {cs : List SizeClassList} {n : ℕ} (h : ClassTable kept cs) (hn : ∀ c ∈ cs, c.classSize ≠ n)
    (hlt : n < 2 ^ 32) (hlen : cs.length < kMaxSizeClasses) : ClassTable kept (cs ++ [⟨n, [], 0, 0⟩]) := by
  refine ⟨?_, ?_, ?_, ?_, ?_, ?_, ?_⟩
  · rw [List.map_append, List.nodup_append]
    refine ⟨h.sizes, List.nodup_singleton _, fun a ha b hb => ?_⟩
    obtain ⟨c, hc, rfl⟩ := List.mem_map.1 ha
    simp only [List.map_cons, List.map_nil, List.mem_singleton] at hb
    rw [hb]; exact hn c hc
  · exact List.forall_mem_append.2 ⟨h.own, by simp⟩
  · exact List.forall_mem_append.2 ⟨h.count, by simp⟩
  · exact List.forall_mem_append.2 ⟨h.cap, by simp [kMaxCachedPerClass]⟩
  · exact List.forall_mem_append.2 ⟨h.small, List.forall_mem_singleton.2 hlt⟩
  · exact fun hk => List.forall_mem_append.2 ⟨h.lost hk, List.forall_mem_singleton.2 rfl⟩
  · simp only [List.length_append, List.length_singleton]; omega

theorem ClassTable.drain {cs : List SizeClassList} (h : ClassTable kept cs) :
    ClassTable True (cs.map fun c => { c with blocks := [], count := 0, lost := 0 }) := by
  refine ⟨?_, ?_, ?_, ?_, ?_, ?_, ?_⟩
  · rw [List.map_map]; exact h.sizes
  · simp
  · simp
  · simp [kMaxCachedPerClass]
  · exact List.forall_mem_map.2 h.small
  · exact fun _ => List.forall_mem_map.2 fun _ _ => rfl
  · rw [List.length_map]; exact h.room

/-- The chains keep their lengths when the pool goes. -/
theorem ClassTable.release {cs : List SizeClassList} (h : ClassTable kept cs) : ClassTable False (cs.map SizeClassList.release) := by
  refine ⟨?_, ?_, ?_, ?_, ?_, False.elim, ?_⟩
  · rw [List.map_map]; exact h.sizes
  · exact List.forall_mem_map.2 fun c _ b hb => absurd hb List.not_mem_nil
  · refine List.forall_mem_map.2 fun c hc => ?_
    have := h.count c hc
    simp only [SizeClassList.release, List.length_nil, Nat.cast_add]; omega
  · exact List.forall_mem_map.2 h.cap
  · exact List.forall_mem_map.2 h.small
  · rw [List.length_map]; exact h.room

theorem ClassTable.whole {cs : List SizeClassList} (h : ClassTable kept cs) (hlost : ∀ c ∈ cs, c.lost = 0) : ClassTable True cs :=
  { h with lost := fun _ => hlost }

theorem ClassTable.forget {cs : List SizeClassList} (h : ClassTable kept cs) : ClassTable False cs := { h with lost := False.elim }

theorem chains_drain (cs : List SizeClassList) : chains (cs.map fun c => { c with blocks := [], count := 0, lost := 0 }) = [] := by
  induction cs with
  | nil => rfl
  | cons c cs ih => simpa using ih

/-- A full table caches at most `256 * 16` blocks. -/
theorem ClassTable.length_chains {cs : List SizeClassList} (h : ClassTable kept cs) : (chains cs).length ≤ 4096 := by
  have hc : ∀ c ∈ cs, c.blocks.length ≤ 16 := by
    intro c hc
    have h1 := h.count c hc
    have h2 := h.cap c hc
    simp only [kMaxCachedPerClass] at h2
    omega
  have hlen : ∀ {ds : List SizeClassList}, (∀ c ∈ ds, c.blocks.length ≤ 16) → (chains ds).length ≤ ds.length * 16 := by
    intro ds
    induction ds with
    | nil => simp
    | cons d ds ih =>
      intro hd
      obtain ⟨h1, h2⟩ := List.forall_mem_cons.1 hd
      have := ih h2
      simp only [chains_cons, List.length_append, List.length_cons]; omega
  have := hlen hc
  have := h.room
  simp only [kMaxSizeClasses] at this
  omega

/-! ## Pop and push -/

theorem popFrom_some {n : ℕ} : ∀ {cs : List SizeClassList} {b : Block} {cs' : List SizeClassList},
    popFrom n cs = some (b, cs') → ∃ pre c next post, cs = pre ++ c :: post ∧ c.classSize = n ∧ c.blocks = b :: next ∧
      cs' = pre ++ { c with blocks := next, count := c.count - 1 } :: post
  | c :: cs, b, cs', h => by
    -- a class of another size, or an empty one
    have skip : (popFrom n cs).map (fun q => (q.1, c :: q.2)) = some (b, cs') → ∃ pre d next post,
        c :: cs = pre ++ d :: post ∧ d.classSize = n ∧ d.blocks = b :: next ∧
          cs' = pre ++ { d with blocks := next, count := d.count - 1 } :: post := by
      intro h
      obtain ⟨⟨b₁, cs₁⟩, h₁, he⟩ := Option.map_eq_some_iff.1 h
      cases he
      obtain ⟨pre, d, next, post, rfl, hn, hb, rfl⟩ := popFrom_some h₁
      exact ⟨c :: pre, d, next, post, rfl, hn, hb, rfl⟩
    unfold popFrom at h
    split at h
    · rename_i m next hbl
      split at h
      · rename_i hn
        cases h
        exact ⟨[], c, next, cs, rfl, hn, hbl, rfl⟩
      · exact skip h
    · exact skip h

theorem pushInto_some {addr n : ℕ} : ∀ {cs cs' : List SizeClassList}, pushInto addr n cs = some cs' →
    ∃ pre c post, cs = pre ++ c :: post ∧ c.classSize = n ∧ c.count < kMaxCachedPerClass ∧
      cs' = pre ++ { c with blocks := ⟨addr, n⟩ :: c.blocks, count := c.count + 1 } :: post
  | c :: cs, cs', h => by
    unfold pushInto at h
    split at h
    · rename_i hn
      split at h
      · cases h
      · rename_i hcap
        cases h
        exact ⟨[], c, cs, rfl, hn, not_le.1 hcap, rfl⟩
    · obtain ⟨cs₁, h₁, rfl⟩ := Option.map_eq_some_iff.1 h
      obtain ⟨pre, d, post, rfl, hn, hcap, rfl⟩ := pushInto_some h₁
      exact ⟨c :: pre, d, post, rfl, hn, hcap, rfl⟩

theorem findClass_some {n : ℕ} {cs cs' : List SizeClassList} (ht : ClassTable kept cs) (hn : n < 2 ^ 32) (h : findClass n cs = some cs') :
    ClassTable kept cs' ∧ chains cs' = chains cs := by
  unfold findClass at h
  split at h
  · cases h; exact ⟨ht, rfl⟩
  · rename_i hany
    split at h
    · cases h
    · rename_i hlen
      cases h
      refine ⟨ht.enter (fun c hc hn => hany ?_) hn (not_le.1 hlen), by simp⟩
      exact List.any_eq_true.2 ⟨c, hc, by simpa using hn⟩

/-- A hit takes a block of the class out of its chain. -/
theorem popFrom_table {n : ℕ} {cs cs' : List SizeClassList} {b : Block} (ht : ClassTable kept cs)
    (h : popFrom n cs = some (b, cs')) : ClassTable kept cs' ∧ b.size = n ∧ (chains cs).Perm (b :: chains cs') := by
  obtain ⟨pre, c, next, post, rfl, hn, hb, rfl⟩ := popFrom_some h
  have hc : c ∈ pre ++ c :: post := by simp
  have hown := ht.own c hc
  have hcount := ht.count c hc
  have hcap := ht.cap c hc
  rw [hb] at hown hcount
  refine ⟨ht.replace rfl rfl (fun d hd => hown d (List.mem_cons_of_mem _ hd)) ?_ ?_, ?_, ?_⟩
  · simp only [List.length_cons] at hcount ⊢; omega
  · simp only; omega
  · rw [hown b (List.mem_cons_self ..), hn]
  · simp only [chains_append, chains_cons, hb, List.cons_append]
    exact List.perm_middle

theorem pushInto_table {addr n : ℕ} {cs cs' : List SizeClassList} (ht : ClassTable kept cs)
    (h : pushInto addr n cs = some cs') : ClassTable kept cs' ∧ (chains cs').Perm (⟨addr, n⟩ :: chains cs) := by
  obtain ⟨pre, c, post, rfl, hn, hlt, rfl⟩ := pushInto_some h
  have hc : c ∈ pre ++ c :: post := by simp
  refine ⟨ht.replace rfl rfl (List.forall_mem_cons.2 ⟨hn.symm, ht.own c hc⟩) ?_ ?_, ?_⟩
  · have := ht.count c hc
    simp only [List.length_cons] at this ⊢; omega
  · simp only [kMaxCachedPerClass] at hlt ⊢; omega
  · simp only [chains_append, chains_cons, List.cons_append]
    exact List.perm_middle

/-! ## The books -/

/-- Where the arena lies: reserved by the system on its 64 KB boundaries, below the last 64 KB. -/
structure Placed (s : ProxyAllocator) : Prop where
  gran : Granularity s.allocGranularity
  low : 65536 ≤ s.arenaBase
  base_dvd : s.allocGranularity ∣ s.arenaBase
  size_dvd : s.allocGranularity ∣ s.arenaSize
  top_lt : s.arenaBase + s.arenaSize < 2 ^ 32

/-- The records that go with the lists: every node of the pool is in one list, and
`m_classCachedBytes` is what the caches hold. -/
structure Books (s : ProxyAllocator) : Prop where
  placed : s.Placed
  table : ClassTable True s.sizeClasses
  nodes : s.nodeFree + s.freeList.length + (chains s.sizeClasses).length = kNodePoolBytes / blockBytes
  bytes : s.classCachedBytes = Span.total (spans (chains s.sizeClasses))

/-- The caches hold less than `4096` blocks of 4 GB, so `m_classCachedBytes` never wraps. -/
theorem Books.cached_lt {s : ProxyAllocator} (hs : s.Books) : s.classCachedBytes < 2 ^ 45 := by
  have hsize : ∀ b ∈ chains s.sizeClasses, b.size ≤ 2 ^ 32 := by
    intro b hb
    obtain ⟨c, hc, hbc⟩ := List.mem_flatMap.1 hb
    exact hs.table.own c hc b hbc ▸ (hs.table.small c hc).le
  have hlen := hs.table.length_chains
  have htotal : Span.total (spans (chains s.sizeClasses)) ≤ (chains s.sizeClasses).length * 2 ^ 32 := by
    generalize chains s.sizeClasses = bs at hsize
    induction bs with
    | nil => exact le_rfl
    | cons b bs ih =>
      obtain ⟨h1, h2⟩ := List.forall_mem_cons.1 hsize
      have := ih h2
      rw [spans_cons, Span.total_cons, Block.span_len, List.length_cons]; omega
  rw [hs.bytes]; omega

/-- The rounded size of a request. -/
def slotSize (s : ProxyAllocator) (size : ℕ) : ℕ := alignUp size s.allocGranularity

theorem slotSize_lt (s : ProxyAllocator) (size : ℕ) : s.slotSize size < 2 ^ 32 :=
  Nat.and_le_left.trans_lt (Nat.mod_lt _ (by norm_num))

def pieces (s : ProxyAllocator) (live : List Span) : Pieces := ⟨live, s.freeList, chains s.sizeClasses⟩

abbrev Laid (s : ProxyAllocator) (p : Pieces) : Prop :=
  Layout s.allocGranularity s.arenaBase (s.arenaBase + s.arenaSize) p

/-- The arena and the granularity never change. -/
def SameArena (s t : ProxyAllocator) : Prop :=
  t.arenaBase = s.arenaBase ∧ t.arenaSize = s.arenaSize ∧ t.allocGranularity = s.allocGranularity

theorem SameArena.refl (s : ProxyAllocator) : SameArena s s := ⟨rfl, rfl, rfl⟩

theorem SameArena.trans {s t u : ProxyAllocator} (h : SameArena s t) (h' : SameArena t u) : SameArena s u :=
  ⟨h'.1.trans h.1, h'.2.1.trans h.2.1, h'.2.2.trans h.2.2⟩

theorem Placed.of_same {s t : ProxyAllocator} (h : s.Placed) (e : SameArena s t) : t.Placed := by
  obtain ⟨e1, e2, e3⟩ := e
  exact ⟨e3 ▸ h.gran, e1 ▸ h.low, e1 ▸ e3 ▸ h.base_dvd, e2 ▸ e3 ▸ h.size_dvd, e1 ▸ e2 ▸ h.top_lt⟩

theorem SameArena.laid {s t : ProxyAllocator} (e : SameArena s t) {p : Pieces} (h : s.Laid p) : t.Laid p := by
  obtain ⟨e1, e2, e3⟩ := e
  show Layout t.allocGranularity t.arenaBase (t.arenaBase + t.arenaSize) p
  rw [e1, e2, e3]; exact h

theorem SameArena.isProxyAddress {s t : ProxyAllocator} (e : SameArena s t) (p : ℕ) :
    t.isProxyAddress p = s.isProxyAddress p := by
  obtain ⟨e1, e2, -⟩ := e
  rw [ProxyAllocator.isProxyAddress, ProxyAllocator.isProxyAddress, e1, e2]

/-! ## Insertion and reclaim -/

/-- An insert fails exactly when the pool is empty, and then changes nothing. -/
theorem insert_cases (s : ProxyAllocator) (addr size : ℕ) :
    (s.nodeFree = 0 ∧ s.insertFreeSortedAndCoalesce addr size = (false, s)) ∨
    (s.nodeFree ≠ 0 ∧ ∃ m, s.insertFreeSortedAndCoalesce addr size =
        (true, { s with freeList := insertBlock ⟨addr, size⟩ s.freeList, nodeFree := m }) ∧
      m + (insertBlock ⟨addr, size⟩ s.freeList).length = s.nodeFree + s.freeList.length) := by
  by_cases h : s.nodeFree = 0
  · exact .inl ⟨h, by simp [insertFreeSortedAndCoalesce, allocNode, h]⟩
  · refine .inr ⟨h, s.nodeFree - 1 + (coalesce (linkSorted ⟨addr, size⟩ s.freeList)).2, ?_, ?_⟩
    · simp [insertFreeSortedAndCoalesce, allocNode, h, insertBlock]
    · have h1 := length_coalesce (linkSorted ⟨addr, size⟩ s.freeList)
      have h2 := (linkSorted_perm ⟨addr, size⟩ s.freeList).length_eq
      simp only [insertBlock, List.length_cons] at *; omega

/-! ## The arena stays where it is -/

theorem sameArena_insert (s : ProxyAllocator) (addr size : ℕ) :
    SameArena s (s.insertFreeSortedAndCoalesce addr size).2 := by
  rcases insert_cases s addr size with ⟨-, h⟩ | ⟨-, m, h, -⟩
  · rw [h]; exact .refl s
  · rw [h]; exact ⟨rfl, rfl, rfl⟩

theorem sameArena_reclaimCache (s : ProxyAllocator) : SameArena s s.reclaimCache := by
  have hfold : ∀ (bs : List Block) (s : ProxyAllocator), SameArena s (bs.foldl reclaimBlock s) := by
    intro bs
    induction bs with
    | nil => exact .refl
    | cons b bs ih => exact fun s => SameArena.trans (sameArena_insert s b.address b.size) (ih (s.reclaimBlock b))
  exact hfold (s.sizeClasses.flatMap (·.blocks)) s

theorem sameArena_takeFreeFit (s : ProxyAllocator) (size : ℕ) (fromTop : Bool) :
    SameArena s (s.takeFreeFit size fromTop).2 := by
  simp only [takeFreeFit]
  split <;> exact ⟨rfl, rfl, rfl⟩

theorem sameArena_fitOrReclaim (s : ProxyAllocator) (size : ℕ) (fromTop : Bool) :
    SameArena s (s.fitOrReclaim size fromTop).2 := by
  have hfit := sameArena_takeFreeFit s size fromTop
  simp only [fitOrReclaim]
  split
  · exact hfit.trans ((sameArena_reclaimCache _).trans (sameArena_takeFreeFit _ size fromTop))
  · exact hfit

theorem sameArena_settle (s : ProxyAllocator) (size : ℕ) (f : Fit) : SameArena s (s.settle size f).2 := by
  unfold settle
  split
  · exact ⟨rfl, rfl, rfl⟩
  · split <;> exact ⟨rfl, rfl, rfl⟩

theorem sameArena_allocate (s : ProxyAllocator) (size : ℕ) (fromTop : Bool) : SameArena s (s.allocate size fromTop).2 := by
  simp only [allocate, popSizeClass]
  split
  · exact ⟨rfl, rfl, rfl⟩
  · cases popFrom (alignUp size s.allocGranularity) s.sizeClasses with
    | some bc => exact ⟨rfl, rfl, rfl⟩
    | none =>
      have hfit := sameArena_fitOrReclaim { s with totalAllocationRequests := (s.totalAllocationRequests + 1) % 2 ^ 64 } size fromTop
      exact hfit.trans (sameArena_settle _ size _)

theorem sameArena_free (s : ProxyAllocator) (ptr size : ℕ) : SameArena s (s.free ptr size) := by
  have hpush : SameArena s (s.pushSizeClass ptr (alignUp size s.allocGranularity)).2 := by
    unfold pushSizeClass
    cases findClass (alignUp size s.allocGranularity) s.sizeClasses with
    | none => exact .refl s
    | some cs =>
      dsimp only
      cases pushInto ptr (alignUp size s.allocGranularity) cs with
      | none => exact ⟨rfl, rfl, rfl⟩
      | some cs' =>
        dsimp only [allocNode]
        by_cases h0 : s.nodeFree = 0
        · rw [if_pos h0]; exact ⟨rfl, rfl, rfl⟩
        · rw [if_neg h0]; exact ⟨rfl, rfl, rfl⟩
  unfold free
  split
  · exact .refl s
  · split
    · exact .refl s
    · rcases hp : s.pushSizeClass ptr (alignUp size s.allocGranularity) with ⟨_ | _, t⟩
      · rw [hp] at hpush
        simp only [hp]
        exact hpush.trans (sameArena_insert t ptr (alignUp size s.allocGranularity))
      · rw [hp] at hpush
        simp only [hp]
        exact hpush

/-- The fields that reclaiming writes before it empties the table. -/
def refilled (s : ProxyAllocator) (l : List Block) (m bytes : ℕ) (r : Bool) : ProxyAllocator :=
  { s with freeList := l, nodeFree := m, classCachedBytes := bytes, hasMainArenaFree := r }

/-- One cached block goes back: into the free list, or nowhere when the pool is empty. -/
theorem reclaimBlock_eq (s : ProxyAllocator) (n : Block) (hn : n.size ≤ s.classCachedBytes) :
    ∃ l m, s.reclaimBlock n = s.refilled l m (s.classCachedBytes - n.size) true ∧
      m + l.length = s.nodeFree + s.freeList.length + 1 ∧ m ≠ 0 ∧
      (s.nodeFree = 0 → l = s.freeList) ∧ (s.nodeFree ≠ 0 → l = insertBlock n s.freeList) := by
  rcases (insert_cases s n.address n.size : _ ∨ s.nodeFree ≠ 0 ∧ ∃ m, _ = (true, { s with
    freeList := insertBlock n s.freeList, nodeFree := m }) ∧ m + (insertBlock n s.freeList).length = _)
    with ⟨h0, h⟩ | ⟨h0, m, h, hm⟩
  · exact ⟨s.freeList, s.nodeFree + 1, by simp [reclaimBlock, refilled, uncache, h, freeNode, hn], by omega, by omega, fun _ => rfl,
      fun h => absurd h0 h⟩
  · exact ⟨insertBlock n s.freeList, m + 1, by simp [reclaimBlock, refilled, uncache, h, freeNode, hn], by omega, by omega,
      fun h => absurd h h0, fun _ => rfl⟩

/-- `ReclaimCache` moves one cached block after another, and keeps them all when it starts with a
free node: each turn takes a node and gives one back. Without one it loses the first. -/
theorem foldl_reclaimBlock (ok : ℕ → Prop) (live : List Span) : ∀ (bs : List Block) (s : ProxyAllocator),
    Span.total (spans bs) ≤ s.classCachedBytes →
    ∃ l m r, bs.foldl reclaimBlock s = s.refilled l m (s.classCachedBytes - Span.total (spans bs)) r ∧
      m + l.length = s.nodeFree + s.freeList.length + bs.length ∧
      Steps ok ⟨live, s.freeList, bs⟩ ⟨live, l, []⟩ ∧
      (s.nodeFree ≠ 0 → Moves ok ⟨live, s.freeList, bs⟩ ⟨live, l, []⟩) ∧
      (s.nodeFree = 0 → bs ≠ [] → Steps ok ⟨live, s.freeList, bs.tail⟩ ⟨live, l, []⟩)
  | [], s, _ => ⟨s.freeList, s.nodeFree, s.hasMainArenaFree, rfl, rfl, .refl, fun _ => .refl, fun _ h => absurd rfl h⟩
  | b :: bs, s, hle => by
    simp only [spans_cons, Span.total_cons, Block.span_len] at hle
    obtain ⟨l, m, e, hlen, hm, h0, h1⟩ := reclaimBlock_eq s b (by omega)
    obtain ⟨l', m', r, e', hlen', hst, hmv, -⟩ := foldl_reclaimBlock ok live bs (s.reclaimBlock b) (by rw [e]; simp only [refilled]; omega)
    rw [e] at e' hlen' hst hmv
    -- a chain node goes back to the pool after its block's insert, so only the first insert can fail
    refine ⟨l', m', r, ?_, ?_, ?_, fun hne => ?_, fun hz _ => ?_⟩
    · rw [List.foldl_cons, e, e']
      simp only [refilled, spans_cons, Span.total_cons, Block.span_len, Nat.sub_sub]
    · simp only [refilled, List.length_cons] at hlen' ⊢; omega
    · refine Relation.ReflTransGen.head ?_ hst
      by_cases hne : s.nodeFree = 0
      · rw [h0 hne]; exact .inr (.reclaimed (List.Perm.refl _))
      · rw [h1 hne]; exact .inl (.reclaim (List.Perm.refl _))
    · have := h1 hne
      subst this
      exact Relation.ReflTransGen.head (.reclaim (List.Perm.refl _)) (hmv hm)
    · have := h0 hz
      subst this
      exact hst

theorem reclaimCache_spec (ok : ℕ → Prop) {s : ProxyAllocator} (hs : s.Books) (live : List Span) :
    s.reclaimCache.Books ∧ SameArena s s.reclaimCache ∧ chains s.reclaimCache.sizeClasses = [] ∧
      Steps ok (s.pieces live) (s.reclaimCache.pieces live) ∧
      (s.nodeFree ≠ 0 → Moves ok (s.pieces live) (s.reclaimCache.pieces live)) ∧
      (s.nodeFree = 0 → 0 < s.classCachedBytes → chains s.sizeClasses ≠ [] ∧
        Steps ok ⟨live, s.freeList, (chains s.sizeClasses).tail⟩ (s.reclaimCache.pieces live)) := by
  obtain ⟨l, m, r, e, hlen, hst, hmv, hlost⟩ := foldl_reclaimBlock ok live (chains s.sizeClasses) s hs.bytes.ge
  have hr : s.reclaimCache = { s.refilled l m (s.classCachedBytes - Span.total (spans (chains s.sizeClasses))) r with
      sizeClasses := s.sizeClasses.map fun c => { c with blocks := [], count := 0, lost := 0 } } := by
    unfold reclaimCache
    rw [← chains, e]; rfl
  have hc : chains s.reclaimCache.sizeClasses = [] := by rw [hr]; exact chains_drain _
  refine ⟨⟨hs.placed.of_same (by rw [hr]; exact ⟨rfl, rfl, rfl⟩), by rw [hr]; exact hs.table.drain, ?_, ?_⟩,
    by rw [hr]; exact ⟨rfl, rfl, rfl⟩, hc, ?_, fun hne => ?_, fun hz hpos => ?_⟩
  · rw [hc, ← hs.nodes, hr]
    simp only [refilled, List.length_nil]; omega
  · rw [hc, hr]
    simp only [refilled, hs.bytes, Nat.sub_self, spans_nil, Span.total_nil]
  · rw [pieces, pieces, hc, hr]; exact hst
  · rw [pieces, pieces, hc, hr]; exact hmv hne
  -- without a node the first cached block is the one that is lost
  · have hne : chains s.sizeClasses ≠ [] := by
      intro h0
      have := hs.bytes
      rw [h0, spans_nil, Span.total_nil] at this
      omega
    refine ⟨hne, ?_⟩
    rw [pieces, hc, hr]; exact hlost hz hne

/-! ## The search -/

/-- A search takes a cut from one block, or finds every block too small and changes nothing. -/
theorem takeFreeFit_cases {s : ProxyAllocator} {live : List Span} (hp : s.Placed) (hl : s.Laid (s.pieces live))
    (size : ℕ) (fromTop : Bool) :
    (∃ f l, s.takeFreeFit size fromTop = (f, { s with freeList := l }) ∧ Carved (s.slotSize size) s.freeList f l ∧
      f.grantedAddr ≠ 0) ∨
    (s.takeFreeFit size fromTop = (⟨0, 0, false⟩, s) ∧ ∀ b ∈ s.freeList, b.size < s.slotSize size) := by
  have hfree : ∀ b ∈ s.freeList, InArena s.allocGranularity s.arenaBase (s.arenaBase + s.arenaSize) b.span :=
    (Pieces.forall_all.1 hl.inArena).2.1
  have hd := dvd_alignUp hp.gran size
  have hb : ∀ b ∈ s.freeList, s.allocGranularity ∣ b.size ∧ b.address + b.size < 2 ^ 32 :=
    fun b hb => ⟨(hfree b hb).len_dvd, (hfree b hb).hi_lt hp.top_lt⟩
  -- the arena does not start at zero, so a granted address is not null
  have hsome : ∀ {f l}, Carved (s.slotSize size) s.freeList f l → f.grantedAddr ≠ 0 := by
    intro f l hc
    have h1 := (hc.inArena hd hfree).1.within.1
    have h2 := hp.low
    simp only at h1
    omega
  unfold takeFreeFit
  simp only
  split
  · rename_i f l he
    have hc : Carved (s.slotSize size) s.freeList f l := by
      cases fromTop with
      | true => exact lastFit_some hp.gran.pos hd hb he
      | false => exact firstFit_some hp.gran.pos hd hb he
    exact .inl ⟨f, l, rfl, hc, hsome hc⟩
  · rename_i he
    refine .inr ⟨rfl, ?_⟩
    cases fromTop with
    | true => exact lastFit_none.1 he
    | false => exact firstFit_none.1 he

theorem Carved.length {need : ℕ} {l l' : List Block} {f : Fit} (h : Carved need l f l') :
    l'.length + (if f.removed then 1 else 0) = l.length := by
  obtain ⟨hs, pre, cur, post, rfl, hle, hc⟩ := h
  rcases hc with ⟨rfl, hr, -⟩ | ⟨rfl, hr, -⟩ | ⟨rfl, hr, -⟩
  · simp only [hr, List.length_append, List.length_cons, if_true]; omega
  · simp [hr]
  · simp [hr]

/-- The node of a whole block goes back to the pool. -/
theorem Books.carve {s : ProxyAllocator} (hs : s.Books) {need : ℕ} {f : Fit} {l : List Block}
    (hc : Carved need s.freeList f l) (size : ℕ) :
    ((if f.removed then { s with freeList := l }.freeNode else { s with freeList := l }).grant size
      f.grantedSize).Books ∧
    SameArena s ((if f.removed then { s with freeList := l }.freeNode else { s with freeList := l }).grant size
      f.grantedSize) := by
  have hlen := hc.length
  have hn := hs.nodes
  cases hr : f.removed with
  | true =>
    rw [hr] at hlen
    simp only [if_true] at hlen
    refine ⟨⟨hs.placed.of_same ⟨rfl, rfl, rfl⟩, hs.table, ?_, hs.bytes⟩, ⟨rfl, rfl, rfl⟩⟩
    simp only [if_true, grant, freeNode]; omega
  | false =>
    rw [hr] at hlen
    simp only [Bool.false_eq_true, if_false] at hlen
    refine ⟨⟨hs.placed.of_same ⟨rfl, rfl, rfl⟩, hs.table, ?_, hs.bytes⟩, ⟨rfl, rfl, rfl⟩⟩
    simp only [Bool.false_eq_true, if_false, grant]; omega

/-! ## Allocate -/

/-- `Allocate` gets as far as `ReclaimCache`: no cached slot of the size, no free block that fits,
and bytes in the caches. -/
def drains (s : ProxyAllocator) (size : ℕ) (fromTop : Bool) : Bool :=
  (popFrom (s.slotSize size) s.sizeClasses).isNone && (s.takeFreeFit size fromTop).1.grantedAddr = 0 &&
    0 < s.classCachedBytes

/-- The slots after a grant of `n` bytes at `p`; a null grants nothing. -/
def handOut (live : List Span) (p n : ℕ) : List Span := if p = 0 then live else live ++ [⟨p, n⟩]

theorem handOut_of_ne {live : List Span} {p n : ℕ} (h : p ≠ 0) : handOut live p n = live ++ [⟨p, n⟩] := if_neg h

/-- What a call of `Allocate` on `s` that returned `p` and left `t` has done. -/
structure Granting (ok : ℕ → Prop) (live : List Span) (s : ProxyAllocator) (size : ℕ) (ready : Prop) (p : ℕ)
    (t : ProxyAllocator) : Prop where
  books : t.Books
  same : SameArena s t
  steps : Steps ok (s.pieces live) (t.pieces (handOut live p (s.slotSize size)))
  moves : ready → Moves ok (s.pieces live) (t.pieces (handOut live p (s.slotSize size)))
  /-- The block at the head of the first chain is lost. -/
  lost : ¬ ready → chains s.sizeClasses ≠ [] ∧
    Steps ok ⟨live, s.freeList, (chains s.sizeClasses).tail⟩ (t.pieces (handOut live p (s.slotSize size)))
  /-- A null leaves the caches empty and no free block large enough. -/
  null : p = 0 → (∀ b ∈ t.freeList, b.size < s.slotSize size) ∧ Span.total (spans (chains t.sizeClasses)) = 0

section
variable {ok : ℕ → Prop} {s : ProxyAllocator} {live : List Span} {size : ℕ}

/-- A cache hit takes the block at the head of its class. -/
theorem Granting.cached (hs : s.Books) (hl : s.Laid (s.pieces live)) {b : Block} {cs : List SizeClassList}
    (h : popFrom (s.slotSize size) s.sizeClasses = some (b, cs)) {ready : Prop} (hr : ready) :
    Granting ok live s size ready b.address (({ s with sizeClasses := cs }).allocateCached size b) := by
  obtain ⟨ht, hsz, hp⟩ := popFrom_table hs.table h
  have hin := (Pieces.forall_all.1 hl.inArena).2.2 b (hp.mem_iff.2 (List.mem_cons_self ..))
  have hpos : b.address ≠ 0 := by
    have h1 := hin.within.1
    have h2 := hs.placed.low
    simp only [Block.span_lo] at h1
    omega
  have hbytes := hs.bytes
  rw [Span.total_perm (spans_perm hp), spans_cons, Span.total_cons, Block.span_len] at hbytes
  -- the count of cached bytes never falls below a chained block, so its subtraction is exact
  have hle : b.size ≤ s.classCachedBytes := by omega
  have hfields : ({ s with sizeClasses := cs }).allocateCached size b =
      ({ s with sizeClasses := cs, nodeFree := s.nodeFree + 1, classCachedBytes := s.classCachedBytes - b.size,
                totalReusedBytes := (s.totalReusedBytes + b.size) % 2 ^ 64 } : ProxyAllocator).grant size b.size := by
    simp [allocateCached, uncache, freeNode, hle]
  have hmv : Moves ok (s.pieces live)
      ((({ s with sizeClasses := cs }).allocateCached size b).pieces (handOut live b.address (s.slotSize size))) := by
    rw [handOut_of_ne hpos, ← hsz, hfields]
    exact .single (.reuse hp)
  refine ⟨?_, ?_, hmv.steps, fun _ => hmv, fun h => absurd hr h, fun h => absurd h hpos⟩
  · rw [hfields]
    refine ⟨hs.placed.of_same ⟨rfl, rfl, rfl⟩, ht, ?_, ?_⟩
    · have := hs.nodes
      have := hp.length_eq
      simp only [grant, List.length_cons] at *; omega
    · simp only [grant]; omega
  · rw [hfields]; exact ⟨rfl, rfl, rfl⟩

/-- The search after a miss, on the state `t` that it runs on. -/
theorem Granting.searched {t : ProxyAllocator} (ht : t.Books) (hl : t.Laid (t.pieces live)) (hsame : SameArena s t)
    (hok : ok (s.slotSize size)) {ready : Prop} (hst : Steps ok (s.pieces live) (t.pieces live))
    (hmv : ready → Moves ok (s.pieces live) (t.pieces live))
    (hlost : ¬ ready → chains s.sizeClasses ≠ [] ∧
      Steps ok ⟨live, s.freeList, (chains s.sizeClasses).tail⟩ (t.pieces live)) (fromTop : Bool)
    (hcache : (t.takeFreeFit size fromTop).1.grantedAddr = 0 → Span.total (spans (chains t.sizeClasses)) = 0) :
    Granting ok live s size ready ((t.takeFreeFit size fromTop).2.settle size (t.takeFreeFit size fromTop).1).1
      ((t.takeFreeFit size fromTop).2.settle size (t.takeFreeFit size fromTop).1).2 := by
  have hsize : t.slotSize size = s.slotSize size := by rw [slotSize, slotSize, hsame.2.2]
  rcases takeFreeFit_cases ht.placed hl size fromTop with ⟨f, l, e, hc, hne⟩ | ⟨e, hall⟩
  · rw [e, settle, if_neg hne]
    obtain ⟨hb, hsm⟩ := ht.carve hc size
    have hm : Move ok (t.pieces live) (((if f.removed then { t with freeList := l }.freeNode
        else { t with freeList := l }).grant size f.grantedSize).pieces (handOut live f.grantedAddr (s.slotSize size))) := by
      rw [handOut_of_ne hne, ← hsize]
      rw [← hsize] at hok
      cases f.removed with
      | true => exact .carve hok hc
      | false => exact .carve hok hc
    refine ⟨hb, hsame.trans hsm, hst.tail (.inl hm), fun hr => (hmv hr).tail hm, fun hr => ?_, fun h => absurd h hne⟩
    exact ⟨(hlost hr).1, (hlost hr).2.tail (.inl hm)⟩
  · rw [e] at hcache ⊢
    exact ⟨⟨ht.placed.of_same ⟨rfl, rfl, rfl⟩, ht.table, ht.nodes, ht.bytes⟩, hsame, hst, hmv, hlost,
      fun _ => ⟨hsize ▸ hall, hcache rfl⟩⟩

/-- Counting the request changes nothing that the lists are read from. -/
theorem Granting.of_counted {n p : ℕ} {ready : Prop} {t : ProxyAllocator}
    (h : Granting ok live { s with totalAllocationRequests := n } size ready p t) :
    Granting ok live s size ready p t := ⟨h.books, h.same, h.steps, h.moves, h.lost, h.null⟩

theorem takeFreeFit_counted (n : ℕ) (fromTop : Bool) :
    ({ s with totalAllocationRequests := n }.takeFreeFit size fromTop).1 = (s.takeFreeFit size fromTop).1 := by
  unfold takeFreeFit
  simp only
  split <;> rfl

theorem takeFreeFit_bytes (fromTop : Bool) : (s.takeFreeFit size fromTop).2.classCachedBytes = s.classCachedBytes := by
  unfold takeFreeFit
  simp only
  split <;> rfl

/-- `m_totalAllocationRequests++`. -/
def counted (s : ProxyAllocator) : ProxyAllocator :=
  { s with totalAllocationRequests := (s.totalAllocationRequests + 1) % 2 ^ 64 }

theorem popSizeClass_none {n : ℕ} (h : popFrom n s.sizeClasses = none) : s.popSizeClass n = (none, s) := by
  rw [popSizeClass, h]

theorem popSizeClass_some {n : ℕ} {q : Block × List SizeClassList} (h : popFrom n s.sizeClasses = some q) :
    s.popSizeClass n = (some q.1, { s with sizeClasses := q.2 }) := by
  rw [popSizeClass, h]

/-- `Allocate` on an initialised allocator: a hit in the caches, or the search. -/
theorem allocate_eq (hs : s.Placed) (size : ℕ) (fromTop : Bool) :
    s.allocate size fromTop = match popFrom (s.slotSize size) s.sizeClasses with
      | some (b, cs) => (b.address, { s.counted with sizeClasses := cs }.allocateCached size b)
      | none => (s.counted.fitOrReclaim size fromTop).2.settle size (s.counted.fitOrReclaim size fromTop).1 := by
  have hbase : s.arenaBase ≠ 0 := by have := hs.low; omega
  unfold allocate
  cases hq : popFrom (s.slotSize size) s.sizeClasses with
  | none =>
    have hpop : s.counted.popSizeClass (s.slotSize size) = (none, s.counted) := popSizeClass_none hq
    unfold counted slotSize at hpop
    dsimp only
    rw [if_neg hbase, hpop]
    rfl
  | some q =>
    have hpop : s.counted.popSizeClass (s.slotSize size) = (some q.1, { s.counted with sizeClasses := q.2 }) := popSizeClass_some hq
    unfold counted slotSize at hpop
    dsimp only
    rw [if_neg hbase, hpop]
    rfl

/-- `Allocate`, for every state whose books are right. -/
theorem allocate_granting (ok : ℕ → Prop) (hs : s.Books) (hl : s.Laid (s.pieces live)) (fromTop : Bool) (hok : ok (s.slotSize size)) :
    Granting ok live s size (s.drains size fromTop → s.nodeFree ≠ 0) (s.allocate size fromTop).1
      (s.allocate size fromTop).2 := by
  have hs₁ : s.counted.Books := ⟨hs.placed.of_same ⟨rfl, rfl, rfl⟩, hs.table, hs.nodes, hs.bytes⟩
  rw [allocate_eq hs.placed]
  cases hq : popFrom (s.slotSize size) s.sizeClasses with
  | some q =>
    obtain ⟨b, cs⟩ := q
    exact (Granting.cached (s := s.counted) hs₁ hl hq fun hd => absurd hd (by simp [drains, hq])).of_counted
  | none =>
    by_cases hd : (s.counted.takeFreeFit size fromTop).1.grantedAddr = 0 ∧ 0 < (s.counted.takeFreeFit size fromTop).2.classCachedBytes
    · -- the search failed, nothing was taken, and the caches hold bytes
      have hsame : (s.counted.takeFreeFit size fromTop).2 = s.counted := by
        rcases takeFreeFit_cases hs₁.placed hl size fromTop with ⟨f, l, e, -, hne⟩ | ⟨e, -⟩
        · rw [e] at hd; exact absurd hd.1 hne
        · rw [e]
      have hdrain : s.drains size fromTop := by
        have h1 : (s.takeFreeFit size fromTop).1.grantedAddr = 0 := takeFreeFit_counted _ fromTop ▸ hd.1
        have h2 : 0 < s.classCachedBytes := by have := hd.2; rw [hsame] at this; exact this
        simp [drains, hq, h1, h2]
      obtain ⟨hb, hsm, hch, hst, hmv, hlost⟩ := reclaimCache_spec ok hs₁ live
      have hlr := hsm.laid (Layout.steps (fun _ h => h) hs₁.placed.top_lt hl
        (reclaimCache_spec (s.allocGranularity ∣ ·) hs₁ live).2.2.2.1)
      simp only [fitOrReclaim, if_pos hd]
      rw [hsame]
      refine Granting.searched (s := s) hb hlr hsm hok hst (fun hr => hmv (hr hdrain)) (fun hr => ?_) fromTop
        fun _ => by rw [hch]; rfl
      have hz : s.nodeFree = 0 := by
        by_contra hne
        exact hr fun _ => hne
      exact hlost hz (hsame ▸ hd.2)
    · simp only [fitOrReclaim, if_neg hd]
      have hready : s.drains size fromTop → s.nodeFree ≠ 0 := by
        intro hdr
        simp only [drains, Bool.and_eq_true, decide_eq_true_eq] at hdr
        exact absurd ⟨takeFreeFit_counted (s := s) _ fromTop ▸ hdr.1.2, takeFreeFit_bytes (s := s.counted) fromTop ▸ hdr.2⟩ hd
      refine Granting.searched (s := s) hs₁ hl ⟨rfl, rfl, rfl⟩ hok .refl (fun _ => .refl) (fun h => absurd hready h)
        fromTop fun h0 => ?_
      -- the failed search took nothing, so the caches held no byte
      rcases takeFreeFit_cases hs₁.placed hl size fromTop with ⟨f, l, e, -, hne⟩ | ⟨e, -⟩
      · rw [e] at h0; exact absurd h0 hne
      · rw [e] at hd
        have hz : ¬ 0 < s.counted.classCachedBytes := not_and.1 hd rfl
        exact hs₁.bytes.symm.trans (Nat.eq_zero_of_not_pos hz)

/-! ## Free -/

/-- A push either chains the slot in its class, taking a node, or leaves every chain as it was. -/
theorem push_cases (ht : ClassTable kept s.sizeClasses) (addr : ℕ) {n : ℕ} (hn : n < 2 ^ 32) :
    (s.nodeFree ≠ 0 ∧ ∃ cs, s.pushSizeClass addr n =
        (true, { s with sizeClasses := cs, nodeFree := s.nodeFree - 1 }) ∧
      ClassTable kept cs ∧ (chains cs).Perm (⟨addr, n⟩ :: chains s.sizeClasses)) ∨
    (∃ cs, s.pushSizeClass addr n = (false, { s with sizeClasses := cs }) ∧ ClassTable kept cs ∧
      chains cs = chains s.sizeClasses) := by
  unfold pushSizeClass
  cases hf : findClass n s.sizeClasses with
  | none => exact .inr ⟨s.sizeClasses, rfl, ht, rfl⟩
  | some cs =>
    obtain ⟨ht', hc⟩ := findClass_some ht hn hf
    simp only
    cases hp : pushInto addr n cs with
    | none => exact .inr ⟨cs, rfl, ht', hc⟩
    | some cs' =>
      obtain ⟨ht'', hperm⟩ := pushInto_table ht' hp
      by_cases h0 : s.nodeFree = 0
      · exact .inr ⟨cs, by simp [allocNode, h0], ht', hc⟩
      · exact .inl ⟨h0, cs', by simp [allocNode, h0], ht'', hc ▸ hperm⟩

/-- What a call of `Free` on a slot of `live` has done; the slot is lost only without a free node. -/
structure Freeing (ok : ℕ → Prop) (live live' : List Span) (s t : ProxyAllocator) : Prop where
  books : t.Books
  same : SameArena s t
  steps : Steps ok (s.pieces live) (t.pieces live')
  moves : s.nodeFree ≠ 0 → Moves ok (s.pieces live) (t.pieces live')
  lost : s.nodeFree = 0 → Loss (s.pieces live) (t.pieces live')

theorem Books.ne_zero (hs : s.Books) {p : ℕ} (hp : s.isProxyAddress p) : p ≠ 0 := by
  rintro rfl
  have := hs.placed.low
  simp [isProxyAddress] at hp
  omega

theorem free_freeing (ok : ℕ → Prop) (hs : s.Books) {live' : List Span} {p : ℕ} (hp : s.isProxyAddress p)
    (hlive : live.Perm (⟨p, s.slotSize size⟩ :: live')) : Freeing ok live live' s (s.free p size) := by
  have hb : live.Perm ((⟨p, s.slotSize size⟩ : Block).span :: live') := hlive
  have hnodes := hs.nodes
  unfold free
  rw [if_neg (hs.ne_zero hp), hp]
  simp only [Bool.not_true, Bool.false_eq_true, if_false]
  rcases push_cases hs.table p (s.slotSize_lt size) with ⟨h0, cs, e, ht, hperm⟩ | ⟨cs, e, ht, hc⟩
  · rw [show alignUp size s.allocGranularity = s.slotSize size from rfl, e]
    have hm : Move ok (s.pieces live) ⟨live', s.freeList, chains cs⟩ := .park hb hperm
    refine ⟨⟨hs.placed.of_same ⟨rfl, rfl, rfl⟩, ht, ?_, ?_⟩, ⟨rfl, rfl, rfl⟩, .single (.inl hm), fun _ => .single hm,
      fun h => absurd h h0⟩
    · have := hperm.length_eq
      simp only [discount, List.length_cons] at *; omega
    · have := hs.bytes
      have hlt := hs.cached_lt
      have hslot := s.slotSize_lt size
      simp only [discount]
      rw [Span.total_perm (spans_perm hperm), spans_cons, Span.total_cons, Block.span_len]
      simp only
      rw [Nat.mod_eq_of_lt (by omega)]; omega
  · rw [show alignUp size s.allocGranularity = s.slotSize size from rfl, e]
    simp only
    rcases insert_cases { s with sizeClasses := cs } p (s.slotSize size) with ⟨h0, hi⟩ | ⟨h0, m, hi, hm⟩
    -- the result of this insert is not looked at: the slot is gone
    · have hl : Loss (s.pieces live) ⟨live', s.freeList, chains cs⟩ := hc ▸ .freed hb
      rw [hi]
      exact ⟨⟨hs.placed.of_same ⟨rfl, rfl, rfl⟩, ht, hc ▸ hnodes, hc ▸ hs.bytes⟩, ⟨rfl, rfl, rfl⟩, .single (.inr hl),
        fun h => absurd h0 h, fun _ => hl⟩
    · have hmv : Move ok (s.pieces live) ⟨live', insertBlock ⟨p, s.slotSize size⟩ s.freeList, chains cs⟩ :=
        hc ▸ .merge hb
      rw [hi]
      refine ⟨⟨hs.placed.of_same ⟨rfl, rfl, rfl⟩, ht, ?_, hc ▸ hs.bytes⟩, ⟨rfl, rfl, rfl⟩, .single (.inl hmv),
        fun _ => .single hmv, fun h => absurd h h0⟩
      rw [← hc] at hnodes
      simp only [discount] at hm ⊢; omega

/-- An accepted `Free` counts the rounded size. -/
theorem totalFreedBytes_free (hs : s.Books) {p : ℕ} (hp : s.isProxyAddress p) :
    (s.free p size).totalFreedBytes = (s.totalFreedBytes + s.slotSize size) % 2 ^ 64 := by
  unfold free
  rw [if_neg (hs.ne_zero hp), hp]
  simp only [Bool.not_true, Bool.false_eq_true, if_false]
  rcases push_cases hs.table p (s.slotSize_lt size) with ⟨-, cs, e, -, -⟩ | ⟨cs, e, -, -⟩
  · rw [show alignUp size s.allocGranularity = s.slotSize size from rfl, e]
    rfl
  · rw [show alignUp size s.allocGranularity = s.slotSize size from rfl, e]
    simp only
    rcases insert_cases { s with sizeClasses := cs } p (s.slotSize size) with ⟨-, hi⟩ | ⟨-, m, hi, -⟩
    · rw [hi]; rfl
    · rw [hi]; rfl

end

end Ts3Vas.ProxyAllocator
