/-
The statistics of the allocator: in every well-formed run each counter is what the slots, the caches
and the calls say it is, so no guard of a subtraction is ever taken. The totals count modulo `2 ^ 64`
and tell how much was granted and reused until they wrap.
-/
import Ts3Vas.Alloc.Runs

namespace Ts3Vas.ProxyAllocator

/-! ## GetStats -/

/-- `ProxyAllocator::Stats`. -/
structure Stats where
  arenaSize : ℕ
  usedBytes : ℕ
  freeBytes : ℕ
  largestFreeSpan : ℕ
  activeAllocations : ℕ
  totalAllocationRequests : ℕ
  totalAllocationFailures : ℕ
  totalGrantedBytes : ℕ
  totalFreedBytes : ℕ
  totalReusedBytes : ℕ
  classCachedBytes : ℕ
  liveRequestedBytes : ℕ
  bandReqBytes : List ℕ
  bandSlotBytes : List ℕ
  deriving DecidableEq, Repr

/-- `GetStats`: the counters, and one walk of the free list. -/
def getStats (s : ProxyAllocator) : Stats where
  arenaSize := s.arenaSize
  usedBytes := s.usedBytes
  freeBytes := s.freeList.foldl (fun n b => (n + b.size) % 2 ^ 32) 0
  largestFreeSpan := s.freeList.foldl (fun n b => if n < b.size then b.size else n) 0
  activeAllocations := s.activeAllocations
  totalAllocationRequests := s.totalAllocationRequests
  totalAllocationFailures := s.totalAllocationFailures
  totalGrantedBytes := s.totalGrantedBytes
  totalFreedBytes := s.totalFreedBytes
  totalReusedBytes := s.totalReusedBytes
  classCachedBytes := s.classCachedBytes
  liveRequestedBytes := s.liveRequestedBytes
  bandReqBytes := s.bandReqBytes
  bandSlotBytes := s.bandSlotBytes

theorem foldl_freeBytes : ∀ (l : List Block) (n : ℕ), n < 2 ^ 32 →
    l.foldl (fun n b => (n + b.size) % 2 ^ 32) n = (n + Span.total (spans l)) % 2 ^ 32
  | [], n, h => by rw [List.foldl_nil, spans_nil, Span.total_nil, Nat.add_zero, Nat.mod_eq_of_lt h]
  | b :: l, n, _ => by
    rw [List.foldl_cons, foldl_freeBytes l _ (Nat.mod_lt _ (by norm_num)), Nat.mod_add_mod, spans_cons, Span.total_cons,
      Block.span_len, Nat.add_assoc]

theorem foldl_largest (l : List Block) (n : ℕ) :
    n ≤ l.foldl (fun n b => if n < b.size then b.size else n) n ∧
      ∀ b ∈ l, b.size ≤ l.foldl (fun n b => if n < b.size then b.size else n) n := by
  induction l generalizing n with
  | nil => simp
  | cons b l ih =>
    obtain ⟨h1, h2⟩ := ih (if n < b.size then b.size else n)
    have hn : n ≤ (if n < b.size then b.size else n) ∧ b.size ≤ (if n < b.size then b.size else n) := by
      split <;> omega
    rw [List.foldl_cons]
    exact ⟨hn.1.trans h1, List.forall_mem_cons.2 ⟨hn.2.trans h1, h2⟩⟩

/-! ## What the lists leave alone -/

/-- The counters that no list is counted by. -/
structure Tally where
  used : ℕ
  requested : ℕ
  active : ℕ
  requests : ℕ
  failures : ℕ
  granted : ℕ
  freed : ℕ
  reused : ℕ

def tally (s : ProxyAllocator) : Tally where
  used := s.usedBytes
  requested := s.liveRequestedBytes
  active := s.activeAllocations
  requests := s.totalAllocationRequests
  failures := s.totalAllocationFailures
  granted := s.totalGrantedBytes
  freed := s.totalFreedBytes
  reused := s.totalReusedBytes

/-- A request that ends in null. -/
def Tally.refuse (t : Tally) : Tally := { t with requests := (t.requests + 1) % 2 ^ 64, failures := (t.failures + 1) % 2 ^ 64 }

/-- A request of `size` bytes that ends in a slot of `n`, with `r` bytes reused so far. -/
def Tally.serve (t : Tally) (size n r : ℕ) : Tally :=
  { t with
    used := (t.used + n) % 2 ^ 32
    requested := (t.requested + size) % 2 ^ 32
    active := (t.active + 1) % 2 ^ 64
    requests := (t.requests + 1) % 2 ^ 64
    granted := (t.granted + n) % 2 ^ 64
    reused := r }

/-- A slot of `n` bytes, asked for as `size`, that comes back; the clamps written out. -/
def Tally.takeBack (t : Tally) (size n : ℕ) : Tally :=
  { t with
    used := if n ≤ t.used then t.used - n else 0
    requested := if size ≤ t.requested then t.requested - size else 0
    active := t.active - 1
    freed := (t.freed + n) % 2 ^ 64 }

/-- The totals after `n` slots, where none of them has not wrapped. -/
structure Tally.Plain (t : Tally) (n : ℕ) : Prop where
  granted : t.granted = t.used + t.freed
  grantedRoom : t.granted < 2 ^ 64
  reused : t.reused ≤ t.granted
  requests : t.requests = n + t.failures
  requestsRoom : t.requests < 2 ^ 64

theorem tally_insert (s : ProxyAllocator) (addr size : ℕ) : (s.insertFreeSortedAndCoalesce addr size).2.tally = s.tally := by
  rcases insert_cases s addr size with ⟨-, e⟩ | ⟨-, m, e, -⟩
  · rw [e]
  · rw [e]; rfl

theorem tally_foldl_reclaimBlock : ∀ (bs : List Block) (s : ProxyAllocator), (bs.foldl reclaimBlock s).tally = s.tally
  | [], _ => rfl
  | b :: bs, s => (tally_foldl_reclaimBlock bs (s.reclaimBlock b)).trans (tally_insert s b.address b.size)

theorem tally_reclaimCache (s : ProxyAllocator) : s.reclaimCache.tally = s.tally :=
  tally_foldl_reclaimBlock (chains s.sizeClasses) s

section
variable {s : ProxyAllocator} {live : List Span}

/-- A search counts nothing, and a slot it finds has the rounded size. -/
theorem tally_takeFreeFit (hp : s.Placed) (hl : s.Laid (s.pieces live)) (size : ℕ) (fromTop : Bool) :
    (s.takeFreeFit size fromTop).2.tally = s.tally ∧
      ((s.takeFreeFit size fromTop).1.grantedAddr ≠ 0 → (s.takeFreeFit size fromTop).1.grantedSize = s.slotSize size) := by
  rcases takeFreeFit_cases hp hl size fromTop with ⟨f, l, e, hc, -⟩ | ⟨e, -⟩
  · rw [e]; exact ⟨rfl, fun _ => hc.size⟩
  · rw [e]; exact ⟨rfl, fun h => absurd rfl h⟩

theorem tally_fitOrReclaim (hs : s.Books) (hl : s.Laid (s.pieces live)) (size : ℕ) (fromTop : Bool) :
    (s.fitOrReclaim size fromTop).2.tally = s.tally ∧
      ((s.fitOrReclaim size fromTop).1.grantedAddr ≠ 0 → (s.fitOrReclaim size fromTop).1.grantedSize = s.slotSize size) := by
  have hfit := tally_takeFreeFit hs.placed hl size fromTop
  simp only [fitOrReclaim]
  split
  · rename_i hd
    have hsame : (s.takeFreeFit size fromTop).2 = s := by
      rcases takeFreeFit_cases hs.placed hl size fromTop with ⟨f, l, e, -, hne⟩ | ⟨e, -⟩
      · rw [e] at hd; exact absurd hd.1 hne
      · rw [e]
    rw [hsame]
    obtain ⟨hb, hsm, -, hst, -⟩ := reclaimCache_spec (s.allocGranularity ∣ ·) hs live
    have hlr := hsm.laid (Layout.steps (fun _ h => h) hs.placed.top_lt hl hst)
    obtain ⟨ht, hsize⟩ := tally_takeFreeFit hb.placed hlr size fromTop
    refine ⟨ht.trans (tally_reclaimCache s), fun h => ?_⟩
    rw [hsize h, slotSize, slotSize, hsm.2.2]
  · exact hfit

/-- `Allocate` counts the request, and a failure or a slot of the rounded size. -/
theorem tally_allocate (hs : s.Books) (hl : s.Laid (s.pieces live)) (size : ℕ) (fromTop : Bool) :
    ((s.allocate size fromTop).1 = 0 ∧ (s.allocate size fromTop).2.tally = s.tally.refuse) ∨
    ((s.allocate size fromTop).1 ≠ 0 ∧ ∃ r, (r = s.tally.reused ∨ r = (s.tally.reused + s.slotSize size) % 2 ^ 64) ∧
      (s.allocate size fromTop).2.tally = s.tally.serve size (s.slotSize size) r) := by
  have hs₁ : s.counted.Books := ⟨hs.placed.of_same ⟨rfl, rfl, rfl⟩, hs.table, hs.nodes, hs.bytes⟩
  rw [allocate_eq hs.placed]
  cases hq : popFrom (s.slotSize size) s.sizeClasses with
  | some q =>
    obtain ⟨b, cs⟩ := q
    obtain ⟨-, hsz, hp⟩ := popFrom_table hs.table hq
    have hin := (Pieces.forall_all.1 hl.inArena).2.2 b (hp.mem_iff.2 (List.mem_cons_self ..))
    have hlow := hs.placed.low
    have hbase := hin.within.1
    rw [Block.span_lo] at hbase
    refine .inr ⟨by dsimp only; omega, _, .inr rfl, ?_⟩
    rw [← hsz]; rfl
  | none =>
    obtain ⟨ht, hsize⟩ := tally_fitOrReclaim hs₁ hl size fromTop
    revert hsize
    generalize s.counted.fitOrReclaim size fromTop = q at ht
    obtain ⟨f, u⟩ := q
    intro hsize
    dsimp only at ht hsize
    dsimp only [settle]
    by_cases h0 : f.grantedAddr = 0
    · rw [if_pos h0]
      left
      refine ⟨rfl, ?_⟩
      show { u.tally with failures := (u.tally.failures + 1) % 2 ^ 64 } = s.tally.refuse
      rw [ht]; rfl
    · rw [if_neg h0, hsize h0]
      right
      refine ⟨h0, _, .inl rfl, ?_⟩
      have hnode : (if f.removed then u.freeNode else u).tally = s.counted.tally := by
        split
        · exact ht
        · exact ht
      generalize (if f.removed then u.freeNode else u) = v at hnode
      show { v.tally.serve size (s.slotSize size) v.tally.reused with requests := v.tally.requests } =
        s.tally.serve size (s.slotSize size) s.tally.reused
      rw [hnode]; rfl

/-- The slot as `Free` stores it: chained in its class, or merged into the free list. -/
def store (s : ProxyAllocator) (ptr sz : ℕ) : ProxyAllocator :=
  match s.pushSizeClass ptr sz with
  | (true, s) => { s with classCachedBytes := (s.classCachedBytes + sz) % 2 ^ 64 }
  | (false, s) => { (s.insertFreeSortedAndCoalesce ptr sz).2 with hasMainArenaFree := true }

theorem free_eq {ptr : ℕ} (hs : s.Books) (hp : s.isProxyAddress ptr) (size : ℕ) :
    s.free ptr size = (s.store ptr (s.slotSize size)).discount size (s.slotSize size) := by
  unfold free store
  rw [if_neg (hs.ne_zero hp), hp]
  simp only [Bool.not_true, Bool.false_eq_true, if_false, slotSize]
  rcases s.pushSizeClass ptr (alignUp size s.allocGranularity) with ⟨_ | _, t⟩ <;> rfl

theorem tally_store (hs : s.Books) (ptr : ℕ) {sz : ℕ} (hsz : sz < 2 ^ 32) : (s.store ptr sz).tally = s.tally := by
  unfold store
  rcases push_cases hs.table ptr hsz with ⟨-, cs, e, -, -⟩ | ⟨cs, e, -, -⟩
  · rw [e]; rfl
  · rw [e]
    exact tally_insert { s with sizeClasses := cs } ptr sz

theorem tally_free {ptr : ℕ} (hs : s.Books) (hp : s.isProxyAddress ptr) (size : ℕ) :
    (s.free ptr size).tally = s.tally.takeBack size (s.slotSize size) := by
  rw [free_eq hs hp]
  show (s.store ptr (s.slotSize size)).tally.takeBack size (s.slotSize size) = _
  rw [tally_store hs ptr (s.slotSize_lt size)]

/-! ## The guards -/

/-- The guard of `ReclaimCache` lets every subtraction through. -/
def ReclaimExact (s : ProxyAllocator) : Prop :=
  ∀ pre n post, chains s.sizeClasses = pre ++ n :: post →
    n.size ≤ ((pre.foldl reclaimBlock s).insertFreeSortedAndCoalesce n.address n.size).2.classCachedBytes

/-- The guards of `Allocate` let every subtraction through: of a cache hit, or of the reclaim. -/
def AllocateExact (s : ProxyAllocator) (size : ℕ) (fromTop : Bool) : Prop :=
  match s.counted.popSizeClass (alignUp size s.allocGranularity) with
  | (some cached, t) => cached.size ≤ t.freeNode.classCachedBytes
  | (none, t) =>
    (t.takeFreeFit size fromTop).1.grantedAddr = 0 → 0 < (t.takeFreeFit size fromTop).2.classCachedBytes →
      (t.takeFreeFit size fromTop).2.ReclaimExact

/-- The guards of `Free` let every subtraction through. -/
def FreeExact (s : ProxyAllocator) (ptr size : ℕ) : Prop :=
  let t := s.store ptr (s.slotSize size)
  s.slotSize size ≤ t.usedBytes ∧ size ≤ t.liveRequestedBytes ∧ 0 < t.activeAllocations

theorem Books.reclaimExact (hs : s.Books) : s.ReclaimExact := by
  intro pre n post h
  have htotal := hs.bytes
  rw [h, spans_append, spans_cons, Span.total_append, Span.total_cons, Block.span_len] at htotal
  obtain ⟨l, m, r, e, -⟩ := foldl_reclaimBlock (fun _ => True) [] pre s (by omega)
  have hcached : (pre.foldl reclaimBlock s).classCachedBytes = s.classCachedBytes - Span.total (spans pre) := by
    rw [e]; rfl
  rcases insert_cases (pre.foldl reclaimBlock s) n.address n.size with ⟨-, e⟩ | ⟨-, m, e, -⟩
  · rw [e]
    show n.size ≤ (pre.foldl reclaimBlock s).classCachedBytes
    omega
  · rw [e]
    show n.size ≤ (pre.foldl reclaimBlock s).classCachedBytes
    omega

theorem Books.allocateExact (hs : s.Books) (hl : s.Laid (s.pieces live)) (size : ℕ) (fromTop : Bool) :
    s.AllocateExact size fromTop := by
  have hs₁ : s.counted.Books := ⟨hs.placed.of_same ⟨rfl, rfl, rfl⟩, hs.table, hs.nodes, hs.bytes⟩
  unfold AllocateExact popSizeClass
  cases hq : popFrom (alignUp size s.allocGranularity) s.counted.sizeClasses with
  | some q =>
    obtain ⟨b, cs⟩ := q
    obtain ⟨-, -, hp⟩ := popFrom_table hs.table hq
    have hbytes := hs.bytes
    rw [Span.total_perm (spans_perm hp), spans_cons, Span.total_cons, Block.span_len] at hbytes
    show b.size ≤ s.classCachedBytes
    omega
  | none =>
    show (s.counted.takeFreeFit size fromTop).1.grantedAddr = 0 → 0 < (s.counted.takeFreeFit size fromTop).2.classCachedBytes →
      (s.counted.takeFreeFit size fromTop).2.ReclaimExact
    intro h0 _
    rcases takeFreeFit_cases hs₁.placed hl size fromTop with ⟨f, l, e, -, hne⟩ | ⟨e, -⟩
    · rw [e] at h0
      exact absurd h0 hne
    · rw [e]
      exact hs₁.reclaimExact

end

end Ts3Vas.ProxyAllocator

namespace Ts3Vas

open ProxyAllocator

/-! ## The start -/

theorem tally_initNodePool {s t : ProxyAllocator} {mem ok : Bool} (e : s.initNodePool mem = (ok, t)) : t.tally = s.tally := by
  unfold initNodePool at e
  split_ifs at e with hp hm
  · cases e; rfl
  · cases e; rfl
  · cases e; rfl

theorem tally_initFromShared (s : ProxyAllocator) (base size : ℕ) (mem : Bool) :
    (s.initFromShared base size mem).2.tally = s.tally := by
  unfold initFromShared
  split
  · rfl
  · rcases hp : s.initNodePool mem with ⟨_ | _, t⟩
    · exact tally_initNodePool hp
    · have hpool := tally_initNodePool hp
      dsimp only
      have hins := tally_insert { t with arenaBase := base, arenaSize := alignUp size t.allocGranularity, ownsArena := false, freeList := [] }
        base (alignUp size t.allocGranularity)
      split
      · rename_i u e
        rw [e] at hins
        exact hins.trans hpool
      · rename_i u e
        rw [e] at hins
        exact hins.trans hpool

theorem tally_initializeArena (s : ProxyAllocator) (arenaSize reserved : ℕ) (mem : Bool) :
    (s.initializeArena arenaSize reserved mem).2.tally = s.tally := by
  unfold initializeArena
  split
  · rfl
  · rcases hp : s.initNodePool mem with ⟨_ | _, t⟩
    · exact tally_initNodePool hp
    · have hpool := tally_initNodePool hp
      dsimp only
      split
      · exact hpool
      · have hins := tally_insert { t with arenaBase := reserved, arenaSize := alignUp arenaSize t.allocGranularity, freeList := [], ownsArena := true }
          reserved (alignUp arenaSize t.allocGranularity)
        split
        · rename_i u e
          rw [e] at hins
          exact hins.trans hpool
        · rename_i u e
          rw [e] at hins
          exact hins.trans hpool

/-- A new allocator has counted nothing. -/
theorem Fresh.tally {s : ProxyAllocator} (h : Fresh s) : s.tally = ⟨0, 0, 0, 0, 0, 0, 0, 0⟩ := by
  induction h with
  | construct granKb topDownKb => rfl
  | @initializeArena s t arenaSize reserved mem _ e ih =>
    rw [← ih, ← tally_initializeArena s arenaSize reserved mem, e]
  | @initFromShared s t base size mem _ e ih =>
    rw [← ih, ← tally_initFromShared s base size mem, e]

theorem Started.tally {s : ProxyAllocator} (h : Started s) : s.tally = ⟨0, 0, 0, 0, 0, 0, 0, 0⟩ := by
  cases h with
  | @initializeArena s _ arenaSize reserved mem hf _ _ e =>
    rw [← hf.tally, ← tally_initializeArena s arenaSize reserved mem, e]
  | @initFromShared s _ base size mem hf _ e =>
    rw [← hf.tally, ← tally_initFromShared s base size mem, e]

/-! ## Runs -/

namespace Sys

/-- The call returns a slot. -/
def grants (s : Sys) : Op → ℕ
  | .allocate size fromTop => if (s.alloc.allocate size fromTop).1 = 0 then 0 else 1
  | .free _ => 0

/-- How many calls of the run returned a slot. -/
def granted : Sys → List Op → ℕ
  | _, [] => 0
  | s, op :: ops => s.grants op + granted (s.step op) ops

/-- No guard of the call clamps anything. -/
def Unclamped (s : Sys) : Op → Prop
  | .allocate size fromTop => s.alloc.AllocateExact size fromTop
  | .free slot => s.alloc.FreeExact slot.addr slot.size

/-- Neither the requests nor the bytes granted reach `2 ^ 64` with the call. -/
def Roomy (s : Sys) : Op → Prop
  | .allocate size _ => s.alloc.totalAllocationRequests + 1 < 2 ^ 64 ∧
      s.alloc.totalGrantedBytes + s.alloc.slotSize size < 2 ^ 64
  | .free _ => True

instance (s : Sys) : (op : Op) → Decidable (s.Roomy op)
  | .allocate .. => inferInstanceAs (Decidable (_ ∧ _))
  | .free _ => inferInstanceAs (Decidable True)

/-- What the counters of a state are, after `n` calls that returned a slot; the totals modulo `2 ^ 64`. -/
structure Counted (s : Sys) (n : ℕ) : Prop where
  used : s.alloc.usedBytes = (s.live.map fun slot => alignUp slot.size s.alloc.allocGranularity).sum
  freed : s.alloc.usedBytes = (s.alloc.totalGrantedBytes + 2 ^ 64 - s.alloc.totalFreedBytes) % 2 ^ 64
  requested : s.alloc.liveRequestedBytes = (s.live.map (·.size)).sum
  active : s.alloc.activeAllocations = s.live.length
  cached : s.alloc.classCachedBytes = ((s.alloc.sizeClasses.flatMap (·.blocks)).map (·.size)).sum
  requests : s.alloc.totalAllocationRequests = (n + s.alloc.totalAllocationFailures) % 2 ^ 64

/-- The same where the totals are the numbers themselves. -/
structure Exact (s : Sys) (n : ℕ) : Prop extends Counted s n where
  granted : s.alloc.totalFreedBytes ≤ s.alloc.totalGrantedBytes ∧
    s.alloc.usedBytes = s.alloc.totalGrantedBytes - s.alloc.totalFreedBytes
  reused : s.alloc.totalReusedBytes ≤ s.alloc.totalGrantedBytes
  failures : s.alloc.totalAllocationRequests = n + s.alloc.totalAllocationFailures

/-- The invariant of the counters, over the tally. -/
structure Tallied (s : Sys) (n : ℕ) : Prop extends Proper s where
  noWrap : ∀ slot ∈ s.live, NoWrap s.alloc.allocGranularity slot.size
  used : s.alloc.tally.used = Span.total s.spans
  granted : s.alloc.tally.granted = (s.alloc.tally.used + s.alloc.tally.freed) % 2 ^ 64
  freed : s.alloc.tally.freed < 2 ^ 64
  requested : s.alloc.tally.requested = (s.live.map (·.size)).sum
  active : s.alloc.tally.active = s.live.length
  requests : s.alloc.tally.requests = (n + s.alloc.tally.failures) % 2 ^ 64

section
variable {s : Sys} {n : ℕ}

theorem Sound.total_le (hs : s.Sound) : Span.total s.spans ≤ s.alloc.arenaSize := by
  have hin : ∀ t ∈ s.spans, t.Within s.alloc.arenaBase (s.alloc.arenaBase + s.alloc.arenaSize) :=
    fun t ht => hs.laid.within t (List.mem_append_left _ ht)
  have hle := Span.total_le_of_apart hin hs.pairwise
  omega

/-- What was asked for fits in what was handed out. -/
theorem sum_le_total {g : ℕ} (hg : Granularity g) : ∀ {live : List Slot}, (∀ slot ∈ live, NoWrap g slot.size) →
    (live.map (·.size)).sum ≤ Span.total (live.map (Slot.span g))
  | [], _ => le_rfl
  | slot :: live, h => by
    obtain ⟨h1, h2⟩ := List.forall_mem_cons.1 h
    have hle := (alignUp_bounds hg h1).1
    have ih := sum_le_total hg h2
    simp only [List.map_cons, List.sum_cons, Span.total_cons, Slot.span] at ih ⊢
    omega

/-- No more slots than bytes. -/
theorem Proper.length_le (hs : s.Proper) : s.live.length ≤ Span.total s.spans := by
  have hpos : ∀ t ∈ s.spans, 0 < t.len := (List.forall_mem_append.1 hs.sorted.pos).1
  rw [show s.live.length = s.spans.length from (List.length_map _).symm]
  generalize s.spans = l at hpos
  induction l with
  | nil => exact le_rfl
  | cons t l ih =>
    obtain ⟨h1, h2⟩ := List.forall_mem_cons.1 hpos
    have := ih h2
    rw [List.length_cons, Span.total_cons]; omega

theorem Tallied.allocate (hs : s.Tallied n) {size : ℕ} {fromTop : Bool} (hop : s.WellFormed (.allocate size fromTop)) :
    (s.step (.allocate size fromTop)).Tallied (n + s.grants (.allocate size fromTop)) := by
  have hproper := hs.toProper.step hop
  have hgran : (s.step (.allocate size fromTop)).alloc.allocGranularity = s.alloc.allocGranularity :=
    (hs.step_same (hop.owned hs.toSound)).2.2.2
  rcases tally_allocate hs.books hs.laid size fromTop with ⟨hp, ht⟩ | ⟨hp, r, -, ht⟩
  · have hst : s.step (.allocate size fromTop) = ⟨(s.alloc.allocate size fromTop).2, s.live⟩ := by
      rw [Sys.step_allocate, if_pos hp]
    rw [hst] at hproper hgran ⊢
    refine ⟨hproper, ?_, ?_, ?_, ?_, ?_, ?_, ?_⟩
    · rw [hgran]; exact hs.noWrap
    · rw [Sys.spans, hgran, ht]; exact hs.used
    · rw [ht]; exact hs.granted
    · rw [ht]; exact hs.freed
    · rw [ht]; exact hs.requested
    · rw [ht]; exact hs.active
    · rw [ht]
      have := hs.requests
      simp only [grants, hp, if_true, Tally.refuse]; omega
  · have hst : s.step (.allocate size fromTop) =
        ⟨(s.alloc.allocate size fromTop).2, s.live ++ [⟨(s.alloc.allocate size fromTop).1, size⟩]⟩ := by
      rw [Sys.step_allocate, if_neg hp]
    have hnw : ∀ slot ∈ s.live ++ [⟨(s.alloc.allocate size fromTop).1, size⟩], NoWrap s.alloc.allocGranularity slot.size :=
      List.forall_mem_append.2 ⟨hs.noWrap, List.forall_mem_singleton.2 hop.2⟩
    have htotal := hproper.total_le
    have hlen := hproper.length_le
    have hsum := sum_le_total hs.books.placed.gran hnw
    have htop := hproper.books.placed.top_lt
    rw [hst] at hproper hgran htotal htop hlen ⊢
    rw [Sys.spans, hgran, List.map_append, List.map_singleton, Span.total_append, Span.total_cons, Span.total_nil] at htotal hlen
    rw [List.map_append, List.map_append, List.map_singleton, List.map_singleton, Span.total_append, Span.total_cons,
      Span.total_nil, List.sum_append, List.sum_singleton] at hsum
    have hused := hs.used
    have hreq := hs.requested
    have hact := hs.active
    have hslot : s.alloc.slotSize size = alignUp size s.alloc.allocGranularity := rfl
    simp only [Slot.span, Sys.spans, List.length_append, List.length_singleton] at htotal hsum hused hlen
    dsimp only at htop
    refine ⟨hproper, ?_, ?_, ?_, ?_, ?_, ?_, ?_⟩
    · rw [hgran]; exact hnw
    · rw [Sys.spans, hgran, ht, List.map_append, List.map_singleton, Span.total_append, Span.total_cons, Span.total_nil]
      simp only [Tally.serve, Slot.span]
      rw [Nat.mod_eq_of_lt (by omega)]; omega
    · rw [ht]
      have := hs.granted
      simp only [Tally.serve]
      rw [Nat.mod_eq_of_lt (b := 2 ^ 32) (by omega)]; omega
    · rw [ht]; exact hs.freed
    · rw [ht, List.map_append, List.map_singleton, List.sum_append, List.sum_singleton]
      simp only [Tally.serve]
      rw [Nat.mod_eq_of_lt (by omega)]; omega
    · rw [ht, List.length_append, List.length_singleton]
      simp only [Tally.serve]
      rw [Nat.mod_eq_of_lt (by omega)]; omega
    · rw [ht]
      have := hs.requests
      simp only [grants, hp, if_false, Tally.serve]; omega

theorem Tallied.isProxyAddress (hs : s.Tallied n) {slot : Slot} (h : slot ∈ s.live) : s.alloc.isProxyAddress slot.addr :=
  hs.toSound.isProxyAddress h ((Pieces.forall_all.1 hs.sorted.pos).1 _ (List.mem_map_of_mem h))

/-- What a live slot counts for, the slots but it counting for the rest. -/
theorem Tallied.erase (hs : s.Tallied n) {slot : Slot} (h : slot ∈ s.live) :
    s.alloc.tally.used = s.alloc.slotSize slot.size +
        Span.total ((s.live.erase slot).map (Slot.span s.alloc.allocGranularity)) ∧
      s.alloc.tally.requested = slot.size + ((s.live.erase slot).map (·.size)).sum ∧
      s.alloc.tally.active = (s.live.erase slot).length + 1 := by
  have hperm := List.perm_cons_erase h
  refine ⟨?_, ?_, ?_⟩
  · rw [hs.used, Span.total_perm (spans_erase h), Span.total_cons]; rfl
  · rw [hs.requested, (hperm.map _).sum_eq, List.map_cons, List.sum_cons]
  · rw [hs.active, hperm.length_eq, List.length_cons]

theorem Tallied.free (hs : s.Tallied n) {slot : Slot} (hop : s.WellFormed (.free slot)) :
    (s.step (.free slot)).Tallied n := by
  have hproper := hs.toProper.step hop
  have hgran : (s.step (.free slot)).alloc.allocGranularity = s.alloc.allocGranularity := (hs.step_same (hop.owned hs.toSound)).2.2.2
  have ht := tally_free hs.books (hs.isProxyAddress hop) slot.size
  obtain ⟨hused, hreq, hact⟩ := hs.erase hop
  rw [Sys.step_free] at hproper hgran ⊢
  refine ⟨hproper, ?_, ?_, ?_, ?_, ?_, ?_, ?_⟩
  · rw [hgran]
    exact fun t h => hs.noWrap t (List.mem_of_mem_erase h)
  · rw [Sys.spans, hgran, ht]
    simp only [Tally.takeBack]
    rw [if_pos (by omega)]; omega
  · rw [ht]
    have := hs.granted
    simp only [Tally.takeBack]
    rw [if_pos (by omega)]; omega
  · rw [ht]
    exact Nat.mod_lt _ (by norm_num)
  · rw [ht]
    simp only [Tally.takeBack]
    rw [if_pos (by omega)]; omega
  · rw [ht]
    simp only [Tally.takeBack]; omega
  · rw [ht]; exact hs.requests

theorem Tallied.step (hs : s.Tallied n) {op : Op} (hop : s.WellFormed op) : (s.step op).Tallied (n + s.grants op) := by
  cases op with
  | allocate size fromTop => exact hs.allocate hop
  | free slot => exact hs.free hop

/-- The run lemma: the grants of the run are counted along it. -/
theorem Tallied.run : ∀ {ops : List Op} {s : Sys} {n : ℕ}, s.Tallied n → Run.Guarded Sys.step WellFormed s ops →
    (Run.after Sys.step s ops).Tallied (n + s.granted ops)
  | [], _, _, hs, _ => hs
  | op :: ops, s, n, hs, hops => by
    have hn : n + s.granted (op :: ops) = n + s.grants op + (s.step op).granted ops := (Nat.add_assoc ..).symm
    rw [Run.after_cons, hn]
    exact Tallied.run (hs.step hops.1) hops.2

theorem Tallied.counted (hs : s.Tallied n) : s.Counted n := by
  have hgranted : s.alloc.totalGrantedBytes = (s.alloc.usedBytes + s.alloc.totalFreedBytes) % 2 ^ 64 := hs.granted
  have hfreed : s.alloc.totalFreedBytes < 2 ^ 64 := hs.freed
  have hused : s.alloc.usedBytes = Span.total s.spans := hs.used
  have htotal := hs.total_le
  have htop := hs.books.placed.top_lt
  refine ⟨?_, by omega, hs.requested, hs.active, ?_, hs.requests⟩
  · rw [hused, Span.total, Sys.spans, List.map_map]; rfl
  · rw [hs.books.bytes, Span.total, Ts3Vas.spans, List.map_map]; rfl

/-- While there is room the totals grow by what they are given. -/
theorem Tallied.plain (hs : s.Tallied n) (hp : s.alloc.tally.Plain n) {op : Op} (hop : s.WellFormed op) (hroom : s.Roomy op) :
    (s.step op).alloc.tally.Plain (n + s.grants op) := by
  obtain ⟨hgranted, hlt, hreused, hrequests, hlt'⟩ := hp
  have hnext := (hs.step hop).used
  cases op with
  | allocate size fromTop =>
    obtain ⟨hr, hg⟩ : s.alloc.tally.requests + 1 < 2 ^ 64 ∧ s.alloc.tally.granted + s.alloc.slotSize size < 2 ^ 64 := hroom
    rcases tally_allocate hs.books hs.laid size fromTop with ⟨h0, ht⟩ | ⟨h0, r, hr', ht⟩
    · have halloc : (s.step (.allocate size fromTop)).alloc.tally = s.alloc.tally.refuse := ht
      rw [halloc, grants, if_pos h0]
      refine ⟨hgranted, hlt, hreused, ?_, Nat.mod_lt _ (by norm_num)⟩
      simp only [Tally.refuse]; omega
    · have halloc : (s.step (.allocate size fromTop)).alloc.tally = s.alloc.tally.serve size (s.alloc.slotSize size) r := ht
      have hfit : s.alloc.tally.used + s.alloc.slotSize size < 2 ^ 32 := by
        have hle := (hs.step hop).total_le
        have htop := (hs.step hop).books.placed.top_lt
        have hgran := (hs.step_same (hop.owned hs.toSound)).2.2.2
        rw [Sys.spans, hgran, Sys.step_allocate, if_neg h0, List.map_append, List.map_singleton, Span.total_append,
          Span.total_cons, Span.total_nil, ← Sys.spans, ← hs.used] at hle
        have hslot : s.alloc.slotSize size = alignUp size s.alloc.allocGranularity := rfl
        simp only [Slot.span] at hle
        rw [Sys.step_allocate, if_neg h0] at htop
        dsimp only at hle htop
        omega
      rw [halloc, grants, if_neg h0]
      refine ⟨?_, Nat.mod_lt _ (by norm_num), ?_, ?_, Nat.mod_lt _ (by norm_num)⟩
      all_goals simp only [Tally.serve]; omega
  | free slot =>
    have hfree : (s.step (.free slot)).alloc.tally = s.alloc.tally.takeBack slot.size (s.alloc.slotSize slot.size) :=
      tally_free hs.books (hs.isProxyAddress hop) slot.size
    obtain ⟨hused, -, -⟩ := hs.erase hop
    rw [hfree]
    refine ⟨?_, hlt, hreused, hrequests, hlt'⟩
    simp only [Tally.takeBack]
    rw [if_pos (by omega)]; omega

theorem Tallied.plain_run : ∀ {ops : List Op} {s : Sys} {n : ℕ}, s.Tallied n → s.alloc.tally.Plain n →
    Run.Guarded Sys.step WellFormed s ops → Run.Guarded Sys.step Roomy s ops →
    (Run.after Sys.step s ops).alloc.tally.Plain (n + s.granted ops)
  | [], _, _, _, hp, _, _ => hp
  | op :: ops, s, n, hs, hp, hops, hroom => by
    have hn : n + s.granted (op :: ops) = n + s.grants op + (s.step op).granted ops := (Nat.add_assoc ..).symm
    rw [Run.after_cons, hn]
    exact Tallied.plain_run (hs.step hops.1) (hs.plain hp hops.1 hroom.1) hops.2 hroom.2

theorem Tallied.unclamped (hs : s.Tallied n) {op : Op} (hop : s.WellFormed op) : s.Unclamped op := by
  cases op with
  | allocate size fromTop => exact hs.books.allocateExact hs.laid size fromTop
  | free slot =>
    obtain ⟨hused, hreq, hact⟩ := hs.erase hop
    have ht := tally_store hs.books slot.addr (s.alloc.slotSize_lt slot.size)
    rw [← ht] at hused hreq hact
    simp only [ProxyAllocator.tally] at hused hreq hact
    simp only [Unclamped, FreeExact]
    omega

end

/-- The bytes `GetStats` reports: the slots, the free list and the caches share the arena, and no
free block is larger than the reported one. -/
theorem Tallied.getStats {s : Sys} {n : ℕ} (hs : s.Tallied n) :
    s.alloc.getStats.freeBytes = Span.total (Ts3Vas.spans s.alloc.freeList) ∧
      s.alloc.getStats.usedBytes + s.alloc.getStats.freeBytes + s.alloc.getStats.classCachedBytes ≤
        s.alloc.getStats.arenaSize ∧
      ∀ b ∈ s.alloc.freeList, b.size ≤ s.alloc.getStats.largestFreeSpan := by
  have htop := hs.books.placed.top_lt
  have hle := Span.total_le_of_apart hs.laid.within (Span.pairwise_apart hs.laid.once)
  rw [Pieces.total_all] at hle
  have hused : s.alloc.usedBytes = Span.total s.spans := hs.used
  have hbytes := hs.books.bytes
  simp only [Sys.pieces, ProxyAllocator.pieces] at hle
  have hfree : s.alloc.getStats.freeBytes = Span.total (Ts3Vas.spans s.alloc.freeList) := by
    show s.alloc.freeList.foldl _ 0 = _
    rw [foldl_freeBytes _ 0 (by norm_num), Nat.zero_add, Nat.mod_eq_of_lt (by omega)]
  refine ⟨hfree, ?_, (foldl_largest s.alloc.freeList 0).2⟩
  rw [hfree]
  show s.alloc.usedBytes + _ + s.alloc.classCachedBytes ≤ s.alloc.arenaSize
  omega

theorem start_tallied {a : ProxyAllocator} (h : Started a) : Tallied ⟨a, []⟩ 0 := by
  have ht := h.tally
  refine ⟨start_proper h.whole.idle, fun _ h => absurd h List.not_mem_nil, ?_, ?_, ?_, ?_, ?_, ?_⟩
  all_goals simp [ht, Sys.spans]

theorem start_plain {a : ProxyAllocator} (h : Started a) : a.tally.Plain 0 := by
  have ht := h.tally
  constructor
  all_goals simp [ht]

/-- In every well-formed run from a successful Initialize or InitFromShared the counters are exact, the
totals modulo `2 ^ 64`, and no guard of the next call's subtractions clamps. While the totals have room
they are the numbers themselves. -/
theorem stats_after {a : ProxyAllocator} (h : Started a) {ops : List Op} (hops : Run WellFormed a ops) :
    (after a ops).Counted (granted ⟨a, []⟩ ops) ∧ (∀ op, (after a ops).WellFormed op → (after a ops).Unclamped op) ∧
      (Run Roomy a ops → (after a ops).Exact (granted ⟨a, []⟩ ops)) := by
  have hs := (start_tallied h).run hops
  rw [Nat.zero_add] at hs
  refine ⟨hs.counted, fun op hop => hs.unclamped hop, fun hroom => ?_⟩
  have hp := (start_tallied h).plain_run (start_plain h) hops hroom
  rw [Nat.zero_add] at hp
  have hgranted : (after a ops).alloc.totalGrantedBytes = (after a ops).alloc.usedBytes + (after a ops).alloc.totalFreedBytes :=
    hp.granted
  exact { hs.counted with
    granted := by omega
    reused := hp.reused
    failures := hp.requests }

/-- A slot, its reuse from the cache, and a request that is refused. -/
def reuseRun : List Op :=
  [.allocate 5000 false, .free ⟨0x10000000, 5000⟩, .allocate 8192 false, .allocate 65536 false]

theorem stats_arena64K : (after arena64K reuseRun).Exact 2 ∧ (after arena64K reuseRun).Unclamped (.free ⟨0x10000000, 8192⟩) := by
  have hn : granted ⟨arena64K, []⟩ reuseRun = 2 := by decide +kernel
  have h := stats_after arena64K_started (show Run WellFormed arena64K reuseRun by decide +kernel)
  rw [hn] at h
  exact ⟨h.2.2 (by decide +kernel), h.2.1 _ (by decide +kernel)⟩

/-! ## A total that has wrapped -/

/-- The whole arena granted and given back. -/
def lap : List Op := [.allocate 0x40000000 true, .free ⟨0x40000000, 0x40000000⟩]

/-- The arena with its one slot cached. -/
def lapped (requests granted freed reused : ℕ) (req slot : List ℕ) : ProxyAllocator :=
  { construct none none with
    arenaBase := 0x40000000
    arenaSize := 0x40000000
    nodePoolMem := true
    nodeFree := 87380
    sizeClasses := [⟨0x40000000, [⟨0x40000000, 0x40000000⟩], 1, 0⟩]
    classCachedBytes := 0x40000000
    totalAllocationRequests := requests
    totalGrantedBytes := granted
    totalFreedBytes := freed
    totalReusedBytes := reused
    bandReqBytes := req
    bandSlotBytes := slot }

/-- After `k` laps. -/
structure Lapped (k : ℕ) (s : Sys) : Prop where
  live : s.live = []
  alloc : ∃ requests freed req slot, s.alloc = lapped requests (k * 2 ^ 30 % 2 ^ 64) freed ((k - 1) * 2 ^ 30 % 2 ^ 64) req slot

theorem lapped_first : Lapped 1 (after arena1G lap) := by
  refine ⟨by decide +kernel, 1, 0x40000000, ?_⟩
  refine ⟨[0, 0, 0, 0, 0, 0, 0, 0x40000000], [0, 0, 0, 0, 0, 0, 0, 0x40000000], ?_⟩
  decide +kernel

/-- A later lap takes the slot out of its cache and puts it back. -/
theorem lapped_allocate (requests granted freed reused : ℕ) (req slot : List ℕ) :
    ((lapped requests granted freed reused req slot).allocate 0x40000000 true).1 = 0x40000000 := by
  simp [lapped, construct, allocate, popSizeClass, popFrom, alignUp]

theorem after_lap (requests granted freed reused : ℕ) (req slot : List ℕ) :
    Run.after Sys.step ⟨lapped requests granted freed reused req slot, []⟩ lap =
      ⟨lapped ((requests + 1) % 2 ^ 64) ((granted + 0x40000000) % 2 ^ 64) ((freed + 0x40000000) % 2 ^ 64)
        ((reused + 0x40000000) % 2 ^ 64) (req.modify 7 fun n => (n + 0x40000000) % 2 ^ 64)
        (slot.modify 7 fun n => (n + 0x40000000) % 2 ^ 64), []⟩ := by
  rw [lap, Run.after_cons, Run.after_cons, Run.after_nil]
  simp [Sys.step, lapped, construct, allocate, popSizeClass, popFrom, alignUp, allocateCached, uncache, freeNode, grant,
    proxyArenaBand, free, isProxyAddress, ptrAdd, pushSizeClass, findClass, pushInto, kMaxCachedPerClass, allocNode, discount]

theorem Lapped.lap {k : ℕ} {s : Sys} (h : Lapped (k + 1) s) :
    Run.Guarded Sys.step WellFormed s lap ∧ Lapped (k + 2) (Run.after Sys.step s lap) := by
  obtain ⟨hlive, requests, freed, req, slot, halloc⟩ := h
  obtain ⟨a, live⟩ := s
  subst hlive halloc
  have hnw : NoWrap 4096 0x40000000 := by decide
  have hlap := after_lap requests ((k + 1) * 2 ^ 30 % 2 ^ 64) freed ((k + 1 - 1) * 2 ^ 30 % 2 ^ 64) req slot
  rw [show ((k + 1) * 2 ^ 30 % 2 ^ 64 + 0x40000000) % 2 ^ 64 = (k + 2) * 2 ^ 30 % 2 ^ 64 by omega,
    show ((k + 1 - 1) * 2 ^ 30 % 2 ^ 64 + 0x40000000) % 2 ^ 64 = (k + 2 - 1) * 2 ^ 30 % 2 ^ 64 by omega] at hlap
  refine ⟨⟨⟨by norm_num, hnw⟩, ?_, trivial⟩, congrArg Sys.live hlap, _, _, _, _, congrArg Sys.alloc hlap⟩
  rw [Sys.step_allocate, lapped_allocate]
  exact List.mem_singleton_self _

theorem lapped_after (k : ℕ) : Run WellFormed arena1G (List.replicate (k + 1) lap).flatten ∧
    Lapped (k + 1) (after arena1G (List.replicate (k + 1) lap).flatten) := by
  induction k with
  | zero => exact ⟨by decide +kernel, lapped_first⟩
  | succ k ih =>
    obtain ⟨hops, hs⟩ := ih
    obtain ⟨hlap, hnext⟩ := hs.lap
    rw [List.replicate_succ', List.flatten_append, List.flatten_singleton, after, Run.after_append]
    exact ⟨hops.append hlap, hnext⟩

/-- After `2 ^ 34` laps as many bytes have been granted as a `ULONGLONG` has values. -/
theorem not_exact_lapped : Started arena1G ∧ Run WellFormed arena1G (List.replicate (2 ^ 34) lap).flatten ∧
    (after arena1G (List.replicate (2 ^ 34) lap).flatten).alloc.totalGrantedBytes = 0 ∧
    (after arena1G (List.replicate (2 ^ 34) lap).flatten).alloc.totalReusedBytes = 2 ^ 64 - 2 ^ 30 ∧
    ¬ (after arena1G (List.replicate (2 ^ 34) lap).flatten).Exact (granted ⟨arena1G, []⟩ (List.replicate (2 ^ 34) lap).flatten) := by
  have hlaps : ∀ n, n = 2 ^ 34 → Run WellFormed arena1G (List.replicate n lap).flatten ∧
      (after arena1G (List.replicate n lap).flatten).alloc.totalGrantedBytes = 0 ∧
      (after arena1G (List.replicate n lap).flatten).alloc.totalReusedBytes = 2 ^ 64 - 2 ^ 30 := by
    intro n hn
    obtain ⟨k, rfl⟩ : ∃ k, n = k + 1 := ⟨n - 1, by omega⟩
    obtain ⟨hops, -, requests, freed, req, slot, halloc⟩ := lapped_after k
    refine ⟨hops, (congrArg ProxyAllocator.totalGrantedBytes halloc).trans ?_,
      (congrArg ProxyAllocator.totalReusedBytes halloc).trans ?_⟩
    · simp only [lapped]; omega
    · simp only [lapped]; omega
  obtain ⟨hops, hgranted, hreused⟩ := hlaps (2 ^ 34) rfl
  refine ⟨arena1G_started, hops, hgranted, hreused, fun h => ?_⟩
  have hle := h.reused
  rw [hgranted, hreused] at hle
  omega

end Sys

end Ts3Vas
