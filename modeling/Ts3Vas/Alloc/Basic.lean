/-
The arena allocator of ProxyAllocator.cpp: one address-sorted free list, per-size reuse caches and
a fixed pool of list nodes, each operation as one step under the allocator's lock.
Pointers and `SIZE_T` are naturals below `2 ^ 32` (the DLL is x86 only) and the statistics naturals
below `2 ^ 64`, with the wraps written out. Trace marks and the TLS depth are left out.
-/
import Mathlib.Tactic
import Ts3Vas.Lib.Span

namespace Ts3Vas

/-- `ProxyAllocator::AlignUp`: `(v + (a - 1)) & ~(a - 1)` in 32 bits. -/
def alignUp (v a : ℕ) : ℕ := (v + (a - 1)) % 2 ^ 32 &&& (2 ^ 32 - a)

/-- Pointer plus byte count, in 32 bits. -/
def ptrAdd (p n : ℕ) : ℕ := (p + n) % 2 ^ 32

/-- A free block: `Block` without its link, the lists being Lean lists. -/
structure Block where
  address : ℕ
  size : ℕ
  deriving DecidableEq, Repr

/-- The cache of one exact slot size: `blocks` is the chain from `head`, as far as its nodes lie in
the pool. -/
structure SizeClassList where
  classSize : ℕ
  blocks : List Block
  count : ℤ
  /-- How many nodes at the end of the chain lie in a pool that was released. What is read there is
  not known: the access faults, or it finds what a later pool keeps at that place. -/
  lost : ℕ
  deriving DecidableEq, Repr

structure ProxyAllocator where
  arenaBase : ℕ
  arenaSize : ℕ
  allocGranularity : ℕ
  topDownBytes : ℕ
  ownsArena : Bool
  nodePoolMem : Bool
  /-- The length of `m_nodeFreeList`. -/
  nodeFree : ℕ
  freeList : List Block
  usedBytes : ℕ
  liveRequestedBytes : ℕ
  activeAllocations : ℕ
  totalAllocationRequests : ℕ
  totalAllocationFailures : ℕ
  totalGrantedBytes : ℕ
  totalFreedBytes : ℕ
  totalReusedBytes : ℕ
  hasMainArenaFree : Bool
  /-- The first `m_sizeClassCount` entries of `m_sizeClasses`. -/
  sizeClasses : List SizeClassList
  classCachedBytes : ℕ
  bandReqBytes : List ℕ
  bandSlotBytes : List ℕ
  deriving DecidableEq, Repr

/-- A class when the pool goes: its head still points to the chain. -/
def SizeClassList.release (c : SizeClassList) : SizeClassList :=
  { c with blocks := [], lost := c.lost + c.blocks.length }

def kNodePoolBytes : ℕ := 1024 * 1024
/-- `sizeof(Block)`: two pointers and a `SIZE_T`. -/
def blockBytes : ℕ := 12
def kMaxSizeClasses : ℕ := 256
def kMaxCachedPerClass : ℤ := 16

namespace ProxyAllocator

/-! ## Construction -/

/-- The constructor. The arguments are `atoi` of TS3VAS_PROXY_ARENA_GRAN_KB and of
TS3VAS_PROXY_TOPDOWN_KB where those are set and short enough. -/
def construct (granKb topDownKb : Option ℤ) : ProxyAllocator where
  arenaBase := 0
  arenaSize := 0
  allocGranularity := match granKb with
    | some k => if k = 4 ∨ k = 8 ∨ k = 16 ∨ k = 32 ∨ k = 64 then k.toNat * 1024 else 4 * 1024
    | none => 4 * 1024
  topDownBytes := match topDownKb with
    | some kb => if 0 < kb then kb.toNat * 1024 % 2 ^ 32 else 256 * 1024
    | none => 256 * 1024
  ownsArena := false
  nodePoolMem := false
  nodeFree := 0
  freeList := []
  usedBytes := 0
  liveRequestedBytes := 0
  activeAllocations := 0
  totalAllocationRequests := 0
  totalAllocationFailures := 0
  totalGrantedBytes := 0
  totalFreedBytes := 0
  totalReusedBytes := 0
  hasMainArenaFree := false
  sizeClasses := []
  classCachedBytes := 0
  bandReqBytes := List.replicate 8 0
  bandSlotBytes := List.replicate 8 0

/-- `prefersTopDown`: big requests carve from the high end. -/
def prefersTopDown (s : ProxyAllocator) (size : ℕ) : Bool := s.topDownBytes ≤ size

/-! ## The node pool -/

/-- `InitNodePool`; `mem` says whether `VirtualAlloc` gave the pool its memory. -/
def initNodePool (s : ProxyAllocator) (mem : Bool) : Bool × ProxyAllocator :=
  if s.nodePoolMem then (true, s)
  else if mem then (true, { s with nodePoolMem := true, nodeFree := kNodePoolBytes / blockBytes })
  else (false, s)

/-- `AllocNode`: whether the pool had a node, and the pool without it. -/
def allocNode (s : ProxyAllocator) : Bool × ProxyAllocator :=
  if s.nodeFree = 0 then (false, s) else (true, { s with nodeFree := s.nodeFree - 1 })

def freeNode (s : ProxyAllocator) : ProxyAllocator := { s with nodeFree := s.nodeFree + 1 }

/-! ## The free list -/

/-- The walk `while (cur->next && cur->next->address < addr)` from `cur` and the link after it. -/
def linkAfter (node cur : Block) : List Block → List Block
  | [] => [cur, node]
  | next :: rest =>
    if next.address < node.address then cur :: linkAfter node next rest else cur :: node :: next :: rest

def linkSorted (node : Block) : List Block → List Block
  | [] => [node]
  | head :: rest => if node.address < head.address then node :: head :: rest else linkAfter node head rest

/-- The coalescing loop from `cur`: the list, and how many nodes it gave back. -/
def coalesceFrom (cur : Block) : List Block → List Block × ℕ
  | [] => ([cur], 0)
  | next :: rest =>
    if ptrAdd cur.address cur.size = next.address then
      let (l, n) := coalesceFrom { cur with size := (cur.size + next.size) % 2 ^ 32 } rest
      (l, n + 1)
    else
      let (l, n) := coalesceFrom next rest
      (cur :: l, n)

def coalesce : List Block → List Block × ℕ
  | [] => ([], 0)
  | head :: rest => coalesceFrom head rest

def insertFreeSortedAndCoalesce (s : ProxyAllocator) (addr size : ℕ) : Bool × ProxyAllocator :=
  match s.allocNode with
  | (false, s) => (false, s)
  | (true, s) =>
    let (l, n) := coalesce (linkSorted ⟨addr, size⟩ s.freeList)
    (true, { s with freeList := l, nodeFree := s.nodeFree + n })

/-- What `TakeFreeFit` hands out; `removed` when a whole node left the list for the caller to free. -/
structure Fit where
  grantedAddr : ℕ
  grantedSize : ℕ
  removed : Bool
  deriving DecidableEq, Repr

/-- Bottom-up: the lowest block that fits, carved from its start. -/
def firstFit (need gran : ℕ) : List Block → Option (Fit × List Block)
  | [] => none
  | cur :: next =>
    if need ≤ cur.size then
      let remain := cur.size - need
      if gran ≤ remain then some (⟨cur.address, need, false⟩, ⟨ptrAdd cur.address need, remain⟩ :: next)
      else some (⟨cur.address, cur.size, true⟩, next)
    else (firstFit need gran next).map fun (f, l) => (f, cur :: l)

/-- Top-down: the highest block that fits, carved from its end. -/
def lastFit (need gran : ℕ) : List Block → Option (Fit × List Block)
  | [] => none
  | cur :: next =>
    match lastFit need gran next with
    | some (f, l) => some (f, cur :: l)
    | none =>
      if need ≤ cur.size then
        let remain := cur.size - need
        if gran ≤ remain then some (⟨ptrAdd cur.address remain, need, false⟩, ⟨cur.address, remain⟩ :: next)
        else some (⟨cur.address, cur.size, true⟩, next)
      else none

def takeFreeFit (s : ProxyAllocator) (size : ℕ) (fromTop : Bool) : Fit × ProxyAllocator :=
  let need := alignUp size s.allocGranularity
  let fit := if fromTop then lastFit need s.allocGranularity s.freeList
    else firstFit need s.allocGranularity s.freeList
  match fit with
  | some (f, l) => (f, { s with freeList := l })
  | none => (⟨0, 0, false⟩, s)

/-! ## The size-class caches -/

def popFrom (classSize : ℕ) : List SizeClassList → Option (Block × List SizeClassList)
  | [] => none
  | c :: cs =>
    match c.blocks with
    | n :: next =>
      if c.classSize = classSize then some (n, { c with blocks := next, count := c.count - 1 } :: cs)
      else (popFrom classSize cs).map fun (b, cs) => (b, c :: cs)
    | [] => (popFrom classSize cs).map fun (b, cs) => (b, c :: cs)

def popSizeClass (s : ProxyAllocator) (classSize : ℕ) : Option Block × ProxyAllocator :=
  match popFrom classSize s.sizeClasses with
  | some (b, cs) => (some b, { s with sizeClasses := cs })
  | none => (none, s)

/-- `if (m_classCachedBytes >= n) m_classCachedBytes -= n`. -/
def uncache (s : ProxyAllocator) (n : ℕ) : ProxyAllocator :=
  { s with classCachedBytes := if n ≤ s.classCachedBytes then s.classCachedBytes - n else s.classCachedBytes }

/-- One turn of the inner loop of `ReclaimCache`: the insert takes a fresh node before the one that
holds the block is returned, and its result is not looked at. -/
def reclaimBlock (s : ProxyAllocator) (n : Block) : ProxyAllocator :=
  let s := (s.insertFreeSortedAndCoalesce n.address n.size).2
  ({ s with hasMainArenaFree := true }.uncache n.size).freeNode

def reclaimCache (s : ProxyAllocator) : ProxyAllocator :=
  let t := (s.sizeClasses.flatMap (·.blocks)).foldl reclaimBlock s
  { t with sizeClasses := t.sizeClasses.map fun c => { c with blocks := [], count := 0, lost := 0 } }

/-- The scan for `classSize`, entering a new class after the last one when it is missing and the
table has room. -/
def findClass (classSize : ℕ) (cs : List SizeClassList) : Option (List SizeClassList) :=
  if cs.any (·.classSize = classSize) then some cs
  else if kMaxSizeClasses ≤ cs.length then none
  else some (cs ++ [⟨classSize, [], 0, 0⟩])

/-- The push onto the first class of that size; `none` when the class is at its cap. -/
def pushInto (addr classSize : ℕ) : List SizeClassList → Option (List SizeClassList)
  | [] => none
  | c :: cs =>
    if c.classSize = classSize then
      if kMaxCachedPerClass ≤ c.count then none
      else some ({ c with blocks := ⟨addr, classSize⟩ :: c.blocks, count := c.count + 1 } :: cs)
    else (pushInto addr classSize cs).map (c :: ·)

def pushSizeClass (s : ProxyAllocator) (addr classSize : ℕ) : Bool × ProxyAllocator :=
  match findClass classSize s.sizeClasses with
  | none => (false, s)
  | some cs =>
    -- the new class stays in the table whether or not the push succeeds
    let s := { s with sizeClasses := cs }
    match pushInto addr classSize cs with
    | none => (false, s)
    | some cs =>
      match s.allocNode with
      | (false, s) => (false, s)
      | (true, s) => (true, { s with sizeClasses := cs })

/-! ## Initialize -/

/-- `InitFromShared`; `mem` is the outcome of the node pool's `VirtualAlloc`. -/
def initFromShared (s : ProxyAllocator) (base size : ℕ) (mem : Bool) : Bool × ProxyAllocator :=
  if s.arenaBase ≠ 0 then (true, s)
  else match s.initNodePool mem with
  | (false, s) => (false, s)
  | (true, s) =>
    let s := { s with arenaBase := base, arenaSize := alignUp size s.allocGranularity, ownsArena := false,
                      freeList := [] }
    match s.insertFreeSortedAndCoalesce s.arenaBase s.arenaSize with
    | (false, s) => (false, { s with arenaBase := 0, arenaSize := 0 })
    | (true, s) => (true, s)

/-- `Initialize`; `reserved` is what `ReserveArenaContiguous` returned, 0 for null. -/
def initializeArena (s : ProxyAllocator) (arenaSize reserved : ℕ) (mem : Bool) : Bool × ProxyAllocator :=
  if s.arenaBase ≠ 0 then (true, s)
  else match s.initNodePool mem with
  | (false, s) => (false, s)
  | (true, s) =>
    if reserved = 0 then (false, s)
    else
      let s := { s with arenaBase := reserved, arenaSize := alignUp arenaSize s.allocGranularity,
                        freeList := [], ownsArena := true }
      match s.insertFreeSortedAndCoalesce s.arenaBase s.arenaSize with
      | (false, s) => (false, { s with arenaBase := 0, arenaSize := 0, ownsArena := false })
      | (true, s) => (true, s)

/-! ## Allocate and Free -/

/-- `IsProxyAddress`. -/
def isProxyAddress (s : ProxyAllocator) (address : ℕ) : Bool :=
  s.arenaBase ≠ 0 && (s.arenaBase ≤ address && address < ptrAdd s.arenaBase s.arenaSize)

/-- `ProxyArenaBand`. -/
def proxyArenaBand (size : ℕ) : ℕ :=
  if size < 4 * 1024 then 0 else if size < 64 * 1024 then 1 else if size < 256 * 1024 then 2
  else if size < 512 * 1024 then 3 else if size < 1024 * 1024 then 4 else if size < 4 * 1024 * 1024 then 5
  else if size < 16 * 1024 * 1024 then 6 else 7

/-- The common tail of a successful `Allocate`. -/
def grant (s : ProxyAllocator) (size grantedSize : ℕ) : ProxyAllocator :=
  { s with
    usedBytes := (s.usedBytes + grantedSize) % 2 ^ 32
    liveRequestedBytes := (s.liveRequestedBytes + size) % 2 ^ 32
    bandReqBytes := s.bandReqBytes.modify (proxyArenaBand size) fun n => (n + size) % 2 ^ 64
    bandSlotBytes := s.bandSlotBytes.modify (proxyArenaBand size) fun n => (n + grantedSize) % 2 ^ 64
    activeAllocations := (s.activeAllocations + 1) % 2 ^ 64
    totalGrantedBytes := (s.totalGrantedBytes + grantedSize) % 2 ^ 64 }

/-- The cache hit of `Allocate`. -/
def allocateCached (s : ProxyAllocator) (size : ℕ) (cached : Block) : ProxyAllocator :=
  let s := s.freeNode.uncache cached.size
  { s with totalReusedBytes := (s.totalReusedBytes + cached.size) % 2 ^ 64 }.grant size cached.size

/-- The two attempts at the free list, with `ReclaimCache` between them when bytes are cached. -/
def fitOrReclaim (s : ProxyAllocator) (size : ℕ) (fromTop : Bool) : Fit × ProxyAllocator :=
  let (f, t) := s.takeFreeFit size fromTop
  if f.grantedAddr = 0 ∧ 0 < t.classCachedBytes then t.reclaimCache.takeFreeFit size fromTop else (f, t)

/-- What `Allocate` makes of the search's outcome: a granted address of 0 is a failure. -/
def settle (s : ProxyAllocator) (size : ℕ) (f : Fit) : ℕ × ProxyAllocator :=
  if f.grantedAddr = 0 then (0, { s with totalAllocationFailures := (s.totalAllocationFailures + 1) % 2 ^ 64 })
  else (f.grantedAddr, (if f.removed then s.freeNode else s).grant size f.grantedSize)

/-- Whether `Allocate` reads a node of a released pool: at the head of the class it pops, or in the
reclaim. -/
def readsLost (s : ProxyAllocator) (size : ℕ) (fromTop : Bool) : Bool :=
  s.arenaBase ≠ 0 &&
    match s.popSizeClass (alignUp size s.allocGranularity) with
    | (some _, _) => false
    | (none, s) =>
      (s.sizeClasses.any fun c => c.classSize = alignUp size s.allocGranularity ∧ c.lost ≠ 0) ||
        let (f, t) := s.takeFreeFit size fromTop
        (f.grantedAddr = 0 ∧ 0 < t.classCachedBytes) && t.sizeClasses.any fun c => c.lost ≠ 0

/-- `Allocate`: the slot's address, 0 for null. For calls that read no lost node. -/
def allocate (s : ProxyAllocator) (size : ℕ) (fromTop : Bool) : ℕ × ProxyAllocator :=
  let s := { s with totalAllocationRequests := (s.totalAllocationRequests + 1) % 2 ^ 64 }
  if s.arenaBase = 0 then (0, { s with totalAllocationFailures := (s.totalAllocationFailures + 1) % 2 ^ 64 })
  else match s.popSizeClass (alignUp size s.allocGranularity) with
  | (some cached, s) => (cached.address, s.allocateCached size cached)
  | (none, s) =>
    let (f, s) := s.fitOrReclaim size fromTop
    s.settle size f

/-- The common tail of `Free`. -/
def discount (s : ProxyAllocator) (size sz : ℕ) : ProxyAllocator :=
  { s with
    usedBytes := if sz ≤ s.usedBytes then s.usedBytes - sz else 0
    liveRequestedBytes := if size ≤ s.liveRequestedBytes then s.liveRequestedBytes - size else 0
    activeAllocations := s.activeAllocations - 1
    totalFreedBytes := (s.totalFreedBytes + sz) % 2 ^ 64 }

/-- `Free(ptr, size)`. The slot goes to its size class, or into the free list when the push fails;
whether that insert succeeded is not looked at. -/
def free (s : ProxyAllocator) (ptr size : ℕ) : ProxyAllocator :=
  if ptr = 0 then s
  else if !s.isProxyAddress ptr then s
  else
    let sz := alignUp size s.allocGranularity
    match s.pushSizeClass ptr sz with
    | (true, s) => { s with classCachedBytes := (s.classCachedBytes + sz) % 2 ^ 64 }.discount size sz
    | (false, s) => { (s.insertFreeSortedAndCoalesce ptr sz).2 with hasMainArenaFree := true }.discount size sz

/-! ## Shutdown -/

/-- `DestroyNodePool`. -/
def destroyNodePool (s : ProxyAllocator) : ProxyAllocator := { s with nodeFree := 0, nodePoolMem := false }

/-- `Shutdown`. The size classes keep their heads and their counts. -/
def shutdown (s : ProxyAllocator) : ProxyAllocator :=
  { s with
    arenaBase := 0
    arenaSize := 0
    ownsArena := false
    freeList := []
    usedBytes := 0
    activeAllocations := 0
    hasMainArenaFree := false
    sizeClasses := s.sizeClasses.map SizeClassList.release }.destroyNodePool

end ProxyAllocator

end Ts3Vas
