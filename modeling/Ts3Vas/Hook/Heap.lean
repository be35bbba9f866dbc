/-
The sardine shards, the arena captures of MemoryManager, and the heap hooks, as they are in
WorkingHooks.cpp and MemoryManager.cpp.
-/
import Ts3Vas.Hook.World

namespace Ts3Vas

variable {σ : Type}

/-! ## The sardine shards -/

/-- `ProxyHeapShardOf`. -/
def proxyHeapShardOf (t : Tool) (p : ℕ) : Option Shard :=
  if p = 0 then none else t.shards.find? fun s => s.lo ≤ p ∧ p < s.hi

/-- `ShardHandleLive`. -/
def shardHandleLive (env : Env σ) (h : ℕ) (w : World σ) : Bool := h ≠ 0 && env.handleLive h w.os

/-- The value of a LONG after arithmetic that may wrap. -/
def toLong (x : ℤ) : ℤ := x.bmod (2 ^ 32)

/-- `s_proxyHeaps[i]`, inside the published part of the array or not. -/
def proxyHeapAt (env : Env σ) (t : Tool) (i : ℤ) : ℕ :=
  if 0 ≤ i then
    match t.shards[i.toNat]? with
    | some s => s.handle
    | none => env.stray i
  else env.stray i

/-- The loop of `ProxyHeapAlloc` over the rest of its values of `k`. -/
def proxyHeapTry (env : Env σ) (flags size : ℕ) (start : ℤ) (n : ℕ) : List ℕ → Hook σ ℕ
  | [] => return 0
  | k :: ks => do
    let w ← get
    let h := proxyHeapAt env w.tool ((toLong (start + k)).tmod n)
    if shardHandleLive env h w then do
      let p ← callValue env (.rtlAllocateHeap h (flags &&& HEAP_ZERO_MEMORY) size)
      if p ≠ 0 then return p else proxyHeapTry env flags size start n ks
    else proxyHeapTry env flags size start n ks

def proxyHeapAlloc (env : Env σ) (flags size : ℕ) : Hook σ ℕ := do
  let w ← get
  if w.tool.shards.length = 0 then return 0
  else proxyHeapHookScope do
    onTool fun t => { t with proxyHeapRR := toLong (t.proxyHeapRR + 1) }
    let w ← get
    proxyHeapTry env flags size w.tool.proxyHeapRR w.tool.shards.length (List.range w.tool.shards.length)

/-- `flags & ~HEAP_NO_SERIALIZE`. -/
def dropNoSerialize (flags : ℕ) : ℕ := flags &&& (minusOne ^^^ HEAP_NO_SERIALIZE)

def proxyHeapFree (env : Env σ) (flags p : ℕ) : Hook σ Bool := do
  let w ← get
  match proxyHeapShardOf w.tool p with
  | none => return false
  | some s =>
    if shardHandleLive env s.handle w then proxyHeapHookScope do
      let _ ← call env (.rtlFreeHeap s.handle (dropNoSerialize flags) p)
      return true
    else return false

def proxyHeapReAlloc (env : Env σ) (flags p size : ℕ) : Hook σ ℕ := do
  let w ← get
  match proxyHeapShardOf w.tool p with
  | none => return 0
  | some s =>
    if shardHandleLive env s.handle w then proxyHeapHookScope do
      callValue env (.rtlReAllocateHeap s.handle (flags &&& HEAP_ZERO_MEMORY) p size)
    else return 0

def proxyHeapSize (env : Env σ) (flags p : ℕ) : Hook σ ℕ := do
  let w ← get
  match proxyHeapShardOf w.tool p with
  | none => return minusOne
  | some s =>
    if w.tool.resolved .heapSize then proxyHeapHookScope do
      callValue env (.heapSize s.handle (dropNoSerialize flags) p)
    else return minusOne

/-- The probe of the packing loss after a sardine allocation. -/
def probeSardineLoss (env : Env σ) (p : ℕ) : Hook σ Unit := do
  let w ← get
  if w.tool.sardineLossProbe then discard (proxyHeapSize env 0 p) else return ()

/-- `ProxyHeapNoteExecHeap`. -/
def proxyHeapNoteExecHeap (h : ℕ) : Hook σ Unit := onTool fun t =>
  if h = 0 then t
  else if kMaxExecHeaps ≤ t.execHeaps.length then t
  else { t with execHeaps := t.execHeaps ++ [h] }

/-- `ProxyHeapIsExecHeap`. -/
def proxyHeapIsExecHeap (t : Tool) (h : ℕ) : Bool := decide (h ∈ t.execHeaps)

/-! ## The arena captures -/

/-- `ProxyAllocator::Allocate`, from the end that `PrefersTopDown` picks. -/
def arenaAllocate (size : ℕ) : Hook σ ℕ := do
  let w ← get
  onTool fun t => { t with sys := t.sys.step (.allocate size (t.sys.alloc.prefersTopDown size)) }
  return (w.tool.sys.alloc.allocate size (w.tool.sys.alloc.prefersTopDown size)).1

/-- `ProxyAllocator::Free`. -/
def arenaFree (p size : ℕ) : Hook σ Unit := onTool fun t => { t with sys := t.sys.step (.free ⟨p, size⟩) }

theorem exec_arenaAllocate (w : World σ) (size : ℕ) : Prog.exec (arenaAllocate size) w =
    ((w.tool.sys.alloc.allocate size (w.tool.sys.alloc.prefersTopDown size)).1,
      { w with tool := { w.tool with
          sys := w.tool.sys.step (.allocate size (w.tool.sys.alloc.prefersTopDown size)) } }) := rfl

/-- `MemoryManager::IsProxyAddress`. -/
def isProxyAddress (t : Tool) (p : ℕ) : Bool := t.sys.alloc.isProxyAddress p

/-- `VirtualAlloc(p, size, MEM_COMMIT, protect)`, which is hooked itself. -/
def commitSlot (env : Env σ) (p size protect : ℕ) : Hook σ ℕ := forward env (.virtualAlloc p size MEM_COMMIT protect) 0

/-- `VirtualFree(p, size, MEM_DECOMMIT)`, which is hooked itself. -/
def decommitSlot (env : Env σ) (p size : ℕ) : Hook σ ℕ := forward env (.virtualFree p size MEM_DECOMMIT) 0

def createProxyAllocation (env : Env σ) (caller : Caller) (size protect : ℕ) : Hook σ ℕ := do
  let w ← get
  if caller.self then return 0
  else if w.tool.proxyMaxBytes ≠ 0 ∧ w.tool.proxyMaxBytes ≤ size then return 0
  else do
    let p ← arenaAllocate size
    if p = 0 then return 0
    else if !isProxyAddress w.tool p || p % pageSize ≠ 0 then do
      arenaFree p size
      return 0
    else do
      let c ← commitSlot env p size (if protect = 0 then PAGE_READWRITE else protect)
      if c = 0 then do
        arenaFree p size
        return 0
      else do
        onTool fun t => { t with tables := t.tables.put p size .allocations }
        return p

/-- Finds a record and takes it out. -/
def takeRecord (p : ℕ) (k : Keeper) : Hook σ (Option ProxyAllocRecord) := do
  let w ← get
  onTool fun t => { t with tables := (t.tables.take p k).2 }
  return (w.tool.tables.take p k).1

def freeProxyAllocation (env : Env σ) (p : ℕ) : Hook σ Bool := do
  let w ← get
  if isProxyAddress w.tool p then do
    let found ← takeRecord p .allocations
    match found with
    | none => return false
    | some r => do
      let _ ← decommitSlot env r.proxyBase r.proxySize
      arenaFree p r.proxySize
      return true
  else return false

/-- `WorkingHooks::ActivateProxy`. -/
def activateProxy : Hook σ Unit := onTool fun t => if t.passive then t else { t with proxyActive := true }

/-- The sizes that go to the arena. -/
def capturable (t : Tool) (size : ℕ) : Bool :=
  decide (heapCaptureThreshold ≤ size) || (decide (t.kForceHeapProxyMinSize ≤ size) && t.forceHeapProxy)

/-! ## Allocation -/

def hookedRtlCreateHeap (env : Env σ) (flags base reserve commit lock params : ℕ) : Hook σ ℕ := do
  let w ← get
  if w.closed then callValue env (.rtlCreateHeap flags base reserve commit lock params)
  else rtlHookScope do
    setInHook true
    let heap ← callValue env (.rtlCreateHeap flags base reserve commit lock params)
    onlyIf (heap ≠ 0 ∧ hasFlag flags HEAP_CREATE_ENABLE_EXECUTE) (proxyHeapNoteExecHeap heap)
    setInHook false
    return heap

/-- The corral branch of `Hooked_RtlAllocateHeap`. -/
def corralCapture (env : Env σ) (caller : Caller) (size : ℕ) : Hook σ ℕ := do
  let w ← get
  if caller.corralTarget && decide (0 < size) && w.tool.memManager then do
    onlyIf (!w.tool.proxyActive) activateProxy
    let w ← get
    if w.tool.proxyActive then createProxyAllocation env caller size PAGE_READWRITE else return 0
  else return 0

/-- The gate of the sardine branch of `Hooked_RtlAllocateHeap`. -/
def sardineGate (t : Tool) (caller : Caller) (heap size : ℕ) : Bool :=
  t.proxyHeapEnabled && decide (0 < size) && decide (size < kHeapSubAllocMax) && !proxyHeapIsExecHeap t heap &&
    !caller.sardineExcluded && !caller.graphics && !caller.audio

/-- The arena branch of `Hooked_RtlAllocateHeap`. -/
def arenaCapture (env : Env σ) (caller : Caller) (size : ℕ) : Hook σ ℕ := do
  let w ← get
  if capturable w.tool size then do
    onlyIf (!w.tool.proxyActive) activateProxy
    let w ← get
    if w.tool.proxyActive && decide (0 < size) && !caller.audioModule && capturable w.tool size then
      createProxyAllocation env caller size PAGE_READWRITE
    else return 0
  else return 0

def hookedRtlAllocateHeap (env : Env σ) (caller : Caller) (heap flags size : ℕ) : Hook σ ℕ := do
  let w ← get
  if w.busy || !w.tool.memManager || w.tool.shuttingDown then
    callValue env (.rtlAllocateHeap heap flags size)
  else rtlHookScope do
    setInHook true
    let p ← corralCapture env caller size
    if p ≠ 0 then do
      setInHook false
      return p
    else do
      let w ← get
      let p ← attempt (sardineGate w.tool caller heap size) (proxyHeapAlloc env flags size)
      if p ≠ 0 then do
        probeSardineLoss env p
        setInHook false
        return p
      else do
        let p ← arenaCapture env caller size
        if p ≠ 0 then do
          setInHook false
          return p
        else do
          let r ← callValue env (.rtlAllocateHeap heap flags size)
          setInHook false
          return r

/-- The gate of the sardine branch of `Hooked_HeapAlloc`: the same without the audio check. -/
def heapAllocSardineGate (t : Tool) (caller : Caller) (heap size : ℕ) : Bool :=
  t.proxyHeapEnabled && decide (0 < size) && decide (size < kHeapSubAllocMax) && !proxyHeapIsExecHeap t heap &&
    !caller.sardineExcluded && !caller.graphics

/-- The gate of the arena branch of `Hooked_HeapAlloc` and `Hooked_HeapReAlloc`. -/
def forceGate (t : Tool) (size : ℕ) : Bool :=
  t.memManager && decide (t.kForceHeapProxyMinSize ≤ size) && t.proxyActive && t.forceHeapProxy

def hookedHeapAlloc (env : Env σ) (caller : Caller) (heap flags size : ℕ) : Hook σ ℕ := do
  let w ← get
  if w.closed || !w.tool.resolved .heapAlloc then
    if w.tool.resolved .heapAlloc then callValue env (.heapAlloc heap flags size) else return 0
  else rtlHookScope do
    setInHook true
    let w ← get
    let p ← attempt (heapAllocSardineGate w.tool caller heap size) (proxyHeapAlloc env flags size)
    onlyIf (p ≠ 0) (probeSardineLoss env p)
    let w ← get
    let p ← orElse p (attempt (forceGate w.tool size) (createProxyAllocation env caller size PAGE_READWRITE))
    let p ← orElse p (callValue env (.heapAlloc heap flags size))
    setInHook false
    return p

/-! ## Free -/

def hookedRtlFreeHeap (env : Env σ) (heap flags p : ℕ) : Hook σ ℕ := do
  if p = 0 then return 1
  else do
    let freed ← proxyHeapFree env flags p
    if freed then return 1
    else do
      let w ← get
      if w.tool.memManager && isProxyAddress w.tool p then do
        let _ ← freeProxyAllocation env p
        return 1
      else if w.busy || !w.tool.memManager then callValue env (.rtlFreeHeap heap flags p)
      else rtlHookScope do
        setInHook true
        let r ← callValue env (.rtlFreeHeap heap flags p)
        setInHook false
        return r

def hookedHeapFree (env : Env σ) (heap flags p : ℕ) : Hook σ ℕ := do
  let freed ← proxyHeapFree env flags p
  if freed then return 1
  else do
    let w ← get
    if decide (p ≠ 0) && w.tool.memManager && isProxyAddress w.tool p then do
      let _ ← freeProxyAllocation env p
      return 1
    else forward env (.heapFree heap flags p) 0

/-! ## Reallocation -/

/-- Copies the contents of the slot that `FindRecordByAddress` finds for `p`. -/
def copyRecorded (env : Env σ) (q p size : ℕ) : Hook σ Unit := do
  let w ← get
  match w.tool.tables.allocations.findRecordByAddress p with
  | some r =>
    if r.proxyBase ≠ 0 ∧ 0 < r.proxySize ∧ 0 < size then onOs (env.memcpy q r.proxyBase (min r.proxySize size))
    else return ()
  | none => return ()

/-- What both reallocation hooks do with an arena slot: a new block from the arena or from the real
heap by `fallback`, the contents copied, the old slot freed. -/
def arenaReAlloc (env : Env σ) (caller : Caller) (fallback : RealCall) (p size : ℕ) : Hook σ ℕ := do
  let w ← get
  let q ← attempt (capturable w.tool size && w.tool.proxyActive && !w.tool.shuttingDown)
    (createProxyAllocation env caller size PAGE_READWRITE)
  let q ← orElse q (callValue env fallback)
  if q ≠ 0 then do
    copyRecorded env q p size
    let _ ← freeProxyAllocation env p
    return q
  else do
    let _ ← freeProxyAllocation env p
    return q

/-- The guard is tested once more before the last branch, with the same answer. -/
def hookedRtlReAllocateHeap (env : Env σ) (caller : Caller) (heap flags p size : ℕ) : Hook σ ℕ := do
  let w ← get
  if w.busy || !w.tool.memManager || w.tool.shuttingDown then
    callValue env (.rtlReAllocateHeap heap flags p size)
  else if p ≠ 0 ∧ (proxyHeapShardOf w.tool p).isSome then proxyHeapReAlloc env flags p size
  else if w.tool.memManager ∧ p ≠ 0 ∧ isProxyAddress w.tool p then
    arenaReAlloc env caller (.rtlAllocateHeap heap flags size) p size
  else rtlHookScope do
    setInHook true
    let r ← callValue env (.rtlReAllocateHeap heap flags p size)
    setInHook false
    return r

def hookedHeapSize (env : Env σ) (heap flags p : ℕ) : Hook σ ℕ := do
  let w ← get
  if p ≠ 0 ∧ (proxyHeapShardOf w.tool p).isSome then proxyHeapSize env flags p
  else forward env (.heapSize heap flags p) minusOne

/-- The arena branch of `Hooked_HeapReAlloc` for a block that is not redirected: its `HeapSize` is
hooked itself. -/
def forceReAlloc (env : Env σ) (caller : Caller) (heap flags p size : ℕ) : Hook σ ℕ := do
  let q ← createProxyAllocation env caller size PAGE_READWRITE
  if q ≠ 0 ∧ p ≠ 0 then do
    let oldSize ← hookedHeapSize env heap flags p
    onlyIf (oldSize ≠ minusOne) (onOs (env.memcpy q p (min oldSize size)))
    let _ ← call env (.heapFree heap flags p)
    return q
  else return q

def hookedHeapReAlloc (env : Env σ) (caller : Caller) (heap flags p size : ℕ) : Hook σ ℕ := do
  let w ← get
  if p ≠ 0 ∧ (proxyHeapShardOf w.tool p).isSome then proxyHeapReAlloc env flags p size
  else if p ≠ 0 ∧ w.tool.memManager ∧ isProxyAddress w.tool p then
    arenaReAlloc env caller (.heapAlloc heap flags size) p size
  else if w.closed || !w.tool.resolved .heapReAlloc then
    if w.tool.resolved .heapReAlloc then callValue env (.heapReAlloc heap flags p size) else return 0
  else rtlHookScope do
    setInHook true
    let w ← get
    let q ← attempt (forceGate w.tool size) (forceReAlloc env caller heap flags p size)
    let q ← orElse q (callValue env (.heapReAlloc heap flags p size))
    setInHook false
    return q

def hookedHeapCreate (env : Env σ) (options initial maximum : ℕ) : Hook σ ℕ := forward env (.heapCreate options initial maximum) 0

/-! ## The movable blocks -/

/-- The common shape of the Global and Local hooks. -/
def suppressed (env : Env σ) (c : RealCall) : Hook σ ℕ := do
  let w ← get
  if w.tool.resolved c.api then proxyHeapHookScope (callValue env c) else return 0

def hookedGlobalAlloc (env : Env σ) (flags size : ℕ) : Hook σ ℕ := suppressed env (.globalAlloc flags size)

def hookedGlobalReAlloc (env : Env σ) (mem size flags : ℕ) : Hook σ ℕ := suppressed env (.globalReAlloc mem size flags)

def hookedLocalAlloc (env : Env σ) (flags size : ℕ) : Hook σ ℕ := suppressed env (.localAlloc flags size)

def hookedLocalReAlloc (env : Env σ) (mem size flags : ℕ) : Hook σ ℕ := suppressed env (.localReAlloc mem size flags)

end Ts3Vas
