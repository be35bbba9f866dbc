/-
The hooks of virtual memory and of section views, and a call of any hook.
-/
import Ts3Vas.Hook.Heap

namespace Ts3Vas

variable {σ : Type}

/-! ## Allocation -/

/-- `EnsureProxyActiveForVirtualPath`. -/
def ensureProxyActive (size type protect : ℕ) : Hook σ Unit := do
  let w ← get
  if w.tool.proxyActive then return ()
  else if !w.tool.forceProxyActive then return ()
  else if !hasFlag type MEM_RESERVE then return ()
  else if size < kForceVirtualAllocMinSize then return ()
  else if hasFlag type (MEM_PHYSICAL ||| MEM_LARGE_PAGES) then return ()
  else if hasFlag protect pageExecuteAny then return ()
  else activateProxy

/-- The requests that all three hooks redirect to the arena. -/
def redirects (t : Tool) (addr size type protect : ℕ) : Bool :=
  decide (addr = 0) && hasFlag type MEM_RESERVE &&
    !hasFlag type (MEM_WRITE_WATCH ||| MEM_PHYSICAL ||| MEM_LARGE_PAGES) && !hasFlag protect pageExecuteAny &&
    (decide (heapCaptureThreshold ≤ size) || decide (kForceVirtualAllocMinSize ≤ size)) && t.memManager &&
    (decide (t.proxyMaxBytes = 0) || decide (size < t.proxyMaxBytes)) && t.proxyActive

/-- The redirect itself: a slot, its pages, its record. Zero when there is no slot or its pages
cannot be committed; then the slot is freed. -/
def redirectSlot (env : Env σ) (size protect : ℕ) : Hook σ ℕ := do
  let slot ← arenaAllocate size
  if slot = 0 then return 0
  else do
    let c ← commitSlot env slot size protect
    if c = 0 then do
      arenaFree slot size
      return 0
    else do
      onTool fun t => { t with tables := t.tables.put slot size .vat }
      return slot

/-- A write-watch reserve of any address. -/
def writeWatchCandidate (addr type : ℕ) : Bool :=
  hasFlag type MEM_WRITE_WATCH && hasFlag type MEM_RESERVE && decide (addr = 0)

/-- The script arena takes the write-watch reserves that it can. -/
def corralReserve (env : Env σ) (size type protect : ℕ) : Hook σ ℕ := do
  let w ← get
  onOs fun s => (env.corralReserve size type protect s).2
  return (env.corralReserve size type protect w.os).1

def hookedVirtualAlloc (env : Env σ) (addr size type protect : ℕ) : Hook σ ℕ := do
  let w ← get
  if w.closed || !w.tool.resolved .virtualAlloc then
    if w.tool.resolved .virtualAlloc then callValue env (.virtualAlloc addr size type protect) else return 0
  else rtlHookScope do
    setInHook true
    ensureProxyActive size type protect
    let w ← get
    let p ← attempt (redirects w.tool addr size type protect) (redirectSlot env size protect)
    let p ← orElse p (attempt (writeWatchCandidate addr type && w.tool.memManager) (corralReserve env size type protect))
    let p ← orElse p (callValue env (.virtualAlloc addr size type protect))
    setInHook false
    return p

/-- What an Nt hook returns: the status, and what it leaves behind `BaseAddress` and `RegionSize`. -/
structure NtReply where
  status : ℕ
  base : Option ℕ
  region : Option ℕ
  deriving DecidableEq, Repr

def callNt (env : Env σ) (c : RealCall) (base region : Option ℕ) : Hook σ NtReply := do
  let r ← call env c
  return ⟨r.value, base.map fun _ => r.base, region.map fun _ => r.region⟩

def realNtAllocateVirtualMemory (env : Env σ) (process : ℕ) (base : Option ℕ) (zeroBits : ℕ) (region : Option ℕ)
    (type protect : ℕ) : Hook σ NtReply :=
  callNt env (.ntAllocateVirtualMemory process base zeroBits region type protect) base region

/-- Past the guard nothing clears the in-hook flag again. -/
def hookedNtAllocateVirtualMemory (env : Env σ) (process : ℕ) (base : Option ℕ) (zeroBits : ℕ) (region : Option ℕ)
    (type protect : ℕ) : Hook σ NtReply := do
  let w ← get
  match base, region with
  | some addr, some size =>
    if w.closed || !w.tool.memManager then realNtAllocateVirtualMemory env process base zeroBits region type protect
    else rtlHookScope do
      setInHook true
      onlyIf (process = minusOne) (ensureProxyActive size type protect)
      let w ← get
      let slot ← attempt (process = minusOne ∧ redirects w.tool addr size type protect) (redirectSlot env size protect)
      if slot ≠ 0 then return ⟨0, some slot, some size⟩
      else realNtAllocateVirtualMemory env process base zeroBits region type protect
  | _, _ => realNtAllocateVirtualMemory env process base zeroBits region type protect

def realNtAllocateVirtualMemoryEx (env : Env σ) (process : ℕ) (base region : Option ℕ) (type protect params count : ℕ) :
    Hook σ NtReply := callNt env (.ntAllocateVirtualMemoryEx process base region type protect params count) base region

/-- Past the guard nothing clears the in-hook flag again. -/
def hookedNtAllocateVirtualMemoryEx (env : Env σ) (process : ℕ) (base region : Option ℕ)
    (type protect params count : ℕ) : Hook σ NtReply := do
  let w ← get
  if !w.tool.resolved .ntAllocateVirtualMemoryEx then return ⟨STATUS_NOT_IMPLEMENTED, base, region⟩
  else
    match base, region with
    | some addr, some size =>
      if w.closed || !w.tool.memManager then realNtAllocateVirtualMemoryEx env process base region type protect params count
      else rtlHookScope do
        setInHook true
        let slot ← attempt (process = minusOne ∧ redirects w.tool addr size type protect ∧ (params = 0 ∨ count = 0))
          (redirectSlot env size protect)
        if slot ≠ 0 then return ⟨0, some slot, some size⟩
        else realNtAllocateVirtualMemoryEx env process base region type protect params count
    | _, _ => realNtAllocateVirtualMemoryEx env process base region type protect params count

/-! ## Free -/

/-- `VatUntrack`, called only for MEM_RELEASE. -/
def vatUntrack (addr type : ℕ) : Hook σ (Option ProxyAllocRecord) :=
  if hasFlag type MEM_RELEASE then takeRecord addr .vat else pure none

/-- The MEM_RELEASE of a redirected slot that `VatUntrack` has found. -/
def releaseSlot (env : Env σ) (addr : ℕ) (r : ProxyAllocRecord) : Hook σ Unit := do
  let _ ← decommitSlot env addr r.proxySize
  let w ← get
  if w.tool.memManager then arenaFree addr r.proxySize else return ()

def hookedVirtualFree (env : Env σ) (addr size type : ℕ) : Hook σ ℕ := do
  let w ← get
  if hasFlag type MEM_RELEASE ∧ addr ≠ 0 ∧ w.tool.memManager ∧ env.isCorralAddress addr w.os then do
    onOs (env.corralFree addr)
    return 1
  else do
    let found ← vatUntrack addr type
    match found with
    | some r => do
      releaseSlot env addr r
      return 1
    | none => forward env (.virtualFree addr size type) 0

def realNtFreeVirtualMemory (env : Env σ) (process : ℕ) (base region : Option ℕ) (type : ℕ) : Hook σ NtReply :=
  callNt env (.ntFreeVirtualMemory process base region type) base region

/-- Past the guard nothing clears the in-hook flag again. -/
def hookedNtFreeVirtualMemory (env : Env σ) (process : ℕ) (base region : Option ℕ) (type : ℕ) : Hook σ NtReply := do
  let w ← get
  match base with
  | some addr =>
    if w.closed || !w.tool.memManager then realNtFreeVirtualMemory env process base region type
    else rtlHookScope do
      setInHook true
      if hasFlag type MEM_RELEASE ∧ addr ≠ 0 ∧ env.isCorralAddress addr w.os then do
        onOs (env.corralFree addr)
        return ⟨0, some 0, region.map fun _ => 0⟩
      else do
        let found ← vatUntrack addr type
        match found with
        | some r => do
          releaseSlot env addr r
          return ⟨0, some 0, region.map fun _ => 0⟩
        | none => realNtFreeVirtualMemory env process base region type
  | none => realNtFreeVirtualMemory env process base region type

/-! ## Views -/

def realNtMapViewOfSection (env : Env σ) (sect process : ℕ) (base : Option ℕ) (zeroBits commit : ℕ)
    (offset view : Option ℕ) (inherit type protect : ℕ) : Hook σ NtReply :=
  callNt env (.ntMapViewOfSection sect process base zeroBits commit offset view inherit type protect) base view

/-- Past the guard nothing clears the in-hook flag again. Every path of the inspection of the view
returns the status of the real call. -/
def hookedNtMapViewOfSection (env : Env σ) (sect process : ℕ) (base : Option ℕ) (zeroBits commit : ℕ)
    (offset view : Option ℕ) (inherit type protect : ℕ) : Hook σ NtReply := do
  let w ← get
  if w.closed then realNtMapViewOfSection env sect process base zeroBits commit offset view inherit type protect
  else rtlHookScope do
    setInHook true
    realNtMapViewOfSection env sect process base zeroBits commit offset view inherit type protect

/-! ## Any hook -/

/-- A call of a hook with its arguments. -/
inductive HookCall
  | rtlCreateHeap (flags base reserve commit lock params : ℕ)
  | rtlAllocateHeap (caller : Caller) (heap flags size : ℕ)
  | rtlFreeHeap (heap flags p : ℕ)
  | rtlReAllocateHeap (caller : Caller) (heap flags p size : ℕ)
  | ntAllocateVirtualMemory (process : ℕ) (base : Option ℕ) (zeroBits : ℕ) (region : Option ℕ) (type protect : ℕ)
  | ntFreeVirtualMemory (process : ℕ) (base region : Option ℕ) (type : ℕ)
  | ntAllocateVirtualMemoryEx (process : ℕ) (base region : Option ℕ) (type protect params count : ℕ)
  | ntMapViewOfSection (sect process : ℕ) (base : Option ℕ) (zeroBits commit : ℕ) (offset view : Option ℕ)
      (inherit type protect : ℕ)
  | virtualAlloc (addr size type protect : ℕ)
  | virtualFree (addr size type : ℕ)
  | heapCreate (options initial maximum : ℕ)
  | heapAlloc (caller : Caller) (heap flags size : ℕ)
  | heapFree (heap flags p : ℕ)
  | heapReAlloc (caller : Caller) (heap flags p size : ℕ)
  | heapSize (heap flags p : ℕ)
  | globalAlloc (flags size : ℕ)
  | globalReAlloc (mem size flags : ℕ)
  | localAlloc (flags size : ℕ)
  | localReAlloc (mem size flags : ℕ)

/-- The hook, its result as the value it returns (the status of the Nt hooks). -/
def HookCall.run (env : Env σ) : HookCall → Hook σ ℕ
  | rtlCreateHeap flags base reserve commit lock params => hookedRtlCreateHeap env flags base reserve commit lock params
  | rtlAllocateHeap caller heap flags size => hookedRtlAllocateHeap env caller heap flags size
  | rtlFreeHeap heap flags p => hookedRtlFreeHeap env heap flags p
  | rtlReAllocateHeap caller heap flags p size => hookedRtlReAllocateHeap env caller heap flags p size
  | ntAllocateVirtualMemory process base zeroBits region type protect =>
    NtReply.status <$> hookedNtAllocateVirtualMemory env process base zeroBits region type protect
  | ntFreeVirtualMemory process base region type =>
    NtReply.status <$> hookedNtFreeVirtualMemory env process base region type
  | ntAllocateVirtualMemoryEx process base region type protect params count =>
    NtReply.status <$> hookedNtAllocateVirtualMemoryEx env process base region type protect params count
  | ntMapViewOfSection sect process base zeroBits commit offset view inherit type protect =>
    NtReply.status <$> hookedNtMapViewOfSection env sect process base zeroBits commit offset view inherit type protect
  | virtualAlloc addr size type protect => hookedVirtualAlloc env addr size type protect
  | virtualFree addr size type => hookedVirtualFree env addr size type
  | heapCreate options initial maximum => hookedHeapCreate env options initial maximum
  | heapAlloc caller heap flags size => hookedHeapAlloc env caller heap flags size
  | heapFree heap flags p => hookedHeapFree env heap flags p
  | heapReAlloc caller heap flags p size => hookedHeapReAlloc env caller heap flags p size
  | heapSize heap flags p => hookedHeapSize env heap flags p
  | globalAlloc flags size => hookedGlobalAlloc env flags size
  | globalReAlloc mem size flags => hookedGlobalReAlloc env mem size flags
  | localAlloc flags size => hookedLocalAlloc env flags size
  | localReAlloc mem size flags => hookedLocalReAlloc env mem size flags

/-- The state after one completed call. -/
def World.step (env : Env σ) (w : World σ) (c : HookCall) : World σ := (Prog.exec (c.run env) w).2

end Ts3Vas
