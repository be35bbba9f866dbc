/-
What the hooks of WorkingHooks.cpp read and write: the state of the process that the tool keeps, the
state of the calling thread, and the Real_* functions below the hooks. Telemetry (counters, logs,
ETW, diagnostics of live reserves) decides nothing and is left out.
-/
import Ts3Vas.Lib.Prog
import Ts3Vas.Alloc.Runs
import Ts3Vas.Hook.Tables

namespace Ts3Vas

/-! ## The functions below the hooks -/

inductive Api
  | rtlCreateHeap | rtlAllocateHeap | rtlFreeHeap | rtlReAllocateHeap
  | ntAllocateVirtualMemory | ntFreeVirtualMemory | ntAllocateVirtualMemoryEx | ntMapViewOfSection
  | virtualAlloc | virtualFree
  | heapCreate | heapAlloc | heapFree | heapReAlloc | heapSize
  | globalAlloc | globalReAlloc | localAlloc | localReAlloc
  deriving DecidableEq, Repr

/-- A call of a `Real_*` function. `PVOID*` and `PSIZE_T` arguments are `none` for a null pointer,
else what they point to. -/
inductive RealCall
  | rtlCreateHeap (flags base reserve commit lock params : ℕ)
  | rtlAllocateHeap (heap flags size : ℕ)
  | rtlFreeHeap (heap flags p : ℕ)
  | rtlReAllocateHeap (heap flags p size : ℕ)
  | ntAllocateVirtualMemory (process : ℕ) (base : Option ℕ) (zeroBits : ℕ) (region : Option ℕ) (type protect : ℕ)
  | ntFreeVirtualMemory (process : ℕ) (base region : Option ℕ) (type : ℕ)
  | ntAllocateVirtualMemoryEx (process : ℕ) (base region : Option ℕ) (type protect params count : ℕ)
  | ntMapViewOfSection (sect process : ℕ) (base : Option ℕ) (zeroBits commit : ℕ) (offset view : Option ℕ)
      (inherit type protect : ℕ)
  | virtualAlloc (addr size type protect : ℕ)
  | virtualFree (addr size type : ℕ)
  | heapCreate (options initial maximum : ℕ)
  | heapAlloc (heap flags size : ℕ)
  | heapFree (heap flags p : ℕ)
  | heapReAlloc (heap flags p size : ℕ)
  | heapSize (heap flags p : ℕ)
  | globalAlloc (flags size : ℕ)
  | globalReAlloc (mem size flags : ℕ)
  | localAlloc (flags size : ℕ)
  | localReAlloc (mem size flags : ℕ)
  deriving DecidableEq, Repr

def RealCall.api : RealCall → Api
  | rtlCreateHeap .. => .rtlCreateHeap
  | rtlAllocateHeap .. => .rtlAllocateHeap
  | rtlFreeHeap .. => .rtlFreeHeap
  | rtlReAllocateHeap .. => .rtlReAllocateHeap
  | ntAllocateVirtualMemory .. => .ntAllocateVirtualMemory
  | ntFreeVirtualMemory .. => .ntFreeVirtualMemory
  | ntAllocateVirtualMemoryEx .. => .ntAllocateVirtualMemoryEx
  | ntMapViewOfSection .. => .ntMapViewOfSection
  | virtualAlloc .. => .virtualAlloc
  | virtualFree .. => .virtualFree
  | heapCreate .. => .heapCreate
  | heapAlloc .. => .heapAlloc
  | heapFree .. => .heapFree
  | heapReAlloc .. => .heapReAlloc
  | heapSize .. => .heapSize
  | globalAlloc .. => .globalAlloc
  | globalReAlloc .. => .globalReAlloc
  | localAlloc .. => .localAlloc
  | localReAlloc .. => .localReAlloc

structure Reply where
  value : ℕ
  base : ℕ
  region : ℕ
  deriving DecidableEq, Repr

/-! ## Constants of the Windows headers and of the source -/

def MEM_COMMIT : ℕ := 0x1000
def MEM_RESERVE : ℕ := 0x2000
def MEM_DECOMMIT : ℕ := 0x4000
def MEM_RELEASE : ℕ := 0x8000
def MEM_WRITE_WATCH : ℕ := 0x200000
def MEM_PHYSICAL : ℕ := 0x400000
def MEM_LARGE_PAGES : ℕ := 0x20000000
def PAGE_READWRITE : ℕ := 0x04
/-- PAGE_EXECUTE, PAGE_EXECUTE_READ, PAGE_EXECUTE_READWRITE and PAGE_EXECUTE_WRITECOPY. -/
def pageExecuteAny : ℕ := 0x10 ||| 0x20 ||| 0x40 ||| 0x80
def HEAP_NO_SERIALIZE : ℕ := 0x1
def HEAP_ZERO_MEMORY : ℕ := 0x8
def HEAP_CREATE_ENABLE_EXECUTE : ℕ := 0x40000
def STATUS_NOT_IMPLEMENTED : ℕ := 0xC0000002
/-- `(SIZE_T)-1`, and the handle that `GetCurrentProcess` returns. -/
def minusOne : ℕ := 0xFFFFFFFF
def heapCaptureThreshold : ℕ := 64 * 1024
def kForceVirtualAllocMinSize : ℕ := 4 * 1024
def kHeapSubAllocMax : ℕ := 64 * 1024
def kMaxExecHeaps : ℕ := 16
/-- `m_pageSize`, as `GetSystemInfo` reports it. -/
def pageSize : ℕ := 4096

def hasFlag (flags mask : ℕ) : Bool := flags &&& mask ≠ 0

/-! ## The state -/

/-- A sardine shard: its entry of s_proxyHeaps, s_proxyHeapLo and s_proxyHeapHi. -/
structure Shard where
  handle : ℕ
  lo : ℕ
  hi : ℕ
  deriving DecidableEq, Repr

/-- The process-wide state of the tool, and which of its pointers and indexes are there. -/
structure Tool where
  tlsAllocated : Bool
  memManager : Bool
  shuttingDown : Bool
  proxyActive : Bool
  passive : Bool
  forceProxyActive : Bool
  forceHeapProxy : Bool
  kForceHeapProxyMinSize : ℕ
  proxyMaxBytes : ℕ
  resolved : Api → Bool
  /-- `m_proxyAllocator`, with the slots it has granted and not taken back. -/
  sys : Sys
  tables : Tables
  proxyHeapEnabled : Bool
  shards : List Shard
  /-- `s_proxyHeapRR`, a LONG. -/
  proxyHeapRR : ℤ
  sardineLossProbe : Bool
  execHeaps : List ℕ

structure Thread where
  /-- No thread-local storage yet. -/
  bootstrapping : Bool
  hookActive : Bool
  /-- The thread's value at `s_tlsIndex` is not null. -/
  inHook : Bool
  deriving DecidableEq, Repr

/-- `σ` is the state of the system below the hooks, the script arena included. -/
structure World (σ : Type) where
  os : σ
  tool : Tool
  thread : Thread
  /-- The calls that the hooks have made to the `Real_*` functions, those of nested hooks left out. -/
  trace : List RealCall

/-- The functions that the hooks call and that are not theirs. -/
structure Env (σ : Type) where
  /-- The `Real_*` functions. They may run hooks of their own on the way. -/
  real : RealCall → StateM (World σ) Reply
  /-- `VirtualQuery` finds the page committed and accessible. -/
  handleLive : ℕ → σ → Bool
  /-- What `s_proxyHeaps[i]` reads for an index outside the array. -/
  stray : ℤ → ℕ
  memcpy : (dst src n : ℕ) → σ → σ
  isCorralAddress : ℕ → σ → Bool
  corralReserve : (size type protect : ℕ) → σ → ℕ × σ
  corralFree : ℕ → σ → σ

/-- What the module queries answer about the caller of one call. -/
structure Caller where
  /-- `RecordHeapUse`: the heap is one whose allocations all go to the arena. -/
  corralTarget : Bool
  /-- `HeapIsSardineExcluded`, after `RecordHeapUse`. -/
  sardineExcluded : Bool
  graphics : Bool
  audio : Bool
  /-- `IsAudioModule` of the name that `ClassifyCallerModule` found. -/
  audioModule : Bool
  self : Bool
  deriving DecidableEq, Repr

def Caller.plain : Caller := ⟨false, false, false, false, false, false⟩

/-- The tool after `Install` over an arena, with every setting at its default and no shard. -/
def Tool.install (a : ProxyAllocator) : Tool where
  tlsAllocated := true
  memManager := true
  shuttingDown := false
  proxyActive := false
  passive := false
  forceProxyActive := true
  forceHeapProxy := true
  kForceHeapProxyMinSize := 4 * 1024
  proxyMaxBytes := 0
  resolved := fun _ => true
  sys := ⟨a, []⟩
  tables := .empty
  proxyHeapEnabled := false
  shards := []
  proxyHeapRR := 0
  sardineLossProbe := true
  execHeaps := []

def World.install {σ : Type} (a : ProxyAllocator) (os : σ) : World σ := ⟨os, .install a, ⟨false, false, false⟩, []⟩

/-- A system whose `Real_*` functions return the values of a list one after the other, then null, and
do nothing else. -/
def Env.scripted : Env (List ℕ) where
  real _ w := match w.os with
    | [] => (⟨0, 0, 0⟩, w)
    | v :: vs => (⟨v, 0, 0⟩, { w with os := vs })
  handleLive _ _ := true
  stray _ := 0
  memcpy _ _ _ s := s
  isCorralAddress _ _ := false
  corralReserve _ _ _ s := (0, s)
  corralFree _ s := s

abbrev Hook (σ α : Type) := StateM (World σ) α

namespace World
variable {σ : Type}

def isInHook (w : World σ) : Bool := w.tool.tlsAllocated && w.thread.inHook

/-- One of the three marks that a thread is inside a hook, or not yet able to tell. -/
def busy (w : World σ) : Bool := w.thread.bootstrapping || w.thread.hookActive || w.isInHook

/-- The guard of most hooks. -/
def closed (w : World σ) : Bool := w.busy || w.tool.shuttingDown

end World

/-! ## Steps that hooks share -/

section
variable {σ : Type}

def setInHook (v : Bool) : Hook σ Unit := modify fun w =>
  if w.tool.tlsAllocated then { w with thread := { w.thread with inHook := v } } else w

def setHookActive (v : Bool) : Hook σ Unit := modify fun w => { w with thread := { w.thread with hookActive := v } }

/-- `RtlHookScope` around the rest of a hook. -/
def rtlHookScope {α : Type} (body : Hook σ α) : Hook σ α := do
  setHookActive true
  let r ← body
  setHookActive false
  return r

/-- `ProxyHeapHookScope` around a shard operation, and the save and restore of the Global and Local
hooks. -/
def proxyHeapHookScope {α : Type} (body : Hook σ α) : Hook σ α := do
  let w ← get
  if w.isInHook then body
  else do
    setInHook true
    let r ← body
    setInHook false
    return r

def call (env : Env σ) (c : RealCall) : Hook σ Reply := do
  let w ← get
  let r ← env.real c
  modify fun w' => { w' with trace := w.trace ++ [c] }
  return r

def callValue (env : Env σ) (c : RealCall) : Hook σ ℕ := do
  let r ← call env c
  return r.value

def onTool (f : Tool → Tool) : Hook σ Unit := modify fun w => { w with tool := f w.tool }

def onOs (f : σ → σ) : Hook σ Unit := modify fun w => { w with os := f w.os }

def onlyIf (c : Prop) [Decidable c] (m : Hook σ Unit) : Hook σ Unit := if c then m else pure ()

/-- A branch that gives a pointer, null where the branch is not taken. -/
def attempt (c : Prop) [Decidable c] (m : Hook σ ℕ) : Hook σ ℕ := if c then m else pure 0

/-- `if (!p) p = …;` -/
def orElse (p : ℕ) (m : Hook σ ℕ) : Hook σ ℕ := if p = 0 then m else pure p

/-- A hook that only forwards, under the guard and with the flags set. -/
def forward (env : Env σ) (c : RealCall) (absent : ℕ) : Hook σ ℕ := do
  let w ← get
  if w.closed || !w.tool.resolved c.api then
    if w.tool.resolved c.api then callValue env c else return absent
  else rtlHookScope do
    setInHook true
    let r ← callValue env c
    setInHook false
    return r

theorem exec_setInHook (v : Bool) (w : World σ) : ∃ th : Thread, th.hookActive = w.thread.hookActive ∧
    Prog.exec (setInHook v) w = (⟨⟩, { w with thread := th }) := by
  unfold setInHook
  rw [Prog.exec_modify]
  split
  · exact ⟨{ w.thread with inHook := v }, rfl, rfl⟩
  · exact ⟨w.thread, rfl, rfl⟩

/-- A scope changes the marks of the thread alone, around its body and after it. -/
theorem exec_scoped {α : Type} (m : Hook σ α) (w : World σ) : ∃ th th' : Thread, th.hookActive = true ∧
    Prog.exec (rtlHookScope (do setInHook true; let r ← m; setInHook false; return r)) w =
      ((Prog.exec m { w with thread := th }).1, { (Prog.exec m { w with thread := th }).2 with thread := th' }) := by
  obtain ⟨th, hact, e⟩ := exec_setInHook true { w with thread := { w.thread with hookActive := true } }
  obtain ⟨th', -, e'⟩ := exec_setInHook false (Prog.exec m { w with thread := th }).2
  refine ⟨th, { th' with hookActive := false }, hact, ?_⟩
  simp only [rtlHookScope, setHookActive, Prog.exec_bind, Prog.exec_modify, Prog.exec_pure, e, e']

theorem exec_proxyHeapHookScope {α : Type} (m : Hook σ α) (w : World σ) : ∃ th th' : Thread,
    Prog.exec (proxyHeapHookScope m) w =
      ((Prog.exec m { w with thread := th }).1, { (Prog.exec m { w with thread := th }).2 with thread := th' }) := by
  unfold proxyHeapHookScope
  rw [Prog.exec_bind, Prog.exec_get]
  by_cases hw : w.isInHook = true
  · rw [if_pos hw]
    exact ⟨w.thread, _, rfl⟩
  · obtain ⟨th, -, e⟩ := exec_setInHook true w
    obtain ⟨th', -, e'⟩ := exec_setInHook false (Prog.exec m { w with thread := th }).2
    rw [if_neg hw]
    refine ⟨th, th', ?_⟩
    simp only [Prog.exec_bind, Prog.exec_pure, e, e']

/-- A hook that only forwards makes its call inside a hook or behind its guard, if there is a function
to call. -/
theorem exec_forward_cases (env : Env σ) (c : RealCall) (absent : ℕ) (w : World σ) :
    (w.tool.resolved c.api = false ∧ Prog.exec (forward env c absent) w = (absent, w)) ∨
    (w.tool.resolved c.api = true ∧ ∃ th th' : Thread, World.closed { w with thread := th } = true ∧
      Prog.exec (forward env c absent) w = ((Prog.exec (callValue env c) { w with thread := th }).1,
        { (Prog.exec (callValue env c) { w with thread := th }).2 with thread := th' })) := by
  unfold forward
  rw [Prog.exec_bind, Prog.exec_get]
  cases hr : w.tool.resolved c.api with
  | false =>
    refine .inl ⟨rfl, ?_⟩
    rw [if_pos (by simp), if_neg Bool.false_ne_true]
    rfl
  | true =>
    refine .inr ⟨rfl, ?_⟩
    by_cases hc : w.closed = true
    · rw [if_pos (by simp [hc]), if_pos rfl]
      exact ⟨w.thread, _, hc, rfl⟩
    · rw [if_neg (by simp [hc])]
      obtain ⟨th, th', hact, e⟩ := exec_scoped (callValue env c) w
      exact ⟨th, th', by simp [World.closed, World.busy, hact], e⟩

end

end Ts3Vas
