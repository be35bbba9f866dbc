/-
Who calls a hook: the names of graphics and audio modules, the two append-only tables that remember
them by caller module and by heap, the slot that each thread keeps of the second one, and the stack
walk. Modules are loaded, never unloaded, and the queries about them succeed.
-/
import Ts3Vas.Hook.Heap
import Ts3Vas.Lib.Run

namespace Ts3Vas

/-! ## Names -/

/-- A character of a module name, with `A` to `Z` made small. -/
def lowerA (c : Char) : Char :=
  if 'A'.toNat ≤ c.toNat ∧ c.toNat ≤ 'Z'.toNat then Char.ofNat (c.toNat - 'A'.toNat + 'a'.toNat) else c

/-- The inner loop of `StringContainsI`: the needle stands at the front. -/
def startsWithI : List Char → List Char → Bool
  | _, [] => true
  | [], _ :: _ => false
  | a :: p, b :: needle => decide (lowerA a = lowerA b) && startsWithI p needle

def stringContainsI (haystack needle : List Char) : Bool :=
  if needle.length = 0 then true
  else match haystack with
    | [] => false
    | c :: p => startsWithI (c :: p) needle || stringContainsI p needle

def graphicsNames : List String :=
  ["d3d9.dll", "dxgi.dll", "opengl32.dll", "vulkan-1.dll", "nvd3dum", "nvwgf2um", "nvoglv", "nvldumd", "nvumdshim",
    "atidxx", "atidx9", "AMDXN32", "amdxc32", "amdihk", "igd10", "igdumd"]

def audioNames : List String :=
  ["dsound", "audioses", "mmdevapi", "wdmaud", "winmm", "msacm", "midimap", "avrt", "msdmo", "resampledmo", "audioeng"]

/-- A name that is not empty and has one of the parts. -/
def namesOneOf (parts : List String) (m : List Char) : Bool :=
  if m = [] then false else parts.any fun n => stringContainsI m n.toList

def isGraphicsModule (m : List Char) : Bool := namesOneOf graphicsNames m

def isAudioModule (m : List Char) : Bool := namesOneOf audioNames m

/-- No heap is corralled by default. -/
def isCorralModule (_ : List Char) : Bool := false

/-- What keeps a heap out of the shards. -/
def isDriverModule (m : List Char) : Bool := isGraphicsModule m || isAudioModule m

/-! ## Modules -/

/-- A loaded module: its range, `lpBaseOfDll` and the end of `SizeOfImage`, and its base name. -/
structure Module where
  base : ℕ
  stop : ℕ
  name : List Char
  deriving DecidableEq

namespace Module

def Holds (m : Module) (a : ℕ) : Prop := m.base ≤ a ∧ a < m.stop

instance (m : Module) (a : ℕ) : Decidable (m.Holds a) := inferInstanceAs (Decidable (_ ∧ _))

/-- `GetModuleBaseNameA` into a buffer of `n` characters: a longer name is cut. -/
def baseName (m : Module) (n : ℕ) : List Char := m.name.take (n - 1)

end Module

/-- `GetModuleHandleExA` from an address. -/
def moduleAt (mods : List Module) (a : ℕ) : Option Module := mods.find? fun m => m.Holds a

/-- The name of the module at an address, empty where there is none. -/
def nameAt (mods : List Module) (a : ℕ) : List Char :=
  match moduleAt mods a with
  | some m => m.name
  | none => []

/-! ## The tables -/

/-- An entry of `s_callerMods`. -/
structure CallerModRange where
  base : ℕ
  stop : ℕ
  gfx : Bool
  audio : Bool
  deriving DecidableEq, Repr

def CallerModRange.Holds (c : CallerModRange) (a : ℕ) : Prop := c.base ≤ a ∧ a < c.stop

instance (c : CallerModRange) (a : ℕ) : Decidable (c.Holds a) := inferInstanceAs (Decidable (_ ∧ _))

def kCallerModMax : ℕ := 256

/-- An entry of `s_heapUse`; its counters are telemetry. -/
structure HeapUseRec where
  handle : ℕ
  corralTarget : Bool
  sardineExclude : Bool
  deriving DecidableEq, Repr

def kHeapUseMax : ℕ := 128

/-- What the process has seen so far. -/
structure Seen where
  /-- `s_diagCSInit`, which `Install` sets before it attaches a hook. -/
  diagCSInit : Bool
  callerMods : List CallerModRange
  heapUse : List HeapUseRec
  deriving DecidableEq, Repr

/-- `t_lastHeapHandle` and `t_lastHeapSlot` of a thread, where no slot stands for -1. -/
structure LastHeap where
  handle : ℕ
  slot : Option ℕ
  deriving DecidableEq, Repr

def Seen.start : Seen := ⟨true, [], []⟩

def LastHeap.start : LastHeap := ⟨0, none⟩

/-- What the slow path resolves and puts into the table. -/
def CallerModRange.of (m : Module) : CallerModRange :=
  ⟨m.base, m.stop, isGraphicsModule (m.baseName 64), isAudioModule (m.baseName 64)⟩

def callerIsGraphicsModule (mods : List Module) (ra : ℕ) (seen : Seen) : Bool × Seen :=
  if ra = 0 ∨ !seen.diagCSInit then (false, seen)
  else match seen.callerMods.find? fun c => c.Holds ra with
    | some c => (c.gfx, seen)
    | none =>
      match moduleAt mods ra with
      | none => (false, seen)
      | some m =>
        let known := seen.callerMods.any fun c => c.base = m.base
        if !known ∧ seen.callerMods.length < kCallerModMax then
          (isGraphicsModule (m.baseName 64), { seen with callerMods := seen.callerMods ++ [.of m] })
        else (isGraphicsModule (m.baseName 64), seen)

def callerIsAudioModule (mods : List Module) (ra : ℕ) (seen : Seen) : Bool × Seen :=
  if ra = 0 ∨ !seen.diagCSInit then (false, seen)
  else match seen.callerMods.find? fun c => c.Holds ra with
    | some c => (c.audio, seen)
    | none =>
      let seen' := (callerIsGraphicsModule mods ra seen).2
      match seen'.callerMods.find? fun c => c.Holds ra with
      | some c => (c.audio, seen')
      | none => (false, seen')

/-- `m[0] ? m : "<?>"`. -/
def shown (m : List Char) : List Char := if m = [] then ['<', '?', '>'] else m

/-- The name that a new entry of `s_heapUse` gets, in a buffer of 40 characters. -/
def firstCaller (mods : List Module) (ra : ℕ) : List Char := shown ((nameAt mods ra).take 39)

def HeapUseRec.of (heap : ℕ) (name : List Char) : HeapUseRec := ⟨heap, isCorralModule name, isDriverModule name⟩

/-- The entry at the thread's slot, where the slot is the heap's. -/
def LastHeap.entry (last : LastHeap) (heap : ℕ) (seen : Seen) : Option HeapUseRec :=
  if heap = last.handle then last.slot.bind (seen.heapUse[·]?) else none

def recordHeapUse (mods : List Module) (heap ra : ℕ) (last : LastHeap) (seen : Seen) : Bool × LastHeap × Seen :=
  if heap = 0 ∨ !seen.diagCSInit then (false, last, seen)
  else match last.entry heap seen with
    | some r => (r.corralTarget, last, seen)
    | none =>
      match seen.heapUse.findIdx? fun r => r.handle = heap with
      | some i => ((seen.heapUse[i]?.map (·.corralTarget)).getD false, ⟨heap, some i⟩, seen)
      | none =>
        if seen.heapUse.length < kHeapUseMax then
          let r := HeapUseRec.of heap (firstCaller mods ra)
          (r.corralTarget, ⟨heap, some seen.heapUse.length⟩, { seen with heapUse := seen.heapUse ++ [r] })
        else (false, last, seen)

def heapIsSardineExcluded (heap : ℕ) (last : LastHeap) (seen : Seen) : Bool :=
  if heap = 0 ∨ !seen.diagCSInit then false
  else match last.entry heap seen with
    | some r => r.sardineExclude
    | none =>
      match seen.heapUse.find? fun r => r.handle = heap with
      | some r => r.sardineExclude
      | none => false

/-! ## The stack walk -/

inductive AllocCallerKind
  | unknown | gameExe | runtimeDll | modDll | graphics | systemDll
  deriving DecidableEq, Repr

def kCallerStackDepth : ℕ := 32

/-- The loop of `ClassifyCallerModule` over the rest of the frames: the kind, and the last name found. -/
def classifyFrames (mods : List Module) : List ℕ → List Char → AllocCallerKind × List Char
  | [], name => (.systemDll, name)
  | a :: frames, name =>
    if a = 0 then (.systemDll, name)
    else match moduleAt mods a with
      | none => classifyFrames mods frames name
      | some m =>
        if namesOneOf ["TS3W.exe", "TS3.exe", "Game_Win32.exe"] m.name then (.gameExe, m.name)
        else if namesOneOf ["msvcr", "msvcp", "vcruntime", "ucrtbase"] m.name then (.runtimeDll, m.name)
        else if namesOneOf ["TS3VASManager"] m.name then classifyFrames mods frames m.name
        else if namesOneOf [".asi"] m.name then (.modDll, m.name)
        else if isGraphicsModule m.name then (.graphics, m.name)
        else classifyFrames mods frames m.name

def classifyCallerModule (mods : List Module) (returnAddress : ℕ) (frames : List ℕ) : AllocCallerKind × List Char :=
  if returnAddress = 0 then (.unknown, [])
  else classifyFrames mods (frames.take kCallerStackDepth) []

/-! ## What a hook learns of its caller -/

/-- Where a call comes from: its return address, the frames that `ClassifyCallerModule` captures, from
the hook's own outwards, and what `CallerIsSelf` makes of its capture. -/
structure Site where
  ra : ℕ
  frames : List ℕ
  self : Bool
  deriving DecidableEq, Repr

/-- What the lookups of a hook have answered, and the thread's slot and the tables after them. -/
structure Looked where
  caller : Caller
  last : LastHeap
  seen : Seen

/-- The part of the sardine gates that is read before the module queries. -/
def sardineSize (t : Tool) (heap size : ℕ) : Bool :=
  t.proxyHeapEnabled && decide (0 < size) && decide (size < kHeapSubAllocMax) && !proxyHeapIsExecHeap t heap

/-- The lookups of `Hooked_RtlAllocateHeap`. A conjunct of the gate that stands behind a false one is
not evaluated: its answer is read by nobody, and it puts nothing into the tables. -/
def lookRtl (mods : List Module) (t : Tool) (heap size : ℕ) (site : Site) (last : LastHeap) (seen : Seen) : Looked :=
  let (corral, last, seen) := recordHeapUse mods heap site.ra last seen
  let excluded := heapIsSardineExcluded heap last seen
  let (gfx, resolved) := callerIsGraphicsModule mods site.ra seen
  let seen := if sardineSize t heap size && !excluded then resolved else seen
  let (aud, resolved) := callerIsAudioModule mods site.ra seen
  let seen := if sardineSize t heap size && !excluded && !gfx then resolved else seen
  let name := (classifyCallerModule mods site.ra site.frames).2
  ⟨⟨corral, excluded, gfx, aud, isAudioModule name, site.self⟩, last, seen⟩

/-- The lookups of `Hooked_HeapAlloc`, which ignores what `RecordHeapUse` returns and asks nothing
about audio. -/
def lookHeapAlloc (mods : List Module) (t : Tool) (heap size : ℕ) (site : Site) (last : LastHeap) (seen : Seen) : Looked :=
  let (_, last, seen) := recordHeapUse mods heap site.ra last seen
  let excluded := heapIsSardineExcluded heap last seen
  let (gfx, resolved) := callerIsGraphicsModule mods site.ra seen
  let seen := if sardineSize t heap size && !excluded then resolved else seen
  ⟨⟨false, excluded, gfx, false, false, site.self⟩, last, seen⟩

/-! ## Lookups by address -/

theorem moduleAt_some {mods : List Module} {a : ℕ} {m : Module} (h : moduleAt mods a = some m) : m ∈ mods ∧ m.Holds a :=
  ⟨List.mem_of_find?_eq_some h, by simpa using List.find?_some h⟩

/-- The modules of a process: none at address 0, no two over each other. -/
structure Loaded (mods : List Module) : Prop where
  placed : ∀ m ∈ mods, 0 < m.base ∧ m.base < m.stop
  apart : mods.Pairwise fun m n => m.stop ≤ n.base ∨ n.stop ≤ m.base

theorem loaded_nil : Loaded [] := ⟨fun _ h => (nomatch h), .nil⟩

/-- A module is loaded where no other is. -/
def Module.Fits (m : Module) (mods : List Module) : Prop :=
  0 < m.base ∧ m.base < m.stop ∧ ∀ n ∈ mods, n.stop ≤ m.base ∨ m.stop ≤ n.base

instance (m : Module) (mods : List Module) : Decidable (m.Fits mods) := inferInstanceAs (Decidable (_ ∧ _ ∧ _))

section
variable {mods : List Module} {a : ℕ} {m n : Module}

theorem Loaded.append (h : Loaded mods) (hm : m.Fits mods) : Loaded (mods ++ [m]) := by
  obtain ⟨hpos, hlt, hap⟩ := hm
  constructor
  · rintro n hn
    rcases List.mem_append.1 hn with hn | hn
    · exact h.placed n hn
    · rw [List.mem_singleton.1 hn]
      exact ⟨hpos, hlt⟩
  · refine List.pairwise_append.2 ⟨h.apart, List.pairwise_singleton _ _, ?_⟩
    rintro n hn m' hm'
    rw [List.mem_singleton.1 hm']
    exact hap n hn

theorem Loaded.sole (h : Loaded mods) (hm : m ∈ mods) (hn : n ∈ mods) (ha : m.Holds a) (hb : n.Holds a) : m = n := by
  by_contra hne
  have : Std.Symm fun m n : Module => m.stop ≤ n.base ∨ n.stop ≤ m.base := ⟨fun _ _ h => h.symm⟩
  have := h.apart.forall hm hn hne
  unfold Module.Holds at ha hb
  omega

theorem Loaded.ra_pos (h : Loaded mods) (hm : Ts3Vas.moduleAt mods a = some m) : a ≠ 0 := by
  obtain ⟨hm, ha⟩ := moduleAt_some hm
  have := h.placed m hm
  unfold Module.Holds at ha
  omega

end

end Ts3Vas
