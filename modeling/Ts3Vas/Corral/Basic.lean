/-
The script arena of MemoryManager.cpp ("corral"): a growing list of write-watch segments, each with an
allocator of its own, and one map from slot to size over all of them. The peak statistics are left out.
-/
import Ts3Vas.Hook.World

namespace Ts3Vas

/-- One zone: its entry of m_corralSegBase, m_corralSegSize and m_corralSegAlloc. -/
structure Segment where
  base : ℕ
  size : ℕ
  /-- The sub-allocator, with the slots it has granted and not taken back. -/
  sys : Sys
  deriving DecidableEq

structure Corral where
  /-- What the constructor of every sub-allocator reads from the environment. -/
  granKb : Option ℤ
  topDownKb : Option ℤ
  ready : Bool
  segs : List Segment
  startBytes : ℕ
  growFloor : ℕ
  maxReserved : ℕ
  totalReserved : ℕ
  sizes : AList fun _ : ℕ => ℕ

/-- What the system answers within one call. -/
structure Outcome where
  /-- `VirtualAlloc` of a new zone, 0 for null. -/
  reserve : ℕ
  object : Bool
  /-- The node pool of a new allocator got its memory. -/
  pool : Bool
  commit : Bool
  deriving DecidableEq, Repr

def kMaxCorralSegs : ℕ := 64

def Segment.call (s : Segment) (op : Op) : Segment := { s with sys := s.sys.step op }

/-- The range test of CorralFree and IsCorralAddress. -/
def Segment.contains (s : Segment) (addr : ℕ) : Bool := s.base ≤ addr && addr < ptrAdd s.base s.size

namespace Corral

def blank (c : Corral) : ProxyAllocator := .construct c.granKb c.topDownKb

/-! ## Growth -/

def addCorralSegment (c : Corral) (o : Outcome) (size : ℕ) : Bool × Corral :=
  if kMaxCorralSegs ≤ c.segs.length then (false, c)
  else if c.maxReserved ≠ 0 ∧ c.maxReserved < (c.totalReserved + size) % 2 ^ 32 then (false, c)
  else if o.reserve = 0 then (false, c)
  else if !o.object then (false, c)
  else match c.blank.initFromShared o.reserve size o.pool with
    | (false, _) => (false, c)
    | (true, a) => (true, { c with
        segs := c.segs ++ [⟨o.reserve, size, ⟨a, []⟩⟩]
        totalReserved := (c.totalReserved + size) % 2 ^ 32 })

/-- `EnvMb`, from what `_strtoui64` reads where the variable is set and short enough. -/
def envMb (v : Option ℕ) (dfltMb : ℕ) : ℕ :=
  let mb := v.getD 0 % 2 ^ 32
  (if mb = 0 then dfltMb else mb) * 1024 * 1024 % 2 ^ 32

def new (granKb topDownKb : Option ℤ) : Corral where
  granKb := granKb
  topDownKb := topDownKb
  ready := false
  segs := []
  startBytes := 0
  growFloor := 0
  maxReserved := 0
  totalReserved := 0
  sizes := ∅

/-- `InitScriptArena`, from the values of TS3VAS_SCRIPT_ARENA_MB, _GROW_MB and _MAX_MB. -/
def initScriptArena (c : Corral) (o : Outcome) (startMb growMb maxMb : Option ℕ) : Corral :=
  let c := { c with startBytes := envMb startMb 126, growFloor := envMb growMb 32, maxReserved := envMb maxMb 512 }
  let (ok, c) := c.addCorralSegment o c.startBytes
  { c with ready := ok }

/-! ## Reserve -/

/-- The loop over the segments: the slot, the index of the segment that granted it, and the segments
after the attempts. The slot is 0 when all of them are full. -/
def allocateFrom (size : ℕ) : List Segment → (ℕ × ℕ) × List Segment
  | [] => ((0, 0), [])
  | s :: rest =>
    let p := (s.sys.alloc.allocate size false).1
    let s := s.call (.allocate size false)
    if p ≠ 0 then ((p, 0), s :: rest)
    else
      let ((q, i), rest) := allocateFrom size rest
      ((q, i + 1), s :: rest)

def growSize (c : Corral) (size : ℕ) : ℕ := if size * 2 % 2 ^ 32 < c.growFloor then c.growFloor else size * 2 % 2 ^ 32

def grows (c : Corral) (o : Outcome) (size : ℕ) : Bool :=
  let ((slot, _), segs) := allocateFrom size c.segs
  slot = 0 && ({ c with segs := segs }.addCorralSegment o (c.growSize size)).1

def findSlot (c : Corral) (o : Outcome) (size : ℕ) : (ℕ × ℕ) × Corral :=
  let ((slot, i), segs) := allocateFrom size c.segs
  let c := { c with segs := segs }
  if slot ≠ 0 then ((slot, i), c)
  else match c.addCorralSegment o (c.growSize size) with
    | (false, c) => ((0, i), c)
    | (true, c) =>
      let i := c.segs.length - 1
      match c.segs[i]? with
      | some s => (((s.sys.alloc.allocate size false).1, i), { c with segs := c.segs.modify i (·.call (.allocate size false)) })
      | none => ((0, i), c)

def corralReserve (c : Corral) (o : Outcome) (size type : ℕ) : ℕ × Corral :=
  if !c.ready || size = 0 then (0, c)
  else
    let ((slot, i), c) := c.findSlot o size
    if slot = 0 then (0, c)
    else if hasFlag type MEM_COMMIT && !o.commit then
      (0, { c with segs := c.segs.modify i (·.call (.free ⟨slot, size⟩)) })
    else (slot, { c with sizes := c.sizes.insert slot size })

/-! ## Free -/

/-- `owner->Free(addr, size)` on the first segment whose range holds the address. -/
def freeFrom (addr size : ℕ) : List Segment → Option (List Segment)
  | [] => none
  | s :: rest =>
    if s.contains addr then some (s.call (.free ⟨addr, size⟩) :: rest) else (freeFrom addr size rest).map (s :: ·)

def corralFree (c : Corral) (addr : ℕ) : Bool × Corral :=
  if !c.ready || addr = 0 then (false, c)
  else match c.sizes.lookup addr with
    | none => (false, c)
    | some size =>
      let c := { c with sizes := c.sizes.erase addr }
      match freeFrom addr size c.segs with
      | none => (false, c)
      | some segs => if size = 0 then (false, c) else (true, { c with segs := segs })

def isCorralAddress (c : Corral) (addr : ℕ) : Bool := c.ready && addr ≠ 0 && c.segs.any (·.contains addr)

end Corral

end Ts3Vas
