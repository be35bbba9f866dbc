/-
The ReadFile hook, ObserverHooks.cpp: a read of a package is passed on, counted, and compared with the reads of
the last minute, in one table by file and offset and in one by file; and each package is reported once.
-/
import Ts3Vas.Hook.Bands
import Ts3Vas.Lib.LastSeen
import Ts3Vas.Lib.Tally
import Ts3Vas.Observe.Packages

namespace Ts3Vas.ObserverHooks

open ScriptScanDedup hiding Passed Stored Filled stored_claim
open Dbpf Probe

/-! ## Keys -/

/-- `HashPathW`, over the UTF-16 units before the terminator. -/
def hashPathW (s : List ℕ) : ℕ := s.foldl (fun h c => fnv1a64Byte h (lower c % 256)) fnvBasis

/-- `ContainsExtI`: somewhere in the path, not only at its end. -/
def containsExtI (path ext : List ℕ) : Bool :=
  path.tails.any fun p => !p.isEmpty && decide ((p.take ext.length).map lower = ext.map lower)

def wide (s : String) : List ℕ := s.toList.map Char.toNat

def isPkg (path : List ℕ) : Bool :=
  containsExtI path (wide ".package") || containsExtI path (wide ".world") || containsExtI path (wide ".sims3") ||
    containsExtI path (wide ".dbc") || containsExtI path (wide ".ebc")

/-- What follows the last backslash. -/
def baseName (path : List ℕ) : List ℕ := (path.reverse.takeWhile fun c => decide (c ≠ 92)).reverse

def chunkMul : ℕ := 0x9E3779B97F4A7C15

/-- `chunkKey`, of a file's hash and an offset. -/
def chunkKey (fileHash off : ℕ) : ℕ := fileHash ^^^ (off * chunkMul % 2 ^ 64)

/-! ## The hook -/

/-- A call, and what the functions that it calls tell. -/
structure ReadCall where
  shuttingDown : Bool
  /-- `GetFileType` says disk. -/
  disk : Bool
  /-- The path, where `GetFinalPathNameByHandleW` has one that fits. -/
  path : Option (List ℕ)
  /-- The file pointer before the read. -/
  off : ℕ
  /-- What the real function returns, and `*lpRead` where the caller asks for it. -/
  result : Bool
  lpRead : Option ℕ
  now : ℕ
  fileSize : ℕ
  /-- What a scan of the package reads. -/
  content : Disk

/-- A read that gave bytes of a package. -/
structure PackageRead where
  path : List ℕ
  off : ℕ
  now : ℕ
  bytes : ℕ
  fileSize : ℕ
  content : Disk

structure RepeatSlot where
  key : ℕ
  tick : ℕ
  deriving DecidableEq, Repr

def kChunkSlots : ℕ := 16384
def kFileSlots : ℕ := 4096
def kPkgSlots : ℕ := 8192
def pkgProbes : ℕ := 32

structure ReadObserver where
  /-- There is an `Analytics`. -/
  analytics : Bool
  rfCSInit : Bool
  chunkSeen : ℕ → RepeatSlot
  fileSeen : ℕ → RepeatSlot
  pkgReported : ℕ → ℕ
  probe : ScriptProbe
  counted : List Increment
  /-- The lines of `PACKAGE_LOAD`: base name and size in KB. -/
  loads : List (List ℕ × ℕ)

/-- The slot of a key that the probe of that number looks at. -/
def pkgIndex (key p : ℕ) : ℕ := (key + p) % 2 ^ 64 % kPkgSlots

/-- The loop of `PackageReportedOnce` from probe `p` on, with so many left. -/
def pkgProbe (slots : ℕ → ℕ) (key : ℕ) : ℕ → ℕ → Bool × (ℕ → ℕ)
  | 0, _ => (false, slots)
  | n + 1, p =>
    let i := pkgIndex key p
    if slots i = key then (true, slots)
    else if slots i = 0 then (false, Function.update slots i key)
    else pkgProbe slots key n (p + 1)

def packageReportedOnce (slots : ℕ → ℕ) (key : ℕ) : Bool × (ℕ → ℕ) := pkgProbe slots (remap key) pkgProbes 0

/-- At most a minute before, with the wrap of the subtraction. -/
def within60s (now tick : ℕ) : Bool := (now + 2 ^ 64 - tick) % 2 ^ 64 ≤ 60000

namespace ReadObserver

def count (s : ReadObserver) (incs : List Increment) : ReadObserver :=
  if s.analytics then { s with counted := s.counted ++ incs } else s

/-- The part under the critical section: what is counted of a repeat, and the entries of both tables. -/
def churn (s : ReadObserver) (fileHash off now bytes : ℕ) : ReadObserver :=
  let key := chunkKey fileHash off
  let cslot := key % kChunkSlots
  let fslot := fileHash % kFileSlots
  let sameChunk := (s.chunkSeen cslot).key = key ∧ within60s now (s.chunkSeen cslot).tick
  let sameFile := (s.fileSeen fslot).key = fileHash ∧ within60s now (s.fileSeen fslot).tick
  let s := s.count (if sameChunk then [⟨"ReadFile_Repeat_SameChunk_60s", 1⟩, ⟨"ReadFile_Repeat_SameChunk_Bytes", bytes⟩]
    else if sameFile then [⟨"ReadFile_Repeat_SamePackage_60s", 1⟩, ⟨"ReadFile_Repeat_SamePackage_Bytes", bytes⟩] else [])
  { s with
    chunkSeen := Function.update s.chunkSeen cslot ⟨key, now⟩
    fileSeen := Function.update s.fileSeen fslot ⟨fileHash, now⟩ }

/-- The report of a package that is new. -/
def load (s : ReadObserver) (base : List ℕ) (fileSize : ℕ) : ReadObserver :=
  let (seen, slots) := packageReportedOnce s.pkgReported (keyFromBaseNameW base)
  let s := { s with pkgReported := slots }
  if seen then s
  else
    { s with loads := s.loads ++ [(base, fileSize / 1024)] }.count
      [⟨"Packages_Loaded", 1⟩, ⟨"Packages_Loaded_KB", fileSize / 1024⟩]

/-- What follows a read that gave bytes of a package. -/
def package (s : ReadObserver) (b : PackageRead) : ReadObserver :=
  let s := s.count [⟨"ReadFile_Package_Reads", 1⟩, ⟨"ReadFile_Package_Bytes", b.bytes⟩]
  let s := if s.rfCSInit then s.churn (hashPathW b.path) b.off b.now b.bytes else s
  let s := s.load (baseName b.path) b.fileSize
  { s with probe := s.probe.hookedReadFile (baseName b.path) b.content }

/-- `Hooked_ReadFile`; it returns what the real function does. -/
def hookedReadFile (s : ReadObserver) (c : ReadCall) : ReadObserver :=
  if c.shuttingDown then s
  else if !c.disk then s.count [⟨"ReadFile_Bypassed_NonDisk", 1⟩]
  else match c.path with
  | none => s.count [⟨"ReadFile_Bypassed_NoPath", 1⟩]
  | some path =>
    if !isPkg path then s.count [⟨"ReadFile_Bypassed_NonPackage", 1⟩]
    else match c.lpRead with
    | none => s
    | some bytes => if !c.result ∨ bytes = 0 then s else s.package ⟨path, c.off, c.now, bytes, c.fileSize, c.content⟩

/-- After `InstallReadFileObserver`, with an `Analytics`. -/
def start : ReadObserver := ⟨true, true, fun _ => ⟨0, 0⟩, fun _ => ⟨0, 0⟩, fun _ => 0, .start, [], []⟩

abbrev after (s : ReadObserver) (cs : List ReadCall) : ReadObserver := Run.after hookedReadFile s cs

end ReadObserver

/-! ## What the keys tell -/

/-- An odd factor loses nothing. -/
theorem mul_inj {off off' : ℕ} (h : off < 2 ^ 64) (h' : off' < 2 ^ 64)
    (heq : off * chunkMul % 2 ^ 64 = off' * chunkMul % 2 ^ 64) : off = off' := by
  have hcoprime : Nat.gcd (2 ^ 64) chunkMul = 1 := by decide +kernel
  have hmod : off ≡ off' [MOD 2 ^ 64] := Nat.ModEq.cancel_right_of_coprime hcoprime heq
  rwa [Nat.ModEq, Nat.mod_eq_of_lt h, Nat.mod_eq_of_lt h'] at hmod

/-- Of one file, each offset has its own key. -/
theorem chunkKey_inj {fileHash off off' : ℕ} (h : off < 2 ^ 64) (h' : off' < 2 ^ 64)
    (heq : chunkKey fileHash off = chunkKey fileHash off') : off = off' := by
  have hxor := congrArg (fileHash ^^^ ·) heq
  simp only [chunkKey, ← Nat.xor_assoc, Nat.xor_self, Nat.zero_xor] at hxor
  exact mul_inj h h' hxor

/-- Paths that differ in the case of letters only. -/
def PackageRead.SameFile (x b : PackageRead) : Prop := x.path.map lower = b.path.map lower

instance (x b : PackageRead) : Decidable (x.SameFile b) := inferInstanceAs (Decidable (_ = _))

def PackageRead.SameChunk (x b : PackageRead) : Prop := x.SameFile b ∧ x.off = b.off

instance (x b : PackageRead) : Decidable (x.SameChunk b) := inferInstanceAs (Decidable (_ ∧ _))

def PackageRead.fileHash (b : PackageRead) : ℕ := hashPathW b.path

def PackageRead.key (b : PackageRead) : ℕ := chunkKey b.fileHash b.off

theorem hashPathW_lower (s : List ℕ) : hashPathW s = (s.map lower).foldl (fun h c => fnv1a64Byte h (c % 256)) fnvBasis := by
  rw [hashPathW, List.foldl_map]

theorem PackageRead.SameFile.hash_eq {x b : PackageRead} (h : x.SameFile b) : x.fileHash = b.fileHash := by
  rw [fileHash, fileHash, hashPathW_lower, hashPathW_lower, h]

/-- The 64-bit keys tell the files and chunks of the reads apart, and the machine has been up for a minute. -/
structure Faithful (rs : List PackageRead) : Prop where
  files : ∀ x ∈ rs, ∀ b ∈ rs, x.fileHash = b.fileHash → x.SameFile b
  chunks : ∀ x ∈ rs, ∀ b ∈ rs, x.key = b.key → x.fileHash = b.fileHash
  offs : ∀ x ∈ rs, x.off < 2 ^ 64
  ticks : ∀ x ∈ rs, 60000 < x.now ∧ x.now < 2 ^ 64

theorem Faithful.prefix {rs rs' : List PackageRead} (h : Faithful (rs ++ rs')) : Faithful rs where
  files x hx b hb := h.files x (List.mem_append_left _ hx) b (List.mem_append_left _ hb)
  chunks x hx b hb := h.chunks x (List.mem_append_left _ hx) b (List.mem_append_left _ hb)
  offs x hx := h.offs x (List.mem_append_left _ hx)
  ticks x hx := h.ticks x (List.mem_append_left _ hx)

theorem Faithful.file_iff {rs : List PackageRead} (h : Faithful rs) {x b : PackageRead} (hx : x ∈ rs) (hb : b ∈ rs) :
    x.fileHash = b.fileHash ↔ x.SameFile b :=
  ⟨h.files x hx b hb, fun hsame => hsame.hash_eq⟩

theorem Faithful.chunk_iff {rs : List PackageRead} (h : Faithful rs) {x b : PackageRead} (hx : x ∈ rs) (hb : b ∈ rs) :
    x.key = b.key ↔ x.SameChunk b := by
  constructor
  · intro hkey
    have hhash := h.chunks x hx b hb hkey
    refine ⟨h.files x hx b hb hhash, ?_⟩
    unfold PackageRead.key at hkey
    rw [hhash] at hkey
    exact chunkKey_inj (h.offs x hx) (h.offs b hb) hkey
  · rintro ⟨hfile, hoff⟩
    rw [PackageRead.key, PackageRead.key, hfile.hash_eq, hoff]

/-- Not later, and at most a minute before. -/
def PackageRead.Within (x b : PackageRead) : Prop := x.now ≤ b.now ∧ b.now - x.now ≤ 60000

instance (x b : PackageRead) : Decidable (x.Within b) := inferInstanceAs (Decidable (_ ∧ _))

theorem within60s_iff {x b : PackageRead} (hx : x.now < 2 ^ 64) (hb : 60000 < b.now ∧ b.now < 2 ^ 64) :
    within60s b.now x.now = true ↔ x.Within b := by
  unfold within60s PackageRead.Within
  rw [decide_eq_true_eq]
  rcases le_or_gt x.now b.now with hle | hlt
  · rw [show b.now + 2 ^ 64 - x.now = b.now - x.now + 2 ^ 64 by omega, Nat.add_mod_right, Nat.mod_eq_of_lt (by omega)]
    simp [hle]
  · rw [Nat.mod_eq_of_lt (by omega)]
    omega

/-! ## Repeats -/

inductive Repeat
  | sameChunk
  | samePackage
  | fresh
  deriving DecidableEq, Repr

def PackageRead.chunkSlot (b : PackageRead) : ℕ := b.key % kChunkSlots

def PackageRead.fileSlot (b : PackageRead) : ℕ := b.fileHash % kFileSlots

/-- The last earlier read that falls in the same slot is such a one, of the last minute. -/
def Again (slot : PackageRead → ℕ) (Same : PackageRead → PackageRead → Prop) (pre : List PackageRead) (b : PackageRead) : Prop :=
  ∃ x ∈ LastSeen.last slot pre (slot b), Same x b ∧ x.Within b

instance (slot : PackageRead → ℕ) (Same : PackageRead → PackageRead → Prop) [∀ x b, Decidable (Same x b)]
    (pre : List PackageRead) (b : PackageRead) : Decidable (Again slot Same pre b) :=
  inferInstanceAs (Decidable (∃ x ∈ LastSeen.last slot pre (slot b), Same x b ∧ x.Within b))

/-- What a read repeats of those before it. -/
def repeatOf (pre : List PackageRead) (b : PackageRead) : Repeat :=
  if Again PackageRead.chunkSlot PackageRead.SameChunk pre b then .sameChunk
  else if Again PackageRead.fileSlot PackageRead.SameFile pre b then .samePackage
  else .fresh

/-- All reads, each with what it repeats. -/
def repeatsFrom : List PackageRead → List PackageRead → List (Repeat × PackageRead)
  | _, [] => []
  | pre, b :: rs => (repeatOf pre b, b) :: repeatsFrom (pre ++ [b]) rs

theorem repeatsFrom_concat (b : PackageRead) : ∀ (rs pre : List PackageRead),
    repeatsFrom pre (rs ++ [b]) = repeatsFrom pre rs ++ [(repeatOf (pre ++ rs) b, b)]
  | [], pre => by rw [List.nil_append, List.append_nil, repeatsFrom, repeatsFrom, repeatsFrom, List.nil_append]
  | x :: rs, pre => by
    rw [List.cons_append, repeatsFrom, repeatsFrom_concat b rs, repeatsFrom, List.append_assoc, List.singleton_append,
      List.cons_append]

/-- The two counters of a repeat. -/
def Repeat.increments (bytes : ℕ) : Repeat → List Increment
  | .sameChunk => [⟨"ReadFile_Repeat_SameChunk_60s", 1⟩, ⟨"ReadFile_Repeat_SameChunk_Bytes", bytes⟩]
  | .samePackage => [⟨"ReadFile_Repeat_SamePackage_60s", 1⟩, ⟨"ReadFile_Repeat_SamePackage_Bytes", bytes⟩]
  | .fresh => []

/-- A table of the last reads, by key. -/
def seenTable (slot key : PackageRead → ℕ) (rs : List PackageRead) : ℕ → RepeatSlot :=
  rs.foldl (LastSeen.put slot fun b => ⟨key b, b.now⟩) fun _ => ⟨0, 0⟩

theorem seenTable_concat (slot key : PackageRead → ℕ) (rs : List PackageRead) (b : PackageRead) :
    seenTable slot key (rs ++ [b]) = Function.update (seenTable slot key rs) (slot b) ⟨key b, b.now⟩ := List.foldl_concat ..

/-- The test of a slot. A slot that nothing has fallen in says no, since it is more than a minute old. -/
theorem seenTable_iff (slot key : PackageRead → ℕ) (Same : PackageRead → PackageRead → Prop) {rs : List PackageRead}
    {b : PackageRead} (hf : Faithful (rs ++ [b])) (hsame : ∀ x ∈ rs, key x = key b ↔ Same x b) :
    (seenTable slot key rs (slot b)).key = key b ∧ within60s b.now (seenTable slot key rs (slot b)).tick = true ↔
      Again slot Same rs b := by
  have hb := hf.ticks b (by simp)
  rw [seenTable, LastSeen.foldl_put]
  unfold Again
  rcases hlast : LastSeen.last slot rs (slot b) with _ | x
  · have hold : within60s b.now 0 = false := by
      unfold within60s
      rw [decide_eq_false_iff_not, Nat.sub_zero, Nat.add_mod_right, Nat.mod_eq_of_lt hb.2]
      omega
    simp [hold]
  · obtain ⟨hx, -⟩ := LastSeen.mem_of_last hlast
    have hxt := (hf.ticks x (List.mem_append_left _ hx)).2
    simp only [Option.map_some, Option.getD_some, Option.mem_def, Option.some.injEq, exists_eq_left']
    rw [hsame x hx, within60s_iff hxt hb]

namespace ReadObserver

/-- The tables after the reads. -/
structure Tabled (s : ReadObserver) (rs : List PackageRead) : Prop where
  analytics : s.analytics = true
  rfCSInit : s.rfCSInit = true
  chunkSeen : s.chunkSeen = seenTable PackageRead.chunkSlot PackageRead.key rs
  fileSeen : s.fileSeen = seenTable PackageRead.fileSlot PackageRead.fileHash rs

theorem count_on {s : ReadObserver} (h : s.analytics = true) (incs : List Increment) :
    s.count incs = { s with counted := s.counted ++ incs } := if_pos h

theorem churn_eq {s : ReadObserver} {rs : List PackageRead} {b : PackageRead} (h : s.Tabled rs) (hf : Faithful (rs ++ [b])) :
    (s.churn (hashPathW b.path) b.off b.now b.bytes).Tabled (rs ++ [b]) ∧
      (s.churn (hashPathW b.path) b.off b.now b.bytes).counted = s.counted ++ (repeatOf rs b).increments b.bytes := by
  have hmem : ∀ x ∈ rs, x ∈ rs ++ [b] := fun x hx => List.mem_append_left _ hx
  have hb : b ∈ rs ++ [b] := by simp
  have hchunk := seenTable_iff PackageRead.chunkSlot PackageRead.key PackageRead.SameChunk hf fun x hx =>
    hf.chunk_iff (hmem x hx) hb
  have hfile := seenTable_iff PackageRead.fileSlot PackageRead.fileHash PackageRead.SameFile hf fun x hx =>
    hf.file_iff (hmem x hx) hb
  rw [← h.chunkSeen] at hchunk
  rw [← h.fileSeen] at hfile
  unfold PackageRead.chunkSlot PackageRead.key PackageRead.fileHash at hchunk
  unfold PackageRead.fileSlot PackageRead.fileHash at hfile
  have hincs : (if (s.chunkSeen (chunkKey (hashPathW b.path) b.off % kChunkSlots)).key = chunkKey (hashPathW b.path) b.off ∧
        within60s b.now (s.chunkSeen (chunkKey (hashPathW b.path) b.off % kChunkSlots)).tick = true then
        [⟨"ReadFile_Repeat_SameChunk_60s", 1⟩, ⟨"ReadFile_Repeat_SameChunk_Bytes", b.bytes⟩]
      else if (s.fileSeen (hashPathW b.path % kFileSlots)).key = hashPathW b.path ∧
        within60s b.now (s.fileSeen (hashPathW b.path % kFileSlots)).tick = true then
        [⟨"ReadFile_Repeat_SamePackage_60s", 1⟩, ⟨"ReadFile_Repeat_SamePackage_Bytes", b.bytes⟩] else []) =
      (repeatOf rs b).increments b.bytes := by
    unfold repeatOf
    by_cases hc : Again PackageRead.chunkSlot PackageRead.SameChunk rs b
    · rw [if_pos (hchunk.2 hc), if_pos hc]
      rfl
    · rw [if_neg fun h => hc (hchunk.1 h), if_neg hc]
      by_cases hp : Again PackageRead.fileSlot PackageRead.SameFile rs b
      · rw [if_pos (hfile.2 hp), if_pos hp]
        rfl
      · rw [if_neg fun h => hp (hfile.1 h), if_neg hp]
        rfl
  unfold churn
  dsimp only
  rw [hincs, count_on h.analytics]
  refine ⟨⟨h.analytics, h.rfCSInit, ?_, ?_⟩, rfl⟩
  · rw [seenTable_concat, ← h.chunkSeen]
    rfl
  · rw [seenTable_concat, ← h.fileSeen]
    rfl

end ReadObserver

/-! ## Calls -/

/-- What a call reads of a package. -/
def ReadCall.read? (c : ReadCall) : Option PackageRead :=
  if c.shuttingDown || !c.disk || !c.result then none
  else match c.path, c.lpRead with
  | some path, some bytes =>
    if isPkg path && bytes ≠ 0 then some ⟨path, c.off, c.now, bytes, c.fileSize, c.content⟩ else none
  | _, _ => none

def reads (cs : List ReadCall) : List PackageRead := cs.filterMap ReadCall.read?

theorem reads_concat (cs : List ReadCall) (c : ReadCall) : reads (cs ++ [c]) = reads cs ++ c.read?.toList := by
  rw [reads, reads, List.filterMap_append]
  cases h : c.read? <;> simp [h]

def readCounters : List String :=
  ["ReadFile_Package_Reads", "ReadFile_Package_Bytes", "ReadFile_Repeat_SameChunk_60s", "ReadFile_Repeat_SameChunk_Bytes",
    "ReadFile_Repeat_SamePackage_60s", "ReadFile_Repeat_SamePackage_Bytes"]

def loadCounters : List String := ["Packages_Loaded", "Packages_Loaded_KB"]

def bypassCounters : List String :=
  ["ReadFile_Bypassed_NonDisk", "ReadFile_Bypassed_NoPath", "ReadFile_Bypassed_NonPackage"]

/-- The increments of one read. -/
def posted (p : Repeat × PackageRead) : List Increment :=
  [⟨"ReadFile_Package_Reads", 1⟩, ⟨"ReadFile_Package_Bytes", p.2.bytes⟩] ++ p.1.increments p.2.bytes

/-- The key under which a package is reported. -/
def PackageRead.loadKey (b : PackageRead) : ℕ := remap (keyFromBaseNameW (baseName b.path))

/-- The line of `PACKAGE_LOAD`. -/
def PackageRead.line (b : PackageRead) : List ℕ × ℕ := (baseName b.path, b.fileSize / 1024)

/-- The increments of one report. -/
def PackageRead.loaded (b : PackageRead) : List Increment :=
  [⟨"Packages_Loaded", 1⟩, ⟨"Packages_Loaded_KB", b.fileSize / 1024⟩]

namespace ReadObserver

/-- A call that reads nothing of a package changes at most the counters of what is passed by. -/
theorem hookedReadFile_none {c : ReadCall} (h : c.read? = none) (s : ReadObserver) :
    ∃ incs, (∀ i ∈ incs, i.name ∈ bypassCounters) ∧ s.hookedReadFile c = s.count incs := by
  have hquiet : s = s.count [] := by
    unfold count
    split
    · rw [List.append_nil]
    · rfl
  unfold hookedReadFile
  unfold ReadCall.read? at h
  by_cases hdown : c.shuttingDown = true
  · exact ⟨[], by simp, by rw [if_pos hdown, ← hquiet]⟩
  rw [if_neg hdown]
  by_cases hdisk : c.disk = true
  case neg => exact ⟨[⟨"ReadFile_Bypassed_NonDisk", 1⟩], by simp [bypassCounters], by rw [if_pos (by simp [hdisk])]⟩
  rw [if_neg (by simp [hdisk])]
  cases hpath : c.path with
  | none => exact ⟨[⟨"ReadFile_Bypassed_NoPath", 1⟩], by simp [bypassCounters], rfl⟩
  | some path =>
    dsimp only
    by_cases hpkg : isPkg path = true
    case neg => exact ⟨[⟨"ReadFile_Bypassed_NonPackage", 1⟩], by simp [bypassCounters], by rw [if_pos (by simp [hpkg])]⟩
    rw [if_neg (by simp [hpkg])]
    cases hread : c.lpRead with
    | none => exact ⟨[], by simp, hquiet⟩
    | some bytes =>
      dsimp only
      split
      · exact ⟨[], by simp, hquiet⟩
      · rename_i hgot
        rw [not_or, Bool.not_eq_true'] at hgot
        simp [hpath, hread, hdown, hdisk, hpkg, hgot] at h

theorem hookedReadFile_some {c : ReadCall} {b : PackageRead} (h : c.read? = some b) (s : ReadObserver) :
    s.hookedReadFile c = s.package b := by
  unfold ReadCall.read? at h
  split at h
  · cases h
  split at h
  · split at h
    · rename_i hflags path bytes hpath hread hpkg
      cases h
      simp_all [hookedReadFile]
    · cases h
  · cases h

/-- What the report of a package leaves alone. -/
theorem load_frame (s : ReadObserver) (base : List ℕ) (fileSize : ℕ) :
    (s.load base fileSize).analytics = s.analytics ∧ (s.load base fileSize).rfCSInit = s.rfCSInit ∧
      (s.load base fileSize).chunkSeen = s.chunkSeen ∧ (s.load base fileSize).fileSeen = s.fileSeen := by
  unfold load count
  dsimp only
  split
  · exact ⟨rfl, rfl, rfl, rfl⟩
  · split <;> exact ⟨rfl, rfl, rfl, rfl⟩

/-- The increments of a report, or none. -/
theorem load_counted {s : ReadObserver} (h : s.analytics = true) (b : PackageRead) :
    ∃ incs, (∀ i ∈ incs, i.name ∈ loadCounters) ∧
      (s.load (baseName b.path) b.fileSize).counted = s.counted ++ incs := by
  unfold load
  dsimp only
  split
  · exact ⟨[], by simp, (List.append_nil _).symm⟩
  · refine ⟨b.loaded, by simp [PackageRead.loaded, loadCounters], ?_⟩
    rw [count_on (by exact h)]
    rfl

theorem sumUnder_other {incs : List Increment} {names : List String} (h : ∀ i ∈ incs, i.name ∈ names) {name : String}
    (hname : name ∉ names) : sumUnder incs name = 0 := by
  rw [sumUnder, List.filter_eq_nil_iff.2 fun i hi => ?_]
  · rfl
  · rw [decide_eq_true_eq]
    rintro rfl
    exact hname (h i hi)

/-! ## Runs -/

/-- After some calls: the tables are those of the reads, and the counters of the reads are what they posted. -/
structure Counted (s : ReadObserver) (rs : List PackageRead) : Prop where
  tabled : s.Tabled rs
  counted : ∀ name ∈ readCounters, sumUnder s.counted name = sumUnder ((repeatsFrom [] rs).flatMap posted) name

theorem readCounters_other : ∀ name ∈ readCounters, name ∉ bypassCounters ∧ name ∉ loadCounters := by decide

theorem Counted.package {s : ReadObserver} {rs : List PackageRead} {b : PackageRead} (h : s.Counted rs)
    (hf : Faithful (rs ++ [b])) : (s.package b).Counted (rs ++ [b]) := by
  have hon := count_on h.tabled.analytics [⟨"ReadFile_Package_Reads", 1⟩, ⟨"ReadFile_Package_Bytes", b.bytes⟩]
  unfold ReadObserver.package
  dsimp only
  rw [hon, if_pos h.tabled.rfCSInit]
  obtain ⟨ht, hc⟩ := churn_eq (s := { s with
    counted := s.counted ++ [⟨"ReadFile_Package_Reads", 1⟩, ⟨"ReadFile_Package_Bytes", b.bytes⟩] })
    ⟨h.tabled.analytics, h.tabled.rfCSInit, h.tabled.chunkSeen, h.tabled.fileSeen⟩ hf
  obtain ⟨ha, hi, hchunk, hfile⟩ := load_frame (churn { s with
    counted := s.counted ++ [⟨"ReadFile_Package_Reads", 1⟩, ⟨"ReadFile_Package_Bytes", b.bytes⟩] }
    (hashPathW b.path) b.off b.now b.bytes) (baseName b.path) b.fileSize
  obtain ⟨incs, hincs, hload⟩ := load_counted ht.analytics b
  refine ⟨⟨ha.trans ht.analytics, hi.trans ht.rfCSInit, hchunk.trans ht.chunkSeen, hfile.trans ht.fileSeen⟩, ?_⟩
  intro name hname
  rw [hload, hc, repeatsFrom_concat, List.nil_append, List.flatMap_append, List.flatMap_singleton]
  simp only [sumUnder_append]
  rw [h.counted name hname, sumUnder_other hincs (readCounters_other name hname).2, posted, sumUnder_append, Nat.add_zero,
    Nat.add_assoc]

theorem Counted.hookedReadFile {s : ReadObserver} {rs : List PackageRead} {c : ReadCall} (h : s.Counted rs)
    (hf : Faithful (rs ++ c.read?.toList)) : (s.hookedReadFile c).Counted (rs ++ c.read?.toList) := by
  cases hread : c.read? with
  | none =>
    obtain ⟨incs, hincs, hcall⟩ := hookedReadFile_none hread s
    rw [hcall, count_on h.tabled.analytics, Option.toList_none, List.append_nil]
    refine ⟨⟨h.tabled.analytics, h.tabled.rfCSInit, h.tabled.chunkSeen, h.tabled.fileSeen⟩, fun name hname => ?_⟩
    rw [sumUnder_append, h.counted name hname, sumUnder_other hincs (readCounters_other name hname).1, Nat.add_zero]
  | some b =>
    rw [hread] at hf
    rw [hookedReadFile_some hread]
    exact h.package hf

theorem start_counted : start.Counted [] := by
  refine ⟨⟨rfl, rfl, rfl, rfl⟩, fun name _ => rfl⟩

theorem after_counted {cs : List ReadCall} (hf : Faithful (reads cs)) : (start.after cs).Counted (reads cs) := by
  induction cs using List.reverseRecOn with
  | nil => exact start_counted
  | append_singleton cs c ih =>
    rw [reads_concat] at hf ⊢
    rw [after, Run.after_append]
    exact (ih hf.prefix).hookedReadFile hf

theorem repeatsFrom_snd : ∀ pre rs : List PackageRead, (repeatsFrom pre rs).map Prod.snd = rs
  | _, [] => rfl
  | pre, b :: rs => by rw [repeatsFrom, List.map_cons, repeatsFrom_snd]

/-- The reads that are such a repeat. -/
def among (r : Repeat) (rs : List PackageRead) : List (Repeat × PackageRead) :=
  (repeatsFrom [] rs).filter fun p => p.1 = r

/-- What a read adds under each name. -/
theorem sumUnder_posted (p : Repeat × PackageRead) :
    sumUnder (posted p) "ReadFile_Package_Reads" = 1 ∧
    sumUnder (posted p) "ReadFile_Package_Bytes" = p.2.bytes ∧
    sumUnder (posted p) "ReadFile_Repeat_SameChunk_60s" = (if p.1 = .sameChunk then 1 else 0) ∧
    sumUnder (posted p) "ReadFile_Repeat_SameChunk_Bytes" = (if p.1 = .sameChunk then p.2.bytes else 0) ∧
    sumUnder (posted p) "ReadFile_Repeat_SamePackage_60s" = (if p.1 = .samePackage then 1 else 0) ∧
    sumUnder (posted p) "ReadFile_Repeat_SamePackage_Bytes" = (if p.1 = .samePackage then p.2.bytes else 0) := by
  obtain ⟨r, b⟩ := p
  cases r <;> simp [posted, Repeat.increments, sumUnder]

/-- In every run the counters tell the reads of packages and their bytes, and of these the reads that had the
same chunk in the last minute, and those that had another chunk of the same package. -/
theorem reads_counted {cs : List ReadCall} (hf : Faithful (reads cs)) :
    let rs := reads cs
    let total := sumUnder (start.after cs).counted
    total "ReadFile_Package_Reads" = rs.length ∧
    total "ReadFile_Package_Bytes" = (rs.map PackageRead.bytes).sum ∧
    total "ReadFile_Repeat_SameChunk_60s" = (among .sameChunk rs).length ∧
    total "ReadFile_Repeat_SameChunk_Bytes" = ((among .sameChunk rs).map fun p => p.2.bytes).sum ∧
    total "ReadFile_Repeat_SamePackage_60s" = (among .samePackage rs).length ∧
    total "ReadFile_Repeat_SamePackage_Bytes" = ((among .samePackage rs).map fun p => p.2.bytes).sum := by
  have hc := (after_counted hf).counted
  simp only [sumUnder_flatMap] at hc
  have hsnd := repeatsFrom_snd [] (reads cs)
  refine ⟨?_, ?_, ?_, ?_, ?_, ?_⟩
  · rw [hc _ (by decide), List.map_congr_left fun p _ => (sumUnder_posted p).1, List.map_const', List.sum_replicate_nat,
      Nat.mul_one, ← List.length_map (f := Prod.snd), hsnd]
  · rw [hc _ (by decide), List.map_congr_left fun p _ => (sumUnder_posted p).2.1]
    nth_rewrite 2 [← hsnd]
    rw [List.map_map]
    rfl
  · rw [hc _ (by decide), List.map_congr_left fun p _ => (sumUnder_posted p).2.2.1, Tally.sum_ite_filter, List.map_const',
      List.sum_replicate_nat, Nat.mul_one]
    rfl
  · rw [hc _ (by decide), List.map_congr_left fun p _ => (sumUnder_posted p).2.2.2.1, Tally.sum_ite_filter]
    rfl
  · rw [hc _ (by decide), List.map_congr_left fun p _ => (sumUnder_posted p).2.2.2.2.1, Tally.sum_ite_filter, List.map_const',
      List.sum_replicate_nat, Nat.mul_one]
    rfl
  · rw [hc _ (by decide), List.map_congr_left fun p _ => (sumUnder_posted p).2.2.2.2.2, Tally.sum_ite_filter]
    rfl

/-- A chunk of a package, the same again, and then another. -/
def sample : List ReadCall :=
  [0, 0, 512].map fun off => ⟨false, true, some (wide "C:\\a.package"), off, true, some 512, 100000 + off, 4096, .ofFile []⟩

theorem reads_counted_sample :
    sumUnder (start.after sample).counted "ReadFile_Package_Bytes" = 1536 ∧
    sumUnder (start.after sample).counted "ReadFile_Repeat_SameChunk_Bytes" = 512 ∧
    sumUnder (start.after sample).counted "ReadFile_Repeat_SamePackage_60s" = 1 := by
  have hf : Faithful (reads sample) := ⟨by decide +kernel, by decide +kernel, by decide +kernel, by decide +kernel⟩
  obtain ⟨-, hbytes, -, hchunk, hpackage, -⟩ := reads_counted hf
  refine ⟨hbytes.trans ?_, hchunk.trans ?_, hpackage.trans ?_⟩
  · decide +kernel
  · decide +kernel
  · decide +kernel

/-! ## Reports of packages -/

instance (slots : ℕ → ℕ) (key n : ℕ) : Decidable (Passed pkgIndex slots key n) :=
  inferInstanceAs (Decidable (∀ q < n, slots (pkgIndex key q) ≠ 0 ∧ slots (pkgIndex key q) ≠ key))

/-- The call of `PackageReportedOnce`, if there is one, does not run out of probes. -/
def Fits (s : ReadObserver) (c : ReadCall) : Prop := ∀ b ∈ c.read?, ¬ Passed pkgIndex s.pkgReported b.loadKey pkgProbes

instance (s : ReadObserver) (c : ReadCall) : Decidable (s.Fits c) :=
  inferInstanceAs (Decidable (∀ b ∈ c.read?, ¬ Passed pkgIndex s.pkgReported b.loadKey pkgProbes))

theorem pkgProbe_cases {slots : ℕ → ℕ} {key : ℕ} : ∀ n p, Passed pkgIndex slots key p →
    ¬ Passed pkgIndex slots key (p + n) →
    (Stored slots key ∧ pkgProbe slots key n p = (true, slots)) ∨
    ∃ q, Passed pkgIndex slots key q ∧ slots (pkgIndex key q) = 0 ∧
      pkgProbe slots key n p = (false, Function.update slots (pkgIndex key q) key)
  | 0, p, hp, hroom => absurd hp hroom
  | n + 1, p, hp, hroom => by
    rw [pkgProbe]
    by_cases hkey : slots (pkgIndex key p) = key
    · rw [if_pos hkey]
      exact .inl ⟨⟨_, hkey⟩, rfl⟩
    rw [if_neg hkey]
    by_cases h0 : slots (pkgIndex key p) = 0
    · rw [if_pos h0]
      exact .inr ⟨p, hp, h0, rfl⟩
    rw [if_neg h0]
    apply pkgProbe_cases n (p + 1) (hp.succ h0 hkey)
    rwa [Nat.add_right_comm, Nat.add_assoc]

/-- After some reads: the table holds the keys of those reported, and these are the first of their key. -/
structure Reported (s : ReadObserver) (rs : List PackageRead) : Prop where
  filled : Filled pkgIndex s.pkgReported
  keys : ∀ k ≠ 0, Stored s.pkgReported k ↔ k ∈ rs.map PackageRead.loadKey
  loads : s.loads = (LastSeen.firsts PackageRead.loadKey rs).map PackageRead.line

theorem load_cases {s : ReadObserver} {b : PackageRead} (hroom : ¬ Passed pkgIndex s.pkgReported b.loadKey pkgProbes) :
    (Stored s.pkgReported b.loadKey ∧ s.load (baseName b.path) b.fileSize = s) ∨
    ∃ q, Passed pkgIndex s.pkgReported b.loadKey q ∧ s.pkgReported (pkgIndex b.loadKey q) = 0 ∧
      s.load (baseName b.path) b.fileSize = { s with
        pkgReported := Function.update s.pkgReported (pkgIndex b.loadKey q) b.loadKey
        loads := s.loads ++ [b.line] }.count b.loaded := by
  have hroom' : ¬ Passed pkgIndex s.pkgReported (remap (keyFromBaseNameW (baseName b.path))) (0 + pkgProbes) := by
    rwa [Nat.zero_add]
  unfold load packageReportedOnce
  rcases pkgProbe_cases pkgProbes 0 Passed.zero hroom' with ⟨hst, e⟩ | ⟨q, hp, h0, e⟩
  · refine .inl ⟨hst, ?_⟩
    rw [e]
    rfl
  · refine .inr ⟨q, hp, h0, ?_⟩
    rw [e]
    rfl

/-- What is under the critical section touches neither the table of reported packages nor the lines. -/
theorem churn_frame (s : ReadObserver) (fileHash off now bytes : ℕ) :
    (s.churn fileHash off now bytes).pkgReported = s.pkgReported ∧ (s.churn fileHash off now bytes).loads = s.loads := by
  unfold churn count
  dsimp only
  split <;> exact ⟨rfl, rfl⟩

theorem count_frame (s : ReadObserver) (incs : List Increment) :
    (s.count incs).pkgReported = s.pkgReported ∧ (s.count incs).loads = s.loads := by
  unfold count
  split <;> exact ⟨rfl, rfl⟩

/-- A read, seen from the table of reported packages, is the report of its package. -/
theorem package_load (s : ReadObserver) (b : PackageRead) : ∃ t : ReadObserver,
    t.pkgReported = s.pkgReported ∧ t.loads = s.loads ∧
      (s.package b).pkgReported = (t.load (baseName b.path) b.fileSize).pkgReported ∧
      (s.package b).loads = (t.load (baseName b.path) b.fileSize).loads := by
  obtain ⟨hp, hl⟩ := count_frame s [⟨"ReadFile_Package_Reads", 1⟩, ⟨"ReadFile_Package_Bytes", b.bytes⟩]
  unfold ReadObserver.package
  dsimp only
  split
  · obtain ⟨hp', hl'⟩ := churn_frame (s.count [⟨"ReadFile_Package_Reads", 1⟩, ⟨"ReadFile_Package_Bytes", b.bytes⟩])
      (hashPathW b.path) b.off b.now b.bytes
    exact ⟨_, hp'.trans hp, hl'.trans hl, rfl, rfl⟩
  · exact ⟨_, hp, hl, rfl, rfl⟩

theorem Reported.package {s : ReadObserver} {rs : List PackageRead} {b : PackageRead} (h : s.Reported rs)
    (hroom : ¬ Passed pkgIndex s.pkgReported b.loadKey pkgProbes) : (s.package b).Reported (rs ++ [b]) := by
  obtain ⟨t, ht, htl, hp, hl⟩ := package_load s b
  have hne : b.loadKey ≠ 0 := remap_ne _
  have hmap : (rs ++ [b]).map PackageRead.loadKey = rs.map PackageRead.loadKey ++ [b.loadKey] := List.map_append
  rw [← ht] at hroom
  rcases load_cases hroom with ⟨hst, e⟩ | ⟨q, hpass, h0, e⟩
  · rw [e] at hp hl
    rw [ht] at hp hst
    have hmem := (h.keys _ hne).1 hst
    refine ⟨hp ▸ h.filled, fun k hk => ?_, ?_⟩
    · rw [hp, h.keys k hk, hmap, List.mem_append, List.mem_singleton]
      constructor
      · exact .inl
      · rintro (hk' | rfl)
        · exact hk'
        · exact hmem
    · rw [hl, htl, h.loads, LastSeen.firsts_concat_of_neg (List.mem_map.1 (LastSeen.mem_firsts_key.2 hmem))]
  · rw [e] at hp hl
    rw [(count_frame _ _).1] at hp
    rw [(count_frame _ _).2] at hl
    dsimp only at hp hl
    rw [ht] at hp hpass h0
    have hnew := h.filled.not_stored hne hpass h0
    rw [h.keys _ hne] at hnew
    obtain ⟨hself, hother⟩ := stored_claim (v := b.loadKey) h0
    refine ⟨hp ▸ h.filled.claim hpass h0, fun k hk => ?_, ?_⟩
    · rw [hp, hmap, List.mem_append, List.mem_singleton]
      by_cases hkb : k = b.loadKey
      · subst hkb
        exact iff_of_true hself (.inr rfl)
      · rw [hother k hk hkb, h.keys k hk, or_iff_left hkb]
    · rw [hl, htl, h.loads, LastSeen.firsts_concat_of_pos, List.map_append, List.map_singleton]
      intro y hy hkey
      exact hnew (LastSeen.mem_firsts_key.1 (List.mem_map.2 ⟨y, hy, hkey⟩))

theorem Reported.hookedReadFile {s : ReadObserver} {rs : List PackageRead} {c : ReadCall} (h : s.Reported rs)
    (hfits : s.Fits c) : (s.hookedReadFile c).Reported (rs ++ c.read?.toList) := by
  cases hread : c.read? with
  | none =>
    obtain ⟨incs, -, hcall⟩ := hookedReadFile_none hread s
    obtain ⟨hp, hl⟩ := count_frame s incs
    rw [hcall, Option.toList_none, List.append_nil]
    exact ⟨hp ▸ h.filled, hp ▸ h.keys, hl.trans h.loads⟩
  | some b =>
    rw [hookedReadFile_some hread]
    exact h.package (hfits b hread)

theorem after_reported : ∀ {cs : List ReadCall} {s : ReadObserver} {rs : List PackageRead}, s.Reported rs →
    Run.Guarded ReadObserver.hookedReadFile Fits s cs → (s.after cs).Reported (rs ++ reads cs)
  | [], _, _, h, _ => by
    rw [reads, List.filterMap_nil, List.append_nil]
    exact h
  | c :: cs, s, rs, h, hg => by
    have ih := after_reported (h.hookedReadFile hg.1) hg.2
    have hcons : reads (c :: cs) = c.read?.toList ++ reads cs := by
      rw [reads, reads]
      cases hread : c.read? <;> simp [hread]
    rw [hcons, ← List.append_assoc]
    exact ih

/-- The counters of the reports agree with the lines. -/
structure Totalled (s : ReadObserver) : Prop where
  analytics : s.analytics = true
  packages : sumUnder s.counted "Packages_Loaded" = s.loads.length
  kilobytes : sumUnder s.counted "Packages_Loaded_KB" = (s.loads.map Prod.snd).sum

/-- Counting under other names. -/
theorem Totalled.other {s t : ReadObserver} (h : s.Totalled) {incs : List Increment} (names : List String)
    (hincs : ∀ i ∈ incs, i.name ∈ names) (hnames : ∀ name ∈ loadCounters, name ∉ names)
    (ha : t.analytics = s.analytics) (hl : t.loads = s.loads) (hc : t.counted = s.counted ++ incs) : t.Totalled := by
  refine ⟨ha.trans h.analytics, ?_, ?_⟩
  · rw [hc, hl, sumUnder_append, h.packages, sumUnder_other hincs (hnames _ (by decide)), Nat.add_zero]
  · rw [hc, hl, sumUnder_append, h.kilobytes, sumUnder_other hincs (hnames _ (by decide)), Nat.add_zero]

theorem Totalled.count {s : ReadObserver} (h : s.Totalled) {incs : List Increment} (names : List String)
    (hincs : ∀ i ∈ incs, i.name ∈ names) (hnames : ∀ name ∈ loadCounters, name ∉ names) : (s.count incs).Totalled := by
  rw [count_on h.analytics]
  exact h.other names hincs hnames rfl rfl rfl

theorem Totalled.churn {s : ReadObserver} (h : s.Totalled) (fileHash off now bytes : ℕ) :
    (s.churn fileHash off now bytes).Totalled := by
  unfold ReadObserver.churn
  dsimp only
  rw [count_on h.analytics]
  refine h.other readCounters ?_ (by decide) rfl rfl rfl
  split
  · simp [readCounters]
  · split <;> simp [readCounters]

theorem Totalled.load {s : ReadObserver} (h : s.Totalled) (base : List ℕ) (fileSize : ℕ) : (s.load base fileSize).Totalled := by
  unfold ReadObserver.load
  dsimp only
  split
  · exact ⟨h.analytics, h.packages, h.kilobytes⟩
  · rw [count_on (by exact h.analytics)]
    refine ⟨h.analytics, ?_, ?_⟩
    · rw [sumUnder_append, h.packages, List.length_append]
      simp [sumUnder]
    · rw [sumUnder_append, h.kilobytes, List.map_append, List.sum_append]
      simp [sumUnder]

theorem Totalled.hookedReadFile {s : ReadObserver} (h : s.Totalled) (c : ReadCall) : (s.hookedReadFile c).Totalled := by
  cases hread : c.read? with
  | none =>
    obtain ⟨incs, hincs, hcall⟩ := hookedReadFile_none hread s
    rw [hcall]
    exact h.count bypassCounters hincs (by decide)
  | some b =>
    rw [hookedReadFile_some hread]
    have hcount : (s.count [⟨"ReadFile_Package_Reads", 1⟩, ⟨"ReadFile_Package_Bytes", b.bytes⟩]).Totalled :=
      h.count readCounters (by simp [readCounters]) (by decide)
    unfold ReadObserver.package
    dsimp only
    split
    · have hload := (hcount.churn (hashPathW b.path) b.off b.now b.bytes).load (baseName b.path) b.fileSize
      exact ⟨hload.analytics, hload.packages, hload.kilobytes⟩
    · have hload := hcount.load (baseName b.path) b.fileSize
      exact ⟨hload.analytics, hload.packages, hload.kilobytes⟩

/-- As long as the table takes every package, each has its line exactly once, at the first of its reads and in
the order of these, and the counters tell how many lines there are and the sum of their sizes. -/
theorem packages_reported_once {cs : List ReadCall} (hg : Run.Guarded ReadObserver.hookedReadFile Fits start cs) :
    let first := LastSeen.firsts PackageRead.loadKey (reads cs)
    (start.after cs).loads = first.map PackageRead.line ∧ (first.map PackageRead.loadKey).Nodup ∧
    (∀ b ∈ reads cs, b.loadKey ∈ first.map PackageRead.loadKey) ∧
    sumUnder (start.after cs).counted "Packages_Loaded" = first.length ∧
    sumUnder (start.after cs).counted "Packages_Loaded_KB" = (first.map fun b => b.fileSize / 1024).sum := by
  have hstart : start.Reported [] := by
    refine ⟨Filled.empty, fun k hk => ?_, rfl⟩
    constructor
    · rintro ⟨i, hi⟩
      exact absurd hi.symm hk
    · rintro ⟨⟩
  have hrun := after_reported hstart hg
  rw [List.nil_append] at hrun
  have htotal : (start.after cs).Totalled := Run.Guarded.invariant (fun _ c h _ => h.hookedReadFile c) ⟨rfl, rfl, rfl⟩ hg
  refine ⟨hrun.loads, LastSeen.firsts_nodup _, fun b hb => ?_, ?_, ?_⟩
  · exact LastSeen.mem_firsts_key.2 (List.mem_map_of_mem hb)
  · rw [htotal.packages, hrun.loads, List.length_map]
  · rw [htotal.kilobytes, hrun.loads, List.map_map]
    rfl

theorem packages_reported_once_sample :
    (start.after sample).loads = [(wide "a.package", 4)] ∧
    sumUnder (start.after sample).counted "Packages_Loaded" = 1 := by
  have hg : Run.Guarded ReadObserver.hookedReadFile Fits start sample := by decide +kernel
  obtain ⟨hloads, -, -, hcount, -⟩ := packages_reported_once hg
  refine ⟨hloads.trans ?_, hcount.trans ?_⟩
  · decide +kernel
  · decide +kernel

end ReadObserver

end Ts3Vas.ObserverHooks
