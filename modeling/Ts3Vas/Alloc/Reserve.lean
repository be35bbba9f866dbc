/-
Where an arena is reserved, ReserveArenaContiguous in ProxyAllocator.cpp: a scan of the regions that
VirtualQuery reports in a preferred window at the top of the address space, and VirtualAlloc at an
address of its own choice where the scan finds nothing. The window's end wraps to null.
-/
import Ts3Vas.Alloc.Runs

namespace Ts3Vas

/-! ## The address space -/

/-- A run of pages of one state. -/
structure Region where
  base : ℕ
  size : ℕ
  free : Bool
  deriving DecidableEq, Repr

/-- The regions follow one another from an address on, and none reaches past 4 GB. -/
def Tiling : ℕ → List Region → Prop
  | start, [] => start ≤ 2 ^ 32
  | start, r :: rs => r.base = start ∧ 0 < r.size ∧ Tiling (start + r.size) rs

instance decidableTiling : (start : ℕ) → (rs : List Region) → Decidable (Tiling start rs)
  | start, [] => inferInstanceAs (Decidable (start ≤ 2 ^ 32))
  | start, r :: rs =>
    have := decidableTiling (start + r.size) rs
    inferInstanceAs (Decidable (_ ∧ _ ∧ _))

structure AddressSpace where
  regions : List Region
  lpMinimumApplicationAddress : ℕ
  lpMaximumApplicationAddress : ℕ
  tiling : Tiling 0 regions
  max_lt : lpMaximumApplicationAddress < 2 ^ 32

structure MemoryBasicInformation where
  baseAddress : ℕ
  regionSize : ℕ
  /-- `State == MEM_FREE`. -/
  free : Bool
  deriving DecidableEq, Repr

/-- `VirtualQuery`: the page of the address, and how far its region goes from there; nothing above the
last region. -/
def AddressSpace.virtualQuery (m : AddressSpace) (p : ℕ) : Option MemoryBasicInformation :=
  (m.regions.find? fun r => r.base ≤ p ∧ p < r.base + r.size).map fun r =>
    ⟨p / 4096 * 4096, r.base + r.size - p / 4096 * 4096, r.free⟩

/-! ## The scan -/

def kArenaBase32 : ℕ := 0xC0000000
def kArenaSize : ℕ := 1024 * 1024 * 1024

/-- The loop over the regions from `p` on: what `VirtualAlloc`, a function of the address and the size
that gives null when it fails, reserved at a candidate. Each turn goes up or ends the loop. -/
def scanWindow (m : AddressSpace) (virtualAlloc : ℕ → ℕ → ℕ) (gran want prefEnd p : ℕ) : Option ℕ :=
  if p < prefEnd then
    match m.virtualQuery p with
    | none => none
    | some mbi =>
      let cand := alignUp mbi.baseAddress gran
      let cend := ptrAdd mbi.baseAddress mbi.regionSize
      let reserved := if mbi.free = true ∧ ptrAdd cand want ≤ cend then virtualAlloc cand want else 0
      if reserved ≠ 0 then some reserved
      else if _h : cend ≤ p then none
      else scanWindow m virtualAlloc gran want prefEnd cend
  else none
termination_by 2 ^ 32 - p
decreasing_by
  have hlt : ptrAdd mbi.baseAddress mbi.regionSize < 2 ^ 32 := Nat.mod_lt _ (by decide)
  omega

/-- A reservation: its base, and the trace mark that says which call made it. -/
structure Placement where
  base : ℕ
  mark : ℕ
  deriving DecidableEq, Repr

/-- The trace mark of a reservation in the preferred window. -/
def markWindow : ℕ := 0x1201
/-- The trace mark of a reservation wherever `VirtualAlloc` finds room. -/
def markAny : ℕ := 0x1203
def markFailed : ℕ := 0x12FF

namespace ProxyAllocator

/-- `ReserveArenaContiguous`. -/
def reserveArenaContiguous (s : ProxyAllocator) (m : AddressSpace) (virtualAlloc : ℕ → ℕ → ℕ) (size : ℕ) : Placement :=
  let gran := s.allocGranularity
  let want := alignUp size gran
  let prefStart := kArenaBase32
  let prefEnd := ptrAdd prefStart kArenaSize
  let prefStart := if prefStart < m.lpMinimumApplicationAddress then m.lpMinimumApplicationAddress else prefStart
  let prefEnd := if m.lpMaximumApplicationAddress < prefEnd then m.lpMaximumApplicationAddress else prefEnd
  match scanWindow m virtualAlloc gran want prefEnd prefStart with
  | some reserved => ⟨reserved, markWindow⟩
  | none =>
    let any := virtualAlloc 0 want
    if any ≠ 0 then ⟨any, markAny⟩ else ⟨0, markFailed⟩

/-- `Initialize` with what `ReserveArenaContiguous` reserves. -/
def initializeIn (s : ProxyAllocator) (m : AddressSpace) (virtualAlloc : ℕ → ℕ → ℕ) (arenaSize : ℕ) (mem : Bool) :
    Bool × ProxyAllocator :=
  s.initializeArena arenaSize (s.reserveArenaContiguous m virtualAlloc arenaSize).base mem

end ProxyAllocator

/-! ## The preferred window -/

/-- An address of the window `[0xC0000000, min(2^32, maximum application address))`. -/
def InWindow (m : AddressSpace) (p : ℕ) : Prop := kArenaBase32 ≤ p ∧ p < min (2 ^ 32) m.lpMaximumApplicationAddress

instance (m : AddressSpace) (p : ℕ) : Decidable (InWindow m p) := inferInstanceAs (Decidable (_ ∧ _))

/-- An aligned address of a free region in the window, with room for `want` bytes before the region's end. -/
structure Candidate (m : AddressSpace) (gran want c : ℕ) : Prop where
  aligned : gran ∣ c
  window : InWindow m c
  room : ∃ r ∈ m.regions, r.free = true ∧ r.base ≤ c ∧ c + want ≤ r.base + r.size

/-- There is a candidate, and candidates can be reserved. -/
structure Offered (m : AddressSpace) (virtualAlloc : ℕ → ℕ → ℕ) (gran want : ℕ) : Prop where
  candidate : ∃ c, Candidate m gran want c
  grants : ∀ c, Candidate m gran want c → virtualAlloc c want = c

namespace ProxyAllocator

/-- With a candidate on offer, the arena lies in the window, and not by the choice of `VirtualAlloc`. -/
def Honours (s : ProxyAllocator) (m : AddressSpace) (virtualAlloc : ℕ → ℕ → ℕ) (size : ℕ) : Prop :=
  Offered m virtualAlloc s.allocGranularity (alignUp size s.allocGranularity) →
    InWindow m (s.reserveArenaContiguous m virtualAlloc size).base ∧
      (s.reserveArenaContiguous m virtualAlloc size).mark ≠ markAny

end ProxyAllocator

section
variable {s : ProxyAllocator} {m : AddressSpace} {virtualAlloc : ℕ → ℕ → ℕ} {gran want prefEnd p base size : ℕ}

/-- Whatever the window's end, what the loop returns was reserved at the candidate of a free region
that it met below the end. -/
theorem scanWindow_some (h : scanWindow m virtualAlloc gran want prefEnd p = some base) :
    ∃ q, p ≤ q ∧ q < prefEnd ∧ ∃ mbi, m.virtualQuery q = some mbi ∧ mbi.free = true ∧
      base = virtualAlloc (alignUp mbi.baseAddress gran) want ∧ base ≠ 0 := by
  fun_induction scanWindow m virtualAlloc gran want prefEnd p with
  | case1 p hlt hq => cases h
  | case2 p hlt mbi hq cand cend reserved hres =>
    have hbase : reserved = base := Option.some.inj h
    by_cases hroom : mbi.free = true ∧ ptrAdd cand want ≤ cend
    · have hcand : reserved = virtualAlloc cand want := if_pos hroom
      exact ⟨p, le_rfl, hlt, mbi, hq, hroom.1, hbase ▸ hcand, hbase ▸ hres⟩
    · exact absurd (if_neg hroom) hres
  | case3 p hlt mbi hq cand cend reserved hres hend => cases h
  | case4 p hlt mbi hq cand cend reserved hres hend ih =>
    obtain ⟨q, hpq, hrest⟩ := ih h
    exact ⟨q, by omega, hrest⟩
  | case5 p hlt => cases h

/-- `0xC0000000 + 1 GB` is null in a 32-bit pointer. -/
theorem prefEnd_wraps : ptrAdd kArenaBase32 kArenaSize = 0 := by decide

/-- An empty window is not scanned. -/
theorem scanWindow_zero (m : AddressSpace) (virtualAlloc : ℕ → ℕ → ℕ) (gran want p : ℕ) :
    scanWindow m virtualAlloc gran want 0 p = none := by
  rw [scanWindow, if_neg (Nat.not_lt_zero p)]

namespace ProxyAllocator

/-- The arena is always where `VirtualAlloc` puts it. -/
theorem reserveArenaContiguous_eq (s : ProxyAllocator) (m : AddressSpace) (virtualAlloc : ℕ → ℕ → ℕ) (size : ℕ) :
    s.reserveArenaContiguous m virtualAlloc size = if virtualAlloc 0 (alignUp size s.allocGranularity) ≠ 0 then
      ⟨virtualAlloc 0 (alignUp size s.allocGranularity), markAny⟩ else ⟨0, markFailed⟩ := by
  unfold reserveArenaContiguous
  dsimp only
  rw [prefEnd_wraps, if_neg (Nat.not_lt_zero m.lpMaximumApplicationAddress), scanWindow_zero]

theorem reserveArenaContiguous_base (s : ProxyAllocator) (m : AddressSpace) (virtualAlloc : ℕ → ℕ → ℕ) (size : ℕ) :
    (s.reserveArenaContiguous m virtualAlloc size).base = virtualAlloc 0 (alignUp size s.allocGranularity) := by
  rw [reserveArenaContiguous_eq]
  split
  · rfl
  · rename_i h
    exact (not_not.1 h).symm

/-- So is the arena of an allocator that starts. -/
theorem initializeIn_base {mem : Bool} (hs : Blank s) (h : (s.initializeIn m virtualAlloc size mem).1 = true) :
    (s.initializeIn m virtualAlloc size mem).2.arenaBase = virtualAlloc 0 (alignUp size s.allocGranularity) := by
  obtain ⟨u, -, -, e | e⟩ := hs.initializeArena size (s.reserveArenaContiguous m virtualAlloc size).base mem
  · rw [initializeIn, e] at h
    cases h
  · rw [initializeIn, e, ← reserveArenaContiguous_base s m virtualAlloc size]
    rfl

/-- The preferred range is honoured exactly where it has nothing to offer. -/
theorem honours_iff (s : ProxyAllocator) (m : AddressSpace) (virtualAlloc : ℕ → ℕ → ℕ) (size : ℕ) :
    s.Honours m virtualAlloc size ↔ ¬ Offered m virtualAlloc s.allocGranularity (alignUp size s.allocGranularity) := by
  constructor
  · intro h hoffer
    obtain ⟨hin, hmark⟩ := h hoffer
    rw [reserveArenaContiguous_eq] at hin hmark
    split at hin
    · rename_i hany
      rw [if_pos hany] at hmark
      exact hmark rfl
    · exact absurd hin.1 (by decide)
  · intro h hoffer
    exact absurd hoffer h

/-- The top gigabyte free, as it is for a large-address-aware process under a 64-bit kernel. -/
def topFree : AddressSpace where
  regions := [⟨0, 0xC0000000, false⟩, ⟨0xC0000000, 0x3FFE0000, true⟩]
  lpMinimumApplicationAddress := 0x10000
  lpMaximumApplicationAddress := 0xFFFEFFFF
  tiling := by decide
  max_lt := by decide

/-- A `VirtualAlloc` that grants every request, at 64 MB where it may choose. -/
def grantAll (p _size : ℕ) : ℕ := if p = 0 then 0x4000000 else p

theorem not_honours_topFree : ¬ (construct none none).Honours topFree grantAll 0x1000000 := by
  intro h
  have hoffer : Offered topFree grantAll (construct none none).allocGranularity
      (alignUp 0x1000000 (construct none none).allocGranularity) := by
    refine ⟨⟨0xC0000000, by decide, by decide, ⟨0xC0000000, 0x3FFE0000, true⟩, by decide, by decide⟩, fun c hc => ?_⟩
    have hne : c ≠ 0 := by
      rintro rfl
      exact absurd hc.window (by decide)
    exact if_neg hne
  have hbase := (h hoffer).1
  rw [reserveArenaContiguous_base] at hbase
  exact absurd hbase (by decide)

end ProxyAllocator

end

end Ts3Vas
