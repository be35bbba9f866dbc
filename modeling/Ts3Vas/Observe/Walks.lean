/-
The two loops over VirtualQuery that add regions up: GetProcessMemoryInfo in HeartbeatMonitor.cpp, for the
free address space, and ProxyHeapShardCommitted in WorkingHooks.cpp, for the committed bytes of one
shard's range. Both advance by base + size, which wraps to null where a region ends at 4 GB.
-/
import Ts3Vas.Observe.Heartbeat

namespace Ts3Vas.HeartbeatMonitor

/-! ## The regions -/

/-- Regions that follow one another from an address on, of whole pages each and a size that `SIZE_T`
holds; the last one may end at 2^32. -/
def Tiles : ℕ → List Region → Prop
  | start, [] => start ≤ 2 ^ 32
  | start, r :: rs => r.base = start ∧ (0 < r.size ∧ r.size < 2 ^ 32 ∧ 4096 ∣ r.size) ∧ Tiles (start + r.size) rs

instance decidableTiles : (start : ℕ) → (rs : List Region) → Decidable (Tiles start rs)
  | start, [] => inferInstanceAs (Decidable (start ≤ 2 ^ 32))
  | start, r :: rs =>
    have := decidableTiles (start + r.size) rs
    inferInstanceAs (Decidable (_ ∧ _ ∧ _))

/-- An address of the region. -/
def Holds (r : Region) (x : ℕ) : Prop := r.base ≤ x ∧ x < r.base + r.size

instance (r : Region) (x : ℕ) : Decidable (Holds r x) := inferInstanceAs (Decidable (_ ∧ _))

structure Tiling where
  regions : List Region
  tiles : Tiles 0 regions

namespace Tiling

/-- `VirtualQuery`: the region of an address, and failure above the last region. -/
def virtualQuery (m : Tiling) (a : ℕ) : Option Region := m.regions.find? fun r => Holds r a

end Tiling

section
variable {start a : ℕ} {r q : Region} {rs : List Region}

theorem Tiles.le (h : Tiles start rs) : start ≤ 2 ^ 32 := by
  induction rs generalizing start with
  | nil => exact h
  | cons r rs ih =>
    have := ih h.2.2
    omega

theorem Tiles.base_le (h : Tiles start rs) (hr : r ∈ rs) : start ≤ r.base := by
  induction rs generalizing start with
  | nil => cases hr
  | cons q rs ih =>
    obtain ⟨hbase, hsize, hrest⟩ := h
    rcases List.mem_cons.1 hr with rfl | hr
    · exact hbase.ge
    · have := ih hrest hr
      omega

theorem Tiles.end_le (h : Tiles start rs) (hr : r ∈ rs) : r.base + r.size ≤ 2 ^ 32 := by
  induction rs generalizing start with
  | nil => cases hr
  | cons q rs ih =>
    obtain ⟨hbase, hsize, hrest⟩ := h
    rcases List.mem_cons.1 hr with rfl | hr
    · rw [hbase]
      exact hrest.le
    · exact ih hrest hr

theorem Tiles.pos (h : Tiles start rs) (hr : r ∈ rs) : 0 < r.size := by
  induction rs generalizing start with
  | nil => cases hr
  | cons q rs ih =>
    rcases List.mem_cons.1 hr with rfl | hr
    · exact h.2.1.1
    · exact ih h.2.2 hr

/-- No address lies in two regions. -/
theorem Tiles.sole (h : Tiles start rs) (hr : r ∈ rs) (hq : q ∈ rs) (hra : Holds r a) (hqa : Holds q a) : r = q := by
  unfold Holds at hra hqa
  induction rs generalizing start with
  | nil => cases hr
  | cons s rs ih =>
    obtain ⟨hbase, hsize, hrest⟩ := h
    rcases List.mem_cons.1 hr with rfl | hr' <;> rcases List.mem_cons.1 hq with rfl | hq'
    · rfl
    · have := hrest.base_le hq'
      omega
    · have := hrest.base_le hr'
      omega
    · exact ih hrest hr' hq'

/-- An address that no region holds lies below them all, or above. -/
theorem Tiles.above (h : Tiles start rs) (ha : start ≤ a) (hnone : ∀ r ∈ rs, ¬ Holds r a) (hr : r ∈ rs) :
    r.base + r.size ≤ a := by
  unfold Holds at hnone
  induction rs generalizing start with
  | nil => cases hr
  | cons q rs ih =>
    obtain ⟨hbase, hsize, hrest⟩ := h
    rw [List.forall_mem_cons] at hnone
    rcases List.mem_cons.1 hr with rfl | hr
    · omega
    · exact ih hrest (by omega) hnone.2 hr

end

namespace Tiling

section
variable {m : Tiling} {a : ℕ} {r : Region}

theorem virtualQuery_iff : m.virtualQuery a = some r ↔ r ∈ m.regions ∧ Holds r a := by
  unfold virtualQuery
  constructor
  · intro h
    exact ⟨List.mem_of_find?_eq_some h, by simpa using List.find?_some h⟩
  · rintro ⟨hr, hra⟩
    cases hq : m.regions.find? fun r => Holds r a with
    | none => exact absurd hra (by simpa using List.find?_eq_none.1 hq r hr)
    | some q =>
      have hqa : Holds q a := by simpa using List.find?_some hq
      rw [m.tiles.sole hr (List.mem_of_find?_eq_some hq) hra hqa]

theorem virtualQuery_none (h : m.virtualQuery a = none) (hr : r ∈ m.regions) : r.base + r.size ≤ a := by
  refine m.tiles.above (Nat.zero_le a) ?_ hr
  intro q hq hqa
  rw [virtualQuery_iff.2 ⟨hq, hqa⟩] at h
  cases h

end

/-! ## The loops -/

/-- The loop of `GetProcessMemoryInfo`, for any answers of `VirtualQuery`. -/
def freeLoop (virtualQuery : ℕ → Option Region) (addr : ℕ) (acc : ℕ × ℕ) : ℕ × ℕ :=
  match virtualQuery addr with
  | none => acc
  | some mbi =>
    let acc := sample acc mbi
    let next := add32 mbi.base mbi.size
    if _h : next ≤ addr then acc else freeLoop virtualQuery next acc
termination_by 2 ^ 32 - addr
decreasing_by
  have hlt : add32 mbi.base mbi.size < 2 ^ 32 := Nat.mod_lt _ (by decide)
  omega

/-- `GetProcessMemoryInfo`: `availableVAS` and `largestFreeBlock`. -/
def getProcessMemoryInfo (m : Tiling) : ℕ × ℕ := freeLoop m.virtualQuery 0 (0, 0)

/-- Subtraction of 32-bit words. -/
def sub32 (a b : ℕ) : ℕ := (a + (2 ^ 32 - b)) % 2 ^ 32

theorem advances {m : Tiling} {lo a : ℕ} {mbi : Region} (h : m.virtualQuery a = some mbi) (hnext : lo < add32 mbi.base mbi.size) :
    a < add32 mbi.base mbi.size := by
  obtain ⟨hr, hra⟩ := virtualQuery_iff.1 h
  have hend := m.tiles.end_le hr
  unfold Holds at hra
  unfold add32 at hnext ⊢
  omega

/-- What the loop of `ProxyHeapShardCommitted` adds for the region of `a`. -/
def addRegion (hi a committed : ℕ) (mbi : Region) : ℕ :=
  let rEnd := add32 mbi.base mbi.size
  let rEnd := if hi < rEnd then hi else rEnd
  if mbi.state = .commit then add32 committed (sub32 rEnd a) else committed

/-- The loop of `ProxyHeapShardCommitted` from `a` on. It ends by itself only above `hi`, and its break
looks back to `lo`; the regions make it advance. -/
def committedLoop (m : Tiling) (lo hi a committed : ℕ) : ℕ :=
  if a < hi then
    match _hq : m.virtualQuery a with
    | none => committed
    | some mbi =>
      let committed := addRegion hi a committed mbi
      let next := add32 mbi.base mbi.size
      if _h : next ≤ lo then committed else committedLoop m lo hi next committed
  else committed
termination_by hi - a
decreasing_by
  have hnext := advances _hq (Nat.lt_of_not_le _h)
  omega

/-- `ProxyHeapShardCommitted`. -/
def proxyHeapShardCommitted (m : Tiling) (lo hi : ℕ) : ℕ := committedLoop m lo hi lo 0

/-! ## The free regions -/

end Tiling

def largestFree (rs : List Region) : ℕ := ((rs.filter (·.state = .free)).map (·.size)).foldr max 0

theorem largestFree_cons (r : Region) (rs : List Region) :
    largestFree (r :: rs) = max (if r.state = .free then r.size else 0) (largestFree rs) := by
  by_cases hr : r.state = .free <;> simp [largestFree, hr]

/-- What the loop adds up, in 32 bits, and the largest it meets. -/
theorem foldl_sample_eq (rs : List Region) (acc : ℕ × ℕ) (hacc : acc.1 < 2 ^ 32) :
    rs.foldl sample acc = ((acc.1 + sumFree id rs) % 2 ^ 32, max acc.2 (largestFree rs)) := by
  induction rs generalizing acc with
  | nil => exact Prod.ext (Nat.mod_eq_of_lt hacc).symm (Nat.max_zero _).symm
  | cons r rs ih =>
    rw [List.foldl_cons, sumFree_cons, largestFree_cons]
    by_cases hr : r.state = .free
    · have hmax : (if acc.2 < r.size then r.size else acc.2) = max acc.2 r.size := by split <;> omega
      have hstep : sample acc r = (add32 acc.1 r.size, max acc.2 r.size) := by rw [sample, if_pos hr, hmax]
      have hlt : add32 acc.1 r.size < 2 ^ 32 := Nat.mod_lt _ (by decide)
      rw [hstep, ih _ hlt, if_pos hr, if_pos hr, add32, id_eq, Nat.mod_add_mod, Nat.add_assoc, max_assoc]
    · have hstep : sample acc r = acc := by rw [sample, if_neg hr]
      rw [hstep, ih _ hacc, if_neg hr, if_neg hr, Nat.zero_add, Nat.zero_max]

theorem Tiles.eq_nil {rs : List Region} (h : Tiles (2 ^ 32) rs) : rs = [] := by
  cases rs with
  | nil => rfl
  | cons r rs =>
    have := h.2.2.le
    have := h.2.1.1
    omega

namespace Tiling

section
variable {m : Tiling}

/-- From the start of a region on, the loop meets the regions that are left, one that ends at 2^32 too. -/
theorem freeLoop_suffix {rs : List Region} {addr : ℕ} (hrs : Tiles addr rs) (hsub : ∀ r ∈ rs, r ∈ m.regions)
    (hlast : ∀ r ∈ m.regions, r.base + r.size ≤ addr ∨ r ∈ rs) (haddr : addr < 2 ^ 32) (acc : ℕ × ℕ) :
    freeLoop m.virtualQuery addr acc = rs.foldl sample acc := by
  induction rs generalizing addr acc with
  | nil =>
    have hnone : m.virtualQuery addr = none := by
      cases hq : m.virtualQuery addr with
      | none => rfl
      | some q =>
        obtain ⟨hq, hqa⟩ := virtualQuery_iff.1 hq
        have hend : q.base + q.size ≤ addr := (hlast q hq).resolve_right List.not_mem_nil
        exact absurd hqa.2 (by omega)
    rw [freeLoop, hnone, List.foldl_nil]
  | cons r rs ih =>
    obtain ⟨rfl, ⟨hpos, hlt, -⟩, hrest⟩ := hrs
    have hquery : m.virtualQuery r.base = some r :=
      virtualQuery_iff.2 ⟨hsub r List.mem_cons_self, le_rfl, by omega⟩
    rw [freeLoop, hquery, List.foldl_cons]
    rcases hrest.le.lt_or_eq with hend | hend
    · have hnext : add32 r.base r.size = r.base + r.size := Nat.mod_eq_of_lt hend
      simp only [hnext]
      rw [dif_neg (by omega)]
      refine ih hrest (fun q hq => hsub q (List.mem_cons_of_mem _ hq)) ?_ hend _
      intro q hq
      rcases hlast q hq with h | h
      · exact .inl (by omega)
      · rcases List.mem_cons.1 h with rfl | h
        · exact .inl le_rfl
        · exact .inr h
    · -- the region ends at 2^32: the next address is null, and no region is left
      have hnext : add32 r.base r.size = 0 := by rw [add32, hend, Nat.mod_self]
      rw [hend] at hrest
      simp only [hnext]
      rw [dif_pos (Nat.zero_le _), hrest.eq_nil, List.foldl_nil]

theorem getProcessMemoryInfo_eq (m : Tiling) :
    m.getProcessMemoryInfo = (sumFree id m.regions % 2 ^ 32, largestFree m.regions) := by
  unfold getProcessMemoryInfo
  rw [freeLoop_suffix m.tiles (fun _ h => h) (fun _ h => .inr h) (by decide), foldl_sample_eq _ _ (by decide),
    Nat.zero_add, Nat.zero_max]

/-- Below 2^32 the loop is the one over the list of regions. -/
theorem getProcessMemoryInfo_walk (m : Tiling) (space : AddressSpace) (h : space.regions = m.regions) :
    m.getProcessMemoryInfo = HeartbeatMonitor.getProcessMemoryInfo space := by
  unfold getProcessMemoryInfo HeartbeatMonitor.getProcessMemoryInfo
  rw [freeLoop_suffix m.tiles (fun _ h => h) (fun _ h => .inr h) (by decide), walk_eq space.follows, h]

end

/-! ## The committed bytes -/

/-- The byte at an address is committed. -/
def Committed (m : Tiling) (x : ℕ) : Prop := ∃ r ∈ m.regions, r.state = .commit ∧ Holds r x

instance (m : Tiling) (x : ℕ) : Decidable (m.Committed x) := inferInstanceAs (Decidable (∃ r ∈ m.regions, _))

/-- The committed bytes of a range. -/
def committedBytes (m : Tiling) (lo hi : ℕ) : ℕ := ((Finset.Ico lo hi).filter m.Committed).card

/-- A committed region that begins below `hi` ends at 2^32. -/
def Overruns (m : Tiling) (hi : ℕ) : Prop := ∃ r ∈ m.regions, r.state = .commit ∧ r.base < hi ∧ r.base + r.size = 2 ^ 32

instance (m : Tiling) (hi : ℕ) : Decidable (m.Overruns hi) := inferInstanceAs (Decidable (∃ r ∈ m.regions, _))

section
variable {m : Tiling} {lo hi a b : ℕ} {r : Region}

theorem committedBytes_le (m : Tiling) (lo hi : ℕ) : m.committedBytes lo hi ≤ hi - lo := by
  have := Finset.card_filter_le (Finset.Ico lo hi) m.Committed
  rwa [Nat.card_Ico] at this

theorem committedBytes_empty (m : Tiling) (h : hi ≤ a) : m.committedBytes a hi = 0 := by
  have := m.committedBytes_le a hi
  omega

theorem committedBytes_split (m : Tiling) (hab : a ≤ b) (hb : b ≤ hi) :
    m.committedBytes a hi = m.committedBytes a b + m.committedBytes b hi := by
  unfold committedBytes
  rw [← Finset.Ico_union_Ico_eq_Ico hab hb, Finset.filter_union, Finset.card_union_of_disjoint]
  exact Finset.disjoint_filter_filter (Finset.Ico_disjoint_Ico_consecutive a b hi)

theorem committed_iff (hr : r ∈ m.regions) (ha : Holds r a) : m.Committed a ↔ r.state = .commit := by
  constructor
  · rintro ⟨q, hq, hstate, hqa⟩
    rwa [m.tiles.sole hr hq ha hqa]
  · intro h
    exact ⟨r, hr, h, ha⟩

/-- Within one region, all bytes are committed or none is. -/
theorem committedBytes_region (hr : r ∈ m.regions) (ha : r.base ≤ a) (hb : b ≤ r.base + r.size) :
    m.committedBytes a b = if r.state = .commit then b - a else 0 := by
  have hsame : ∀ x ∈ Finset.Ico a b, m.Committed x ↔ r.state = .commit := by
    intro x hx
    rw [Finset.mem_Ico] at hx
    exact committed_iff hr ⟨ha.trans hx.1, hx.2.trans_le hb⟩
  unfold committedBytes
  rw [Finset.filter_congr hsame]
  split
  · next h => simp [h]
  · next h => simp [h]

/-- The step of the loop: the part of `[a, hi)` in the region of `a`, and the rest. -/
theorem committedBytes_step (h : m.virtualQuery a = some r) (hlt : a < hi) : m.committedBytes a hi =
    (if r.state = .commit then min (r.base + r.size) hi - a else 0) + m.committedBytes (min (r.base + r.size) hi) hi := by
  obtain ⟨hr, hra⟩ := virtualQuery_iff.1 h
  have hend := hra.2
  rw [committedBytes_split m (le_min hend.le hlt.le) (min_le_right _ _),
    committedBytes_region hr hra.1 (min_le_left _ _)]

theorem committedBytes_none (h : m.virtualQuery a = none) : m.committedBytes a hi = 0 := by
  unfold committedBytes
  rw [Finset.card_eq_zero, Finset.filter_eq_empty_iff]
  rintro x hx ⟨r, hr, -, hra⟩
  have hend := virtualQuery_none h hr
  have hlt := hra.2
  rw [Finset.mem_Ico] at hx
  omega

/-- The region that would overrun is the last one, which a walk below `hi` comes to. -/
theorem overruns_iff (h : m.virtualQuery a = some r) (hlt : a < hi) (hend : r.base + r.size = 2 ^ 32) :
    m.Overruns hi ↔ r.state = .commit := by
  obtain ⟨hr, hra⟩ := virtualQuery_iff.1 h
  unfold Holds at hra
  constructor
  · rintro ⟨q, hq, hstate, -, hqend⟩
    have hpos := m.tiles.pos hq
    have hrtop : Holds r (2 ^ 32 - 1) := ⟨by omega, by omega⟩
    have hqtop : Holds q (2 ^ 32 - 1) := ⟨by omega, by omega⟩
    rwa [m.tiles.sole hr hq hrtop hqtop]
  · intro hstate
    exact ⟨r, hr, hstate, by omega, hend⟩

/-- Past a region that ends below 2^32, nothing changes about that. -/
theorem overruns_past (h : m.virtualQuery a = some r) (hend : r.base + r.size ≠ 2 ^ 32) (hhi : hi ≤ r.base + r.size) :
    ¬ m.Overruns hi := by
  rintro ⟨q, hq, -, hbase, hqend⟩
  have hr := (virtualQuery_iff.1 h).1
  have hpos := m.tiles.pos hr
  have hle := m.tiles.end_le hr
  have hrlast : Holds r (r.base + r.size - 1) := ⟨by omega, by omega⟩
  have hqlast : Holds q (r.base + r.size - 1) := ⟨by omega, by omega⟩
  rw [m.tiles.sole hr hq hrlast hqlast] at hend
  exact hend hqend

theorem addRegion_cut {mbi : Region} {committed : ℕ} (ha : Holds mbi a) (hlt : a < hi) (hhi : hi < 2 ^ 32)
    (hend : mbi.base + mbi.size < 2 ^ 32) (hc : committed < 2 ^ 32) : addRegion hi a committed mbi =
      (committed + if mbi.state = .commit then min (mbi.base + mbi.size) hi - a else 0) % 2 ^ 32 := by
  have hnext : add32 mbi.base mbi.size = mbi.base + mbi.size := Nat.mod_eq_of_lt hend
  have hcut : (if hi < mbi.base + mbi.size then hi else mbi.base + mbi.size) = min (mbi.base + mbi.size) hi := by
    split <;> omega
  have hle : a ≤ min (mbi.base + mbi.size) hi := le_min ha.2.le hlt.le
  unfold addRegion
  simp only [hnext, hcut]
  split
  · rw [add32, sub32]
    omega
  · rw [Nat.add_zero, Nat.mod_eq_of_lt hc]

/-- At the top of the address space the end of the region has wrapped, and nothing cuts it. -/
theorem addRegion_wrapped {mbi : Region} {committed : ℕ} (ha : Holds mbi a) (hend : mbi.base + mbi.size = 2 ^ 32)
    (hc : committed < 2 ^ 32) : addRegion hi a committed mbi =
      (committed + if mbi.state = .commit then 2 ^ 32 - a else 0) % 2 ^ 32 := by
  have hnext : add32 mbi.base mbi.size = 0 := by rw [add32, hend, Nat.mod_self]
  have hlt := ha.2
  unfold addRegion
  simp only [hnext, Nat.not_lt_zero, if_false]
  split
  · rw [add32, sub32]
    omega
  · rw [Nat.add_zero, Nat.mod_eq_of_lt hc]

theorem addRegion_lt {mbi : Region} {committed : ℕ} (hc : committed < 2 ^ 32) : addRegion hi a committed mbi < 2 ^ 32 := by
  unfold addRegion
  dsimp only
  split
  · exact Nat.mod_lt _ (by decide)
  · exact hc

/-- What the loop returns: beyond the committed bytes, what lies between `hi` and 2^32 where the last
region overruns, as its end wraps to null and is not cut at `hi`. -/
theorem committedLoop_eq (hlo : lo ≤ a) (hhi : hi < 2 ^ 32) {committed : ℕ} (hc : committed < 2 ^ 32) :
    committedLoop m lo hi a committed =
      (committed + m.committedBytes a hi + if a < hi ∧ m.Overruns hi then 2 ^ 32 - hi else 0) % 2 ^ 32 := by
  fun_induction committedLoop m lo hi a committed with
  | case1 a committed hlt hq =>
    have hover : ¬ m.Overruns hi := by
      rintro ⟨r, hr, -, -, hend⟩
      have := virtualQuery_none hq hr
      omega
    rw [committedBytes_none hq, if_neg (fun h => hover h.2), Nat.add_zero, Nat.mod_eq_of_lt hc]
  | case2 a committed hlt mbi hq committed' next hnext =>
    -- the address has wrapped: this is the last region
    obtain ⟨hr, hra⟩ := virtualQuery_iff.1 hq
    have hend : mbi.base + mbi.size = 2 ^ 32 := by
      have := m.tiles.end_le hr
      have := hra.2
      by_contra hne
      have hnext' : next = mbi.base + mbi.size := Nat.mod_eq_of_lt (by omega)
      omega
    have hbytes := committedBytes_step hq hlt
    rw [hend, Nat.min_eq_right hhi.le] at hbytes
    have hcommit : (a < hi ∧ m.Overruns hi) ↔ mbi.state = .commit := by
      rw [overruns_iff hq hlt hend]
      exact and_iff_right hlt
    have hadd : committed' = _ := addRegion_wrapped hra hend hc
    rw [hadd, hbytes, committedBytes_empty m le_rfl, if_congr hcommit rfl rfl]
    split
    · congr 1
      omega
    · rfl
  | case3 a committed hlt mbi hq committed' next hnext ih =>
    obtain ⟨hr, hra⟩ := virtualQuery_iff.1 hq
    have hend : mbi.base + mbi.size < 2 ^ 32 := by
      refine (m.tiles.end_le hr).lt_of_ne fun h => hnext ?_
      have : next = 0 := by simp only [next, add32, h, Nat.mod_self]
      omega
    have hnext' : next = mbi.base + mbi.size := Nat.mod_eq_of_lt hend
    have hadd : committed' = _ := addRegion_cut hra hlt hhi hend hc
    have hlater : m.committedBytes (min (mbi.base + mbi.size) hi) hi = m.committedBytes next hi := by
      rcases lt_or_ge next hi with hbelow | habove
      · rw [← hnext', Nat.min_eq_left hbelow.le]
      · rw [committedBytes_empty m habove, ← hnext', Nat.min_eq_right habove, committedBytes_empty m le_rfl]
    have hover : (a < hi ∧ m.Overruns hi) ↔ (next < hi ∧ m.Overruns hi) := by
      constructor
      · rintro ⟨-, h⟩
        refine ⟨Nat.lt_of_not_le fun habove => ?_, h⟩
        exact overruns_past hq hend.ne (habove.trans_eq hnext') h
      · rintro ⟨-, h⟩
        exact ⟨hlt, h⟩
    rw [ih (by omega) (addRegion_lt hc), committedBytes_step hq hlt, hlater, if_congr hover rfl rfl, hadd]
    simp only [Nat.add_assoc, Nat.mod_add_mod]
  | case4 a committed hlt =>
    rw [committedBytes_empty m (Nat.le_of_not_lt hlt), if_neg (fun h => hlt h.1), Nat.add_zero, Nat.mod_eq_of_lt hc]

theorem proxyHeapShardCommitted_eq (m : Tiling) (hlt : lo < hi) (hhi : hi < 2 ^ 32) : m.proxyHeapShardCommitted lo hi =
    (m.committedBytes lo hi + if m.Overruns hi then 2 ^ 32 - hi else 0) % 2 ^ 32 := by
  unfold proxyHeapShardCommitted
  rw [committedLoop_eq le_rfl hhi (by decide), Nat.zero_add, if_congr (and_iff_right hlt) rfl rfl]

/-- The free walk is exact unless all 4 GB are free, and the committed walk unless it overruns. -/
theorem walks_exact_iff (m : Tiling) (hlt : lo < hi) (hhi : hi < 2 ^ 32) :
    (m.getProcessMemoryInfo = (sumFree id m.regions, largestFree m.regions) ↔ sumFree id m.regions < 2 ^ 32) ∧
      (m.proxyHeapShardCommitted lo hi = m.committedBytes lo hi ↔ ¬ m.Overruns hi) := by
  constructor
  · rw [getProcessMemoryInfo_eq, Prod.mk.injEq, and_iff_left rfl]
    constructor
    · intro h
      rw [← h]
      exact Nat.mod_lt _ (by decide)
    · exact Nat.mod_eq_of_lt
  · have hle := m.committedBytes_le lo hi
    rw [proxyHeapShardCommitted_eq m hlt hhi]
    split
    · next hover =>
      refine ⟨fun h => ?_, fun h => absurd hover h⟩
      omega
    · next hover =>
      rw [Nat.add_zero]
      exact ⟨fun _ => hover, fun _ => Nat.mod_eq_of_lt (by omega)⟩

end

/-- 64 KB are committed at the top of the address space, and nothing else. -/
def top : Tiling := ⟨[⟨0, 0xFFFF0000, .free, .priv⟩, ⟨0xFFFF0000, 0x10000, .commit, .priv⟩], by decide⟩

theorem walks_exact_top :
    (top.getProcessMemoryInfo = (sumFree id top.regions, largestFree top.regions) ↔ sumFree id top.regions < 2 ^ 32) ∧
      (top.proxyHeapShardCommitted 0xFFFF0000 0xFFFF8000 = top.committedBytes 0xFFFF0000 0xFFFF8000 ↔
        ¬ top.Overruns 0xFFFF8000) :=
  walks_exact_iff top (by decide) (by decide)

/-- Of a range of 32 KB, 64 KB are reported as committed. -/
theorem proxyHeapShardCommitted_overruns : top.proxyHeapShardCommitted 0xFFFF0000 0xFFFF8000 = 0x10000 ∧
    top.committedBytes 0xFFFF0000 0xFFFF8000 = 0x8000 := by
  have hbytes : top.committedBytes 0xFFFF0000 0xFFFF8000 = 0x8000 :=
    committedBytes_region (r := ⟨0xFFFF0000, 0x10000, .commit, .priv⟩) (by decide) (by decide) (by decide)
  have hover : top.Overruns 0xFFFF8000 := by decide
  rw [proxyHeapShardCommitted_eq top (by decide) (by decide), hbytes, if_pos hover]
  exact ⟨rfl, rfl⟩

end Tiling

end Ts3Vas.HeartbeatMonitor
