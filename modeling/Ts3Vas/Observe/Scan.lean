/-
ScanDbpfIndex with every access checked: a read outside the view or a write past `outCap` would stop
it. None ever does, and what it leaves in the table are the exact totals of the entries it has seen.
-/
import Ts3Vas.Observe.Dbpf

namespace Ts3Vas.Dbpf

/-! ## Checked accesses -/

/-- A mapped view: fewer bytes than the address space has. -/
structure View where
  bytes : List UInt8
  size_lt : bytes.length < 2 ^ 32

namespace View

def size (v : View) : ℕ := v.bytes.length

/-- A byte of the view; `none` outside of it. -/
def read (v : View) (i : ℕ) : Option ℕ := v.bytes[i]?.map (·.toNat)

def readU32 (v : View) (o : ℕ) : Option ℕ := do
  let a ← v.read o
  let b ← v.read (o + 1)
  let c ← v.read (o + 2)
  let d ← v.read (o + 3)
  return a + b * 2 ^ 8 + c * 2 ^ 16 + d * 2 ^ 24

def readHeader (v : View) : Option Header := do
  let magic ← (List.range 4).mapM v.read
  let majorVersion ← v.readU32 4
  let indexEntryCount ← v.readU32 36
  let indexOffset ← v.readU32 60
  return ⟨magic, majorVersion, indexEntryCount, indexOffset⟩

end View

/-- A write of one entry of `outStats`, a table of `outCap` entries; `none` past its end. -/
def store (outStats : List DbpfTypeStats) (slot : ℕ) (x : DbpfTypeStats) : Option (List DbpfTypeStats) :=
  if slot < outStats.length then some (outStats.set slot x) else none

/-- The search among the `left` slots from `slot` on: whether one has the type, and where it stopped. -/
def searchSlot (outStats : List DbpfTypeStats) (t : ℕ) : (left slot : ℕ) → Option (Bool × ℕ)
  | 0, slot => some (false, slot)
  | left + 1, slot => do
    let x ← outStats[slot]?
    if x.typeId = t then return (true, slot) else searchSlot outStats t left (slot + 1)

/-- The two sums of a slot. -/
def addTo (outStats : List DbpfTypeStats) (slot s : ℕ) : Option (List DbpfTypeStats) := do
  let x ← outStats[slot]?
  store outStats slot { x with
    entryCount := (x.entryCount + 1) % 2 ^ 32, totalMemBytes := (x.totalMemBytes + s) % 2 ^ 64 }

/-- One turn of the loop over the entries, on `used` and `outStats`. -/
def scanEntry (v : View) (indexOffset : ℕ) (r : ℕ × List DbpfTypeStats) (i : ℕ) : Option (ℕ × List DbpfTypeStats) := do
  let (used, outStats) := r
  let t ← v.readU32 (indexOffset + i * entryBytes)
  let s ← v.readU32 (indexOffset + i * entryBytes + 24)
  let (found, slot) ← searchSlot outStats t used 0
  if found then do
    let outStats ← addTo outStats slot s
    return (used, outStats)
  else if outStats.length ≤ used then return (used, outStats)
  else do
    let outStats ← store outStats used ⟨t, 0, 0⟩
    let outStats ← addTo outStats used s
    return (used + 1, outStats)

/-- `ScanDbpfIndex`, `outCap` being the length of `outStats`: the result and the table after it. -/
def scanDbpfIndexChecked (v : View) (outStats : List DbpfTypeStats) : Option (ℕ × List DbpfTypeStats) :=
  if outStats.length = 0 ∨ v.size < headerBytes then some (0, outStats)
  else do
    let hdr ← v.readHeader
    if ¬ hdr.isDbpf then return (0, outStats)
    else if hdr.indexOffset = 0 ∨ hdr.indexEntryCount = 0 ∨ v.size ≤ hdr.indexOffset then return (0, outStats)
    else
      let maxEntries := (v.size - hdr.indexOffset) / entryBytes
      let entryCount := if maxEntries < hdr.indexEntryCount then maxEntries else hdr.indexEntryCount
      (List.range entryCount).foldlM (scanEntry v hdr.indexOffset) (0, outStats)

/-! ## No access fails -/

theorem View.read_eq {v : View} {i : ℕ} (h : i < v.size) : v.read i = some (byteAt v.bytes i) := by
  unfold View.read byteAt
  rw [List.getElem?_eq_getElem h, List.getD_eq_getElem?_getD, List.getElem?_eq_getElem h]
  rfl

theorem View.readU32_eq {v : View} {o : ℕ} (h : o + 4 ≤ v.size) : v.readU32 o = some (u32 (byteAt v.bytes) o) := by
  unfold View.readU32
  rw [View.read_eq (by omega), View.read_eq (by omega), View.read_eq (by omega), View.read_eq (by omega)]
  rfl

theorem View.readHeader_eq {v : View} (h : headerBytes ≤ v.size) : v.readHeader = some (header (byteAt v.bytes)) := by
  unfold headerBytes at h
  have hmagic : (List.range 4).mapM v.read = some ((List.range 4).map (byteAt v.bytes)) := by
    show [0, 1, 2, 3].mapM v.read = _
    simp only [List.mapM_cons, List.mapM_nil]
    rw [View.read_eq (by omega), View.read_eq (by omega), View.read_eq (by omega), View.read_eq (by omega)]
    rfl
  unfold View.readHeader
  rw [hmagic, View.readU32_eq (by omega), View.readU32_eq (by omega), View.readU32_eq (by omega)]
  rfl

theorem u32_lt (b : List UInt8) (o : ℕ) : u32 (byteAt b) o < 2 ^ 32 := by
  have h : ∀ i, byteAt b i < 2 ^ 8 := fun i => UInt8.toNat_lt _
  have h0 := h o
  have h1 := h (o + 1)
  have h2 := h (o + 2)
  have h3 := h (o + 3)
  unfold u32
  omega

/-- The search over the slots in use finds what `bump` finds. -/
theorem searchSlot_cases (t s : ℕ) (rest : List DbpfTypeStats) : ∀ (stats pre : List DbpfTypeStats),
    (bump t s stats = none ∧
      searchSlot (pre ++ (stats ++ rest)) t stats.length pre.length = some (false, pre.length + stats.length)) ∨
    ∃ a x b, stats = a ++ x :: b ∧ bump t s stats = some (a ++ { x with
        entryCount := (x.entryCount + 1) % 2 ^ 32, totalMemBytes := (x.totalMemBytes + s) % 2 ^ 64 } :: b) ∧
      searchSlot (pre ++ (stats ++ rest)) t stats.length pre.length = some (true, pre.length + a.length)
  | [], pre => .inl ⟨rfl, rfl⟩
  | x :: stats, pre => by
    have hget : (pre ++ (x :: stats ++ rest))[pre.length]? = some x := by simp
    have hstep : searchSlot (pre ++ (x :: stats ++ rest)) t (x :: stats).length pre.length =
        if x.typeId = t then some (true, pre.length)
        else searchSlot (pre ++ (x :: stats ++ rest)) t stats.length (pre.length + 1) := by
      rw [List.length_cons, searchSlot, hget]
      rfl
    rw [hstep, bump]
    by_cases hx : x.typeId = t
    · rw [if_pos hx, if_pos hx]
      exact .inr ⟨[], x, stats, rfl, rfl, rfl⟩
    · rw [if_neg hx, if_neg hx]
      have ih := searchSlot_cases t s rest stats (pre ++ [x])
      rw [List.append_assoc, List.length_append, List.length_singleton] at ih
      rcases ih with ⟨hb, hs⟩ | ⟨a, y, b, rfl, hb, hs⟩
      · left
        rw [hb, List.length_cons, Nat.add_comm stats.length, ← Nat.add_assoc]
        exact ⟨rfl, hs⟩
      · right
        refine ⟨x :: a, y, b, rfl, by rw [hb]; rfl, ?_⟩
        rw [List.length_cons, Nat.add_comm a.length, ← Nat.add_assoc]
        exact hs

theorem addTo_eq (s : ℕ) (a b : List DbpfTypeStats) (x : DbpfTypeStats) : addTo (a ++ x :: b) a.length s =
    some (a ++ { x with
      entryCount := (x.entryCount + 1) % 2 ^ 32, totalMemBytes := (x.totalMemBytes + s) % 2 ^ 64 } :: b) := by
  have hget : (a ++ x :: b)[a.length]? = some x := by simp
  have hlt : a.length < (a ++ x :: b).length := by simp
  unfold addTo
  rw [hget]
  show store _ _ _ = _
  rw [store, if_pos hlt, List.set_append_right _ _ le_rfl, Nat.sub_self]
  rfl

/-- The table while the loop runs: the entries in use, then what the caller had there. -/
def filled (outStats stats : List DbpfTypeStats) : ℕ × List DbpfTypeStats :=
  (stats.length, stats ++ outStats.drop stats.length)

section
variable {v : View} {outStats stats : List DbpfTypeStats} {indexOffset : ℕ}

theorem length_note_le {cap : ℕ} (h : stats.length ≤ cap) (e : ℕ × ℕ) : (note cap stats e).length ≤ cap := by
  unfold note
  rcases bump_cases e.1 e.2 stats with ⟨hb, -⟩ | ⟨pre, x, post, rfl, -, hb⟩
  · rw [hb]
    dsimp only
    split
    · exact h
    · rw [List.length_append, List.length_singleton]; omega
  · rw [hb]
    simpa using h

theorem scanEntry_eq (hfit : stats.length ≤ outStats.length) {i : ℕ} (hi : indexOffset + (i + 1) * entryBytes ≤ v.size) :
    scanEntry v indexOffset (filled outStats stats) i = some (filled outStats (note outStats.length stats
      (typeId (byteAt v.bytes) indexOffset i, memSize (byteAt v.bytes) indexOffset i))) := by
  unfold entryBytes at hi
  have ht : v.readU32 (indexOffset + i * entryBytes) = some (typeId (byteAt v.bytes) indexOffset i) :=
    View.readU32_eq (by unfold entryBytes; omega)
  have hs : v.readU32 (indexOffset + i * entryBytes + 24) = some (memSize (byteAt v.bytes) indexOffset i) :=
    View.readU32_eq (by unfold entryBytes; omega)
  have hlt : memSize (byteAt v.bytes) indexOffset i < 2 ^ 32 := u32_lt _ _
  generalize typeId (byteAt v.bytes) indexOffset i = t at ht ⊢
  generalize memSize (byteAt v.bytes) indexOffset i = s at hs hlt ⊢
  have hlen : (stats ++ outStats.drop stats.length).length = outStats.length := by simp; omega
  have hstep : scanEntry v indexOffset (filled outStats stats) i =
      (searchSlot (stats ++ outStats.drop stats.length) t stats.length 0).bind fun r =>
        if r.1 then (addTo (stats ++ outStats.drop stats.length) r.2 s).bind fun out => some (stats.length, out)
        else if (stats ++ outStats.drop stats.length).length ≤ stats.length then
          some (stats.length, stats ++ outStats.drop stats.length)
        else (store (stats ++ outStats.drop stats.length) stats.length ⟨t, 0, 0⟩).bind fun out =>
          (addTo out stats.length s).bind fun out => some (stats.length + 1, out) := by
    unfold scanEntry
    rw [ht, hs]
    rfl
  rw [hstep, hlen]
  rcases searchSlot_cases t s (outStats.drop stats.length) stats [] with ⟨hb, hsearch⟩ | ⟨a, x, b, rfl, hb, hsearch⟩
  · rw [List.nil_append, List.length_nil] at hsearch
    rw [hsearch, note, hb]
    simp only [Option.bind_some, Bool.false_eq_true, if_false]
    by_cases hcap : outStats.length ≤ stats.length
    · rw [if_pos hcap, if_pos hcap]
      rfl
    · -- the slot after those in use is written, then both sums are raised from zero
      rw [if_neg hcap, if_neg hcap]
      obtain ⟨y, ys, hy⟩ : ∃ y ys, outStats.drop stats.length = y :: ys := by
        cases hd : outStats.drop stats.length with
        | nil => rw [List.drop_eq_nil_iff] at hd; omega
        | cons y ys => exact ⟨y, ys, rfl⟩
      have hdrop : outStats.drop (stats.length + 1) = ys := by
        rw [← List.drop_drop, hy]; rfl
      have hstore : store (stats ++ outStats.drop stats.length) stats.length ⟨t, 0, 0⟩ = some (stats ++ ⟨t, 0, 0⟩ :: ys) := by
        rw [store, hlen, if_pos (by omega), hy, List.set_append_right _ _ le_rfl, Nat.sub_self]
        rfl
      rw [hstore, Option.bind_some, addTo_eq, Option.bind_some, filled, List.length_append, List.length_singleton, hdrop,
        List.append_assoc, Nat.zero_add, Nat.zero_add, Nat.mod_eq_of_lt (by omega : s < 2 ^ 64)]
      rfl
  · rw [List.nil_append, List.length_nil, Nat.zero_add] at hsearch
    rw [hsearch, note, hb]
    simp only [Option.bind_some, if_true]
    rw [List.append_assoc, List.cons_append, addTo_eq, Option.bind_some, filled]
    simp

theorem foldlM_scanEntry (hfit : stats.length ≤ outStats.length) : ∀ n : ℕ, indexOffset + n * entryBytes ≤ v.size →
    (List.range n).foldlM (scanEntry v indexOffset) (filled outStats stats) =
      some (filled outStats (((List.range n).map fun i =>
        (typeId (byteAt v.bytes) indexOffset i, memSize (byteAt v.bytes) indexOffset i)).foldl (note outStats.length) stats)) ∧
    (((List.range n).map fun i =>
        (typeId (byteAt v.bytes) indexOffset i, memSize (byteAt v.bytes) indexOffset i)).foldl
          (note outStats.length) stats).length ≤ outStats.length
  | 0, _ => ⟨rfl, hfit⟩
  | n + 1, h => by
    obtain ⟨ih, hle⟩ := foldlM_scanEntry hfit n (by unfold entryBytes at *; omega)
    rw [List.range_succ, List.foldlM_append, ih, List.map_append, List.foldl_append]
    refine ⟨?_, length_note_le hle _⟩
    show (scanEntry v indexOffset _ n).bind _ = _
    rw [scanEntry_eq hle h]
    rfl

/-- The checked scan always ends, with the table that the plain one computes in front of what the
caller had there. -/
theorem scanDbpfIndexChecked_eq (v : View) (outStats : List DbpfTypeStats) : scanDbpfIndexChecked v outStats =
      some (filled outStats (scanDbpfIndex (byteAt v.bytes) v.size outStats.length)) ∧
    (scanDbpfIndex (byteAt v.bytes) v.size outStats.length).length ≤ outStats.length := by
  have hnone : some (0, outStats) = some (filled outStats []) := rfl
  unfold scanDbpfIndexChecked scanDbpfIndex
  by_cases h1 : outStats.length = 0 ∨ v.size < headerBytes
  · rw [if_pos h1, if_pos h1]
    exact ⟨hnone, Nat.zero_le _⟩
  rw [if_neg h1, if_neg h1, View.readHeader_eq (by omega)]
  generalize hh : header (byteAt v.bytes) = hdr
  simp only [Option.bind_eq_bind, Option.bind_some]
  by_cases h2 : ¬ hdr.isDbpf
  · rw [if_pos h2, if_pos h2]
    exact ⟨hnone, Nat.zero_le _⟩
  rw [if_neg h2, if_neg h2]
  by_cases h3 : hdr.indexOffset = 0 ∨ hdr.indexEntryCount = 0 ∨ v.size ≤ hdr.indexOffset
  · rw [if_pos h3, if_pos h3]
    exact ⟨hnone, Nat.zero_le _⟩
  rw [if_neg h3, if_neg h3]
  -- the loop stops at the last whole entry of the view
  apply foldlM_scanEntry (show ([] : List DbpfTypeStats).length ≤ outStats.length from Nat.zero_le _)
  have hdiv := Nat.div_mul_le_self (v.size - hdr.indexOffset) entryBytes
  unfold entryBytes at *
  split <;> omega

end

/-! ## Exact totals -/

/-- The entries seen so far against the table: the types in order of first appearance as far as they
fit, each with its sums. -/
structure Summed (cap : ℕ) (es : List (ℕ × ℕ)) (stats : List DbpfTypeStats) : Prop where
  types : stats.map (·.typeId) = (es.map (·.1)).eraseDups.take cap
  count : ∀ x ∈ stats, x.entryCount = (es.map (·.1)).count x.typeId % 2 ^ 32
  bytes : ∀ x ∈ stats, x.totalMemBytes = ((es.filter (·.1 = x.typeId)).map (·.2)).sum % 2 ^ 64

theorem eraseDups_append_singleton (l : List ℕ) (t : ℕ) :
    (l ++ [t]).eraseDups = if t ∈ l then l.eraseDups else l.eraseDups ++ [t] := by
  rw [List.eraseDups_append]
  by_cases ht : t ∈ l
  · simp [List.removeAll, ht]
  · simp [List.removeAll, ht, List.eraseDups_cons]

section
variable {cap : ℕ} {es : List (ℕ × ℕ)} {stats : List DbpfTypeStats} {e : ℕ × ℕ}

theorem Summed.nil (cap : ℕ) : Summed cap [] [] := ⟨by simp, by simp, by simp⟩

/-- A slot of another type than the entry's keeps its sums. -/
theorem Summed.other (h : Summed cap es stats) {x : DbpfTypeStats} (hx : x ∈ stats) (hne : x.typeId ≠ e.1) :
    x.entryCount = ((es ++ [e]).map (·.1)).count x.typeId % 2 ^ 32 ∧
      x.totalMemBytes = (((es ++ [e]).filter (·.1 = x.typeId)).map (·.2)).sum % 2 ^ 64 := by
  have hc := h.count x hx
  have hb := h.bytes x hx
  constructor
  · rw [hc, List.map_append, List.count_append, List.map_singleton, List.count_singleton]
    simp [Ne.symm hne]
  · rw [hb, List.filter_append]
    simp [Ne.symm hne]

/-- An entry of a type that has a slot. -/
theorem Summed.bump {pre post : List DbpfTypeStats} {x : DbpfTypeStats} (h : Summed cap es (pre ++ x :: post))
    (hnd : ((pre ++ x :: post).map (·.typeId)).Nodup) (hx : x.typeId = e.1) :
    Summed cap (es ++ [e]) (pre ++ { x with
      entryCount := (x.entryCount + 1) % 2 ^ 32, totalMemBytes := (x.totalMemBytes + e.2) % 2 ^ 64 } :: post) := by
  have hseen : e.1 ∈ es.map (·.1) := by
    have hmem : x.typeId ∈ (es.map (·.1)).eraseDups.take cap :=
      h.types ▸ List.mem_map_of_mem (List.mem_append_right _ (List.mem_cons_self ..))
    exact hx ▸ List.mem_eraseDups.1 (List.mem_of_mem_take hmem)
  rw [List.map_append, List.map_cons, List.nodup_append, List.nodup_cons] at hnd
  have hother : ∀ y ∈ pre ++ post, y.typeId ≠ e.1 := by
    intro y hy
    rcases List.mem_append.1 hy with hy | hy
    · exact hx ▸ hnd.2.2 _ (List.mem_map_of_mem hy) _ (List.mem_cons_self ..)
    · exact fun e' => hnd.2.1.1 (hx ▸ e' ▸ List.mem_map_of_mem hy)
  have hcut : ∀ y ∈ pre ++ { x with
      entryCount := (x.entryCount + 1) % 2 ^ 32, totalMemBytes := (x.totalMemBytes + e.2) % 2 ^ 64 } :: post,
      y.entryCount = ((es ++ [e]).map (·.1)).count y.typeId % 2 ^ 32 ∧
        y.totalMemBytes = (((es ++ [e]).filter (·.1 = y.typeId)).map (·.2)).sum % 2 ^ 64 := by
    intro y hy
    rw [List.mem_append, List.mem_cons] at hy
    rcases hy with hy | rfl | hy
    · exact h.other (List.mem_append_left _ hy) (hother y (List.mem_append_left _ hy))
    · have hc := h.count x (by simp)
      have hb := h.bytes x (by simp)
      dsimp only
      constructor
      · rw [hc, List.map_append, List.count_append, List.map_singleton, hx, List.count_singleton_self, Nat.mod_add_mod]
      · rw [hb, List.filter_append, hx, Nat.mod_add_mod]
        simp
    · exact h.other (List.mem_append_right _ (List.mem_cons_of_mem _ hy)) (hother y (List.mem_append_right _ hy))
  have htypes : (es ++ [e]).map (·.1) = es.map (·.1) ++ [e.1] := by simp
  refine ⟨?_, fun y hy => (hcut y hy).1, fun y hy => (hcut y hy).2⟩
  rw [htypes, eraseDups_append_singleton, if_pos hseen, ← h.types]
  simp

/-- An entry of a type that has no slot: the last slot, or passed over when the table is full. -/
theorem Summed.enter (h : Summed cap es stats) (ht : e.1 ∉ stats.map (·.typeId)) (he : e.2 < 2 ^ 64) :
    Summed cap (es ++ [e]) (if cap ≤ stats.length then stats else stats ++ [⟨e.1, 1, e.2⟩]) := by
  have hkeep : ∀ x ∈ stats, x.entryCount = ((es ++ [e]).map (·.1)).count x.typeId % 2 ^ 32 ∧
      x.totalMemBytes = (((es ++ [e]).filter (·.1 = x.typeId)).map (·.2)).sum % 2 ^ 64 :=
    fun x hx => h.other hx fun e' => ht (e' ▸ List.mem_map_of_mem hx)
  have hlen : stats.length = min cap (es.map (·.1)).eraseDups.length := by
    have := congrArg List.length h.types
    rwa [List.length_map, List.length_take] at this
  by_cases hcap : cap ≤ stats.length
  · rw [if_pos hcap]
    refine ⟨?_, fun x hx => (hkeep x hx).1, fun x hx => (hkeep x hx).2⟩
    rw [List.map_append, List.map_singleton, eraseDups_append_singleton]
    split
    · exact h.types
    · rw [List.take_append_of_le_length (by omega)]
      exact h.types
  · have hall : (es.map (·.1)).eraseDups.take cap = (es.map (·.1)).eraseDups := List.take_of_length_le (by omega)
    have hnew : e.1 ∉ es.map (·.1) := by
      intro hm
      rw [h.types, hall, List.mem_eraseDups] at ht
      exact ht hm
    rw [if_neg hcap]
    refine ⟨?_, ?_, ?_⟩
    · rw [List.map_append, List.map_append, List.map_singleton, List.map_singleton, eraseDups_append_singleton,
        if_neg hnew, h.types, hall, List.take_of_length_le]
      rw [List.length_append, List.length_singleton]
      omega
    · refine List.forall_mem_append.2 ⟨fun x hx => (hkeep x hx).1, List.forall_mem_singleton.2 ?_⟩
      rw [List.map_append, List.count_append, List.count_eq_zero.2 hnew, List.map_singleton, List.count_singleton_self]
      rfl
    · refine List.forall_mem_append.2 ⟨fun x hx => (hkeep x hx).2, List.forall_mem_singleton.2 ?_⟩
      have hnone : es.filter (fun x => decide (x.1 = e.1)) = [] := by
        rw [List.filter_eq_nil_iff]
        intro x hx
        have hne : x.1 ≠ e.1 := fun e' => hnew (e' ▸ List.mem_map_of_mem hx)
        simpa using hne
      have hsum : (((es ++ [e]).filter (·.1 = e.1)).map (·.2)).sum = e.2 := by
        rw [List.filter_append, hnone]
        simp
      dsimp only
      rw [hsum, Nat.mod_eq_of_lt he]

theorem Summed.note (h : Summed cap es stats) (hnd : (stats.map (·.typeId)).Nodup) (he : e.2 < 2 ^ 64) :
    Summed cap (es ++ [e]) (note cap stats e) := by
  unfold Dbpf.note
  rcases bump_cases e.1 e.2 stats with ⟨hb, ht⟩ | ⟨pre, x, post, rfl, hx, hb⟩
  · rw [hb]
    exact h.enter ht he
  · rw [hb]
    exact h.bump hnd hx

/-- The loop over the entries. -/
theorem summed_foldl : ∀ (rest : List (ℕ × ℕ)) {es : List (ℕ × ℕ)} {stats : List DbpfTypeStats}, Summed cap es stats →
    Tabled cap (es.map (·.1)) stats → (∀ e ∈ rest, e.2 < 2 ^ 64) →
    Summed cap (es ++ rest) (rest.foldl (Dbpf.note cap) stats)
  | [], es, stats, h, _, _ => by simpa using h
  | e :: rest, es, stats, h, ht, hr => by
    obtain ⟨he, hr'⟩ := List.forall_mem_cons.1 hr
    have htn := ht.note e
    have hmap : (es ++ [e]).map (·.1) = es.map (·.1) ++ [e.1] := by rw [List.map_append, List.map_singleton]
    rw [← hmap] at htn
    have := summed_foldl rest (h.note ht.nodup he) htn hr'
    rwa [List.append_assoc] at this

end

/-! ## The result -/

/-- A version 2 header that counts entries and places them inside the view, with room for one of them. -/
def View.Indexed (v : View) : Prop :=
  let hdr := header (byteAt v.bytes)
  headerBytes ≤ v.size ∧ hdr.isDbpf ∧ hdr.indexEntryCount ≠ 0 ∧ hdr.indexOffset < v.size ∧
    hdr.indexOffset + entryBytes ≤ v.size

instance (v : View) : Decidable v.Indexed := inferInstanceAs (Decidable (_ ∧ _))

/-- The header says where the index is: an offset of 0 is that of the header itself. -/
def View.Placed (v : View) : Prop := (header (byteAt v.bytes)).indexOffset ≠ 0

instance (v : View) : Decidable v.Placed := inferInstanceAs (Decidable (_ ≠ _))

/-- The first entries of the index, each with its type and size: as many as the header counts and the
view holds whole. -/
def View.entries (v : View) : List (ℕ × ℕ) :=
  let hdr := header (byteAt v.bytes)
  (List.range (min hdr.indexEntryCount ((v.size - hdr.indexOffset) / entryBytes))).map fun i =>
    (typeId (byteAt v.bytes) hdr.indexOffset i, memSize (byteAt v.bytes) hdr.indexOffset i)

/-- The result `r.1` and the table `r.2` of a scan that goes through the entries when `p` holds. -/
structure Aggregated (p : Prop) (v : View) (outStats : List DbpfTypeStats) (r : ℕ × List DbpfTypeStats) : Prop where
  fits : r.1 ≤ outStats.length
  /-- Nothing is written past the slots in use. -/
  beyond : r.2 = r.2.take r.1 ++ outStats.drop r.1
  refused : ¬ p → r.1 = 0
  types : p → (r.2.take r.1).map (·.typeId) = (v.entries.map (·.1)).eraseDups.take outStats.length
  count : p → ∀ x ∈ r.2.take r.1, x.entryCount = (v.entries.map (·.1)).count x.typeId
  bytes : p → ∀ x ∈ r.2.take r.1, x.totalMemBytes = ((v.entries.filter (·.1 = x.typeId)).map (·.2)).sum

theorem View.length_entries (v : View) : v.entries.length ≤ 2 ^ 27 := by
  have h := v.size_lt
  simp only [View.entries, List.length_map, List.length_range, View.size, entryBytes]
  omega

theorem View.entries_lt (v : View) : ∀ e ∈ v.entries, e.2 < 2 ^ 32 := by
  intro e he
  obtain ⟨i, -, rfl⟩ := List.mem_map.1 he
  exact u32_lt _ _

/-- No sum over entries of the view leaves 64 bits. -/
theorem View.sum_lt (v : View) (q : ℕ × ℕ → Bool) : ((v.entries.filter q).map (·.2)).sum < 2 ^ 64 := by
  have hle : ∀ m ∈ (v.entries.filter q).map (·.2), m ≤ 2 ^ 32 := by
    intro m hm
    obtain ⟨e, he, rfl⟩ := List.mem_map.1 hm
    exact (v.entries_lt e (List.mem_of_mem_filter he)).le
  have hsum := List.sum_le_card_nsmul _ _ hle
  have hlen := (List.length_filter_le q v.entries).trans v.length_entries
  rw [List.length_map, smul_eq_mul] at hsum
  calc ((v.entries.filter q).map (·.2)).sum ≤ (v.entries.filter q).length * 2 ^ 32 := hsum
    _ ≤ 2 ^ 27 * 2 ^ 32 := Nat.mul_le_mul_right _ hlen
    _ < 2 ^ 64 := by norm_num

/-- The plain scan: the loop over the entries, or nothing. -/
theorem scanDbpfIndex_eq (v : View) {cap : ℕ} (hcap : cap ≠ 0) : scanDbpfIndex (byteAt v.bytes) v.size cap =
    if v.Indexed ∧ v.Placed then v.entries.foldl (note cap) [] else [] := by
  by_cases hp : v.Indexed ∧ v.Placed
  · rw [if_pos hp]
    obtain ⟨⟨h1, h2, h3, h4, -⟩, h5⟩ := hp
    have hmin : (if (v.size - (header (byteAt v.bytes)).indexOffset) / entryBytes < (header (byteAt v.bytes)).indexEntryCount
        then (v.size - (header (byteAt v.bytes)).indexOffset) / entryBytes else (header (byteAt v.bytes)).indexEntryCount) =
        min (header (byteAt v.bytes)).indexEntryCount ((v.size - (header (byteAt v.bytes)).indexOffset) / entryBytes) := by
      split <;> omega
    have hpast : ¬ ((header (byteAt v.bytes)).indexOffset = 0 ∨ (header (byteAt v.bytes)).indexEntryCount = 0 ∨
        v.size ≤ (header (byteAt v.bytes)).indexOffset) := by
      rintro (h | h | h)
      · exact h5 h
      · exact h3 h
      · omega
    unfold scanDbpfIndex
    rw [if_neg (not_or.2 ⟨hcap, Nat.not_lt.2 h1⟩)]
    dsimp only
    rw [if_neg (not_not.2 h2), if_neg hpast, hmin]
    rfl
  · rw [if_neg hp]
    unfold scanDbpfIndex
    by_cases h1 : v.size < headerBytes
    · rw [if_pos (.inr h1)]
    rw [if_neg (not_or.2 ⟨hcap, h1⟩)]
    dsimp only
    by_cases h2 : (header (byteAt v.bytes)).isDbpf
    · rw [if_neg (not_not.2 h2)]
      split
      · rfl
      · -- past every check the header can only leave no room for a whole entry
        rename_i h3
        rw [not_or, not_or] at h3
        have hroom : (v.size - (header (byteAt v.bytes)).indexOffset) / entryBytes = 0 := by
          rw [Nat.div_eq_zero_iff]
          right
          by_contra hc
          exact hp ⟨⟨by omega, h2, h3.2.1, by omega, by omega⟩, h3.1⟩
        rw [hroom, if_pos (by omega)]
        rfl
    · rw [if_pos h2]

/-- ScanDbpfIndex never reads outside the view nor writes past its table. It goes through the entries
exactly when the header is one of version 2 that counts entries, places them inside the view and behind
an offset that is not 0, with room for one of them; then the table holds the types of the entries in
order of first appearance, as many as it has room for, each with its number of entries and the sum of
their sizes. -/
theorem scanDbpfIndex_aggregated (v : View) (outStats : List DbpfTypeStats) :
    ∃ r, scanDbpfIndexChecked v outStats = some r ∧ Aggregated (v.Indexed ∧ v.Placed) v outStats r := by
  obtain ⟨e, hfit⟩ := scanDbpfIndexChecked_eq v outStats
  refine ⟨_, e, ?_⟩
  generalize hstats : scanDbpfIndex (byteAt v.bytes) v.size outStats.length = stats at hfit
  have htake : (filled outStats stats).2.take (filled outStats stats).1 = stats := List.take_left' rfl
  have hsummed : v.Indexed ∧ v.Placed → Summed outStats.length v.entries stats := by
    intro hp
    by_cases hcap : outStats.length = 0
    · rw [hcap] at hfit ⊢
      rw [List.length_eq_zero_iff.1 (Nat.le_zero.1 hfit)]
      exact ⟨by simp, by simp, by simp⟩
    · rw [← hstats, scanDbpfIndex_eq v hcap, if_pos hp]
      have h := summed_foldl v.entries (.nil outStats.length) (.nil outStats.length) fun e he => by
        have := v.entries_lt e he
        omega
      rwa [List.nil_append] at h
  constructor
  · exact hfit
  · rw [htake]
    rfl
  · intro hp
    by_cases hcap : outStats.length = 0
    · show stats.length = 0
      omega
    · show stats.length = 0
      rw [← hstats, scanDbpfIndex_eq v hcap, if_neg hp]
      rfl
  · intro hp
    rw [htake]
    exact (hsummed hp).types
  · intro hp x hx
    rw [htake] at hx
    have hle := (List.count_le_length (a := x.typeId) (l := v.entries.map (·.1)))
    have hlen := v.length_entries
    rw [List.length_map] at hle
    rw [(hsummed hp).count x hx, Nat.mod_eq_of_lt (by omega)]
  · intro hp x hx
    rw [htake] at hx
    rw [(hsummed hp).bytes x hx, Nat.mod_eq_of_lt (v.sum_lt _)]

/-- A header of one entry at offset 0, and no more. -/
def headerOnly : View :=
  ⟨[0x44, 0x42, 0x50, 0x46] ++ bytes32 2 ++ List.replicate 28 0 ++ bytes32 1 ++ List.replicate 24 0, by decide⟩

/-- At offset 0 lies the header, 64 bytes inside the view; the scan does not take it for an index. -/
theorem not_aggregated_headerOnly : ¬ ∀ (v : View) (outStats : List DbpfTypeStats),
    ∃ r, scanDbpfIndexChecked v outStats = some r ∧ Aggregated v.Indexed v outStats r := by
  intro h
  obtain ⟨r, e, hr⟩ := h headerOnly [⟨0, 0, 0⟩]
  have hscan : scanDbpfIndexChecked headerOnly [⟨0, 0, 0⟩] = some (0, [⟨0, 0, 0⟩]) := by decide +kernel
  obtain rfl : (0, [⟨0, 0, 0⟩]) = r := Option.some.inj (hscan.symm.trans e)
  have htypes := hr.types (by decide +kernel)
  revert htypes
  decide +kernel

end Ts3Vas.Dbpf
