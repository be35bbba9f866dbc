/-
The two scanners of a package's DBPF index: ScanDbpfIndex over a mapped view, with a table of so many
types, and ScanPackageForScript over ReadFile, batch by batch.
-/
import Ts3Vas.Lib.Admit

namespace Ts3Vas.Dbpf

open Admit

/-! ## The format -/

/-- A byte of a file; what lies past its end reads as zero. -/
def byteAt (b : List UInt8) (i : ℕ) : ℕ := (b.getD i 0).toNat

/-- The little-endian word at an offset. -/
def u32 (mem : ℕ → ℕ) (o : ℕ) : ℕ := mem o + mem (o + 1) * 2 ^ 8 + mem (o + 2) * 2 ^ 16 + mem (o + 3) * 2 ^ 24

/-- The fields of `S3DbpfHeader` and `DbpfHeaderMV` that are looked at. -/
structure Header where
  magic : List ℕ
  majorVersion : ℕ
  indexEntryCount : ℕ
  indexOffset : ℕ
  deriving DecidableEq, Repr

def header (mem : ℕ → ℕ) : Header := ⟨(List.range 4).map mem, u32 mem 4, u32 mem 36, u32 mem 60⟩

/-- `sizeof(S3DbpfHeader)` and `sizeof(DbpfHeaderMV)`. -/
def headerBytes : ℕ := 64
/-- `sizeof(S3DbpfEntry)` and `sizeof(DbpfIndexEntryMV)`. -/
def entryBytes : ℕ := 32

/-- `DBPF`, version 2. -/
def Header.isDbpf (h : Header) : Prop := h.magic = [0x44, 0x42, 0x50, 0x46] ∧ h.majorVersion = 2

instance (h : Header) : Decidable h.isDbpf := inferInstanceAs (Decidable (_ ∧ _))

/-- The `typeId` of an index entry, the first of its words. -/
def typeId (mem : ℕ → ℕ) (indexOffset i : ℕ) : ℕ := u32 mem (indexOffset + i * entryBytes)

def memSize (mem : ℕ → ℕ) (indexOffset i : ℕ) : ℕ := u32 mem (indexOffset + i * entryBytes + 24)

def kDbpfTypeScript : ℕ := 0x0175e5cd
def kDbpfTypeScriptSym : ℕ := 0x0175e5d9
def kDbpfTypeS3SAMod : ℕ := 0x073faa07
def kDbpfTypeXml : ℕ := 0x0333406c

def isScript (t : ℕ) : Bool := t = kDbpfTypeScript || t = kDbpfTypeScriptSym || t = kDbpfTypeS3SAMod

/-! ## The mapped view -/

structure DbpfTypeStats where
  typeId : ℕ
  entryCount : ℕ
  totalMemBytes : ℕ
  deriving DecidableEq, Repr

/-- The search for the slot of a type, and the count in it. -/
def bump (t s : ℕ) : List DbpfTypeStats → Option (List DbpfTypeStats)
  | [] => none
  | x :: xs =>
    if x.typeId = t then
      some ({ x with entryCount := (x.entryCount + 1) % 2 ^ 32, totalMemBytes := (x.totalMemBytes + s) % 2 ^ 64 } :: xs)
    else (bump t s xs).map (x :: ·)

/-- One index entry; a type that comes when the table is full is passed over. -/
def note (outCap : ℕ) (stats : List DbpfTypeStats) (e : ℕ × ℕ) : List DbpfTypeStats :=
  match bump e.1 e.2 stats with
  | some stats => stats
  | none => if outCap ≤ stats.length then stats else stats ++ [⟨e.1, 1, e.2⟩]

/-- `ScanDbpfIndex`: the first `used` entries of `outStats`. -/
def scanDbpfIndex (viewBase : ℕ → ℕ) (viewSize outCap : ℕ) : List DbpfTypeStats :=
  if outCap = 0 ∨ viewSize < headerBytes then []
  else
    let hdr := header viewBase
    if ¬ hdr.isDbpf then []
    else if hdr.indexOffset = 0 ∨ hdr.indexEntryCount = 0 ∨ viewSize ≤ hdr.indexOffset then []
    else
      let maxEntries := (viewSize - hdr.indexOffset) / entryBytes
      let entryCount := if maxEntries < hdr.indexEntryCount then maxEntries else hdr.indexEntryCount
      ((List.range entryCount).map fun i => (typeId viewBase hdr.indexOffset i, memSize viewBase hdr.indexOffset i)).foldl
        (note outCap) []

/-- The capacity of `typeStats` in the mapping hooks. -/
def kMaxTypeStats : ℕ := 128

/-- `TypeStatsHaveScript`. -/
def typeStatsHaveScript (stats : List DbpfTypeStats) : Bool := stats.any fun x => isScript x.typeId

/-- What a scanner found: script resources of the three kinds, and XML tuning. -/
structure Resources where
  script : ℕ
  xml : ℕ
  deriving DecidableEq, Repr

/-- One of the 32-bit tallies of `ProbeScriptAssembly`. -/
def tally (stats : List DbpfTypeStats) (t : ℕ) : ℕ :=
  stats.foldl (fun n x => if x.typeId = t then (n + x.entryCount) % 2 ^ 32 else n) 0

/-- The resources that `ProbeScriptAssembly` counts. -/
def resources (stats : List DbpfTypeStats) : Resources where
  script := (tally stats kDbpfTypeScript + tally stats kDbpfTypeScriptSym + tally stats kDbpfTypeS3SAMod) % 2 ^ 32
  xml := tally stats kDbpfTypeXml

/-! ## ReadFile -/

/-- What the system does with the handle that the scan opens. A read never gives more than was asked for. -/
structure Disk where
  create : Bool
  seek : Bool
  /-- By file position and number of bytes; `none` when the call fails. -/
  read : ℕ → ℕ → Option (List UInt8)
  read_le : ∀ pos n b, read pos n = some b → b.length ≤ n

/-- A file that opens and reads without errors. -/
def Disk.ofFile (file : List UInt8) : Disk where
  create := true
  seek := true
  read pos n := some ((file.drop pos).take n)
  read_le := by
    intro pos n b h
    cases h
    exact List.length_take_le ..

def kMaxEntries : ℕ := 16384
def kBatch : ℕ := 512

/-- The loop over the entries of one batch. -/
def countBatch (batch : List UInt8) (n : ℕ) (r : Resources) : Resources :=
  (List.range n).foldl (fun r i =>
    let t := typeId (byteAt batch) 0 i
    if isScript t then { r with script := r.script + 1 }
    else if t = kDbpfTypeXml then { r with xml := r.xml + 1 }
    else r) r

/-- The loop over the batches from a file position. Every turn that does not leave it takes an entry
off `remaining`, so as many turns are enough. -/
def scanBatches (read : ℕ → ℕ → Option (List UInt8)) : ℕ → ℕ → ℕ → Resources → Resources
  | 0, _, _, r => r
  | turns + 1, remaining, pos, r =>
    if remaining = 0 then r
    else
      let take := if kBatch < remaining then kBatch else remaining
      match read pos (take * entryBytes) with
      | none => r
      | some batch =>
        let got := batch.length / entryBytes
        if got = 0 then r
        else
          let r := countBatch batch got r
          if got < take then r else scanBatches read turns (remaining - got) (pos + batch.length) r

/-- `ScanPackageForScript`, up to the counts it reports. -/
def scanPackageForScript (d : Disk) : Resources :=
  if !d.create then ⟨0, 0⟩
  else match d.read 0 headerBytes with
  | none => ⟨0, 0⟩
  | some b =>
    let hdr := header (byteAt b)
    if b.length ≠ headerBytes ∨ ¬ hdr.isDbpf ∨ hdr.indexOffset = 0 ∨ hdr.indexEntryCount = 0 then ⟨0, 0⟩
    else if !d.seek then ⟨0, 0⟩
    else
      let remaining := if kMaxEntries < hdr.indexEntryCount then kMaxEntries else hdr.indexEntryCount
      scanBatches d.read remaining remaining hdr.indexOffset ⟨0, 0⟩

/-! ## The table of types -/

theorem bump_cases (t s : ℕ) : ∀ stats : List DbpfTypeStats,
    (bump t s stats = none ∧ t ∉ stats.map (·.typeId)) ∨
    ∃ pre x post, stats = pre ++ x :: post ∧ x.typeId = t ∧ bump t s stats = some (pre ++
      { x with entryCount := (x.entryCount + 1) % 2 ^ 32, totalMemBytes := (x.totalMemBytes + s) % 2 ^ 64 } :: post)
  | [] => .inl ⟨rfl, List.not_mem_nil⟩
  | x :: xs => by
    by_cases hx : x.typeId = t
    · exact .inr ⟨[], x, xs, rfl, hx, by rw [bump, if_pos hx]; rfl⟩
    · rw [bump, if_neg hx]
      rcases bump_cases t s xs with ⟨e, hn⟩ | ⟨pre, y, post, rfl, hy, e⟩
      · left
        rw [e, List.map_cons, List.mem_cons, not_or]
        exact ⟨rfl, Ne.symm hx, hn⟩
      · exact .inr ⟨x :: pre, y, post, rfl, hy, by rw [e]; rfl⟩

/-- The table after the entries of these types: those admitted, each with how often it occurs. -/
structure Tabled (cap : ℕ) (l : List ℕ) (stats : List DbpfTypeStats) : Prop where
  mem : ∀ t, t ∈ stats.map (·.typeId) ↔ Admitted cap l t
  nodup : (stats.map (·.typeId)).Nodup
  length : stats.length = min cap l.toFinset.card
  count : ∀ x ∈ stats, x.entryCount = l.count x.typeId % 2 ^ 32

theorem Tabled.nil (cap : ℕ) : Tabled cap [] [] := by
  refine ⟨fun t => ?_, List.nodup_nil, by simp, by simp⟩
  constructor
  · intro h; cases h
  · rintro ⟨h, -⟩; cases h

theorem toFinset_append_singleton (l : List ℕ) (t : ℕ) : (l ++ [t]).toFinset = insert t l.toFinset := by
  ext u
  simp only [List.toFinset_append, List.toFinset_cons, List.toFinset_nil, Finset.mem_union, Finset.mem_insert,
    List.mem_toFinset, Finset.notMem_empty, or_false]
  exact or_comm

section
variable {cap : ℕ} {l : List ℕ} {stats : List DbpfTypeStats}

/-- An entry of a type that the table has. -/
theorem Tabled.bump {pre post : List DbpfTypeStats} {x : DbpfTypeStats} (h : Tabled cap l (pre ++ x :: post)) (m : ℕ) :
    Tabled cap (l ++ [x.typeId]) (pre ++ { x with entryCount := (x.entryCount + 1) % 2 ^ 32, totalMemBytes := m } :: post) := by
  have hx : x.typeId ∈ (pre ++ x :: post).map (·.typeId) := List.mem_map.2 ⟨x, by simp, rfl⟩
  have hl : x.typeId ∈ l := ((h.mem _).1 hx).1
  have htypes : (pre ++ { x with entryCount := (x.entryCount + 1) % 2 ^ 32, totalMemBytes := m } :: post).map (·.typeId) =
      (pre ++ x :: post).map (·.typeId) := by simp
  have hnd := h.nodup
  rw [List.map_append, List.map_cons, List.nodup_append, List.nodup_cons] at hnd
  refine ⟨fun t => ?_, htypes ▸ h.nodup, ?_, fun y hy => ?_⟩
  · rw [htypes, h.mem t, admitted_append]
    constructor
    · exact .inl
    · rintro (ha | ⟨-, hn, -⟩)
      · exact ha
      · exact absurd hl hn
  · rw [toFinset_append_singleton, Finset.insert_eq_of_mem (List.mem_toFinset.2 hl), ← h.length]
    simp
  · rw [List.count_append, List.count_singleton]
    have hother : ∀ z ∈ pre ++ post, z.typeId ≠ x.typeId := by
      intro z hz
      rcases List.mem_append.1 hz with hz | hz
      · exact hnd.2.2 _ (List.mem_map_of_mem hz) _ (List.mem_cons_self ..)
      · exact fun e => hnd.2.1.1 (e ▸ List.mem_map_of_mem hz)
    rw [List.mem_append, List.mem_cons] at hy
    rcases hy with hy | rfl | hy
    · have hne := hother y (List.mem_append_left _ hy)
      rw [if_neg (by simpa using Ne.symm hne), Nat.add_zero]
      exact h.count y (by simp [hy])
    · have hc := h.count x (by simp)
      simp only [beq_self_eq_true, if_true]
      rw [hc, Nat.mod_add_mod]
    · have hne := hother y (List.mem_append_right _ hy)
      rw [if_neg (by simpa using Ne.symm hne), Nat.add_zero]
      exact h.count y (by simp [hy])

/-- An entry of a type that the table does not have. -/
theorem Tabled.enter (h : Tabled cap l stats) {t : ℕ} (ht : t ∉ stats.map (·.typeId)) (s : ℕ) :
    Tabled cap (l ++ [t]) (if cap ≤ stats.length then stats else stats ++ [⟨t, 1, s⟩]) := by
  have hlen := h.length
  have hcount : ∀ x ∈ stats, x.entryCount = (l ++ [t]).count x.typeId % 2 ^ 32 := by
    intro x hx
    have hne : x.typeId ≠ t := fun e => ht (e ▸ List.mem_map_of_mem hx)
    rw [List.count_append, List.count_singleton, if_neg (by simpa using Ne.symm hne), Nat.add_zero]
    exact h.count x hx
  by_cases hcap : cap ≤ stats.length
  · rw [if_pos hcap]
    have hle := Finset.card_le_card (Finset.subset_insert t l.toFinset)
    refine ⟨fun u => ?_, h.nodup, ?_, hcount⟩
    · rw [h.mem u, admitted_append]
      constructor
      · exact .inl
      · rintro (ha | ⟨-, -, hlt⟩)
        · exact ha
        · omega
    · rw [toFinset_append_singleton]; omega
  · rw [if_neg hcap]
    have hl : t ∉ l := fun hm => ht ((h.mem t).2 (admitted_of_card_le hm (by omega)))
    refine ⟨fun u => ?_, ?_, ?_, ?_⟩
    · rw [List.map_append, List.mem_append, h.mem u, admitted_append, List.map_singleton, List.mem_singleton]
      constructor
      · rintro (ha | rfl)
        · exact .inl ha
        · exact .inr ⟨rfl, hl, by omega⟩
      · rintro (ha | ⟨rfl, -, -⟩)
        · exact .inl ha
        · exact .inr rfl
    · rw [List.map_append, List.map_singleton, List.nodup_append]
      refine ⟨h.nodup, List.nodup_singleton _, ?_⟩
      rintro a ha b hb rfl
      have hb : a = t := List.mem_singleton.1 hb
      exact ht (hb ▸ ha)
    · rw [toFinset_append_singleton, Finset.card_insert_of_notMem (by simpa using hl), List.length_append,
        List.length_singleton]
      omega
    · refine List.forall_mem_append.2 ⟨hcount, List.forall_mem_singleton.2 ?_⟩
      rw [List.count_append, List.count_eq_zero.2 hl, List.count_singleton]
      simp

theorem Tabled.note (h : Tabled cap l stats) (e : ℕ × ℕ) : Tabled cap (l ++ [e.1]) (note cap stats e) := by
  unfold Dbpf.note
  rcases bump_cases e.1 e.2 stats with ⟨hb, ht⟩ | ⟨pre, x, post, rfl, hx, hb⟩
  · rw [hb]
    exact h.enter ht e.2
  · rw [hb, ← hx]
    exact h.bump _

/-- The loop over the entries. -/
theorem tabled_foldl : ∀ (es : List (ℕ × ℕ)) {l : List ℕ} {stats : List DbpfTypeStats}, Tabled cap l stats →
    Tabled cap (l ++ es.map (·.1)) (es.foldl (Dbpf.note cap) stats)
  | [], l, stats, h => by simpa using h
  | e :: es, l, stats, h => by
    have := tabled_foldl es (h.note e)
    rw [List.append_assoc] at this
    exact this

theorem tally_of_notMem {t : ℕ} : ∀ {stats : List DbpfTypeStats} (n : ℕ), t ∉ stats.map (·.typeId) →
    stats.foldl (fun n x => if x.typeId = t then (n + x.entryCount) % 2 ^ 32 else n) n = n
  | [], _, _ => rfl
  | x :: xs, n, h => by
    rw [List.map_cons, List.mem_cons, not_or] at h
    rw [List.foldl_cons, if_neg (Ne.symm h.1), tally_of_notMem n h.2]

/-- A tally is the number of entries of its type, or zero when the type found no room. -/
theorem Tabled.tally (h : Tabled cap l stats) (hl : l.length < 2 ^ 32) (t : ℕ) :
    Dbpf.tally stats t = if Admitted cap l t then l.count t else 0 := by
  unfold Dbpf.tally
  by_cases ht : t ∈ stats.map (·.typeId)
  · rw [if_pos ((h.mem t).1 ht)]
    obtain ⟨x, hx, rfl⟩ := List.mem_map.1 ht
    obtain ⟨pre, post, rfl⟩ := List.append_of_mem hx
    have hnd := h.nodup
    rw [List.map_append, List.map_cons, List.nodup_append, List.nodup_cons] at hnd
    have hpre : x.typeId ∉ pre.map (·.typeId) := fun hm => hnd.2.2 _ hm _ (List.mem_cons_self ..) rfl
    have hlt : l.count x.typeId < 2 ^ 32 := lt_of_le_of_lt List.count_le_length hl
    rw [List.foldl_append, List.foldl_cons, tally_of_notMem 0 hpre, if_pos rfl, tally_of_notMem _ hnd.2.1.1,
      h.count x hx, Nat.zero_add, Nat.mod_mod, Nat.mod_eq_of_lt hlt]
  · rw [if_neg fun ha => ht ((h.mem t).2 ha), tally_of_notMem 0 ht]

end

/-- The three script types counted apart. -/
theorem countP_isScript (P : ℕ → Bool) (l : List ℕ) : l.countP (fun u => isScript u && P u) =
    (if P kDbpfTypeScript then l.count kDbpfTypeScript else 0) +
      (if P kDbpfTypeScriptSym then l.count kDbpfTypeScriptSym else 0) +
      (if P kDbpfTypeS3SAMod then l.count kDbpfTypeS3SAMod else 0) := by
  have hab : kDbpfTypeScript ≠ kDbpfTypeScriptSym := by decide
  have hac : kDbpfTypeScript ≠ kDbpfTypeS3SAMod := by decide
  have hbc : kDbpfTypeScriptSym ≠ kDbpfTypeS3SAMod := by decide
  induction l with
  | nil => simp
  | cons u l ih =>
    rw [List.countP_cons, ih, List.count_cons, List.count_cons, List.count_cons]
    by_cases ha : u = kDbpfTypeScript
    · subst ha
      cases hp : P kDbpfTypeScript with
      | false => simp [isScript, hab, hac]
      | true => simp [isScript, hab, hac]; omega
    · by_cases hb : u = kDbpfTypeScriptSym
      · subst hb
        cases hp : P kDbpfTypeScriptSym with
        | false => simp [isScript, hab.symm, hbc]
        | true => simp [isScript, hab.symm, hbc]; omega
      · by_cases hc : u = kDbpfTypeS3SAMod
        · subst hc
          cases hp : P kDbpfTypeS3SAMod with
          | false => simp [isScript, hac.symm, hbc.symm]
          | true => simp [isScript, hac.symm, hbc.symm]; omega
        · simp [isScript, ha, hb, hc]

theorem countP_isXml (P : ℕ → Bool) (l : List ℕ) :
    l.countP (fun u => decide (u = kDbpfTypeXml) && P u) = if P kDbpfTypeXml then l.count kDbpfTypeXml else 0 := by
  induction l with
  | nil => simp
  | cons u l ih =>
    rw [List.countP_cons, ih, List.count_cons]
    by_cases hu : u = kDbpfTypeXml
    · subst hu
      cases hp : P kDbpfTypeXml with
      | false => simp
      | true => simp
    · simp [hu]

/-! ## What the view shows -/

/-- The header that both scanners go on from. -/
def Header.opens (h : Header) : Prop := h.isDbpf ∧ h.indexOffset ≠ 0 ∧ h.indexEntryCount ≠ 0

instance (h : Header) : Decidable h.opens := inferInstanceAs (Decidable (_ ∧ _))

/-- The type ids of the first entries from an offset. -/
def types (mem : ℕ → ℕ) (indexOffset n : ℕ) : List ℕ := (List.range n).map (typeId mem indexOffset)

@[simp] theorem length_types (mem : ℕ → ℕ) (indexOffset n : ℕ) : (types mem indexOffset n).length = n := by simp [types]

theorem typeId_add (mem : ℕ → ℕ) (indexOffset m i : ℕ) :
    typeId mem (indexOffset + m * entryBytes) i = typeId mem indexOffset (m + i) := by
  rw [typeId, typeId, Nat.add_mul, Nat.add_assoc]

theorem types_add (mem : ℕ → ℕ) (indexOffset m n : ℕ) :
    types mem indexOffset (m + n) = types mem indexOffset m ++ types mem (indexOffset + m * entryBytes) n := by
  have hshift : ((List.range n).map (m + ·)).map (typeId mem indexOffset) =
      (List.range n).map (typeId mem (indexOffset + m * entryBytes)) := by
    rw [List.map_map]
    refine List.map_congr_left fun i _ => ?_
    rw [Function.comp_apply, typeId_add]
  rw [types, types, types, List.range_add, List.map_append, hshift]

theorem types_take (mem : ℕ → ℕ) (indexOffset : ℕ) {m n : ℕ} (h : m ≤ n) :
    (types mem indexOffset n).take m = types mem indexOffset m := by
  obtain ⟨k, rfl⟩ := Nat.exists_eq_add_of_le h
  rw [types_add, List.take_left' (length_types ..)]

/-- How many entries ScanDbpfIndex goes through in a view. -/
def viewedEntries (mem : ℕ → ℕ) (viewSize : ℕ) : ℕ :=
  if headerBytes ≤ viewSize ∧ (header mem).opens then
    min (header mem).indexEntryCount ((viewSize - (header mem).indexOffset) / entryBytes)
  else 0

/-- Their type ids. -/
def viewed (mem : ℕ → ℕ) (viewSize : ℕ) : List ℕ := types mem (header mem).indexOffset (viewedEntries mem viewSize)

theorem tabled_scanDbpfIndex (mem : ℕ → ℕ) (viewSize : ℕ) {cap : ℕ} (hcap : cap ≠ 0) :
    Tabled cap (viewed mem viewSize) (scanDbpfIndex mem viewSize cap) := by
  -- every early return leaves the table empty and goes through no entry
  have hnone : viewedEntries mem viewSize = 0 → Tabled cap (viewed mem viewSize) [] := by
    intro h0
    rw [viewed, h0]
    exact .nil cap
  unfold scanDbpfIndex
  by_cases hsize : viewSize < headerBytes
  · rw [if_pos (.inr hsize)]
    exact hnone (if_neg fun h => by omega)
  · rw [if_neg (not_or.2 ⟨hcap, hsize⟩)]
    dsimp only
    by_cases hd : (header mem).isDbpf
    · rw [if_neg (not_not.2 hd)]
      split
      · rename_i h
        apply hnone
        unfold viewedEntries
        split
        · rename_i ho
          rcases h with h | h | h
          · exact absurd h ho.2.2.1
          · exact absurd h ho.2.2.2
          · rw [Nat.sub_eq_zero_of_le h, Nat.zero_div, Nat.min_zero]
        · rfl
      · rename_i h
        rw [not_or, not_or] at h
        have hcount : viewedEntries mem viewSize =
            if (viewSize - (header mem).indexOffset) / entryBytes < (header mem).indexEntryCount then
              (viewSize - (header mem).indexOffset) / entryBytes else (header mem).indexEntryCount := by
          rw [viewedEntries, if_pos ⟨by omega, hd, h.1, h.2.1⟩]
          split <;> omega
        rw [← hcount]
        have ht := tabled_foldl ((List.range (viewedEntries mem viewSize)).map fun i =>
          (typeId mem (header mem).indexOffset i, memSize mem (header mem).indexOffset i)) (.nil cap)
        rw [List.nil_append, List.map_map] at ht
        exact ht
    · rw [if_pos hd]
      exact hnone (if_neg fun h => hd h.2.1)

theorem length_viewed_le (mem : ℕ → ℕ) (viewSize : ℕ) : (viewed mem viewSize).length ≤ viewSize := by
  rw [viewed, length_types]
  unfold viewedEntries
  split
  · have := Nat.div_le_self (viewSize - (header mem).indexOffset) entryBytes
    omega
  · exact Nat.zero_le _

/-- The map-view path counts the script and the tuning entries whose type found room in the table. -/
theorem resources_viewed {mem : ℕ → ℕ} {viewSize : ℕ} (h : viewSize < 2 ^ 32) :
    resources (scanDbpfIndex mem viewSize kMaxTypeStats) =
      ⟨(viewed mem viewSize).countP fun t => isScript t && decide (Admitted kMaxTypeStats (viewed mem viewSize) t),
        (viewed mem viewSize).countP fun t =>
          decide (t = kDbpfTypeXml) && decide (Admitted kMaxTypeStats (viewed mem viewSize) t)⟩ := by
  have ht := tabled_scanDbpfIndex mem viewSize (show kMaxTypeStats ≠ 0 by decide)
  have hlen : (viewed mem viewSize).length < 2 ^ 32 := lt_of_le_of_lt (length_viewed_le mem viewSize) h
  unfold resources
  simp only [ht.tally hlen, Resources.mk.injEq]
  constructor
  · have hsum := countP_isScript (fun t => decide (Admitted kMaxTypeStats (viewed mem viewSize) t)) (viewed mem viewSize)
    have hle := List.countP_le_length (p := fun t => isScript t && decide (Admitted kMaxTypeStats (viewed mem viewSize) t))
      (l := viewed mem viewSize)
    simp only [decide_eq_true_eq] at hsum
    rw [← hsum]
    exact Nat.mod_eq_of_lt (by omega)
  · have hcount := countP_isXml (fun t => decide (Admitted kMaxTypeStats (viewed mem viewSize) t)) (viewed mem viewSize)
    simp only [decide_eq_true_eq] at hcount
    exact hcount.symm

/-! ## What ReadFile gives -/

theorem byteAt_read (file : List UInt8) {pos n i : ℕ} (h : i < ((file.drop pos).take n).length) :
    byteAt ((file.drop pos).take n) i = byteAt file (pos + i) := by
  have hn : i < n := lt_of_lt_of_le h (List.length_take_le ..)
  rw [byteAt, byteAt, List.getD_eq_getElem?_getD, List.getD_eq_getElem?_getD, List.getElem?_take_of_lt hn, List.getElem?_drop]

theorem u32_congr {mem mem' : ℕ → ℕ} {o o' : ℕ} (h : ∀ i < 4, mem (o + i) = mem' (o' + i)) : u32 mem o = u32 mem' o' := by
  have h0 := h 0 (by omega)
  have h1 := h 1 (by omega)
  have h2 := h 2 (by omega)
  have h3 := h 3 (by omega)
  rw [Nat.add_zero, Nat.add_zero] at h0
  rw [u32, u32, h0, h1, h2, h3]

/-- The whole entries of a batch are those of the file. -/
theorem types_read (file : List UInt8) (pos n : ℕ) :
    types (byteAt ((file.drop pos).take n)) 0 (((file.drop pos).take n).length / entryBytes) =
      types (byteAt file) pos (((file.drop pos).take n).length / entryBytes) := by
  refine List.map_congr_left fun i hi => ?_
  have hlt := List.mem_range.1 hi
  have hle := Nat.div_mul_le_self ((file.drop pos).take n).length entryBytes
  have hmul := Nat.mul_le_mul_right entryBytes (Nat.succ_le_of_lt hlt)
  refine u32_congr fun k hk => ?_
  rw [Nat.zero_add, byteAt_read file, Nat.add_assoc]
  simp only [entryBytes, Nat.succ_mul] at hle hmul ⊢
  omega

/-- What a list of type ids counts for. -/
def Resources.add (r : Resources) (l : List ℕ) : Resources :=
  ⟨r.script + l.countP isScript, r.xml + l.countP (· = kDbpfTypeXml)⟩

theorem Resources.add_append (r : Resources) (l m : List ℕ) : r.add (l ++ m) = (r.add l).add m := by
  simp only [Resources.add, List.countP_append, Nat.add_assoc]

theorem countBatch_eq (batch : List UInt8) (n : ℕ) (r : Resources) :
    countBatch batch n r = r.add (types (byteAt batch) 0 n) := by
  have hxml : isScript kDbpfTypeXml = false := by decide
  have hfold : ∀ (l : List ℕ) (r : Resources), l.foldl (fun r i =>
      let t := typeId (byteAt batch) 0 i
      if isScript t then { r with script := r.script + 1 }
      else if t = kDbpfTypeXml then { r with xml := r.xml + 1 }
      else r) r = r.add (l.map (typeId (byteAt batch) 0)) := by
    intro l
    induction l with
    | nil => exact fun r => rfl
    | cons i l ih =>
      intro r
      rw [List.foldl_cons, ih, List.map_cons, ← List.singleton_append, Resources.add_append]
      congr 1
      generalize typeId (byteAt batch) 0 i = t
      by_cases ht : t = kDbpfTypeXml
      · subst ht
        simp [Resources.add, hxml]
      · cases hs : isScript t with
        | false => simp [Resources.add, hs, ht]
        | true => simp [Resources.add, hs, ht]
  exact hfold (List.range n) r

/-- The batches take the whole entries of the file, up to `remaining` of them. -/
theorem scanBatches_ofFile (file : List UInt8) : ∀ (turns remaining pos : ℕ) (r : Resources), remaining ≤ turns →
    scanBatches (Disk.ofFile file).read turns remaining pos r =
      r.add (types (byteAt file) pos (min remaining ((file.length - pos) / entryBytes)))
  | 0, remaining, pos, r, h => by
    obtain rfl := Nat.le_zero.1 h
    rw [Nat.zero_min]
    rfl
  | turns + 1, remaining, pos, r, h => by
    unfold scanBatches
    by_cases h0 : remaining = 0
    · rw [if_pos h0, h0, Nat.zero_min]
      rfl
    · rw [if_neg h0]
      have htake : (if kBatch < remaining then kBatch else remaining) = min kBatch remaining := by split <;> omega
      rw [htake]
      generalize hk : min kBatch remaining = take
      have hread : (Disk.ofFile file).read pos (take * entryBytes) = some ((file.drop pos).take (take * entryBytes)) := rfl
      have hlen : ((file.drop pos).take (take * entryBytes)).length = min (take * entryBytes) (file.length - pos) := by simp
      have hgot : ((file.drop pos).take (take * entryBytes)).length / entryBytes =
          min take ((file.length - pos) / entryBytes) := by
        rw [hlen]
        simp only [entryBytes]
        omega
      simp only [hread]
      have hkb : kBatch = 512 := rfl
      split
      · rename_i hg
        rw [show min remaining ((file.length - pos) / entryBytes) = 0 by omega]
        rfl
      · rename_i hg
        rw [countBatch_eq, types_read]
        split
        · rename_i hlt
          rw [hgot, show min take ((file.length - pos) / entryBytes) = min remaining ((file.length - pos) / entryBytes) by omega]
        · rename_i hlt
          have heq : ((file.drop pos).take (take * entryBytes)).length / entryBytes = take := by omega
          have hwhole : ((file.drop pos).take (take * entryBytes)).length = take * entryBytes := by
            simp only [entryBytes] at heq hlen ⊢
            omega
          rw [scanBatches_ofFile file turns _ _ _ (by omega), ← Resources.add_append, heq, hwhole, ← types_add]
          congr 2
          simp only [entryBytes] at heq hlen ⊢
          omega

/-- How many entries ScanPackageForScript goes through: up to its cap, those wholly inside the file. -/
def wholeEntries (file : List UInt8) : ℕ :=
  let hdr := header (byteAt file)
  if headerBytes ≤ file.length ∧ hdr.opens then
    min (min kMaxEntries hdr.indexEntryCount) ((file.length - hdr.indexOffset) / entryBytes)
  else 0

theorem header_read {file : List UInt8} (h : headerBytes ≤ file.length) :
    header (byteAt ((file.drop 0).take headerBytes)) = header (byteAt file) := by
  have hlen : ((file.drop 0).take headerBytes).length = headerBytes := by
    rw [List.drop_zero, List.length_take]; omega
  have hbytes : headerBytes = 64 := rfl
  have hbyte : ∀ i < headerBytes, byteAt ((file.drop 0).take headerBytes) i = byteAt file i := by
    intro i hi
    rw [byteAt_read file (by omega), Nat.zero_add]
  have hword : ∀ o, o + 4 ≤ headerBytes → u32 (byteAt ((file.drop 0).take headerBytes)) o = u32 (byteAt file) o :=
    fun o ho => u32_congr fun i hi => hbyte _ (by omega)
  unfold header
  rw [hword 4 (by omega), hword 36 (by omega), hword 60 (by omega)]
  congr 1
  exact List.map_congr_left fun i hi => hbyte i (by have := List.mem_range.1 hi; omega)

/-- The ReadFile path counts the script and the tuning entries among those. -/
theorem scanPackageForScript_ofFile (file : List UInt8) : scanPackageForScript (.ofFile file) =
    Resources.add ⟨0, 0⟩ (types (byteAt file) (header (byteAt file)).indexOffset (wholeEntries file)) := by
  have hread : (Disk.ofFile file).read 0 headerBytes = some ((file.drop 0).take headerBytes) := rfl
  have hlen : ((file.drop 0).take headerBytes).length = min headerBytes file.length := by simp
  unfold scanPackageForScript
  rw [show (Disk.ofFile file).create = true from rfl, Bool.not_true, if_neg Bool.false_ne_true]
  simp only [hread]
  unfold wholeEntries
  by_cases hsize : headerBytes ≤ file.length
  · rw [header_read hsize]
    by_cases ho : (header (byteAt file)).opens
    · have hhdr : ¬ (((file.drop 0).take headerBytes).length ≠ headerBytes ∨ ¬ (header (byteAt file)).isDbpf ∨
          (header (byteAt file)).indexOffset = 0 ∨ (header (byteAt file)).indexEntryCount = 0) := by
        obtain ⟨hd, ho, hc⟩ := ho
        simp only [not_or, not_not, ne_eq]
        exact ⟨by omega, hd, ho, hc⟩
      have hcap : (if kMaxEntries < (header (byteAt file)).indexEntryCount then kMaxEntries
          else (header (byteAt file)).indexEntryCount) = min kMaxEntries (header (byteAt file)).indexEntryCount := by
        split <;> omega
      rw [if_neg hhdr, show (Disk.ofFile file).seek = true from rfl, Bool.not_true, if_neg Bool.false_ne_true, hcap,
        scanBatches_ofFile file _ _ _ _ le_rfl, if_pos ⟨hsize, ho⟩]
    · rw [if_pos, if_neg fun h => ho h.2]
      · rfl
      · right
        unfold Header.opens at ho
        tauto
  · rw [if_pos (.inl (by omega)), if_neg fun h => hsize h.1]
    rfl

/-! ## The two paths -/

theorem whole_le_viewed {file : List UInt8} {viewSize : ℕ} (h : file.length ≤ viewSize) :
    wholeEntries file ≤ viewedEntries (byteAt file) viewSize := by
  unfold wholeEntries viewedEntries
  dsimp only
  split
  · rename_i ho
    rw [if_pos ⟨ho.1.trans h, ho.2⟩]
    have hdiv := Nat.div_le_div_right (c := entryBytes) (Nat.sub_le_sub_right h (header (byteAt file)).indexOffset)
    omega
  · exact Nat.zero_le _

theorem countP_split (p q : ℕ → Bool) (l : List ℕ) :
    l.countP p = l.countP (fun t => p t && q t) + l.countP (fun t => p t && !q t) := by
  induction l with
  | nil => rfl
  | cons a l ih =>
    rw [List.countP_cons, List.countP_cons, List.countP_cons, ih]
    cases hp : p a with
    | false => simp
    | true =>
      cases hq : q a with
      | false => simp; omega
      | true => simp; omega

/-- The view drops the types that find no room in its table, the reads drop the entries past their cap
or past the end of the file. On a file that is mapped whole the two counts agree exactly when as many
entries are dropped on either side, and so whenever none is. -/
theorem scanners_agree_iff (file : List UInt8) (viewSize : ℕ) (hfile : file.length ≤ viewSize) (hview : viewSize < 2 ^ 32) :
    let index := viewed (byteAt file) viewSize
    let beyond := index.drop (wholeEntries file)
    let mapped := resources (scanDbpfIndex (byteAt file) viewSize kMaxTypeStats)
    let read := scanPackageForScript (.ofFile file)
    (mapped.script = read.script ↔
      index.countP (fun t => isScript t && !decide (Admitted kMaxTypeStats index t)) = beyond.countP isScript) ∧
    (mapped.xml = read.xml ↔
      index.countP (fun t => decide (t = kDbpfTypeXml) && !decide (Admitted kMaxTypeStats index t)) =
        beyond.countP (· = kDbpfTypeXml)) ∧
    (index.toFinset.card ≤ kMaxTypeStats → (∀ t ∈ beyond, isScript t = false ∧ t ≠ kDbpfTypeXml) → mapped = read) := by
  have hle := whole_le_viewed hfile
  intro index beyond mapped read
  have hmapped : mapped = ⟨index.countP fun t => isScript t && decide (Admitted kMaxTypeStats index t),
      index.countP fun t => decide (t = kDbpfTypeXml) && decide (Admitted kMaxTypeStats index t)⟩ := resources_viewed hview
  have hread : read = ⟨(index.take (wholeEntries file)).countP isScript,
      (index.take (wholeEntries file)).countP (· = kDbpfTypeXml)⟩ := by
    show scanPackageForScript (.ofFile file) = _
    rw [scanPackageForScript_ofFile, ← types_take _ _ hle]
    simp only [Resources.add, Nat.zero_add]
    rfl
  -- both counts are counts of the one index
  have hparts : ∀ p : ℕ → Bool, (index.take (wholeEntries file)).countP p + beyond.countP p =
      index.countP (fun t => p t && decide (Admitted kMaxTypeStats index t)) +
        index.countP (fun t => p t && !decide (Admitted kMaxTypeStats index t)) := by
    intro p
    rw [← countP_split, ← List.countP_append, List.take_append_drop]
  have hscript := hparts isScript
  have hxml := hparts (fun t => decide (t = kDbpfTypeXml))
  refine ⟨?_, ?_, fun hcard hnone => ?_⟩
  · rw [hmapped, hread]
    dsimp only
    omega
  · rw [hmapped, hread]
    dsimp only
    omega
  · have hadm : ∀ p : ℕ → Bool, index.countP (fun t => p t && !decide (Admitted kMaxTypeStats index t)) = 0 := by
      intro p
      rw [List.countP_eq_zero]
      intro t ht
      simp [admitted_of_card_le ht hcard]
    have hscript0 : beyond.countP isScript = 0 := List.countP_eq_zero.2 fun t ht => by simp [(hnone t ht).1]
    have hxml0 : beyond.countP (fun t => decide (t = kDbpfTypeXml)) = 0 :=
      List.countP_eq_zero.2 fun t ht => by simp [(hnone t ht).2]
    rw [hscript0, hadm isScript] at hscript
    rw [hxml0, hadm fun t => decide (t = kDbpfTypeXml)] at hxml
    rw [hmapped, hread]
    simp only [Resources.mk.injEq]
    exact ⟨by omega, by omega⟩

/-! ## Written packages -/

/-- A word, lowest byte first. -/
def bytes32 (v : ℕ) : List UInt8 := [.ofNat v, .ofNat (v / 2 ^ 8), .ofNat (v / 2 ^ 16), .ofNat (v / 2 ^ 24)]

/-- The header of a package whose index of `n` entries comes right behind it. -/
def headerOf (n : ℕ) : List UInt8 :=
  [0x44, 0x42, 0x50, 0x46] ++ bytes32 2 ++ List.replicate 28 0 ++ bytes32 n ++ List.replicate 20 0 ++ bytes32 headerBytes

/-- An entry of which only the type is set. -/
def entryOf (t : ℕ) : List UInt8 := bytes32 t ++ List.replicate 28 0

/-- A package that is only an index. -/
def packageOf (ts : List ℕ) : List UInt8 := headerOf ts.length ++ ts.flatMap entryOf

theorem byteAt_append (a b : List UInt8) (i : ℕ) : byteAt (a ++ b) (a.length + i) = byteAt b i := by
  rw [byteAt, byteAt, List.getD_eq_getElem?_getD, List.getD_eq_getElem?_getD, List.getElem?_append_right (Nat.le_add_right ..),
    Nat.add_sub_cancel_left]

theorem toNat_ofNat (v : ℕ) : (UInt8.ofNat v).toNat = v % 256 := UInt8.toNat_ofNat'

/-- A word is read as it was written. -/
theorem u32_bytes32 {v o : ℕ} (h : v < 2 ^ 32) (pre post : List UInt8) (ho : o = pre.length) :
    u32 (byteAt (pre ++ (bytes32 v ++ post))) o = v := by
  subst ho
  have h0 : byteAt (pre ++ (bytes32 v ++ post)) pre.length = v % 256 := by
    rw [← Nat.add_zero pre.length, byteAt_append]
    exact toNat_ofNat v
  have h1 : byteAt (pre ++ (bytes32 v ++ post)) (pre.length + 1) = v / 2 ^ 8 % 256 := by
    rw [byteAt_append]
    exact toNat_ofNat (v / 2 ^ 8)
  have h2 : byteAt (pre ++ (bytes32 v ++ post)) (pre.length + 2) = v / 2 ^ 16 % 256 := by
    rw [byteAt_append]
    exact toNat_ofNat (v / 2 ^ 16)
  have h3 : byteAt (pre ++ (bytes32 v ++ post)) (pre.length + 3) = v / 2 ^ 24 % 256 := by
    rw [byteAt_append]
    exact toNat_ofNat (v / 2 ^ 24)
  rw [u32, h0, h1, h2, h3]
  omega

theorem header_packageOf {ts : List ℕ} (h : ts.length < 2 ^ 32) :
    header (byteAt (packageOf ts)) = ⟨[0x44, 0x42, 0x50, 0x46], 2, ts.length, headerBytes⟩ := by
  have hversion : u32 (byteAt (packageOf ts)) 4 = 2 := by
    have := u32_bytes32 (o := 4) (show 2 < 2 ^ 32 by norm_num) [0x44, 0x42, 0x50, 0x46]
      (List.replicate 28 0 ++ bytes32 ts.length ++ List.replicate 20 0 ++ bytes32 headerBytes ++ ts.flatMap entryOf) rfl
    simpa only [packageOf, headerOf, List.append_assoc] using this
  have hcount : u32 (byteAt (packageOf ts)) 36 = ts.length := by
    have := u32_bytes32 (o := 36) h ([0x44, 0x42, 0x50, 0x46] ++ bytes32 2 ++ List.replicate 28 0)
      (List.replicate 20 0 ++ bytes32 headerBytes ++ ts.flatMap entryOf) rfl
    simpa only [packageOf, headerOf, List.append_assoc] using this
  have hoffset : u32 (byteAt (packageOf ts)) 60 = headerBytes := by
    have := u32_bytes32 (o := 60) (show headerBytes < 2 ^ 32 by decide)
      ([0x44, 0x42, 0x50, 0x46] ++ bytes32 2 ++ List.replicate 28 0 ++ bytes32 ts.length ++ List.replicate 20 0)
      (ts.flatMap entryOf) rfl
    simpa only [packageOf, headerOf, List.append_assoc] using this
  rw [header, hversion, hcount, hoffset]
  rfl

/-- The type ids that are read are those that were written. -/
theorem types_entries : ∀ (ts : List ℕ) (pre : List UInt8), (∀ t ∈ ts, t < 2 ^ 32) →
    types (byteAt (pre ++ ts.flatMap entryOf)) pre.length ts.length = ts
  | [], _, _ => rfl
  | t :: ts, pre, h => by
    obtain ⟨ht, hts⟩ := List.forall_mem_cons.1 h
    have hfirst : u32 (byteAt (pre ++ (t :: ts).flatMap entryOf)) pre.length = t := by
      have := u32_bytes32 ht pre (List.replicate 28 0 ++ ts.flatMap entryOf) rfl
      simpa only [List.flatMap_cons, entryOf, List.append_assoc] using this
    have hone : types (byteAt (pre ++ (t :: ts).flatMap entryOf)) pre.length 1 = [t] := by
      simp only [types, List.range_one, List.map_cons, List.map_nil, typeId, Nat.zero_mul, Nat.add_zero, hfirst]
    have hrest := types_entries ts (pre ++ entryOf t) hts
    rw [List.append_assoc, List.length_append] at hrest
    rw [List.length_cons, Nat.add_comm, types_add, hone, List.flatMap_cons, List.singleton_append, Nat.one_mul]
    congr 1

theorem length_packageOf (ts : List ℕ) : (packageOf ts).length = headerBytes + ts.length * entryBytes := by
  have hbody : ∀ ts : List ℕ, (ts.flatMap entryOf).length = ts.length * entryBytes := by
    intro ts
    induction ts with
    | nil => rfl
    | cons t ts ih => rw [List.flatMap_cons, List.length_append, ih, List.length_cons, Nat.succ_mul, Nat.add_comm]; rfl
  rw [packageOf, List.length_append, hbody]
  rfl

/-- What the two scanners make of a written package. -/
theorem scanners_packageOf {ts : List ℕ} (hne : ts ≠ []) (hts : ∀ t ∈ ts, t < 2 ^ 32) {viewSize : ℕ}
    (hfile : (packageOf ts).length ≤ viewSize) (hview : viewSize < 2 ^ 32) :
    (resources (scanDbpfIndex (byteAt (packageOf ts)) viewSize kMaxTypeStats)).script =
        ts.countP (fun t => isScript t && decide (Admitted kMaxTypeStats ts t)) ∧
      (scanPackageForScript (.ofFile (packageOf ts))).script = (ts.take kMaxEntries).countP isScript := by
  have hlen := length_packageOf ts
  have hpos := List.length_pos_iff.2 hne
  have hh := header_packageOf (show ts.length < 2 ^ 32 by simp only [entryBytes] at hlen; omega)
  have hopens : (header (byteAt (packageOf ts))).opens := by
    rw [hh]
    exact ⟨⟨rfl, rfl⟩, Nat.succ_ne_zero 63, by dsimp only; omega⟩
  have hentries : types (byteAt (packageOf ts)) headerBytes ts.length = ts := types_entries ts (headerOf ts.length) hts
  constructor
  · have hall : viewedEntries (byteAt (packageOf ts)) viewSize = ts.length := by
      rw [viewedEntries, if_pos ⟨by omega, hopens⟩, hh]
      simp only [entryBytes, headerBytes] at hlen ⊢
      omega
    rw [resources_viewed hview, viewed, hall, hh, hentries]
  · have hwhole : wholeEntries (packageOf ts) = min kMaxEntries ts.length := by
      unfold wholeEntries
      dsimp only
      rw [if_pos ⟨by omega, hopens⟩, hh]
      simp only [entryBytes, headerBytes] at hlen ⊢
      omega
    have htake := types_take (byteAt (packageOf ts)) headerBytes (Nat.min_le_right kMaxEntries ts.length)
    rw [hentries] at htake
    rw [scanPackageForScript_ofFile, hwhole, hh, ← htake]
    simp only [Resources.add, Nat.zero_add]
    rw [← List.take_take, List.take_length]

/-- One script behind as many other types as the table holds. -/
def typeRich : List ℕ := List.range 128 ++ [kDbpfTypeScript]

/-- A header with one index entry, and the file ends after its script type. -/
def cutOff : List UInt8 := headerOf 1 ++ bytes32 kDbpfTypeScript

/-- The view of a type-rich package shows no script where the reads find one, and the view of the page
of a file that ends within an entry shows the script where the reads find none. -/
theorem scanners_differ : (packageOf typeRich).length ≤ 8192 ∧
    (resources (scanDbpfIndex (byteAt (packageOf typeRich)) 8192 kMaxTypeStats)).script = 0 ∧
    (scanPackageForScript (.ofFile (packageOf typeRich))).script = 1 ∧
    cutOff.length ≤ 4096 ∧
    (resources (scanDbpfIndex (byteAt cutOff) 4096 kMaxTypeStats)).script = 1 ∧
    (scanPackageForScript (.ofFile cutOff)).script = 0 := by
  have hlen : (packageOf typeRich).length = 4192 := by
    rw [length_packageOf, typeRich, List.length_append, List.length_range]
    rfl
  have hne : typeRich ≠ [] := List.append_ne_nil_of_right_ne_nil _ (List.cons_ne_nil _ _)
  have hlt : ∀ t ∈ typeRich, t < 2 ^ 32 := by
    refine List.forall_mem_append.2 ⟨fun t h => ?_, List.forall_mem_singleton.2 (by decide)⟩
    have := List.mem_range.1 h
    omega
  obtain ⟨hview, hread⟩ := scanners_packageOf hne hlt (show (packageOf typeRich).length ≤ 8192 by omega) (by norm_num)
  refine ⟨by omega, ?_, ?_, by decide, by decide +kernel, by decide +kernel⟩
  · rw [hview]
    decide +kernel
  · rw [hread]
    decide +kernel

/-- A package of a script and a tuning file. -/
theorem scanners_agree_small : resources (scanDbpfIndex (byteAt (packageOf [kDbpfTypeScript, kDbpfTypeXml])) 4096 kMaxTypeStats) =
    scanPackageForScript (.ofFile (packageOf [kDbpfTypeScript, kDbpfTypeXml])) :=
  (scanners_agree_iff _ 4096 (by rw [length_packageOf]; decide) (by norm_num)).2.2 (by decide +kernel) (by decide +kernel)

end Ts3Vas.Dbpf
