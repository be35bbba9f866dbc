/-
The inventory of resource types, MapViewTypeTracker.cpp: an open-addressing table keyed by type id, to
which RecordDbpfTypes adds under the tracker's lock what ScanDbpfIndex found in a view.
-/
import Ts3Vas.Lib.Probe
import Ts3Vas.Lib.Run
import Ts3Vas.Observe.Dbpf

namespace Ts3Vas.MapViewTypeTracker

open Probe Dbpf

/-! ## The table -/

/-- The counters are 64-bit words. -/
structure TypeSlot where
  /-- 0 for an empty slot. -/
  typeId : ℕ
  entryCount : ℕ
  totalBytes : ℕ
  viewCount : ℕ
  deriving DecidableEq, Repr

def kTypeTableCap : ℕ := 256

/-- `m_typeTable` by index; the slots from `kTypeTableCap` on are never touched. -/
abbrev TypeTable := ℕ → TypeSlot

/-- The table as the constructor leaves it. -/
def TypeTable.zero : TypeTable := fun _ => ⟨0, 0, 0, 0⟩

/-- The first slot that a type is looked for in. -/
def home (typeId : ℕ) : ℕ := (typeId ^^^ (typeId >>> 16)) &&& (kTypeTableCap - 1)

/-- The slot that a probe looks at. -/
def index (typeId probe : ℕ) : ℕ := (home typeId + probe) &&& (kTypeTableCap - 1)

/-- The loop of `FindOrInsertType` from a probe on: the slot found or filled. -/
def findFrom (t : TypeTable) (typeId : ℕ) : (left probe : ℕ) → Option ℕ × TypeTable
  | 0, _ => (none, t)
  | left + 1, probe =>
    let slot := index typeId probe
    if (t slot).typeId = typeId then (some slot, t)
    else if (t slot).typeId = 0 then (some slot, Function.update t slot ⟨typeId, 0, 0, 0⟩)
    else findFrom t typeId left (probe + 1)

def findOrInsertType (t : TypeTable) (typeId : ℕ) : Option ℕ × TypeTable :=
  if typeId = 0 then (none, t) else findFrom t typeId kTypeTableCap 0

/-- One turn of the loop of `RecordDbpfTypes`. -/
def recordType (t : TypeTable) (s : DbpfTypeStats) : TypeTable :=
  match findOrInsertType t s.typeId with
  | (some slot, t) => Function.update t slot { t slot with
      entryCount := ((t slot).entryCount + s.entryCount) % 2 ^ 64
      totalBytes := ((t slot).totalBytes + s.totalMemBytes) % 2 ^ 64
      viewCount := ((t slot).viewCount + 1) % 2 ^ 64 }
  | (none, t) => t

def recordDbpfTypes (t : TypeTable) (typeStats : List DbpfTypeStats) : TypeTable := typeStats.foldl recordType t

/-! ## The probes -/

theorem index_eq (typeId probe : ℕ) : index typeId probe = (home typeId + probe) % kTypeTableCap :=
  Nat.and_two_pow_sub_one_eq_mod (home typeId + probe) 8

theorem index_lt (typeId probe : ℕ) : index typeId probe < kTypeTableCap := by
  rw [index_eq]
  exact Nat.mod_lt _ (by decide)

/-- The type ids by slot. -/
def ids (t : TypeTable) : ℕ → ℕ := fun i => (t i).typeId

theorem ids_update (t : TypeTable) (i : ℕ) (x : TypeSlot) :
    ids (Function.update t i x) = Function.update (ids t) i x.typeId := by
  funext j
  unfold ids
  by_cases hj : j = i
  · rw [hj, Function.update_self, Function.update_self]
  · rw [Function.update_of_ne hj, Function.update_of_ne hj]

/-- Where the loop ends: at the type's slot, at an empty slot that it fills, or past the last probe. -/
theorem findFrom_cases (t : TypeTable) (k : ℕ) : ∀ (left p : ℕ), Passed index (ids t) k p →
    (∃ q, ids t (index k q) = k ∧ findFrom t k left p = (some (index k q), t)) ∨
    (∃ q, Passed index (ids t) k q ∧ ids t (index k q) = 0 ∧
      findFrom t k left p = (some (index k q), Function.update t (index k q) ⟨k, 0, 0, 0⟩)) ∨
    (Passed index (ids t) k (p + left) ∧ findFrom t k left p = (none, t))
  | 0, p, hp => .inr (.inr ⟨hp, rfl⟩)
  | left + 1, p, hp => by
    unfold findFrom
    by_cases hk : (t (index k p)).typeId = k
    · left
      exact ⟨p, hk, if_pos hk⟩
    · dsimp only
      rw [if_neg hk]
      by_cases h0 : (t (index k p)).typeId = 0
      · rw [if_pos h0]
        exact .inr (.inl ⟨p, hp, h0, rfl⟩)
      · rw [if_neg h0]
        have ih := findFrom_cases t k left (p + 1) (hp.succ h0 hk)
        rwa [Nat.add_assoc, Nat.add_comm 1] at ih

/-! ## The inventory -/

/-- What was recorded of one type, summed up. -/
def sumOf (f : DbpfTypeStats → ℕ) (es : List DbpfTypeStats) (k : ℕ) : ℕ := ((es.filter (·.typeId = k)).map f).sum

theorem sumOf_append (f : DbpfTypeStats → ℕ) (es : List DbpfTypeStats) (s : DbpfTypeStats) (k : ℕ) :
    sumOf f (es ++ [s]) k = sumOf f es k + if s.typeId = k then f s else 0 := by
  unfold sumOf
  by_cases hk : s.typeId = k
  · simp [List.filter_append, hk]
  · simp [List.filter_append, hk]

/-- A slot holds the totals of the type `k`. -/
structure Totals (es : List DbpfTypeStats) (k : ℕ) (x : TypeSlot) : Prop where
  entryCount : x.entryCount = sumOf (·.entryCount) es k % 2 ^ 64
  totalBytes : x.totalBytes = sumOf (·.totalMemBytes) es k % 2 ^ 64
  viewCount : x.viewCount = sumOf (fun _ => 1) es k % 2 ^ 64

/-- The table after the entries `es`. -/
structure Holds (es : List DbpfTypeStats) (t : TypeTable) : Prop where
  filled : Filled index (ids t)
  keys : ∀ k ≠ 0, Stored (ids t) k ↔ k ∈ es.map (·.typeId)
  totals : ∀ i, ids t i ≠ 0 → Totals es (ids t i) (t i)

section
variable {es : List DbpfTypeStats} {t : TypeTable} {s : DbpfTypeStats}

theorem holds_zero : Holds [] TypeTable.zero where
  filled := Filled.empty
  keys k hk := by
    constructor
    · rintro ⟨i, rfl⟩
      exact absurd rfl hk
    · intro h
      cases h
  totals i hi := absurd rfl hi

/-- A type not seen before has no totals. -/
theorem totals_fresh {k : ℕ} (hk : k ∉ es.map (·.typeId)) : Totals es k ⟨k, 0, 0, 0⟩ := by
  have hnone : ∀ f, sumOf f es k = 0 := by
    intro f
    have hf : es.filter (fun x => decide (x.typeId = k)) = [] := by
      rw [List.filter_eq_nil_iff]
      intro x hx
      have hne : x.typeId ≠ k := fun e => hk (e ▸ List.mem_map_of_mem hx)
      simpa using hne
    unfold sumOf
    rw [hf]
    rfl
  constructor
  · rw [hnone]; rfl
  · rw [hnone]; rfl
  · rw [hnone]; rfl

/-- The three additions to the slot of the entry's type. -/
theorem Totals.add {x : TypeSlot} (h : Totals es s.typeId x) : Totals (es ++ [s]) s.typeId { x with
    entryCount := (x.entryCount + s.entryCount) % 2 ^ 64
    totalBytes := (x.totalBytes + s.totalMemBytes) % 2 ^ 64
    viewCount := (x.viewCount + 1) % 2 ^ 64 } := by
  constructor
  · rw [sumOf_append, if_pos rfl, h.entryCount, Nat.mod_add_mod]
  · rw [sumOf_append, if_pos rfl, h.totalBytes, Nat.mod_add_mod]
  · rw [sumOf_append, if_pos rfl, h.viewCount, Nat.mod_add_mod]

theorem Totals.other {x : TypeSlot} {k : ℕ} (h : Totals es k x) (hk : s.typeId ≠ k) : Totals (es ++ [s]) k x := by
  constructor
  · rw [sumOf_append, if_neg hk, Nat.add_zero]; exact h.entryCount
  · rw [sumOf_append, if_neg hk, Nat.add_zero]; exact h.totalBytes
  · rw [sumOf_append, if_neg hk, Nat.add_zero]; exact h.viewCount

/-- The slot of the entry's type is raised; the type may have been entered just before. -/
theorem Holds.raise {i : ℕ} (hid : ids t i = s.typeId) (hfilled : Filled index (ids t))
    (hkeys : ∀ k ≠ 0, Stored (ids t) k ↔ k ∈ (es ++ [s]).map (·.typeId))
    (htotals : ∀ j, ids t j ≠ 0 → Totals es (ids t j) (t j)) :
    Holds (es ++ [s]) (Function.update t i { t i with
      entryCount := ((t i).entryCount + s.entryCount) % 2 ^ 64
      totalBytes := ((t i).totalBytes + s.totalMemBytes) % 2 ^ 64
      viewCount := ((t i).viewCount + 1) % 2 ^ 64 }) := by
  have hids : ids (Function.update t i { t i with
      entryCount := ((t i).entryCount + s.entryCount) % 2 ^ 64
      totalBytes := ((t i).totalBytes + s.totalMemBytes) % 2 ^ 64
      viewCount := ((t i).viewCount + 1) % 2 ^ 64 }) = ids t := by
    rw [ids_update]
    exact Function.update_eq_self i (ids t)
  refine ⟨hids ▸ hfilled, fun k hk => by rw [hids]; exact hkeys k hk, fun j hj => ?_⟩
  rw [hids] at hj ⊢
  by_cases hji : j = i
  · subst hji
    rw [Function.update_self, hid]
    have h := htotals j hj
    rw [hid] at h
    exact h.add
  · rw [Function.update_of_ne hji]
    -- no other slot has this type
    exact (htotals j hj).other fun e => hji (hfilled.unique hj (by rw [← e, hid]))

/-- One more entry: with at most 256 types so far, itself among them, it finds or fills a slot. -/
theorem Holds.recordType (h : Holds es t) (hs : s.typeId ≠ 0)
    (hcap : ((es ++ [s]).map (·.typeId)).toFinset.card ≤ kTypeTableCap) :
    (findOrInsertType t s.typeId).1 ≠ none ∧ Holds (es ++ [s]) (recordType t s) := by
  have hmap : (es ++ [s]).map (·.typeId) = es.map (·.typeId) ++ [s.typeId] := by simp
  have hroom : ¬ Passed index (ids t) s.typeId kTypeTableCap := by
    refine h.filled.not_passed (fun p q hp hq e => ?_) (fun i hi => ?_) ?_ hcap
    · rw [index_eq, index_eq] at e
      exact round_injective hp hq e
    · have hmem := (h.keys _ hi).1 ⟨i, rfl⟩
      rw [List.mem_toFinset, hmap]
      exact List.mem_append_left _ hmem
    · rw [List.mem_toFinset, hmap]
      exact List.mem_append_right _ (List.mem_singleton_self _)
  unfold MapViewTypeTracker.recordType findOrInsertType
  rw [if_neg hs]
  rcases findFrom_cases t s.typeId kTypeTableCap 0 .zero with ⟨q, hid, e⟩ | ⟨q, hp, h0, e⟩ | ⟨hp, -⟩
  · rw [e]
    refine ⟨Option.some_ne_none _, Holds.raise hid h.filled (fun k hk => ?_) h.totals⟩
    rw [h.keys k hk, hmap, List.mem_append, List.mem_singleton]
    constructor
    · exact .inl
    · rintro (hm | rfl)
      · exact hm
      · exact (h.keys _ hs).1 ⟨_, hid⟩
  · rw [e]
    have hnew : s.typeId ∉ es.map (·.typeId) := fun hm => h.filled.not_stored hs hp h0 ((h.keys _ hs).2 hm)
    have hids := ids_update t (index s.typeId q) ⟨s.typeId, 0, 0, 0⟩
    refine ⟨Option.some_ne_none _, Holds.raise ?_ ?_ (fun k hk => ?_) (fun j hj => ?_)⟩
    · rw [hids, Function.update_self]
    · rw [hids]
      exact h.filled.claim hp h0
    · rw [hids, hmap, List.mem_append, List.mem_singleton]
      by_cases hks : k = s.typeId
      · subst hks
        exact iff_of_true (stored_claim h0).1 (.inr rfl)
      · rw [(stored_claim h0).2 k hk hks, h.keys k hk]
        simp [hks]
    · rw [hids] at hj ⊢
      by_cases hjq : j = index s.typeId q
      · subst hjq
        rw [Function.update_self, Function.update_self]
        exact totals_fresh hnew
      · rw [Function.update_of_ne hjq] at hj
        rw [Function.update_of_ne hjq, Function.update_of_ne hjq]
        exact h.totals j hj
  · rw [Nat.zero_add] at hp
    exact absurd hp hroom

end

/-! ## Runs -/

/-- The entry's type has a slot or gets one. -/
def Finds (t : TypeTable) (s : DbpfTypeStats) : Prop := (findOrInsertType t s.typeId).1 ≠ none

instance (t : TypeTable) (s : DbpfTypeStats) : Decidable (Finds t s) := inferInstanceAs (Decidable (_ ≠ _))

theorem holds_foldl : ∀ (rest : List DbpfTypeStats) {es : List DbpfTypeStats} {t : TypeTable}, Holds es t →
    (∀ s ∈ rest, s.typeId ≠ 0) → ((es ++ rest).map (·.typeId)).toFinset.card ≤ kTypeTableCap →
    Run.Guarded recordType Finds t rest ∧ Holds (es ++ rest) (rest.foldl recordType t)
  | [], es, t, h, _, _ => ⟨trivial, by simpa using h⟩
  | s :: rest, es, t, h, hs, hcap => by
    obtain ⟨hs0, hs'⟩ := List.forall_mem_cons.1 hs
    have happ : es ++ s :: rest = (es ++ [s]) ++ rest := by simp
    rw [happ] at hcap ⊢
    have hle : ((es ++ [s]).map (·.typeId)).toFinset.card ≤ kTypeTableCap := by
      refine (Finset.card_le_card fun k hk => ?_).trans hcap
      rw [List.mem_toFinset] at hk ⊢
      obtain ⟨x, hx, rfl⟩ := List.mem_map.1 hk
      exact List.mem_map_of_mem (List.mem_append_left _ hx)
    obtain ⟨hfound, hnext⟩ := h.recordType hs0 hle
    obtain ⟨hrun, hend⟩ := holds_foldl rest hnext hs' hcap
    exact ⟨⟨hfound, hrun⟩, hend⟩

theorem foldl_recordDbpfTypes : ∀ (calls : List (List DbpfTypeStats)) (t : TypeTable),
    calls.foldl recordDbpfTypes t = calls.flatten.foldl recordType t
  | [], _ => rfl
  | l :: calls, t => by
    rw [List.foldl_cons, List.flatten_cons, List.foldl_append]
    exact foldl_recordDbpfTypes calls (recordDbpfTypes t l)

/-- A call counts a type once: no list names it twice. -/
theorem sumOf_one {k : ℕ} : ∀ {calls : List (List DbpfTypeStats)}, (∀ l ∈ calls, (l.map (·.typeId)).Nodup) →
    sumOf (fun _ => 1) calls.flatten k = calls.countP fun l => decide (k ∈ l.map (·.typeId))
  | [], _ => rfl
  | l :: calls, h => by
    obtain ⟨hl, hcalls⟩ := List.forall_mem_cons.1 h
    have hone : sumOf (fun _ => 1) l k = if k ∈ l.map (·.typeId) then 1 else 0 := by
      have hcount : sumOf (fun _ => 1) l k = (l.map (·.typeId)).count k := by
        rw [sumOf, List.map_const', List.sum_replicate, smul_eq_mul, Nat.mul_one, List.count, List.countP_map,
          List.countP_eq_length_filter]
        rfl
      rw [hcount]
      split
      · exact List.count_eq_one_of_mem hl ‹_›
      · exact List.count_eq_zero.2 ‹_›
    have hsplit : sumOf (fun _ => 1) (l :: calls).flatten k = sumOf (fun _ => 1) l k + sumOf (fun _ => 1) calls.flatten k := by
      rw [List.flatten_cons, sumOf, List.filter_append, List.map_append, List.sum_append]
      rfl
    rw [hsplit, hone, sumOf_one hcalls, List.countP_cons, Nat.add_comm]
    simp

/-- What the table holds after the calls. -/
structure Inventory (calls : List (List DbpfTypeStats)) : Prop where
  /-- No insertion failed on the way. -/
  finds : Run.Guarded recordType Finds TypeTable.zero calls.flatten
  /-- Every type seen is in exactly one slot, with its totals. -/
  slot : ∀ k ∈ calls.flatten.map (·.typeId), ∃ i < kTypeTableCap,
    let x := calls.foldl recordDbpfTypes TypeTable.zero i
    x.typeId = k ∧ (∀ j, (calls.foldl recordDbpfTypes TypeTable.zero j).typeId = k → j = i) ∧
      x.entryCount = ((calls.flatten.filter (·.typeId = k)).map (·.entryCount)).sum % 2 ^ 64 ∧
      x.totalBytes = ((calls.flatten.filter (·.typeId = k)).map (·.totalMemBytes)).sum % 2 ^ 64 ∧
      x.viewCount = (calls.countP fun l => decide (k ∈ l.map (·.typeId))) % 2 ^ 64
  /-- No other type is in the table. -/
  seen : ∀ i, (calls.foldl recordDbpfTypes TypeTable.zero i).typeId ≠ 0 →
    (calls.foldl recordDbpfTypes TypeTable.zero i).typeId ∈ calls.flatten.map (·.typeId)

/-- Up to 256 types in all, in whatever order they come and wherever their probes collide, have one
slot each with the exact totals, as words of 64 bits; no insertion fails. -/
theorem inventory_exact {calls : List (List DbpfTypeStats)}
    (hids : ∀ l ∈ calls, (l.map (·.typeId)).Nodup ∧ ∀ s ∈ l, s.typeId ≠ 0)
    (hcap : (calls.flatten.map (·.typeId)).toFinset.card ≤ kTypeTableCap) : Inventory calls := by
  have hne : ∀ s ∈ calls.flatten, s.typeId ≠ 0 := by
    intro s hs
    obtain ⟨l, hl, hsl⟩ := List.mem_flatten.1 hs
    exact (hids l hl).2 s hsl
  obtain ⟨hfinds, hholds⟩ := holds_foldl calls.flatten holds_zero hne hcap
  rw [List.nil_append] at hholds
  refine ⟨hfinds, ?_, ?_⟩
  · rw [foldl_recordDbpfTypes]
    generalize calls.flatten.foldl recordType TypeTable.zero = t at hholds
    intro k hk
    have hk0 : k ≠ 0 := by
      obtain ⟨s, hs, rfl⟩ := List.mem_map.1 hk
      exact hne s hs
    obtain ⟨i, hi⟩ := (hholds.keys k hk0).2 hk
    have hi0 : ids t i ≠ 0 := hi ▸ hk0
    obtain ⟨p, hp, -⟩ := hholds.filled i hi0
    have ht := hholds.totals i hi0
    rw [hi] at ht
    refine ⟨i, hp ▸ index_lt _ _, hi, fun j hj => ?_, ht.entryCount, ht.totalBytes, ?_⟩
    · exact hholds.filled.unique (show ids t j ≠ 0 from fun h0 => hk0 (hj ▸ h0)) (hj.trans hi.symm)
    · rw [ht.viewCount, sumOf_one fun l hl => (hids l hl).1]
  · rw [foldl_recordDbpfTypes]
    intro i hi
    exact (hholds.keys _ hi).1 ⟨i, rfl⟩

/-- Three types of one home, and one of them again in a second view. -/
theorem inventory_collision : Inventory [[⟨1, 2, 30⟩, ⟨257, 1, 5⟩], [⟨0x10000, 4, 7⟩, ⟨257, 3, 11⟩]] :=
  inventory_exact (by decide) (by decide)

end Ts3Vas.MapViewTypeTracker
