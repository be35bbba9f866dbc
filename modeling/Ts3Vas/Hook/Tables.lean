/-
The two record tables of redirected memory: m_allocations, the ordered map of the heap captures, and
the s_vatAddr / s_vatSize arrays of the redirected virtual allocations.
-/
import Mathlib.Data.List.AList
import Mathlib.Data.List.MinMax
import Ts3Vas.Alloc.Basic

namespace Ts3Vas

/-! ## Removing from an array by moving its last element -/

/-- The list with its last element moved to position `i`, one shorter. -/
def swapRemove {α : Type*} (l : List α) (i : ℕ) : List α :=
  match l.getLast? with
  | none => []
  | some last => (l.set i last).dropLast

theorem length_swapRemove {α : Type*} (l : List α) (i : ℕ) : (swapRemove l i).length = l.length - 1 := by
  unfold swapRemove
  cases h : l.getLast? with
  | none => rw [List.getLast?_eq_none_iff.1 h]; rfl
  | some last => simp

/-- Removal loses the element at `i` and no other. -/
theorem perm_swapRemove {α : Type*} {l : List α} {i : ℕ} (h : i < l.length) : l.Perm (l[i] :: swapRemove l i) := by
  obtain ⟨u, last, rfl⟩ : ∃ u last, l = u ++ [last] :=
    have hne : l ≠ [] := by rintro rfl; exact absurd h (by simp)
    ⟨l.dropLast, l.getLast hne, (List.dropLast_append_getLast hne).symm⟩
  simp only [swapRemove, List.getLast?_concat]
  by_cases hi : i < u.length
  · -- the hole is filled from the end
    rw [List.getElem_append_left hi, List.set_append_left _ _ hi, List.dropLast_concat]
    have h1 : (u ++ [last]).Perm (last :: u) := List.perm_append_singleton _ _
    have h2 : (last :: u).Perm (last :: u[i] :: u.eraseIdx i) := (List.getElem_cons_eraseIdx_perm hi).symm.cons _
    have h3 : (last :: u[i] :: u.eraseIdx i).Perm (u[i] :: last :: u.eraseIdx i) := List.Perm.swap ..
    exact (h1.trans (h2.trans h3)).trans ((List.set_perm_cons_eraseIdx hi last).symm.cons _)
  · -- the last element itself goes
    have hlen : i = u.length := by simp at h; omega
    subst hlen
    simp

/-! ## m_allocations -/

/-- The fields of `ProxyAllocRecord` that frees and reallocations read. -/
structure ProxyAllocRecord where
  proxyBase : ℕ
  proxySize : ℕ
  deriving DecidableEq, Repr

/-- m_allocations, by slot address. -/
abbrev Allocations := AList fun _ : ℕ => ProxyAllocRecord

/-- FindRecordByAddress: the map is walked by increasing base. -/
def Allocations.findRecordByAddress (m : Allocations) (address : ℕ) : Option ProxyAllocRecord :=
  ((m.entries.filter fun e => e.1 ≤ address ∧ address < ptrAdd e.1 e.2.proxySize).argmin Sigma.fst).map Sigma.snd

/-! ## The tracker of redirected virtual allocations -/

def kVatMax : ℕ := 8192

structure VatEntry where
  addr : ℕ
  size : ℕ
  deriving DecidableEq, Repr

/-- The first `s_vatCount` places of s_vatAddr and s_vatSize. -/
structure Vat where
  entries : List VatEntry
  fits : entries.length ≤ kVatMax

namespace Vat

def empty : Vat := ⟨[], Nat.zero_le _⟩

/-- VatTrack drops the entry when the arrays are full. -/
def track (v : Vat) (addr size : ℕ) : Vat :=
  if h : v.entries.length < kVatMax then ⟨v.entries ++ [⟨addr, size⟩], by rw [List.length_append]; exact h⟩ else v

/-- VatUntrack: the first entry of the address, and the arrays without it. -/
def untrack (v : Vat) (addr : ℕ) : Option ℕ × Vat :=
  match v.entries.find? (·.addr == addr) with
  | none => (none, v)
  | some e => (some e.size, ⟨swapRemove v.entries (v.entries.findIdx (·.addr == addr)),
      (length_swapRemove _ _).trans_le ((Nat.sub_le _ _).trans v.fits)⟩)

/-- The addresses that have an entry. -/
def addrs (v : Vat) : List ℕ := v.entries.map (·.addr)

theorem track_of_lt {v : Vat} (h : v.entries.length < kVatMax) (addr size : ℕ) :
    (v.track addr size).entries = v.entries ++ [⟨addr, size⟩] := by rw [track, dif_pos h]

theorem track_of_full {v : Vat} (h : v.entries.length = kVatMax) (addr size : ℕ) : v.track addr size = v := by
  rw [track, dif_neg (by omega)]

/-- Tracking appends the entry or, when the arrays are full, changes nothing. -/
theorem track_cases (v : Vat) (addr size : ℕ) :
    (v.track addr size).entries = v.entries ++ [⟨addr, size⟩] ∨ v.track addr size = v := by
  by_cases h : v.entries.length < kVatMax
  · exact .inl (track_of_lt h addr size)
  · exact .inr (by rw [track, dif_neg h])

/-- The addresses `f 0`, `f 1`, … tracked one after the other: the arrays are full from the 8192nd on. -/
theorem addrs_track {v : Vat} {f : ℕ → ℕ} {k : ℕ} (h : v.addrs = (List.range (min k kVatMax)).map f) (size : ℕ) :
    (v.track (f k) size).addrs = (List.range (min (k + 1) kVatMax)).map f := by
  have hlen : v.entries.length = min k kVatMax := by
    have := congrArg List.length h
    rwa [addrs, List.length_map, List.length_map, List.length_range] at this
  by_cases hroom : k < kVatMax
  · rw [min_eq_left hroom.le] at hlen h
    rw [min_eq_left (Nat.succ_le_of_lt hroom), List.range_succ, List.map_append, ← h, addrs,
      track_of_lt (hlen ▸ hroom), List.map_append]
    rfl
  · rw [min_eq_right (not_lt.1 hroom)] at hlen h
    rw [track_of_full hlen, h, min_eq_right (by omega)]

/-- Untracking finds no entry and changes nothing, or takes out one entry of the address. -/
theorem untrack_cases (v : Vat) (addr : ℕ) :
    (addr ∉ v.addrs ∧ v.untrack addr = (none, v)) ∨
    ∃ size, (v.untrack addr).1 = some size ∧ v.entries.Perm (⟨addr, size⟩ :: (v.untrack addr).2.entries) := by
  unfold untrack
  cases hf : v.entries.find? (·.addr == addr) with
  | none =>
    left
    have hn := List.find?_eq_none.1 hf
    refine ⟨fun hm => ?_, rfl⟩
    obtain ⟨e, he, rfl⟩ := List.mem_map.1 hm
    exact hn e he (by simp)
  | some e =>
    right
    have haddr : e.addr = addr := by simpa using List.find?_some hf
    have hlt : v.entries.findIdx (·.addr == addr) < v.entries.length :=
      List.findIdx_lt_length_of_exists ⟨e, List.mem_of_find?_eq_some hf, by simpa using haddr⟩
    have hget : v.entries[v.entries.findIdx (·.addr == addr)] = e := by
      rw [List.find?_eq_getElem?_findIdx, List.getElem?_eq_getElem hlt] at hf
      exact Option.some.inj hf
    refine ⟨e.size, rfl, ?_⟩
    -- the last entry moves into the place of the first match
    have hp := perm_swapRemove hlt
    rw [hget] at hp
    subst haddr
    exact hp

/-- The size recorded for the address. -/
def lookup (v : Vat) (addr : ℕ) : Option ℕ := (v.entries.find? (·.addr == addr)).map (·.size)

theorem lookup_eq_none {v : Vat} {addr : ℕ} : v.lookup addr = none ↔ addr ∉ v.addrs := by
  simp [lookup, addrs]

/-- With one entry an address, an address has the size of its entry. -/
theorem lookup_eq_some {v : Vat} (h : v.addrs.Nodup) {addr size : ℕ} :
    v.lookup addr = some size ↔ ⟨addr, size⟩ ∈ v.entries := by
  constructor
  · intro hl
    obtain ⟨e, he, rfl⟩ := Option.map_eq_some_iff.1 hl
    have haddr : e.addr = addr := by simpa using List.find?_some he
    subst haddr
    exact List.mem_of_find?_eq_some he
  · intro hm
    cases hl : v.lookup addr with
    | none => exact absurd (List.mem_map_of_mem hm) (lookup_eq_none.1 hl)
    | some n =>
      obtain ⟨e, he, rfl⟩ := Option.map_eq_some_iff.1 hl
      have haddr : e.addr = addr := by simpa using List.find?_some he
      rw [List.inj_on_of_nodup_map h (List.mem_of_find?_eq_some he) hm haddr]

/-- The arrays keep the first 8192 of the addresses `f 0`, `f 1`, … tracked, and drop the later ones. -/
theorem lookup_of_dropped {v : Vat} {f : ℕ → ℕ} (hf : f.Injective) {k i : ℕ}
    (h : v.addrs = (List.range (min k kVatMax)).map f) (hi : kVatMax ≤ i) : v.lookup (f i) = none := by
  rw [lookup_eq_none, h, List.mem_map_of_injective hf, List.mem_range]
  omega

theorem untrack_fst (v : Vat) (addr : ℕ) : (v.untrack addr).1 = v.lookup addr := by
  unfold untrack lookup
  cases v.entries.find? (·.addr == addr) <;> rfl

/-- What untracking takes out is the entry of the address, and only that. -/
theorem perm_untrack {v : Vat} {addr size : ℕ} (h : v.lookup addr = some size) :
    v.entries.Perm (⟨addr, size⟩ :: (v.untrack addr).2.entries) := by
  rcases v.untrack_cases addr with ⟨hn, -⟩ | ⟨n, hn, hp⟩
  · rw [lookup_eq_none.2 hn] at h; cases h
  · rw [untrack_fst, h] at hn
    cases hn
    exact hp

theorem untrack_of_none {v : Vat} {addr : ℕ} (h : v.lookup addr = none) : v.untrack addr = (none, v) := by
  rcases v.untrack_cases addr with ⟨-, e⟩ | ⟨n, hn, -⟩
  · exact e
  · rw [untrack_fst, h] at hn; cases hn

theorem nodup_untrack {v : Vat} (h : v.addrs.Nodup) (addr : ℕ) : (v.untrack addr).2.addrs.Nodup := by
  cases hl : v.lookup addr with
  | none => rw [untrack_of_none hl]; exact h
  | some n => exact (List.nodup_cons.1 (((perm_untrack hl).map _).nodup_iff.1 h)).2

theorem lookup_untrack {v : Vat} (h : v.addrs.Nodup) (addr a : ℕ) :
    (v.untrack addr).2.lookup a = if a = addr then none else v.lookup a := by
  cases hl : v.lookup addr with
  | none =>
    rw [untrack_of_none hl]
    split_ifs with ha
    · rw [ha, hl]
    · rfl
  | some n =>
    have hp := perm_untrack hl
    have hnd := (hp.map VatEntry.addr).nodup_iff.1 h
    have h' := nodup_untrack h addr
    split_ifs with ha
    · rw [ha, lookup_eq_none]
      exact (List.nodup_cons.1 hnd).1
    · -- entries of other addresses are the same before and after
      refine Option.ext fun m => ?_
      rw [lookup_eq_some h', lookup_eq_some h, hp.mem_iff, List.mem_cons, VatEntry.mk.injEq]
      simp [ha]

theorem nodup_track {v : Vat} (h : v.addrs.Nodup) {addr : ℕ} (hn : v.lookup addr = none) (size : ℕ) :
    (v.track addr size).addrs.Nodup := by
  rcases v.track_cases addr size with e | e
  · rw [addrs, e, List.map_append]
    exact List.nodup_append_comm.1 (List.nodup_cons.2 ⟨lookup_eq_none.1 hn, h⟩)
  · rw [e]; exact h

theorem lookup_append {v w : Vat} {addr size : ℕ} (e : w.entries = v.entries ++ [⟨addr, size⟩])
    (hn : v.lookup addr = none) (a : ℕ) : w.lookup a = if a = addr then some size else v.lookup a := by
  unfold lookup at hn ⊢
  rw [e, List.find?_append]
  split_ifs with ha
  · subst ha
    rw [Option.map_eq_none_iff.1 hn]
    simp
  · have hf : ([⟨addr, size⟩] : List VatEntry).find? (·.addr == a) = none := by simp [Ne.symm ha]
    rw [hf, Option.or_none]

end Vat

/-! ## Both tables -/

/-- Who keeps the record of a redirected slot: the heap hooks in m_allocations, the virtual-memory
hooks in the tracker. -/
inductive Keeper
  | allocations
  | vat
  deriving DecidableEq, Repr

structure Tables where
  allocations : Allocations
  vat : Vat

namespace Tables

def empty : Tables := ⟨∅, Vat.empty⟩

/-- `m_allocations[addr] = record`, or `VatTrack`. -/
def put (t : Tables) (addr size : ℕ) : Keeper → Tables
  | .allocations => { t with allocations := t.allocations.insert addr ⟨addr, size⟩ }
  | .vat => { t with vat := t.vat.track addr size }

/-- Find and erase in m_allocations, or `VatUntrack`. -/
def take (t : Tables) (addr : ℕ) : Keeper → Option ProxyAllocRecord × Tables
  | .allocations => (t.allocations.lookup addr, { t with allocations := t.allocations.erase addr })
  | .vat => ((t.vat.untrack addr).1.map (⟨addr, ·⟩), { t with vat := (t.vat.untrack addr).2 })

/-- The record that the keeper would find. -/
def view (t : Tables) (addr : ℕ) : Keeper → Option ProxyAllocRecord
  | .allocations => t.allocations.lookup addr
  | .vat => (t.vat.lookup addr).map (⟨addr, ·⟩)

theorem take_fst (t : Tables) (addr : ℕ) (k : Keeper) : (t.take addr k).1 = t.view addr k := by
  cases k with
  | allocations => rfl
  | vat => rw [take, view, Vat.untrack_fst]

theorem view_take {t : Tables} (h : t.vat.addrs.Nodup) (addr : ℕ) (k : Keeper) (a : ℕ) (j : Keeper) :
    (t.take addr k).2.view a j = if j = k ∧ a = addr then none else t.view a j := by
  cases k <;> cases j <;> simp only [take, view, reduceCtorEq, false_and, if_false, true_and]
  · split_ifs with ha
    · rw [ha, AList.lookup_erase]
    · rw [AList.lookup_erase_ne ha]
  · rw [Vat.lookup_untrack h]
    split_ifs <;> rfl

theorem nodup_take {t : Tables} (h : t.vat.addrs.Nodup) (addr : ℕ) (k : Keeper) : (t.take addr k).2.vat.addrs.Nodup := by
  cases k with
  | allocations => exact h
  | vat => exact Vat.nodup_untrack h addr

theorem nodup_put {t : Tables} (h : t.vat.addrs.Nodup) {addr : ℕ} {k : Keeper} (hn : t.view addr k = none) (size : ℕ) :
    (t.put addr size k).vat.addrs.Nodup := by
  cases k with
  | allocations => exact h
  | vat => exact Vat.nodup_track h (Option.map_eq_none_iff.1 hn) size

/-- A new record is found from now on; only the tracker may refuse it, and then nothing changes. -/
theorem view_put {t : Tables} {addr : ℕ} {k : Keeper} (hn : t.view addr k = none) (size : ℕ) :
    (∀ a j, (t.put addr size k).view a j = if j = k ∧ a = addr then some ⟨addr, size⟩ else t.view a j) ∨
      k = .vat ∧ t.put addr size k = t := by
  cases k with
  | allocations =>
    left
    rintro a (_ | _)
    · simp only [put, view, true_and]
      split_ifs with ha
      · rw [ha, AList.lookup_insert]
      · rw [AList.lookup_insert_ne ha]
    · rfl
  | vat =>
    have hn' : t.vat.lookup addr = none := Option.map_eq_none_iff.1 hn
    rcases t.vat.track_cases addr size with e | e
    · left
      rintro a (_ | _)
      · rfl
      · simp only [put, view, true_and]
        rw [Vat.lookup_append e hn']
        split_ifs with ha
        · rw [ha]; rfl
        · rfl
    · right
      exact ⟨rfl, by rw [put, e]⟩

end Tables

end Ts3Vas
