/-
The blocks that a program holds, whichever tier they are in: those of the heaps below the hooks, which
lie in a shard or outside the arena, and the captured ones, which have a slot of the arena and a record.
-/
import Ts3Vas.Conc.Handover
import Ts3Vas.Hook.Realloc
import Ts3Vas.Hook.Shelter
import Ts3Vas.Lib.Blocks

namespace Ts3Vas

open Prog Blocks

variable {σ : Type}

/-! ## Blocks in any tier -/

/-- Who holds a block. -/
inductive Owner
  | arena
  | heap (handle : ℕ)
  deriving DecidableEq, Repr

/-- Every block, with what the memory holds: those of the heaps, and those with a record. -/
def View.snapshot (v : View σ) (os : σ) (records : Allocations) : Snapshot Owner where
  block p := match v.block os p with
    | some (h, n) => some (.heap h, n)
    | none => (records.lookup p).map fun r => (.arena, r.proxySize)
  byte := v.contents os

abbrev View.seen (v : View σ) (w : World σ) : Snapshot Owner := v.snapshot w.os w.tool.tables.allocations

/-- The hooks that are called on a heap find the owner: the arena and the shards by the address, the
heap itself by its handle. -/
def Owner.Found (t : Tool) (heap : ℕ) : Owner → Prop
  | arena => True
  | .heap h => h = heap ∨ h ∈ t.shards.map (·.handle)

instance Owner.decidableFound (t : Tool) (heap : ℕ) : (o : Owner) → Decidable (o.Found t heap)
  | arena => inferInstanceAs (Decidable True)
  | .heap _ => inferInstanceAs (Decidable (_ ∨ _))

/-- Where the heaps have their blocks: a shard's heap in shards, any other outside the arena and the
shards. -/
structure Homes (v : View σ) (os : σ) (t : Tool) : Prop where
  nonzero : ∀ p b, v.block os p = some b → p ≠ 0
  small : ∀ p b, v.block os p = some b → b.2 < minusOne
  own : ∀ p h n, v.block os p = some (h, n) → ∀ s ∈ t.shards, ∀ x, Touches p n x → s.Holds x → h = s.handle
  inShard : ∀ p h n, v.block os p = some (h, n) → h ∈ t.shards.map (·.handle) → ∀ x, Touches p n x → ∃ s ∈ t.shards, s.Holds x
  outside : ∀ p h n, v.block os p = some (h, n) → h ∉ t.shards.map (·.handle) → ∀ x, Touches p n x → isProxyAddress t x = false

/-- A slot that is granted and no shard's. -/
structure Slotted (t : Tool) (slot : Slot) : Prop where
  live : slot ∈ t.sys.live
  clear : Clear t.shards slot.addr
  positive : 0 < slot.size
  top : slot.addr + slot.size ≤ 2 ^ 32

/-- What the hooks keep of the tool and of the heaps below. -/
structure Tidy (v : View σ) (os : σ) (t : Tool) : Prop where
  memManager : t.memManager = true
  /-- `Real_HeapSize` is not null. -/
  heapSize : t.resolved .heapSize = true
  sheltered : Sheltered t.sys t.shards
  records : ∀ p r, t.tables.allocations.lookup p = some r → r.proxyBase = p ∧ Slotted t ⟨p, r.proxySize⟩
  homes : Homes v os t
  formed : (v.snapshot os t.tables.allocations).Formed

section
variable {v : View σ} {os : σ} {t t' : Tool} {p n x : ℕ} {slot : Slot}

theorem View.snapshot_heap {h : ℕ} (records : Allocations) (hb : v.block os p = some (h, n)) :
    (v.snapshot os records).block p = some (.heap h, n) := by simp [View.snapshot, hb]

/-- A block of a heap, or a record where no heap has a block. -/
theorem View.snapshot_cases {records : Allocations} {o : Owner} (hb : (v.snapshot os records).block p = some (o, n)) :
    (∃ h, o = .heap h ∧ v.block os p = some (h, n)) ∨
      (o = .arena ∧ v.block os p = none ∧ ∃ r, records.lookup p = some r ∧ r.proxySize = n) := by
  simp only [View.snapshot] at hb
  cases hv : v.block os p with
  | some b =>
    rw [hv] at hb
    cases hb
    exact .inl ⟨b.1, rfl, rfl⟩
  | none =>
    rw [hv] at hb
    obtain ⟨r, hr, e⟩ := Option.map_eq_some_iff.1 hb
    cases e
    exact .inr ⟨rfl, rfl, r, hr, rfl⟩

theorem View.block_of_snapshot {h : ℕ} {records : Allocations} (hb : (v.snapshot os records).block p = some (.heap h, n)) :
    v.block os p = some (h, n) := by
  rcases View.snapshot_cases hb with ⟨h, e, hb⟩ | ⟨e, -⟩
  · cases e
    exact hb
  · cases e

/-! ## What lies in a slot -/

/-- The addresses of the slot, rounded up to whole granules. -/
abbrev Tool.span (t : Tool) (slot : Slot) : Span := slot.span t.sys.alloc.allocGranularity

theorem Sys.Sound.ne_zero {sys : Sys} (hs : sys.Sound) (hin : sys.alloc.isProxyAddress x = true) : x ≠ 0 := by
  have hlow := hs.books.placed.low
  simp only [ProxyAllocator.isProxyAddress, Bool.and_eq_true, decide_eq_true_eq] at hin
  omega

/-- Every byte of a granted slot is an address of the arena, -/
theorem Sys.Sound.isProxyAddress_span {sys : Sys} (hs : sys.Sound) (hm : slot ∈ sys.live)
    (hx : x ∈ slot.span sys.alloc.allocGranularity) : sys.alloc.isProxyAddress x = true := by
  have hin := (hs.inArena hm).within
  have hlow := hs.books.placed.low
  have htop : ptrAdd sys.alloc.arenaBase sys.alloc.arenaSize = sys.alloc.arenaBase + sys.alloc.arenaSize :=
    Nat.mod_eq_of_lt hs.books.placed.top_lt
  simp only [Span.Within, Slot.span, Span.hi_mk, Span.mem_mk] at hin hx
  simp only [ProxyAllocator.isProxyAddress, htop, Bool.and_eq_true, decide_eq_true_eq]
  omega

/-- and two granted slots share none. -/
theorem Sys.Sound.apart {sys : Sys} (hs : sys.Sound) {slot' : Slot} (hm : slot ∈ sys.live) (hm' : slot' ∈ sys.live)
    (hne : slot ≠ slot') : Span.Apart (slot.span sys.alloc.allocGranularity) (slot'.span sys.alloc.allocGranularity) := by
  have hsymm : Std.Symm fun a b : Slot =>
      Span.Apart (a.span sys.alloc.allocGranularity) (b.span sys.alloc.allocGranularity) := ⟨fun _ _ h => h.symm⟩
  exact (List.pairwise_map.1 hs.pairwise).forall hm hm' hne

/-- A slot that starts in no shard meets none. -/
theorem Sheltered.clear_span {sys : Sys} {shards : List Shard} (h : Sheltered sys shards) (hm : slot ∈ sys.live)
    (hc : Clear shards slot.addr) (hx : x ∈ slot.span sys.alloc.allocGranularity) : Clear shards x := by
  rintro s hs hold
  rcases h.placed s hs with ⟨slot', hm', e, hhi⟩ | hout
  · -- the slot of the shard is another one, since it starts in the shard
    have hlo : s.Holds slot'.addr := by
      unfold Shard.Holds at hold ⊢
      omega
    have hne : slot ≠ slot' := by
      rintro rfl
      exact hc s hs hlo
    apply h.sound.apart hm hm' hne x hx
    unfold Shard.Holds at hold
    simp only [Slot.span, Span.mem_mk]
    omega
  · have := hout x hold
    rw [h.sound.isProxyAddress_span hm hx] at this
    cases this

/-- No heap has a block there. -/
theorem Homes.not_in_slot (h : Homes v os t) (hs : Sheltered t.sys t.shards) (hm : slot ∈ t.sys.live)
    (hc : Clear t.shards slot.addr) {handle : ℕ} (hb : v.block os p = some (handle, n)) (hx : Touches p n x) :
    x ∉ t.span slot := by
  intro hin
  by_cases hh : handle ∈ t.shards.map (·.handle)
  · obtain ⟨s, hmem, hold⟩ := h.inShard p handle n hb hh x hx
    exact hs.clear_span hm hc hin s hmem hold
  · have hout : t.sys.alloc.isProxyAddress x = false := h.outside p handle n hb hh x hx
    rw [hs.sound.isProxyAddress_span hm hin] at hout
    cases hout

/-- The bytes asked for are in the slot, and so is every byte of their pages. -/
theorem Slotted.touches (h : Slotted t slot) (hs : t.sys.Sound) (hx : Touches slot.addr slot.size x) : x ∈ t.span slot := by
  have hb := alignUp_bounds hs.books.placed.gran (hs.noWrap h.live h.top)
  have hp := h.positive
  unfold Touches at hx
  simp only [Tool.span, Slot.span, Span.mem_mk]
  omega

theorem Slotted.isProxyAddress (h : Slotted t slot) (hs : t.sys.Sound) : isProxyAddress t slot.addr = true :=
  hs.isProxyAddress_span h.live (h.touches hs (touches_self _ _))

theorem Slotted.pages (h : Slotted t slot) (hs : t.sys.Sound) (hx : InPages slot.addr slot.size (x / 4096)) : x ∈ t.span slot := by
  have hb := alignUp_bounds hs.books.placed.gran (hs.noWrap h.live h.top)
  have hd := hs.books.placed.gran.page_dvd
  have hlo : 4096 ∣ slot.addr := hd.trans (hs.inArena h.live).lo_dvd
  have hlen : 4096 ∣ alignUp slot.size t.sys.alloc.allocGranularity := hd.trans (hs.inArena h.live).len_dvd
  have hin := hx.mem hlo
  simp only [Tool.span, Slot.span, Span.mem_mk]
  omega

/-! ## What slots and records keep in order -/

theorem Homes.of_same (h : Homes v os t) (hsh : t'.shards = t.shards) (ha : ProxyAllocator.SameArena t.sys.alloc t'.sys.alloc) :
    Homes v os t' := by
  refine ⟨h.nonzero, h.small, hsh ▸ h.own, hsh ▸ h.inShard, ?_⟩
  rintro p handle n hb hh x hx
  rw [hsh] at hh
  exact (ha.isProxyAddress x).trans (h.outside p handle n hb hh x hx)

/-- The arena may grant and take back slots as long as those of the records stay. -/
theorem Tidy.of_sys (h : Tidy v os t) (hm : t'.memManager = t.memManager) (hf : t'.resolved = t.resolved) (hsh : t'.shards = t.shards)
    (hr : t'.tables.allocations = t.tables.allocations) (hs : Sheltered t'.sys t.shards)
    (ha : ProxyAllocator.SameArena t.sys.alloc t'.sys.alloc)
    (hl : ∀ p r, t.tables.allocations.lookup p = some r → (⟨p, r.proxySize⟩ : Slot) ∈ t'.sys.live) : Tidy v os t' := by
  constructor
  · exact hm.trans h.memManager
  · exact hf ▸ h.heapSize
  · exact hsh ▸ hs
  · rintro p r hp
    rw [hr] at hp
    obtain ⟨e, hslot⟩ := h.records p r hp
    exact ⟨e, hl p r hp, hsh ▸ hslot.clear, hslot.positive, hslot.top⟩
  · exact h.homes.of_same hsh ha
  · exact hr ▸ h.formed

/-- A tool that differs in other things. -/
theorem Tidy.of_eq (h : Tidy v os t) (hm : t'.memManager = t.memManager) (hf : t'.resolved = t.resolved) (hs : t'.sys = t.sys) (hsh : t'.shards = t.shards)
    (hr : t'.tables.allocations = t.tables.allocations) : Tidy v os t' :=
  h.of_sys hm hf hsh hr (hs ▸ h.sheltered) (hs ▸ .refl _) fun p r hp => hs ▸ (h.records p r hp).2.live

/-- No heap has a block in a slot that is no shard's. -/
theorem Tidy.block_none (h : Tidy v os t) (hslot : Slotted t slot) : v.block os slot.addr = none := by
  cases hb : v.block os slot.addr with
  | none => rfl
  | some b =>
    refine absurd (hslot.touches h.sheltered.sound (touches_self slot.addr slot.size)) ?_
    exact h.homes.not_in_slot h.sheltered hslot.live hslot.clear hb (touches_self slot.addr b.2)

/-- A recorded block is the arena's. -/
theorem Tidy.snapshot_record (h : Tidy v os t) {r : ProxyAllocRecord} (hr : t.tables.allocations.lookup p = some r) :
    (v.snapshot os t.tables.allocations).block p = some (.arena, r.proxySize) := by
  have hb : v.block os p = none := (h.block_none (h.records p r hr).2 :)
  simp [View.snapshot, hb, hr]

/-- A slot without a record of its own holds no byte of a block. -/
theorem Tidy.not_in_slot (h : Tidy v os t) (hslot : Slotted t slot) (hn : t.tables.allocations.lookup slot.addr = none)
    {b : Owner × ℕ} (hb : (v.snapshot os t.tables.allocations).block p = some b) (hx : Touches p b.2 x) : x ∉ t.span slot := by
  rcases View.snapshot_cases hb with ⟨handle, -, hb⟩ | ⟨-, -, r, hr, e⟩
  · exact h.homes.not_in_slot h.sheltered hslot.live hslot.clear hb hx
  · -- the slot of another record
    have hs := h.sheltered.sound
    obtain ⟨-, hslot'⟩ := h.records p r hr
    have hne : (⟨p, r.proxySize⟩ : Slot) ≠ slot := by
      rintro rfl
      rw [hr] at hn
      cases hn
    apply hs.apart hslot'.live hslot.live hne x
    exact hslot'.touches hs (e ▸ hx)

/-- A capture gets its record. -/
theorem Tidy.put (h : Tidy v os t) (hslot : Slotted t ⟨p, n⟩) (hn : t.tables.allocations.lookup p = none)
    (hc : ∀ x, p ≤ x → x < p + n → (v.contents os x).isSome) :
    Tidy v os { t with tables := t.tables.put p n .allocations } ∧
      Grants (· = .arena) n p (v.snapshot os t.tables.allocations) (v.snapshot os (t.tables.put p n .allocations).allocations) := by
  have hs := h.sheltered.sound
  have hnone : v.block os p = none := h.block_none hslot
  have hgains : Gains p (.arena, n) (v.snapshot os t.tables.allocations) (v.snapshot os (t.tables.put p n .allocations).allocations) := by
    constructor
    · simp [View.snapshot, Tables.put, hnone]
    · intro q hq
      simp [View.snapshot, Tables.put, AList.lookup_insert_ne hq]
    · rfl
  have hin : ∀ x, Touches p n x → x ∈ t.span ⟨p, n⟩ := fun x hx => hslot.touches hs hx
  refine ⟨⟨h.memManager, h.heapSize, h.sheltered, ?_, ⟨h.homes.nonzero, h.homes.small, h.homes.own, h.homes.inShard, h.homes.outside⟩, ?_⟩, ?_⟩
  · rintro q r hq
    by_cases hqp : q = p
    · subst hqp
      simp only [Tables.put, AList.lookup_insert, Option.some.injEq] at hq
      subst hq
      exact ⟨rfl, hslot.live, hslot.clear, hslot.positive, hslot.top⟩
    · simp only [Tables.put, AList.lookup_insert_ne hqp] at hq
      obtain ⟨e, hslot'⟩ := h.records q r hq
      exact ⟨e, hslot'.live, hslot'.clear, hslot'.positive, hslot'.top⟩
  · exact hgains.formed h.formed hc fun q c _ hb x hx hx' => h.not_in_slot hslot hn hb hx' (hin x hx)
  · exact hgains.grants (by simp [View.snapshot, hnone, hn]) rfl

/-- A record that is taken out leaves its slot behind. -/
theorem Tidy.take (h : Tidy v os t) {r : ProxyAllocRecord} (hr : t.tables.allocations.lookup p = some r) :
    Tidy v os { t with tables := (t.tables.take p .allocations).2 } ∧
      Frees p (v.snapshot os t.tables.allocations) (v.snapshot os (t.tables.take p .allocations).2.allocations) := by
  have hnone : v.block os p = none := (h.block_none (h.records p r hr).2 :)
  have hloses : Loses p (v.snapshot os t.tables.allocations) (v.snapshot os (t.tables.take p .allocations).2.allocations) := by
    constructor
    · simp [View.snapshot, Tables.take, hnone]
    · intro q hq
      simp [View.snapshot, Tables.take, AList.lookup_erase_ne hq]
    · rfl
  refine ⟨⟨h.memManager, h.heapSize, h.sheltered, ?_, ⟨h.homes.nonzero, h.homes.small, h.homes.own, h.homes.inShard, h.homes.outside⟩, ?_⟩,
    hloses.frees⟩
  · rintro q r' hq
    have hqp : q ≠ p := by
      rintro rfl
      simp [Tables.take, AList.lookup_erase] at hq
    simp only [Tables.take, AList.lookup_erase_ne hqp] at hq
    obtain ⟨e, hslot⟩ := h.records q r' hq
    exact ⟨e, hslot.live, hslot.clear, hslot.positive, hslot.top⟩
  · exact hloses.formed h.formed

/-- The slot goes back to the arena. -/
theorem Tidy.free (h : Tidy v os t) (hslot : Slotted t slot) (hn : t.tables.allocations.lookup slot.addr = none) :
    Tidy v os { t with sys := t.sys.step (.free slot) } := by
  have hop : t.sys.Owned (.free slot) := hslot.live
  obtain ⟨hs, ha⟩ := h.sheltered.sound.step_same hop
  refine h.of_sys rfl rfl rfl rfl ⟨hs, h.sheltered.positive, ?_⟩ ha ?_
  · -- a shard that has its slot from the arena has another one, if it holds anything
    rintro s hmem
    rcases h.sheltered.placed s hmem with ⟨slot', hm', e, hhi⟩ | hout
    · by_cases hne : slot' = slot
      · refine .inr fun q hq => absurd ?_ (hslot.clear s hmem)
        rw [← hne]
        unfold Shard.Holds at hq ⊢
        omega
      · refine .inl ⟨slot', ?_, e, ha.2.2 ▸ hhi⟩
        exact (List.mem_erase_of_ne hne).2 hm'
    · refine .inr fun q hq => ?_
      rw [ha.isProxyAddress]
      exact hout q hq
  · rintro p r hp
    have hne : (⟨p, r.proxySize⟩ : Slot) ≠ slot := by
      rintro rfl
      rw [hp] at hn
      cases hn
    exact (List.mem_erase_of_ne hne).2 (h.records p r hp).2.live

/-! ## A slot for a capture -/

variable {size : ℕ} {fromTop : Bool}

theorem Tidy.allocate (h : Tidy v os t) (size : ℕ) (fromTop : Bool) :
    Tidy v os { t with sys := t.sys.step (.allocate size fromTop) } := by
  obtain ⟨-, ha⟩ := h.sheltered.sound.allocate_same size fromTop
  by_cases hp : (t.sys.alloc.allocate size fromTop).1 = 0
  · refine h.of_sys rfl rfl rfl rfl (h.sheltered.refused hp) ha fun p r hr => ?_
    rw [Sys.step_allocate, if_pos hp]
    exact (h.records p r hr).2.live
  · refine h.of_sys rfl rfl rfl rfl (h.sheltered.granted hp) ha fun p r hr => ?_
    rw [Sys.live_granted hp]
    exact List.mem_append_left _ (h.records p r hr).2.live

/-- A slot that goes back before it has a record. -/
theorem Tidy.giveBack {os' : σ} (h : Tidy v os t) (hp : (t.sys.alloc.allocate size fromTop).1 ≠ 0)
    (h' : Tidy v os' { t with sys := t.sys.step (.allocate size fromTop) }) :
    Tidy v os' { t with
      sys := (t.sys.step (.allocate size fromTop)).step (.free ⟨(t.sys.alloc.allocate size fromTop).1, size⟩) } := by
  have hop : Sys.Owned (t.sys.step (.allocate size fromTop)) (.free ⟨(t.sys.alloc.allocate size fromTop).1, size⟩) :=
    Sys.mem_granted hp
  obtain ⟨-, ha⟩ := h'.sheltered.sound.step_same hop
  obtain ⟨-, -, hperm⟩ := h.sheltered.sound.returned hp
  refine h'.of_sys rfl rfl rfl rfl (h.sheltered.returned hp) ha fun p r hr => ?_
  exact hperm.mem_iff.2 (h.records p r hr).2.live

/-- A slot that can be committed is no shard's and no other record's. -/
theorem Tidy.slotted (h : Tidy v os t) (hp : (t.sys.alloc.allocate size fromTop).1 ≠ 0)
    (hin : isProxyAddress t (t.sys.alloc.allocate size fromTop).1 = true) (hpos : 0 < size)
    (htop : (t.sys.alloc.allocate size fromTop).1 + size ≤ 2 ^ 32) :
    Slotted { t with sys := t.sys.step (.allocate size fromTop) } ⟨(t.sys.alloc.allocate size fromTop).1, size⟩ ∧
      t.tables.allocations.lookup (t.sys.alloc.allocate size fromTop).1 = none := by
  have hs := h.sheltered.sound
  have hround := hs.granted_pos hp hpos htop
  refine ⟨⟨Sys.mem_granted hp, fun s hmem => h.sheltered.apart hp hin hround hmem, hpos, htop⟩, ?_⟩
  cases hr : t.tables.allocations.lookup (t.sys.alloc.allocate size fromTop).1 with
  | none => rfl
  | some r =>
    obtain ⟨-, hslot⟩ := h.records _ r hr
    refine absurd ?_ (hs.granted_apart hp hslot.live (t.sys.alloc.allocate size fromTop).1 ?_)
    · simp only [Slot.span, Span.mem_mk]
      omega
    · exact hslot.touches hs (touches_self _ _)

end

end Ts3Vas
