/-
Threads that redirect and release memory at the same time. Every hook is broken into the steps that
its locks and its OS calls make atomic, and the steps of all threads may come in any order. What
keeps it safe is the order within a release: record out, pages decommitted, slot freed. A release finds its
record as long as the tracker has had room for it.
-/
import Ts3Vas.Hook.Tables
import Ts3Vas.Alloc.Crowd

namespace Ts3Vas

open ProxyAllocator

/-! ## Grants -/

/-- How far the call that has the slot has come. -/
inductive Phase
  /-- `Allocate` returned the slot. -/
  | allocated
  /-- A check or MEM_COMMIT failed: the slot goes back. -/
  | rejected
  | committed
  /-- The record is in its table, the caller does not have the pointer yet. -/
  | recorded
  | owned
  /-- The record is out of its table. -/
  | erased (record : ProxyAllocRecord)
  | decommitted (record : ProxyAllocRecord)
  deriving DecidableEq, Repr

/-- One successful `Allocate`, until its slot is freed. -/
structure Grant where
  /-- Numbers the grants in the order in which they were made. -/
  id : ℕ
  keeper : Keeper
  slot : Slot
  /-- The thread whose call has come to `phase`. -/
  thread : ℕ
  phase : Phase
  deriving DecidableEq, Repr

/-- What the grant's own insert records. -/
def Grant.record (g : Grant) : ProxyAllocRecord := ⟨g.slot.addr, g.slot.size⟩

/-- The pages with a byte in `[addr, addr + size)`, by page number. -/
def InPages (addr size n : ℕ) : Prop := addr / 4096 ≤ n ∧ n * 4096 < addr + size

instance (addr size n : ℕ) : Decidable (InPages addr size n) := inferInstanceAs (Decidable (_ ∧ _))

structure Handover where
  alloc : ProxyAllocator
  tables : Tables
  /-- The committed pages of the arena. -/
  pages : ℕ → Bool
  grants : List Grant
  /-- The number of grants made so far. -/
  next : ℕ
  /-- The grants whose slot `Free` has taken back. -/
  returned : List ℕ

inductive HandoverOp
  | allocate (thread : ℕ) (keeper : Keeper) (size : ℕ)
  | commit (g : Grant) (ok : Bool)
  | rollback (g : Grant)
  | record (g : Grant)
  | handOver (g : Grant)
  | erase (thread : ℕ) (g : Grant)
  | decommit (g : Grant)
  | free (g : Grant)

namespace Handover

/-- A thread brings the grant to another phase; records and pages may change with it. -/
def advance (s : Handover) (g : Grant) (thread : ℕ) (phase : Phase) (tables : Tables) (pages : ℕ → Bool) : Handover :=
  { s with
    tables := tables
    pages := pages
    grants := s.grants.map fun x => if x = g then { g with thread := thread, phase := phase } else x }

/-- `ProxyAllocator::Free` takes the slot back. -/
def giveBack (s : Handover) (g : Grant) (size : ℕ) : Handover :=
  { s with
    alloc := s.alloc.free g.slot.addr size
    grants := s.grants.erase g
    returned := g.id :: s.returned }

/-- The checks of CreateProxyAllocation on the slot; the virtual-memory hooks have none. -/
def accepts (s : Handover) (g : Grant) : Bool :=
  g.keeper = .vat || (s.alloc.isProxyAddress g.slot.addr && g.slot.addr % 4096 = 0)

/-- FreeProxyAllocation looks only at arena addresses; `VatUntrack` looks at any. -/
def looksUp (s : Handover) (g : Grant) : Bool := g.keeper = .vat || s.alloc.isProxyAddress g.slot.addr

def step (s : Handover) : HandoverOp → Handover
  | .allocate thread keeper size =>
    let (p, a) := s.alloc.allocate size (s.alloc.prefersTopDown size)
    if p = 0 then { s with alloc := a }
    else { s with alloc := a, grants := s.grants ++ [⟨s.next, keeper, ⟨p, size⟩, thread, .allocated⟩], next := s.next + 1 }
  | .commit g ok =>
    if s.accepts g && ok then
      s.advance g g.thread .committed s.tables fun n => s.pages n || decide (InPages g.slot.addr g.slot.size n)
    else s.advance g g.thread .rejected s.tables s.pages
  | .rollback g => s.giveBack g g.slot.size
  | .record g => s.advance g g.thread .recorded (s.tables.put g.slot.addr g.slot.size g.keeper) s.pages
  | .handOver g => s.advance g g.thread .owned s.tables s.pages
  | .erase thread g =>
    if s.looksUp g then
      match s.tables.take g.slot.addr g.keeper with
      | (none, _) => s
      | (some r, t) => s.advance g thread (.erased r) t s.pages
    else s
  | .decommit g =>
    match g.phase with
    | .erased r =>
      s.advance g g.thread (.decommitted r) s.tables fun n => s.pages n && !decide (InPages r.proxyBase r.proxySize n)
    | _ => s
  | .free g =>
    match g.phase with
    | .decommitted r => s.giveBack g r.proxySize
    | _ => s

/-- The order of the steps of one call. Any 32-bit size may be asked for; MEM_COMMIT succeeds only
for a range of at least one byte inside the address space; and a caller frees a grant that it owns. -/
def Allowed (s : Handover) : HandoverOp → Prop
  | .allocate _ _ size => 0 < size ∧ size < 2 ^ 32
  | .commit g ok => g ∈ s.grants ∧ g.phase = .allocated ∧ (ok = true → g.slot.addr + g.slot.size ≤ 2 ^ 32)
  | .rollback g => g ∈ s.grants ∧ g.phase = .rejected
  | .record g => g ∈ s.grants ∧ g.phase = .committed
  | .handOver g => g ∈ s.grants ∧ g.phase = .recorded
  | .erase _ g => g ∈ s.grants ∧ g.phase = .owned
  | .decommit g => g ∈ s.grants ∧ ∃ r, g.phase = .erased r
  | .free g => g ∈ s.grants ∧ ∃ r, g.phase = .decommitted r

instance : (p : Phase) → Decidable (∃ r, p = .erased r)
  | .erased r => .isTrue ⟨r, rfl⟩
  | .allocated | .rejected | .committed | .recorded | .owned | .decommitted _ => .isFalse fun ⟨_, h⟩ => nomatch h

instance : (p : Phase) → Decidable (∃ r, p = .decommitted r)
  | .decommitted r => .isTrue ⟨r, rfl⟩
  | .allocated | .rejected | .committed | .recorded | .owned | .erased _ => .isFalse fun ⟨_, h⟩ => nomatch h

instance (s : Handover) : (op : HandoverOp) → Decidable (s.Allowed op)
  | .allocate .. | .commit .. | .rollback _ | .record _ | .handOver _ | .erase .. | .decommit _ | .free _ =>
    inferInstanceAs (Decidable (_ ∧ _))

/-- A record for the tracker finds room in it. -/
def Roomy (s : Handover) : HandoverOp → Prop
  | .record g => g.keeper = .vat → s.tables.vat.entries.length < kVatMax
  | _ => True

instance (s : Handover) : (op : HandoverOp) → Decidable (s.Roomy op)
  | .record _ => inferInstanceAs (Decidable (_ → _))
  | .allocate .. | .commit .. | .rollback _ | .handOver _ | .erase .. | .decommit _ | .free _ => inferInstanceAs (Decidable True)

def start (a : ProxyAllocator) : Handover := ⟨a, .empty, fun _ => false, [], 0, []⟩

/-- The allocator with the slots of all grants. -/
def sys (s : Handover) : Sys := ⟨s.alloc, s.grants.map (·.slot)⟩

end Handover

/-! ## Facts about the pages of slots -/

/-- A page of a slot on the page grid starts inside the slot. -/
theorem InPages.mem {addr size n : ℕ} (hd : 4096 ∣ addr) (h : InPages addr size n) :
    addr ≤ n * 4096 ∧ n * 4096 < addr + size := by
  unfold InPages at h
  omega

/-- Slots on the page grid that hold no byte in common share no page. -/
theorem not_inPages_of_apart {a m b n : ℕ} (ha : 4096 ∣ a) (hb : 4096 ∣ b) (h : Span.Apart ⟨a, m⟩ ⟨b, n⟩) {x : ℕ}
    (hx : InPages a m x) : ¬ InPages b n x :=
  fun hx' => h (x * 4096) (hx.mem ha) (hx'.mem hb)

/-! ## What the phases promise -/

namespace Phase

/-- MEM_COMMIT has succeeded on the slot. -/
def held : Phase → Bool
  | .allocated | .rejected => false
  | _ => true

/-- The record of the grant has been inserted and not yet been taken out. -/
def inTable : Phase → Bool
  | .recorded | .owned => true
  | _ => false

/-- The pages of the slot are committed. -/
def mapped : Phase → Bool
  | .committed | .recorded | .owned | .erased _ => true
  | _ => false

/-- The record that the release has taken out. -/
def taken? : Phase → Option ProxyAllocRecord
  | .erased r | .decommitted r => some r
  | _ => none

theorem held_of_inTable {p : Phase} (h : p.inTable) : p.held := by cases p <;> simp_all [inTable, held]

theorem held_of_mapped {p : Phase} (h : p.mapped) : p.held := by cases p <;> simp_all [mapped, held]

end Phase

namespace Handover

/-- What holds of one grant at every moment. The tables of the keepers in `sure` drop nothing. -/
structure Good (sure : Keeper → Prop) (s : Handover) (g : Grant) : Prop where
  size_pos : 0 < g.slot.size
  noWrap : g.phase.held → NoWrap s.alloc.allocGranularity g.slot.size
  taken : ∀ r, g.phase.taken? = some r → r = g.record
  found : g.phase.inTable → sure g.keeper → s.tables.view g.slot.addr g.keeper = some g.record
  mapped : g.phase.mapped → ∀ n, InPages g.slot.addr g.slot.size n → s.pages n

/-- The record `r` of `addr` is the grant's own. -/
structure Owns (g : Grant) (addr : ℕ) (k : Keeper) (r : ProxyAllocRecord) : Prop where
  inTable : g.phase.inTable
  keeper : g.keeper = k
  addr : g.slot.addr = addr
  record : r = g.record

/-- The invariant of every order of steps. -/
structure Kept (sure : Keeper → Prop) (s : Handover) : Prop where
  sound : s.sys.Sound
  ids : (s.grants.map (·.id) ++ s.returned).Nodup
  next : ∀ id ∈ s.grants.map (·.id) ++ s.returned, id < s.next
  good : ∀ g ∈ s.grants, s.Good sure g
  tracked : s.tables.vat.addrs.Nodup
  records : ∀ addr k r, s.tables.view addr k = some r → ∃ g ∈ s.grants, Owns g addr k r

section
variable {sure : Keeper → Prop} {s : Handover} {g g' : Grant}

theorem Kept.inArena (h : s.Kept sure) (hg : g ∈ s.grants) : InArena s.alloc.allocGranularity s.alloc.arenaBase
    (s.alloc.arenaBase + s.alloc.arenaSize) (g.slot.span s.alloc.allocGranularity) :=
  h.sound.inArena (List.mem_map_of_mem hg)

theorem Kept.gran (h : s.Kept sure) : Granularity s.alloc.allocGranularity := h.sound.books.placed.gran

theorem Kept.page_dvd (h : s.Kept sure) (hg : g ∈ s.grants) : 4096 ∣ g.slot.addr := h.gran.page_dvd.trans (h.inArena hg).lo_dvd

/-- The slots of two grants hold no byte in common. -/
theorem Kept.apart (h : s.Kept sure) (hg : g ∈ s.grants) (hg' : g' ∈ s.grants) (hne : g ≠ g') :
    Span.Apart (g.slot.span s.alloc.allocGranularity) (g'.slot.span s.alloc.allocGranularity) := by
  have hp := h.sound.pairwise
  simp only [Sys.spans, sys, List.pairwise_map] at hp
  have : Std.Symm fun x y : Grant =>
      Span.Apart (x.slot.span s.alloc.allocGranularity) (y.slot.span s.alloc.allocGranularity) := ⟨fun _ _ => Span.Apart.symm⟩
  exact hp.forall hg hg' hne

/-- A committed slot fits the length it was rounded to. -/
theorem Kept.size_le (h : s.Kept sure) (hg : g ∈ s.grants) (hh : g.phase.held) :
    g.slot.size ≤ alignUp g.slot.size s.alloc.allocGranularity := (alignUp_bounds h.gran ((h.good g hg).noWrap hh)).1

/-- Committed slots have different addresses. -/
theorem Kept.eq_of_addr (h : s.Kept sure) (hg : g ∈ s.grants) (hg' : g' ∈ s.grants) (hh : g.phase.held) (hh' : g'.phase.held)
    (e : g.slot.addr = g'.slot.addr) : g = g' := by
  by_contra hne
  have hpos := (h.good g hg).size_pos.trans_le (h.size_le hg hh)
  have hpos' := (h.good g' hg').size_pos.trans_le (h.size_le hg' hh')
  refine h.apart hg hg' hne g.slot.addr ⟨le_rfl, ?_⟩ ⟨e.ge, ?_⟩
  · simp only [Slot.span, Span.hi_mk]; omega
  · simp only [Slot.span, Span.hi_mk]; omega

/-- No page that the release of `g` decommits belongs to the slot of another grant. -/
theorem Kept.not_inPages (h : s.Kept sure) (hg : g ∈ s.grants) (hg' : g' ∈ s.grants) (hne : g ≠ g') (hh : g.phase.held)
    {n : ℕ} (hn : InPages g.slot.addr g.slot.size n) :
    ¬ InPages g'.slot.addr (alignUp g'.slot.size s.alloc.allocGranularity) n := by
  have hle := h.size_le hg hh
  refine not_inPages_of_apart (h.page_dvd hg) (h.page_dvd hg') (h.apart hg hg' hne) ⟨hn.1, ?_⟩
  exact hn.2.trans_le (by simpa using hle)

/-- No page belongs to two committed slots. -/
theorem Kept.eq_of_page (h : s.Kept sure) (hg : g ∈ s.grants) (hg' : g' ∈ s.grants) (hh : g.phase.held) (hh' : g'.phase.held)
    {n : ℕ} (hn : InPages g.slot.addr g.slot.size n) (hn' : InPages g'.slot.addr g'.slot.size n) : g = g' := by
  by_contra hne
  refine h.not_inPages hg hg' hne hh hn ⟨hn'.1, hn'.2.trans_le ?_⟩
  exact Nat.add_le_add_left (h.size_le hg' hh') _

end

/-! ## A step of one grant -/

section
variable {sure : Keeper → Prop} {s : Handover} {g x : Grant} {thread : ℕ} {phase : Phase} {tables : Tables} {pages : ℕ → Bool}

theorem mem_advance : x ∈ (s.advance g thread phase tables pages).grants ↔
    (x = { g with thread := thread, phase := phase } ∧ g ∈ s.grants) ∨ (x ∈ s.grants ∧ x ≠ g) := by
  simp only [advance, List.mem_map]
  constructor
  · rintro ⟨y, hy, rfl⟩
    split_ifs with h
    · exact .inl ⟨rfl, h ▸ hy⟩
    · exact .inr ⟨hy, h⟩
  · rintro (⟨rfl, hg⟩ | ⟨hx, hne⟩)
    · exact ⟨g, hg, if_pos rfl⟩
    · exact ⟨x, hx, if_neg hne⟩

/-- Neither the numbers nor the slots of the grants change. -/
theorem map_advance {β : Type} (f : Grant → β) (hf : f { g with thread := thread, phase := phase } = f g) :
    (s.advance g thread phase tables pages).grants.map f = s.grants.map f := by
  rw [advance, List.map_map]
  refine List.map_congr_left fun x _ => ?_
  simp only [Function.comp_apply]
  split_ifs with hx
  · rw [hx, hf]
  · rfl

/-- A step that moves one grant to another phase keeps the invariant if it keeps what the grants
promise and every record stays owned. -/
theorem Kept.advance (h : s.Kept sure) (hg : g ∈ s.grants) (ht : tables.vat.addrs.Nodup)
    (hgood : ∀ x ∈ s.grants, x ≠ g → Good sure { s with tables := tables, pages := pages } x)
    (hgood' : Good sure { s with tables := tables, pages := pages } { g with thread := thread, phase := phase })
    (hrec : ∀ addr k r, tables.view addr k = some r →
      Owns { g with thread := thread, phase := phase } addr k r ∨ ∃ x ∈ s.grants, x ≠ g ∧ Owns x addr k r) :
    (s.advance g thread phase tables pages).Kept sure := by
  have hsys : (s.advance g thread phase tables pages).sys = s.sys := by
    simp only [sys]
    rw [map_advance _ rfl]
    rfl
  have hids : (s.advance g thread phase tables pages).grants.map (·.id) = s.grants.map (·.id) := map_advance _ rfl
  refine ⟨hsys ▸ h.sound, hids.symm ▸ h.ids, hids.symm ▸ h.next, ?_, ht, ?_⟩
  · intro x hx
    have hx' : Good sure { s with tables := tables, pages := pages } x := by
      rcases mem_advance.1 hx with ⟨rfl, -⟩ | ⟨hx, hne⟩
      · exact hgood'
      · exact hgood x hx hne
    exact ⟨hx'.size_pos, hx'.noWrap, hx'.taken, hx'.found, hx'.mapped⟩
  · intro addr k r hv
    rcases hrec addr k r hv with ho | ⟨x, hx, hne, ho⟩
    · exact ⟨_, mem_advance.2 (.inl ⟨rfl, hg⟩), ho⟩
    · exact ⟨x, mem_advance.2 (.inr ⟨hx, hne⟩), ho⟩

end

/-- A grant whose demands do not touch the tables or the pages changed keeps them. -/
theorem Good.frame {sure : Keeper → Prop} {s : Handover} {g : Grant} (h : s.Good sure g) {tables : Tables} {pages : ℕ → Bool}
    (hf : g.phase.inTable → tables.view g.slot.addr g.keeper = s.tables.view g.slot.addr g.keeper)
    (hm : g.phase.mapped → ∀ n, InPages g.slot.addr g.slot.size n → s.pages n → pages n) :
    Good sure { s with tables := tables, pages := pages } g where
  size_pos := h.size_pos
  noWrap := h.noWrap
  taken := h.taken
  found hi hk := (hf hi).trans (h.found hi hk)
  mapped hp n hn := hm hp n hn (h.mapped hp n hn)

section
variable {sure : Keeper → Prop} {s : Handover} {g : Grant}

/-- MEM_COMMIT cannot succeed on a slot whose length wrapped to nothing. -/
theorem Kept.noWrap_of_commit (h : s.Kept sure) (hg : g ∈ s.grants) (hc : g.slot.addr + g.slot.size ≤ 2 ^ 32) :
    NoWrap s.alloc.allocGranularity g.slot.size := h.sound.noWrap (List.mem_map_of_mem hg) hc

theorem Kept.commit (h : s.Kept sure) {ok : Bool} (hop : s.Allowed (.commit g ok)) : (s.step (.commit g ok)).Kept sure := by
  obtain ⟨hg, hp, hc⟩ := hop
  -- the records of an allocated grant are those of others
  have hrec : ∀ g' addr k r, s.tables.view addr k = some r → Owns g' addr k r ∨ ∃ x ∈ s.grants, x ≠ g ∧ Owns x addr k r := by
    intro g' addr k r hv
    obtain ⟨x, hx, ho⟩ := h.records addr k r hv
    refine .inr ⟨x, hx, ?_, ho⟩
    rintro rfl
    have := ho.inTable
    rw [hp] at this; cases this
  simp only [step]
  split_ifs with hok
  · have hn := h.noWrap_of_commit hg (hc (Bool.and_eq_true_iff.1 hok).2)
    refine h.advance hg h.tracked (fun x hx _ => (h.good x hx).frame (fun _ => rfl) fun _ n _ hn => ?_) ?_ (hrec _)
    · rw [hn, Bool.true_or]
    · refine ⟨(h.good g hg).size_pos, fun _ => hn, fun r hr => (nomatch hr), fun hi => (nomatch hi), fun _ n hn => ?_⟩
      exact Bool.or_eq_true_iff.2 (.inr (decide_eq_true hn))
  · refine h.advance hg h.tracked (fun x hx _ => h.good x hx) ?_ (hrec _)
    exact ⟨(h.good g hg).size_pos, fun hi => (nomatch hi), fun r hr => (nomatch hr), fun hi => (nomatch hi), fun hi => nomatch hi⟩

theorem Kept.record (h : s.Kept sure) (hop : s.Allowed (.record g)) (hroom : sure .vat → s.Roomy (.record g)) :
    (s.step (.record g)).Kept sure := by
  obtain ⟨hg, hp⟩ := hop
  have hh : g.phase.held := by rw [hp]; rfl
  -- the address has no record yet: it would belong to another committed slot
  have hnone : s.tables.view g.slot.addr g.keeper = none := by
    by_contra hne
    obtain ⟨r, hr⟩ := Option.ne_none_iff_exists'.1 hne
    obtain ⟨x, hx, ho⟩ := h.records _ _ r hr
    have hxg := h.eq_of_addr hx hg (Phase.held_of_inTable ho.inTable) hh ho.addr
    have hin := ho.inTable
    rw [hxg, hp] at hin; cases hin
  have hgood : ∀ x ∈ s.grants, x ≠ g → x.phase.inTable → x.slot.addr ≠ g.slot.addr := fun x hx hne hi e =>
    hne (h.eq_of_addr hx hg (Phase.held_of_inTable hi) hh e)
  have hg' := h.good g hg
  have hmapped : ∀ n, InPages g.slot.addr g.slot.size n → s.pages n := hg'.mapped (by rw [hp]; rfl)
  have ht := Tables.nodup_put h.tracked hnone g.slot.size
  rcases Tables.view_put hnone g.slot.size with hv | ⟨hk, hv⟩
  · apply h.advance hg ht
    · intro x hx hne
      refine (h.good x hx).frame (fun hi => ?_) fun _ _ _ hn => hn
      rw [hv, if_neg fun he => hgood x hx hne hi he.2]
    · refine ⟨hg'.size_pos, fun _ => hg'.noWrap hh, fun r hr => (nomatch hr), fun _ _ => ?_, fun _ => hmapped⟩
      exact (hv _ _).trans (if_pos ⟨rfl, rfl⟩)
    · intro addr k r hr
      rw [hv] at hr
      split_ifs at hr with he
      · cases hr
        exact .inl ⟨rfl, he.1.symm, he.2.symm, rfl⟩
      · obtain ⟨x, hx, ho⟩ := h.records addr k r hr
        refine .inr ⟨x, hx, fun hxg => he ?_, ho⟩
        rw [← ho.keeper, ← ho.addr, hxg]
        exact ⟨rfl, rfl⟩
  · -- the tracker was full
    simp only [step, hv]
    refine h.advance hg h.tracked (fun x hx _ => h.good x hx) ?_ ?_
    · refine ⟨hg'.size_pos, fun _ => hg'.noWrap hh, fun r hr => (nomatch hr), fun _ (hs : sure g.keeper) => ?_, fun _ => hmapped⟩
      -- with room, the record would have been entered
      have hlt := hroom (hk ▸ hs) hk
      have hentries := congrArg (fun t : Tables => t.vat.entries.length) hv
      rw [hk] at hentries
      simp only [Tables.put, Vat.track_of_lt hlt, List.length_append, List.length_singleton] at hentries
      omega
    · intro addr k r hr
      obtain ⟨x, hx, ho⟩ := h.records addr k r hr
      refine .inr ⟨x, hx, ?_, ho⟩
      rintro rfl
      have := ho.inTable
      rw [hp] at this; cases this

theorem Kept.handOver (h : s.Kept sure) (hop : s.Allowed (.handOver g)) : (s.step (.handOver g)).Kept sure := by
  obtain ⟨hg, hp⟩ := hop
  have hg' := h.good g hg
  have hi : g.phase.inTable := by rw [hp]; rfl
  refine h.advance hg h.tracked (fun x hx _ => h.good x hx) ?_ ?_
  · exact ⟨hg'.size_pos, fun _ => hg'.noWrap (Phase.held_of_inTable hi), fun r hr => (nomatch hr),
      fun _ => hg'.found hi, fun _ => hg'.mapped (by rw [hp]; rfl)⟩
  · intro addr k r hr
    obtain ⟨x, hx, ho⟩ := h.records addr k r hr
    by_cases hxg : x = g
    · subst hxg
      exact .inl ⟨rfl, ho.keeper, ho.addr, ho.record⟩
    · exact .inr ⟨x, hx, hxg, ho⟩

/-- The record found for an owned grant is the one its own insert made. -/
theorem Kept.taken (h : s.Kept sure) (hg : g ∈ s.grants) (hp : g.phase = .owned) {r : ProxyAllocRecord}
    (hr : (s.tables.take g.slot.addr g.keeper).1 = some r) : r = g.record := by
  rw [Tables.take_fst] at hr
  obtain ⟨x, hx, ho⟩ := h.records _ _ r hr
  have hh : g.phase.held := by rw [hp]; rfl
  rw [ho.record, h.eq_of_addr hx hg (Phase.held_of_inTable ho.inTable) hh ho.addr]

theorem Kept.erase (h : s.Kept sure) {thread : ℕ} (hop : s.Allowed (.erase thread g)) : (s.step (.erase thread g)).Kept sure := by
  obtain ⟨hg, hp⟩ := hop
  have hh : g.phase.held := by rw [hp]; rfl
  have hg' := h.good g hg
  simp only [step]
  split_ifs
  -- an address without a record, or its owner's
  · rcases ht : s.tables.take g.slot.addr g.keeper with ⟨_ | r, t⟩
    · exact h
    · have hr := h.taken hg hp (r := r) (by rw [ht])
      have hv := Tables.view_take h.tracked g.slot.addr g.keeper
      have hnd := Tables.nodup_take h.tracked g.slot.addr g.keeper
      rw [ht] at hv hnd
      apply h.advance hg hnd
      · intro x hx hne
        refine (h.good x hx).frame (fun hi => ?_) fun _ _ _ hn => hn
        rw [hv, if_neg fun he => hne (h.eq_of_addr hx hg (Phase.held_of_inTable hi) hh he.2)]
      · refine ⟨hg'.size_pos, fun _ => hg'.noWrap hh, ?_, fun hi => (nomatch hi), fun _ => hg'.mapped (by rw [hp]; rfl)⟩
        rintro r' hr'
        cases hr'
        exact hr
      · intro addr k r' hr'
        rw [hv] at hr'
        split_ifs at hr' with he
        obtain ⟨x, hx, ho⟩ := h.records addr k r' hr'
        -- the record of `g` itself has just been taken
        refine .inr ⟨x, hx, fun hxg => he ?_, ho⟩
        rw [← ho.keeper, ← ho.addr, hxg]
        exact ⟨rfl, rfl⟩
  · exact h

theorem Kept.decommit (h : s.Kept sure) (hop : s.Allowed (.decommit g)) : (s.step (.decommit g)).Kept sure := by
  obtain ⟨hg, r, hp⟩ := hop
  have hh : g.phase.held := by rw [hp]; rfl
  have hg' := h.good g hg
  have hr : r = g.record := hg'.taken r (by rw [hp]; rfl)
  simp only [step, hp]
  apply h.advance hg h.tracked
  · intro x hx hne
    refine (h.good x hx).frame (fun _ => rfl) fun hm n hn hpn => ?_
    -- a committed page of another grant is not one of the pages decommitted
    have hnot : ¬ InPages r.proxyBase r.proxySize n := by
      rw [hr]
      intro hin
      refine h.not_inPages hg hx (Ne.symm hne) hh hin ⟨hn.1, hn.2.trans_le ?_⟩
      exact Nat.add_le_add_left (h.size_le hx (Phase.held_of_mapped hm)) _
    simp [hpn, hnot]
  · refine ⟨hg'.size_pos, fun _ => hg'.noWrap hh, ?_, fun hi => (nomatch hi), fun hm => (nomatch hm)⟩
    rintro r' hr'
    cases hr'
    exact hr
  · intro addr k r' hr'
    obtain ⟨x, hx, ho⟩ := h.records addr k r' hr'
    refine .inr ⟨x, hx, ?_, ho⟩
    rintro rfl
    have := ho.inTable
    rw [hp] at this; cases this

/-- The arena stays as it is and no page is lost, so what the grants promise does not change. -/
theorem Good.of_alloc {x : Grant} (h : s.Good sure x) {a : ProxyAllocator} (hsame : SameArena s.alloc a) {pages : ℕ → Bool}
    (hpages : ∀ n, s.pages n → pages n) {grants : List Grant} {next : ℕ} {returned : List ℕ} :
    Good sure ⟨a, s.tables, pages, grants, next, returned⟩ x :=
  ⟨h.size_pos, hsame.2.2 ▸ h.noWrap, h.taken, h.found, fun hm n hn => hpages n (h.mapped hm n hn)⟩

/-- The allocator does something that no grant is part of. -/
theorem Kept.of_alloc (h : s.Kept sure) {a : ProxyAllocator} (hs : Sys.Sound ⟨a, s.grants.map (·.slot)⟩)
    (hsame : SameArena s.alloc a) {pages : ℕ → Bool} (hpages : ∀ n, s.pages n → pages n) :
    Kept sure { s with alloc := a, pages := pages } :=
  ⟨hs, h.ids, h.next, fun x hx => (h.good x hx).of_alloc hsame hpages, h.tracked, h.records⟩

/-- A new number and a new slot. -/
theorem Kept.grant (h : s.Kept sure) {a : ProxyAllocator} {x : Grant} (hid : x.id = s.next)
    (hs : Sys.Sound ⟨a, (s.grants ++ [x]).map (·.slot)⟩) (hsame : SameArena s.alloc a) {pages : ℕ → Bool}
    (hpages : ∀ n, s.pages n → pages n) (hx : Good sure ⟨a, s.tables, pages, s.grants ++ [x], s.next + 1, s.returned⟩ x) :
    Kept sure ⟨a, s.tables, pages, s.grants ++ [x], s.next + 1, s.returned⟩ := by
  refine ⟨hs, ?_, ?_, ?_, h.tracked, ?_⟩
  · have hnew : s.next ∉ s.grants.map (·.id) ++ s.returned := fun hm => (h.next _ hm).false
    have hp : (s.grants.map (·.id) ++ s.next :: s.returned).Nodup :=
      List.perm_middle.nodup_iff.2 (List.nodup_cons.2 ⟨hnew, h.ids⟩)
    simpa [hid] using hp
  · intro id hmem
    rcases List.mem_append.1 hmem with hmem | hmem
    · rw [List.map_append, List.mem_append, List.map_singleton, List.mem_singleton] at hmem
      rcases hmem with hmem | rfl
      · exact (h.next _ (List.mem_append_left _ hmem)).trans (Nat.lt_succ_self _)
      · exact hid.trans_lt (Nat.lt_succ_self _)
    · exact (h.next _ (List.mem_append_right _ hmem)).trans (Nat.lt_succ_self _)
  · intro y hy
    rcases List.mem_append.1 hy with hy | hy
    · exact (h.good y hy).of_alloc hsame hpages
    · exact List.mem_singleton.1 hy ▸ hx
  · intro addr k r hr
    obtain ⟨y, hy, ho⟩ := h.records addr k r hr
    exact ⟨y, List.mem_append_left _ hy, ho⟩

theorem Kept.allocate (h : s.Kept sure) {thread : ℕ} {k : Keeper} {size : ℕ} (hop : s.Allowed (.allocate thread k size)) :
    (s.step (.allocate thread k size)).Kept sure := by
  obtain ⟨hs, hsame⟩ := h.sound.allocate_same size (s.alloc.prefersTopDown size)
  rw [Sys.step_allocate] at hs hsame
  simp only [sys] at hs hsame
  simp only [step]
  split_ifs with h0
  · simp only [h0, if_true] at hs
    exact h.of_alloc hs hsame fun _ hn => hn
  · simp only [h0, if_false] at hs
    refine h.grant rfl (by simpa using hs) hsame (fun _ hn => hn) ?_
    exact ⟨hop.1, fun hi => (nomatch hi), fun r hr => (nomatch hr), fun hi => (nomatch hi), fun hi => (nomatch hi)⟩

/-- Giving a slot back once it is in no table and its size is known. -/
theorem Kept.giveBack (h : s.Kept sure) (hg : g ∈ s.grants) (hi : g.phase.inTable = false) :
    (s.giveBack g g.slot.size).Kept sure := by
  have hslot : g.slot ∈ s.sys.live := List.mem_map_of_mem hg
  have hop : s.sys.Owned (.free g.slot) := hslot
  obtain ⟨hs, hsame⟩ := h.sound.step_same hop
  have hperm := List.perm_cons_erase hg
  refine ⟨?_, ?_, ?_, ?_, h.tracked, ?_⟩
  · refine hs.perm (List.perm_cons_erase hslot |>.symm.trans (hperm.map _) |>.cons_inv)
  · have hp : (s.grants.map (·.id) ++ s.returned).Perm (((s.grants.erase g).map (·.id)) ++ g.id :: s.returned) :=
      ((hperm.map _).append_right _).trans List.perm_middle.symm
    exact hp.nodup_iff.1 h.ids
  · intro id hid
    apply h.next id
    rcases List.mem_append.1 hid with hid | hid
    · exact List.mem_append_left _ ((List.erase_sublist.map _).subset hid)
    · rcases List.mem_cons.1 hid with rfl | hid
      · exact List.mem_append_left _ (List.mem_map_of_mem hg)
      · exact List.mem_append_right _ hid
  · exact fun x hx => (h.good x (List.mem_of_mem_erase hx)).of_alloc hsame fun _ hn => hn
  · intro addr k r hr
    obtain ⟨x, hx, ho⟩ := h.records addr k r hr
    refine ⟨x, (List.mem_erase_of_ne ?_).2 hx, ho⟩
    -- no record is left of the grant that goes
    rintro rfl
    have := ho.inTable
    rw [hi] at this; cases this

theorem Kept.rollback (h : s.Kept sure) (hop : s.Allowed (.rollback g)) : (s.step (.rollback g)).Kept sure :=
  h.giveBack hop.1 (by rw [hop.2]; rfl)

theorem Kept.free (h : s.Kept sure) (hop : s.Allowed (.free g)) : (s.step (.free g)).Kept sure := by
  obtain ⟨hg, r, hp⟩ := hop
  have hr : r = g.record := (h.good g hg).taken r (by rw [hp]; rfl)
  simp only [step, hp, hr]
  exact h.giveBack hg (by rw [hp]; rfl)

end

/-! ## Every order of steps -/

/-- The step lemma: no step of any thread breaks the invariant. -/
theorem Kept.step {sure : Keeper → Prop} {s : Handover} (h : s.Kept sure) {op : HandoverOp} (hop : s.Allowed op)
    (hroom : sure .vat → s.Roomy op) : (s.step op).Kept sure := by
  cases op with
  | allocate thread k size => exact h.allocate hop
  | commit g ok => exact h.commit hop
  | rollback g => exact h.rollback hop
  | record g => exact h.record hop hroom
  | handOver g => exact h.handOver hop
  | erase thread g => exact h.erase hop
  | decommit g => exact h.decommit hop
  | free g => exact h.free hop

theorem start_kept (sure : Keeper → Prop) {a : ProxyAllocator} (h : Whole a) : (start a).Kept sure where
  sound := ⟨h.books, h.idle.laid⟩
  ids := List.nodup_nil
  next _ hid := absurd hid List.not_mem_nil
  good _ hg := absurd hg List.not_mem_nil
  tracked := List.nodup_nil
  records _ k _ hr := by cases k <;> cases hr

abbrev Run (a : ProxyAllocator) (ops : List HandoverOp) : Prop := Run.Guarded step Allowed (start a) ops

abbrev after (a : ProxyAllocator) (ops : List HandoverOp) : Handover := Run.after step (start a) ops

/-- The run lemma: m_allocations drops nothing in any run, -/
theorem kept_after {a : ProxyAllocator} (h : Whole a) {ops : List HandoverOp} (hops : Run a ops) :
    (after a ops).Kept (· = .allocations) :=
  hops.invariant (fun _ _ hs hop => hs.step hop fun hv => absurd hv (by decide)) (start_kept _ h)

/-- and neither table does where the tracker always has room. -/
theorem kept_of_roomy {a : ProxyAllocator} (h : Whole a) {ops : List HandoverOp} (hops : Run a ops)
    (hroom : Run.Guarded step Roomy (start a) ops) : (after a ops).Kept fun _ => True :=
  (hops.and hroom).invariant (fun _ _ hs hop => hs.step hop.1 fun _ => hop.2) (start_kept _ h)

/-- What a caller owns stays committed, whatever the other threads do, and is still on record if it
came from the heap hooks. -/
theorem owned_after {a : ProxyAllocator} (h : Started a) {ops : List HandoverOp} (hops : Run a ops) {g : Grant}
    (hg : g ∈ (after a ops).grants) (hp : g.phase = .owned) :
    (∀ n, InPages g.slot.addr g.slot.size n → (after a ops).pages n) ∧
    (g.keeper = .allocations → (after a ops).tables.view g.slot.addr g.keeper = some g.record) :=
  have hgood := (kept_after h.whole hops).good g hg
  ⟨hgood.mapped (by rw [hp]; rfl), hgood.found (by rw [hp]; rfl)⟩

/-- What no order of the steps can break. -/
structure Safe (s : Handover) : Prop where
  /-- The MEM_DECOMMIT of one grant covers no page of the slot of another. -/
  decommit : ∀ g ∈ s.grants, ∀ r, g.phase = .erased r → ∀ g' ∈ s.grants, g'.id ≠ g.id →
    ∀ n, InPages r.proxyBase r.proxySize n → ¬ InPages g'.slot.addr (alignUp g'.slot.size s.alloc.allocGranularity) n
  /-- A record that a release takes out is the one that the grant put in. -/
  erase : ∀ g ∈ s.grants, g.phase = .owned → ∀ r, (s.tables.take g.slot.addr g.keeper).1 = some r → r = g.record
  /-- A slot once returned is not granted any more under that number, and not returned again. -/
  once : s.returned.Nodup ∧ ∀ g ∈ s.grants, g.id ∉ s.returned

/-- A release looks for the record of its grant, and finds it. -/
def Found (s : Handover) : Prop :=
  ∀ g ∈ s.grants, g.phase = .owned → s.looksUp g = true ∧ (s.tables.take g.slot.addr g.keeper).1 = some g.record

theorem Kept.safe {sure : Keeper → Prop} {s : Handover} (h : s.Kept sure) : s.Safe where
  decommit := by
    intro g hg r hp g' hg' hne n hn
    have hr : r = g.record := (h.good g hg).taken r (by rw [hp]; rfl)
    subst hr
    exact h.not_inPages hg hg' (fun e => hne (e ▸ rfl)) (by rw [hp]; rfl) hn
  erase _ hg hp _ hr := h.taken hg hp hr
  once := ⟨(List.nodup_append.1 h.ids).2.1,
    fun _ hg hm => (List.nodup_append.1 h.ids).2.2 _ (List.mem_map_of_mem hg) _ hm rfl⟩

theorem Kept.found {s : Handover} (h : s.Kept fun _ => True) : s.Found := by
  intro g hg hp
  have hheld : g.phase.held := by rw [hp]; rfl
  have hpos : 0 < alignUp g.slot.size s.alloc.allocGranularity := (h.good g hg).size_pos.trans_le (h.size_le hg hheld)
  have hproxy : s.alloc.isProxyAddress g.slot.addr = true := h.sound.isProxyAddress (List.mem_map_of_mem hg) hpos
  refine ⟨by rw [looksUp, hproxy, Bool.or_true], ?_⟩
  rw [Tables.take_fst]
  exact (h.good g hg).found (by rw [hp]; rfl) trivial

/-- However the steps of any number of threads are interleaved, a release decommits only its own slot and returns
the slot once, and a record that it finds is its own grant's. It finds it in every run in which the tracker has
room for each record. -/
theorem safe_after {a : ProxyAllocator} (h : Started a) {ops : List HandoverOp} (hops : Run a ops) :
    (after a ops).Safe ∧ (Run.Guarded step Roomy (start a) ops → (after a ops).Found) :=
  ⟨(kept_after h.whole hops).safe, fun hroom => (kept_of_roomy h.whole hops hroom).found⟩

/-- Thread 1 releases a heap capture of thread 0 while thread 2 redirects a virtual allocation. -/
def crossed : List HandoverOp :=
  [.allocate 0 .allocations 5000,
   .commit ⟨0, .allocations, ⟨0x10000000, 5000⟩, 0, .allocated⟩ true,
   .record ⟨0, .allocations, ⟨0x10000000, 5000⟩, 0, .committed⟩,
   .handOver ⟨0, .allocations, ⟨0x10000000, 5000⟩, 0, .recorded⟩,
   .erase 1 ⟨0, .allocations, ⟨0x10000000, 5000⟩, 0, .owned⟩,
   .allocate 2 .vat 8192,
   .decommit ⟨0, .allocations, ⟨0x10000000, 5000⟩, 1, .erased ⟨0x10000000, 5000⟩⟩,
   .commit ⟨1, .vat, ⟨0x10002000, 8192⟩, 2, .allocated⟩ true,
   .free ⟨0, .allocations, ⟨0x10000000, 5000⟩, 1, .decommitted ⟨0x10000000, 5000⟩⟩,
   .record ⟨1, .vat, ⟨0x10002000, 8192⟩, 2, .committed⟩,
   .handOver ⟨1, .vat, ⟨0x10002000, 8192⟩, 2, .recorded⟩]

theorem safe_arena64K : (after Sys.arena64K crossed).Safe ∧ (after Sys.arena64K crossed).Found :=
  have hrun : Run Sys.arena64K crossed := by decide +kernel
  have h := safe_after Sys.arena64K_started hrun
  ⟨h.1, h.2 (by decide +kernel)⟩

/-! ## More redirected pages than the tracker has places -/

/-- One page, up to the moment at which its caller has the pointer. -/
def redirect (k : ℕ) : List HandoverOp :=
  [.allocate 0 .vat 4096,
   .commit ⟨k, .vat, Sys.page k, 0, .allocated⟩ true,
   .record ⟨k, .vat, Sys.page k, 0, .committed⟩,
   .handOver ⟨k, .vat, Sys.page k, 0, .recorded⟩]

/-- The first `k` pages are owned. -/
def ownedPages (k : ℕ) : List Grant := (List.range k).map fun i => ⟨i, .vat, Sys.page i, 0, .owned⟩

/-- The page after them has come to `phase`. -/
def underWay (a : ProxyAllocator) (tables : Tables) (pages : ℕ → Bool) (k : ℕ) (phase : Phase) (returned : List ℕ) : Handover :=
  ⟨a, tables, pages, ownedPages k ++ [⟨k, .vat, Sys.page k, 0, phase⟩], k + 1, returned⟩

theorem ne_of_mem_ownedPages {k : ℕ} {x : Grant} (h : x ∈ ownedPages k) {phase : Phase} : x ≠ ⟨k, .vat, Sys.page k, 0, phase⟩ := by
  obtain ⟨i, hi, rfl⟩ := List.mem_map.1 h
  rintro e
  exact (List.mem_range.1 hi).ne (congrArg Grant.id e)

theorem advance_underWay (a : ProxyAllocator) (tables tables' : Tables) (pages pages' : ℕ → Bool) (k : ℕ) (phase phase' : Phase)
    (returned : List ℕ) : (underWay a tables pages k phase returned).advance ⟨k, .vat, Sys.page k, 0, phase⟩ 0 phase' tables' pages' =
      underWay a tables' pages' k phase' returned := by
  simp only [advance, underWay, List.map_append, List.map_singleton, if_true]
  congr 2
  refine (List.map_congr_left fun x hx => ?_).trans (List.map_id _)
  rw [if_neg (ne_of_mem_ownedPages hx), id]

/-- After `k` pages all are owned, and the first 8192 have a record. -/
structure Redirected (k : ℕ) (s : Handover) : Prop where
  filling : Sys.Filling k s.sys
  topDown : s.alloc.topDownBytes = 256 * 1024
  next : s.next = k
  grants : s.grants = ownedPages k
  tracked : s.tables.vat.addrs = (List.range (min k kVatMax)).map fun i => (Sys.page i).addr

/-- The allocator grants the next page, from below. -/
theorem Redirected.allocate {k : ℕ} (hk : k < 174761) {s : Handover} (h : Redirected k s) :
    ∃ a, s.step (.allocate 0 .vat 4096) = underWay a s.tables s.pages k .allocated s.returned ∧
      a.topDownBytes = 256 * 1024 ∧ ∀ tables pages phase, Sys.Filling (k + 1) (underWay a tables pages k phase s.returned).sys := by
  have halloc := (h.filling.allocate hk).2
  have hfst : (s.alloc.allocate 4096 false).1 = (Sys.page k).addr := congrArg Prod.fst halloc
  have hne : (Sys.page k).addr ≠ 0 := by simp only [Sys.page]; omega
  have hbelow : s.alloc.prefersTopDown 4096 = false := by rw [prefersTopDown, h.topDown]; rfl
  refine ⟨(s.alloc.allocate 4096 false).2, ?_, ?_, fun tables pages phase => ?_⟩
  · rw [step, hbelow]
    dsimp only
    rw [hfst, if_neg hne, h.grants, h.next]
    rfl
  · exact (congrArg (fun r => r.2.topDownBytes) halloc).trans h.topDown
  · have hstep : s.sys.step (.allocate 4096 false) = ⟨(s.alloc.allocate 4096 false).2, s.sys.live ++ [Sys.page k]⟩ := by
      rw [Sys.step_allocate, show (s.sys.alloc.allocate 4096 false).1 = _ from hfst, if_neg hne]
      rfl
    have hfill := (h.filling.step hk).2
    rw [hstep] at hfill
    simpa [underWay, sys, h.grants] using hfill

theorem Redirected.round {k : ℕ} (hk : k < 174761) {s : Handover} (h : Redirected k s) :
    Run.Guarded step Allowed s (redirect k) ∧ Redirected (k + 1) (Run.after step s (redirect k)) := by
  obtain ⟨a, halloc, htop, hfill⟩ := h.allocate hk
  have hmem : ∀ tables pages phase, ⟨k, .vat, Sys.page k, 0, phase⟩ ∈ (underWay a tables pages k phase s.returned).grants :=
    fun _ _ _ => List.mem_append_right _ (List.mem_singleton_self _)
  have hfits : (Sys.page k).addr + (Sys.page k).size ≤ 2 ^ 32 := by simp only [Sys.page]; omega
  obtain ⟨pages, hcommit⟩ : ∃ pages, (underWay a s.tables s.pages k .allocated s.returned).step
      (.commit ⟨k, .vat, Sys.page k, 0, .allocated⟩ true) = underWay a s.tables pages k .committed s.returned := by
    refine ⟨fun n => s.pages n || decide (InPages (Sys.page k).addr (Sys.page k).size n), ?_⟩
    rw [step, if_pos (by simp [accepts])]
    exact advance_underWay ..
  have hrecord : (underWay a s.tables pages k .committed s.returned).step (.record ⟨k, .vat, Sys.page k, 0, .committed⟩) =
      underWay a (s.tables.put (Sys.page k).addr 4096 .vat) pages k .recorded s.returned := advance_underWay ..
  have hown : (underWay a (s.tables.put (Sys.page k).addr 4096 .vat) pages k .recorded s.returned).step
      (.handOver ⟨k, .vat, Sys.page k, 0, .recorded⟩) =
      underWay a (s.tables.put (Sys.page k).addr 4096 .vat) pages k .owned s.returned := advance_underWay ..
  constructor
  · refine ⟨⟨by decide, by decide⟩, ?_⟩
    rw [halloc]
    refine ⟨⟨hmem _ _ _, rfl, fun _ => hfits⟩, ?_⟩
    rw [hcommit]
    refine ⟨⟨hmem _ _ _, rfl⟩, ?_⟩
    rw [hrecord]
    exact ⟨⟨hmem _ _ _, rfl⟩, trivial⟩
  · simp only [redirect, Run.after_cons, Run.after_nil]
    rw [halloc, hcommit, hrecord, hown]
    refine ⟨hfill _ _ _, htop, rfl, ?_, Vat.addrs_track (f := fun i => (Sys.page i).addr) h.tracked 4096⟩
    simp [underWay, ownedPages, List.range_succ]

theorem start_redirected : Redirected 0 (start Sys.crowdArena) :=
  ⟨⟨Sys.crowdArena_onCrowd, rfl, rfl, fun i hi => absurd hi (Nat.not_lt_zero i)⟩, rfl, rfl, rfl, rfl⟩

/-- One page more than the tracker has places. -/
@[irreducible] def manyPages : List HandoverOp := (List.range 8193).flatMap redirect

theorem redirected_manyPages : Run Sys.crowdArena manyPages ∧ Redirected 8193 (after Sys.crowdArena manyPages) := by
  unfold manyPages
  exact Run.Guarded.rounds start_redirected fun k _ hk h => h.round (by omega)

/-- The release of the 8193rd page does not find its record. -/
theorem not_found_full : Started Sys.crowdArena ∧ Run Sys.crowdArena manyPages ∧
    ⟨8192, .vat, Sys.page 8192, 0, .owned⟩ ∈ (after Sys.crowdArena manyPages).grants ∧
    ((after Sys.crowdArena manyPages).tables.take (Sys.page 8192).addr .vat).1 = none ∧
    ¬ (after Sys.crowdArena manyPages).Found := by
  obtain ⟨hrun, hmany⟩ := redirected_manyPages
  have hmem : ⟨8192, .vat, Sys.page 8192, 0, .owned⟩ ∈ (after Sys.crowdArena manyPages).grants := by
    rw [hmany.grants]
    exact List.mem_map.2 ⟨8192, List.mem_range.2 (by omega), rfl⟩
  have hnone : ((after Sys.crowdArena manyPages).tables.take (Sys.page 8192).addr .vat).1 = none := by
    rw [Tables.take_fst]
    exact Option.map_eq_none_iff.2 (Vat.lookup_of_dropped Sys.page_addr_injective hmany.tracked le_rfl)
  refine ⟨Sys.crowdArena_started, hrun, hmem, hnone, fun h => ?_⟩
  have hfound := (h _ hmem rfl).2
  rw [show (Tables.take _ _ _).1 = none from hnone] at hfound
  cases hfound

end Handover

end Ts3Vas
