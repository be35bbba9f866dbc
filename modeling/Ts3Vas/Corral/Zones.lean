/-
The segments of the script arena: reservations clear of each other, each under an allocator of its own,
and together the slots they grant. One lemma for each thing that CorralReserve and CorralFree do to them.
-/
import Ts3Vas.Corral.Basic

namespace Ts3Vas

/-! ## Segments -/

/-- Two segments whose reservations do not meet. -/
def Segment.Clear (s t : Segment) : Prop := s.base + s.size ≤ t.base ∨ t.base + t.size ≤ s.base

/-- A segment as the corral keeps it: its allocator runs over its own reservation, rounded up to the
granularity. -/
structure Segment.Kept (g : ℕ) (s : Segment) : Prop where
  proper : s.sys.Proper
  arenaBase : s.sys.alloc.arenaBase = s.base
  arenaSize : s.sys.alloc.arenaSize = alignUp s.size g
  gran : s.sys.alloc.allocGranularity = g
  reserved : Reserved s.base s.size

namespace Segment

section
variable {g : ℕ} {s t : Segment}

theorem Kept.granularity (h : s.Kept g) : Granularity g := h.gran ▸ h.proper.books.placed.gran

theorem Kept.noWrap (h : s.Kept g) : NoWrap g s.size := h.reserved.noWrap h.granularity

/-- A live slot starts on the grid and ends inside the rounded reservation; one that holds a byte starts
inside the reservation. -/
theorem within_of_sound (h : s.sys.Sound) (hb : s.sys.alloc.arenaBase = s.base) (hn : s.sys.alloc.arenaSize = alignUp s.size g)
    (hg : s.sys.alloc.allocGranularity = g) (hr : Reserved s.base s.size) {slot : Slot} (hs : slot ∈ s.sys.live) :
    g ∣ slot.addr ∧ slot.addr + alignUp slot.size g ≤ s.base + alignUp s.size g ∧
      (0 < alignUp slot.size g → s.base ≤ slot.addr ∧ slot.addr < s.base + s.size) := by
  have hgran : Granularity g := hg ▸ h.books.placed.gran
  have hin := h.inArena hs
  rw [hg, hb, hn] at hin
  obtain ⟨hlo, hhi⟩ := hin.within
  have hround := (alignUp_bounds hgran (hr.noWrap hgran)).2
  simp only [Slot.span, Span.hi_mk] at hlo hhi
  refine ⟨hin.lo_dvd, hhi, fun hpos => ⟨hlo, ?_⟩⟩
  have hlen : g ≤ alignUp slot.size g := Nat.le_of_dvd hpos hin.len_dvd
  omega

theorem Kept.call (h : s.Kept g) (op : Op) (hop : s.sys.WellFormed op) : (s.call op).Kept g := by
  obtain ⟨hb, hs, hg⟩ := (h.proper.step_same (Sys.WellFormed.owned h.proper.toSound hop)).2
  exact ⟨h.proper.step hop, hb.trans h.arenaBase, hs.trans h.arenaSize, hg.trans h.gran, h.reserved⟩

/-- A granted slot starts inside the reservation; its rounded end stays inside the rounded one. -/
theorem Kept.within (h : s.Kept g) {slot : Slot} (hs : slot ∈ s.sys.live) :
    s.base ≤ slot.addr ∧ slot.addr < s.base + s.size ∧
      slot.addr + alignUp slot.size g ≤ s.base + alignUp s.size g ∧ 0 < alignUp slot.size g := by
  obtain ⟨-, hhi, hin⟩ := within_of_sound h.proper.toSound h.arenaBase h.arenaSize h.gran h.reserved hs
  have hpos : 0 < (slot.span g).len := by
    have := (Pieces.forall_all.1 h.proper.sorted.pos).1 _ (List.mem_map_of_mem hs)
    rwa [h.gran] at this
  exact ⟨(hin hpos).1, (hin hpos).2, hhi, hpos⟩

theorem contains_iff (h : Reserved s.base s.size) (addr : ℕ) :
    s.contains addr = true ↔ s.base ≤ addr ∧ addr < s.base + s.size := by
  have htop := h.top
  rw [contains, ptrAdd, Nat.mod_eq_of_lt (by omega), Bool.and_eq_true, decide_eq_true_eq, decide_eq_true_eq]

/-- Reservations start at multiples of 64 KB, so the rounding of one never reaches the next. -/
theorem Kept.rounded_clear (hs : s.Kept g) (ht : t.Kept g) (hc : s.Clear t) :
    s.base + alignUp s.size g ≤ t.base ∨ t.base + alignUp t.size g ≤ s.base := by
  have key : ∀ {a b : Segment}, a.Kept g → b.Kept g → a.base + a.size ≤ b.base → a.base + alignUp a.size g ≤ b.base := by
    intro a b ha hb hle
    have hd : g ∣ b.base - a.base := ha.granularity.dvd.trans (Nat.dvd_sub hb.reserved.dvd ha.reserved.dvd)
    have := alignUp_le_of_dvd ha.granularity ha.noWrap hd (by omega)
    omega
  rcases hc with h | h
  · exact .inl (key hs ht h)
  · exact .inr (key ht hs h)

/-- Slots of two segments are apart. -/
theorem Kept.apart (hs : s.Kept g) (ht : t.Kept g) (hc : s.Clear t) {a b : Slot} (ha : a ∈ s.sys.live)
    (hb : b ∈ t.sys.live) : Span.Apart (a.span g) (b.span g) := by
  obtain ⟨ha1, ha2, ha3, ha4⟩ := hs.within ha
  obtain ⟨hb1, hb2, hb3, hb4⟩ := ht.within hb
  rw [Span.apart_iff (by exact ha4) (by exact hb4)]
  simp only [Slot.span, Span.hi_mk]
  rcases hs.rounded_clear ht hc with h | h <;> omega

/-- An address of one segment is not found in another. -/
theorem Kept.not_contains (hs : s.Kept g) (ht : t.Kept g) (hc : s.Clear t) {slot : Slot} (ha : slot ∈ s.sys.live) :
    t.contains slot.addr = false := by
  obtain ⟨h1, h2, -, -⟩ := hs.within ha
  rw [Bool.eq_false_iff, Ne, contains_iff ht.reserved]
  rcases hc with h | h <;> omega

theorem Kept.contains (hs : s.Kept g) {slot : Slot} (ha : slot ∈ s.sys.live) : s.contains slot.addr = true := by
  obtain ⟨h1, h2, -, -⟩ := hs.within ha
  exact (contains_iff hs.reserved _).2 ⟨h1, h2⟩

/-- An attempt that finds no room leaves the segment's slots alone. -/
theorem live_call_of_full {size : ℕ} (h : (s.sys.alloc.allocate size false).1 = 0) :
    (s.call (.allocate size false)).sys.live = s.sys.live := by
  show (s.sys.step _).live = _
  rw [Sys.step_allocate, h]; rfl

theorem live_call_of_granted {size : ℕ} (h : (s.sys.alloc.allocate size false).1 ≠ 0) :
    (s.call (.allocate size false)).sys.live = s.sys.live ++ [⟨(s.sys.alloc.allocate size false).1, size⟩] :=
  Sys.live_granted h

end

end Segment

namespace Corral

/-! ## Zones -/

/-- Every segment is kept, on its own reservation, and together they grant the slots of `out`. -/
structure Zoned (g : ℕ) (segs : List Segment) (out : List Slot) : Prop where
  kept : ∀ s ∈ segs, s.Kept g
  clear : segs.Pairwise Segment.Clear
  live : (segs.flatMap (·.sys.live)).Perm out

section
variable {g : ℕ} {segs pre post : List Segment} {s : Segment} {out : List Slot}

/-- What a call does to a segment does not move its reservation. -/
theorem clear_set {t : Segment} (hb : t.base = s.base) (hn : t.size = s.size) (h : (pre ++ s :: post).Pairwise Segment.Clear) :
    (pre ++ t :: post).Pairwise Segment.Clear := by
  simp only [List.pairwise_append, List.pairwise_cons, List.mem_cons, Segment.Clear] at h ⊢
  obtain ⟨h1, ⟨h2, h3⟩, h4⟩ := h
  refine ⟨h1, ⟨fun b hmem => by rw [hb, hn]; exact h2 b hmem, h3⟩, fun a ha b hmem => ?_⟩
  rcases hmem with rfl | hmem
  · rw [hb, hn]; exact h4 a ha s (.inl rfl)
  · exact h4 a ha b (.inr hmem)

theorem Zoned.perm (h : Zoned g segs out) {out' : List Slot} (hp : out.Perm out') : Zoned g segs out' :=
  ⟨h.kept, h.clear, h.live.trans hp⟩

/-- One segment is called, and its slots change as the slots of all segments do. -/
theorem Zoned.set (h : Zoned g (pre ++ s :: post) out) {t : Segment} (ht : t.Kept g) (hb : t.base = s.base)
    (hn : t.size = s.size) {out' : List Slot}
    (hp : (pre.flatMap (·.sys.live) ++ (t.sys.live ++ post.flatMap (·.sys.live))).Perm out') : Zoned g (pre ++ t :: post) out' := by
  refine ⟨fun u hu => ?_, clear_set hb hn h.clear, by simpa using hp⟩
  simp only [List.mem_append, List.mem_cons] at hu
  rcases hu with hu | rfl | hu
  · exact h.kept u (by simp [hu])
  · exact ht
  · exact h.kept u (by simp [hu])

theorem Zoned.mem_cut (h : Zoned g (pre ++ s :: post) out) : s.Kept g := h.kept s (by simp)

/-- A segment without room is called in vain. -/
theorem Zoned.tried (h : Zoned g (pre ++ s :: post) out) {size : ℕ} (hsize : 0 < size ∧ NoWrap g size)
    (hfull : (s.sys.alloc.allocate size false).1 = 0) : Zoned g (pre ++ s.call (.allocate size false) :: post) out := by
  have hs := h.mem_cut
  refine h.set (hs.call (.allocate size false) ⟨hsize.1, hs.gran.symm ▸ hsize.2⟩) rfl rfl ?_
  rw [Segment.live_call_of_full hfull]
  simpa using h.live

/-- A segment grants the slot. -/
theorem Zoned.granted (h : Zoned g (pre ++ s :: post) out) {size : ℕ} (hsize : 0 < size ∧ NoWrap g size)
    (hp : (s.sys.alloc.allocate size false).1 ≠ 0) : Zoned g (pre ++ s.call (.allocate size false) :: post)
      (out ++ [⟨(s.sys.alloc.allocate size false).1, size⟩]) := by
  have hs := h.mem_cut
  refine h.set (hs.call (.allocate size false) ⟨hsize.1, hs.gran.symm ▸ hsize.2⟩) rfl rfl ?_
  rw [Segment.live_call_of_granted hp]
  have hl := h.live
  rw [List.flatMap_append, List.flatMap_cons] at hl
  refine .trans ?_ (hl.append_right _)
  simp only [List.append_assoc]
  exact ((List.perm_append_comm).append_left _).append_left _

/-- A segment takes one of its slots back. -/
theorem Zoned.freed (h : Zoned g (pre ++ s :: post) out) {slot : Slot} (hs : slot ∈ s.sys.live) :
    Zoned g (pre ++ s.call (.free slot) :: post) (out.erase slot) := by
  apply h.set (h.mem_cut.call (.free slot) hs) rfl rfl
  show (pre.flatMap (·.sys.live) ++ (s.sys.live.erase slot ++ post.flatMap (·.sys.live))).Perm _
  have hl := h.live
  rw [List.flatMap_append, List.flatMap_cons] at hl
  have hmem : slot ∈ out := hl.mem_iff.1 (by simp [hs])
  refine List.Perm.cons_inv (a := slot) ?_
  refine .trans ?_ (hl.trans (List.perm_cons_erase hmem))
  refine List.perm_middle.symm.trans (List.Perm.append_left _ ?_)
  exact (List.perm_cons_erase hs).symm.append_right _

/-- A new segment on a reservation clear of the others. -/
theorem Zoned.grow (h : Zoned g segs out) (hs : s.Kept g) (hlive : s.sys.live = []) (hc : ∀ t ∈ segs, t.Clear s) :
    Zoned g (segs ++ [s]) out := by
  refine ⟨fun t ht => ?_, List.pairwise_append.2 ⟨h.clear, List.pairwise_singleton _ _, ?_⟩, ?_⟩
  · rcases List.mem_append.1 ht with ht | ht
    · exact h.kept t ht
    · exact List.mem_singleton.1 ht ▸ hs
  · intro t ht u hu
    exact List.mem_singleton.1 hu ▸ hc t ht
  · simpa [hlive] using h.live

theorem Zoned.owner (h : Zoned g segs out) {slot : Slot} (hs : slot ∈ out) :
    ∃ pre s post, segs = pre ++ s :: post ∧ slot ∈ s.sys.live := by
  obtain ⟨s, hmem, hlive⟩ := List.mem_flatMap.1 (h.live.mem_iff.2 hs)
  obtain ⟨pre, post, rfl⟩ := List.append_of_mem hmem
  exact ⟨pre, s, post, rfl, hlive⟩

theorem Zoned.clear_of (h : Zoned g (pre ++ s :: post) out) : ∀ t ∈ pre ++ post, s.Clear t := by
  have hc := h.clear
  simp only [List.pairwise_append, List.pairwise_cons] at hc
  intro t ht
  rcases List.mem_append.1 ht with ht | ht
  · exact (hc.2.2 t ht s (List.mem_cons_self ..)).symm
  · exact hc.2.1.1 t ht

/-- No other segment holds the address of a granted slot. -/
theorem Zoned.sole (h : Zoned g (pre ++ s :: post) out) {slot : Slot} (hs : slot ∈ s.sys.live) :
    ∀ t ∈ pre ++ post, t.contains slot.addr = false := by
  intro t ht
  refine h.mem_cut.not_contains (h.kept t ?_) (h.clear_of t ht) hs
  simp only [List.mem_append, List.mem_cons] at ht ⊢
  rcases ht with ht | ht
  · exact .inl ht
  · exact .inr (.inr ht)

/-- `CorralFree` finds the one segment that granted the slot. -/
theorem Zoned.freeFrom : ∀ {pre : List Segment} {front : List Segment}, Zoned g (front ++ (pre ++ s :: post)) out →
    ∀ {slot : Slot}, slot ∈ s.sys.live →
      freeFrom slot.addr slot.size (pre ++ s :: post) = some (pre ++ s.call (.free slot) :: post)
  | [], front, h, slot, hs => by
    rw [List.nil_append, Corral.freeFrom, if_pos (h.mem_cut.contains hs)]; rfl
  | t :: pre, front, h, slot, hs => by
    have hsole : t.contains slot.addr = false := by
      have h' : Zoned g ((front ++ t :: pre) ++ s :: post) out := by simpa using h
      exact h'.sole hs t (by simp)
    rw [List.cons_append, List.append_cons] at h
    rw [List.cons_append, Corral.freeFrom, hsole, if_neg (by decide), h.freeFrom hs]
    rfl

/-- The slots in the callers' hands are pairwise apart, across all segments. -/
theorem Zoned.pairwise : ∀ {segs : List Segment} {out : List Slot}, Zoned g segs out →
    (out.map (Slot.span g)).Pairwise Span.Apart := by
  have hkey : ∀ segs : List Segment, (∀ s ∈ segs, s.Kept g) → segs.Pairwise Segment.Clear →
      ((segs.flatMap (·.sys.live)).map (Slot.span g)).Pairwise Span.Apart := by
    intro segs
    induction segs with
    | nil => intro _ _; exact List.Pairwise.nil
    | cons s segs ih =>
      intro hk hc
      obtain ⟨hks, hk'⟩ := List.forall_mem_cons.1 hk
      obtain ⟨hcs, hc'⟩ := List.pairwise_cons.1 hc
      rw [List.flatMap_cons, List.map_append, List.pairwise_append]
      -- within a segment by its allocator, between two by their zones
      refine ⟨?_, ih hk' hc', ?_⟩
      · have := hks.proper.toSound.pairwise
        rwa [Sys.spans, hks.gran] at this
      · intro a ha b hb
        obtain ⟨x, hx, rfl⟩ := List.mem_map.1 ha
        obtain ⟨y, hy, rfl⟩ := List.mem_map.1 hb
        obtain ⟨t, ht, hy⟩ := List.mem_flatMap.1 hy
        exact hks.apart (hk' t ht) (hcs t ht) hx hy
  intro segs out h
  exact (h.live.map _).pairwise_iff (fun hab => hab.symm) |>.1 (hkey segs h.kept h.clear)

/-- A slot out has at least one byte once rounded. -/
theorem Zoned.len_pos (h : Zoned g segs out) {slot : Slot} (hs : slot ∈ out) : 0 < alignUp slot.size g := by
  obtain ⟨pre, t, post, e, hl⟩ := h.owner hs
  exact ((h.kept t (by simp [e])).within hl).2.2.2

/-- No two slots out share a base. -/
theorem Zoned.nodup (h : Zoned g segs out) : (out.map Slot.addr).Nodup := by
  refine List.pairwise_map.2 ((List.pairwise_map.1 h.pairwise).imp_of_mem fun {a b} ha hb hab e => ?_)
  have h1 := h.len_pos ha
  have h2 := h.len_pos hb
  exact hab a.addr ⟨le_rfl, by simp only [Slot.span, Span.hi_mk]; omega⟩
    ⟨e.ge, by simp only [Slot.span, Span.hi_mk]; omega⟩

end

/-! ## Segments one after another -/

/-- The reservations of the segments. -/
def zones (segs : List Segment) : List Span := segs.map fun s => ⟨s.base, s.size⟩

/-- What the search for a slot leaves behind: the reservations as they were and, if a slot was found,
that slot granted by the segment whose index it names. -/
structure Searched (g size : ℕ) (out : List Slot) (pre segs : List Segment) (r : (ℕ × ℕ) × List Segment) : Prop where
  zones : zones r.2 = zones segs
  full : r.1.1 = 0 → Zoned g (pre ++ r.2) out
  granted : r.1.1 ≠ 0 → Zoned g (pre ++ r.2) (out ++ [⟨r.1.1, size⟩]) ∧
    ∃ before s after, r.2 = before ++ s :: after ∧ r.1.2 = before.length ∧ ⟨r.1.1, size⟩ ∈ s.sys.live

theorem allocateFrom_searched {g size : ℕ} {out : List Slot} (hsize : 0 < size ∧ NoWrap g size) :
    ∀ (segs pre : List Segment), Zoned g (pre ++ segs) out → Searched g size out pre segs (allocateFrom size segs)
  | [], _, h => ⟨rfl, fun _ => h, fun hne => absurd rfl hne⟩
  | s :: rest, pre, h => by
    unfold allocateFrom
    by_cases hp : (s.sys.alloc.allocate size false).1 = 0
    · have hz := h.tried hsize hp
      rw [List.append_cons] at hz
      have ih := allocateFrom_searched hsize rest (pre ++ [s.call (.allocate size false)]) hz
      rw [if_neg (not_not.2 hp)]
      refine ⟨?_, fun h0 => ?_, fun hne => ?_⟩
      · show _ :: zones _ = _ :: zones rest
        rw [ih.zones]; rfl
      · simpa using ih.full h0
      · obtain ⟨hg, before, t, after, e, hi, hl⟩ := ih.granted hne
        exact ⟨by simpa using hg, _ :: before, t, after, congrArg (_ :: ·) e, congrArg (· + 1) hi, hl⟩
    · rw [if_pos hp]
      refine ⟨rfl, fun h0 => absurd h0 hp, fun _ => ⟨h.granted hsize hp, [], _, rest, rfl, rfl, ?_⟩⟩
      rw [Segment.live_call_of_granted hp]; simp

/-! ## Growth -/

theorem dvd_envMb (v : Option ℕ) (dfltMb : ℕ) : 65536 ∣ envMb v dfltMb := by
  unfold envMb
  rw [Nat.dvd_mod_iff (by decide), Nat.mul_assoc]
  exact dvd_mul_of_dvd_right (by decide : 65536 ∣ 1024 * 1024) _

/-- The system's promise for a reservation of `size` bytes: clear of every segment. -/
def Granted (c : Corral) (o : Outcome) (size : ℕ) : Prop :=
  o.reserve ≠ 0 → Reserved o.reserve size ∧ ∀ s ∈ c.segs, s.base + s.size ≤ o.reserve ∨ o.reserve + size ≤ s.base

instance (c : Corral) (o : Outcome) (size : ℕ) : Decidable (c.Granted o size) := inferInstanceAs (Decidable (_ → _))

/-- The total over the segments is exact, and within the cap. -/
structure Budget (c : Corral) : Prop where
  total : c.totalReserved = Span.total (zones c.segs)
  cap : c.maxReserved ≠ 0 → c.totalReserved ≤ c.maxReserved

/-- The slot granularity of every segment. -/
def gran (c : Corral) : ℕ := c.blank.allocGranularity

theorem Zoned.total_lt {g : ℕ} {segs : List Segment} {out : List Slot} (h : Zoned g segs out) :
    Span.total (zones segs) < 2 ^ 32 := by
  have hw : ∀ z ∈ zones segs, z.Within 0 (2 ^ 32 - 65536) := by
    rintro z hz
    obtain ⟨s, hs, rfl⟩ := List.mem_map.1 hz
    exact ⟨Nat.zero_le _, (h.kept s hs).reserved.top⟩
  have hc : (zones segs).Pairwise Span.Apart := by
    refine List.pairwise_map.2 (h.clear.imp_of_mem fun hs ht hc => ?_)
    rw [Span.apart_iff (h.kept _ hs).reserved.size_pos (h.kept _ ht).reserved.size_pos]
    exact hc
  have := Span.total_le_of_apart hw hc
  omega

/-- A segment is added with a new allocator over it, or the corral stays as it is. -/
theorem addCorralSegment_new (c : Corral) (o : Outcome) (size : ℕ) :
    c.addCorralSegment o size = (false, c) ∨
    o.reserve ≠ 0 ∧ ∃ u, Blank u ∧ u.allocGranularity = c.gran ∧
      (Reserved o.reserve size → Started (adopt u o.reserve size false)) ∧
      c.addCorralSegment o size = (true, { c with
        segs := c.segs ++ [⟨o.reserve, size, ⟨adopt u o.reserve size false, []⟩⟩]
        totalReserved := (c.totalReserved + size) % 2 ^ 32 }) ∧
      (c.maxReserved ≠ 0 → (c.totalReserved + size) % 2 ^ 32 ≤ c.maxReserved) := by
  unfold addCorralSegment
  by_cases h1 : kMaxCorralSegs ≤ c.segs.length
  · rw [if_pos h1]; exact .inl rfl
  by_cases h2 : c.maxReserved ≠ 0 ∧ c.maxReserved < (c.totalReserved + size) % 2 ^ 32
  · rw [if_neg h1, if_pos h2]; exact .inl rfl
  by_cases h3 : o.reserve = 0
  · rw [if_neg h1, if_neg h2, if_pos h3]; exact .inl rfl
  rw [if_neg h1, if_neg h2, if_neg h3]
  by_cases h4 : (!o.object) = true
  · rw [if_pos h4]; exact .inl rfl
  rw [if_neg h4]
  have hf : Fresh c.blank := .construct _ _
  obtain ⟨u, hu, hg, e | e⟩ := hf.blank.initFromShared o.reserve size o.pool
  · rw [e]; exact .inl rfl
  · rw [e]
    exact .inr ⟨h3, u, hu, hg, fun hr => .initFromShared hf hr e, rfl, fun hmax => Nat.not_lt.1 fun hlt => h2 ⟨hmax, hlt⟩⟩

/-- A segment is added whole, within the cap, or the corral stays as it is. -/
theorem addCorralSegment_cases {c : Corral} {o : Outcome} {size : ℕ} {out : List Slot} (hz : Zoned c.gran c.segs out)
    (hb : c.Budget) (ho : c.Granted o size) :
    c.addCorralSegment o size = (false, c) ∨
    ∃ s : Segment, s.base = o.reserve ∧ s.size = size ∧ Zoned c.gran (c.segs ++ [s]) out ∧
      Budget { c with segs := c.segs ++ [s], totalReserved := (c.totalReserved + size) % 2 ^ 32 } ∧
      c.addCorralSegment o size =
        (true, { c with segs := c.segs ++ [s], totalReserved := (c.totalReserved + size) % 2 ^ 32 }) := by
  rcases c.addCorralSegment_new o size with e | ⟨h0, u, -, hg, hst, e, hcap⟩
  · exact .inl e
  right
  obtain ⟨hr, hclear⟩ := ho h0
  have hz' : Zoned c.gran (c.segs ++ [⟨o.reserve, size, ⟨adopt u o.reserve size false, []⟩⟩]) out :=
    hz.grow ⟨Sys.start_proper (hst hr).whole.idle, rfl, congrArg (alignUp size) hg, hg, hr⟩ rfl hclear
  -- the sum of all zones stays below 2 ^ 32, so the total does not wrap
  have htotal : (c.totalReserved + size) % 2 ^ 32 = Span.total (zones (c.segs ++ [⟨o.reserve, size, ⟨adopt u o.reserve size false, []⟩⟩])) := by
    have hlt := hz'.total_lt
    rw [zones, List.map_append, Span.total_append, ← zones, ← hb.total] at hlt ⊢
    exact Nat.mod_eq_of_lt hlt
  exact ⟨_, rfl, rfl, hz', ⟨htotal, hcap⟩, e⟩

/-! ## A slot from an old segment or a new one -/

structure Found (c : Corral) (o : Outcome) (size : ℕ) (out : List Slot) (r : (ℕ × ℕ) × Corral) : Prop where
  same : r.2 = { c with segs := r.2.segs, totalReserved := r.2.totalReserved }
  budget : r.2.Budget
  zones : zones r.2.segs = zones c.segs ∨
    c.grows o size ∧ zones r.2.segs = zones c.segs ++ [⟨o.reserve, c.growSize size⟩]
  full : r.1.1 = 0 → Zoned c.gran r.2.segs out
  granted : r.1.1 ≠ 0 → Zoned c.gran r.2.segs (out ++ [⟨r.1.1, size⟩]) ∧
    ∃ before s after, r.2.segs = before ++ s :: after ∧ r.1.2 = before.length ∧ ⟨r.1.1, size⟩ ∈ s.sys.live

theorem modify_length {α : Type*} (f : α → α) (a : α) (post : List α) : ∀ pre : List α,
    (pre ++ a :: post).modify pre.length f = pre ++ f a :: post
  | [] => rfl
  | b :: pre => congrArg (b :: ·) (modify_length f a post pre)

theorem zones_modify {segs : List Segment} {f : Segment → Segment} (hf : ∀ s, (f s).base = s.base ∧ (f s).size = s.size)
    (i : ℕ) : zones (segs.modify i f) = zones segs := by
  induction segs generalizing i with
  | nil => cases i <;> rfl
  | cons s segs ih =>
    cases i with
    | zero =>
      show (⟨(f s).base, (f s).size⟩ : Span) :: zones segs = _
      rw [(hf s).1, (hf s).2]; rfl
    | succ i => exact congrArg (_ :: ·) (ih i)

theorem findSlot_found {c : Corral} {o : Outcome} {size : ℕ} {out : List Slot} (hz : Zoned c.gran c.segs out)
    (hb : c.Budget) (hsize : 0 < size ∧ NoWrap c.gran size) (ho : c.Granted o (c.growSize size)) :
    Found c o size out (c.findSlot o size) := by
  have hs := allocateFrom_searched hsize c.segs [] hz
  rcases hr : allocateFrom size c.segs with ⟨⟨p, i⟩, segs⟩
  rw [hr] at hs
  unfold findSlot
  rw [hr]
  simp only
  have hbud : Budget { c with segs := segs } := ⟨hb.total.trans (by rw [hs.zones]), hb.cap⟩
  by_cases hp : p = 0
  -- no segment has room: one is added, and only it is tried again
  · rw [if_neg (not_not.2 hp)]
    have hz' : Zoned c.gran segs out := hs.full hp
    have ho' : Granted { c with segs := segs } o (c.growSize size) := by
      intro h0
      refine ⟨(ho h0).1, fun s hmem => ?_⟩
      have hin : (⟨s.base, s.size⟩ : Span) ∈ zones c.segs := hs.zones ▸ List.mem_map_of_mem hmem
      obtain ⟨t, ht, e⟩ := List.mem_map.1 hin
      injection e with hbase hlen
      rw [← hbase, ← hlen]
      exact (ho h0).2 t ht
    have hgrow : c.grows o size = ({ c with segs := segs }.addCorralSegment o (c.growSize size)).1 := by
      unfold grows
      rw [hr]
      simp [hp]
    rw [show growSize { c with segs := segs } size = c.growSize size from rfl]
    rcases addCorralSegment_cases (c := { c with segs := segs }) hz' hbud ho' with e | ⟨s, hbase, hlen, hz'', hb'', e⟩
    · rw [e]
      exact ⟨rfl, hbud, .inl hs.zones, fun _ => hz', fun hne => absurd rfl hne⟩
    · rw [e] at hgrow ⊢
      simp only [List.length_append, List.length_singleton, Nat.add_sub_cancel, List.getElem?_concat_length,
        modify_length]
      have hzone : zones (segs ++ [s.call (.allocate size false)]) = zones c.segs ++ [⟨o.reserve, c.growSize size⟩] := by
        rw [zones, List.map_append, ← zones, hs.zones, ← hbase, ← hlen]; rfl
      refine ⟨rfl, ⟨hb''.total.trans ?_, hb''.cap⟩, .inr ⟨hgrow, hzone⟩, fun h0 => hz''.tried hsize h0, fun hne =>
        ⟨hz''.granted hsize hne, segs, _, [], rfl, rfl, ?_⟩⟩
      · simp [zones, Segment.call]
      · rw [Segment.live_call_of_granted hne]; simp
  · rw [if_pos hp]
    exact ⟨rfl, hbud, .inl hs.zones, fun h0 => absurd h0 hp, fun _ => hs.granted hp⟩

end Corral

end Ts3Vas
