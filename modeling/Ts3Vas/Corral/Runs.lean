/-
Runs of CorralReserve and CorralFree with arbitrary outcomes of the system: the map of sizes, the
allocators of the segments and the slots in the callers' hands agree in every state reached.
-/
import Ts3Vas.Corral.Zones

namespace Ts3Vas

/-- The corral and the slots handed out and not freed. -/
structure Corralled where
  corral : Corral
  out : List Slot

inductive CorralOp
  | reserve (size type : ℕ) (o : Outcome)
  | free (addr : ℕ)

namespace Corralled

open Corral

def step (s : Corralled) : CorralOp → Corralled
  | .reserve size type o =>
    let (p, c) := s.corral.corralReserve o size type
    ⟨c, if p = 0 then s.out else s.out ++ [⟨p, size⟩]⟩
  | .free addr =>
    let (ok, c) := s.corral.corralFree addr
    ⟨c, if ok then s.out.filter (·.addr ≠ addr) else s.out⟩

/-- The system's promise for the reservation that a request may make. The request may be of any size, and any
address may be freed. -/
def Promised (s : Corralled) : CorralOp → Prop
  | .reserve size _ o => s.corral.Granted o (s.corral.growSize size)
  | .free _ => True

instance (s : Corralled) : (op : CorralOp) → Decidable (s.Promised op)
  | .reserve .. => inferInstanceAs (Decidable (Corral.Granted ..))
  | .free _ => inferInstanceAs (Decidable True)

/-- A request whose rounding does not wrap, under the same promise. -/
def WellFormed (s : Corralled) : CorralOp → Prop
  | .reserve size _ o => NoWrap s.corral.gran size ∧ s.corral.Granted o (s.corral.growSize size)
  | .free _ => True

instance (s : Corralled) : (op : CorralOp) → Decidable (s.WellFormed op)
  | .reserve .. => inferInstanceAs (Decidable (_ ∧ _))
  | .free _ => inferInstanceAs (Decidable True)

/-- The state after the constructor and InitScriptArena. -/
def start (granKb topDownKb : Option ℤ) (o : Outcome) (startMb growMb maxMb : Option ℕ) : Corralled :=
  ⟨(Corral.new granKb topDownKb).initScriptArena o startMb growMb maxMb, []⟩

/-- The system's promise for the first segment. -/
def StartGranted (o : Outcome) (startMb : Option ℕ) : Prop := o.reserve ≠ 0 → Reserved o.reserve (envMb startMb 126)

/-! ## The invariant -/

structure Kept (s : Corralled) : Prop where
  zoned : Zoned s.corral.gran s.corral.segs s.out
  sizes : ∀ a n, s.corral.sizes.lookup a = some n ↔ ⟨a, n⟩ ∈ s.out
  budget : s.corral.Budget
  fits : ∀ slot ∈ s.out, NoWrap s.corral.gran slot.size
  /-- Nothing is out of a corral that did not start. -/
  idle : s.corral.ready = false → s.out = []

section
variable {s : Corralled}

/-- The start: no segment, or the first one alone. -/
theorem start_cases (granKb topDownKb : Option ℤ) {o : Outcome} {startMb : Option ℕ} (growMb maxMb : Option ℕ)
    (ho : StartGranted o startMb) : ∃ c : Corral, start granKb topDownKb o startMb growMb maxMb = ⟨c, []⟩ ∧
      c.sizes = ∅ ∧ Zoned c.gran c.segs [] ∧ c.Budget ∧
      (zones c.segs = [] ∨ zones c.segs = [⟨o.reserve, envMb startMb 126⟩]) := by
  let c : Corral := { Corral.new granKb topDownKb with
    startBytes := envMb startMb 126, growFloor := envMb growMb 32, maxReserved := envMb maxMb 512 }
  have hz : Zoned c.gran c.segs [] := ⟨by simp [c, Corral.new], List.Pairwise.nil, .refl _⟩
  have hb : c.Budget := ⟨rfl, fun _ => Nat.zero_le _⟩
  have hg : c.Granted o c.startBytes := fun h0 => ⟨ho h0, by simp [c, Corral.new]⟩
  refine ⟨{ (c.addCorralSegment o c.startBytes).2 with ready := (c.addCorralSegment o c.startBytes).1 }, rfl, ?_⟩
  rcases addCorralSegment_cases hz hb hg with e | ⟨t, hbase, hlen, hz', hb', e⟩
  · rw [e]; exact ⟨rfl, hz, ⟨hb.total, hb.cap⟩, .inl rfl⟩
  · rw [e]
    refine ⟨rfl, hz', ⟨hb'.total, hb'.cap⟩, .inr ?_⟩
    show [(⟨t.base, t.size⟩ : Span)] = _
    rw [hbase, hlen]

theorem start_kept (granKb topDownKb : Option ℤ) {o : Outcome} {startMb : Option ℕ} (growMb maxMb : Option ℕ)
    (ho : StartGranted o startMb) : (start granKb topDownKb o startMb growMb maxMb).Kept := by
  obtain ⟨c, e, hs, hz, hb, -⟩ := start_cases granKb topDownKb growMb maxMb ho
  rw [e]
  exact ⟨hz, by simp [hs], hb, by simp, fun _ => rfl⟩

/-- Two slots out at the same address are the same slot. -/
theorem Kept.eq_of_addr (h : s.Kept) {a b : Slot} (ha : a ∈ s.out) (hb : b ∈ s.out) (e : a.addr = b.addr) : a = b := by
  obtain ⟨x, m⟩ := a
  obtain ⟨y, n⟩ := b
  simp only at e
  subst e
  have h1 := (h.sizes x m).2 ha
  rw [(h.sizes x n).2 hb] at h1
  cases h1; rfl

/-! ## Reserve -/

/-- What CorralReserve does when it returns null, and when it returns a slot. -/
structure Reserving (s : Corralled) (o : Outcome) (size : ℕ) (r : ℕ × Corral) : Prop where
  same : r.2 = { s.corral with segs := r.2.segs, totalReserved := r.2.totalReserved, sizes := r.2.sizes }
  budget : r.2.Budget
  zones : zones r.2.segs = zones s.corral.segs ∨
    s.corral.grows o size ∧ zones r.2.segs = zones s.corral.segs ++ [⟨o.reserve, s.corral.growSize size⟩]
  refused : r.1 = 0 → Zoned s.corral.gran r.2.segs s.out ∧ r.2.sizes = s.corral.sizes
  granted : r.1 ≠ 0 → Zoned s.corral.gran r.2.segs (s.out ++ [⟨r.1, size⟩]) ∧
    r.2.sizes = s.corral.sizes.insert r.1 size ∧ s.corral.ready = true

theorem Kept.reserve (h : s.Kept) {o : Outcome} {size : ℕ} (type : ℕ) (hop : s.WellFormed (.reserve size type o)) :
    s.Reserving o size (s.corral.corralReserve o size type) := by
  unfold corralReserve
  by_cases h0 : (!s.corral.ready || size = 0) = true
  · rw [if_pos h0]
    exact ⟨rfl, h.budget, .inl rfl, fun _ => ⟨h.zoned, rfl⟩, fun hne => absurd rfl hne⟩
  rw [if_neg h0]
  simp only [Bool.or_eq_true, Bool.not_eq_true', decide_eq_true_eq, not_or, Bool.not_eq_false] at h0
  have hf := findSlot_found h.zoned h.budget ⟨Nat.pos_of_ne_zero h0.2, hop.1⟩ hop.2
  rcases hr : s.corral.findSlot o size with ⟨⟨p, i⟩, c⟩
  rw [hr] at hf
  simp only
  have hsame := hf.same
  simp only at hsame
  by_cases hp : p = 0
  · rw [if_pos hp]
    exact ⟨hsame.trans (by rw [hsame]), hf.budget, hf.zones, fun _ => ⟨hf.full hp, by rw [hsame]⟩, fun hne => absurd rfl hne⟩
  rw [if_neg hp]
  obtain ⟨hz, before, t, after, e, hi, hl⟩ := hf.granted hp
  by_cases hc : (hasFlag type MEM_COMMIT && !o.commit) = true
  · -- the commit failed: the slot goes straight back to the segment that granted it
    rw [if_pos hc]
    simp only at e hi hl hz
    have hmod : c.segs.modify i (·.call (.free ⟨p, size⟩)) = before ++ t.call (.free ⟨p, size⟩) :: after := by
      rw [e, hi, modify_length]
    have hback : Zoned s.corral.gran (c.segs.modify i (·.call (.free ⟨p, size⟩))) s.out := by
      rw [hmod]
      rw [e] at hz
      refine (hz.freed hl).perm (List.Perm.cons_inv (a := ⟨p, size⟩) ?_)
      exact (List.perm_cons_erase (by simp)).symm.trans (List.perm_append_singleton _ _)
    have hzones : zones (c.segs.modify i (·.call (.free ⟨p, size⟩))) = zones c.segs := 
      zones_modify (f := (·.call (.free ⟨p, size⟩))) (fun _ => ⟨rfl, rfl⟩) i
    refine ⟨?_, ⟨hf.budget.total.trans ?_, hf.budget.cap⟩, ?_, fun _ => ⟨hback, by rw [hsame]⟩, fun hne => absurd rfl hne⟩
    · rw [hsame]
    · rw [hzones]
    · rw [hzones]; exact hf.zones
  · rw [if_neg hc]
    refine ⟨?_, ⟨hf.budget.total, hf.budget.cap⟩, hf.zones, fun h => absurd h hp, fun _ => ⟨hz, ?_, h0.1⟩⟩
    · rw [hsame]
    · rw [hsame]

/-! ## Free -/

theorem gran_corralFree (c : Corral) (addr : ℕ) : (c.corralFree addr).2.gran = c.gran := by
  unfold corralFree
  split_ifs
  · rfl
  · split
    · rfl
    · dsimp only
      split
      · rfl
      · split_ifs <;> rfl

/-- A slot out is known, starts above 0 and asks for at least one byte. -/
theorem Kept.slot_pos (h : s.Kept) {slot : Slot} (hs : slot ∈ s.out) : 0 < slot.addr ∧ 0 < slot.size := by
  obtain ⟨pre, t, post, e, hl⟩ := h.zoned.owner hs
  have ht : t.Kept s.corral.gran := h.zoned.kept t (by simp [e])
  obtain ⟨h1, -, -, h4⟩ := ht.within hl
  have hb := ht.reserved.base_pos
  refine ⟨by omega, Nat.pos_of_ne_zero fun h0 => ?_⟩
  rw [h0, alignUp_eq ht.granularity, Nat.zero_add, Nat.mod_eq_of_lt (by have := ht.granularity.le; omega),
    Nat.div_eq_of_lt (by have := ht.granularity.pos; omega), Nat.zero_mul] at h4
  exact absurd h4 (lt_irrefl 0)

theorem Kept.ready (h : s.Kept) {slot : Slot} (hs : slot ∈ s.out) : s.corral.ready = true := by
  by_contra hr
  rw [h.idle (Bool.not_eq_true _ ▸ hr)] at hs
  exact absurd hs List.not_mem_nil

/-- Freeing a slot that is out gives it back to the segment that granted it, and to no other. -/
structure Returned (s : Corralled) (slot : Slot) (t : Segment) : Prop where
  granted : slot ∈ t.sys.live
  freed : ∃ pre post, s.corral.segs = pre ++ t :: post ∧
    (∀ u ∈ pre ++ post, slot ∉ u.sys.live ∧ u.contains slot.addr = false) ∧
    s.corral.corralFree slot.addr = (true, { s.corral with
      sizes := s.corral.sizes.erase slot.addr
      segs := pre ++ t.call (.free slot) :: post })

theorem Kept.returned (h : s.Kept) {slot : Slot} (hs : slot ∈ s.out) : ∃ t, s.Returned slot t := by
  obtain ⟨pre, t, post, e, hl⟩ := h.zoned.owner hs
  have hz := h.zoned
  rw [e] at hz
  obtain ⟨haddr, hsize⟩ := h.slot_pos hs
  have hready := h.ready hs
  refine ⟨t, hl, pre, post, e, fun u hu => ?_, ?_⟩
  · have hsole := hz.sole hl u hu
    refine ⟨fun hlu => ?_, hsole⟩
    have hk : u.Kept s.corral.gran := by
      apply hz.kept u
      simp only [List.mem_append, List.mem_cons] at hu ⊢
      rcases hu with hu | hu
      · exact .inl hu
      · exact .inr (.inr hu)
    rw [hk.contains hlu] at hsole
    cases hsole
  · unfold corralFree
    have hfree : freeFrom slot.addr slot.size s.corral.segs = some (pre ++ t.call (.free slot) :: post) := by
      have hz' : Zoned s.corral.gran ([] ++ (pre ++ t :: post)) s.out := hz
      rw [e]
      exact hz'.freeFrom hl
    rw [if_neg (by simp [hready]; omega), (h.sizes slot.addr slot.size).2 hs]
    simp only [hfree]
    rw [if_neg (by omega)]

/-- An address that is no live base is left alone. -/
theorem Kept.unknown (h : s.Kept) {addr : ℕ} (hu : ∀ slot ∈ s.out, slot.addr ≠ addr) :
    s.corral.corralFree addr = (false, s.corral) := by
  have hnone : s.corral.sizes.lookup addr = none := by
    refine Option.eq_none_iff_forall_ne_some.2 fun n hn => ?_
    exact hu ⟨addr, n⟩ ((h.sizes addr n).1 hn) rfl
  unfold corralFree
  rw [hnone]
  split_ifs <;> rfl

theorem Kept.corralFree_iff (h : s.Kept) (addr : ℕ) :
    (s.corral.corralFree addr).1 = true ↔ ∃ slot ∈ s.out, slot.addr = addr := by
  constructor
  · intro ht
    by_contra hc
    push Not at hc
    rw [h.unknown hc] at ht
    cases ht
  · rintro ⟨slot, hs, rfl⟩
    obtain ⟨t, -, pre, post, -, -, e⟩ := h.returned hs
    rw [e]

/-- The slot that a request gets is at the address of no slot out. -/
theorem Kept.reserve_new (h : s.Kept) {o : Outcome} {size : ℕ} (type : ℕ) (hop : s.WellFormed (.reserve size type o))
    (hp : (s.corral.corralReserve o size type).1 ≠ 0) : ∀ slot ∈ s.out, slot.addr ≠ (s.corral.corralReserve o size type).1 := by
  intro slot hs e
  have hn := ((h.reserve type hop).granted hp).1.nodup
  rw [List.map_append, List.nodup_append] at hn
  exact hn.2.2 slot.addr (List.mem_map_of_mem hs) _ (List.mem_singleton.2 rfl) e

/-! ## One step -/

theorem Kept.step_reserve (h : s.Kept) {o : Outcome} {size : ℕ} (type : ℕ) (hop : s.WellFormed (.reserve size type o)) :
    (s.step (.reserve size type o)).Kept := by
  have hr := h.reserve type hop
  show Kept ⟨(s.corral.corralReserve o size type).2, if (s.corral.corralReserve o size type).1 = 0 then s.out
    else s.out ++ [⟨(s.corral.corralReserve o size type).1, size⟩]⟩
  rcases e : s.corral.corralReserve o size type with ⟨p, c⟩
  rw [e] at hr
  have hsame := hr.same
  simp only at hsame
  have hgran : c.gran = s.corral.gran := by rw [hsame]; rfl
  have hready : c.ready = s.corral.ready := by rw [hsame]
  simp only
  by_cases hp : p = 0
  · rw [if_pos hp]
    obtain ⟨hz, hs⟩ := hr.refused hp
    exact ⟨hgran ▸ hz, fun a n => by rw [show c.sizes = _ from hs]; exact h.sizes a n, hr.budget,
      hgran ▸ h.fits, fun h0 => h.idle (hready ▸ h0)⟩
  · rw [if_neg hp]
    obtain ⟨hz, hs, hon⟩ := hr.granted hp
    refine ⟨hgran ▸ hz, fun a n => ?_, hr.budget, fun slot hs => ?_, fun h0 => ?_⟩
    · -- the new base is none of the old ones: the slots are apart
      have hnew : ∀ m, (⟨p, m⟩ : Slot) ∉ s.out := by
        have hnone := h.reserve_new type hop
        rw [e] at hnone
        exact fun m hm => hnone hp _ hm rfl
      rw [show c.sizes = _ from hs]
      by_cases ha : a = p
      · subst ha
        rw [AList.lookup_insert]
        simp only [Option.some.injEq, List.mem_append, List.mem_singleton, Slot.mk.injEq, true_and]
        exact ⟨fun e => .inr e.symm, fun e => e.elim (fun hm => absurd hm (hnew n)) Eq.symm⟩
      · rw [AList.lookup_insert_ne ha, h.sizes a n]
        simp [ha]
    · rw [hgran]
      rcases List.mem_append.1 hs with hs | hs
      · exact h.fits slot hs
      · exact List.mem_singleton.1 hs ▸ hop.1
    · rw [hready, hon] at h0; cases h0

theorem Kept.step_free (h : s.Kept) (addr : ℕ) : (s.step (.free addr)).Kept := by
  show Kept ⟨(s.corral.corralFree addr).2, if (s.corral.corralFree addr).1 then s.out.filter (·.addr ≠ addr) else s.out⟩
  by_cases hc : ∃ slot ∈ s.out, slot.addr = addr
  · obtain ⟨slot, hs, rfl⟩ := hc
    obtain ⟨t, hl, pre, post, e, -, ef⟩ := h.returned hs
    have hz := h.zoned
    rw [e] at hz
    have hnodup : s.out.Nodup := h.zoned.nodup.of_map Slot.addr
    -- no two slots share an address, so the filter removes one
    have hfilter : s.out.filter (·.addr ≠ slot.addr) = s.out.erase slot := by
      rw [hnodup.erase_eq_filter]
      refine List.filter_congr fun x hx => ?_
      by_cases hxs : x = slot
      · simp [hxs]
      · have : x.addr ≠ slot.addr := fun e => hxs (h.eq_of_addr hx hs e)
        simp [hxs, this]
    rw [ef]
    simp only [if_true]
    have hz' := hz.freed hl
    rw [← hfilter] at hz'
    refine ⟨hz', fun a n => ?_, ⟨h.budget.total.trans ?_, h.budget.cap⟩,
      fun x hx => h.fits x (List.mem_of_mem_filter hx), fun h0 => ?_⟩
    · by_cases ha : a = slot.addr
      · subst ha
        rw [AList.lookup_erase]
        simp
      · rw [AList.lookup_erase_ne ha, h.sizes a n]
        simp [ha]
    · show _ = Span.total (zones (pre ++ t.call (.free slot) :: post))
      rw [e]; simp [zones, Segment.call]
    · rw [h.idle h0] at hs
      exact absurd hs (List.not_mem_nil)
  · push Not at hc
    rw [h.unknown hc]
    exact h

/-- A free moves no reservation. -/
theorem Kept.zones_free (h : s.Kept) (addr : ℕ) : zones (s.step (.free addr)).corral.segs = zones s.corral.segs := by
  show zones (s.corral.corralFree addr).2.segs = _
  by_cases hc : ∃ slot ∈ s.out, slot.addr = addr
  · obtain ⟨slot, hs, rfl⟩ := hc
    obtain ⟨t, -, pre, post, e, -, ef⟩ := h.returned hs
    rw [ef, e]
    simp [zones, Segment.call]
  · push Not at hc
    rw [h.unknown hc]

/-- A slot out starts in a reservation. -/
theorem Kept.mem_zone (h : s.Kept) {slot : Slot} (hs : slot ∈ s.out) : ∃ z ∈ zones s.corral.segs, slot.addr ∈ z := by
  obtain ⟨pre, t, post, e, hl⟩ := h.zoned.owner hs
  have hmem : t ∈ s.corral.segs := by simp [e]
  obtain ⟨hlo, hhi, -, -⟩ := (h.zoned.kept t hmem).within hl
  exact ⟨⟨t.base, t.size⟩, List.mem_map_of_mem hmem, hlo, hhi⟩

theorem Kept.step (h : s.Kept) {op : CorralOp} (hop : s.WellFormed op) : (s.step op).Kept := by
  cases op with
  | reserve size type o => exact h.step_reserve type hop
  | free addr => exact h.step_free addr

end

theorem kept_after {s : Corralled} (h : s.Kept) {ops : List CorralOp} (hops : Run.Guarded step WellFormed s ops) :
    (Run.after step s ops).Kept := hops.invariant (fun _ _ hs hop => hs.step hop) h

/-! ## Consistency -/

/-- The bookkeeping of the corral against the slots out. -/
structure Consistent (s : Corralled) : Prop where
  /-- The keys of the map are the live bases, each with the size asked for. -/
  keys : ∀ a n, s.corral.sizes.lookup a = some n ↔ ⟨a, n⟩ ∈ s.out
  apart : (s.out.map (Slot.span s.corral.gran)).Pairwise Span.Apart
  whole : ∀ slot ∈ s.out, slot.size ≤ alignUp slot.size s.corral.gran
  freed : ∀ addr, (s.corral.corralFree addr).1 = true ↔ ∃ slot ∈ s.out, slot.addr = addr
  returned : ∀ slot ∈ s.out, ∃ t, s.Returned slot t
  recognised : ∀ slot ∈ s.out, s.corral.isCorralAddress slot.addr = true
  total : s.corral.totalReserved = (s.corral.segs.map Segment.size).sum
  cap : s.corral.maxReserved ≠ 0 → s.corral.totalReserved ≤ s.corral.maxReserved

theorem Kept.recognised {s : Corralled} (h : s.Kept) {slot : Slot} (hs : slot ∈ s.out) :
    s.corral.isCorralAddress slot.addr = true := by
  obtain ⟨pre, t, post, e, hl⟩ := h.zoned.owner hs
  have hmem : t ∈ s.corral.segs := by simp [e]
  have haddr := (h.slot_pos hs).1
  unfold isCorralAddress
  rw [h.ready hs, List.any_eq_true.2 ⟨t, hmem, (h.zoned.kept t hmem).contains hl⟩]
  simp; omega

theorem Kept.consistent {s : Corralled} (h : s.Kept) : s.Consistent where
  keys := h.sizes
  apart := h.zoned.pairwise
  whole slot hs := (alignUp_bounds (granularity_construct _ _) (h.fits slot hs)).1
  freed := h.corralFree_iff
  returned _ hs := h.returned hs
  recognised _ hs := h.recognised hs
  total := by rw [h.budget.total, Span.total, zones, List.map_map]; rfl
  cap := h.budget.cap

/-- From any start and settings, every run of CorralReserve and CorralFree keeps the books of the
corral consistent with the slots out. -/
theorem consistent_after (granKb topDownKb : Option ℤ) (o : Outcome) (startMb growMb maxMb : Option ℕ)
    (ho : StartGranted o startMb) {ops : List CorralOp}
    (hops : Run.Guarded step WellFormed (start granKb topDownKb o startMb growMb maxMb) ops) :
    (Run.after step (start granKb topDownKb o startMb growMb maxMb) ops).Consistent :=
  (kept_after (start_kept granKb topDownKb growMb maxMb ho) hops).consistent

/-- A run that fills the first segment, grows, fails to commit and frees. -/
theorem consistent_grown : (Run.after step
    (start none none ⟨0x10000000, true, true, true⟩ (some 1) (some 1) none)
    [.reserve 0x100000 MEM_COMMIT ⟨0, true, true, true⟩, .reserve 0x5000 MEM_COMMIT ⟨0x20000000, true, true, true⟩,
      .reserve 0x3000 MEM_COMMIT ⟨0, true, true, false⟩, .free 0x10000000]).Consistent :=
  consistent_after none none _ _ _ _ (by unfold StartGranted; decide) (by decide +kernel)

/-! ## Slots and reservations

`VirtualAlloc` reserves whole pages of a segment, while its allocator counts the segment in granules. -/

/-- Every slot out lies in what was reserved of the segment that granted it. -/
def Contained (s : Corralled) : Prop := ∀ slot ∈ s.out, ∃ t ∈ s.corral.segs, slot ∈ t.sys.live ∧
  t.base ≤ slot.addr ∧ slot.addr + slot.size ≤ t.base + alignUp t.size 4096

/-- The rounding of a request does not wrap, and a segment added for it has a whole number of granules. -/
def Level (s : Corralled) : CorralOp → Prop
  | .reserve size _ o => NoWrap s.corral.gran size ∧
    (s.corral.grows o size → s.corral.gran ∣ alignUp (s.corral.growSize size) 4096)
  | .free _ => True

instance (s : Corralled) : (op : CorralOp) → Decidable (s.Level op)
  | .reserve .. => inferInstanceAs (Decidable (_ ∧ (_ → _)))
  | .free _ => inferInstanceAs (Decidable True)

theorem Level.wellFormed {s : Corralled} {op : CorralOp} (hl : s.Level op) (hop : s.Promised op) : s.WellFormed op := by
  cases op with
  | reserve size type o => exact ⟨hl.1, hop⟩
  | free addr => trivial

theorem granularity_page : Granularity 4096 := ⟨12, by omega, by omega, rfl⟩

/-- Every segment has a whole number of granules. -/
structure Leveled (s : Corralled) : Prop where
  kept : s.Kept
  level : ∀ z ∈ zones s.corral.segs, s.corral.gran ∣ alignUp z.len 4096

theorem Leveled.contained {s : Corralled} (h : s.Leveled) : s.Contained := by
  intro slot hs
  obtain ⟨pre, t, post, e, hl⟩ := h.kept.zoned.owner hs
  have hmem : t ∈ s.corral.segs := by simp [e]
  have ht := h.kept.zoned.kept t hmem
  obtain ⟨hlo, -, hhi, -⟩ := ht.within hl
  have hsize := (alignUp_bounds ht.granularity (h.kept.fits slot hs)).1
  have hpage : NoWrap 4096 t.size := by
    have := ht.granularity.page_dvd
    have hle : 4096 ≤ s.corral.gran := Nat.le_of_dvd ht.granularity.pos this
    have hn := ht.noWrap
    unfold NoWrap at hn ⊢; omega
  -- the reservation ends on a granule, so rounding the segment up to granules adds nothing
  have hround : alignUp t.size s.corral.gran ≤ alignUp t.size 4096 :=
    alignUp_le_of_dvd ht.granularity ht.noWrap (h.level ⟨t.base, t.size⟩ (List.mem_map_of_mem hmem))
      (alignUp_bounds granularity_page hpage).1
  exact ⟨t, hmem, hl, hlo, by omega⟩

theorem alignUp_of_dvd {g n : ℕ} (hg : Granularity g) (hn : n < 2 ^ 32) (hd : 65536 ∣ n) : alignUp n g = n := by
  have hnw : NoWrap g n := by
    have := hg.le
    unfold NoWrap; omega
  exact le_antisymm (alignUp_le_of_dvd hg hnw (hg.dvd.trans hd) le_rfl) (alignUp_bounds hg hnw).1

theorem start_leveled (granKb topDownKb : Option ℤ) {o : Outcome} {startMb : Option ℕ} (growMb maxMb : Option ℕ)
    (ho : StartGranted o startMb) : (start granKb topDownKb o startMb growMb maxMb).Leveled := by
  refine ⟨start_kept granKb topDownKb growMb maxMb ho, ?_⟩
  obtain ⟨c, e, -, -, -, hzones⟩ := start_cases granKb topDownKb growMb maxMb ho
  rw [e]
  rcases hzones with hzones | hzones
  · show ∀ z ∈ zones c.segs, _
    rw [hzones]
    rintro z hz
    exact absurd hz List.not_mem_nil
  · show ∀ z ∈ zones c.segs, _
    rw [hzones]
    rintro z hz
    -- the first segment is of whole megabytes
    have hlt : envMb startMb 126 < 2 ^ 32 := Nat.mod_lt _ (by decide)
    rw [List.mem_singleton.1 hz, alignUp_of_dvd granularity_page hlt (dvd_envMb _ _)]
    exact (granularity_construct _ _).dvd.trans (dvd_envMb _ _)

theorem Leveled.step {s : Corralled} (h : s.Leveled) {op : CorralOp} (hp : s.Promised op) (hl : s.Level op) :
    (s.step op).Leveled := by
  have hop : s.WellFormed op := hl.wellFormed hp
  refine ⟨h.kept.step hop, ?_⟩
  cases op with
  | reserve size type o =>
    have hr := h.kept.reserve type hop
    have hgran : (s.corral.corralReserve o size type).2.gran = s.corral.gran := by rw [hr.same]; rfl
    show ∀ z ∈ zones (s.corral.corralReserve o size type).2.segs, (s.corral.corralReserve o size type).2.gran ∣ _
    rw [hgran]
    -- the zones are the old ones, or the old ones and the new segment
    rcases hr.zones with e | ⟨hg, e⟩
    · rw [e]; exact h.level
    · rw [e]
      rintro z hz
      rcases List.mem_append.1 hz with hz | hz
      · exact h.level z hz
      · rw [List.mem_singleton.1 hz]; exact hl.2 hg
  | free addr =>
    have hgran : (s.step (.free addr)).corral.gran = s.corral.gran := gran_corralFree s.corral addr
    rw [h.kept.zones_free, hgran]
    exact h.level

/-- At a granularity of one page only the rounding counts. -/
theorem level_of_page {s : Corralled} (h : s.corral.gran = 4096) {op : CorralOp} (hop : s.WellFormed op) : s.Level op := by
  cases op with
  | reserve size type o =>
    refine ⟨hop.1, fun _ => ?_⟩
    rw [h]
    exact dvd_alignUp granularity_page _
  | free addr => trivial

/-- A run in which no request wraps and every segment added has a whole number of granules leaves every slot
inside its reservation. -/
theorem contained_after (granKb topDownKb : Option ℤ) (o : Outcome) (startMb growMb maxMb : Option ℕ)
    (ho : StartGranted o startMb) {ops : List CorralOp}
    (hops : Run.Guarded step (fun s op => s.Promised op ∧ s.Level op) (start granKb topDownKb o startMb growMb maxMb) ops) :
    (Run.after step (start granKb topDownKb o startMb growMb maxMb) ops).Contained :=
  (hops.invariant (fun _ _ hs hop => hs.step hop.1 hop.2) (start_leveled granKb topDownKb growMb maxMb ho)).contained

/-- Granules of 64 KB, and a segment grown for 16 MB and 32 KB: twice that is a whole number of granules. -/
theorem contained_level : (Run.after step
    (start (some 64) none ⟨0x10000000, true, true, true⟩ none none none)
    [.reserve 0x7E00000 MEM_RESERVE ⟨0, true, true, true⟩, .reserve 0x1008000 MEM_RESERVE ⟨0x20000000, true, true, true⟩,
      .reserve 0x1000000 MEM_RESERVE ⟨0x30000000, true, true, true⟩]).Contained :=
  contained_after (some 64) none _ none none none (by unfold StartGranted; decide) (by decide +kernel)

/-- Granules of 64 KB, all other settings at their defaults, the first segment full. The second one,
grown for 16 MB and a page, is of 32 MB and two pages, and the slot of 16 MB in it ends 14 pages after
the end of its reservation. -/
def overhung : List CorralOp := [.reserve 0x7E00000 MEM_RESERVE ⟨0, true, true, true⟩,
  .reserve 0x1001000 MEM_RESERVE ⟨0x20000000, true, true, true⟩, .reserve 0x1000000 MEM_RESERVE ⟨0, true, true, true⟩]

/-- 4 GB less a byte, in a corral of 4 KB granules. -/
def wrappedOps : List CorralOp := [.reserve 0xFFFFFFFF MEM_RESERVE ⟨0, true, true, true⟩]

/-- The slot of a wrapped request takes no room, wherever it is. -/
theorem not_contained_overhung : (¬ ∀ (granKb topDownKb : Option ℤ) (o : Outcome) (startMb growMb maxMb : Option ℕ),
    StartGranted o startMb → ∀ ops : List CorralOp,
      Run.Guarded step WellFormed (start granKb topDownKb o startMb growMb maxMb) ops →
      (Run.after step (start granKb topDownKb o startMb growMb maxMb) ops).Contained) ∧
    Run.Guarded step Promised (start (some 4) none ⟨0x10000000, true, true, true⟩ none none none) wrappedOps ∧
    ¬ (Run.after step (start (some 4) none ⟨0x10000000, true, true, true⟩ none none none) wrappedOps).Contained := by
  refine ⟨fun h => ?_, by decide +kernel, ?_⟩
  · have h' := h (some 64) none ⟨0x10000000, true, true, true⟩ none none none (by unfold StartGranted; decide) overhung
      (by decide +kernel)
    revert h'
    unfold Contained
    decide +kernel
  · unfold Contained
    decide +kernel

end Corralled

end Ts3Vas
