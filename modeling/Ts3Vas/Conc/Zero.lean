/-
What the pages of the arena hold. Nothing is ever cleared by the tool: a captured block reads as zero
because whatever returns a slot decommits it first, and MEM_COMMIT of an uncommitted page gives zeros.
-/
import Ts3Vas.Conc.Handover

namespace Ts3Vas

open ProxyAllocator

/-- The steps of the hooks, and what the committed pages hold. -/
structure Arena where
  hand : Handover
  /-- By page number, the contents as one number. -/
  bytes : ℕ → ℕ

inductive ArenaOp
  /-- A step of a capture or of a release. -/
  | hook (op : HandoverOp)
  /-- One round of ProxyHeapInit: whether MEM_COMMIT succeeded, whether RtlCreateHeap then did, and
  what it left in the pages. -/
  | carve (size : ℕ) (commit heap : Bool) (left : ℕ → ℕ)
  /-- The owner of a slot writes to one of its pages. -/
  | write (g : Grant) (n v : ℕ)

namespace Arena

/-- The part of one round of ProxyHeapInit that is about the arena. A shard owns its slot from then
on, without a record. -/
def carve (s : Arena) (size : ℕ) (commit heap : Bool) (left : ℕ → ℕ) : Arena :=
  let (slot, a) := s.hand.alloc.allocate size false
  if slot = 0 then { s with hand := { s.hand with alloc := a } }
  else if !commit then { s with hand := { s.hand with alloc := a.free slot size } }
  else
    let pages := fun n => s.hand.pages n || decide (InPages slot size n)
    let bytes := fun n => if InPages slot size n then left n else s.bytes n
    if heap then ⟨⟨a, s.hand.tables, pages, s.hand.grants ++ [⟨s.hand.next, .vat, ⟨slot, size⟩, 0, .owned⟩], s.hand.next + 1,
      s.hand.returned⟩, bytes⟩
    else ⟨{ s.hand with alloc := a.free slot size, pages := pages }, bytes⟩

/-- A page that a step commits holds zeros, every other one what it held. -/
def zeroNew (s : Arena) (hand : Handover) : Arena :=
  ⟨hand, fun n => if hand.pages n && !s.hand.pages n then 0 else s.bytes n⟩

def step (s : Arena) : ArenaOp → Arena
  | .hook op => s.zeroNew (s.hand.step op)
  | .carve size commit heap left => s.carve size commit heap left
  | .write _ n v => { s with bytes := fun k => if k = n then v else s.bytes k }

/-- The slot that a round of ProxyHeapInit carves. -/
def carved (s : Arena) (size : ℕ) : ℕ := (s.hand.alloc.allocate size false).1

/-- The order of the steps of one call; MEM_COMMIT succeeds only for a range of at least one byte
inside the address space; a caller writes to the pages of a slot that it owns. -/
def Allowed (s : Arena) : ArenaOp → Prop
  | .hook op => s.hand.Allowed op
  | .carve size commit _ _ => commit = true → 0 < size ∧ s.carved size + size ≤ 2 ^ 32
  | .write g n _ => g ∈ s.hand.grants ∧ g.phase = .owned ∧ InPages g.slot.addr g.slot.size n

/-- RtlCreateHeap succeeds over every slot that was committed for it. -/
def HeapCreated : ArenaOp → Prop
  | .carve _ commit heap _ => commit = true → heap = true
  | _ => True

instance (s : Arena) : (op : ArenaOp) → Decidable (s.Allowed op)
  | .hook op => inferInstanceAs (Decidable (s.hand.Allowed op))
  | .carve .. => inferInstanceAs (Decidable (_ → _))
  | .write .. => inferInstanceAs (Decidable (_ ∧ _))

instance : (op : ArenaOp) → Decidable (HeapCreated op)
  | .carve .. => inferInstanceAs (Decidable (_ → _))
  | .hook _ => inferInstanceAs (Decidable True)
  | .write .. => inferInstanceAs (Decidable True)

def start (a : ProxyAllocator) : Arena := ⟨.start a, fun _ => 0⟩

end Arena

/-- CreateProxyAllocation or the redirect has committed the slot, and its caller does not have it yet. -/
def Phase.fresh : Phase → Bool
  | .committed | .recorded => true
  | _ => false

theorem Phase.mapped_of_fresh {p : Phase} (h : p.fresh) : p.mapped := by cases p <;> simp_all [fresh, mapped]

namespace Arena

/-- Every committed page belongs to a slot that its release has not decommitted yet, and a slot that
nobody has written to holds zeros. -/
structure Spotless (s : Arena) : Prop where
  kept : s.hand.Kept fun _ => False
  held : ∀ n, s.hand.pages n → ∃ g ∈ s.hand.grants, g.phase.mapped ∧ InPages g.slot.addr g.slot.size n
  zero : ∀ g ∈ s.hand.grants, g.phase.fresh → ∀ n, InPages g.slot.addr g.slot.size n → s.bytes n = 0

section
variable {s : Arena} {g : Grant}

theorem zeroNew_of_pages (hand : Handover) (hp : hand.pages = s.hand.pages) : s.zeroNew hand = ⟨hand, s.bytes⟩ := by
  unfold zeroNew
  rw [hp]
  simp

/-- A step that leaves the pages and all grants alone, and at most adds a grant. -/
theorem Spotless.add (h : s.Spotless) {hand : Handover} (hk : hand.Kept fun _ => False) (hp : hand.pages = s.hand.pages)
    (hold : s.hand.grants ⊆ hand.grants) (hnew : ∀ x ∈ hand.grants, x.phase.fresh → x ∈ s.hand.grants) :
    (s.zeroNew hand).Spotless := by
  rw [zeroNew_of_pages hand hp]
  refine ⟨hk, fun n hn => ?_, fun x hx hfx => h.zero x (hnew x hx hfx) hfx⟩
  obtain ⟨x, hx, hmx, hin⟩ := h.held n (hp ▸ hn)
  exact ⟨x, hold hx, hmx, hin⟩

/-- A step that moves one grant to another phase and leaves the pages alone. -/
theorem Spotless.advance (h : s.Spotless) (hg : g ∈ s.hand.grants) {thread : ℕ} {phase : Phase} {tables : Tables}
    (hk : (s.hand.advance g thread phase tables s.hand.pages).Kept fun _ => False) (hm : g.phase.mapped → phase.mapped)
    (hf : phase.fresh → g.phase.fresh) : (s.zeroNew (s.hand.advance g thread phase tables s.hand.pages)).Spotless := by
  rw [zeroNew_of_pages (s.hand.advance g thread phase tables s.hand.pages) rfl]
  refine ⟨hk, fun n hn => ?_, fun x hx hfx n hn => ?_⟩
  · obtain ⟨x, hx, hmx, hin⟩ := h.held n hn
    by_cases hxg : x = g
    · subst hxg
      exact ⟨_, Handover.mem_advance.2 (.inl ⟨rfl, hg⟩), hm hmx, hin⟩
    · exact ⟨x, Handover.mem_advance.2 (.inr ⟨hx, hxg⟩), hmx, hin⟩
  · rcases Handover.mem_advance.1 hx with ⟨rfl, -⟩ | ⟨hx, -⟩
    · exact h.zero g hg (hf hfx) n hn
    · exact h.zero x hx hfx n hn

/-- A slot without committed pages goes back to the allocator. -/
theorem Spotless.giveBack (h : s.Spotless) {size : ℕ} (hk : (s.hand.giveBack g size).Kept fun _ => False) (hm : g.phase.mapped = false) :
    (s.zeroNew (s.hand.giveBack g size)).Spotless := by
  rw [zeroNew_of_pages (s.hand.giveBack g size) rfl]
  refine ⟨hk, fun n hn => ?_, fun x hx => h.zero x (List.mem_of_mem_erase hx)⟩
  obtain ⟨x, hx, hmx, hin⟩ := h.held n hn
  refine ⟨x, (List.mem_erase_of_ne ?_).2 hx, hmx, hin⟩
  rintro rfl
  rw [hm] at hmx; cases hmx

theorem Spotless.commit (h : s.Spotless) {ok : Bool} (hop : s.hand.Allowed (.commit g ok)) :
    (s.step (.hook (.commit g ok))).Spotless := by
  have hk := h.kept.step hop False.elim
  obtain ⟨hg, hp, -⟩ := hop
  simp only [step]
  unfold Handover.step at hk ⊢
  simp only at hk ⊢
  split_ifs at hk ⊢ with hok
  · refine ⟨hk, fun n hn => ?_, fun x hx hfx n hn => ?_⟩
    · rcases Bool.or_eq_true_iff.1 hn with hn | hn
      · obtain ⟨x, hx, hmx, hin⟩ := h.held n hn
        refine ⟨x, Handover.mem_advance.2 (.inr ⟨hx, ?_⟩), hmx, hin⟩
        rintro rfl
        rw [hp] at hmx; cases hmx
      · exact ⟨_, Handover.mem_advance.2 (.inl ⟨rfl, hg⟩), rfl, of_decide_eq_true hn⟩
    · simp only [zeroNew]
      by_cases hpn : s.hand.pages n = true
      · -- a page that was committed already belongs to another grant
        rw [hpn, if_neg (by simp)]
        rcases Handover.mem_advance.1 hx with ⟨rfl, -⟩ | ⟨hx', -⟩
        · obtain ⟨y, hy, hmy, hin⟩ := h.held n hpn
          have hyg : y ≠ g := by
            rintro rfl
            rw [hp] at hmy; cases hmy
          have e := hk.eq_of_page (Handover.mem_advance.2 (.inr ⟨hy, hyg⟩)) hx (Phase.held_of_mapped hmy) rfl hin hn
          exact absurd (List.inj_on_of_nodup_map (List.nodup_append.1 h.kept.ids).1 hy hg (by rw [e])) hyg
        · exact h.zero x hx' hfx n hn
      · rcases Handover.mem_advance.1 hx with ⟨rfl, -⟩ | ⟨hx', -⟩
        · exact if_pos (by simp [hpn, Handover.advance, show InPages g.slot.addr g.slot.size n from hn])
        · exact absurd ((h.kept.good x hx').mapped (Phase.mapped_of_fresh hfx) n hn) hpn
  · exact h.advance hg hk (fun hm => by rw [hp] at hm; cases hm) fun hf => by cases hf

theorem Spotless.decommit (h : s.Spotless) (hop : s.hand.Allowed (.decommit g)) : (s.step (.hook (.decommit g))).Spotless := by
  have hk := h.kept.step hop False.elim
  obtain ⟨hg, r, hp⟩ := hop
  have hr : r = g.record := (h.kept.good g hg).taken r (by rw [hp]; rfl)
  simp only [step]
  unfold Handover.step at hk ⊢
  simp only [hp] at hk ⊢
  refine ⟨hk, fun n hn => ?_, fun x hx hfx n hn => ?_⟩
  · obtain ⟨hn, hout⟩ := Bool.and_eq_true_iff.1 hn
    obtain ⟨x, hx, hmx, hin⟩ := h.held n hn
    refine ⟨x, Handover.mem_advance.2 (.inr ⟨hx, ?_⟩), hmx, hin⟩
    -- the pages that stay committed are not those of the slot
    rintro rfl
    rw [hr] at hout
    simp [Grant.record, hin] at hout
  · have hnew : ((s.hand.advance g g.thread (.decommitted r) s.hand.tables fun n =>
        s.hand.pages n && !decide (InPages r.proxyBase r.proxySize n)).pages n && !s.hand.pages n) = false := by
      simp [Handover.advance]
      tauto
    simp only [zeroNew]
    rw [hnew, if_neg Bool.false_ne_true]
    rcases Handover.mem_advance.1 hx with ⟨rfl, -⟩ | ⟨hx', -⟩
    · cases hfx
    · exact h.zero x hx' hfx n hn

/-- No step of a capture or of a release leaves a committed page to a free slot. -/
theorem Spotless.hook (h : s.Spotless) {op : HandoverOp} (hop : s.hand.Allowed op) : (s.step (.hook op)).Spotless := by
  cases op with
  | allocate thread k size =>
    have hk := h.kept.step hop False.elim
    simp only [step]
    unfold Handover.step at hk ⊢
    simp only at hk ⊢
    split_ifs at hk ⊢
    · exact h.add hk rfl (List.Subset.refl _) fun _ hx _ => hx
    · refine h.add hk rfl (List.subset_append_left _ _) fun x hx hfx => ?_
      rcases List.mem_append.1 hx with hx | hx
      · exact hx
      · rw [List.mem_singleton.1 hx] at hfx; cases hfx
  | commit g ok => exact h.commit hop
  | rollback g => exact h.giveBack (h.kept.step hop False.elim) (by rw [hop.2]; rfl)
  | record g =>
    have hk := h.kept.step hop False.elim
    obtain ⟨hg, hp⟩ := hop
    exact h.advance hg hk (fun _ => rfl) fun _ => by rw [hp]; rfl
  | handOver g =>
    have hk := h.kept.step hop False.elim
    obtain ⟨hg, hp⟩ := hop
    exact h.advance hg hk (fun _ => rfl) fun hf => by cases hf
  | erase thread g =>
    have hk := h.kept.step hop False.elim
    obtain ⟨hg, hp⟩ := hop
    simp only [step]
    unfold Handover.step at hk ⊢
    simp only at hk ⊢
    split_ifs at hk ⊢
    · rcases ht : s.hand.tables.take g.slot.addr g.keeper with ⟨_ | r, t⟩
      · exact h.add h.kept rfl (List.Subset.refl _) fun _ hx _ => hx
      · rw [ht] at hk
        exact h.advance hg hk (fun _ => rfl) fun hf => by cases hf
    · exact h.add h.kept rfl (List.Subset.refl _) fun _ hx _ => hx
  | decommit g => exact h.decommit hop
  | free g =>
    have hk := h.kept.step hop False.elim
    obtain ⟨hg, r, hp⟩ := hop
    simp only [step]
    unfold Handover.step at hk ⊢
    simp only [hp] at hk ⊢
    exact h.giveBack hk (by rw [hp]; rfl)

/-! ## The start of the shards -/

/-- The slot of a round, its pages committed. -/
theorem Spotless.shard (h : s.Spotless) {size : ℕ} (left : ℕ → ℕ) (hp : s.carved size ≠ 0)
    (hc : 0 < size ∧ s.carved size + size ≤ 2 ^ 32) : (s.carve size true true left).Spotless := by
  have hs := (h.kept.sound.allocate_same size false).1
  have hsame := (h.kept.sound.allocate_same size false).2
  have hp' : (s.hand.sys.alloc.allocate size false).1 ≠ 0 := hp
  rw [Sys.step_allocate, if_neg hp'] at hs hsame
  unfold carved at hp hc
  simp only [Handover.sys] at hs hsame
  unfold carve
  rcases e : s.hand.alloc.allocate size false with ⟨slot, a⟩
  rw [e] at hs hsame hp hc
  simp only at hs hsame hp hc ⊢
  rw [if_neg hp]
  simp only [Bool.not_true, Bool.false_eq_true, if_false, if_true]
  have hlive : (⟨slot, size⟩ : Slot) ∈ s.hand.sys.live ++ [⟨slot, size⟩] := by simp
  have hnw : NoWrap a.allocGranularity size := hs.noWrap hlive hc.2
  have hk : Handover.Kept (fun _ => False) ⟨a, s.hand.tables, fun n => s.hand.pages n || decide (InPages slot size n),
      s.hand.grants ++ [⟨s.hand.next, .vat, ⟨slot, size⟩, 0, .owned⟩], s.hand.next + 1, s.hand.returned⟩ := by
    refine h.kept.grant rfl (by simpa using hs) hsame (fun n hn => by simp [hn]) ?_
    exact ⟨hc.1, fun _ => hnw, fun r hr => (by cases hr), fun _ hv => (by cases hv), fun _ n hn => by simp [hn]⟩
  refine ⟨hk, fun n hn => ?_, fun x hx hfx n hn => ?_⟩
  · rcases Bool.or_eq_true_iff.1 hn with hn | hn
    · obtain ⟨x, hx, hmx, hin⟩ := h.held n hn
      exact ⟨x, List.mem_append_left _ hx, hmx, hin⟩
    · exact ⟨_, List.mem_append_right _ (List.mem_singleton_self _), rfl, of_decide_eq_true hn⟩
  · have hx' : x ∈ s.hand.grants := by
      rcases List.mem_append.1 hx with hx | hx
      · exact hx
      · rw [List.mem_singleton.1 hx] at hfx; cases hfx
    simp only
    rw [if_neg fun hin => ?_]
    · exact h.zero x hx' hfx n hn
    · -- the page would belong to a fresh slot and to the shard
      have hxg := hk.eq_of_page hx (List.mem_append_right _ (List.mem_singleton_self _))
        (Phase.held_of_mapped (Phase.mapped_of_fresh hfx)) rfl hn hin
      rw [hxg] at hfx; cases hfx

/-- A round of ProxyHeapInit in which RtlCreateHeap does not fail over committed pages. -/
theorem Spotless.carve (h : s.Spotless) {size : ℕ} {commit heap : Bool} {left : ℕ → ℕ}
    (hop : s.Allowed (.carve size commit heap left)) (hh : HeapCreated (.carve size commit heap left)) :
    (s.carve size commit heap left).Spotless := by
  by_cases hp : s.carved size = 0
  · have hs := h.kept.sound.allocate_same size false
    have hp' : (s.hand.sys.alloc.allocate size false).1 = 0 := hp
    rw [Sys.step_allocate, if_pos hp'] at hs
    unfold carved at hp
    simp only [Handover.sys] at hs
    unfold Arena.carve
    rcases e : s.hand.alloc.allocate size false with ⟨slot, a⟩
    rw [e] at hs hp
    simp only at hs hp ⊢
    rw [if_pos hp]
    exact ⟨h.kept.of_alloc hs.1 hs.2 fun _ hn => hn, h.held, h.zero⟩
  -- a carve that is not committed is given back at once
  cases commit with
  | true =>
    have hheap : heap = true := hh rfl
    subst hheap
    exact h.shard left hp (hop rfl)
  | false =>
    have hs := h.kept.sound.allocate_free size false hp
    unfold carved at hp
    unfold Arena.carve
    rcases e : s.hand.alloc.allocate size false with ⟨slot, a⟩
    simp only [Handover.sys, e] at hs hp ⊢
    rw [if_neg hp]
    exact ⟨h.kept.of_alloc hs.1 hs.2 fun _ hn => hn, h.held, h.zero⟩

theorem Spotless.write (h : s.Spotless) {n v : ℕ} (hop : s.Allowed (.write g n v)) : (s.step (.write g n v)).Spotless := by
  obtain ⟨hg, hp, hin⟩ := hop
  refine ⟨h.kept, h.held, fun x hx hfx k hk => ?_⟩
  simp only [step]
  split_ifs with hkn
  · subst hkn
    have hxg := h.kept.eq_of_page hx hg (Phase.held_of_mapped (Phase.mapped_of_fresh hfx)) (by rw [hp]; rfl) hk hin
    rw [hxg, hp] at hfx; cases hfx
  · exact h.zero x hx hfx k hk

theorem Spotless.step (h : s.Spotless) {op : ArenaOp} (hop : s.Allowed op) (hh : HeapCreated op) : (s.step op).Spotless := by
  cases op with
  | hook op => exact h.hook hop
  | carve size commit heap left => exact h.carve hop hh
  | write g n v => exact h.write hop

theorem start_spotless {a : ProxyAllocator} (h : Whole a) : (start a).Spotless :=
  ⟨Handover.start_kept _ h, fun _ hn => (by cases hn), fun _ hg => absurd hg List.not_mem_nil⟩

end

/-! ## Zero on hand-out -/

/-- What the callers of the captures rely on. -/
structure Clean (s : Arena) : Prop where
  /-- Free blocks and cached blocks consist of uncommitted pages. -/
  uncommitted : ∀ b ∈ s.hand.alloc.freeList ++ chains s.hand.alloc.sizeClasses,
    ∀ n, InPages b.address b.size n → s.hand.pages n = false
  /-- A slot that is about to be handed out reads as zero. -/
  zero : ∀ g ∈ s.hand.grants, g.phase = .recorded → ∀ n, InPages g.slot.addr g.slot.size n →
    s.hand.pages n = true ∧ s.bytes n = 0

theorem Spotless.clean {s : Arena} (h : s.Spotless) : s.Clean where
  uncommitted := by
    intro b hb n hn
    by_contra hp
    obtain ⟨g, hg, hm, hin⟩ := h.held n (Bool.not_eq_false _ ▸ hp)
    have hle := h.kept.size_le hg (Phase.held_of_mapped hm)
    have hmem : b.span ∈ spans s.hand.alloc.freeList ++ spans (chains s.hand.alloc.sizeClasses) :=
      spans_append _ _ ▸ mem_spans hb
    have hdvd : 4096 ∣ b.address := by
      refine h.kept.gran.page_dvd.trans (h.kept.sound.laid.inArena b.span ?_).lo_dvd
      exact List.mem_append_right _ hmem
    -- the page starts both in the block and in the slot
    have h1 : n * 4096 ∈ b.span := hn.mem hdvd
    have h2 : n * 4096 ∈ g.slot.span s.hand.alloc.allocGranularity := by
      have := hin.mem (h.kept.page_dvd hg)
      exact ⟨this.1, this.2.trans_le (Nat.add_le_add_left hle _)⟩
    have honce := h.kept.sound.laid.once (n * 4096)
    have hlive : g.slot.span s.hand.alloc.allocGranularity ∈ s.hand.sys.spans :=
      List.mem_map_of_mem (List.mem_map_of_mem hg)
    have c1 : 1 ≤ Span.cover (spans s.hand.sys.pieces.free ++ spans s.hand.sys.pieces.cached) (n * 4096) :=
      Span.one_le_cover hmem h1
    have c2 : 1 ≤ Span.cover s.hand.sys.pieces.live (n * 4096) := Span.one_le_cover hlive h2
    rw [Pieces.all, Span.cover_append] at honce
    omega
  zero := by
    intro g hg hp n hn
    exact ⟨(h.kept.good g hg).mapped (by rw [hp]; rfl) n hn, h.zero g hg (by rw [hp]; rfl) n hn⟩

/-- In every interleaving of captures, releases, rounds of ProxyHeapInit and writes of the owners, in
which RtlCreateHeap never fails over committed pages, free memory is uncommitted and what is handed
out reads as zero. -/
theorem clean_after {a : ProxyAllocator} (h : Started a) {ops : List ArenaOp}
    (hops : Run.Guarded step (fun s op => s.Allowed op ∧ HeapCreated op) (start a) ops) :
    (Run.after step (start a) ops).Clean :=
  (hops.invariant (fun _ _ hs hop => hs.step hop.1 hop.2) (start_spotless h.whole)).clean

/-- A shard is started, a block is captured, written to and released, and another one is captured in
its place. -/
theorem clean_arena1G : (Run.after step (start Sys.arena1G)
    [.carve 0x100000 true true fun _ => 7,
     .hook (.allocate 0 .allocations 5000),
     .hook (.commit ⟨1, .allocations, ⟨0x40100000, 5000⟩, 0, .allocated⟩ true),
     .hook (.record ⟨1, .allocations, ⟨0x40100000, 5000⟩, 0, .committed⟩),
     .hook (.handOver ⟨1, .allocations, ⟨0x40100000, 5000⟩, 0, .recorded⟩),
     .write ⟨1, .allocations, ⟨0x40100000, 5000⟩, 0, .owned⟩ 0x40100 9,
     .hook (.erase 0 ⟨1, .allocations, ⟨0x40100000, 5000⟩, 0, .owned⟩),
     .hook (.decommit ⟨1, .allocations, ⟨0x40100000, 5000⟩, 0, .erased ⟨0x40100000, 5000⟩⟩),
     .hook (.free ⟨1, .allocations, ⟨0x40100000, 5000⟩, 0, .decommitted ⟨0x40100000, 5000⟩⟩),
     .hook (.allocate 0 .allocations 5000),
     .hook (.commit ⟨2, .allocations, ⟨0x40100000, 5000⟩, 0, .allocated⟩ true),
     .hook (.record ⟨2, .allocations, ⟨0x40100000, 5000⟩, 0, .committed⟩)]).Clean :=
  clean_after Sys.arena1G_started (by decide +kernel)

/-- RtlCreateHeap fails over the committed slot of a shard, and the slot is captured as it is. -/
def soiled : List ArenaOp :=
  [.carve 0x100000 true false fun _ => 1,
   .hook (.allocate 0 .allocations 0x100000),
   .hook (.commit ⟨0, .allocations, ⟨0x40000000, 0x100000⟩, 0, .allocated⟩ true),
   .hook (.record ⟨0, .allocations, ⟨0x40000000, 0x100000⟩, 0, .committed⟩)]

/-- The captured block then reads as what RtlCreateHeap left. -/
theorem not_clean_soiled : ¬ ∀ (a : ProxyAllocator), Started a → ∀ ops : List ArenaOp,
    Run.Guarded step Allowed (start a) ops → (Run.after step (start a) ops).Clean := by
  intro h
  have hc := h Sys.arena1G Sys.arena1G_started soiled (by decide +kernel)
  have hmem : (⟨0, .allocations, ⟨0x40000000, 0x100000⟩, 0, .recorded⟩ : Grant) ∈
      (Run.after step (start Sys.arena1G) soiled).hand.grants := by decide +kernel
  have hz := (hc.zero _ hmem rfl 0x40000 (by decide)).2
  revert hz
  decide +kernel

end Arena

end Ts3Vas
