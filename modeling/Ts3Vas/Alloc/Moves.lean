/-
Who holds each piece of the arena: the slots handed out, the free list and the reuse caches.
Every operation of the allocator is a sequence of the moves below, so an invariant of the arena is
proved once per move. A piece is lost only where the code drops the result of an insert.
-/
import Ts3Vas.Alloc.FreeList
import Mathlib.Logic.Relation

namespace Ts3Vas

open ProxyAllocator

structure Pieces where
  live : List Span
  free : List Block
  cached : List Block

namespace Pieces

def all (p : Pieces) : List Span := p.live ++ (spans p.free ++ spans p.cached)

theorem cover_all (p : Pieces) (x : ℕ) :
    Span.cover p.all x = Span.cover p.live x + (Span.cover (spans p.free) x + Span.cover (spans p.cached) x) := by
  rw [all, Span.cover_append, Span.cover_append]

theorem total_all (p : Pieces) :
    Span.total p.all = Span.total p.live + (Span.total (spans p.free) + Span.total (spans p.cached)) := by
  rw [all, Span.total_append, Span.total_append]

theorem forall_all {p : Pieces} {P : Span → Prop} : (∀ s ∈ p.all, P s) ↔
    (∀ s ∈ p.live, P s) ∧ (∀ b ∈ p.free, P b.span) ∧ ∀ b ∈ p.cached, P b.span := by
  rw [all, List.forall_mem_append, List.forall_mem_append, forall_spans, forall_spans]

end Pieces

/-! ## Moves -/

/-- One change of hands that keeps every byte; `ok` bounds the lengths that may be carved. -/
inductive Move (ok : ℕ → Prop) : Pieces → Pieces → Prop
  | carve {live free free' cached need f} : ok need → Carved need free f free' →
      Move ok ⟨live, free, cached⟩ ⟨live ++ [⟨f.grantedAddr, need⟩], free', cached⟩
  | reuse {live free cached cached'} {b : Block} : cached.Perm (b :: cached') →
      Move ok ⟨live, free, cached⟩ ⟨live ++ [b.span], free, cached'⟩
  | park {live live' free cached cached'} {b : Block} : live.Perm (b.span :: live') → cached'.Perm (b :: cached) →
      Move ok ⟨live, free, cached⟩ ⟨live', free, cached'⟩
  | merge {live live' free cached} {b : Block} : live.Perm (b.span :: live') →
      Move ok ⟨live, free, cached⟩ ⟨live', insertBlock b free, cached⟩
  | reclaim {live free cached cached'} {b : Block} : cached.Perm (b :: cached') →
      Move ok ⟨live, free, cached⟩ ⟨live, insertBlock b free, cached'⟩

/-- A piece that the code forgets. -/
inductive Loss : Pieces → Pieces → Prop
  | freed {live live' free cached} {b : Block} : live.Perm (b.span :: live') →
      Loss ⟨live, free, cached⟩ ⟨live', free, cached⟩
  | reclaimed {live free cached cached'} {b : Block} : cached.Perm (b :: cached') →
      Loss ⟨live, free, cached⟩ ⟨live, free, cached'⟩

/-! ## The layout of the arena -/

/-- Every piece lies in `[base, top)`, is aligned, and no address is held twice. -/
structure Layout (g base top : ℕ) (p : Pieces) : Prop where
  inArena : ∀ s ∈ p.all, InArena g base top s
  once : ∀ x, Span.cover p.all x ≤ 1

/-- Every address of the arena is held. -/
def Tiled (base top : ℕ) (p : Pieces) : Prop := ∀ x, base ≤ x → x < top → Span.cover p.all x = 1

/-- The free list has a gap between any two blocks, and no piece is empty. -/
structure Sorted (p : Pieces) : Prop where
  separated : Span.Separated (spans p.free)
  pos : ∀ s ∈ p.all, 0 < s.len

section
variable {ok : ℕ → Prop} {g base top : ℕ} {p q : Pieces}

theorem Layout.within (h : Layout g base top p) : ∀ s ∈ p.all, s.Within base top := fun s hs => (h.inArena s hs).within

theorem Layout.free_lt (h : Layout g base top p) (htop : top < 2 ^ 32) {b : Block} (hb : b ∈ p.free) :
    b.address + b.size < 2 ^ 32 := ((Pieces.forall_all.1 h.inArena).2.1 b hb).hi_lt htop

theorem Layout.cached_lt (h : Layout g base top p) (htop : top < 2 ^ 32) {b : Block} (hb : b ∈ p.cached) :
    b.address + b.size < 2 ^ 32 := ((Pieces.forall_all.1 h.inArena).2.2 b hb).hi_lt htop

theorem Layout.live_lt (h : Layout g base top p) (htop : top < 2 ^ 32) {s : Span} (hs : s ∈ p.live) :
    s.lo + s.len < 2 ^ 32 := ((Pieces.forall_all.1 h.inArena).1 s hs).hi_lt htop

/-- A laid out arena is tiled exactly when its pieces add up to its size. -/
theorem Layout.total_eq (h : Layout g base top p) (ht : Tiled base top p) : Span.total p.all = top - base :=
  Span.total_of_cover_one h.within ht

/-- A move covers what was covered before. -/
theorem Move.cover (h : Layout g base top p) (htop : top < 2 ^ 32) (hm : Move ok p q) (x : ℕ) :
    Span.cover q.all x = Span.cover p.all x := by
  rw [Pieces.cover_all, Pieces.cover_all]
  cases hm with
  | carve _ hc =>
    have := hc.cover x
    simp only [Span.cover_append, Span.cover_cons, Span.cover_nil] at *; omega
  | reuse hp =>
    have := Span.cover_perm (spans_perm hp) x
    simp only [spans_cons, Span.cover_append, Span.cover_cons, Span.cover_nil] at *; omega
  | park hl hp =>
    have := Span.cover_perm hl x
    have := Span.cover_perm (spans_perm hp) x
    simp only [spans_cons, Span.cover_cons] at *; omega
  | @merge _ _ _ _ b hl =>
    have := Span.cover_perm hl x
    have hb : b.address + b.size < 2 ^ 32 := h.live_lt htop (hl.mem_iff.2 (List.mem_cons_self ..))
    have := cover_insertBlock (List.forall_mem_cons.2 ⟨hb, fun c hc => h.free_lt htop hc⟩) x
    simp only [Span.cover_cons] at *; omega
  | reclaim hp =>
    have := Span.cover_perm (spans_perm hp) x
    have hb := h.cached_lt htop (hp.mem_iff.2 (List.mem_cons_self ..))
    have := cover_insertBlock (List.forall_mem_cons.2 ⟨hb, fun c hc => h.free_lt htop hc⟩) x
    simp only [spans_cons, Span.cover_cons] at *; omega

theorem Loss.cover (hl : Loss p q) (x : ℕ) : Span.cover q.all x ≤ Span.cover p.all x := by
  rw [Pieces.cover_all, Pieces.cover_all]
  cases hl with
  | freed hl =>
    have := Span.cover_perm hl x
    simp only [Span.cover_cons] at *; omega
  | reclaimed hp =>
    have := Span.cover_perm (spans_perm hp) x
    simp only [spans_cons, Span.cover_cons] at *; omega

/-- What holds of every piece and is kept by cutting and joining holds after a move. -/
theorem Move.forall_all {P : Span → Prop} (hlt : (∀ b ∈ p.free, b.address + b.size < 2 ^ 32) ∧
      (∀ b ∈ p.cached, b.address + b.size < 2 ^ 32) ∧ ∀ s ∈ p.live, s.lo + s.len < 2 ^ 32)
    (hjoin : ∀ a m n, P ⟨a, m⟩ → P ⟨a + m, n⟩ → P ⟨a, m + n⟩)
    (hcarve : ∀ need f l l', ok need → Carved need l f l' → (∀ b ∈ l, P b.span) →
      P ⟨f.grantedAddr, need⟩ ∧ ∀ b ∈ l', P b.span)
    (h : ∀ s ∈ p.all, P s) (hm : Move ok p q) : ∀ s ∈ q.all, P s := by
  rw [Pieces.forall_all] at h ⊢
  obtain ⟨hl, hf, hc⟩ := h
  obtain ⟨hltf, hltc, hltl⟩ := hlt
  cases hm with
  | carve hok hcv =>
    obtain ⟨hg, hf'⟩ := hcarve _ _ _ _ hok hcv hf
    exact ⟨List.forall_mem_append.2 ⟨hl, List.forall_mem_singleton.2 hg⟩, hf', hc⟩
  | reuse hp =>
    have hc' := fun b hb => hc b (hp.mem_iff.2 hb)
    exact ⟨List.forall_mem_append.2 ⟨hl, List.forall_mem_singleton.2 (hc' _ (List.mem_cons_self ..))⟩, hf,
      fun b hb => hc' b (List.mem_cons_of_mem _ hb)⟩
  | park hp hp' =>
    have hl' := fun s hs => hl s (hp.mem_iff.2 hs)
    refine ⟨fun s hs => hl' s (List.mem_cons_of_mem _ hs), hf, fun b hb => ?_⟩
    rcases List.mem_cons.1 (hp'.mem_iff.1 hb) with rfl | hb
    · exact hl' _ (List.mem_cons_self ..)
    · exact hc b hb
  | merge hp =>
    have hl' := fun s hs => hl s (hp.mem_iff.2 hs)
    have hb := hltl _ (hp.mem_iff.2 (List.mem_cons_self ..))
    exact ⟨fun s hs => hl' s (List.mem_cons_of_mem _ hs), forall_insertBlock hjoin
      (List.forall_mem_cons.2 ⟨hb, hltf⟩) (List.forall_mem_cons.2 ⟨hl' _ (List.mem_cons_self ..), hf⟩), hc⟩
  | reclaim hp =>
    have hc' := fun b hb => hc b (hp.mem_iff.2 hb)
    have hb := hltc _ (hp.mem_iff.2 (List.mem_cons_self ..))
    exact ⟨hl, forall_insertBlock hjoin (List.forall_mem_cons.2 ⟨hb, hltf⟩)
      (List.forall_mem_cons.2 ⟨hc' _ (List.mem_cons_self ..), hf⟩), fun b hb => hc' b (List.mem_cons_of_mem _ hb)⟩

theorem Loss.forall_all {P : Span → Prop} (h : ∀ s ∈ p.all, P s) (hl : Loss p q) : ∀ s ∈ q.all, P s := by
  rw [Pieces.forall_all] at h ⊢
  obtain ⟨hl', hf, hc⟩ := h
  cases hl with
  | freed hp => exact ⟨fun s hs => hl' s (hp.mem_iff.2 (List.mem_cons_of_mem _ hs)), hf, hc⟩
  | reclaimed hp => exact ⟨hl', hf, fun b hb => hc b (hp.mem_iff.2 (List.mem_cons_of_mem _ hb))⟩

theorem Layout.all_lt (h : Layout g base top p) (htop : top < 2 ^ 32) :
    (∀ b ∈ p.free, b.address + b.size < 2 ^ 32) ∧ (∀ b ∈ p.cached, b.address + b.size < 2 ^ 32) ∧
      ∀ s ∈ p.live, s.lo + s.len < 2 ^ 32 :=
  ⟨fun _ => h.free_lt htop, fun _ => h.cached_lt htop, fun _ => h.live_lt htop⟩

/-! ## Moves keep the layout -/

theorem Layout.move (hok : ∀ n, ok n → g ∣ n) (htop : top < 2 ^ 32) (h : Layout g base top p) (hm : Move ok p q) :
    Layout g base top q where
  inArena := hm.forall_all (h.all_lt htop) (fun _ _ _ => InArena.join)
    (fun _ _ _ _ ho hc hl => hc.inArena (hok _ ho) hl) h.inArena
  once x := hm.cover h htop x ▸ h.once x

theorem Layout.loss (h : Layout g base top p) (hl : Loss p q) : Layout g base top q where
  inArena := hl.forall_all h.inArena
  once x := (hl.cover x).trans (h.once x)

/-- An inserted block is apart from the list it goes into. -/
theorem Layout.apart_free (h : Layout g base top p) {s : Span} (hs : s ∈ p.live ++ spans p.cached) {b : Block}
    (hb : b ∈ p.free) : Span.Apart s b.span := by
  intro x hx hx'
  have hc := h.once x
  have h1 := Span.one_le_cover hs hx
  have h2 := Span.one_le_cover (mem_spans hb) hx'
  rw [Pieces.cover_all] at hc
  rw [Span.cover_append] at h1
  omega

theorem Sorted.move (hpos : ∀ n, ok n → 0 < n) (htop : top < 2 ^ 32) (h : Layout g base top p) (hs : Sorted p)
    (hm : Move ok p q) : Sorted q := by
  refine ⟨?_, hm.forall_all (h.all_lt htop) (fun _ m n hm _ => by simp only at *; omega) ?_ hs.pos⟩
  · obtain ⟨hl, hf, hc⟩ := Pieces.forall_all.1 hs.pos
    cases hm with
    | carve _ hcv => exact hcv.separated hs.separated
    | reuse => exact hs.separated
    | park => exact hs.separated
    | @merge _ _ _ _ b hp =>
      have hb := hp.mem_iff.2 (List.mem_cons_self ..)
      exact separated_insertBlock (List.forall_mem_cons.2 ⟨h.live_lt htop hb, fun c => h.free_lt htop⟩) (hl _ hb)
        hs.separated.ordered fun c hc' => ⟨hf c hc', h.apart_free (List.mem_append_left _ hb) hc'⟩
    | reclaim hp =>
      have hb := hp.mem_iff.2 (List.mem_cons_self ..)
      exact separated_insertBlock (List.forall_mem_cons.2 ⟨h.cached_lt htop hb, fun c => h.free_lt htop⟩) (hc _ hb)
        hs.separated.ordered fun c hc' => ⟨hf c hc', h.apart_free (List.mem_append_right _ (mem_spans hb)) hc'⟩
  · intro need f l l' ho hc hl
    exact ⟨hpos _ ho, hc.pos hl⟩

theorem Sorted.loss (hs : Sorted p) (hl : Loss p q) : Sorted q := by
  refine ⟨?_, hl.forall_all hs.pos⟩
  cases hl with
  | freed => exact hs.separated
  | reclaimed => exact hs.separated

end

/-! ## Sequences of moves -/

/-- Moves that may lose pieces on the way. -/
def Step (ok : ℕ → Prop) (p q : Pieces) : Prop := Move ok p q ∨ Loss p q

def Moves (ok : ℕ → Prop) : Pieces → Pieces → Prop := Relation.ReflTransGen (Move ok)

def Steps (ok : ℕ → Prop) : Pieces → Pieces → Prop := Relation.ReflTransGen (Step ok)

theorem Moves.steps {ok : ℕ → Prop} {p q : Pieces} (h : Moves ok p q) : Steps ok p q :=
  Relation.ReflTransGen.mono (r := Move ok) (fun _ _ hm => .inl hm) _ _ h

section
variable {ok : ℕ → Prop} {g base top : ℕ} {p q : Pieces}

theorem Layout.steps (hok : ∀ n, ok n → g ∣ n) (htop : top < 2 ^ 32) (h : Layout g base top p) (hs : Steps ok p q) :
    Layout g base top q := by
  induction hs with
  | refl => exact h
  | tail _ hstep ih =>
    rcases hstep with hm | hl
    · exact ih.move hok htop hm
    · exact ih.loss hl

theorem Sorted.steps (hok : ∀ n, ok n → g ∣ n ∧ 0 < n) (htop : top < 2 ^ 32) (h : Layout g base top p)
    (hs : Sorted p) (hst : Steps ok p q) : Sorted q := by
  induction hst with
  | refl => exact hs
  | tail hst' hstep ih =>
    have h' := h.steps (fun n hn => (hok n hn).1) htop hst'
    rcases hstep with hm | hl
    · exact ih.move (fun n hn => (hok n hn).2) htop h' hm
    · exact ih.loss hl

theorem Moves.cover (hok : ∀ n, ok n → g ∣ n) (htop : top < 2 ^ 32) (h : Layout g base top p) (hm : Moves ok p q)
    (x : ℕ) : Span.cover q.all x = Span.cover p.all x := by
  induction hm with
  | refl => rfl
  | tail hm' hstep ih => exact (hstep.cover (h.steps hok htop (Moves.steps hm')) htop x).trans ih

theorem Tiled.moves (hok : ∀ n, ok n → g ∣ n) (htop : top < 2 ^ 32) (h : Layout g base top p)
    (ht : Tiled base top p) (hm : Moves ok p q) : Tiled base top q :=
  fun x hb hx => (hm.cover hok htop h x).trans (ht x hb hx)

end

end Ts3Vas
