/-
The set of packages already reported, ScriptScanDedup.cpp: open addressing over a table of words that
threads probe and claim by compare-and-exchange, each exchange one step.
-/
import Ts3Vas.Lib.Probe
import Ts3Vas.Lib.Run

namespace Ts3Vas.ScriptScanDedup

/-! ## Keys -/

/-- `fnv1a64_byte`. -/
def fnv1a64Byte (h c : ℕ) : ℕ := (h ^^^ c) * 0x100000001b3 % 2 ^ 64

def fnvBasis : ℕ := 0xcbf29ce484222325

/-- `tolower` and `towlower` of the C locale. -/
def lower (c : ℕ) : ℕ := if 65 ≤ c ∧ c ≤ 90 then c + 32 else c

/-- `KeyFromBaseNameA`, over the bytes before the terminator. -/
def keyFromBaseNameA (b : List ℕ) : ℕ :=
  if b = [] then 0 else b.foldl (fun h c => fnv1a64Byte h (lower (c % 256) % 256)) fnvBasis

/-- `KeyFromBaseNameW`, over the UTF-16 units before the terminator. -/
def keyFromBaseNameW (b : List ℕ) : ℕ :=
  if b = [] then 0 else b.foldl (fun h c => fnv1a64Byte h (lower c % 65536 % 256)) fnvBasis

theorem lower_lt {c : ℕ} (h : c < 128) : lower c < 128 := by
  unfold lower
  split <;> omega

/-- On ASCII neither cast loses anything, and both keys are the fold over the name in small letters. -/
theorem keyFromBaseNameA_lower {b : List ℕ} (h : ∀ c ∈ b, c < 128) :
    keyFromBaseNameA b = if b = [] then 0 else (b.map lower).foldl fnv1a64Byte fnvBasis := by
  unfold keyFromBaseNameA
  rw [List.foldl_map, List.foldl_ext _ _ _ fun n c hc => ?_]
  have hlow := lower_lt (h c hc)
  rw [Nat.mod_eq_of_lt (show c < 256 from (h c hc).trans (by decide)), Nat.mod_eq_of_lt (hlow.trans (by decide))]

theorem keyFromBaseNameW_lower {b : List ℕ} (h : ∀ c ∈ b, c < 128) :
    keyFromBaseNameW b = if b = [] then 0 else (b.map lower).foldl fnv1a64Byte fnvBasis := by
  unfold keyFromBaseNameW
  rw [List.foldl_map, List.foldl_ext _ _ _ fun n c hc => ?_]
  have hlow := lower_lt (h c hc)
  rw [Nat.mod_eq_of_lt (show lower c < 65536 from hlow.trans (by decide)), Nat.mod_eq_of_lt (hlow.trans (by decide))]

/-- The two hooks hash an ASCII name alike. -/
theorem key_ascii {b : List ℕ} (h : ∀ c ∈ b, c < 128) : keyFromBaseNameW b = keyFromBaseNameA b := by
  rw [keyFromBaseNameW_lower h, keyFromBaseNameA_lower h]

/-- Two characters that differ at most in the case of a letter: one of them in `A` to `Z`, the other as
far behind it as `a` is behind `A`. -/
def SameLetter (c d : ℕ) : Prop := c = d ∨ (65 ≤ c ∧ c ≤ 90 ∧ d = c + 32) ∨ (65 ≤ d ∧ d ≤ 90 ∧ c = d + 32)

instance (c d : ℕ) : Decidable (SameLetter c d) := inferInstanceAs (Decidable (_ ∨ _))

theorem SameLetter.lower_eq {c d : ℕ} (h : SameLetter c d) : lower d = lower c := by
  unfold lower
  rcases h with rfl | ⟨h1, h2, rfl⟩ | ⟨h1, h2, rfl⟩
  · rfl
  · rw [if_neg (by omega), if_pos ⟨h1, h2⟩]
  · rw [if_pos ⟨h1, h2⟩, if_neg (by omega)]

theorem SameLetter.lt {c d : ℕ} (h : SameLetter c d) (hc : c < 128) : d < 128 := by
  rcases h with rfl | ⟨_, h2, rfl⟩ | ⟨_, h2, rfl⟩ <;> omega

theorem sameLetter_ascii {b b' : List ℕ} (hvar : List.Forall₂ SameLetter b b') (h : ∀ c ∈ b, c < 128) :
    ∀ c ∈ b', c < 128 := by
  induction hvar with
  | nil => exact h
  | cons hcd _ ih =>
    rw [List.forall_mem_cons] at h ⊢
    exact ⟨hcd.lt h.1, ih h.2⟩

/-- However an ASCII name is written, and whichever hook hashes it, it has one key. -/
theorem key_variant {b b' : List ℕ} (h : ∀ c ∈ b, c < 128) (hvar : List.Forall₂ SameLetter b b') :
    keyFromBaseNameA b = keyFromBaseNameW b ∧ keyFromBaseNameA b' = keyFromBaseNameA b ∧
      keyFromBaseNameW b' = keyFromBaseNameA b := by
  have h' := sameLetter_ascii hvar h
  have hlow : b'.map lower = b.map lower := by
    rw [← List.forall₂_eq_eq_eq, List.forall₂_map_left_iff, List.forall₂_map_right_iff]
    exact hvar.flip.imp fun _ _ hcd => SameLetter.lower_eq hcd
  have hnil : b' = [] ↔ b = [] := by rw [← List.map_eq_nil_iff, hlow, List.map_eq_nil_iff]
  have hA : keyFromBaseNameA b' = keyFromBaseNameA b := by
    simp only [keyFromBaseNameA_lower h, keyFromBaseNameA_lower h', hlow, hnil]
  exact ⟨(key_ascii h).symm, hA, (key_ascii h').trans hA⟩

/-- `Cc.p` and `cC.P`. -/
theorem key_variant_package :
    keyFromBaseNameA [67, 99, 46, 112] = keyFromBaseNameW [67, 99, 46, 112] ∧
      keyFromBaseNameA [99, 67, 46, 80] = keyFromBaseNameA [67, 99, 46, 112] ∧
      keyFromBaseNameW [99, 67, 46, 80] = keyFromBaseNameA [67, 99, 46, 112] :=
  key_variant (by decide) (.cons (by decide) (.cons (by decide) (.cons (by decide) (.cons (by decide) .nil))))

/-! ## MarkOnce -/

def kSlots : ℕ := 16384

/-- How many slots a call looks at. -/
def probes : ℕ := 64

/-- `s_slots` by index, 0 for an empty slot. -/
abbrev Slots := ℕ → ℕ

/-- `InterlockedCompareExchange64`: what the slot held, and the table after. -/
def cas (slots : Slots) (idx exchange comparand : ℕ) : ℕ × Slots :=
  (slots idx, if slots idx = comparand then Function.update slots idx exchange else slots)

/-- The slot of a key's window that the probe of that number looks at. -/
def index (key probe : ℕ) : ℕ := (key % kSlots + probe) % kSlots

/-- `0 is the empty sentinel; remap`. -/
def remap (key : ℕ) : ℕ := if key = 0 then 1 else key

theorem remap_ne (key : ℕ) : remap key ≠ 0 := by
  unfold remap
  split
  · exact Nat.one_ne_zero
  · assumption

/-- Where a call of `MarkOnce` stands. -/
inductive Call
  /-- About to read the slot. -/
  | load (key probe : ℕ)
  /-- It read an empty slot, and is about to claim it. -/
  | claim (key probe : ℕ)
  /-- It has returned. -/
  | returned (key : ℕ) (seen : Bool)
  deriving DecidableEq, Repr

/-- The next round of the loop, or the end of it: a table under pressure treats the key as new. -/
def nextProbe (key probe : ℕ) : Call := if probe + 1 < probes then .load key (probe + 1) else .returned key false

/-- A call up to its next exchange and past it. -/
def Call.step (slots : Slots) : Call → Call × Slots
  | .load key probe =>
    let (cur, slots) := cas slots (index key probe) 0 0
    if cur = key then (.returned key true, slots)
    else if cur = 0 then (.claim key probe, slots)
    else (nextProbe key probe, slots)
  | .claim key probe =>
    let (prev, slots) := cas slots (index key probe) key 0
    if prev = 0 then (.returned key false, slots)
    else if prev = key then (.returned key true, slots)
    else (nextProbe key probe, slots)
  | .returned key seen => (.returned key seen, slots)

/-- A call that finds its last slot taken by another key gives up. -/
def Call.Exhausts (slots : Slots) : Call → Prop
  | .load key probe | .claim key probe =>
    probe + 1 = probes ∧ slots (index key probe) ≠ 0 ∧ slots (index key probe) ≠ key
  | .returned .. => False

instance (slots : Slots) : (c : Call) → Decidable (c.Exhausts slots)
  | .load .. => inferInstanceAs (Decidable (_ ∧ _))
  | .claim .. => inferInstanceAs (Decidable (_ ∧ _))
  | .returned .. => inferInstanceAs (Decidable False)

/-- A call that no other thread interferes with, for at most `n` steps. -/
def Call.run : ℕ → Call × Slots → Call × Slots
  | 0, p => p
  | n + 1, (c, slots) => Call.run n (c.step slots)

/-- `MarkOnce` from call to return: at most two exchanges a probe. -/
def markOnce (slots : Slots) (key : ℕ) : Bool × Slots :=
  match Call.run (2 * probes) (.load (remap key) 0, slots) with
  | (.returned _ seen, slots) => (seen, slots)
  | (_, slots) => (false, slots)

/-! ## Threads -/

/-- A finished call: its key, and what it returned. -/
structure Report where
  key : ℕ
  seen : Bool
  deriving DecidableEq, Repr

structure Table where
  slots : Slots
  /-- The call that a thread is in. -/
  calls : ℕ → Option Call
  /-- The finished calls, in the order in which they finished. -/
  reports : List Report

inductive Act
  /-- A thread calls `MarkOnce`. -/
  | call (thread key : ℕ)
  /-- A thread takes the next step of its call. -/
  | move (thread : ℕ)

namespace Table

/-- A thread's call moves on; one that returns is reported. -/
def advance (s : Table) (thread : ℕ) : Call × Slots → Table
  | (.returned key seen, slots) => ⟨slots, Function.update s.calls thread none, s.reports ++ [⟨key, seen⟩]⟩
  | (c, slots) => ⟨slots, Function.update s.calls thread (some c), s.reports⟩

def step (s : Table) : Act → Table
  | .call thread key => { s with calls := Function.update s.calls thread (some (.load (remap key) 0)) }
  | .move thread =>
    match s.calls thread with
    | none => s
    | some c => s.advance thread (c.step s.slots)

/-- A thread is in one call at a time, and no call runs out of probes. -/
def Allowed (s : Table) : Act → Prop
  | .call thread _ => s.calls thread = none
  | .move thread => ∀ c ∈ s.calls thread, ¬ c.Exhausts s.slots

instance (s : Table) : (act : Act) → Decidable (s.Allowed act)
  | .call thread _ => inferInstanceAs (Decidable (s.calls thread = none))
  | .move thread => inferInstanceAs (Decidable (∀ c ∈ s.calls thread, ¬ c.Exhausts s.slots))

/-- The zero-initialised table, with no thread in a call. -/
def empty : Table := ⟨fun _ => 0, fun _ => none, []⟩

abbrev Run (acts : List Act) : Prop := Run.Guarded step Allowed empty acts

abbrev after (acts : List Act) : Table := Run.after step empty acts

end Table

/-! ## The invariant -/

/-- The first `n` slots of a key's window hold other keys. -/
def Passed (slots : Slots) (key n : ℕ) : Prop :=
  ∀ q < n, slots (index key q) ≠ 0 ∧ slots (index key q) ≠ key

instance (slots : Slots) (key n : ℕ) : Decidable (Passed slots key n) :=
  inferInstanceAs (Decidable (∀ q < n, slots (index key q) ≠ 0 ∧ slots (index key q) ≠ key))

/-- The key is in the table. -/
def Stored (slots : Slots) (key : ℕ) : Prop := ∃ i, slots i = key

/-- Each key in the table lies in its own window, behind other keys only. -/
def Filled (slots : Slots) : Prop :=
  ∀ i, slots i ≠ 0 → ∃ p, i = index (slots i) p ∧ Passed slots (slots i) p

section
variable {slots : Slots} {key n : ℕ}

theorem Passed.succ (h : Passed slots key n) (h0 : slots (index key n) ≠ 0) (hk : slots (index key n) ≠ key) :
    Passed slots key (n + 1) := Probe.Passed.succ h h0 hk

theorem Passed.claim (h : Passed slots key n) {i v : ℕ} (h0 : slots i = 0) : Passed (Function.update slots i v) key n :=
  Probe.Passed.claim h h0

/-- A key is in at most one slot. -/
theorem Filled.unique (h : Filled slots) {i j : ℕ} (hi : slots i ≠ 0) (hij : slots i = slots j) : i = j :=
  Probe.Filled.unique h hi hij

/-- A call that has passed the slots before an empty one has a key that is not in the table. -/
theorem Filled.not_stored (h : Filled slots) (hk : key ≠ 0) (hpass : Passed slots key n) (h0 : slots (index key n) = 0) :
    ¬ Stored slots key := Probe.Filled.not_stored h hk hpass h0

theorem Filled.claim (h : Filled slots) (hpass : Passed slots key n) (h0 : slots (index key n) = 0) :
    Filled (Function.update slots (index key n) key) := Probe.Filled.claim h hpass h0

theorem stored_claim {i v : ℕ} (h0 : slots i = 0) :
    Stored (Function.update slots i v) v ∧ ∀ k ≠ 0, k ≠ v → (Stored (Function.update slots i v) k ↔ Stored slots k) :=
  Probe.stored_claim h0

end

/-- Where a call may stand: it has passed the slots before the one it looks at. -/
def Call.Sound (slots : Slots) : Call → Prop
  | .load key probe | .claim key probe => key ≠ 0 ∧ probe < probes ∧ Passed slots key probe
  | .returned .. => False

theorem Call.Sound.claim {slots : Slots} {c : Call} (h : c.Sound slots) {i v : ℕ} (h0 : slots i = 0) :
    c.Sound (Function.update slots i v) := by
  cases c with
  | load key probe => exact ⟨h.1, h.2.1, h.2.2.claim h0⟩
  | claim key probe => exact ⟨h.1, h.2.1, h.2.2.claim h0⟩
  | returned key seen => exact h

theorem cas_zero (slots : Slots) (i : ℕ) : cas slots i 0 0 = (slots i, slots) := by
  unfold cas
  split
  · rename_i h
    rw [show Function.update slots i 0 = slots from Function.update_eq_iff.2 ⟨h.symm, fun _ _ => rfl⟩]
  · rfl

theorem cas_empty {slots : Slots} {i : ℕ} (v : ℕ) (h0 : slots i = 0) : cas slots i v 0 = (0, Function.update slots i v) := by
  rw [cas, if_pos h0, h0]

theorem cas_taken {slots : Slots} {i : ℕ} (v : ℕ) (h0 : slots i ≠ 0) : cas slots i v 0 = (slots i, slots) := by
  rw [cas, if_neg h0]

theorem Call.step_load (slots : Slots) (key probe : ℕ) : (Call.load key probe).step slots =
    (if slots (index key probe) = key then .returned key true
      else if slots (index key probe) = 0 then .claim key probe else nextProbe key probe, slots) := by
  simp only [Call.step, cas_zero]
  split_ifs <;> rfl

theorem Call.step_claim_empty {slots : Slots} {key probe : ℕ} (h0 : slots (index key probe) = 0) :
    (Call.claim key probe).step slots = (.returned key false, Function.update slots (index key probe) key) := by
  simp only [Call.step]
  rw [cas_empty key h0]
  rfl

theorem Call.step_claim_taken {slots : Slots} {key probe : ℕ} (h0 : slots (index key probe) ≠ 0) :
    (Call.claim key probe).step slots =
      (if slots (index key probe) = key then .returned key true else nextProbe key probe, slots) := by
  simp only [Call.step]
  rw [cas_taken key h0]
  simp only [if_neg h0]
  split_ifs <;> rfl

/-- What one step of a call does: it goes on, finds its key, or claims the empty slot it looks at. -/
theorem Call.step_cases {slots : Slots} {c : Call} (h : c.Sound slots) (hex : ¬ c.Exhausts slots) :
    (∃ c', c.step slots = (c', slots) ∧ c'.Sound slots) ∨
    (∃ key, c.step slots = (.returned key true, slots) ∧ key ≠ 0 ∧ Stored slots key) ∨
    (∃ key n, c.step slots = (.returned key false, Function.update slots (index key n) key) ∧ key ≠ 0 ∧
      Passed slots key n ∧ slots (index key n) = 0) := by
  -- a slot that holds another key is passed
  have hnext : ∀ key probe, key ≠ 0 → Passed slots key probe → slots (index key probe) ≠ 0 →
      slots (index key probe) ≠ key → ¬ (probe + 1 = probes ∧ slots (index key probe) ≠ 0 ∧ slots (index key probe) ≠ key) →
      probe < probes → (nextProbe key probe).Sound slots := by
    intro key probe hk hp h0 hne hex hlt
    have hlt' : probe + 1 < probes := by
      rcases Nat.lt_or_ge (probe + 1) probes with h | h
      · exact h
      · exact absurd ⟨by omega, h0, hne⟩ hex
    rw [nextProbe, if_pos hlt']
    exact ⟨hk, hlt', hp.succ h0 hne⟩
  cases c with
  | load key probe =>
    obtain ⟨hk, hlt, hp⟩ := h
    rw [Call.step_load]
    by_cases he : slots (index key probe) = key
    · exact .inr (.inl ⟨key, by rw [if_pos he], hk, ⟨_, he⟩⟩)
    · rw [if_neg he]
      left
      by_cases h0 : slots (index key probe) = 0
      · exact ⟨.claim key probe, by rw [if_pos h0], hk, hlt, hp⟩
      · exact ⟨nextProbe key probe, by rw [if_neg h0], hnext key probe hk hp h0 he hex hlt⟩
  | claim key probe =>
    obtain ⟨hk, hlt, hp⟩ := h
    by_cases h0 : slots (index key probe) = 0
    · exact .inr (.inr ⟨key, probe, Call.step_claim_empty h0, hk, hp, h0⟩)
    · rw [Call.step_claim_taken h0]
      by_cases he : slots (index key probe) = key
      · exact .inr (.inl ⟨key, by rw [if_pos he], hk, ⟨_, he⟩⟩)
      · exact .inl ⟨nextProbe key probe, by rw [if_neg he], hnext key probe hk hp h0 he hex hlt⟩
  | returned key seen => exact absurd h id

/-! ## A call on its own -/

section
variable {slots : Slots} {key : ℕ}

theorem Call.run_returned (seen : Bool) : ∀ n, Call.run n (.returned key seen, slots) = (.returned key seen, slots)
  | 0 => rfl
  | n + 1 => Call.run_returned seen n

/-- Where a call on its own ends: at its key, at an empty slot that it claims, or past its last probe. -/
theorem Call.run_load (hk : key ≠ 0) : ∀ (m p n : ℕ), p + m = probes → 0 < m → 2 * m ≤ n → Passed slots key p →
    (Stored slots key ∧ Call.run n (.load key p, slots) = (.returned key true, slots)) ∨
    (∃ q, Passed slots key q ∧ slots (index key q) = 0 ∧
      Call.run n (.load key p, slots) = (.returned key false, Function.update slots (index key q) key)) ∨
    (Passed slots key probes ∧ Call.run n (.load key p, slots) = (.returned key false, slots))
  | m + 1, p, n + 2, hp, _, hn, hpass => by
    rw [Call.run, Call.step_load]
    by_cases he : slots (index key p) = key
    · rw [if_pos he, Call.run_returned]
      exact .inl ⟨⟨_, he⟩, rfl⟩
    · rw [if_neg he]
      by_cases h0 : slots (index key p) = 0
      · rw [if_pos h0, Call.run, Call.step_claim_empty h0, Call.run_returned]
        exact .inr (.inl ⟨p, hpass, h0, rfl⟩)
      · rw [if_neg h0, nextProbe]
        have hnext := hpass.succ h0 he
        rcases Nat.eq_zero_or_pos m with rfl | hm
        · rw [if_neg (by omega), Call.run_returned]
          have hlast : p + 1 = probes := hp
          exact .inr (.inr ⟨hlast ▸ hnext, rfl⟩)
        · rw [if_pos (by omega)]
          exact Call.run_load hk m (p + 1) (n + 1) (by omega) hm (by omega) hnext

/-- `MarkOnce` on its own, as long as it does not run out of probes. -/
theorem markOnce_cases (slots : Slots) (key : ℕ) (hroom : ¬ Passed slots (remap key) probes) :
    (Stored slots (remap key) ∧ markOnce slots key = (true, slots)) ∨
    ∃ n, Passed slots (remap key) n ∧ slots (index (remap key) n) = 0 ∧
      markOnce slots key = (false, Function.update slots (index (remap key) n) (remap key)) := by
  have hstart : Passed slots (remap key) 0 := fun _ hq => absurd hq (Nat.not_lt_zero _)
  unfold markOnce
  rcases Call.run_load (remap_ne key) probes 0 (2 * probes) (by simp) (by decide) le_rfl hstart with
    ⟨hs, e⟩ | ⟨n, hp, h0, e⟩ | ⟨hp, -⟩
  · rw [e]; exact .inl ⟨hs, rfl⟩
  · rw [e]; exact .inr ⟨n, hp, h0, rfl⟩
  · exact absurd hp hroom

end

namespace Table

/-- The invariant of every run. The reports come in an order that explains them: a key is seen
exactly when an earlier report has it. -/
structure Kept (s : Table) : Prop where
  filled : Filled s.slots
  calls : ∀ t c, s.calls t = some c → c.Sound s.slots
  keys : ∀ k, k ≠ 0 → (Stored s.slots k ↔ k ∈ s.reports.map (·.key))
  nonzero : ∀ r ∈ s.reports, r.key ≠ 0
  linear : ∀ pre r post, s.reports = pre ++ r :: post → (r.seen ↔ r.key ∈ pre.map (·.key))

section
variable {s : Table} {thread : ℕ}

theorem Kept.call (h : s.Kept) (key : ℕ) : (s.step (.call thread key)).Kept := by
  refine ⟨h.filled, fun t c hc => ?_, h.keys, h.nonzero, h.linear⟩
  by_cases ht : t = thread
  · subst ht
    simp only [step, Function.update_self] at hc
    cases hc
    exact ⟨remap_ne key, by decide, fun _ hq => absurd hq (Nat.not_lt_zero _)⟩
  · simp only [step, Function.update_of_ne ht] at hc
    exact h.calls t c hc

/-- One more report at the end keeps the order of the others. -/
theorem linear_append {l : List Report} {x : Report}
    (h : ∀ pre r post, l = pre ++ r :: post → (r.seen ↔ r.key ∈ pre.map (·.key)))
    (hx : x.seen ↔ x.key ∈ l.map (·.key)) :
    ∀ pre r post, l ++ [x] = pre ++ r :: post → (r.seen ↔ r.key ∈ pre.map (·.key)) := by
  intro pre r post e
  rcases List.eq_nil_or_concat post with rfl | ⟨post', y, rfl⟩
  · obtain ⟨rfl, e'⟩ := List.append_inj' e rfl
    cases e'
    exact hx
  · have e' : l ++ [x] = (pre ++ r :: post') ++ [y] := by simp [e]
    exact h pre r post' (List.append_inj' e' rfl).1

theorem calls_update (h : ∀ t c, s.calls t = some c → c.Sound s.slots) {slots : Slots}
    (hsound : ∀ c : Call, c.Sound s.slots → c.Sound slots) {o : Option Call} (ho : ∀ c, o = some c → c.Sound slots) :
    ∀ t c, Function.update s.calls thread o t = some c → c.Sound slots := by
  intro t c hc
  by_cases ht : t = thread
  · subst ht
    rw [Function.update_self] at hc
    exact ho c hc
  · rw [Function.update_of_ne ht] at hc
    exact hsound c (h t c hc)

theorem Kept.move (h : s.Kept) (hop : s.Allowed (.move thread)) : (s.step (.move thread)).Kept := by
  cases hc : s.calls thread with
  | none =>
    simp only [step, hc]
    exact h
  | some c =>
    simp only [step, hc]
    rcases Call.step_cases (h.calls thread c hc) (hop c hc) with ⟨c', e, hs⟩ | ⟨key, e, hk, hst⟩ | ⟨key, n, e, hk, hp, h0⟩
    · rw [e]
      have hadv : s.advance thread (c', s.slots) = { s with calls := Function.update s.calls thread (some c') } := by
        cases c' with
        | load => rfl
        | claim => rfl
        | returned => exact absurd hs id
      rw [hadv]
      refine ⟨h.filled, calls_update h.calls (fun _ h => h) ?_, h.keys, h.nonzero, h.linear⟩
      rintro d ⟨⟩
      exact hs
    · rw [e]
      have hmem := (h.keys key hk).1 hst
      refine ⟨h.filled, calls_update h.calls (fun _ h => h) (by simp), fun k hk' => ?_,
        List.forall_mem_append.2 ⟨h.nonzero, by simpa using hk⟩, linear_append h.linear (by simpa using hmem)⟩
      show Stored s.slots k ↔ _
      rw [h.keys k hk']
      simp only [advance, List.map_append, List.map_cons, List.map_nil, List.mem_append, List.mem_singleton]
      constructor
      · exact .inl
      · rintro (hm | rfl)
        · exact hm
        · exact hmem
    · rw [e]
      obtain ⟨hstored, hothers⟩ := stored_claim (v := key) h0
      have hnew := (not_congr (h.keys key hk)).1 (h.filled.not_stored hk hp h0)
      refine ⟨h.filled.claim hp h0, calls_update h.calls (fun c hc => hc.claim h0) (by simp), fun k hk' => ?_,
        List.forall_mem_append.2 ⟨h.nonzero, by simpa using hk⟩, linear_append h.linear (by simpa using hnew)⟩
      simp only [advance, List.map_append, List.map_cons, List.map_nil, List.mem_append, List.mem_singleton]
      by_cases hkk : k = key
      · subst hkk
        exact iff_of_true hstored (.inr rfl)
      · rw [hothers k hk' hkk, h.keys k hk']
        simp [hkk]

theorem Kept.step (h : s.Kept) {act : Act} (hop : s.Allowed act) : (s.step act).Kept := by
  cases act with
  | call thread key => exact h.call key
  | move thread => exact h.move hop

theorem start_kept : Kept empty where
  filled := fun _ h => absurd rfl h
  calls := fun _ _ h => by cases h
  keys := fun k hk => by
    constructor
    · rintro ⟨i, rfl⟩
      exact absurd rfl hk
    · intro h
      cases h
  nonzero := by simp [empty]
  linear := by simp [empty]

theorem kept_after {acts : List Act} (hacts : Run acts) : (after acts).Kept :=
  hacts.invariant (fun _ _ h hop => h.step hop) start_kept

/-- Of the finished calls with one key, one was told that it is new. -/
theorem Kept.count_new (h : s.Kept) {k : ℕ} (hk : k ∈ s.reports.map (·.key)) : s.reports.count ⟨k, false⟩ = 1 := by
  have hlin := h.linear
  generalize s.reports = l at hk hlin
  induction l using List.reverseRecOn with
  | nil => cases hk
  | append_singleton l x ih =>
    have hl : ∀ pre r post, l = pre ++ r :: post → (r.seen ↔ r.key ∈ pre.map (·.key)) := by
      rintro pre r post rfl
      exact hlin pre r (post ++ [x]) (by simp)
    have hx := hlin l x [] rfl
    rw [List.count_append]
    by_cases hm : k ∈ l.map (·.key)
    · rw [ih hm hl]
      have hne : x ≠ ⟨k, false⟩ := by
        rintro rfl
        exact absurd (hx.2 hm) Bool.false_ne_true
      simp [hne]
    · have hxk : x.key = k := by
        rw [List.map_append, List.mem_append] at hk
        rcases hk with hk | hk
        · exact absurd hk hm
        · exact (List.mem_singleton.1 hk).symm
      have hnone : l.count ⟨k, false⟩ = 0 := by
        rw [List.count_eq_zero]
        exact fun h => hm (List.mem_map.2 ⟨_, h, rfl⟩)
      have hfalse : x.seen = false := by
        rw [Bool.eq_false_iff]
        intro hs
        exact hm (hxk ▸ hx.1 hs)
      have he : x = ⟨k, false⟩ := by
        cases x
        simp only at hxk hfalse
        rw [hxk, hfalse]
      rw [hnone, he, List.count_singleton_self]

end

/-- In every interleaving of calls of `MarkOnce`, none of which runs out of probes, each key is stored
in at most one slot, and of the finished calls with one key exactly one returned false. -/
theorem once_after {acts : List Act} (hacts : Run acts) :
    (∀ i j, (after acts).slots i ≠ 0 → (after acts).slots i = (after acts).slots j → i = j) ∧
      ∀ k ∈ (after acts).reports.map (·.key), (after acts).reports.count ⟨k, false⟩ = 1 :=
  ⟨fun _ _ hi hij => (kept_after hacts).filled.unique hi hij, fun _ hk => (kept_after hacts).count_new hk⟩

/-- Two threads race for one key, and a third has a key with the same home. -/
def race : List Act :=
  [.call 0 5, .call 1 5, .call 2 16389, .move 0, .move 1, .move 2, .move 1, .move 0, .move 2, .move 2, .move 2]

theorem once_race : (∀ i j, (after race).slots i ≠ 0 → (after race).slots i = (after race).slots j → i = j) ∧
    (after race).reports.count ⟨5, false⟩ = 1 ∧ (after race).reports.count ⟨16389, false⟩ = 1 :=
  have h := once_after (show Run race by decide)
  ⟨h.1, h.2 5 (by decide), h.2 16389 (by decide)⟩

end Table

end Ts3Vas.ScriptScanDedup
