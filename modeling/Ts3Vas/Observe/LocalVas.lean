/-
The call sites of local reserves, WorkingHooks.cpp: TrackLocalVasCaller adds a reserve to its site's slot
in a table that threads probe and claim by compare-and-exchange, and ReportLocalVasSources lists the
largest. A call that loses an exchange does not look at that slot again.
-/
import Ts3Vas.Lib.Probe
import Ts3Vas.Lib.Run

namespace Ts3Vas.LocalVas

open Probe

/-! ## TrackLocalVasCaller -/

/-- The counters are 64-bit words. -/
structure LocalVasCallerStat where
  /-- 0 for an empty slot. -/
  addr : ℕ
  calls : ℕ
  bytes : ℕ
  deriving DecidableEq, Repr

def kLocalVasCallerSlots : ℕ := 64

/-- `s_localVasCallers` by index; the slots from `kLocalVasCallerSlots` on are never touched. -/
abbrev Callers := ℕ → LocalVasCallerStat

def Callers.zero : Callers := fun _ => ⟨0, 0, 0⟩

/-- `InterlockedCompareExchangePointer` on a slot's address: what it held, and the table after. -/
def exchangeAddr (slots : Callers) (idx exchange comparand : ℕ) : ℕ × Callers :=
  ((slots idx).addr,
    if (slots idx).addr = comparand then Function.update slots idx { slots idx with addr := exchange } else slots)

def start (callerAddr : ℕ) : ℕ := (callerAddr >>> 4) % kLocalVasCallerSlots

/-- The slot that round `i` of the loop looks at. -/
def index (callerAddr i : ℕ) : ℕ := (start callerAddr + i) % kLocalVasCallerSlots

/-- The interlocked operation that a call is about to make. -/
inductive Phase
  | load (i : ℕ)
  | claim (i : ℕ)
  | count (idx : ℕ)
  | add (idx : ℕ)
  | returned
  deriving DecidableEq, Repr

structure Call where
  callerAddr : ℕ
  size : ℕ
  phase : Phase
  deriving DecidableEq, Repr

/-- The next round of the loop, or its end. -/
def nextRound (i : ℕ) : Phase := if i + 1 < kLocalVasCallerSlots then .load (i + 1) else .returned

/-- A call up to its next interlocked operation and past it. -/
def Call.step (slots : Callers) (c : Call) : Call × Callers :=
  match c.phase with
  | .load i =>
    let idx := index c.callerAddr i
    let (cur, slots) := exchangeAddr slots idx 0 0
    ({ c with phase := if cur = c.callerAddr then .count idx else if cur = 0 then .claim i else nextRound i }, slots)
  | .claim i =>
    let idx := index c.callerAddr i
    let (prev, slots) := exchangeAddr slots idx c.callerAddr 0
    -- whoever took the slot, the call goes on with the next one
    ({ c with phase := if prev = 0 then .count idx else nextRound i }, slots)
  | .count idx => ({ c with phase := .add idx },
      Function.update slots idx { slots idx with calls := ((slots idx).calls + 1) % 2 ^ 64 })
  | .add idx => ({ c with phase := .returned },
      Function.update slots idx { slots idx with bytes := ((slots idx).bytes + c.size) % 2 ^ 64 })
  | .returned => (c, slots)

/-! ## ReportLocalVasSources -/

/-- A word as a `LONGLONG`. -/
def signed (w : ℕ) : ℤ := if w < 2 ^ 63 then w else w - 2 ^ 64

structure TopEntry where
  addr : ℕ
  bytes : ℤ
  calls : ℤ
  deriving DecidableEq, Repr

/-- The entry takes the place of the first one with fewer bytes; that one and those after it move down,
and the last is lost. -/
def insertTop (e : TopEntry) : List TopEntry → List TopEntry
  | [] => []
  | t :: top => if e.bytes > t.bytes then (e :: t :: top).dropLast else t :: insertTop e top

def topEntry (x : LocalVasCallerStat) : TopEntry := ⟨x.addr, signed x.bytes, signed x.calls⟩

/-- `top` after the loop over the slots. -/
def reportTop (slots : Callers) : List TopEntry :=
  (List.range kLocalVasCallerSlots).foldl
    (fun top i => if (slots i).addr = 0 then top else if signed (slots i).bytes ≤ 0 then top else insertTop (topEntry (slots i)) top)
    (List.replicate 5 ⟨0, 0, 0⟩)

/-- The entries that the report writes a line for. -/
def listed (slots : Callers) : List TopEntry := (reportTop slots).filter fun t => t.addr ≠ 0 ∧ 0 < t.bytes

/-! ## Threads -/

structure State where
  slots : Callers
  /-- Every call made so far, in the order in which they began. Calls share nothing but the table,
  so a thread's next call is one more entry like another thread's. -/
  calls : List Call

inductive Act
  /-- A thread calls `TrackLocalVasCaller`. -/
  | call (callerAddr size : ℕ)
  /-- The call of that number makes its next interlocked operation. -/
  | move (n : ℕ)
  deriving DecidableEq, Repr

namespace State

def step (s : State) : Act → State
  | .call callerAddr size =>
    { s with calls := s.calls ++ [⟨callerAddr, size, if callerAddr = 0 then .returned else .load 0⟩] }
  | .move n =>
    match s.calls[n]? with
    | none => s
    | some c => ⟨(c.step s.slots).2, s.calls.set n (c.step s.slots).1⟩

def empty : State := ⟨.zero, []⟩

/-- The addresses are not null, and at most 64 in all. -/
def Allowed (s : State) : Act → Prop
  | .call callerAddr _ => callerAddr ≠ 0 ∧ (s.calls.map (·.callerAddr) ++ [callerAddr]).toFinset.card ≤ kLocalVasCallerSlots
  | .move _ => True

/-- No exchange is lost to a call of the same address. -/
def Undisputed (s : State) : Act → Prop
  | .call .. => True
  | .move n => ∀ c ∈ s.calls[n]?, ∀ i < kLocalVasCallerSlots, c.phase = .claim i →
    (s.slots (index c.callerAddr i)).addr ≠ c.callerAddr

instance (s : State) : (act : Act) → Decidable (s.Allowed act)
  | .call .. => inferInstanceAs (Decidable (_ ∧ _))
  | .move _ => inferInstanceAs (Decidable True)

instance (s : State) : (act : Act) → Decidable (s.Undisputed act)
  | .call .. => inferInstanceAs (Decidable True)
  | .move n => inferInstanceAs (Decidable (∀ c ∈ s.calls[n]?, ∀ i < kLocalVasCallerSlots, c.phase = .claim i →
      (s.slots (index c.callerAddr i)).addr ≠ c.callerAddr))

abbrev after (acts : List Act) : State := Run.after step empty acts

end State

/-- The slot of an address with all its calls and bytes. -/
def totalsOf (calls : List Call) (a : ℕ) : LocalVasCallerStat :=
  ⟨a, (calls.filter (·.callerAddr = a)).length % 2 ^ 64, ((calls.filter (·.callerAddr = a)).map (·.size)).sum % 2 ^ 64⟩

/-- Every address is in at most one slot. Once all calls have returned, each has a slot with its calls
and bytes, and the report lists each with these, or five others that have no fewer bytes. -/
structure Attributed (s : State) : Prop where
  once : ∀ i j, (s.slots i).addr ≠ 0 → (s.slots i).addr = (s.slots j).addr → i = j
  totals : (∀ c ∈ s.calls, c.phase = .returned) → ∀ c ∈ s.calls, ∃ i < kLocalVasCallerSlots,
    s.slots i = totalsOf s.calls c.callerAddr
  lines : (∀ c ∈ s.calls, c.phase = .returned) → ((listed s.slots).map (·.addr)).Nodup ∧
    (∀ t ∈ listed s.slots, ∃ c ∈ s.calls, t = topEntry (totalsOf s.calls c.callerAddr)) ∧
    ∀ c ∈ s.calls, 0 < signed (totalsOf s.calls c.callerAddr).bytes →
      topEntry (totalsOf s.calls c.callerAddr) ∈ listed s.slots ∨
      (listed s.slots).length = 5 ∧ ∀ t ∈ listed s.slots, signed (totalsOf s.calls c.callerAddr).bytes ≤ t.bytes

/-! ## One step of a call -/

/-- The addresses by slot. -/
def addrs (slots : Callers) : ℕ → ℕ := fun i => (slots i).addr

theorem addrs_update (slots : Callers) (i : ℕ) (x : LocalVasCallerStat) :
    addrs (Function.update slots i x) = Function.update (addrs slots) i x.addr := by
  funext j
  unfold addrs
  by_cases hj : j = i
  · rw [hj, Function.update_self, Function.update_self]
  · rw [Function.update_of_ne hj, Function.update_of_ne hj]

/-- Counting leaves the addresses as they are. -/
theorem addrs_update_same {slots : Callers} {i : ℕ} {x : LocalVasCallerStat} (h : x.addr = (slots i).addr) :
    addrs (Function.update slots i x) = addrs slots := by
  rw [addrs_update, h]
  exact Function.update_eq_self i (addrs slots)

theorem index_lt (a i : ℕ) : index a i < kLocalVasCallerSlots := Nat.mod_lt _ (by decide)

theorem exchangeAddr_load (slots : Callers) (i : ℕ) : exchangeAddr slots i 0 0 = (addrs slots i, slots) := by
  unfold exchangeAddr
  split
  · rename_i h
    rw [← h, show Function.update slots i _ = slots from Function.update_eq_self i slots]
    rfl
  · rfl

theorem exchangeAddr_empty {slots : Callers} {i : ℕ} (v : ℕ) (h0 : addrs slots i = 0) :
    exchangeAddr slots i v 0 = (0, Function.update slots i { slots i with addr := v }) := by
  have h0 : (slots i).addr = 0 := h0
  rw [exchangeAddr, if_pos h0, h0]

theorem exchangeAddr_taken {slots : Callers} {i : ℕ} (v : ℕ) (h0 : addrs slots i ≠ 0) :
    exchangeAddr slots i v 0 = (addrs slots i, slots) := by
  have h0 : (slots i).addr ≠ 0 := h0
  rw [exchangeAddr, if_neg h0]
  rfl

/-- Where a call may stand. -/
def Phase.Sound (slots : ℕ → ℕ) (key : ℕ) : Phase → Prop
  | .load i | .claim i => i < kLocalVasCallerSlots ∧ Passed index slots key i
  | .count idx | .add idx => slots idx = key
  | .returned => Stored slots key

/-- The call has been counted. -/
def Phase.counted : Phase → Bool
  | .add _ | .returned => true
  | _ => false

/-- The call's bytes have been added. -/
def Phase.added : Phase → Bool
  | .returned => true
  | _ => false

section
variable {slots : ℕ → ℕ} {key : ℕ} {p : Phase}

theorem Phase.Sound.claim (h : p.Sound slots key) (hk : key ≠ 0) {i v : ℕ} (h0 : slots i = 0) :
    p.Sound (Function.update slots i v) key := by
  cases p with
  | load j => exact ⟨h.1, h.2.claim h0⟩
  | claim j => exact ⟨h.1, h.2.claim h0⟩
  | count idx =>
    have h : slots idx = key := h
    exact (update_of_taken h0 (h ▸ hk)).trans h
  | add idx =>
    have h : slots idx = key := h
    exact (update_of_taken h0 (h ▸ hk)).trans h
  | returned =>
    obtain ⟨j, rfl⟩ := h
    exact ⟨j, update_of_taken h0 hk⟩

/-- Whoever has been counted has its address in the table. -/
theorem Phase.Sound.stored (h : p.Sound slots key) (hc : p.counted = true) : Stored slots key := by
  cases p with
  | load => cases hc
  | claim => cases hc
  | count => cases hc
  | add idx => exact ⟨idx, h⟩
  | returned => exact h

theorem Phase.counted_of_added (h : p.added = true) : p.counted = true := by
  cases p with
  | returned => rfl
  | _ => cases h

end

/-- What one operation of a call does when it loses no exchange to its own address: the call goes on,
claims the empty slot it looks at, is counted, or has its bytes added. -/
theorem Call.step_cases {slots : Callers} {c : Call} (hs : c.phase.Sound (addrs slots) c.callerAddr)
    (hroom : ¬ Passed index (addrs slots) c.callerAddr kLocalVasCallerSlots)
    (hown : ∀ i < kLocalVasCallerSlots, c.phase = .claim i → addrs slots (index c.callerAddr i) ≠ c.callerAddr) :
    (∃ p : Phase, c.step slots = ({ c with phase := p }, slots) ∧ p.Sound (addrs slots) c.callerAddr ∧
      p.counted = c.phase.counted ∧ p.added = c.phase.added) ∨
    (∃ i, c.phase.counted = false ∧ c.phase.added = false ∧ Passed index (addrs slots) c.callerAddr i ∧
      addrs slots (index c.callerAddr i) = 0 ∧
      c.step slots = ({ c with phase := .count (index c.callerAddr i) }, Function.update slots (index c.callerAddr i)
        { slots (index c.callerAddr i) with addr := c.callerAddr })) ∨
    (∃ idx, c.phase = .count idx ∧ addrs slots idx = c.callerAddr ∧ c.step slots = ({ c with phase := .add idx },
      Function.update slots idx { slots idx with calls := ((slots idx).calls + 1) % 2 ^ 64 })) ∨
    (∃ idx, c.phase = .add idx ∧ addrs slots idx = c.callerAddr ∧ c.step slots = ({ c with phase := .returned },
      Function.update slots idx { slots idx with bytes := ((slots idx).bytes + c.size) % 2 ^ 64 })) := by
  obtain ⟨key, size, phase⟩ := c
  -- a slot that holds another address is passed, and is not the last
  have hnext : ∀ i < kLocalVasCallerSlots, Passed index (addrs slots) key i → addrs slots (index key i) ≠ 0 →
      addrs slots (index key i) ≠ key → ∃ p : Phase, nextRound i = p ∧ p.Sound (addrs slots) key ∧
        p.counted = false ∧ p.added = false := by
    intro i hi hp h0 hk
    have hp' := hp.succ h0 hk
    have hi' : i + 1 < kLocalVasCallerSlots := by
      rcases Nat.lt_or_ge (i + 1) kLocalVasCallerSlots with h | h
      · exact h
      · have hlast : i + 1 = kLocalVasCallerSlots := by omega
        exact absurd (hlast ▸ hp') hroom
    exact ⟨_, if_pos hi', ⟨hi', hp'⟩, rfl, rfl⟩
  cases phase with
  | load i =>
    obtain ⟨hi, hp⟩ := hs
    left
    simp only [Call.step, exchangeAddr_load]
    by_cases he : addrs slots (index key i) = key
    · exact ⟨.count (index key i), by rw [if_pos he], he, rfl, rfl⟩
    · by_cases h0 : addrs slots (index key i) = 0
      · exact ⟨.claim i, by rw [if_neg he, if_pos h0], ⟨hi, hp⟩, rfl, rfl⟩
      · obtain ⟨p, e, hp⟩ := hnext i hi hp h0 he
        exact ⟨p, by rw [if_neg he, if_neg h0, e], hp⟩
  | claim i =>
    obtain ⟨hi, hp⟩ := hs
    simp only [Call.step]
    by_cases h0 : addrs slots (index key i) = 0
    · rw [exchangeAddr_empty key h0]
      exact .inr (.inl ⟨i, rfl, rfl, hp, h0, rfl⟩)
    · obtain ⟨p, e, hp⟩ := hnext i hi hp h0 (hown i hi rfl)
      rw [exchangeAddr_taken key h0]
      left
      exact ⟨p, by simp only [if_neg h0, e], hp⟩
  | count idx => exact .inr (.inr (.inl ⟨idx, rfl, hs, rfl⟩))
  | add idx => exact .inr (.inr (.inr ⟨idx, rfl, hs, rfl⟩))
  | returned => exact .inl ⟨.returned, rfl, hs, rfl, rfl⟩

/-! ## The invariant -/

def countOf (calls : List Call) (a : ℕ) : ℕ := calls.countP fun c => c.callerAddr = a ∧ c.phase.counted = true

def bytesOf (calls : List Call) (a : ℕ) : ℕ :=
  ((calls.filter fun c => c.callerAddr = a ∧ c.phase.added = true).map (·.size)).sum

/-- The slot of an address with what its calls have added so far. -/
def statOf (calls : List Call) (a : ℕ) : LocalVasCallerStat := ⟨a, countOf calls a % 2 ^ 64, bytesOf calls a % 2 ^ 64⟩

section
variable {pre post calls : List Call} {c c' : Call} {a : ℕ}

theorem countOf_mid : countOf (pre ++ c :: post) a =
    countOf (pre ++ post) a + if c.callerAddr = a ∧ c.phase.counted = true then 1 else 0 := by
  unfold countOf
  rw [List.countP_append, List.countP_append, List.countP_cons]
  simp only [decide_eq_true_eq]
  omega

theorem bytesOf_mid : bytesOf (pre ++ c :: post) a =
    bytesOf (pre ++ post) a + if c.callerAddr = a ∧ c.phase.added = true then c.size else 0 := by
  unfold bytesOf
  by_cases h : c.callerAddr = a ∧ c.phase.added = true
  · rw [List.filter_append, List.filter_cons_of_pos (by simpa using h), List.filter_append, if_pos h]
    simp only [List.map_append, List.map_cons, List.sum_append, List.sum_cons]
    omega
  · rw [List.filter_append, List.filter_cons_of_neg (by simpa using h), List.filter_append, if_neg h, Nat.add_zero]

/-- A call that goes on without counting changes no slot. -/
theorem statOf_same (ha : c'.callerAddr = c.callerAddr) (hs : c'.size = c.size)
    (hc : c'.phase.counted = c.phase.counted) (hb : c'.phase.added = c.phase.added) :
    statOf (pre ++ c' :: post) a = statOf (pre ++ c :: post) a := by
  unfold statOf
  rw [countOf_mid, countOf_mid, bytesOf_mid, bytesOf_mid, ha, hs, hc, hb]

/-- Nor does a call the slots of other addresses. -/
theorem statOf_other (ha : c'.callerAddr = c.callerAddr) (hne : c.callerAddr ≠ a) :
    statOf (pre ++ c' :: post) a = statOf (pre ++ c :: post) a := by
  unfold statOf
  rw [countOf_mid, countOf_mid, bytesOf_mid, bytesOf_mid, ha]
  simp only [hne, false_and, if_false]

theorem statOf_fresh (h : ∀ c ∈ calls, c.callerAddr = a → c.phase.counted = false) : statOf calls a = ⟨a, 0, 0⟩ := by
  have hcount : countOf calls a = 0 := by
    refine List.countP_eq_zero.2 fun c hc hcount => ?_
    obtain ⟨ha, hc'⟩ := of_decide_eq_true hcount
    rw [h c hc ha] at hc'
    cases hc'
  have hbytes : calls.filter (fun c => decide (c.callerAddr = a ∧ c.phase.added = true)) = [] := by
    refine List.filter_eq_nil_iff.2 fun c hc hadded => ?_
    obtain ⟨ha, hc'⟩ := of_decide_eq_true hadded
    have hcounted := Phase.counted_of_added hc'
    rw [h c hc ha] at hcounted
    cases hcounted
  rw [statOf, hcount, bytesOf, hbytes]
  rfl

/-- Once all calls have returned, everything is added. -/
theorem statOf_returned (h : ∀ c ∈ calls, c.phase = .returned) : statOf calls a = totalsOf calls a := by
  have hcount : countOf calls a = (calls.filter (·.callerAddr = a)).length := by
    rw [countOf, ← List.countP_eq_length_filter]
    refine List.countP_congr fun c hc => ?_
    simp [h c hc, Phase.counted]
  have hbytes : calls.filter (fun c => decide (c.callerAddr = a ∧ c.phase.added = true)) = calls.filter (·.callerAddr = a) := by
    refine List.filter_congr fun c hc => ?_
    simp [h c hc, Phase.added]
  rw [statOf, totalsOf, hcount, bytesOf, hbytes]

end

namespace State

/-- The invariant of every run that loses no exchange to the same address. -/
structure Kept (s : State) : Prop where
  filled : Filled index (addrs s.slots)
  sound : ∀ c ∈ s.calls, c.callerAddr ≠ 0 ∧ c.phase.Sound (addrs s.slots) c.callerAddr
  known : ∀ i, addrs s.slots i ≠ 0 → addrs s.slots i ∈ s.calls.map (·.callerAddr)
  few : (s.calls.map (·.callerAddr)).toFinset.card ≤ kLocalVasCallerSlots
  stats : ∀ i, s.slots i = statOf s.calls (addrs s.slots i)

section
variable {s : State}

theorem Kept.empty : Kept State.empty where
  filled := Filled.empty
  sound := by simp [State.empty]
  known := fun i h => absurd rfl h
  few := Nat.zero_le _
  stats := fun _ => rfl

theorem Kept.call (h : s.Kept) {a size : ℕ} (ha : s.Allowed (.call a size)) : (s.step (.call a size)).Kept := by
  obtain ⟨h0, hfew⟩ := ha
  simp only [step, if_neg h0]
  refine ⟨h.filled, List.forall_mem_append.2 ⟨h.sound, List.forall_mem_singleton.2 ⟨h0, by decide, .zero⟩⟩,
    fun i hi => ?_, ?_, fun i => ?_⟩
  · rw [List.map_append]
    exact List.mem_append_left _ (h.known i hi)
  · rw [List.map_append]
    exact hfew
  · rw [statOf, countOf_mid, bytesOf_mid, List.append_nil]
    simp only [Phase.counted, Phase.added, Bool.false_eq_true, and_false, if_false]
    exact h.stats i

/-- No slots but its own have the address of a slot. -/
theorem Kept.addr_ne (h : s.Kept) {i j a : ℕ} (ha : a ≠ 0) (hi : addrs s.slots i = a) (hj : j ≠ i) : a ≠ addrs s.slots j :=
  fun e => hj (h.filled.unique (by rw [← e]; exact ha) (by rw [← e, hi]))

/-- With at most 64 addresses a call never comes round to its first slot. -/
theorem Kept.not_passed (h : s.Kept) {c : Call} (hc : c ∈ s.calls) :
    ¬ Passed index (addrs s.slots) c.callerAddr kLocalVasCallerSlots :=
  h.filled.not_passed (fun _ _ hp hq e => round_injective hp hq e) (fun i hi => List.mem_toFinset.2 (h.known i hi))
    (List.mem_toFinset.2 (List.mem_map_of_mem hc)) h.few

section
variable {slots : Callers} {pre post : List Call} {c : Call}

theorem map_mid (p : Phase) :
    (pre ++ { c with phase := p } :: post).map (·.callerAddr) = (pre ++ c :: post).map (·.callerAddr) := by simp

/-- The other calls stand where they stood, and one in a new phase. -/
theorem Kept.sound_mid (h : Kept ⟨slots, pre ++ c :: post⟩) {p : Phase} {t : ℕ → ℕ} (hp : p.Sound t c.callerAddr)
    (hall : ∀ d ∈ pre ++ c :: post, d.phase.Sound t d.callerAddr) :
    ∀ d ∈ pre ++ { c with phase := p } :: post, d.callerAddr ≠ 0 ∧ d.phase.Sound t d.callerAddr := by
  intro d hd
  rw [List.mem_append, List.mem_cons] at hd
  rcases hd with hd | rfl | hd
  · have hd : d ∈ pre ++ c :: post := by simp [hd]
    exact ⟨(h.sound d hd).1, hall d hd⟩
  · exact ⟨(h.sound c (by simp)).1, hp⟩
  · have hd : d ∈ pre ++ c :: post := by simp [hd]
    exact ⟨(h.sound d hd).1, hall d hd⟩

/-- A call adds to the slot of its address. -/
theorem Kept.write (h : Kept ⟨slots, pre ++ c :: post⟩) {p : Phase} {idx : ℕ} {x : LocalVasCallerStat}
    (hidx : addrs slots idx = c.callerAddr) (hp : p.Sound (addrs slots) c.callerAddr)
    (hx : x = statOf (pre ++ { c with phase := p } :: post) c.callerAddr) :
    Kept ⟨Function.update slots idx x, pre ++ { c with phase := p } :: post⟩ := by
  have haddr : addrs (Function.update slots idx x) = addrs slots := addrs_update_same (hx ▸ hidx.symm)
  refine ⟨haddr ▸ h.filled, h.sound_mid (haddr ▸ hp) fun d hd => haddr ▸ (h.sound d hd).2, fun j hj => ?_, ?_, fun j => ?_⟩
  · rw [map_mid]
    dsimp only at hj ⊢
    rw [haddr] at hj ⊢
    exact h.known j hj
  · rw [map_mid]
    exact h.few
  · dsimp only
    rw [haddr]
    by_cases hj : j = idx
    · rw [hj, Function.update_self, hidx, hx]
    · have hother : statOf (pre ++ { c with phase := p } :: post) (addrs slots j) =
          statOf (pre ++ c :: post) (addrs slots j) := statOf_other rfl (h.addr_ne (h.sound c (by simp)).1 hidx hj)
      rw [Function.update_of_ne hj, hother]
      exact h.stats j

/-- A call claims the first empty slot of its sequence. -/
theorem Kept.claim (h : Kept ⟨slots, pre ++ c :: post⟩) {i : ℕ} (hcount : c.phase.counted = false)
    (hadd : c.phase.added = false) (hp : Passed index (addrs slots) c.callerAddr i)
    (h0 : addrs slots (index c.callerAddr i) = 0) :
    Kept ⟨Function.update slots (index c.callerAddr i) { slots (index c.callerAddr i) with addr := c.callerAddr },
      pre ++ { c with phase := .count (index c.callerAddr i) } :: post⟩ := by
  have hc : c ∈ pre ++ c :: post := by simp
  have hk := (h.sound c hc).1
  have hi := addrs_update slots (index c.callerAddr i) { slots (index c.callerAddr i) with addr := c.callerAddr }
  refine ⟨hi ▸ h.filled.claim hp h0, h.sound_mid ?_ fun d hd => ?_, fun j hj => ?_, ?_, fun j => ?_⟩
  · show addrs _ _ = _
    rw [hi, Function.update_self]
  · rw [hi]
    exact (h.sound d hd).2.claim (h.sound d hd).1 h0
  · rw [map_mid]
    dsimp only at hj ⊢
    rw [hi] at hj ⊢
    by_cases hji : j = index c.callerAddr i
    · rw [hji, Function.update_self]
      exact List.mem_map_of_mem hc
    · rw [Function.update_of_ne hji] at hj ⊢
      exact h.known j hj
  · rw [map_mid]
    exact h.few
  · have hsame : ∀ a, statOf (pre ++ { c with phase := .count (index c.callerAddr i) } :: post) a =
        statOf (pre ++ c :: post) a := fun a => statOf_same rfl rfl hcount.symm hadd.symm
    dsimp only
    rw [hi, hsame]
    by_cases hji : j = index c.callerAddr i
    · subst hji
      -- nobody with this address has been counted, and nobody has the address 0
      have hnew : ∀ d ∈ pre ++ c :: post, d.callerAddr = c.callerAddr → d.phase.counted = false := fun d hd hdc => by
        by_contra hd'
        exact h.filled.not_stored hk hp h0 (hdc ▸ (h.sound d hd).2.stored (Bool.not_eq_false _ ▸ hd'))
      have hempty : slots (index c.callerAddr i) = ⟨0, 0, 0⟩ := by
        have hstat : slots (index c.callerAddr i) = statOf _ (addrs slots (index c.callerAddr i)) := h.stats _
        rw [hstat, h0]
        exact statOf_fresh fun d hd hd0 => absurd hd0 (h.sound d hd).1
      rw [Function.update_self, Function.update_self, statOf_fresh hnew, hempty]
    · rw [Function.update_of_ne hji, Function.update_of_ne hji]
      exact h.stats j

/-- One operation of a call. -/
theorem Kept.advance (h : Kept ⟨slots, pre ++ c :: post⟩)
    (hown : ∀ i < kLocalVasCallerSlots, c.phase = .claim i → addrs slots (index c.callerAddr i) ≠ c.callerAddr) :
    Kept ⟨(c.step slots).2, pre ++ (c.step slots).1 :: post⟩ := by
  have hc : c ∈ pre ++ c :: post := by simp
  have hs : c.phase.Sound (addrs slots) c.callerAddr := (h.sound c hc).2
  have hroom : ¬ Passed index (addrs slots) c.callerAddr kLocalVasCallerSlots := h.not_passed hc
  rcases Call.step_cases hs hroom hown with ⟨p, e, hp, hcount, hadd⟩ | ⟨i, hcount, hadd, hp, h0, e⟩ |
    ⟨idx, hphase, hidx, e⟩ | ⟨idx, hphase, hidx, e⟩
  · rw [e]
    refine ⟨h.filled, h.sound_mid hp fun d hd => (h.sound d hd).2, fun i hi => ?_, ?_, fun i => ?_⟩
    · rw [map_mid]; exact h.known i hi
    · rw [map_mid]; exact h.few
    · have hsame : statOf (pre ++ { c with phase := p } :: post) (addrs slots i) =
          statOf (pre ++ c :: post) (addrs slots i) := statOf_same rfl rfl hcount hadd
      exact (h.stats i).trans hsame.symm
  · rw [e]
    exact h.claim hcount hadd hp h0
  · rw [e]
    have hstat : slots idx = statOf (pre ++ c :: post) (addrs slots idx) := h.stats idx
    refine h.write hidx hidx ?_
    rw [hstat, hidx]
    simp [statOf, countOf_mid, bytesOf_mid, hphase, Phase.counted, Phase.added]
  · rw [e]
    have hstat : slots idx = statOf (pre ++ c :: post) (addrs slots idx) := h.stats idx
    refine h.write hidx ⟨idx, hidx⟩ ?_
    rw [hstat, hidx]
    simp [statOf, countOf_mid, bytesOf_mid, hphase, Phase.counted, Phase.added]

end

theorem Kept.step (h : s.Kept) {act : Act} (hop : s.Allowed act) (hown : s.Undisputed act) : (s.step act).Kept := by
  cases act with
  | call a size => exact h.call hop
  | move n =>
    unfold State.step
    cases hc : s.calls[n]? with
    | none =>
      simp only [hc]
      exact h
    | some c =>
      obtain ⟨hn, hget⟩ := List.getElem?_eq_some_iff.1 hc
      have hsplit : s.calls = s.calls.take n ++ c :: s.calls.drop (n + 1) := by
        rw [← hget, List.getElem_cons_drop, List.take_append_drop]
      have h' : Kept ⟨s.slots, s.calls.take n ++ c :: s.calls.drop (n + 1)⟩ := hsplit ▸ h
      have hset : s.calls.set n (c.step s.slots).1 = s.calls.take n ++ (c.step s.slots).1 :: s.calls.drop (n + 1) := by
        rw [List.set_eq_take_append_cons_drop, if_pos hn]
      simp only [hc]
      rw [hset]
      exact h'.advance (hown c hc)

theorem kept_after {acts : List Act} (h : Run.Guarded State.step (fun s a => s.Allowed a ∧ s.Undisputed a) .empty acts) :
    (after acts).Kept :=
  h.invariant (fun _ _ hk hop => hk.step hop.1 hop.2) Kept.empty

end

end State

/-! ## The report -/

section
variable {e x : TopEntry} {top es : List TopEntry}

theorem length_insertTop (e : TopEntry) : ∀ top, (insertTop e top).length = top.length
  | [] => rfl
  | t :: top => by
    unfold insertTop
    split
    · rw [List.length_dropLast]; rfl
    · rw [List.length_cons, List.length_cons, length_insertTop e top]

theorem insertTop_subperm (e : TopEntry) : ∀ top, List.Subperm (insertTop e top) (e :: top)
  | [] => List.nil_subperm
  | t :: top => by
    unfold insertTop
    split
    · exact (List.dropLast_sublist _).subperm
    · exact ((List.subperm_cons t).2 (insertTop_subperm e top)).trans (List.Perm.swap e t top).subperm

/-- What is entered is larger than something that was there. -/
theorem mem_insertTop : ∀ {top}, x ∈ insertTop e top → x ∈ top ∨ x = e ∧ ∃ t ∈ top, t.bytes < e.bytes
  | t :: top, h => by
    unfold insertTop at h
    split at h
    · rename_i ht
      rcases List.mem_cons.1 (List.dropLast_subset _ h) with rfl | h
      · exact .inr ⟨rfl, t, by simp, ht⟩
      · exact .inl h
    · rcases List.mem_cons.1 h with rfl | h
      · exact .inl (by simp)
      · rcases mem_insertTop h with h | ⟨rfl, u, hu, hlt⟩
        · exact .inl (List.mem_cons_of_mem _ h)
        · exact .inr ⟨rfl, u, List.mem_cons_of_mem _ hu, hlt⟩

/-- The list stays in order, and whatever is not in it is no larger than anything that is. -/
theorem insertTop_sorted : ∀ {top}, top.Pairwise (fun t u => u.bytes ≤ t.bytes) →
    (insertTop e top).Pairwise (fun t u => u.bytes ≤ t.bytes) ∧
      ∀ x ∈ e :: top, x ∈ insertTop e top ∨ ∀ t ∈ insertTop e top, x.bytes ≤ t.bytes
  | [], _ => ⟨List.Pairwise.nil, fun _ _ => .inr (by simp [insertTop])⟩
  | t :: top, h => by
    obtain ⟨ht, htop⟩ := List.pairwise_cons.1 h
    unfold insertTop
    split
    · rename_i het
      have hall : (e :: t :: top).Pairwise (fun t u => u.bytes ≤ t.bytes) := by
        refine List.pairwise_cons.2 ⟨List.forall_mem_cons.2 ⟨het.le, fun u hu => ?_⟩, h⟩
        exact (ht u hu).trans het.le
      have hlast := List.dropLast_append_getLast (List.cons_ne_nil e (t :: top))
      refine ⟨hall.sublist (List.dropLast_sublist _), fun x hx => ?_⟩
      rw [← hlast, List.mem_append, List.mem_singleton] at hx
      rcases hx with hx | rfl
      · exact .inl hx
      · rw [← hlast] at hall
        exact .inr fun u hu => (List.pairwise_append.1 hall).2.2 u hu _ (by simp)
    · rename_i het
      obtain ⟨hsorted, hrest⟩ := insertTop_sorted htop
      refine ⟨List.pairwise_cons.2 ⟨fun u hu => ?_, hsorted⟩, fun x hx => ?_⟩
      · rcases mem_insertTop hu with hu | ⟨rfl, -⟩
        · exact ht u hu
        · exact not_lt.1 het
      · have hxt : x.bytes ≤ t.bytes ∧ (x = t ∨ x ∈ e :: top) := by
          rcases List.mem_cons.1 hx with rfl | hx
          · exact ⟨not_lt.1 het, by simp⟩
          · rcases List.mem_cons.1 hx with rfl | hx
            · exact ⟨le_rfl, .inl rfl⟩
            · exact ⟨ht x hx, by simp [hx]⟩
        rcases hxt with ⟨hle, rfl | hx⟩
        · exact .inl (by simp)
        · rcases hrest x hx with h | h
          · exact .inl (List.mem_cons_of_mem _ h)
          · exact .inr (List.forall_mem_cons.2 ⟨hle, h⟩)

/-- The five largest of the entries `es`. -/
structure Top (es top : List TopEntry) : Prop where
  sub : List.Subperm top (es ++ List.replicate 5 ⟨0, 0, 0⟩)
  length : top.length = 5
  sorted : top.Pairwise fun t u => u.bytes ≤ t.bytes
  rest : ∀ x ∈ es, x ∈ top ∨ ∀ t ∈ top, x.bytes ≤ t.bytes

theorem Top.zero : Top [] (List.replicate 5 ⟨0, 0, 0⟩) :=
  ⟨List.Subperm.refl _, rfl, by simp, by simp⟩

theorem Top.insert (h : Top es top) (e : TopEntry) : Top (e :: es) (insertTop e top) := by
  obtain ⟨hsorted, hrest⟩ := insertTop_sorted (e := e) h.sorted
  refine ⟨(insertTop_subperm e top).trans ((List.subperm_cons e).2 h.sub), (length_insertTop e top).trans h.length, hsorted,
    List.forall_mem_cons.2 ⟨hrest e (by simp), fun x hx => ?_⟩⟩
  rcases h.rest x hx with hx | hx
  · exact hrest x (List.mem_cons_of_mem _ hx)
  · right
    intro t ht
    rcases mem_insertTop ht with ht | ⟨rfl, u, hu, hlt⟩
    · exact hx t ht
    · exact (hx u hu).trans hlt.le

theorem Top.foldl : ∀ (l : List TopEntry) {es top : List TopEntry}, Top es top →
    Top (l.reverse ++ es) (l.foldl (fun top e => insertTop e top) top)
  | [], _, _, h => h
  | e :: l, es, top, h => by
    rw [List.reverse_cons, List.append_assoc]
    exact Top.foldl l (h.insert e)

end

section
variable {slots : Callers} {t : TopEntry}

/-- The entries that the report's loop enters. -/
def entries (slots : Callers) : List TopEntry :=
  ((List.range kLocalVasCallerSlots).filter fun i => (slots i).addr ≠ 0 ∧ 0 < signed (slots i).bytes).map
    fun i => topEntry (slots i)

theorem reportTop_eq (slots : Callers) : reportTop slots =
    (entries slots).foldl (fun top e => insertTop e top) (List.replicate 5 ⟨0, 0, 0⟩) := by
  unfold reportTop entries
  rw [List.foldl_map, List.foldl_filter]
  congr 1
  funext top i
  by_cases h0 : (slots i).addr = 0
  · simp [h0]
  · by_cases hb : signed (slots i).bytes ≤ 0
    · simp [h0, hb, not_lt.2 hb]
    · simp [h0, hb, not_le.1 hb]

theorem top_report (slots : Callers) : Top (entries slots).reverse (reportTop slots) := by
  rw [reportTop_eq]
  have h := Top.foldl (entries slots) Top.zero
  rwa [List.append_nil] at h

theorem mem_entries : t ∈ entries slots ↔
    ∃ i < kLocalVasCallerSlots, (slots i).addr ≠ 0 ∧ 0 < signed (slots i).bytes ∧ topEntry (slots i) = t := by
  simp [entries, and_assoc]

theorem listed_subperm (slots : Callers) : List.Subperm (listed slots) (entries slots) := by
  have hzero : (List.replicate 5 (⟨0, 0, 0⟩ : TopEntry)).filter (fun t => decide (t.addr ≠ 0 ∧ 0 < t.bytes)) = [] := by decide
  have h := (top_report slots).sub.filter fun t => decide (t.addr ≠ 0 ∧ 0 < t.bytes)
  rw [List.filter_append, hzero, List.append_nil] at h
  exact h.trans ((List.filter_sublist).subperm.trans (List.reverse_perm _).subperm)

/-- An entry of the loop has a line, or five others have that are no smaller. -/
theorem listed_or_five (h : t ∈ entries slots) :
    t ∈ listed slots ∨ (listed slots).length = 5 ∧ ∀ u ∈ listed slots, t.bytes ≤ u.bytes := by
  obtain ⟨i, -, h0, hb, e⟩ := mem_entries.1 h
  have htop := top_report slots
  have hpos : 0 < t.bytes := e ▸ hb
  rcases htop.rest t (List.mem_reverse.2 h) with hmem | hall
  · exact .inl (List.mem_filter.2 ⟨hmem, decide_eq_true ⟨e ▸ h0, hpos⟩⟩)
  · -- the places of the list are all taken, and by entries of the loop
    have hfull : listed slots = reportTop slots := by
      refine List.filter_eq_self.2 fun u hu => decide_eq_true ⟨?_, hpos.trans_le (hall u hu)⟩
      have hu' := htop.sub.subset hu
      rw [List.mem_append, List.mem_reverse, List.mem_replicate] at hu'
      rcases hu' with hu' | ⟨-, rfl⟩
      · obtain ⟨j, -, hj, -, rfl⟩ := mem_entries.1 hu'
        exact hj
      · have hle : t.bytes ≤ 0 := hall _ hu
        omega
    right
    rw [hfull]
    exact ⟨htop.length, hall⟩

end

/-! ## Attribution -/

/-- What the invariant says of a state is what the report needs. -/
theorem State.Kept.attributed {s : State} (h : s.Kept) : Attributed s := by
  have hslot : ∀ i, addrs s.slots i ≠ 0 → i < kLocalVasCallerSlots := by
    intro i hi
    obtain ⟨p, hp, -⟩ := h.filled i hi
    exact hp ▸ index_lt _ _
  have htotals : (∀ c ∈ s.calls, c.phase = .returned) → ∀ i, s.slots i = totalsOf s.calls (addrs s.slots i) :=
    fun hdone i => (h.stats i).trans (statOf_returned hdone)
  have hown : (∀ c ∈ s.calls, c.phase = .returned) → ∀ c ∈ s.calls, ∃ i < kLocalVasCallerSlots,
      addrs s.slots i = c.callerAddr := by
    intro hdone c hc
    obtain ⟨hk, hs⟩ := h.sound c hc
    obtain ⟨i, hi⟩ := hs.stored (by rw [hdone c hc]; rfl)
    exact ⟨i, hslot i (hi ▸ hk), hi⟩
  refine ⟨fun i j hi hij => h.filled.unique hi hij, fun hdone c hc => ?_, fun hdone => ⟨?_, fun t ht => ?_, fun c hc hb => ?_⟩⟩
  · obtain ⟨i, hi, hic⟩ := hown hdone c hc
    exact ⟨i, hi, hic ▸ htotals hdone i⟩
  · -- the lines come from different slots, so from different addresses
    have hnodup : ((entries s.slots).map (·.addr)).Nodup := by
      rw [entries, List.map_map]
      refine (List.nodup_range.filter _).map_on fun i hi j _ e => ?_
      have hi' := of_decide_eq_true (List.mem_filter.1 hi).2
      exact h.filled.unique hi'.1 e
    obtain ⟨l, hperm, hsub⟩ := listed_subperm s.slots
    exact (hperm.map _).nodup_iff.1 ((hsub.map _).nodup hnodup)
  · obtain ⟨i, -, hi, -, rfl⟩ := mem_entries.1 ((listed_subperm s.slots).subset ht)
    obtain ⟨c, hc, e⟩ := List.mem_map.1 (h.known i hi)
    refine ⟨c, hc, ?_⟩
    rw [e]
    exact congrArg topEntry (htotals hdone i)
  · obtain ⟨i, hi, hic⟩ := hown hdone c hc
    have hx := htotals hdone i
    rw [hic] at hx
    refine listed_or_five (mem_entries.2 ⟨i, hi, ?_, ?_, congrArg topEntry hx⟩)
    · exact fun h0 => (h.sound c hc).1 (hic.symm.trans h0)
    · rw [hx]; exact hb

open State

/-- In every interleaving of calls with at most 64 addresses in which no exchange is lost to a call of
the same address, every address has one slot, with its calls and bytes in the end. -/
theorem attributed_after {acts : List Act}
    (hacts : Run.Guarded State.step (fun s a => s.Allowed a ∧ s.Undisputed a) .empty acts) : Attributed (after acts) :=
  (kept_after hacts).attributed

/-- Three calls of two addresses with one first slot: the second address loses an exchange to the first. -/
def contention : List Act :=
  [.call 0x401000 4096, .call 0x401400 100, .move 0, .move 1, .move 0, .move 1, .move 0, .move 1, .move 1, .move 1,
    .move 0, .move 1, .call 0x401000 8192, .move 2, .move 2, .move 2]

theorem attributed_contention : Attributed (after contention) := attributed_after (by decide)

/-- Two calls of one address read the empty slot before either claims it. -/
def sameSite : List Act := [.call 0x401000 4096, .call 0x401000 8192, .move 0, .move 1, .move 0, .move 1, .move 1, .move 1]

/-- The loser enters the address a second time. -/
theorem not_attributed_sameSite : Run.Guarded State.step State.Allowed .empty sameSite ∧ ¬ Attributed (after sameSite) := by
  constructor
  · decide
  · intro h
    have hsame := h.once 0 1 (by decide) (by decide)
    cases hsame

end Ts3Vas.LocalVas
