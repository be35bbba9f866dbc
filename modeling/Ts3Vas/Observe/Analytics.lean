/-
The counters of Analytics.cpp: names are found through a cache of the thread, then by a scan of the
table without a lock, and entered under the lock, with the count of the table published last.
Every access to shared memory is a step of its own; the 64-bit sums wrap.
-/
import Mathlib.Tactic
import Mathlib.Data.List.ReduceOption
import Ts3Vas.Lib.Run

namespace Ts3Vas.Analytics

/-! ## Names -/

/-- A C string: the bytes before its terminator. -/
abbrev Name := List ℕ

def kNameIdCacheSlots : ℕ := 64
def kMaxNameLen : ℕ := 63
def maxAnalyticsItems : ℕ := 512

/-- `FastNameHash`: FNV-1a of the first bytes. -/
def fastNameHash (s : Name) : ℕ := (s.take kMaxNameLen).foldl (fun h c => (h ^^^ c) * 16777619 % 2 ^ 32) 2166136261

/-- A valid `NameIdCacheEntry`. -/
structure CacheEntry where
  name : Name
  hash : ℕ
  id : ℕ
  deriving DecidableEq, Repr

/-- `g_counterCache` and its cursor: `none` for an entry that is not valid. -/
structure Cache where
  entries : List (Option CacheEntry)
  cursor : ℕ
  deriving DecidableEq, Repr

def Cache.empty : Cache := ⟨List.replicate kNameIdCacheSlots none, 0⟩

/-- `LookupThreadLocalId`, `none` for -1. -/
def lookupThreadLocalId (cache : Cache) (name : Name) : Option ℕ :=
  if name = [] then none
  else (cache.entries.reduceOption.find? fun e => e.hash = fastNameHash name && e.name = name).map (·.id)

/-- `StoreThreadLocalId`: the next entry in turn, with what of the name fits. -/
def storeThreadLocalId (cache : Cache) (name : Name) (id : ℕ) : Cache :=
  if name = [] then cache
  else ⟨cache.entries.set cache.cursor (some ⟨name.take kMaxNameLen, fastNameHash (name.take kMaxNameLen), id⟩),
    (cache.cursor + 1) % kNameIdCacheSlots⟩

/-! ## IncrementCounter, step by step -/

/-- A call `IncrementCounter(name, value)`, and whether its thread has a TLS array. -/
structure Call where
  thread : ℕ
  name : Name
  value : ℕ
  tls : Bool
  deriving DecidableEq, Repr

/-- What the call does next. `locked` tells the two scans of FindCounterIdNoLock apart. -/
inductive Pc
  | lookup
  /-- The load of `m_counterCount`. -/
  | count (locked : Bool)
  /-- The comparison with entry `i`, of `n`. -/
  | scan (locked : Bool) (n i : ℕ)
  | enter
  /-- The second load of the count, and the test for a full table. -/
  | room
  | writeName (n : ℕ)
  | reset (n : ℕ)
  | publish (n : ℕ)
  | leave (id : Option ℕ)
  | store (id : ℕ)
  | add (id : ℕ)
  deriving DecidableEq, Repr

/-- A call that has returned, with the id that it got; `none` for -1. -/
structure Done where
  call : Call
  id : Option ℕ
  deriving DecidableEq, Repr

/-- The tables, the threads, and which calls were made and are done. -/
structure Counters where
  names : ℕ → Name
  count : ℕ
  values : ℕ → ℕ
  lock : Option ℕ
  threads : ℕ → Option (Call × Pc)
  caches : ℕ → Cache
  calls : List Call
  done : List Done

inductive Act
  | call (c : Call)
  | move (thread : ℕ)

namespace Counters

/-- `FindCounterIdNoLock` on a table that stands still. -/
def findCounterId (s : Counters) (name : Name) : Option ℕ := (List.range s.count).find? fun i => s.names i = name

/-- `GetCounterValue`. -/
def getCounterValue (s : Counters) (name : Name) : ℕ :=
  match s.findCounterId name with
  | none => 0
  | some id => s.values id

def goto (s : Counters) (c : Call) (pc : Pc) : Counters :=
  { s with threads := Function.update s.threads c.thread (some (c, pc)) }

def finish (s : Counters) (c : Call) (id : Option ℕ) : Counters :=
  { s with threads := Function.update s.threads c.thread none, done := s.done ++ [⟨c, id⟩] }

/-- An id that was found or entered goes to the thread's cache, if it has one. -/
def resolved (s : Counters) (c : Call) (id : ℕ) : Counters := s.goto c (if c.tls then .store id else .add id)

def advance (s : Counters) (c : Call) : Pc → Counters
  | .lookup =>
    if c.name = [] then s.finish c none
    else match if c.tls then lookupThreadLocalId (s.caches c.thread) c.name else none with
    | some id => s.goto c (.add id)
    | none => s.goto c (.count false)
  | .count locked => s.goto c (.scan locked s.count 0)
  | .scan locked n i =>
    if i < n then
      if s.names i = c.name then if locked then s.goto c (.leave (some i)) else s.resolved c i
      else s.goto c (.scan locked n (i + 1))
    else s.goto c (if locked then .room else .enter)
  | .enter => { s with lock := some c.thread }.goto c (.count true)
  | .room => s.goto c (if maxAnalyticsItems ≤ s.count then .leave none else .writeName s.count)
  | .writeName n => { s with names := Function.update s.names n c.name }.goto c (.reset n)
  | .reset n => { s with values := Function.update s.values n 0 }.goto c (.publish n)
  | .publish n => { s with count := n + 1 }.goto c (.leave (some n))
  | .leave id =>
    let s := { s with lock := none }
    match id with
    | some id => s.resolved c id
    | none => s.finish c none
  | .store id =>
    { s with caches := Function.update s.caches c.thread (storeThreadLocalId (s.caches c.thread) c.name id) }.goto c (.add id)
  | .add id => { s with values := Function.update s.values id ((s.values id + c.value) % 2 ^ 64) }.finish c (some id)

def step (s : Counters) : Act → Counters
  | .call c => { s with calls := s.calls ++ [c] }.goto c .lookup
  | .move thread =>
    match s.threads thread with
    | none => s
    | some (c, pc) => s.advance c pc

/-- A thread is in one call at a time, with a name that fits and is one of `N`; it waits for the lock. -/
def Allowed (N : Finset Name) (s : Counters) : Act → Prop
  | .call c => s.threads c.thread = none ∧ c.name ∈ N ∧ c.name ≠ [] ∧ c.name.length ≤ kMaxNameLen
  | .move thread => ∀ p ∈ s.threads thread, p.2 = .enter → s.lock = none

instance (N : Finset Name) (s : Counters) : (act : Act) → Decidable (s.Allowed N act)
  | .call _ => inferInstanceAs (Decidable (_ ∧ _))
  | .move thread => inferInstanceAs (Decidable (∀ p ∈ s.threads thread, p.2 = .enter → s.lock = none))

/-- A new `Analytics`. -/
def start : Counters := ⟨fun _ => [], 0, fun _ => 0, none, fun _ => none, fun _ => .empty, [], []⟩

abbrev Run (N : Finset Name) (acts : List Act) : Prop := Run.Guarded step (Allowed N) start acts

abbrev after (acts : List Act) : Counters := Run.after step start acts

/-! ## The invariant -/

/-- The table has the name under the id, for good. -/
def Known (s : Counters) (name : Name) (id : ℕ) : Prop := id < s.count ∧ s.names id = name

/-- The first `n` entries are of other names. -/
def Absent (s : Counters) (name : Name) (n : ℕ) : Prop := ∀ j < n, s.names j ≠ name

end Counters

/-- The call is in the critical section. -/
def Pc.held : Pc → Bool
  | .count locked | .scan locked _ _ => locked
  | .room | .writeName _ | .reset _ | .publish _ | .leave _ => true
  | .lookup | .enter | .store _ | .add _ => false

/-- What a call knows of the table. -/
def Pc.Sound (s : Counters) (c : Call) : Pc → Prop
  | .lookup | .count _ | .enter => True
  | .scan locked n i => i ≤ n ∧ n ≤ s.count ∧ (locked = true → n = s.count) ∧ s.Absent c.name i
  | .room => s.Absent c.name s.count
  | .writeName n => n = s.count ∧ s.Absent c.name n
  | .reset n => n = s.count ∧ s.Absent c.name n ∧ s.names n = c.name
  | .publish n => n = s.count ∧ s.Absent c.name n ∧ s.names n = c.name ∧ s.values n = 0
  | .leave id => ∃ i, id = some i ∧ s.Known c.name i
  | .store i | .add i => s.Known c.name i

namespace Counters

/-- What was added under a name. -/
def sumOf (calls : List Call) (name : Name) : ℕ := ((calls.filter (·.name = name)).map (·.value)).sum

/-- The call that a thread is in. -/
def pending (s : Counters) (t : ℕ) : List Call := ((s.threads t).map (·.1)).toList

/-- What holds of a thread's call. -/
structure Fine (N : Finset Name) (s : Counters) (t : ℕ) (c : Call) (pc : Pc) : Prop where
  own : c.thread = t
  mem : c.name ∈ N
  ne : c.name ≠ []
  len : c.name.length ≤ kMaxNameLen
  sound : pc.Sound s c
  lock : pc.held = true → s.lock = some t

/-- What holds of the tables. -/
structure Base (N : Finset Name) (s : Counters) : Prop where
  inj : ∀ i j, i < s.count → j < s.count → s.names i = s.names j → i = j
  mem : ∀ i < s.count, s.names i ∈ N
  cache : ∀ t e, some e ∈ (s.caches t).entries → s.Known e.name e.id
  done : ∀ d ∈ s.done, ∃ i, d.id = some i ∧ s.Known d.call.name i
  sums : ∀ i < s.count, s.values i = sumOf (s.done.map (·.call)) (s.names i) % 2 ^ 64

/-- The invariant of every run. -/
structure Kept (N : Finset Name) (s : Counters) : Prop extends Base N s where
  threads : ∀ t c pc, s.threads t = some (c, pc) → Fine N s t c pc
  calls : ∀ t, s.calls.filter (·.thread = t) = (s.done.map (·.call)).filter (·.thread = t) ++ s.pending t

section
variable {N : Finset Name} {s u : Counters} {c : Call} {pc : Pc}

/-- The table only grows, and its entries stay. -/
structure Grows (s u : Counters) : Prop where
  count : s.count ≤ u.count
  names : ∀ i < s.count, u.names i = s.names i

theorem Known.grow (hg : Grows s u) {name : Name} {i : ℕ} (h : s.Known name i) : u.Known name i :=
  ⟨h.1.trans_le hg.count, (hg.names i h.1).trans h.2⟩

theorem Absent.grow (hg : Grows s u) {name : Name} {n : ℕ} (hn : n ≤ s.count) (h : s.Absent name n) : u.Absent name n := by
  intro j hj
  rw [hg.names j (by omega)]
  exact h j hj

/-- Outside the critical section a call knows only what stays. -/
theorem Sound.grow (hg : Grows s u) (hh : pc.held = false) (h : pc.Sound s c) : pc.Sound u c := by
  cases pc with
  | scan locked n i =>
    obtain ⟨h1, h2, -, h4⟩ := h
    have hl : locked = false := hh
    subst hl
    exact ⟨h1, h2.trans hg.count, fun h => absurd h Bool.false_ne_true, h4.grow hg (h1.trans h2)⟩
  | store i => exact Known.grow hg h
  | add i => exact Known.grow hg h
  | lookup => trivial
  | count => trivial
  | enter => trivial
  | room => cases hh
  | writeName => cases hh
  | reset => cases hh
  | publish => cases hh
  | leave => cases hh

/-- A change of one published value is seen by no call's knowledge. -/
theorem Sound.add {i v : ℕ} (hi : i < s.count) (h : pc.Sound s c) :
    pc.Sound { s with values := Function.update s.values i v } c := by
  cases pc with
  | publish n =>
    obtain ⟨h1, h2, h3, h4⟩ := h
    refine ⟨h1, h2, h3, ?_⟩
    simp only
    rw [Function.update_of_ne (by omega)]
    exact h4
  | lookup => trivial
  | count => trivial
  | enter => trivial
  | scan => exact h
  | room => exact h
  | writeName => exact h
  | reset => exact h
  | leave => exact h
  | store => exact h
  | add => exact h

/-- While a thread holds the lock, no other is in the critical section. -/
theorem Kept.not_held (h : Kept N s) {t t' : ℕ} (hl : s.lock = some t) (hne : t' ≠ t) (ht : s.threads t' = some (c, pc)) :
    pc.held = false := by
  rw [Bool.eq_false_iff]
  intro hh
  have := (h.threads t' c pc ht).lock hh
  rw [hl] at this
  exact hne (Option.some.inj this).symm

/-- A thread goes on with its call. -/
theorem goto_kept (hb : Base N u) (hthreads : ∀ t c' pc', t ≠ c.thread → u.threads t = some (c', pc') → Fine N u t c' pc')
    (hcalls : ∀ t, u.calls.filter (·.thread = t) = (u.done.map (·.call)).filter (·.thread = t) ++ u.pending t)
    (hc : ∃ pc', u.threads c.thread = some (c, pc')) (hfine : Fine N u c.thread c pc) : Kept N (u.goto c pc) := by
  refine ⟨⟨hb.inj, hb.mem, hb.cache, hb.done, hb.sums⟩, fun t c' pc' ht => ?_, fun t => ?_⟩
  · by_cases htc : t = c.thread
    · subst htc
      simp only [goto, Function.update_self, Option.some.injEq, Prod.mk.injEq] at ht
      obtain ⟨rfl, rfl⟩ := ht
      exact ⟨hfine.own, hfine.mem, hfine.ne, hfine.len, hfine.sound, hfine.lock⟩
    · simp only [goto, Function.update_of_ne htc] at ht
      obtain ⟨h1, h2, h3, h4, h5, h6⟩ := hthreads t c' pc' htc ht
      exact ⟨h1, h2, h3, h4, h5, h6⟩
  · have hp : (u.goto c pc).pending t = u.pending t := by
      obtain ⟨pc', hc⟩ := hc
      by_cases htc : t = c.thread
      · subst htc
        simp [pending, goto, hc]
      · simp [pending, goto, Function.update_of_ne htc]
    rw [hp]
    exact hcalls t

/-- What a call knows depends on the tables alone. -/
theorem Sound.congr (hcount : u.count = s.count) (hnames : u.names = s.names) (hvalues : u.values = s.values)
    (h : pc.Sound s c) : pc.Sound u c := by
  revert h
  cases pc <;> simp [Pc.Sound, Known, Absent, hcount, hnames, hvalues]

/-- A step that leaves the published entries as they are. -/
theorem Base.congr (hb : Base N s) (hcount : u.count = s.count) (hnames : ∀ i < s.count, u.names i = s.names i)
    (hvalues : ∀ i < s.count, u.values i = s.values i) (hcaches : u.caches = s.caches) (hdone : u.done = s.done) :
    Base N u := by
  have hg : Grows s u := ⟨hcount.ge, hnames⟩
  constructor
  · intro i j hi hj hij
    rw [hcount] at hi hj
    rw [hnames i hi, hnames j hj] at hij
    exact hb.inj i j hi hj hij
  · intro i hi
    rw [hcount] at hi
    rw [hnames i hi]
    exact hb.mem i hi
  · intro t e he
    rw [hcaches] at he
    exact (hb.cache t e he).grow hg
  · intro d hd
    rw [hdone] at hd
    obtain ⟨i, h1, h2⟩ := hb.done d hd
    exact ⟨i, h1, h2.grow hg⟩
  · intro i hi
    rw [hcount] at hi
    rw [hvalues i hi, hnames i hi, hdone]
    exact hb.sums i hi

/-- A step of the thread's own. -/
theorem Kept.goto (h : Kept N s) (ht : s.threads c.thread = some (c, pc)) {pc' : Pc} (hs : pc'.Sound s c)
    (hh : pc'.held = true → pc.held = true) : Kept N (s.goto c pc') := by
  have hf := h.threads _ _ _ ht
  exact goto_kept h.toBase (fun t c' pc' _ ht' => h.threads t c' pc' ht') h.calls ⟨pc, ht⟩
    ⟨rfl, hf.mem, hf.ne, hf.len, hs, fun h' => hf.lock (hh h')⟩

/-- A step in the critical section; the others are outside and see the table grow. -/
theorem Kept.locked (h : Kept N s) (ht : s.threads c.thread = some (c, pc)) (hheld : pc.held = true) (hb : Base N u)
    (hg : Grows s u) (hthreads : u.threads = s.threads) (hcalls : u.calls = s.calls) (hdone : u.done = s.done) {pc' : Pc}
    (hs : pc'.Sound u c) (hlock : pc'.held = true → u.lock = s.lock) : Kept N (u.goto c pc') := by
  have hf := h.threads _ _ _ ht
  have hl := hf.lock hheld
  refine goto_kept hb (fun t c' pc'' hne ht' => ?_) (fun t => ?_) ⟨pc, by rw [hthreads, ht]⟩
    ⟨rfl, hf.mem, hf.ne, hf.len, hs, fun h' => (hlock h').trans hl⟩
  · rw [hthreads] at ht'
    have hf' := h.threads t c' pc'' ht'
    have hn := h.not_held hl hne ht'
    exact ⟨hf'.own, hf'.mem, hf'.ne, hf'.len, Sound.grow hg hn hf'.sound, fun h' => by simp [hn] at h'⟩
  · simp only [pending, hthreads, hcalls, hdone]
    exact h.calls t

theorem Kept.resolved (h : Kept N s) (ht : s.threads c.thread = some (c, pc)) {i : ℕ} (hk : s.Known c.name i) :
    Kept N (s.resolved c i) := by
  rw [Counters.resolved]
  split
  · exact h.goto ht hk fun h' => by cases h'
  · exact h.goto ht hk fun h' => by cases h'

/-- The cache of a thread answers as the table does. -/
theorem Base.cached (hb : Base N s) {t i : ℕ} {name : Name} (hl : lookupThreadLocalId (s.caches t) name = some i) :
    s.Known name i := by
  rw [lookupThreadLocalId] at hl
  split at hl
  · cases hl
  · obtain ⟨e, he, rfl⟩ := Option.map_eq_some_iff.1 hl
    have hm := List.mem_of_find?_eq_some he
    have hp := List.find?_some he
    simp only [Bool.and_eq_true, decide_eq_true_eq] at hp
    rw [← hp.2]
    exact hb.cache t e (List.reduceOption_mem_iff.1 hm)

/-- A name that is not in the table finds room there. -/
theorem Base.room (hb : Base N s) {name : Name} (hmem : name ∈ N) (ha : s.Absent name s.count) : s.count < N.card := by
  have hle : (Finset.range s.count).card ≤ (N.erase name).card := by
    apply Finset.card_le_card_of_injOn s.names
    · intro i hi
      have hi : i < s.count := by simpa using hi
      rw [Finset.mem_coe, Finset.mem_erase]
      exact ⟨ha i hi, hb.mem i hi⟩
    · intro i hi j hj hij
      exact hb.inj i j (by simpa using hi) (by simpa using hj) hij
  rw [Finset.card_range, Finset.card_erase_of_mem hmem] at hle
  have := Finset.card_pos.2 ⟨name, hmem⟩
  omega

/-- Nothing was added yet under a name that is not in the table. -/
theorem Base.sumOf_absent (hb : Base N s) {name : Name} (ha : s.Absent name s.count) :
    sumOf (s.done.map (·.call)) name = 0 := by
  have he : (s.done.map (·.call)).filter (·.name = name) = [] := by
    rw [List.filter_eq_nil_iff]
    intro c hc
    obtain ⟨d, hd, rfl⟩ := List.mem_map.1 hc
    obtain ⟨i, -, hi, hn⟩ := hb.done d hd
    have := ha i hi
    simp_all
  rw [sumOf, he]
  simp

/-- The new entry becomes visible when it is complete. -/
theorem Base.publish (hb : Base N s) (hmem : c.name ∈ N) (ha : s.Absent c.name s.count) (hn : s.names s.count = c.name)
    (hv : s.values s.count = 0) : Base N { s with count := s.count + 1 } := by
  have hg : Grows s { s with count := s.count + 1 } := ⟨Nat.le_succ _, fun _ _ => rfl⟩
  constructor
  · intro i j hi hj hij
    simp only at hi hj hij
    rcases Nat.lt_succ_iff_lt_or_eq.1 hi with hi | rfl
    · rcases Nat.lt_succ_iff_lt_or_eq.1 hj with hj | rfl
      · exact hb.inj i j hi hj hij
      · exact absurd (hij.trans hn) (ha i hi)
    · rcases Nat.lt_succ_iff_lt_or_eq.1 hj with hj | rfl
      · exact absurd (hij.symm.trans hn) (ha j hj)
      · rfl
  · intro i hi
    rcases Nat.lt_succ_iff_lt_or_eq.1 hi with hi | rfl
    · exact hb.mem i hi
    · simpa [hn] using hmem
  · intro t e he
    exact (hb.cache t e he).grow hg
  · intro d hd
    obtain ⟨i, h1, h2⟩ := hb.done d hd
    exact ⟨i, h1, h2.grow hg⟩
  · intro i hi
    rcases Nat.lt_succ_iff_lt_or_eq.1 hi with hi | rfl
    · exact hb.sums i hi
    · simp only [hn, hv, hb.sumOf_absent ha, Nat.zero_mod]

/-- A name that fits is kept whole by the cache. -/
theorem Base.store (hb : Base N s) (hlen : c.name.length ≤ kMaxNameLen) {i : ℕ} (hk : s.Known c.name i) :
    Base N { s with caches := Function.update s.caches c.thread (storeThreadLocalId (s.caches c.thread) c.name i) } := by
  refine ⟨hb.inj, hb.mem, fun t e he => ?_, hb.done, hb.sums⟩
  by_cases ht : t = c.thread
  · subst ht
    simp only [Function.update_self, storeThreadLocalId] at he
    split at he
    · exact hb.cache _ e he
    · rcases List.mem_or_eq_of_mem_set he with he | he
      · exact hb.cache _ e he
      · obtain rfl := Option.some.inj he
        change s.Known (c.name.take kMaxNameLen) i
        rwa [List.take_of_length_le hlen]
  · simp only [Function.update_of_ne ht] at he
    exact hb.cache t e he

/-- The addition itself. -/
theorem Kept.add (h : Kept N s) (ht : s.threads c.thread = some (c, pc)) {i : ℕ} (hk : s.Known c.name i) :
    Kept N ({ s with values := Function.update s.values i ((s.values i + c.value) % 2 ^ 64) }.finish c (some i)) := by
  refine ⟨⟨h.inj, h.mem, h.cache, fun d hd => ?_, fun j hj => ?_⟩, fun t c' pc' ht' => ?_, fun t => ?_⟩
  · rcases List.mem_append.1 hd with hd | hd
    · exact h.done d hd
    · obtain rfl := List.mem_singleton.1 hd
      exact ⟨i, rfl, hk⟩
  · have hs : sumOf ((s.done ++ [Done.mk c (some i)]).map (·.call)) (s.names j) =
        sumOf (s.done.map (·.call)) (s.names j) + if c.name = s.names j then c.value else 0 := by
      by_cases hc : c.name = s.names j <;> simp [sumOf, hc]
    simp only [finish] at hj ⊢
    rw [hs]
    by_cases hij : j = i
    · subst hij
      rw [Function.update_self, if_pos hk.2.symm, h.sums j hj, Nat.mod_add_mod]
    · rw [Function.update_of_ne hij, if_neg, Nat.add_zero]
      · exact h.sums j hj
      · intro hc
        exact hij (h.inj j i hj hk.1 (by rw [← hc, hk.2]))
  · by_cases htc : t = c.thread
    · simp [finish, htc] at ht'
    · simp only [finish, Function.update_of_ne htc] at ht'
      have hf := h.threads t c' pc' ht'
      exact ⟨hf.own, hf.mem, hf.ne, hf.len, Sound.add (s := s) hk.1 hf.sound, hf.lock⟩
  · have ht' := h.calls t
    by_cases htc : t = c.thread
    · subst htc
      simpa [finish, pending, ht, List.filter_cons] using ht'
    · simpa [finish, pending, Function.update_of_ne htc, Ne.symm htc, List.filter_cons] using ht'

/-- The comparison with one entry. -/
theorem Kept.scan (h : Kept N s) {locked : Bool} {n i : ℕ} (ht : s.threads c.thread = some (c, .scan locked n i)) :
    Kept N (s.advance c (.scan locked n i)) := by
  have hf := h.threads _ _ _ ht
  obtain ⟨hi, hn, hl, ha⟩ := hf.sound
  rw [advance]
  split
  case isTrue hin =>
    split
    case isTrue heq =>
      have hk : s.Known c.name i := ⟨by omega, heq⟩
      cases locked with
      | true => exact h.goto ht ⟨i, rfl, hk⟩ fun _ => rfl
      | false => exact h.resolved ht hk
    case isFalse hne =>
      refine h.goto ht ⟨hin, hn, hl, fun j hj => ?_⟩ fun h' => h'
      rcases Nat.lt_succ_iff_lt_or_eq.1 hj with hj | rfl
      · exact ha j hj
      · exact hne
  case isFalse hin =>
    cases locked with
    | true =>
      apply h.goto ht _ fun _ => rfl
      have : i = s.count := by have := hl rfl; omega
      subst this
      exact ha
    | false => exact h.goto ht trivial fun h' => by cases h'

/-- The lock is taken; no other call was in the critical section. -/
theorem Kept.enter (h : Kept N s) (ht : s.threads c.thread = some (c, .enter)) (hlock : s.lock = none) :
    Kept N (s.advance c .enter) := by
  have hf := h.threads _ _ _ ht
  have hb : Base N { s with lock := some c.thread } :=
    h.toBase.congr rfl (fun _ _ => rfl) (fun _ _ => rfl) rfl rfl
  refine goto_kept hb (fun t c' pc' _ ht' => ?_) h.calls ⟨.enter, ht⟩ ⟨rfl, hf.mem, hf.ne, hf.len, trivial, fun _ => rfl⟩
  have hf' := h.threads t c' pc' ht'
  exact ⟨hf'.own, hf'.mem, hf'.ne, hf'.len, Sound.congr rfl rfl rfl hf'.sound, fun hh => by simp [hf'.lock hh] at hlock⟩

theorem Kept.leave (h : Kept N s) {id : Option ℕ} (ht : s.threads c.thread = some (c, .leave id)) :
    Kept N (s.advance c (.leave id)) := by
  obtain ⟨i, rfl, hk⟩ := (h.threads _ _ _ ht).sound
  have hb : Base N { s with lock := none } := h.toBase.congr rfl (fun _ _ => rfl) (fun _ _ => rfl) rfl rfl
  have hg : Grows s { s with lock := none } := ⟨le_rfl, fun _ _ => rfl⟩
  simp only [Counters.advance, Counters.resolved]
  split
  · exact h.locked ht rfl hb hg rfl rfl rfl (hk.grow hg) fun h' => by cases h'
  · exact h.locked ht rfl hb hg rfl rfl rfl (hk.grow hg) fun h' => by cases h'

/-- A step of the critical section writes the entry behind the last one. -/
theorem Kept.writes (h : Kept N s) (ht : s.threads c.thread = some (c, pc)) (hheld : pc.held = true)
    (names : ℕ → Name) (values : ℕ → ℕ) (hnames : ∀ i < s.count, names i = s.names i)
    (hvalues : ∀ i < s.count, values i = s.values i) {pc' : Pc}
    (hs : pc'.Sound { s with names := names, values := values } c) :
    Kept N ({ s with names := names, values := values }.goto c pc') :=
  h.locked (u := { s with names := names, values := values }) ht hheld (h.toBase.congr rfl hnames hvalues rfl rfl)
    ⟨le_rfl, hnames⟩ rfl rfl rfl hs fun _ => rfl

theorem Kept.advance (hN : N.card ≤ maxAnalyticsItems) (h : Kept N s) (ht : s.threads c.thread = some (c, pc))
    (hlock : pc = .enter → s.lock = none) : Kept N (s.advance c pc) := by
  have hf := h.threads _ _ _ ht
  have hs := hf.sound
  cases pc with
  | lookup =>
    rw [Counters.advance, if_neg hf.ne]
    cases hl : (if c.tls then lookupThreadLocalId (s.caches c.thread) c.name else none) with
    | none => exact h.goto ht trivial fun h' => by cases h'
    | some id =>
      apply h.goto ht _ fun h' => by cases h'
      split at hl
      · exact h.cached hl
      · cases hl
  | count locked =>
    exact h.goto ht ⟨Nat.zero_le _, le_rfl, fun _ => rfl, fun j hj => absurd hj (Nat.not_lt_zero j)⟩ id
  | scan locked n i => exact h.scan ht
  | enter => exact h.enter ht (hlock rfl)
  | room =>
    have hroom := h.room hf.mem hs
    rw [Counters.advance, if_neg (by omega)]
    exact h.goto ht ⟨rfl, hs⟩ fun _ => rfl
  | writeName n =>
    obtain ⟨rfl, ha⟩ := hs
    have hn : ∀ i < s.count, Function.update s.names s.count c.name i = s.names i :=
      fun i hi => Function.update_of_ne (by omega) _ _
    apply h.writes ht rfl _ s.values hn fun _ _ => rfl
    refine ⟨rfl, fun j hj => ?_, Function.update_self ..⟩
    simp only [hn j hj]
    exact ha j hj
  | reset n =>
    obtain ⟨rfl, ha, hn⟩ := hs
    apply h.writes ht rfl s.names _ (fun _ _ => rfl) fun i hi => Function.update_of_ne (by omega) _ _
    exact ⟨rfl, ha, hn, Function.update_self ..⟩
  | publish n =>
    obtain ⟨rfl, ha, hn, hv⟩ := hs
    apply h.locked ht rfl (h.toBase.publish hf.mem ha hn hv) ⟨Nat.le_succ _, fun _ _ => rfl⟩ rfl rfl rfl _ fun _ => rfl
    exact ⟨s.count, rfl, Nat.lt_succ_self _, hn⟩
  | leave id => exact h.leave ht
  | store i =>
    refine goto_kept (h.toBase.store hf.len hs) (fun t c' pc' _ ht' => ?_) h.calls ⟨_, ht⟩
      ⟨rfl, hf.mem, hf.ne, hf.len, hs, fun h' => by cases h'⟩
    have hf' := h.threads t c' pc' ht'
    exact ⟨hf'.own, hf'.mem, hf'.ne, hf'.len, Sound.congr rfl rfl rfl hf'.sound, hf'.lock⟩
  | add i => exact h.add ht hs

theorem Kept.call (h : Kept N s) (hact : s.Allowed N (.call c)) : Kept N (s.step (.call c)) := by
  obtain ⟨hidle, hmem, hne, hlen⟩ := hact
  refine ⟨⟨h.inj, h.mem, h.cache, h.done, h.sums⟩, fun t c' pc ht => ?_, fun t => ?_⟩
  · by_cases htc : t = c.thread
    · subst htc
      simp only [Counters.step, Counters.goto, Function.update_self, Option.some.injEq, Prod.mk.injEq] at ht
      obtain ⟨rfl, rfl⟩ := ht
      exact ⟨rfl, hmem, hne, hlen, trivial, fun h' => by cases h'⟩
    · simp only [Counters.step, Counters.goto, Function.update_of_ne htc] at ht
      have hf := h.threads t c' pc ht
      exact ⟨hf.own, hf.mem, hf.ne, hf.len, Sound.congr rfl rfl rfl hf.sound, hf.lock⟩
  · have ht := h.calls t
    by_cases htc : t = c.thread
    · subst htc
      simpa [Counters.step, Counters.goto, pending, hidle] using ht
    · simpa [Counters.step, Counters.goto, pending, Function.update_of_ne htc, Ne.symm htc] using ht

/-- One step keeps the invariant. -/
theorem Kept.step (hN : N.card ≤ maxAnalyticsItems) (h : Kept N s) {act : Act} (hact : s.Allowed N act) :
    Kept N (s.step act) := by
  cases act with
  | call c => exact h.call hact
  | move thread =>
    rw [Counters.step]
    cases ht : s.threads thread with
    | none => exact h
    | some p =>
      obtain ⟨c, pc⟩ := p
      obtain rfl := (h.threads _ _ _ ht).own
      exact h.advance hN ht fun hpc => hact (c, pc) ht hpc

theorem start_kept : Kept N start := by
  refine ⟨⟨?_, ?_, ?_, ?_, ?_⟩, ?_, ?_⟩
  · intro i j hi
    exact absurd hi (Nat.not_lt_zero i)
  · intro i hi
    exact absurd hi (Nat.not_lt_zero i)
  · intro t e he
    simp [start, Cache.empty, List.mem_replicate] at he
  · intro d hd
    cases hd
  · intro i hi
    exact absurd hi (Nat.not_lt_zero i)
  · intro t c pc ht
    cases ht
  · intro t
    rfl

/-- The run lemma. -/
theorem kept_after (hN : N.card ≤ maxAnalyticsItems) {acts : List Act} (hacts : Run N acts) : Kept N (after acts) :=
  Run.Guarded.invariant (fun _ _ h hact => h.step hN hact) start_kept hacts

/-- The scan finds the one entry of the name. -/
theorem Known.find (hb : Base N s) {name : Name} {i : ℕ} (h : s.Known name i) : s.findCounterId name = some i := by
  obtain ⟨hi, rfl⟩ := h
  cases hf : s.findCounterId (s.names i) with
  | none =>
    rw [findCounterId, List.find?_eq_none] at hf
    have := hf i (List.mem_range.2 hi)
    simp at this
  | some j =>
    rw [findCounterId] at hf
    have hj := List.mem_range.1 (List.mem_of_find?_eq_some hf)
    have hn : s.names j = s.names i := by simpa using List.find?_some hf
    rw [hb.inj j i hj hi hn]

/-- The counters of a name, or zero, is what the calls that are done added. -/
theorem Base.getCounterValue (hb : Base N s) (name : Name) :
    s.getCounterValue name = sumOf (s.done.map (·.call)) name % 2 ^ 64 := by
  rw [Counters.getCounterValue]
  cases hf : s.findCounterId name with
  | none =>
    have ha : s.Absent name s.count := by
      intro j hj
      rw [findCounterId, List.find?_eq_none] at hf
      simpa using hf j (List.mem_range.2 hj)
    simp only [hb.sumOf_absent ha, Nat.zero_mod]
  | some i =>
    rw [findCounterId] at hf
    have hi := List.mem_range.1 (List.mem_of_find?_eq_some hf)
    have hn : s.names i = name := by simpa using List.find?_some hf
    simp only
    rw [hb.sums i hi, hn]

/-- When every call made has returned, no thread is in one. -/
theorem Kept.idle (h : Kept N s) (hidle : ∀ c ∈ s.calls, s.threads c.thread = none) (t : ℕ) : s.threads t = none := by
  cases ht : s.threads t with
  | none => rfl
  | some p =>
    obtain ⟨c, pc⟩ := p
    have hown := (h.threads t c pc ht).own
    have hmem : c ∈ s.calls.filter (·.thread = t) := by
      rw [h.calls t]
      simp [pending, ht]
    have := hidle c (List.mem_filter.1 hmem).1
    rw [hown, ht] at this
    cases this

/-- Then the calls that are done are all that were made. -/
theorem Kept.all_done (h : Kept N s) (hidle : ∀ c ∈ s.calls, s.threads c.thread = none) :
    s.calls.Perm (s.done.map (·.call)) := by
  rw [List.perm_iff_count]
  intro c
  have ht := h.calls c.thread
  rw [pending, h.idle hidle, Option.map_none, Option.toList_none, List.append_nil] at ht
  have hc : ∀ l : List Call, (l.filter (·.thread = c.thread)).count c = l.count c :=
    fun l => List.count_filter (by simp)
  rw [← hc s.calls, ht, hc]

theorem sumOf_perm {l l' : List Call} (h : l.Perm l') (name : Name) : sumOf l name = sumOf l' name :=
  ((h.filter _).map _).sum_eq

/-- The counters are exact: every call that is done got the one id of its name, the caches answer as the
table does, and once all calls are done each counter reads what was added under its name. -/
theorem exact_after (hN : N.card ≤ maxAnalyticsItems) {acts : List Act} (hacts : Run N acts) :
    (∀ d ∈ (after acts).done, ∃ id, d.id = some id ∧ (after acts).findCounterId d.call.name = some id) ∧
    (∀ d ∈ (after acts).done, ∀ d' ∈ (after acts).done, d.call.name = d'.call.name ↔ d.id = d'.id) ∧
    (∀ t name id, lookupThreadLocalId ((after acts).caches t) name = some id →
      (after acts).findCounterId name = some id) ∧
    ((∀ c ∈ (after acts).calls, (after acts).threads c.thread = none) → ∀ name,
      (after acts).getCounterValue name = sumOf (after acts).calls name % 2 ^ 64) := by
  have h := kept_after hN hacts
  refine ⟨?_, ?_, ?_, ?_⟩
  · intro d hd
    obtain ⟨i, h1, h2⟩ := h.done d hd
    exact ⟨i, h1, h2.find h.toBase⟩
  · intro d hd d' hd'
    obtain ⟨i, hi, hk⟩ := h.done d hd
    obtain ⟨j, hj, hk'⟩ := h.done d' hd'
    rw [hi, hj, Option.some.injEq]
    constructor
    · intro hn
      exact h.inj i j hk.1 hk'.1 (by rw [hk.2, hk'.2, hn])
    · rintro rfl
      rw [← hk.2, hk'.2]
  · intro t name id hl
    exact (h.cached hl).find h.toBase
  · intro hidle name
    rw [h.getCounterValue, sumOf_perm (h.all_done hidle)]

/-- Two threads see a name first, both miss it, and one enters it while the other waits; the first then
finds it in its cache. -/
def firstSeen : List Act :=
  [.call ⟨1, [97], 2, true⟩, .call ⟨2, [97], 2 ^ 64 - 1, false⟩] ++
    [1, 2, 1, 2, 1, 2].map .move ++ List.replicate 10 (.move 1) ++ List.replicate 5 (.move 2) ++
    [.call ⟨1, [97], 5, true⟩, .move 1, .move 1]

theorem exact_firstSeen : (∀ d ∈ (after firstSeen).done, d.id = some 0) ∧ (after firstSeen).getCounterValue [97] = 6 := by
  have hacts : Run {[97]} firstSeen := by decide
  have h := exact_after (N := {[97]}) (by decide) hacts
  have hfind : (after firstSeen).findCounterId [97] = some 0 := by decide
  have hname : ∀ d ∈ (after firstSeen).done, d.call.name = [97] := by decide
  constructor
  · intro d hd
    obtain ⟨id, h1, h2⟩ := h.1 d hd
    rw [hname d hd, hfind] at h2
    rw [h1, h2]
  · rw [h.2.2.2 (by decide)]
    decide

end

end Counters

end Ts3Vas.Analytics
