/-
What MemoryManager.cpp writes down of the slots that it takes from the arena and gives back: the map of the live ones,
the counters by size and by lane, the totals of the tally with its lines, and the streak of failures. The other users
of the arena take and free slots of their own in between.
-/
import Ts3Vas.Alloc.Runs
import Ts3Vas.Lib.Tally
import Ts3Vas.Hook.Bands
import Ts3Vas.Hook.Heap

namespace Ts3Vas.MemoryManager

/-! ## Names of counters -/

inductive ContainmentLane
  | containedA
  | excludedA
  | excludedB
  | excludedC
  | containedB
  | containedC
  | excludedD
  | containedD
  deriving DecidableEq, Repr

/-- `LaneFailTag`; `CreateProxyAllocation` has the same choice once more. -/
def laneFailTag : ContainmentLane → String
  | .excludedA | .excludedB | .excludedC | .excludedD => "Excluded"
  | .containedA | .containedB | .containedC | .containedD => "Contained"

def bucket (size : ℕ) : String :=
  if size < 256 * 1024 then "128to256KB"
  else if size < 512 * 1024 then "256to512KB"
  else if size < 1024 * 1024 then "512KBto1MB"
  else if size < 4 * 1024 * 1024 then "1to4MB"
  else if size < 16 * 1024 * 1024 then "4to16MB"
  else "16MBplus"

/-- `ProxyBucket`, whose tables hold these names. -/
def proxyBucket (kind : String) (size : ℕ) : List Increment := [⟨bandName kind (bucket size), 1⟩]

def proxyBand (size : ℕ) : String :=
  if size < 4 * 1024 then "0to4KB"
  else if size < 64 * 1024 then "4to64KB"
  else if size < 256 * 1024 then "64to256KB"
  else if size < 512 * 1024 then "256to512KB"
  else if size < 1024 * 1024 then "512KBto1MB"
  else if size < 4 * 1024 * 1024 then "1to4MB"
  else if size < 16 * 1024 * 1024 then "4to16MB"
  else "16MBplus"

/-- Why `CreateProxyAllocation` gives up. -/
inductive Reason
  | proxyExhausted
  | nonProxySlot
  | misalignedProxy
  | eagerCommitFail
  deriving DecidableEq, Repr

def Reason.text : Reason → String
  | .proxyExhausted => "ProxyExhausted"
  | .nonProxySlot => "NonProxySlot"
  | .misalignedProxy => "MisalignedProxy"
  | .eagerCommitFail => "EagerCommitFail"

/-- The counters that follow the tally. -/
def Reason.increments (size : ℕ) : Reason → List Increment
  | .proxyExhausted => proxyBucket "PROXY_Alloc_Failed" size ++
      [⟨"PROXY_Allocations_Failed_Proxy", 1⟩, ⟨"PROXY_Allocations_Failed_Bytes", size⟩]
  | .nonProxySlot => ⟨"PROXY_Allocations_Failed_NonProxySlot", 1⟩ :: proxyBucket "PROXY_Alloc_Failed" size
  | .misalignedProxy => ⟨"PROXY_Allocations_Failed_MisalignedProxy", 1⟩ :: proxyBucket "PROXY_Alloc_Failed" size
  | .eagerCommitFail => ⟨"PROXY_Allocations_Failed_EagerCommit", 1⟩ :: proxyBucket "PROXY_Alloc_Failed" size

def recordProxyBandPair (cntPrefix bytePrefix : String) (size : ℕ) : List Increment :=
  [⟨bandName cntPrefix (proxyBand size), 1⟩, ⟨bandName bytePrefix (proxyBand size), size⟩]

/-! ## The account -/

/-- A LONG64 that takes the value: 64-bit arithmetic wraps. -/
@[irreducible] def toLong64 (x : ℤ) : ℤ := x.bmod (2 ^ 64)

/-- `s_proxyCreateReqTotal` and the other three, or their snapshots. -/
structure Totals where
  req : ℤ
  ok : ℤ
  fail : ℤ
  bytes : ℤ
  deriving DecidableEq, Repr

/-- `(unsigned long long)(bytes / (1024 * 1024))`. -/
def toMb (bytes : ℤ) : ℤ := bytes.tdiv (1024 * 1024) % 2 ^ 64

/-- A line of `PROXY_TALLY`. -/
structure TallyLine where
  dReq : ℤ
  dOk : ℤ
  dFail : ℤ
  dMb : ℤ
  req : ℤ
  ok : ℤ
  fail : ℤ
  mb : ℤ
  deriving DecidableEq, Repr

/-- A line of `ALLOC_FAIL`. -/
structure FailLine where
  lane : String
  size : ℕ
  reason : String
  streak : ℕ
  deriving DecidableEq, Repr

structure Account where
  /-- There is an `Analytics`, and a `Logger`. -/
  analytics : Bool
  logger : Bool
  tallyIntervalMs : ℕ
  counted : List Increment
  total : Totals
  snap : Totals
  lastLogTick : ℕ
  allocFailStreak : ℕ
  tallies : List TallyLine
  failures : List FailLine

/-- What a call of `CreateProxyAllocation` is given and told. -/
structure CreateCall where
  thread : ℕ
  /-- `ThreadHasTls`, `CallerIsSelf`. -/
  hasTls : Bool
  self : Bool
  size : ℕ
  lane : ContainmentLane
  /-- There is a floor, and less address space is available. -/
  lowVas : Bool
  /-- `VirtualAlloc` commits the slot. -/
  commit : Bool
  /-- `GetTickCount`. -/
  now : ℕ

namespace Account

def count (a : Account) (incs : List Increment) : Account :=
  if a.analytics then { a with counted := a.counted ++ incs } else a

/-- The three additions to the totals. -/
def request (a : Account) (size : ℕ) (ok : Bool) : Account :=
  { a with total :=
      { req := toLong64 (a.total.req + 1)
        ok := toLong64 (a.total.ok + if ok then 1 else 0)
        fail := toLong64 (a.total.fail + if ok then 0 else 1)
        bytes := toLong64 (a.total.bytes + size) } }

def recordAllocFailForLane (a : Account) (lane : ContainmentLane) (reason : String) (size : ℕ) : Account :=
  let streak := (a.allocFailStreak + 1) % 2 ^ 32
  let tag := bandName "PROXY_Alloc_Fail" (laneFailTag lane)
  let a := { a with allocFailStreak := streak }.count [⟨tag, 1⟩, ⟨bandName tag reason, 1⟩]
  { a with failures := a.failures ++ [⟨laneFailTag lane, size, reason, streak⟩] }

def recordAllocSuccessStreakReset (a : Account) : Account := { a with allocFailStreak := 0 }

def tallyLine (a : Account) : TallyLine where
  dReq := toLong64 (a.total.req - a.snap.req)
  dOk := toLong64 (a.total.ok - a.snap.ok)
  dFail := toLong64 (a.total.fail - a.snap.fail)
  dMb := toMb (toLong64 (a.total.bytes - a.snap.bytes))
  req := a.total.req
  ok := a.total.ok
  fail := a.total.fail
  mb := toMb a.total.bytes

/-- `MaybeLogProxyCreateTally`. -/
def maybeLogTally (a : Account) (now : ℕ) : Account :=
  if !a.logger then a
  else if (now + 2 ^ 32 - a.lastLogTick) % 2 ^ 32 < a.tallyIntervalMs then a
  else { a with lastLogTick := now, snap := a.total, tallies := a.tallies ++ [a.tallyLine] }

/-- A failure. -/
def refuse (a : Account) (c : CreateCall) (reason : Reason) : Account :=
  (((a.request c.size false).recordAllocFailForLane c.lane reason.text c.size).maybeLogTally c.now).count
    (reason.increments c.size)

/-- What follows the entry in the map. -/
def succeed (a : Account) (c : CreateCall) : Account :=
  let tag := bandName "PROXY_Alloc" (laneFailTag c.lane)
  let a := a.count [⟨bandName tag "Count", 1⟩, ⟨bandName tag "Bytes", c.size⟩, ⟨"PROXY_Allocations_Local_Count", 1⟩,
    ⟨"PROXY_Allocations_Local", c.size⟩]
  let a := (a.count (recordProxyBandPair "ProxySize" "ProxyBytes" c.size)).count (proxyBucket "PROXY_Alloc_Succeeded" c.size)
  ((a.request c.size true).recordAllocSuccessStreakReset).maybeLogTally c.now

/-- When the process starts, with an `Analytics`. -/
def start (logger : Bool) (tallyIntervalMs : ℕ) : Account :=
  ⟨true, logger, tallyIntervalMs, [], ⟨0, 0, 0, 0⟩, ⟨0, 0, 0, 0⟩, 0, 0, [], []⟩

end Account

/-! ## The manager -/

structure Manager where
  sys : Sys
  allocations : Allocations
  proxyMaxBytes : ℕ
  /-- `t_lastCreateSelfSkip`, by thread. -/
  lastCreateSelfSkip : ℕ → Bool
  account : Account

/-- What a call comes to. -/
inductive Answer
  | skipped (c : CreateCall)
  | refused (c : CreateCall) (reason : Reason)
  | created (c : CreateCall) (p : ℕ)
  | freed (p size : ℕ)
  | unknown (p : ℕ)

/-- The pointer that `CreateProxyAllocation` returns, 0 for null, and 1 for the `true` of `FreeProxyAllocation`. -/
def Answer.result : Answer → ℕ
  | .created _ p => p
  | .freed .. => 1
  | .skipped _ | .refused .. | .unknown _ => 0

namespace Manager

def count (m : Manager) (incs : List Increment) : Manager := { m with account := m.account.count incs }

def setSelfSkip (m : Manager) (c : CreateCall) (skip : Bool) : Manager :=
  if c.hasTls then { m with lastCreateSelfSkip := Function.update m.lastCreateSelfSkip c.thread skip } else m

def refuse (m : Manager) (c : CreateCall) (reason : Reason) : Answer × Manager :=
  (.refused c reason, { m with account := m.account.refuse c reason })

/-- `m_proxyAllocator.Free`. -/
def arenaFree (m : Manager) (p size : ℕ) : Manager := { m with sys := m.sys.step (.free ⟨p, size⟩) }

/-- From the call of `Allocate` on. -/
def carve (m : Manager) (c : CreateCall) : Answer × Manager :=
  let fromTop := m.sys.alloc.prefersTopDown c.size
  let p := (m.sys.alloc.allocate c.size fromTop).1
  let m := { m with sys := m.sys.step (.allocate c.size fromTop) }
  if p = 0 then m.refuse c .proxyExhausted
  else if !m.sys.alloc.isProxyAddress p then (m.arenaFree p c.size).refuse c .nonProxySlot
  else if p % pageSize ≠ 0 then (m.arenaFree p c.size).refuse c .misalignedProxy
  else if !c.commit then (m.arenaFree p c.size).refuse c .eagerCommitFail
  else
    (.created c p, { m with allocations := m.allocations.insert p ⟨p, c.size⟩, account := m.account.succeed c })

def createProxyAllocation (m : Manager) (c : CreateCall) : Answer × Manager :=
  let m := m.setSelfSkip c false
  if c.self then
    (.skipped c, (m.setSelfSkip c true).count [⟨"PROXY_Skipped_SelfAlloc", 1⟩])
  else if m.proxyMaxBytes ≠ 0 ∧ m.proxyMaxBytes ≤ c.size then
    (.skipped c, (m.setSelfSkip c true).count [⟨"PROXY_Skipped_TooBig", 1⟩])
  else
    let m := m.count (proxyBucket "PROXY_Alloc_Request" c.size)
    (if c.lowVas then m.count [⟨"PROXY_LowVAS_PressureSignal", 1⟩] else m).carve c

def freeProxyAllocation (m : Manager) (p : ℕ) : Answer × Manager :=
  if !m.sys.alloc.isProxyAddress p then (.unknown p, m)
  else match m.allocations.lookup p with
  | none => (.unknown p, m)
  | some r => (.freed p r.proxySize, ({ m with allocations := m.allocations.erase p }.arenaFree p r.proxySize).count
      (recordProxyBandPair "FreeSize" "FreeBytes" r.proxySize))

/-- The calls that `CreateProxyAllocation` declines at once. -/
def skips (m : Manager) (c : CreateCall) : Bool := c.self || decide (m.proxyMaxBytes ≠ 0 ∧ m.proxyMaxBytes ≤ c.size)

inductive Event
  | create (c : CreateCall)
  | free (p : ℕ)
  /-- The redirects of virtual memory and the shards, which take and free slots themselves. -/
  | other (op : Op)

def step (m : Manager) : Event → Manager × List Answer
  | .create c => let (a, m) := m.createProxyAllocation c; (m, [a])
  | .free p => let (a, m) := m.freeProxyAllocation p; (m, [a])
  | .other op => ({ m with sys := m.sys.step op }, [])

/-- Not a slot of the manager. -/
def Foreign (m : Manager) : Op → Prop
  | .allocate .. => True
  | .free slot => slot.addr ∉ m.allocations

instance (m : Manager) : (op : Op) → Decidable (m.Foreign op)
  | .allocate .. => inferInstanceAs (Decidable True)
  | .free _ => inferInstanceAs (Decidable (¬ _))

/-- The sizes asked for are positive and do not wrap when they are rounded; the others free only slots of their own. -/
def Allowed (m : Manager) : Event → Prop
  | .create c => m.skips c = false → m.sys.WellFormed (.allocate c.size true)
  | .free _ => True
  | .other op => m.sys.WellFormed op ∧ m.Foreign op

instance (m : Manager) : (e : Event) → Decidable (m.Allowed e)
  | .create _ => inferInstanceAs (Decidable (_ → _))
  | .free _ => inferInstanceAs (Decidable True)
  | .other _ => inferInstanceAs (Decidable (_ ∧ _))

/-- On a fresh arena. -/
def start (arena : ProxyAllocator) (proxyMaxBytes : ℕ) (logger : Bool) (tallyIntervalMs : ℕ) : Manager :=
  ⟨⟨arena, []⟩, ∅, proxyMaxBytes, fun _ => false, .start logger tallyIntervalMs⟩

abbrev Run (m : Manager) (es : List Event) : Prop := Run.Guarded (Run.state step) Allowed m es

abbrev after (m : Manager) (es : List Event) : Manager := Run.after (Run.state step) m es

abbrev answers (m : Manager) (es : List Event) : List Answer := Run.emitted step m es

end Manager

/-! ## Slots and their addresses -/

/-- Different live slots have different addresses. -/
theorem addrs_nodup {s : Sys} (hs : s.Proper) : (s.live.map Slot.addr).Nodup := by
  have hpw := hs.pairwise
  rw [Sys.spans, List.pairwise_map] at hpw
  rw [List.Nodup, List.pairwise_map]
  refine hpw.imp_of_mem fun {a b} ha hb hapart heq => ?_
  have hpos : ∀ x ∈ s.live, 0 < alignUp x.size s.alloc.allocGranularity := fun x hx =>
    (Pieces.forall_all.1 hs.sorted.pos).1 _ (List.mem_map_of_mem hx)
  have hin : ∀ x ∈ s.live, x.addr ∈ x.span s.alloc.allocGranularity := by
    intro x hx
    have := hpos x hx
    simp only [Slot.span, Span.mem_mk]
    omega
  exact hapart a.addr (hin a ha) (heq ▸ hin b hb)

/-- A slot that is granted lies in the arena and on a page, at an address that no live slot has. -/
theorem granted {s : Sys} (hs : s.Proper) {size : ℕ} {fromTop : Bool} (hop : s.WellFormed (.allocate size fromTop))
    (hp : (s.alloc.allocate size fromTop).1 ≠ 0) :
    (s.step (.allocate size fromTop)).alloc.isProxyAddress (s.alloc.allocate size fromTop).1 ∧
      (s.alloc.allocate size fromTop).1 % pageSize = 0 ∧ ∀ x ∈ s.live, x.addr ≠ (s.alloc.allocate size fromTop).1 := by
  have ht := hs.step hop
  have hmem := Sys.mem_granted hp
  have hpos := (Pieces.forall_all.1 ht.sorted.pos).1 _ (List.mem_map_of_mem hmem)
  refine ⟨ht.isProxyAddress hmem hpos, ?_, ?_⟩
  · exact Nat.mod_eq_zero_of_dvd (ht.books.placed.gran.page_dvd.trans (ht.inArena hmem).lo_dvd)
  · have hnodup := addrs_nodup ht
    rw [Sys.live_granted hp, List.map_append, List.nodup_append] at hnodup
    exact fun x hx => hnodup.2.2 x.addr (List.mem_map_of_mem hx) _ (by simp)

namespace Manager

/-- Every record is of a live slot, with the size that was asked for. -/
structure Kept (m : Manager) : Prop where
  proper : m.sys.Proper
  live : ∀ e ∈ m.allocations.entries, (⟨e.1, e.2.proxySize⟩ : Slot) ∈ m.sys.live

/-- A slot that the manager takes and cannot use goes back at once. -/
theorem Kept.returned {m : Manager} (h : m.Kept) {c : CreateCall} {fromTop : Bool}
    (hop : m.sys.WellFormed (.allocate c.size fromTop)) (hp : (m.sys.alloc.allocate c.size fromTop).1 ≠ 0) (a : Account) :
    Kept { m with
      sys := (m.sys.step (.allocate c.size fromTop)).step (.free ⟨(m.sys.alloc.allocate c.size fromTop).1, c.size⟩)
      account := a } := by
  have hperm := (h.proper.returned hp).2.2
  have hfree : (m.sys.step (.allocate c.size fromTop)).WellFormed (.free ⟨(m.sys.alloc.allocate c.size fromTop).1, c.size⟩) :=
    Sys.mem_granted hp
  exact ⟨(h.proper.step hop).step hfree, fun e he => hperm.mem_iff.2 (h.live e he)⟩

/-- What comes of a call that goes to the arena. The two guards against a slot outside the arena and one off the
pages never act. -/
theorem Kept.carve {m : Manager} (h : m.Kept) {c : CreateCall} (hop : m.sys.WellFormed (.allocate c.size true)) :
    (∃ reason, (reason = .proxyExhausted ∨ reason = .eagerCommitFail) ∧ (m.carve c).1 = .refused c reason ∧
      (m.carve c).2.Kept ∧ (m.carve c).2.allocations = m.allocations ∧
      (m.carve c).2.account = m.account.refuse c reason) ∨
    ∃ p, p ≠ 0 ∧ p ∉ m.allocations ∧ (m.carve c).1 = .created c p ∧ (m.carve c).2.Kept ∧
      (m.carve c).2.allocations = m.allocations.insert p ⟨p, c.size⟩ ∧ (m.carve c).2.account = m.account.succeed c := by
  have hop' : m.sys.WellFormed (.allocate c.size (m.sys.alloc.prefersTopDown c.size)) := hop
  have ht := h.proper.step hop'
  unfold Manager.carve
  dsimp only
  by_cases hp : (m.sys.alloc.allocate c.size (m.sys.alloc.prefersTopDown c.size)).1 = 0
  · rw [if_pos hp]
    refine .inl ⟨_, .inl rfl, rfl, ⟨ht, fun e he => ?_⟩, rfl, rfl⟩
    have hlive := h.live e he
    simp only [refuse, Sys.step_allocate, if_pos hp]
    exact hlive
  obtain ⟨hin, hpage, hnew⟩ := granted h.proper hop' hp
  rw [if_neg hp, if_neg (by simp [hin]), if_neg (by simp [hpage])]
  by_cases hc : c.commit
  · rw [if_neg (by simp [hc])]
    have hfresh : (m.sys.alloc.allocate c.size (m.sys.alloc.prefersTopDown c.size)).1 ∉ m.allocations := by
      intro hmem
      obtain ⟨r, hr⟩ := Option.isSome_iff_exists.1 (AList.lookup_isSome.2 hmem)
      exact hnew _ (h.live _ (AList.mem_lookup_iff.1 hr)) rfl
    refine .inr ⟨_, hp, hfresh, rfl, ⟨ht, fun e he => ?_⟩, rfl, rfl⟩
    dsimp only at he ⊢
    rw [AList.entries_insert_of_notMem hfresh, List.mem_cons] at he
    rcases he with rfl | he
    · exact Sys.mem_granted hp
    · rw [Sys.live_granted hp]
      exact List.mem_append_left _ (h.live e he)
  · rw [if_pos (by simp [hc])]
    exact .inl ⟨_, .inr rfl, rfl, h.returned hop' hp _, rfl, rfl⟩

/-- Another slot survives the free of one. -/
theorem mem_freed {s : Sys} {slot x : Slot} (hx : x ∈ s.live) (hne : x ≠ slot) : x ∈ (s.step (.free slot)).live :=
  (List.mem_erase_of_ne hne).2 hx

theorem perm_erase_entries {t : Allocations} {p : ℕ} {r : ProxyAllocRecord} (h : t.lookup p = some r) :
    t.entries.Perm (⟨p, r⟩ :: (t.erase p).entries) := by
  have hmem : p ∈ t.entries.keys := List.mem_keys_of_mem (AList.mem_lookup_iff.1 h)
  obtain ⟨b, l, l', -, he, hk⟩ := List.exists_of_kerase hmem
  have hb : b = r := by
    have hlook : t.lookup p = some b := AList.mem_lookup_iff.2 (by rw [he]; simp)
    exact Option.some.inj (hlook.symm.trans h)
  subst hb
  change t.entries.Perm (⟨p, b⟩ :: t.entries.kerase p)
  rw [hk, he]
  exact List.perm_middle

/-- What comes of a free: the pointer has a record, whose slot goes back whole, or nothing happens. -/
theorem Kept.free {m : Manager} (h : m.Kept) (p : ℕ) :
    (p ∉ m.allocations ∧ m.freeProxyAllocation p = (.unknown p, m)) ∨
    ∃ r, m.allocations.lookup p = some r ∧ (m.freeProxyAllocation p).1 = .freed p r.proxySize ∧
      (m.freeProxyAllocation p).2.Kept ∧ (m.freeProxyAllocation p).2.allocations = m.allocations.erase p ∧
      (m.freeProxyAllocation p).2.account =
        m.account.count (recordProxyBandPair "FreeSize" "FreeBytes" r.proxySize) := by
  unfold freeProxyAllocation
  cases hr : m.allocations.lookup p with
  | none =>
    refine .inl ⟨AList.lookup_eq_none.1 hr, ?_⟩
    split <;> rfl
  | some r =>
    have hmem := h.live _ (AList.mem_lookup_iff.1 hr)
    have hpos := (Pieces.forall_all.1 h.proper.sorted.pos).1 _ (List.mem_map_of_mem hmem)
    have hin := h.proper.isProxyAddress hmem hpos
    have hfree : m.sys.WellFormed (.free ⟨p, r.proxySize⟩) := hmem
    rw [if_neg (by simpa using hin)]
    refine .inr ⟨r, rfl, rfl, ⟨h.proper.step hfree, fun e he => ?_⟩, rfl, rfl⟩
    have hnodup := ((perm_erase_entries hr).map Sigma.fst).nodup_iff.1 m.allocations.nodupKeys
    refine mem_freed (h.live e ((perm_erase_entries hr).mem_iff.2 (List.mem_cons_of_mem _ he))) fun heq => ?_
    exact (List.nodup_cons.1 hnodup).1 (List.mem_map.2 ⟨e, he, congrArg Slot.addr heq⟩)

theorem Kept.other {m : Manager} (h : m.Kept) {op : Op} (hop : m.sys.WellFormed op)
    (hown : m.Foreign op) : Kept { m with sys := m.sys.step op } := by
  refine ⟨h.proper.step hop, fun e he => ?_⟩
  have hlive := h.live e he
  cases op with
  | allocate size fromTop =>
    dsimp only
    rw [Sys.step_allocate]
    dsimp only
    split
    · exact hlive
    · exact List.mem_append_left _ hlive
  | free slot =>
    refine mem_freed hlive fun heq => hown ?_
    rw [← heq]
    exact AList.mem_keys.2 (List.mem_keys_of_mem he)

/-- The counters before the arena is asked. -/
def ask (a : Account) (c : CreateCall) : Account :=
  if c.lowVas then (a.count (proxyBucket "PROXY_Alloc_Request" c.size)).count [⟨"PROXY_LowVAS_PressureSignal", 1⟩]
  else a.count (proxyBucket "PROXY_Alloc_Request" c.size)

def skipName (c : CreateCall) : String := if c.self then "PROXY_Skipped_SelfAlloc" else "PROXY_Skipped_TooBig"

/-- Neither the flag of a thread nor what is counted is looked at by the rest of a call. -/
theorem Kept.skip {m : Manager} (h : m.Kept) (c : CreateCall) (skip : Bool) (a : Account) :
    Kept { m.setSelfSkip c skip with account := a } ∧ (m.setSelfSkip c skip).allocations = m.allocations ∧
      (m.setSelfSkip c skip).account = m.account ∧ (m.setSelfSkip c skip).sys = m.sys ∧
      (m.setSelfSkip c skip).proxyMaxBytes = m.proxyMaxBytes := by
  unfold setSelfSkip
  split <;> exact ⟨⟨h.proper, h.live⟩, rfl, rfl, rfl, rfl⟩

/-- What comes of a call of `CreateProxyAllocation`. -/
theorem Kept.create {m : Manager} (h : m.Kept) {c : CreateCall}
    (hop : m.skips c = false → m.sys.WellFormed (.allocate c.size true)) :
    (m.skips c ∧ (m.createProxyAllocation c).1 = .skipped c ∧ (m.createProxyAllocation c).2.Kept ∧
      (m.createProxyAllocation c).2.allocations = m.allocations ∧
      (m.createProxyAllocation c).2.account = m.account.count [⟨skipName c, 1⟩]) ∨
    (∃ reason, (reason = .proxyExhausted ∨ reason = .eagerCommitFail) ∧
      (m.createProxyAllocation c).1 = .refused c reason ∧ (m.createProxyAllocation c).2.Kept ∧
      (m.createProxyAllocation c).2.allocations = m.allocations ∧
      (m.createProxyAllocation c).2.account = (ask m.account c).refuse c reason) ∨
    ∃ p, p ≠ 0 ∧ p ∉ m.allocations ∧ (m.createProxyAllocation c).1 = .created c p ∧
      (m.createProxyAllocation c).2.Kept ∧
      (m.createProxyAllocation c).2.allocations = m.allocations.insert p ⟨p, c.size⟩ ∧
      (m.createProxyAllocation c).2.account = (ask m.account c).succeed c := by
  obtain ⟨-, hal, hac, hsys, hmax⟩ := h.skip c false m.account
  have hk : (m.setSelfSkip c false).Kept := ⟨hsys ▸ h.proper, hsys ▸ hal ▸ h.live⟩
  unfold createProxyAllocation
  dsimp only
  by_cases hself : c.self = true
  · obtain ⟨hk', hal', hac', -, -⟩ := hk.skip c true (((m.setSelfSkip c false).setSelfSkip c true).account.count
      [⟨"PROXY_Skipped_SelfAlloc", 1⟩])
    rw [if_pos hself]
    refine .inl ⟨by rw [skips, hself]; rfl, rfl, hk', hal'.trans hal, ?_⟩
    rw [skipName, if_pos hself, ← hac, ← hac']
    rfl
  rw [if_neg hself]
  by_cases hbig : (m.setSelfSkip c false).proxyMaxBytes ≠ 0 ∧ (m.setSelfSkip c false).proxyMaxBytes ≤ c.size
  · obtain ⟨hk', hal', hac', -, -⟩ := hk.skip c true (((m.setSelfSkip c false).setSelfSkip c true).account.count
      [⟨"PROXY_Skipped_TooBig", 1⟩])
    rw [if_pos hbig]
    rw [hmax] at hbig
    refine .inl ⟨by rw [skips, Bool.or_eq_true]; exact .inr (decide_eq_true hbig), rfl, hk', hal'.trans hal, ?_⟩
    rw [skipName, if_neg hself, ← hac, ← hac']
    rfl
  rw [if_neg hbig]
  rw [hmax] at hbig
  have hsize := hop (by simp [skips, hself, hbig])
  rw [← hsys] at hsize
  have hask : ∀ m' : Manager, m'.account = m.account →
      (if c.lowVas then (m'.count (proxyBucket "PROXY_Alloc_Request" c.size)).count [⟨"PROXY_LowVAS_PressureSignal", 1⟩]
        else m'.count (proxyBucket "PROXY_Alloc_Request" c.size)) = { m' with account := ask m.account c } := by
    intro m' hm'
    rw [← hm', ask]
    split <;> rfl
  rw [hask _ hac]
  have hk' : Kept { m.setSelfSkip c false with account := ask m.account c } := ⟨hk.proper, hk.live⟩
  right
  rcases hk'.carve hsize with ⟨reason, hr, ha, hkept, hall, hacc⟩ | ⟨p, hp, hfresh, ha, hkept, hall, hacc⟩
  · exact .inl ⟨reason, hr, ha, hkept, hall.trans hal, hacc⟩
  · exact .inr ⟨p, hp, hal ▸ hfresh, ha, hkept, hall.trans (congrArg (AList.insert p ⟨p, c.size⟩) hal), hacc⟩

end Manager

/-! ## What the answers post -/

def buckets : List String := ["128to256KB", "256to512KB", "512KBto1MB", "1to4MB", "4to16MB", "16MBplus"]

def bands : List String :=
  ["0to4KB", "4to64KB", "64to256KB", "256to512KB", "512KBto1MB", "1to4MB", "4to16MB", "16MBplus"]

def laneTags : List String := ["Contained", "Excluded"]

def reasons : List String := ["ProxyExhausted", "NonProxySlot", "MisalignedProxy", "EagerCommitFail"]

/-- The kinds of counters that the manager adds to, each with its bands. -/
def families : List (String × List String) :=
  [("PROXY_Alloc_Request", buckets), ("PROXY_Alloc_Succeeded", buckets), ("PROXY_Alloc_Failed", buckets),
    ("ProxySize", bands), ("ProxyBytes", bands), ("FreeSize", bands), ("FreeBytes", bands), ("PROXY_Alloc_Fail", laneTags),
    ("PROXY_Alloc_Fail_Contained", reasons), ("PROXY_Alloc_Fail_Excluded", reasons),
    ("PROXY_Alloc_Contained", ["Count", "Bytes"]), ("PROXY_Alloc_Excluded", ["Count", "Bytes"]),
    ("PROXY_Allocations", ["Local_Count", "Local", "Failed_Proxy", "Failed_Bytes", "Failed_NonProxySlot",
      "Failed_MisalignedProxy", "Failed_EagerCommit"]),
    ("PROXY_Skipped", ["SelfAlloc", "TooBig"]), ("PROXY_LowVAS", ["PressureSignal"])]

def names : List (String × String) := families.flatMap fun f => f.2.map (Prod.mk f.1)

theorem mem_names {f : String × List String} (hf : f ∈ families) {band : String} (hb : band ∈ f.2) : (f.1, band) ∈ names :=
  List.mem_flatMap.2 ⟨f, hf, List.mem_map_of_mem hb⟩

/-- No two of them have one name. -/
theorem names_nodup : (names.map fun n => bandName n.1 n.2).Nodup := by decide +kernel

theorem bucket_mem (size : ℕ) : bucket size ∈ buckets := by
  unfold bucket
  split_ifs <;> decide

theorem proxyBand_mem (size : ℕ) : proxyBand size ∈ bands := by
  unfold proxyBand
  split_ifs <;> decide

/-- An addition to a counter, by kind and band. -/
abbrev Amount := (String × String) × ℕ

def Amount.increment (x : Amount) : Increment := ⟨bandName x.1.1 x.1.2, x.2⟩

def CreateCall.amounts (c : CreateCall) : List Amount :=
  (("PROXY_Alloc_Request", bucket c.size), 1) :: if c.lowVas then [(("PROXY_LowVAS", "PressureSignal"), 1)] else []

def Reason.amounts (size : ℕ) : Reason → List Amount
  | .proxyExhausted => [(("PROXY_Alloc_Failed", bucket size), 1), (("PROXY_Allocations", "Failed_Proxy"), 1),
      (("PROXY_Allocations", "Failed_Bytes"), size)]
  | .nonProxySlot => [(("PROXY_Allocations", "Failed_NonProxySlot"), 1), (("PROXY_Alloc_Failed", bucket size), 1)]
  | .misalignedProxy => [(("PROXY_Allocations", "Failed_MisalignedProxy"), 1), (("PROXY_Alloc_Failed", bucket size), 1)]
  | .eagerCommitFail => [(("PROXY_Allocations", "Failed_EagerCommit"), 1), (("PROXY_Alloc_Failed", bucket size), 1)]

def Answer.amounts : Answer → List Amount
  | .skipped c => [(("PROXY_Skipped", if c.self then "SelfAlloc" else "TooBig"), 1)]
  | .refused c reason => c.amounts ++ ((("PROXY_Alloc_Fail", laneFailTag c.lane), 1) ::
      ((bandName "PROXY_Alloc_Fail" (laneFailTag c.lane), reason.text), 1) :: reason.amounts c.size)
  | .created c _ => c.amounts ++ [((bandName "PROXY_Alloc" (laneFailTag c.lane), "Count"), 1),
      ((bandName "PROXY_Alloc" (laneFailTag c.lane), "Bytes"), c.size), (("PROXY_Allocations", "Local_Count"), 1),
      (("PROXY_Allocations", "Local"), c.size), (("ProxySize", proxyBand c.size), 1),
      (("ProxyBytes", proxyBand c.size), c.size), (("PROXY_Alloc_Succeeded", bucket c.size), 1)]
  | .freed _ size => [(("FreeSize", proxyBand size), 1), (("FreeBytes", proxyBand size), size)]
  | .unknown _ => []

def Answer.posted (a : Answer) : List Increment := a.amounts.map Amount.increment

/-- What an answer adds to a counter. -/
def Answer.adds (n : String × String) (a : Answer) : ℕ := ((a.amounts.filter fun x => x.1 = n).map Prod.snd).sum

theorem CreateCall.mem_names {c : CreateCall} {x : Amount} (h : x ∈ c.amounts) : x.1 ∈ names := by
  rcases List.mem_cons.1 h with rfl | h
  · exact MemoryManager.mem_names (f := ("PROXY_Alloc_Request", buckets)) (by decide) (bucket_mem _)
  · split at h
    · rw [List.mem_singleton.1 h]
      decide
    · cases h

theorem Reason.mem_names {size : ℕ} {reason : Reason} {x : Amount} (h : x ∈ reason.amounts size) : x.1 ∈ names := by
  have hbucket : ("PROXY_Alloc_Failed", bucket size) ∈ names :=
    MemoryManager.mem_names (f := ("PROXY_Alloc_Failed", buckets)) (by decide) (bucket_mem size)
  cases reason <;> simp only [Reason.amounts, List.mem_cons, List.not_mem_nil, or_false] at h
  · rcases h with rfl | rfl | rfl
    · exact hbucket
    · decide
    · show ("PROXY_Allocations", "Failed_Bytes") ∈ names
      decide
  all_goals
    rcases h with rfl | rfl
    · decide
    · exact hbucket

theorem tag_mem : ∀ lane, ("PROXY_Alloc_Fail", laneFailTag lane) ∈ names ∧
    (∀ reason : Reason, (bandName "PROXY_Alloc_Fail" (laneFailTag lane), reason.text) ∈ names) ∧
    (bandName "PROXY_Alloc" (laneFailTag lane), "Count") ∈ names ∧
    (bandName "PROXY_Alloc" (laneFailTag lane), "Bytes") ∈ names := by
  rintro lane
  refine ⟨?_, ?_, ?_, ?_⟩
  · cases lane <;> decide
  · rintro reason
    cases lane <;> cases reason <;> decide +kernel
  · cases lane <;> decide +kernel
  · cases lane <;> decide +kernel

theorem Answer.mem_names {a : Answer} {x : Amount} (h : x ∈ a.amounts) : x.1 ∈ names := by
  cases a with
  | skipped c =>
    rw [List.mem_singleton.1 h]
    dsimp only
    split <;> decide
  | refused c reason =>
    obtain ⟨htag, htext, -, -⟩ := tag_mem c.lane
    rcases List.mem_append.1 h with h | h
    · exact CreateCall.mem_names h
    rcases List.mem_cons.1 h with rfl | h
    · exact htag
    rcases List.mem_cons.1 h with rfl | h
    · exact htext reason
    · exact Reason.mem_names h
  | created c p =>
    obtain ⟨-, -, hcount, hbytes⟩ := tag_mem c.lane
    rcases List.mem_append.1 h with h | h
    · exact CreateCall.mem_names h
    simp only [List.mem_cons, List.not_mem_nil, or_false] at h
    rcases h with rfl | rfl | rfl | rfl | rfl | rfl | rfl
    · exact hcount
    · exact hbytes
    · decide
    · show ("PROXY_Allocations", "Local") ∈ names
      decide
    · exact MemoryManager.mem_names (f := ("ProxySize", bands)) (by decide) (proxyBand_mem _)
    · exact MemoryManager.mem_names (f := ("ProxyBytes", bands)) (by decide) (proxyBand_mem _)
    · exact MemoryManager.mem_names (f := ("PROXY_Alloc_Succeeded", buckets)) (by decide) (bucket_mem _)
  | freed p size =>
    simp only [Answer.amounts, List.mem_cons, List.not_mem_nil, or_false] at h
    rcases h with rfl | rfl
    · exact MemoryManager.mem_names (f := ("FreeSize", bands)) (by decide) (proxyBand_mem _)
    · exact MemoryManager.mem_names (f := ("FreeBytes", bands)) (by decide) (proxyBand_mem _)
  | unknown p => cases h

theorem Answer.sumUnder_posted {n : String × String} (hn : n ∈ names) (a : Answer) :
    sumUnder a.posted (bandName n.1 n.2) = a.adds n := by
  unfold sumUnder Answer.posted Answer.adds
  rw [List.filter_map, List.map_map]
  have hfilter : a.amounts.filter ((fun i : Increment => decide (i.name = bandName n.1 n.2)) ∘ Amount.increment) =
      a.amounts.filter fun x => decide (x.1 = n) := by
    refine List.filter_congr fun x hx => ?_
    rw [Function.comp_apply, decide_eq_decide, Amount.increment]
    constructor
    · exact fun h => List.inj_on_of_nodup_map names_nodup (Answer.mem_names hx) hn h
    · rintro rfl
      rfl
  rw [hfilter]
  rfl

/-! ## The account of a run -/

/-- The call of an answer that came to the arena. -/
def Answer.asked : Answer → Option CreateCall
  | .refused c _ | .created c _ => some c
  | .skipped _ | .freed .. | .unknown _ => none

def Answer.isCreated : Answer → Bool
  | .created .. => true
  | .skipped _ | .refused .. | .freed .. | .unknown _ => false

def Answer.isRefused : Answer → Bool
  | .refused .. => true
  | .skipped _ | .created .. | .freed .. | .unknown _ => false

def Answer.bytes (a : Answer) : ℕ := (a.asked.map CreateCall.size).getD 0

/-- How many requests have failed since the last one that succeeded. -/
def streakOf (as : List Answer) : ℕ := ((as.filter fun a => a.asked.isSome).reverse.takeWhile Answer.isRefused).length

/-- The totals of these answers. -/
def totalsOf (as : List Answer) : Totals where
  req := toLong64 (as.countP fun x => x.asked.isSome : ℕ)
  ok := toLong64 (as.countP Answer.isCreated : ℕ)
  fail := toLong64 (as.countP Answer.isRefused : ℕ)
  bytes := toLong64 ((as.map Answer.bytes).sum : ℕ)

/-- The account is one of these answers. -/
structure Account.Covers (a : Account) (as : List Answer) : Prop where
  analytics : a.analytics = true
  counted : a.counted = as.flatMap Answer.posted
  total : a.total = totalsOf as
  streak : a.allocFailStreak = streakOf as % 2 ^ 32

theorem toLong64_add (x y : ℤ) : toLong64 (toLong64 x + y) = toLong64 (x + y) := by
  rw [toLong64, toLong64, toLong64, Int.bmod_add_bmod]

theorem toLong64_zero : toLong64 0 = 0 := by rw [toLong64, Int.zero_bmod]

theorem toLong64_add_toLong64 (x y : ℤ) : toLong64 (toLong64 x + toLong64 y) = toLong64 (x + y) := by
  rw [toLong64, toLong64, toLong64, Int.add_bmod_bmod, Int.bmod_add_bmod, toLong64]

theorem toLong64_sub (x y : ℤ) : toLong64 (toLong64 x - toLong64 y) = toLong64 (x - y) := by
  rw [toLong64, toLong64, toLong64, Int.sub_bmod_bmod, Int.bmod_sub_bmod, toLong64]

/-- A count that is not too large is told as it is. -/
theorem toLong64_natCast {n : ℕ} (h : n < 2 ^ 63) : toLong64 n = n := by
  have hhalf : (n : ℤ) < 2 ^ 63 := by exact_mod_cast h
  rw [toLong64]
  apply Int.bmod_eq_of_le_mul_two <;> push_cast <;> omega

theorem totalsOf_nil : totalsOf [] = ⟨0, 0, 0, 0⟩ := by
  simp only [totalsOf, List.countP_nil, List.map_nil, List.sum_nil, Nat.cast_zero, toLong64_zero]

/-- What one request adds, wherever it came to the arena. -/
theorem totalsOf_concat (as : List Answer) (x : Answer) : totalsOf (as ++ [x]) =
    { req := toLong64 ((totalsOf as).req + if x.asked.isSome then 1 else 0)
      ok := toLong64 ((totalsOf as).ok + if x.isCreated then 1 else 0)
      fail := toLong64 ((totalsOf as).fail + if x.isRefused then 1 else 0)
      bytes := toLong64 ((totalsOf as).bytes + x.bytes) } := by
  simp only [totalsOf, toLong64_add, List.countP_append, List.countP_singleton, List.map_append, List.sum_append,
    List.map_singleton, List.sum_singleton, Nat.cast_add]
  congr 2 <;> split <;> rfl

theorem streakOf_concat (as : List Answer) (x : Answer) :
    streakOf (as ++ [x]) = if x.isRefused then streakOf as + 1 else if x.isCreated then 0 else streakOf as := by
  unfold streakOf
  rw [List.filter_append]
  cases x with
  | refused c reason =>
    rw [List.filter_cons_of_pos rfl, List.filter_nil, List.reverse_concat, List.takeWhile_cons_of_pos rfl]
    rfl
  | created c p =>
    rw [List.filter_cons_of_pos rfl, List.filter_nil, List.reverse_concat, List.takeWhile_cons_of_neg Bool.false_ne_true]
    rfl
  | skipped c => rw [List.filter_cons_of_neg Bool.false_ne_true, List.filter_nil, List.append_nil]; rfl
  | freed p size => rw [List.filter_cons_of_neg Bool.false_ne_true, List.filter_nil, List.append_nil]; rfl
  | unknown p => rw [List.filter_cons_of_neg Bool.false_ne_true, List.filter_nil, List.append_nil]; rfl

namespace Account

theorem count_on {a : Account} (h : a.analytics = true) (incs : List Increment) :
    a.count incs = { a with counted := a.counted ++ incs } := if_pos h

theorem count_count (a : Account) (incs incs' : List Increment) : (a.count incs).count incs' = a.count (incs ++ incs') := by
  unfold count
  by_cases h : a.analytics = true
  · rw [if_pos h, if_pos (by exact h), if_pos h, List.append_assoc]
  · rw [if_neg h, if_neg h, if_neg h]

/-- What a tally leaves alone. -/
theorem maybeLogTally_frame (a : Account) (now : ℕ) : (a.maybeLogTally now).analytics = a.analytics ∧
    (a.maybeLogTally now).counted = a.counted ∧ (a.maybeLogTally now).total = a.total ∧
    (a.maybeLogTally now).allocFailStreak = a.allocFailStreak := by
  unfold maybeLogTally
  split
  · exact ⟨rfl, rfl, rfl, rfl⟩
  · split <;> exact ⟨rfl, rfl, rfl, rfl⟩

/-- One more answer, by what it does to the account. -/
theorem Covers.concat {a t : Account} {as : List Answer} (h : a.Covers as) {x : Answer} (hx : t.analytics = true)
    (hc : t.counted = a.counted ++ x.posted) (ht : t.total = totalsOf (as ++ [x]))
    (hstreak : t.allocFailStreak = if x.isRefused then (a.allocFailStreak + 1) % 2 ^ 32
      else if x.isCreated then 0 else a.allocFailStreak) : t.Covers (as ++ [x]) := by
  refine ⟨hx, ?_, ht, ?_⟩
  · rw [hc, h.counted, List.flatMap_append, List.flatMap_singleton]
  · rw [hstreak, streakOf_concat, h.streak]
    split_ifs
    · rw [Nat.mod_add_mod]
    · rfl
    · rfl

/-- An answer that did not come to the arena leaves the totals. -/
theorem Covers.total_concat {a : Account} {as : List Answer} (h : a.Covers as) {x : Answer} (hx : x.asked = none) :
    a.total = totalsOf (as ++ [x]) := by
  have hzero : x.isCreated = false ∧ x.isRefused = false ∧ x.bytes = 0 := by
    cases x <;> simp [Answer.asked, Answer.isCreated, Answer.isRefused, Answer.bytes] at hx ⊢
  rw [totalsOf_concat, hx, hzero.1, hzero.2.1, hzero.2.2, h.total]
  simp [totalsOf, toLong64]

theorem Covers.request {a : Account} {as : List Answer} (h : a.Covers as) {x : Answer} {c : CreateCall} (hx : x.asked = some c)
    {ok : Bool} (hok : x.isCreated = ok) (hfail : x.isRefused = !ok) :
    (a.request c.size ok).total = totalsOf (as ++ [x]) := by
  rw [totalsOf_concat, Answer.bytes, hx, hok, hfail, ← h.total]
  cases ok <;> rfl

theorem skipName_eq (c : CreateCall) :
    (⟨Manager.skipName c, 1⟩ : Increment) = Amount.increment (("PROXY_Skipped", if c.self then "SelfAlloc" else "TooBig"), 1) := by
  unfold Manager.skipName
  split <;> decide +kernel

/-- What a call that goes on counts first. -/
theorem ask_eq {a : Account} (h : a.analytics = true) (c : CreateCall) :
    Manager.ask a c = { a with counted := a.counted ++ c.amounts.map Amount.increment } := by
  unfold Manager.ask CreateCall.amounts
  split
  · rw [count_count, count_on h]
    rfl
  · rw [count_on h]
    rfl

theorem reason_increments (size : ℕ) (reason : Reason) :
    reason.increments size = (reason.amounts size).map Amount.increment := by
  cases reason <;> rfl

theorem Covers.skip {a : Account} {as : List Answer} (h : a.Covers as) (c : CreateCall) :
    (a.count [⟨Manager.skipName c, 1⟩]).Covers (as ++ [.skipped c]) := by
  rw [count_on h.analytics, skipName_eq]
  exact h.concat h.analytics rfl (h.total_concat rfl) rfl

theorem recordAllocFailForLane_eq {a : Account} (h : a.analytics = true) (lane : ContainmentLane) (reason : String) (size : ℕ) :
    a.recordAllocFailForLane lane reason size =
      { a with
        allocFailStreak := (a.allocFailStreak + 1) % 2 ^ 32
        counted := a.counted ++ [⟨bandName "PROXY_Alloc_Fail" (laneFailTag lane), 1⟩,
          ⟨bandName (bandName "PROXY_Alloc_Fail" (laneFailTag lane)) reason, 1⟩]
        failures := a.failures ++ [⟨laneFailTag lane, size, reason, (a.allocFailStreak + 1) % 2 ^ 32⟩] } := by
  unfold recordAllocFailForLane
  dsimp only
  rw [count_on (by exact h)]

theorem refuse_spec {a : Account} (h : a.analytics = true) (c : CreateCall) (reason : Reason) :
    (a.refuse c reason).analytics = true ∧ (a.refuse c reason).total = (a.request c.size false).total ∧
    (a.refuse c reason).allocFailStreak = (a.allocFailStreak + 1) % 2 ^ 32 ∧
    (a.refuse c reason).counted = a.counted ++ ([⟨bandName "PROXY_Alloc_Fail" (laneFailTag c.lane), 1⟩,
      ⟨bandName (bandName "PROXY_Alloc_Fail" (laneFailTag c.lane)) reason.text, 1⟩] ++ reason.increments c.size) := by
  have heq := recordAllocFailForLane_eq (a := a.request c.size false) h c.lane reason.text c.size
  obtain ⟨ha, hc, ht, hs⟩ :=
    maybeLogTally_frame ((a.request c.size false).recordAllocFailForLane c.lane reason.text c.size) c.now
  rw [heq] at ha hc ht hs
  unfold refuse
  rw [heq, count_on (ha.trans h)]
  refine ⟨ha.trans h, ht, hs, ?_⟩
  dsimp only
  rw [hc, List.append_assoc]
  rfl

theorem succeed_spec {a : Account} (h : a.analytics = true) (c : CreateCall) :
    (a.succeed c).analytics = true ∧ (a.succeed c).total = (a.request c.size true).total ∧ (a.succeed c).allocFailStreak = 0 ∧
    (a.succeed c).counted = a.counted ++ ([⟨bandName (bandName "PROXY_Alloc" (laneFailTag c.lane)) "Count", 1⟩,
      ⟨bandName (bandName "PROXY_Alloc" (laneFailTag c.lane)) "Bytes", c.size⟩, ⟨"PROXY_Allocations_Local_Count", 1⟩,
      ⟨"PROXY_Allocations_Local", c.size⟩] ++ recordProxyBandPair "ProxySize" "ProxyBytes" c.size ++
        proxyBucket "PROXY_Alloc_Succeeded" c.size) := by
  unfold succeed
  dsimp only
  rw [count_count, count_count, count_on h]
  obtain ⟨ha, hc, ht, hs⟩ := maybeLogTally_frame ((Account.request { a with
    counted := a.counted ++ ([⟨bandName (bandName "PROXY_Alloc" (laneFailTag c.lane)) "Count", 1⟩,
        ⟨bandName (bandName "PROXY_Alloc" (laneFailTag c.lane)) "Bytes", c.size⟩, ⟨"PROXY_Allocations_Local_Count", 1⟩,
        ⟨"PROXY_Allocations_Local", c.size⟩] ++ recordProxyBandPair "ProxySize" "ProxyBytes" c.size ++
      proxyBucket "PROXY_Alloc_Succeeded" c.size) } c.size true).recordAllocSuccessStreakReset) c.now
  exact ⟨ha.trans h, ht, hs, hc⟩

theorem Covers.refuse {a : Account} {as : List Answer} (h : a.Covers as) (c : CreateCall) (reason : Reason) :
    ((Manager.ask a c).refuse c reason).Covers (as ++ [.refused c reason]) := by
  rw [ask_eq h.analytics]
  obtain ⟨ha, ht, hs, hc⟩ := refuse_spec (a := { a with counted := a.counted ++ c.amounts.map Amount.increment }) h.analytics
    c reason
  refine h.concat ha ?_ (ht.trans (h.request (x := .refused c reason) rfl rfl rfl)) hs
  rw [hc, reason_increments, Answer.posted, Answer.amounts, List.map_append, List.append_assoc]
  rfl

theorem Covers.succeed {a : Account} {as : List Answer} (h : a.Covers as) (c : CreateCall) (p : ℕ) :
    ((Manager.ask a c).succeed c).Covers (as ++ [.created c p]) := by
  rw [ask_eq h.analytics]
  obtain ⟨ha, ht, hs, hc⟩ := succeed_spec (a := { a with counted := a.counted ++ c.amounts.map Amount.increment }) h.analytics c
  refine h.concat ha ?_ (ht.trans (h.request (x := .created c p) rfl rfl rfl)) hs
  rw [hc, Answer.posted, Answer.amounts, List.map_append, List.append_assoc]
  rfl

theorem Covers.free {a : Account} {as : List Answer} (h : a.Covers as) (p size : ℕ) :
    (a.count (recordProxyBandPair "FreeSize" "FreeBytes" size)).Covers (as ++ [.freed p size]) := by
  rw [count_on h.analytics]
  exact h.concat h.analytics rfl (h.total_concat rfl) rfl

theorem Covers.unknown {a : Account} {as : List Answer} (h : a.Covers as) (p : ℕ) : a.Covers (as ++ [.unknown p]) :=
  h.concat h.analytics (List.append_nil _).symm (h.total_concat rfl) rfl

end Account

/-! ## The tally -/

/-- The line that tells of the requests `seg` after those of `before`. -/
def told (before seg : List Answer) : TallyLine where
  dReq := (totalsOf seg).req
  dOk := (totalsOf seg).ok
  dFail := (totalsOf seg).fail
  dMb := toMb (totalsOf seg).bytes
  req := (totalsOf (before ++ seg)).req
  ok := (totalsOf (before ++ seg)).ok
  fail := (totalsOf (before ++ seg)).fail
  mb := toMb (totalsOf (before ++ seg)).bytes

theorem told_req (before seg : List Answer) : (told before seg).dReq = toLong64 (seg.countP fun x => x.asked.isSome : ℕ) := rfl

theorem told_ok (before seg : List Answer) : (told before seg).dOk = toLong64 (seg.countP Answer.isCreated : ℕ) := rfl

theorem told_fail (before seg : List Answer) : (told before seg).dFail = toLong64 (seg.countP Answer.isRefused : ℕ) := rfl

/-- One line for each stretch of answers. -/
def toldOf : List Answer → List (List Answer) → List TallyLine
  | _, [] => []
  | before, seg :: segs => told before seg :: toldOf (before ++ seg) segs

theorem toldOf_concat : ∀ (segs : List (List Answer)) (before seg : List Answer),
    toldOf before (segs ++ [seg]) = toldOf before segs ++ [told (before ++ segs.flatten) seg]
  | [], before, seg => by rw [List.flatten_nil, List.append_nil]; rfl
  | seg' :: segs, before, seg => by
    rw [List.cons_append, toldOf, toldOf_concat segs, toldOf, List.cons_append, List.flatten_cons, List.append_assoc]

/-- A line stands for its stretch. -/
theorem toldOf_split : ∀ {segs : List (List Answer)} {before : List Answer} {pre post : List TallyLine} {l : TallyLine},
    toldOf before segs = pre ++ l :: post → ∃ segs' seg segs'', segs = segs' ++ seg :: segs'' ∧ pre = toldOf before segs' ∧
      l = told (before ++ segs'.flatten) seg
  | [], _, _, _, _, h => absurd h.symm (List.append_ne_nil_of_right_ne_nil _ (List.cons_ne_nil _ _))
  | seg :: segs, before, [], post, l, h => by
    refine ⟨[], seg, segs, rfl, rfl, ?_⟩
    rw [List.flatten_nil, List.append_nil]
    exact (List.cons.inj h).1.symm
  | seg :: segs, before, x :: pre, post, l, h => by
    obtain ⟨hx, hrest⟩ := List.cons.inj h
    obtain ⟨segs', seg', segs'', rfl, rfl, rfl⟩ := toldOf_split hrest
    refine ⟨seg :: segs', seg', segs'', rfl, ?_, ?_⟩
    · rw [toldOf, hx]
    · rw [List.flatten_cons, List.append_assoc]

/-- Below 2^63 answers the growth told of adds up. -/
theorem sum_toldOf {f : TallyLine → ℤ} {p : Answer → Bool} (hf : ∀ before seg, f (told before seg) = toLong64 (seg.countP p : ℕ)) :
    ∀ {segs : List (List Answer)} {before : List Answer}, segs.flatten.length < 2 ^ 63 →
      ((toldOf before segs).map f).sum = (segs.flatten.countP p : ℕ)
  | [], _, _ => rfl
  | seg :: segs, before, h => by
    rw [List.flatten_cons, List.length_append] at h
    have hseg : seg.countP p ≤ seg.length := List.countP_le_length
    rw [toldOf, List.map_cons, List.sum_cons, hf, toLong64_natCast (by omega), sum_toldOf hf (by omega), List.flatten_cons,
      List.countP_append, Nat.cast_add]

/-- The tally so far tells of the answers, stretch by stretch, but for those since its last line. -/
def Account.Reported (a : Account) (as : List Answer) : Prop :=
  ∃ segs rest, as = segs.flatten ++ rest ∧ a.snap = totalsOf segs.flatten ∧ a.tallies = toldOf [] segs

namespace Account

theorem Reported.of_eq {a t : Account} {as : List Answer} (h : a.Reported as) (hsnap : t.snap = a.snap)
    (hlines : t.tallies = a.tallies) : t.Reported as := by
  unfold Account.Reported
  rwa [hsnap, hlines]

theorem Reported.count {a : Account} {as : List Answer} (h : a.Reported as) (incs : List Increment) : (a.count incs).Reported as := by
  unfold Account.count
  split
  · exact h.of_eq rfl rfl
  · exact h

/-- What is not told of yet. -/
theorem Reported.concat {a : Account} {as : List Answer} (h : a.Reported as) (x : Answer) : a.Reported (as ++ [x]) := by
  obtain ⟨segs, rest, rfl, hsnap, hlines⟩ := h
  exact ⟨segs, rest ++ [x], List.append_assoc .., hsnap, hlines⟩

theorem countP_sub (p : Answer → Bool) (as bs : List Answer) :
    toLong64 (toLong64 ((as ++ bs).countP p : ℕ) - toLong64 (as.countP p : ℕ)) = toLong64 (bs.countP p : ℕ) := by
  rw [toLong64_sub, List.countP_append, Nat.cast_add, add_sub_cancel_left]

/-- The line that is logged tells of what has come since the last one. -/
theorem tallyLine_eq {a : Account} {as bs : List Answer} (ht : a.total = totalsOf (as ++ bs)) (hs : a.snap = totalsOf as) :
    a.tallyLine = told as bs := by
  have hbytes : toLong64 (toLong64 (((as ++ bs).map Answer.bytes).sum : ℕ) - toLong64 ((as.map Answer.bytes).sum : ℕ)) =
      toLong64 ((bs.map Answer.bytes).sum : ℕ) := by
    rw [toLong64_sub, List.map_append, List.sum_append, Nat.cast_add, add_sub_cancel_left]
  simp only [tallyLine, told, ht, hs, totalsOf, countP_sub, hbytes]

theorem Reported.maybeLogTally {a : Account} {as : List Answer} (h : a.Reported as) (ht : a.total = totalsOf as) (now : ℕ) :
    (a.maybeLogTally now).Reported as := by
  unfold Account.maybeLogTally
  split
  · exact h
  split
  · exact h
  obtain ⟨segs, rest, rfl, hsnap, hlines⟩ := h
  have hflat : (segs ++ [rest]).flatten = segs.flatten ++ rest := by rw [List.flatten_append, List.flatten_singleton]
  refine ⟨segs ++ [rest], [], ?_, ?_, ?_⟩
  · rw [hflat, List.append_nil]
  · rw [hflat]
    exact ht
  · rw [toldOf_concat, List.nil_append, ← hlines, tallyLine_eq ht hsnap]

theorem Reported.ask {a : Account} {as : List Answer} (h : a.Reported as) (c : CreateCall) : (Manager.ask a c).Reported as := by
  unfold Manager.ask
  split
  · exact (h.count _).count _
  · exact h.count _

theorem count_total (a : Account) (incs : List Increment) : (a.count incs).total = a.total := by
  unfold count
  split <;> rfl

theorem ask_total (a : Account) (c : CreateCall) : (Manager.ask a c).total = a.total := by
  unfold Manager.ask
  split
  · rw [count_total, count_total]
  · rw [count_total]

theorem request_total {a t : Account} (h : t.total = a.total) (size : ℕ) (ok : Bool) :
    (t.request size ok).total = (a.request size ok).total := by
  unfold request
  rw [h]

theorem Reported.refuse {a : Account} {as : List Answer} (h : a.Reported as) (hc : a.Covers as) (c : CreateCall) (reason : Reason) :
    ((Manager.ask a c).refuse c reason).Reported (as ++ [.refused c reason]) := by
  have hon : (Manager.ask a c).analytics = true := by rw [ask_eq hc.analytics]; exact hc.analytics
  have htotal : ((Manager.ask a c).request c.size false).total = totalsOf (as ++ [.refused c reason]) :=
    (request_total (ask_total a c) _ _).trans (hc.request rfl rfl rfl)
  unfold Account.refuse
  rw [recordAllocFailForLane_eq (a := (Manager.ask a c).request c.size false) hon]
  refine Reported.count (Reported.maybeLogTally ?_ ?_ c.now) _
  · exact ((h.ask c).concat _).of_eq rfl rfl
  · exact htotal

theorem Reported.succeed {a : Account} {as : List Answer} (h : a.Reported as) (hc : a.Covers as) (c : CreateCall) (p : ℕ) :
    ((Manager.ask a c).succeed c).Reported (as ++ [.created c p]) := by
  unfold Account.succeed
  dsimp only
  rw [count_count, count_count]
  refine Reported.maybeLogTally ?_ ?_ c.now
  · exact (((h.ask c).concat _).count _).of_eq rfl rfl
  · exact (request_total ((count_total ..).trans (ask_total a c)) _ _).trans (hc.request rfl rfl rfl)

end Account

/-! ## Runs -/

/-- What an answer takes of the arena, and what it gives back, by any measure of slots. -/
def Answer.takes (w : ℕ → ℕ → ℕ) : Answer → ℕ
  | .created c p => w p c.size
  | .skipped _ | .refused .. | .freed .. | .unknown _ => 0

def Answer.gives (w : ℕ → ℕ → ℕ) : Answer → ℕ
  | .freed p size => w p size
  | .skipped _ | .refused .. | .created .. | .unknown _ => 0

/-- What the records amount to. -/
def held (w : ℕ → ℕ → ℕ) (t : Allocations) : ℕ := (t.entries.map fun e => w e.1 e.2.proxySize).sum

/-- Only two reasons occur. -/
def Answer.Reasonable : Answer → Prop
  | .refused _ reason => reason = .proxyExhausted ∨ reason = .eagerCommitFail
  | .skipped _ | .created .. | .freed .. | .unknown _ => True

namespace Manager

/-- What a run that gave these answers has written down. -/
structure Written (m : Manager) (as : List Answer) : Prop where
  kept : m.Kept
  covers : m.account.Covers as
  reported : m.account.Reported as
  balance : ∀ w, (as.map (Answer.takes w)).sum = (as.map (Answer.gives w)).sum + held w m.allocations
  reasonable : ∀ a ∈ as, a.Reasonable

/-- One more answer. -/
theorem Written.concat {m t : Manager} {as : List Answer} (h : m.Written as) {a : Answer} (hk : t.Kept)
    (hc : t.account.Covers (as ++ [a])) (hr : t.account.Reported (as ++ [a])) (ha : a.Reasonable)
    (hw : ∀ w, a.takes w + held w m.allocations = a.gives w + held w t.allocations) : t.Written (as ++ [a]) := by
  refine ⟨hk, hc, hr, fun w => ?_, fun x hx => ?_⟩
  · have h1 := h.balance w
    have h2 := hw w
    simp only [List.map_append, List.sum_append, List.map_singleton, List.sum_singleton]
    omega
  · rcases List.mem_append.1 hx with hx | hx
    · exact h.reasonable x hx
    · exact List.mem_singleton.1 hx ▸ ha

theorem Written.create {m : Manager} {as : List Answer} (h : m.Written as) {c : CreateCall} (hop : m.Allowed (.create c)) :
    (m.createProxyAllocation c).2.Written (as ++ [(m.createProxyAllocation c).1]) := by
  rcases h.kept.create hop with ⟨-, ha, hk, hal, hac⟩ | ⟨reason, hr, ha, hk, hal, hac⟩ | ⟨p, hp, hfresh, ha, hk, hal, hac⟩
  · rw [ha]
    refine h.concat hk ?_ ?_ trivial fun w => by rw [hal]; rfl
    · rw [hac]
      exact h.covers.skip c
    · rw [hac]
      exact (h.reported.concat _).count _
  · rw [ha]
    refine h.concat hk ?_ ?_ hr fun w => by rw [hal]; rfl
    · rw [hac]
      exact h.covers.refuse c reason
    · rw [hac]
      exact h.reported.refuse h.covers c reason
  · rw [ha]
    refine h.concat hk ?_ ?_ trivial fun w => ?_
    · rw [hac]
      exact h.covers.succeed c p
    · rw [hac]
      exact h.reported.succeed h.covers c p
    · rw [hal, held, held, AList.entries_insert_of_notMem hfresh, List.map_cons, List.sum_cons]
      simp [Answer.takes, Answer.gives]

theorem Written.free {m : Manager} {as : List Answer} (h : m.Written as) (p : ℕ) :
    (m.freeProxyAllocation p).2.Written (as ++ [(m.freeProxyAllocation p).1]) := by
  rcases h.kept.free p with ⟨-, heq⟩ | ⟨r, hr, ha, hk, hal, hac⟩
  · rw [heq]
    exact h.concat h.kept (h.covers.unknown p) (h.reported.concat _) trivial fun w => rfl
  · rw [ha]
    refine h.concat hk ?_ ?_ trivial fun w => ?_
    · rw [hac]
      exact h.covers.free p r.proxySize
    · rw [hac]
      exact (h.reported.concat _).count _
    · rw [hal, held, held, ((perm_erase_entries hr).map _).sum_eq, List.map_cons, List.sum_cons]
      simp [Answer.takes, Answer.gives]

theorem Written.step {m : Manager} {as : List Answer} (h : m.Written as) {e : Event} (hop : m.Allowed e) :
    (step m e).1.Written (as ++ (step m e).2) := by
  cases e with
  | create c => exact h.create hop
  | free p => exact h.free p
  | other op =>
    rw [Manager.step, List.append_nil]
    exact ⟨h.kept.other hop.1 hop.2, h.covers, h.reported, h.balance, h.reasonable⟩

theorem start_written {arena : ProxyAllocator} (h : Started arena) (proxyMaxBytes : ℕ) (logger : Bool)
    (tallyIntervalMs : ℕ) : (start arena proxyMaxBytes logger tallyIntervalMs).Written [] := by
  refine ⟨⟨Sys.start_proper h.whole.idle, ?_⟩, ⟨rfl, rfl, totalsOf_nil.symm, rfl⟩,
    ⟨[], [], rfl, totalsOf_nil.symm, rfl⟩, fun w => rfl, ?_⟩
  · rintro e ⟨⟩
  · rintro a ⟨⟩

theorem after_written {arena : ProxyAllocator} (h : Started arena) {proxyMaxBytes : ℕ} {logger : Bool}
    {tallyIntervalMs : ℕ} {es : List Event} (hrun : (start arena proxyMaxBytes logger tallyIntervalMs).Run es) :
    ((start arena proxyMaxBytes logger tallyIntervalMs).after es).Written
      ((start arena proxyMaxBytes logger tallyIntervalMs).answers es) := by
  induction es using List.reverseRecOn with
  | nil => exact start_written h proxyMaxBytes logger tallyIntervalMs
  | append_singleton es e ih =>
    obtain ⟨hrun, he⟩ := Run.guarded_concat.1 hrun
    rw [after, answers, Run.after_append, Run.emitted_concat]
    exact (ih hrun).step he

end Manager

/-! ## What the counters tell -/

/-- What has been added to a counter. -/
def Account.under (a : Account) (kind band : String) : ℕ := sumUnder a.counted (bandName kind band)

theorem Account.Covers.under {a : Account} {as : List Answer} (h : a.Covers as) {kind band : String}
    (hn : (kind, band) ∈ names) : a.under kind band = (as.map (Answer.adds (kind, band))).sum := by
  rw [Account.under, h.counted, sumUnder_flatMap, List.map_congr_left fun x _ => Answer.sumUnder_posted hn x]

theorem laneFailTag_mem (lane : ContainmentLane) : laneFailTag lane = "Contained" ∨ laneFailTag lane = "Excluded" := by
  cases lane <;> decide

theorem tag_names : bandName "PROXY_Alloc_Fail" "Contained" = "PROXY_Alloc_Fail_Contained" ∧
    bandName "PROXY_Alloc_Fail" "Excluded" = "PROXY_Alloc_Fail_Excluded" ∧
    bandName "PROXY_Alloc" "Contained" = "PROXY_Alloc_Contained" ∧
    bandName "PROXY_Alloc" "Excluded" = "PROXY_Alloc_Excluded" := by decide +kernel

theorem adds_eq (n : String × String) (a : Answer) : a.adds n = (a.amounts.map fun x => if x.1 = n then x.2 else 0).sum :=
  (Tally.sum_ite_filter _ _ _).symm

theorem adds_band (band : String) (a : Answer) :
    a.adds ("ProxySize", band) = a.takes (fun _ size => if proxyBand size = band then 1 else 0) ∧
    a.adds ("ProxyBytes", band) = a.takes (fun _ size => if proxyBand size = band then size else 0) ∧
    a.adds ("FreeSize", band) = a.gives (fun _ size => if proxyBand size = band then 1 else 0) ∧
    a.adds ("FreeBytes", band) = a.gives (fun _ size => if proxyBand size = band then size else 0) := by
  obtain ⟨hfc, hfe, hc, he⟩ := tag_names
  simp only [adds_eq]
  cases a with
  | refused c reason =>
    rcases laneFailTag_mem c.lane with ht | ht <;> cases reason <;> cases hl : c.lowVas <;>
      simp [Answer.amounts, Answer.takes, Answer.gives, CreateCall.amounts, Reason.amounts, ht, hfc, hfe, hl]
  | created c p =>
    rcases laneFailTag_mem c.lane with ht | ht <;> cases hl : c.lowVas <;>
      simp [Answer.amounts, Answer.takes, Answer.gives, CreateCall.amounts, ht, hc, he, hl]
  | skipped c => simp [Answer.amounts, Answer.takes, Answer.gives]
  | freed p size => simp [Answer.amounts, Answer.takes, Answer.gives]
  | unknown p => simp [Answer.amounts, Answer.takes, Answer.gives]

theorem adds_bucket (band : String) (a : Answer) : a.adds ("PROXY_Alloc_Request", band) =
    a.adds ("PROXY_Alloc_Succeeded", band) + a.adds ("PROXY_Alloc_Failed", band) := by
  obtain ⟨hfc, hfe, hc, he⟩ := tag_names
  simp only [adds_eq]
  cases a with
  | refused c reason =>
    rcases laneFailTag_mem c.lane with ht | ht <;> cases reason <;> cases hl : c.lowVas <;>
      simp [Answer.amounts, CreateCall.amounts, Reason.amounts, ht, hfc, hfe, hl]
  | created c p =>
    rcases laneFailTag_mem c.lane with ht | ht <;> cases hl : c.lowVas <;>
      simp [Answer.amounts, CreateCall.amounts, ht, hc, he, hl]
  | skipped c => simp [Answer.amounts]
  | freed p size => simp [Answer.amounts]
  | unknown p => simp [Answer.amounts]

/-- A failure is under its lane, and under one of the two reasons that occur. -/
theorem adds_fail {a : Answer} (ha : a.Reasonable) :
    a.adds ("PROXY_Alloc_Fail", "Contained") + a.adds ("PROXY_Alloc_Fail", "Excluded") = (if a.isRefused then 1 else 0) ∧
    ∀ tag ∈ laneTags, a.adds ("PROXY_Alloc_Fail", tag) = a.adds (bandName "PROXY_Alloc_Fail" tag, "ProxyExhausted") +
      a.adds (bandName "PROXY_Alloc_Fail" tag, "EagerCommitFail") ∧
      a.adds (bandName "PROXY_Alloc_Fail" tag, "NonProxySlot") = 0 ∧
      a.adds (bandName "PROXY_Alloc_Fail" tag, "MisalignedProxy") = 0 := by
  obtain ⟨hfc, hfe, hc, he⟩ := tag_names
  simp only [adds_eq, laneTags, List.forall_mem_cons, List.not_mem_nil, false_implies, implies_true, and_true, hfc, hfe]
  cases a with
  | refused c reason =>
    rcases laneFailTag_mem c.lane with ht | ht <;> rcases ha with rfl | rfl <;> cases hl : c.lowVas <;>
      simp [Answer.amounts, Answer.isRefused, CreateCall.amounts, Reason.amounts, Reason.text, ht, hfc, hfe, hl]
  | created c p =>
    rcases laneFailTag_mem c.lane with ht | ht <;> cases hl : c.lowVas <;>
      simp [Answer.amounts, Answer.isRefused, CreateCall.amounts, ht, hc, he, hl]
  | skipped c => simp [Answer.amounts, Answer.isRefused]
  | freed p size => simp [Answer.amounts, Answer.isRefused]
  | unknown p => simp [Answer.amounts, Answer.isRefused]

theorem adds_created (a : Answer) :
    a.adds ("PROXY_Alloc_Contained", "Count") + a.adds ("PROXY_Alloc_Excluded", "Count") = if a.isCreated then 1 else 0 := by
  obtain ⟨hfc, hfe, hc, he⟩ := tag_names
  simp only [adds_eq]
  cases a with
  | refused c reason =>
    rcases laneFailTag_mem c.lane with ht | ht <;> cases reason <;> cases hl : c.lowVas <;>
      simp [Answer.amounts, Answer.isCreated, CreateCall.amounts, Reason.amounts, ht, hfc, hfe, hl]
  | created c p =>
    rcases laneFailTag_mem c.lane with ht | ht <;> cases hl : c.lowVas <;>
      simp [Answer.amounts, Answer.isCreated, CreateCall.amounts, ht, hc, he, hl]
  | skipped c => simp [Answer.amounts, Answer.isCreated]
  | freed p size => simp [Answer.amounts, Answer.isCreated]
  | unknown p => simp [Answer.amounts, Answer.isCreated]

theorem mem_names_band {band : String} (hb : band ∈ bands) : ("ProxySize", band) ∈ names ∧ ("ProxyBytes", band) ∈ names ∧
    ("FreeSize", band) ∈ names ∧ ("FreeBytes", band) ∈ names :=
  ⟨mem_names (f := ("ProxySize", bands)) (by decide) hb, mem_names (f := ("ProxyBytes", bands)) (by decide) hb,
    mem_names (f := ("FreeSize", bands)) (by decide) hb, mem_names (f := ("FreeBytes", bands)) (by decide) hb⟩

/-- The answers that give this pointer out. -/
def Answer.creates (p : ℕ) : Answer → Bool
  | .created _ q => q = p
  | .skipped _ | .refused .. | .freed .. | .unknown _ => false

def Answer.frees (p : ℕ) : Answer → Bool
  | .freed q _ => q = p
  | .skipped _ | .refused .. | .created .. | .unknown _ => false

theorem sum_creates (p : ℕ) (as : List Answer) :
    (as.map (Answer.takes fun q _ => if q = p then 1 else 0)).sum = as.countP (Answer.creates p) := by
  have hone : ∀ a : Answer, a.takes (fun q _ => if q = p then 1 else 0) = if a.creates p then 1 else 0 := by
    intro a
    cases a <;> simp [Answer.creates, Answer.takes]
  rw [List.map_congr_left fun a _ => hone a, Tally.sum_ite_countP]
  simp

theorem sum_frees (p : ℕ) (as : List Answer) :
    (as.map (Answer.gives fun q _ => if q = p then 1 else 0)).sum = as.countP (Answer.frees p) := by
  have hone : ∀ a : Answer, a.gives (fun q _ => if q = p then 1 else 0) = if a.frees p then 1 else 0 := by
    intro a
    cases a <;> simp [Answer.frees, Answer.gives]
  rw [List.map_congr_left fun a _ => hone a, Tally.sum_ite_countP]
  simp

theorem held_pointer (p : ℕ) (t : Allocations) : held (fun q _ => if q = p then 1 else 0) t = if p ∈ t then 1 else 0 := by
  have hcount : held (fun q _ => if q = p then 1 else 0) t = t.keys.count p := by
    rw [held, Tally.sum_ite_countP, List.count, AList.keys, List.keys, List.countP_map]
    rfl
  rw [hcount, t.keys_nodup.count]
  exact if_congr AList.mem_keys.symm rfl rfl

theorem countP_asked (as : List Answer) :
    (as.countP fun a => a.asked.isSome) = as.countP Answer.isCreated + as.countP Answer.isRefused := by
  induction as with
  | nil => rfl
  | cons a as ih =>
    simp only [List.countP_cons, ih]
    cases a <;> simp [Answer.asked, Answer.isCreated, Answer.isRefused] <;> omega

namespace Manager

/-- A capture that is freed, one that is left, one that cannot be committed, and one that the arena has no room for. -/
def sample : List Event :=
  [.create ⟨1, true, false, 0x2000, .containedA, false, true, 6000⟩, .free 0x10000000, .free 0x10000000,
    .create ⟨1, true, false, 0x5000, .excludedB, false, true, 7000⟩,
    .create ⟨2, true, false, 0x5000, .containedA, false, false, 12000⟩,
    .create ⟨2, true, false, 0x20000, .containedA, false, true, 13000⟩]

theorem sample_run : (start Sys.arena64K 0 true 5000).Run sample := by decide +kernel

/-- In every run: each record is of a live slot of the arena, whose own invariant holds; a pointer has been given out
as often as it has been freed, and once more exactly while it has a record, so no second free of it comes to the arena;
and in every band what is counted as captured, less what is counted as freed, is the live slots and their bytes. -/
theorem captures_balance {arena : ProxyAllocator} (h : Started arena) {proxyMaxBytes : ℕ} {logger : Bool}
    {tallyIntervalMs : ℕ} {es : List Event} (hrun : (start arena proxyMaxBytes logger tallyIntervalMs).Run es) :
    let m := (start arena proxyMaxBytes logger tallyIntervalMs).after es
    let as := (start arena proxyMaxBytes logger tallyIntervalMs).answers es
    m.sys.RepInvariant ∧ (∀ e ∈ m.allocations.entries, (⟨e.1, e.2.proxySize⟩ : Slot) ∈ m.sys.live) ∧
    (∀ p, as.countP (Answer.creates p) = as.countP (Answer.frees p) + if p ∈ m.allocations then 1 else 0) ∧
    ∀ band ∈ bands,
      m.account.under "ProxySize" band = m.account.under "FreeSize" band +
        m.allocations.entries.countP (fun e => proxyBand e.2.proxySize = band) ∧
      m.account.under "ProxyBytes" band = m.account.under "FreeBytes" band +
        ((m.allocations.entries.filter fun e => proxyBand e.2.proxySize = band).map fun e => e.2.proxySize).sum := by
  have hw := after_written h hrun
  refine ⟨hw.kept.proper.repInvariant, hw.kept.live, fun p => ?_, fun band hb => ?_⟩
  · have hp := hw.balance fun q _ => if q = p then 1 else 0
    rwa [sum_creates, sum_frees, held_pointer] at hp
  · obtain ⟨hps, hpb, hfs, hfb⟩ := mem_names_band hb
    have hsize := hw.balance fun _ size => if proxyBand size = band then 1 else 0
    have hbytes := hw.balance fun _ size => if proxyBand size = band then size else 0
    rw [held, Tally.sum_ite_countP, ← List.map_congr_left fun a _ => (adds_band band a).1,
      ← List.map_congr_left fun a _ => (adds_band band a).2.2.1] at hsize
    rw [held, Tally.sum_ite_filter, ← List.map_congr_left fun a _ => (adds_band band a).2.1,
      ← List.map_congr_left fun a _ => (adds_band band a).2.2.2] at hbytes
    rw [hw.covers.under hps, hw.covers.under hpb, hw.covers.under hfs, hw.covers.under hfb]
    exact ⟨hsize, hbytes⟩

theorem captures_balance_sample :
    let m := (start Sys.arena64K 0 true 5000).after sample
    m.account.under "ProxySize" "4to64KB" = m.account.under "FreeSize" "4to64KB" + 1 ∧
    m.account.under "ProxyBytes" "4to64KB" = m.account.under "FreeBytes" "4to64KB" + 0x5000 := by
  obtain ⟨-, -, -, hband⟩ := captures_balance Sys.arena64K_started sample_run
  obtain ⟨hsize, hbytes⟩ := hband "4to64KB" (by decide)
  refine ⟨hsize.trans (congrArg _ ?_), hbytes.trans (congrArg _ ?_)⟩
  · decide +kernel
  · decide +kernel

/-- In every run: the totals are the requests that came to the arena, those that were served and those that failed, and
the counters by size and by lane split them up without a rest; the two failures that only a broken arena could bring
about are never counted; and the streak is the number of failures since the last success. -/
theorem requests_accounted {arena : ProxyAllocator} (h : Started arena) {proxyMaxBytes : ℕ} {logger : Bool}
    {tallyIntervalMs : ℕ} {es : List Event} (hrun : (start arena proxyMaxBytes logger tallyIntervalMs).Run es) :
    let m := (start arena proxyMaxBytes logger tallyIntervalMs).after es
    let as := (start arena proxyMaxBytes logger tallyIntervalMs).answers es
    m.account.total.ok = toLong64 (as.countP Answer.isCreated : ℕ) ∧
    m.account.total.fail = toLong64 (as.countP Answer.isRefused : ℕ) ∧
    m.account.total.req = toLong64 (m.account.total.ok + m.account.total.fail) ∧
    (∀ band ∈ buckets,
      m.account.under "PROXY_Alloc_Request" band = m.account.under "PROXY_Alloc_Succeeded" band + m.account.under "PROXY_Alloc_Failed" band) ∧
    m.account.under "PROXY_Alloc_Contained" "Count" + m.account.under "PROXY_Alloc_Excluded" "Count" = as.countP Answer.isCreated ∧
    m.account.under "PROXY_Alloc_Fail" "Contained" + m.account.under "PROXY_Alloc_Fail" "Excluded" = as.countP Answer.isRefused ∧
    (∀ tag ∈ laneTags, m.account.under "PROXY_Alloc_Fail" tag = m.account.under (bandName "PROXY_Alloc_Fail" tag) "ProxyExhausted" +
        m.account.under (bandName "PROXY_Alloc_Fail" tag) "EagerCommitFail" ∧
      m.account.under (bandName "PROXY_Alloc_Fail" tag) "NonProxySlot" = 0 ∧
      m.account.under (bandName "PROXY_Alloc_Fail" tag) "MisalignedProxy" = 0) ∧
    m.account.allocFailStreak = streakOf as % 2 ^ 32 := by
  have hw := after_written h hrun
  have hc := hw.covers
  have hlane : ∀ tag ∈ laneTags, ("PROXY_Alloc_Fail", tag) ∈ names ∧
      ∀ reason ∈ reasons, (bandName "PROXY_Alloc_Fail" tag, reason) ∈ names := by decide +kernel
  refine ⟨congrArg Totals.ok hc.total, congrArg Totals.fail hc.total, ?_, fun band hb => ?_, ?_, ?_, fun tag ht => ?_, hc.streak⟩
  · rw [hc.total]
    simp only [totalsOf, toLong64_add_toLong64]
    rw [countP_asked, Nat.cast_add]
  · rw [hc.under (mem_names (f := ("PROXY_Alloc_Request", buckets)) (by decide) hb),
      hc.under (mem_names (f := ("PROXY_Alloc_Succeeded", buckets)) (by decide) hb),
      hc.under (mem_names (f := ("PROXY_Alloc_Failed", buckets)) (by decide) hb), ← List.sum_map_add,
      List.map_congr_left fun a _ => adds_bucket band a]
  · rw [hc.under (by decide),
      hc.under (by decide), ← List.sum_map_add,
      List.map_congr_left fun a _ => adds_created a, Tally.sum_ite_countP]
    simp
  · rw [hc.under (hlane "Contained" (by decide)).1, hc.under (hlane "Excluded" (by decide)).1, ← List.sum_map_add,
      List.map_congr_left fun a ha => (adds_fail (hw.reasonable a ha)).1, Tally.sum_ite_countP]
    simp
  · obtain ⟨hn, hr⟩ := hlane tag ht
    have hadds := fun a ha => (adds_fail (hw.reasonable a ha)).2 tag ht
    refine ⟨?_, ?_, ?_⟩
    · rw [hc.under hn, hc.under (hr "ProxyExhausted" (by decide)), hc.under (hr "EagerCommitFail" (by decide)),
        ← List.sum_map_add, List.map_congr_left fun a ha => (hadds a ha).1]
    · rw [hc.under (hr "NonProxySlot" (by decide)), List.map_congr_left fun a ha => (hadds a ha).2.1]
      simp
    · rw [hc.under (hr "MisalignedProxy" (by decide)), List.map_congr_left fun a ha => (hadds a ha).2.2]
      simp

theorem requests_accounted_sample :
    let m := (start Sys.arena64K 0 true 5000).after sample
    m.account.total.req = toLong64 (m.account.total.ok + m.account.total.fail) ∧ m.account.allocFailStreak = 2 ∧
    m.account.under "PROXY_Alloc_Fail" "Contained" + m.account.under "PROXY_Alloc_Fail" "Excluded" = 2 := by
  obtain ⟨-, -, hreq, -, -, hfail, -, hstreak⟩ := requests_accounted Sys.arena64K_started sample_run
  refine ⟨hreq, hstreak.trans ?_, hfail.trans ?_⟩
  · decide +kernel
  · decide +kernel

/-- In every run the answers fall into stretches, one for each line of the tally and one since the last line, so that a line
tells of the requests of its stretch and of all up to it: no request is told of twice or left out between two lines.
Below 2^63 answers each total is the sum of the growth told of so far, and what is told of are requests served and
failed. -/
theorem tallies_add_up {arena : ProxyAllocator} (h : Started arena) {proxyMaxBytes : ℕ} {logger : Bool}
    {tallyIntervalMs : ℕ} {es : List Event} (hrun : (start arena proxyMaxBytes logger tallyIntervalMs).Run es) :
    let m := (start arena proxyMaxBytes logger tallyIntervalMs).after es
    let as := (start arena proxyMaxBytes logger tallyIntervalMs).answers es
    (∃ segs rest, as = segs.flatten ++ rest ∧ m.account.tallies = toldOf [] segs) ∧
    (as.length < 2 ^ 63 →
      (∀ pre l post, m.account.tallies = pre ++ l :: post → l.req = ((pre ++ [l]).map TallyLine.dReq).sum ∧
        l.ok = ((pre ++ [l]).map TallyLine.dOk).sum ∧ l.fail = ((pre ++ [l]).map TallyLine.dFail).sum ∧
        l.dReq = l.dOk + l.dFail ∧ 0 ≤ l.dOk ∧ 0 ≤ l.dFail) ∧
      (m.account.tallies.map TallyLine.dOk).sum ≤ as.countP Answer.isCreated ∧
      (m.account.tallies.map TallyLine.dFail).sum ≤ as.countP Answer.isRefused) := by
  intro m as
  obtain ⟨segs, rest, has, -, htallies⟩ := (after_written h hrun).reported
  change as = segs.flatten ++ rest at has
  change m.account.tallies = toldOf [] segs at htallies
  refine ⟨⟨segs, rest, has, htallies⟩, fun hlen => ?_⟩
  rw [has, List.length_append] at hlen
  rw [htallies, has, List.countP_append, List.countP_append]
  refine ⟨fun pre l post hsplit => ?_, ?_, ?_⟩
  · obtain ⟨segs', seg, segs'', rfl, rfl, rfl⟩ := toldOf_split hsplit
    rw [← toldOf_concat]
    have hflat : (segs' ++ seg :: segs'').flatten.length = (segs'.flatten ++ seg).length + segs''.flatten.length := by
      rw [List.flatten_append, List.flatten_cons, ← List.append_assoc, List.length_append]
    have hshort : (segs' ++ [seg]).flatten = segs'.flatten ++ seg := by rw [List.flatten_append, List.flatten_singleton]
    have hbound : (segs' ++ [seg]).flatten.length < 2 ^ 63 := by rw [hshort]; omega
    have hcount : ∀ (p : Answer → Bool), toLong64 ((segs'.flatten ++ seg).countP p : ℕ) = ((segs'.flatten ++ seg).countP p : ℕ) :=
      fun p => toLong64_natCast (List.countP_le_length.trans_lt (by omega))
    have hseg : ∀ (p : Answer → Bool), toLong64 (seg.countP p : ℕ) = (seg.countP p : ℕ) := fun p =>
      toLong64_natCast (List.countP_le_length.trans_lt (by rw [List.length_append] at hflat; omega))
    rw [sum_toldOf told_req hbound, sum_toldOf told_ok hbound, sum_toldOf told_fail hbound, hshort, List.nil_append]
    refine ⟨hcount _, hcount _, hcount _, ?_, ?_, ?_⟩
    · show toLong64 _ = toLong64 _ + toLong64 _
      rw [hseg, hseg, hseg, countP_asked, Nat.cast_add]
    · rw [told_ok, hseg]
      exact Int.natCast_nonneg _
    · rw [told_fail, hseg]
      exact Int.natCast_nonneg _
  · rw [sum_toldOf told_ok (by omega)]
    exact Int.ofNat_le.2 (Nat.le_add_right _ _)
  · rw [sum_toldOf told_fail (by omega)]
    exact Int.ofNat_le.2 (Nat.le_add_right _ _)

theorem tallies_add_up_sample :
    ∃ x y, ((start Sys.arena64K 0 true 5000).after sample).account.tallies = [x, y] ∧ y.req = x.dReq + y.dReq := by
  obtain ⟨-, hshort⟩ := tallies_add_up Sys.arena64K_started sample_run
  obtain ⟨hlines, -, -⟩ := hshort (by decide +kernel)
  have htwo : ((start Sys.arena64K 0 true 5000).after sample).account.tallies =
      [⟨1, 1, 0, 0, 1, 1, 0, 0⟩, ⟨2, 1, 1, 0, 3, 2, 1, 0⟩] := by decide +kernel
  refine ⟨_, _, htwo, ?_⟩
  exact (hlines [_] _ [] htwo).1.trans (by simp)

end Manager

end Ts3Vas.MemoryManager
