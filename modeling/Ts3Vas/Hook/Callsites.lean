/-
Where a request for address space is said to come from: RecordLocalVasReserve, which looks for the originator of a local
reserve past the frames of the tool and of the CRT, and RecordVaMixCounters, which counts each call by its kind and its caller.
-/
import Ts3Vas.Hook.Bands
import Ts3Vas.Lib.Tally

namespace Ts3Vas.Callsites

/-! ## The stack -/

/-- A frame, with the base name of its module and its offset there. -/
structure Origin where
  frame : ℕ
  modName : List Char
  offset : ℕ
  deriving DecidableEq

def selfNames : List String := ["TS3VASManager"]

def crtNames : List String := ["msvcr", "msvcp", "vcruntime", "ucrtbase"]

def gameNames : List String := ["TS3W.exe", "TS3.exe", "Game_Win32.exe"]

/-- The loop of `ResolveOriginatorFrame` over the rest of the frames, with the fallback so far. -/
def resolveFrom (mods : List Module) : List ℕ → Option Origin → Option Origin
  | [], fallback => fallback
  | a :: frames, fallback =>
    if a = 0 then fallback
    else match moduleAt mods a with
      | none => resolveFrom mods frames fallback
      | some m =>
        let base := m.baseName 64
        if namesOneOf selfNames base then resolveFrom mods frames fallback
        else if namesOneOf crtNames base then resolveFrom mods frames fallback
        else
          let off := a - m.base
          if namesOneOf gameNames base then some ⟨a, base, off⟩
          else resolveFrom mods frames (if fallback = none then some ⟨a, base, off⟩ else fallback)

def resolveOriginatorFrame (mods : List Module) (stack : List ℕ) : Option Origin := resolveFrom mods stack none

/-- The loop of `IsSelfOnCurrentStack`, with the frames of the tool at the top so far, and whether they have ended. -/
def selfFrom (mods : List Module) : List ℕ → ℕ → Bool → Bool
  | [], leadingSelfFrames, _ => decide (3 ≤ leadingSelfFrames)
  | a :: frames, leadingSelfFrames, sawNonSelf =>
    if a = 0 then decide (3 ≤ leadingSelfFrames)
    else match moduleAt mods a with
      | none => selfFrom mods frames leadingSelfFrames sawNonSelf
      | some m =>
        let isSelf := namesOneOf selfNames m.name
        if !sawNonSelf && isSelf then selfFrom mods frames (leadingSelfFrames + 1) sawNonSelf
        else if isSelf then true
        else selfFrom mods frames leadingSelfFrames true

def isSelfOnCurrentStack (mods : List Module) (stack : List ℕ) : Bool := selfFrom mods stack 0 false

/-- What a frame may be put down to: a module that is neither the tool nor the CRT. -/
def originAt (mods : List Module) (a : ℕ) : Option Origin :=
  match moduleAt mods a with
  | none => none
  | some m =>
    if namesOneOf selfNames (m.baseName 64) || namesOneOf crtNames (m.baseName 64) then none
    else some ⟨a, m.baseName 64, a - m.base⟩

def Origin.game (o : Origin) : Bool := namesOneOf gameNames o.modName

/-- The frames up to the first null, as far as they may be put down to a module. -/
def origins (mods : List Module) (stack : List ℕ) : List Origin := (stack.takeWhile (· ≠ 0)).filterMap (originAt mods)

section
variable {mods : List Module} {a : ℕ} {frames : List ℕ}

theorem origins_null : origins mods (0 :: frames) = [] := rfl

theorem origins_cons (ha : a ≠ 0) : origins mods (a :: frames) =
    (match originAt mods a with
      | none => origins mods frames
      | some o => o :: origins mods frames) := by
  have hwhile : (a :: frames).takeWhile (fun x => decide (x ≠ 0)) = a :: frames.takeWhile (fun x => decide (x ≠ 0)) :=
    List.takeWhile_cons_of_pos (decide_eq_true ha)
  unfold origins
  rw [hwhile]
  cases h : originAt mods a with
  | none => rw [List.filterMap_cons_none h]
  | some o => rw [List.filterMap_cons_some h]

/-- One frame of the loop. -/
theorem resolveFrom_cons (ha : a ≠ 0) (fallback : Option Origin) : resolveFrom mods (a :: frames) fallback =
    (match originAt mods a with
      | none => resolveFrom mods frames fallback
      | some o => if o.game then some o else resolveFrom mods frames (fallback.or (some o))) := by
  rw [resolveFrom, if_neg ha, originAt]
  cases moduleAt mods a with
  | none => rfl
  | some m =>
    dsimp only
    cases hself : namesOneOf selfNames (m.baseName 64) with
    | true => rfl
    | false =>
      cases hcrt : namesOneOf crtNames (m.baseName 64) with
      | true => rfl
      | false => cases fallback <;> rfl

/-- The originator is the first frame of the game, or the first that may be put down to a module at all. -/
theorem resolveFrom_eq : ∀ (stack : List ℕ) (fallback : Option Origin), resolveFrom mods stack fallback =
    ((origins mods stack).find? Origin.game).or (fallback.or (origins mods stack).head?)
  | [], fallback => by
    rw [resolveFrom]
    cases fallback <;> rfl
  | a :: frames, fallback => by
    by_cases ha : a = 0
    · subst ha
      rw [resolveFrom, if_pos rfl, origins_null]
      cases fallback <;> rfl
    · rw [resolveFrom_cons ha, origins_cons ha]
      cases originAt mods a with
      | none => exact resolveFrom_eq frames fallback
      | some o =>
        dsimp only
        cases hgame : o.game with
        | true => rw [if_pos rfl, List.find?_cons_of_pos hgame]; rfl
        | false =>
          rw [if_neg Bool.false_ne_true, List.find?_cons_of_neg (by rw [hgame]; nofun), resolveFrom_eq frames]
          cases fallback <;> rfl

example : resolveOriginatorFrame [⟨0x10000, 0x20000, "TS3VASManager.asi".toList⟩, ⟨0x70000, 0x80000, "msvcr80.dll".toList⟩,
    ⟨0x400000, 0x500000, "TS3W.exe".toList⟩] [0x10010, 0x70020, 0x400030] = some ⟨0x400030, "TS3W.exe".toList, 0x30⟩ := by
  decide +kernel

end

/-- The frames up to the first null that lie in a module: whether it is the tool. -/
def selfMarks (mods : List Module) (stack : List ℕ) : List Bool :=
  (stack.takeWhile (· ≠ 0)).filterMap fun a => (moduleAt mods a).map fun m => namesOneOf selfNames m.name

section
variable {mods : List Module} {a : ℕ} {frames : List ℕ}

theorem selfMarks_cons (ha : a ≠ 0) : selfMarks mods (a :: frames) =
    (match moduleAt mods a with
      | none => selfMarks mods frames
      | some m => namesOneOf selfNames m.name :: selfMarks mods frames) := by
  have hwhile : (a :: frames).takeWhile (fun x => decide (x ≠ 0)) = a :: frames.takeWhile (fun x => decide (x ≠ 0)) :=
    List.takeWhile_cons_of_pos (decide_eq_true ha)
  unfold selfMarks
  rw [hwhile]
  cases h : moduleAt mods a with
  | none => rw [List.filterMap_cons_none (by rw [h]; rfl)]
  | some m => rw [List.filterMap_cons_some (by rw [h]; rfl)]

/-- The tool is there again after another module, or it has three frames at the top, those counted before among them. -/
def selfAmong (leading : ℕ) (marks : List Bool) : Bool :=
  (marks.dropWhile id).any id || decide (3 ≤ leading + (marks.takeWhile id).length)

theorem selfAmong_true (leading : ℕ) (marks : List Bool) : selfAmong leading (true :: marks) = selfAmong (leading + 1) marks := by
  have hlength : leading + (marks.takeWhile id).length.succ = leading + 1 + (marks.takeWhile id).length := by omega
  exact congrArg (fun n => (marks.dropWhile id).any id || decide (3 ≤ n)) hlength

/-- Once another module was there, a frame of the tool is enough. -/
theorem selfFrom_seen (leading : ℕ) : ∀ stack : List ℕ, selfFrom mods stack leading true =
    ((selfMarks mods stack).any id || decide (3 ≤ leading))
  | [] => rfl
  | a :: frames => by
    by_cases ha : a = 0
    · subst ha
      rfl
    · rw [selfFrom, if_neg ha, selfMarks_cons ha]
      cases moduleAt mods a with
      | none => exact selfFrom_seen leading frames
      | some m =>
        dsimp only
        cases namesOneOf selfNames m.name with
        | true => rfl
        | false => exact selfFrom_seen leading frames

theorem selfFrom_leading : ∀ (stack : List ℕ) (leading : ℕ), selfFrom mods stack leading false =
    selfAmong leading (selfMarks mods stack)
  | [], _ => rfl
  | a :: frames, leading => by
    by_cases ha : a = 0
    · subst ha
      rfl
    · rw [selfFrom, if_neg ha, selfMarks_cons ha]
      cases moduleAt mods a with
      | none => exact selfFrom_leading frames leading
      | some m =>
        dsimp only
        cases namesOneOf selfNames m.name with
        | true => exact (selfFrom_leading frames (leading + 1)).trans (selfAmong_true ..).symm
        | false => exact selfFrom_seen leading frames

end

/-! ## The local reserves -/

/-- What RecordLocalVasReserve is told, and the two stacks that it captures, its own and that of ClassifyCallerModule. -/
structure LocalReserve where
  size : ℕ
  failed : Bool
  allocType : ℕ
  protect : ℕ
  fixedBase : Bool
  stack : List ℕ
  classified : List ℕ

def isExecProtect (protect : ℕ) : Bool := hasFlag protect pageExecuteAny

/-- A line of RESERVE_CTX. -/
structure ReserveCtx where
  kind : AllocCallerKind
  origin : Option Origin
  size : ℕ
  flags : String
  failed : Bool
  deriving DecidableEq

structure LocalVasStats where
  reserveCalls : ℕ
  reserveBytes : ℕ
  reserveFailedCalls : ℕ
  reserveFailedBytes : ℕ
  byBytes : AllocCallerKind → ℕ
  /-- The calls of TrackLocalVasCaller that do not return at once. -/
  tracked : List (ℕ × ℕ)
  contexts : List ReserveCtx

namespace LocalReserve

variable (mods : List Module) (r : LocalReserve)

def kind : AllocCallerKind := (classifyCallerModule mods (r.stack.headD 0) r.classified).1

def flags : String :=
  let flags := (if hasFlag r.allocType MEM_WRITE_WATCH then "ww," else "") ++ (if isExecProtect r.protect then "exec," else "") ++
    (if hasFlag r.allocType (MEM_PHYSICAL ||| MEM_LARGE_PAGES) then "phys," else "") ++
    (if r.fixedBase then "fixedbase," else "")
  if flags = "" then "plain" else flags

/-- The address that the reserve is put down to, the top of the stack where there is no originator. -/
def origin : ℕ :=
  match resolveOriginatorFrame mods r.stack with
  | some o => o.frame
  | none => r.stack.headD 0

def context : ReserveCtx := ⟨r.kind mods, resolveOriginatorFrame mods r.stack, r.size, r.flags, r.failed⟩

end LocalReserve

namespace LocalVasStats

def zero : LocalVasStats := ⟨0, 0, 0, 0, fun _ => 0, [], []⟩

def recordLocalVasReserve (mods : List Module) (s : LocalVasStats) (r : LocalReserve) : LocalVasStats where
  reserveCalls := (s.reserveCalls + 1) % 2 ^ 64
  reserveBytes := (s.reserveBytes + r.size) % 2 ^ 64
  reserveFailedCalls := if r.failed then (s.reserveFailedCalls + 1) % 2 ^ 64 else s.reserveFailedCalls
  reserveFailedBytes := if r.failed then (s.reserveFailedBytes + r.size) % 2 ^ 64 else s.reserveFailedBytes
  byBytes := Function.update s.byBytes (r.kind mods) ((s.byBytes (r.kind mods) + r.size) % 2 ^ 64)
  tracked := if r.origin mods = 0 then s.tracked else s.tracked ++ [(r.origin mods, r.size)]
  contexts := if 1024 * 1024 ≤ r.size then s.contexts ++ [r.context mods] else s.contexts

abbrev after (mods : List Module) (rs : List LocalReserve) : LocalVasStats := Run.after (recordLocalVasReserve mods) zero rs

def kinds : List AllocCallerKind := [.unknown, .gameExe, .runtimeDll, .modDll, .graphics, .systemDll]

theorem kinds_all (kind : AllocCallerKind) : kind ∈ kinds := by cases kind <;> decide

/-- What the books say of the reserves so far. -/
structure Kept (mods : List Module) (s : LocalVasStats) (rs : List LocalReserve) : Prop where
  calls : s.reserveCalls = rs.length % 2 ^ 64
  bytes : s.reserveBytes = (rs.map LocalReserve.size).sum % 2 ^ 64
  failedCalls : s.reserveFailedCalls = rs.countP LocalReserve.failed % 2 ^ 64
  failedBytes : s.reserveFailedBytes = ((rs.filter LocalReserve.failed).map LocalReserve.size).sum % 2 ^ 64
  byBytes : ∀ kind, s.byBytes kind = Tally.amount (fun r => some (r.kind mods)) LocalReserve.size rs kind % 2 ^ 64
  tracked : s.tracked = (rs.filter fun r => r.origin mods ≠ 0).map fun r => (r.origin mods, r.size)
  contexts : s.contexts = (rs.filter fun r => 1024 * 1024 ≤ r.size).map (LocalReserve.context mods)

section
variable {mods : List Module} {s : LocalVasStats} {rs : List LocalReserve}

theorem Kept.step (h : Kept mods s rs) (r : LocalReserve) : Kept mods (s.recordLocalVasReserve mods r) (rs ++ [r]) := by
  constructor
  · rw [List.length_append, List.length_singleton]
    exact (congrArg (fun n => (n + 1) % 2 ^ 64) h.calls).trans (Nat.mod_add_mod ..)
  · rw [List.map_append, List.sum_append, List.map_singleton, List.sum_singleton]
    exact (congrArg (fun n => (n + r.size) % 2 ^ 64) h.bytes).trans (Nat.mod_add_mod ..)
  · rw [List.countP_append, List.countP_singleton, recordLocalVasReserve]
    cases r.failed with
    | false => exact h.failedCalls
    | true => exact (congrArg (fun n => (n + 1) % 2 ^ 64) h.failedCalls).trans (Nat.mod_add_mod ..)
  · rw [List.filter_append, List.map_append, List.sum_append, recordLocalVasReserve]
    cases hf : r.failed with
    | false => simpa [hf] using h.failedBytes
    | true => simp [hf, h.failedBytes]
  · intro kind
    rw [Tally.amount_concat]
    by_cases hk : r.kind mods = kind
    · subst hk
      rw [if_pos rfl]
      exact (Function.update_self ..).trans
        ((congrArg (fun n => (n + r.size) % 2 ^ 64) (h.byBytes _)).trans (Nat.mod_add_mod ..))
    · rw [if_neg fun he => hk (Option.some.inj he)]
      exact (Function.update_of_ne (Ne.symm hk) ..).trans (h.byBytes kind)
  · rw [List.filter_append, List.map_append, recordLocalVasReserve]
    by_cases ho : r.origin mods = 0
    · simpa [ho] using h.tracked
    · simp [ho, h.tracked]
  · rw [List.filter_append, List.map_append, recordLocalVasReserve]
    by_cases hs : 1024 * 1024 ≤ r.size
    · simp [hs, h.contexts]
    · simpa [hs] using h.contexts

theorem after_kept (mods : List Module) (rs : List LocalReserve) : Kept mods (after mods rs) rs := by
  induction rs using List.reverseRecOn with
  | nil => exact ⟨rfl, rfl, rfl, rfl, fun _ => rfl, rfl, rfl⟩
  | append_singleton rs r ih =>
    rw [after, Run.after_append]
    exact ih.step r

theorem sum_amount_kinds (mods : List Module) (rs : List LocalReserve) :
    (kinds.map (Tally.amount (fun r => some (r.kind mods)) LocalReserve.size rs)).sum = (rs.map LocalReserve.size).sum := by
  rw [Tally.sum_amount (by decide)]
  refine congrArg List.sum (List.map_congr_left fun r _ => if_pos ?_)
  exact ⟨r.kind mods, kinds_all _, rfl⟩

/-- Whatever local reserves are recorded, the bytes are split over the kinds of caller with nothing lost or told twice, and each
reserve is tracked under its originator: the first frame of the game on the stack, else the first frame of a module
that is neither the tool nor the CRT, else the top of the stack. -/
theorem reserves_attributed (mods : List Module) (rs : List LocalReserve) :
    Kept mods (after mods rs) rs ∧
      (kinds.map (after mods rs).byBytes).sum % 2 ^ 64 = (after mods rs).reserveBytes ∧
      ∀ r ∈ rs, r.origin mods = ((((origins mods r.stack).find? Origin.game).or (origins mods r.stack).head?).map
        Origin.frame).getD (r.stack.headD 0) := by
  have hkept := after_kept mods rs
  refine ⟨hkept, ?_, ?_⟩
  · have hmap : kinds.map (after mods rs).byBytes =
        (kinds.map (Tally.amount (fun r => some (r.kind mods)) LocalReserve.size rs)).map (· % 2 ^ 64) := by
      rw [List.map_map]
      exact List.map_congr_left fun kind _ => hkept.byBytes kind
    rw [hmap, Tally.sum_mod, sum_amount_kinds, hkept.bytes]
  · intro r _
    unfold LocalReserve.origin resolveOriginatorFrame
    rw [resolveFrom_eq, Option.none_or]
    cases ((origins mods r.stack).find? Origin.game).or (origins mods r.stack).head? <;> rfl

end

end LocalVasStats

/-! ## Additions to named counters -/

section
variable {κ : Type} [DecidableEq κ] (l : List (κ × ℕ)) (x : κ)

/-- What the additions of the list come to for one counter. -/
def weigh : ℕ := ((l.filter fun y => y.1 = x).map Prod.snd).sum

@[simp] theorem weigh_nil : weigh [] x = 0 := rfl

@[simp] theorem weigh_cons (y : κ × ℕ) : weigh (y :: l) x = (if y.1 = x then y.2 else 0) + weigh l x := by
  unfold weigh
  by_cases h : y.1 = x
  · simp [h]
  · simp [h]

/-- The names stand for the counters. -/
theorem sumUnder_named {name : κ → String} (hname : Function.Injective name) :
    sumUnder (l.map fun y => ⟨name y.1, y.2⟩) (name x) = weigh l x := by
  unfold sumUnder weigh
  rw [List.filter_map, List.map_map]
  have hsame : ((fun i : Increment => decide (i.name = name x)) ∘ fun y : κ × ℕ => ⟨name y.1, y.2⟩) =
      fun y => decide (y.1 = x) := funext fun y => decide_eq_decide.2 hname.eq_iff
  rw [hsame]
  rfl

end

/-! ## The mix of calls -/

inductive VaCallKind
  | reserveOnly | commitOnly | reserveCommit
  deriving DecidableEq, Repr

namespace VaCallKind

def of (allocType : ℕ) : VaCallKind :=
  if hasFlag allocType MEM_RESERVE && !hasFlag allocType MEM_COMMIT then .reserveOnly
  else if hasFlag allocType MEM_COMMIT && !hasFlag allocType MEM_RESERVE then .commitOnly
  else .reserveCommit

def tag : VaCallKind → String
  | .reserveOnly => "ReserveOnly"
  | .commitOnly => "CommitOnly"
  | .reserveCommit => "ReserveCommit"

def all : List VaCallKind := [.reserveOnly, .commitOnly, .reserveCommit]

theorem mem_all (k : VaCallKind) : k ∈ all := by cases k <;> decide

end VaCallKind

/-- The buckets of `VaCallerBucketTag`. -/
inductive Bucket
  | self | game | graphics | runtime | system | mod | unknown
  deriving DecidableEq, Repr

namespace Bucket

def of (kind : AllocCallerKind) (isSelf : Bool) : Bucket :=
  if isSelf then .self
  else match kind with
    | .gameExe => .game
    | .graphics => .graphics
    | .runtimeDll => .runtime
    | .systemDll => .system
    | .modDll => .mod
    | .unknown => .unknown

def tag : Bucket → String
  | .self => "Self"
  | .game => "Game"
  | .graphics => "Graphics"
  | .runtime => "Runtime"
  | .system => "System"
  | .mod => "Mod"
  | .unknown => "Unknown"

def all : List Bucket := [.self, .game, .graphics, .runtime, .system, .mod, .unknown]

theorem mem_all (b : Bucket) : b ∈ all := by cases b <;> decide

end Bucket

/-- The counters that RecordVaMixCounters adds to. -/
inductive MixCounter
  | total
  | count (k : VaCallKind)
  | bytes (k : VaCallKind)
  | bucketCount (k : VaCallKind) (b : Bucket)
  | bucketBytes (k : VaCallKind) (b : Bucket)
  | execCount
  | execBytes
  | execBucketCount (b : Bucket)
  | execBucketBytes (b : Bucket)
  deriving DecidableEq, Repr

namespace MixCounter

def name : MixCounter → String
  | total => "VAS_VA_Call_Total"
  | count k => "VAS_VA_" ++ k.tag ++ "_Count"
  | bytes k => "VAS_VA_Bytes_" ++ k.tag
  | bucketCount k b => "VAS_VA_" ++ k.tag ++ "_" ++ b.tag ++ "_Count"
  | bucketBytes k b => "VAS_VA_" ++ k.tag ++ "_" ++ b.tag ++ "_Bytes"
  | execCount => "VAS_VA_ExecProtect_Count"
  | execBytes => "VAS_VA_ExecProtect_Bytes"
  | execBucketCount b => "VAS_VA_ExecProtect_" ++ b.tag ++ "_Count"
  | execBucketBytes b => "VAS_VA_ExecProtect_" ++ b.tag ++ "_Bytes"

def all : List MixCounter :=
  [total, execCount, execBytes] ++ VaCallKind.all.map count ++ VaCallKind.all.map bytes ++
    VaCallKind.all.flatMap (fun k => Bucket.all.map (bucketCount k)) ++
    VaCallKind.all.flatMap (fun k => Bucket.all.map (bucketBytes k)) ++
    Bucket.all.map execBucketCount ++ Bucket.all.map execBucketBytes

theorem mem_all (c : MixCounter) : c ∈ all := by
  unfold all
  simp only [List.mem_append, List.mem_cons, List.mem_map, List.mem_flatMap, List.not_mem_nil]
  cases c <;> simp [VaCallKind.mem_all, Bucket.mem_all]

/-- No two counters share a name. -/
theorem name_injective : Function.Injective name := by
  have hnodup : (all.map name).Nodup := by decide +kernel
  exact fun c c' h => List.inj_on_of_nodup_map hnodup (mem_all c) (mem_all c') h

end MixCounter

/-- A call that RecordVaMixCounters sees, with the stacks that IsSelfOnCurrentStack and ClassifyCallerModule capture. -/
structure VaCall where
  size : ℕ
  allocType : ℕ
  protect : ℕ
  returnAddress : ℕ
  stack : List ℕ
  classified : List ℕ

namespace VaCall

variable (mods : List Module) (v : VaCall)

def kind : VaCallKind := .of v.allocType

def bucket : Bucket := .of (classifyCallerModule mods v.returnAddress v.classified).1 (isSelfOnCurrentStack mods v.stack)

def exec : Bool := isExecProtect v.protect

/-- The counters with what is added to them, in the order of the source. -/
def additions : List (MixCounter × ℕ) :=
  if v.size = 0 then []
  else
    [(.total, 1), (.count v.kind, 1), (.bytes v.kind, v.size), (.bucketCount v.kind (v.bucket mods), 1),
      (.bucketBytes v.kind (v.bucket mods), v.size)] ++
    if v.exec then
      [(.execCount, 1), (.execBytes, v.size), (.execBucketCount (v.bucket mods), 1), (.execBucketBytes (v.bucket mods), v.size)]
    else []

def recordVaMixCounters : List Increment := (v.additions mods).map fun x => ⟨x.1.name, x.2⟩

/-- What one call adds to a counter. -/
def adds : MixCounter → ℕ
  | .total => if v.size ≠ 0 then 1 else 0
  | .count k => if v.size ≠ 0 ∧ v.kind = k then 1 else 0
  | .bytes k => if v.size ≠ 0 ∧ v.kind = k then v.size else 0
  | .bucketCount k b => if (v.size ≠ 0 ∧ v.kind = k) ∧ v.bucket mods = b then 1 else 0
  | .bucketBytes k b => if (v.size ≠ 0 ∧ v.kind = k) ∧ v.bucket mods = b then v.size else 0
  | .execCount => if v.size ≠ 0 ∧ v.exec then 1 else 0
  | .execBytes => if v.size ≠ 0 ∧ v.exec then v.size else 0
  | .execBucketCount b => if (v.size ≠ 0 ∧ v.exec) ∧ v.bucket mods = b then 1 else 0
  | .execBucketBytes b => if (v.size ≠ 0 ∧ v.exec) ∧ v.bucket mods = b then v.size else 0

variable {mods v}

theorem sumUnder_record (x : MixCounter) : sumUnder (v.recordVaMixCounters mods) x.name = v.adds mods x := by
  rw [recordVaMixCounters, sumUnder_named _ _ MixCounter.name_injective, additions]
  by_cases hs : v.size = 0
  · cases x <;> simp [adds, hs]
  · -- the entry of the counter's own form is left, under the condition that its parameters agree
    cases he : v.exec <;> cases x <;> simp [adds, hs, he]

/-- The sum of what the calls add to a counter. -/
def under (mods : List Module) (vs : List VaCall) (x : MixCounter) : ℕ :=
  sumUnder (vs.flatMap (recordVaMixCounters mods)) x.name

theorem under_eq (mods : List Module) (vs : List VaCall) (x : MixCounter) : under mods vs x = (vs.map fun v => v.adds mods x).sum := by
  rw [under, sumUnder_flatMap]
  exact congrArg List.sum (List.map_congr_left fun v _ => sumUnder_record x)

/-- Where each call adds to some counters together what it adds to another, so do all calls. -/
theorem under_sum {κ : Type} (ks : List κ) (part : κ → MixCounter) {whole : VaCall → ℕ} {vs : List VaCall}
    (h : ∀ v : VaCall, (ks.map fun k => v.adds mods (part k)).sum = whole v) :
    (ks.map fun k => under mods vs (part k)).sum = (vs.map whole).sum := by
  induction vs with
  | nil =>
    simp [under_eq]
  | cons v vs ih =>
    have hsplit : (ks.map fun k => under mods (v :: vs) (part k)) =
        ks.map fun k => v.adds mods (part k) + under mods vs (part k) := by
      refine List.map_congr_left fun k _ => ?_
      rw [under_eq, under_eq, List.map_cons, List.sum_cons]
    rw [hsplit, List.sum_map_add, ih, h, List.map_cons, List.sum_cons]

theorem sum_kinds (p : Prop) [Decidable p] (n : ℕ) (k₀ : VaCallKind) :
    (VaCallKind.all.map fun k => if p ∧ k₀ = k then n else 0).sum = if p then n else 0 := by
  by_cases hp : p
  · cases k₀ <;> simp [VaCallKind.all, hp]
  · simp [hp]

theorem sum_buckets (p : Prop) [Decidable p] (n : ℕ) (b₀ : Bucket) :
    (Bucket.all.map fun b => if p ∧ b₀ = b then n else 0).sum = if p then n else 0 := by
  by_cases hp : p
  · cases b₀ <;> simp [Bucket.all, hp]
  · simp [hp]

/-- Over any calls, the total is the number of calls and the three kinds make it up, and for each kind the seven callers make up
the kind, in number and in bytes; of the executable ones the callers make up the total as well. The tool itself is the
caller where a frame of it comes back after another module's, or where it has three frames at the top. -/
theorem mix_adds_up (mods : List Module) (vs : List VaCall) :
    under mods vs .total = vs.countP (fun v => v.size ≠ 0) ∧
      (VaCallKind.all.map fun k => under mods vs (.count k)).sum = under mods vs .total ∧
      (VaCallKind.all.map fun k => under mods vs (.bytes k)).sum = (vs.map VaCall.size).sum ∧
      (∀ k, (Bucket.all.map fun b => under mods vs (.bucketCount k b)).sum = under mods vs (.count k) ∧
        (Bucket.all.map fun b => under mods vs (.bucketBytes k b)).sum = under mods vs (.bytes k)) ∧
      (Bucket.all.map fun b => under mods vs (.execBucketCount b)).sum = under mods vs .execCount ∧
      (Bucket.all.map fun b => under mods vs (.execBucketBytes b)).sum = under mods vs .execBytes ∧
      under mods vs .execCount = vs.countP (fun v => v.size ≠ 0 ∧ v.exec = true) ∧
      under mods vs .execBytes = ((vs.filter fun v => v.exec = true).map VaCall.size).sum ∧
      ∀ v ∈ vs, v.bucket mods = .self ↔ selfAmong 0 (selfMarks mods v.stack) = true := by
  have hsize (v : VaCall) : (if v.size ≠ 0 then v.size else 0) = v.size := by split <;> omega
  have hexec (v : VaCall) : (if v.size ≠ 0 ∧ v.exec = true then v.size else 0) = if v.exec = true then v.size else 0 := by
    by_cases hs : v.size = 0 <;> simp [hs]
  refine ⟨?_, ?_, ?_, fun k => ⟨?_, ?_⟩, ?_, ?_, ?_, ?_, ?_⟩
  · rw [under_eq]
    exact Tally.sum_ite_countP (fun v : VaCall => v.size ≠ 0) vs
  · rw [under_sum _ _ fun v => sum_kinds (v.size ≠ 0) 1 v.kind, under_eq]
    rfl
  · rw [under_sum _ _ fun v => sum_kinds (v.size ≠ 0) v.size v.kind]
    exact congrArg List.sum (List.map_congr_left fun v _ => hsize v)
  · rw [under_sum _ _ fun v => sum_buckets (v.size ≠ 0 ∧ v.kind = k) 1 (v.bucket mods), under_eq]
    rfl
  · rw [under_sum _ _ fun v => sum_buckets (v.size ≠ 0 ∧ v.kind = k) v.size (v.bucket mods), under_eq]
    rfl
  · rw [under_sum _ _ fun v => sum_buckets (v.size ≠ 0 ∧ v.exec = true) 1 (v.bucket mods), under_eq]
    rfl
  · rw [under_sum _ _ fun v => sum_buckets (v.size ≠ 0 ∧ v.exec = true) v.size (v.bucket mods), under_eq]
    rfl
  · rw [under_eq]
    exact Tally.sum_ite_countP (fun v : VaCall => v.size ≠ 0 ∧ v.exec = true) vs
  · rw [under_eq, ← Tally.sum_ite_filter (fun v : VaCall => v.exec = true) VaCall.size]
    exact congrArg List.sum (List.map_congr_left fun v _ => hexec v)
  · intro v _
    have hself : isSelfOnCurrentStack mods v.stack = selfAmong 0 (selfMarks mods v.stack) := selfFrom_leading v.stack 0
    rw [← hself]
    unfold bucket Bucket.of
    cases isSelfOnCurrentStack mods v.stack with
    | true => exact iff_of_true rfl rfl
    | false =>
      refine iff_of_false ?_ nofun
      cases (classifyCallerModule mods v.returnAddress v.classified).1 <;> nofun

end VaCall

end Ts3Vas.Callsites
