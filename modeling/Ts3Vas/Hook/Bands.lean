/-
What `Hooked_RtlAllocateHeap` counts of a request by its size: the band of the request when it is seen,
and the band once more with what became of it. The two bands are computed by different functions, and
what became of it is counted at four places.
-/
import Ts3Vas.Hook.Tiers
import Ts3Vas.Observe.Analytics

namespace Ts3Vas

open Prog

variable {σ : Type}

/-! ## The recorders -/

/-- A call `IncrementCounter(name, value)`. -/
structure Increment where
  name : String
  value : ℕ
  deriving DecidableEq, Repr

/-- `RecordAllocSizeBucket`. -/
def recordAllocSizeBucket (size : ℕ) : List Increment :=
  let (cntName, byteName) :=
    if size < 4 * 1024 then ("AllocSize_0to4KB", "AllocBytes_0to4KB")
    else if size < 64 * 1024 then ("AllocSize_4to64KB", "AllocBytes_4to64KB")
    else if size < 256 * 1024 then ("AllocSize_64to256KB", "AllocBytes_64to256KB")
    else if size < 512 * 1024 then ("AllocSize_256to512KB", "AllocBytes_256to512KB")
    else if size < 1024 * 1024 then ("AllocSize_512KBto1MB", "AllocBytes_512KBto1MB")
    else if size < 4 * 1024 * 1024 then ("AllocSize_1to4MB", "AllocBytes_1to4MB")
    else if size < 16 * 1024 * 1024 then ("AllocSize_4to16MB", "AllocBytes_4to16MB")
    else ("AllocSize_16MBplus", "AllocBytes_16MBplus")
  [⟨cntName, 1⟩, ⟨byteName, size⟩]

/-- The format `%s_%s`. -/
def bandName (kind band : String) : String := kind ++ "_" ++ band

/-- `RecordHeapBandBucket`. -/
def recordHeapBandBucket (size : ℕ) (disposition : String) : List Increment :=
  if size < heapCaptureThreshold then []
  else
    let band :=
      if size < 256 * 1024 then "64to256KB"
      else if size < 512 * 1024 then "256to512KB"
      else if size < 1024 * 1024 then "512KBto1MB"
      else if size < 4 * 1024 * 1024 then "1to4MB"
      else if size < 16 * 1024 * 1024 then "4to16MB"
      else "16MBplus"
    [⟨bandName disposition band, 1⟩]

/-- `LastCreateWasSelfSkip`, after a `CreateProxyAllocation` that began in this state. -/
def lastCreateWasSelfSkip (w : World σ) (caller : Caller) (size : ℕ) : Bool :=
  !w.thread.bootstrapping && (caller.self || decide (w.tool.proxyMaxBytes ≠ 0 ∧ w.tool.proxyMaxBytes ≤ size))

/-! ## The hook with what it counts -/

/-- The arena branch of `Hooked_RtlAllocateHeap`. -/
def recordArenaCapture (env : Env σ) (caller : Caller) (size : ℕ) : Hook σ (List Increment × ℕ) := do
  let w ← get
  if capturable w.tool size then do
    onlyIf (!w.tool.proxyActive) activateProxy
    let w ← get
    if w.tool.proxyActive then
      if 0 < size ∧ !caller.audioModule ∧ capturable w.tool size then do
        let p ← createProxyAllocation env caller size PAGE_READWRITE
        return (if p ≠ 0 then recordHeapBandBucket size "HeapBandCaptured" ++
            [⟨"RtlAllocHeap_Captureed", size⟩, ⟨"RtlAllocHeap_CaptureCount", 1⟩]
          else if lastCreateWasSelfSkip w caller size then recordHeapBandBucket size "HeapBandSelf"
          else recordHeapBandBucket size "HeapBandMissed", p)
      else return (recordHeapBandBucket size "HeapBandMissed", 0)
    else return ([⟨"RtlAllocHeap_Observed", size⟩, ⟨"RtlAllocHeap_ObservedCount", 1⟩] ++
      recordHeapBandBucket size "HeapBandMissed", 0)
  else return ([], 0)

/-- `Hooked_RtlAllocateHeap`, with the counters that it increments itself or by the two recorders. -/
def recordRtlAllocateHeap (env : Env σ) (caller : Caller) (heap flags size : ℕ) : Hook σ (List Increment × ℕ) := do
  let w ← get
  if w.busy || !w.tool.memManager || w.tool.shuttingDown then do
    let r ← callValue env (.rtlAllocateHeap heap flags size)
    return ([], r)
  else rtlHookScope do
    setInHook true
    let p ← corralCapture env caller size
    if p ≠ 0 then do
      setInHook false
      return (recordAllocSizeBucket size ++ (recordHeapBandBucket size "HeapBandCaptured" ++
        [⟨"HeapCorral_Redirected", 1⟩, ⟨"HeapCorral_RedirectedBytes", size⟩]), p)
    else do
      let w ← get
      let p ← attempt (sardineGate w.tool caller heap size) (proxyHeapAlloc env flags size)
      if p ≠ 0 then do
        probeSardineLoss env p
        setInHook false
        return (recordAllocSizeBucket size ++ [⟨"ProxyHeap_Alloc", 1⟩, ⟨"ProxyHeap_AllocBytes", size⟩], p)
      else do
        let full := if sardineGate w.tool caller heap size then [⟨"ProxyHeap_Full_Fallback", 1⟩] else []
        let (counted, p) ← recordArenaCapture env caller size
        if p ≠ 0 then do
          setInHook false
          return (recordAllocSizeBucket size ++ (full ++ counted), p)
        else do
          let r ← callValue env (.rtlAllocateHeap heap flags size)
          setInHook false
          return (recordAllocSizeBucket size ++ (full ++ counted), r)

section
variable (env : Env σ) (caller : Caller) (heap flags size : ℕ)

theorem map_recordArenaCapture : Prod.snd <$> recordArenaCapture env caller size = arenaCapture env caller size := by
  unfold recordArenaCapture arenaCapture
  simp only [map_bind, apply_ite (Functor.map Prod.snd), map_pure, bind_pure]
  refine bind_congr fun w => ?_
  split
  · refine bind_congr fun _ => bind_congr fun v => ?_
    cases v.tool.proxyActive with
    | true => simp [and_assoc]
    | false => simp
  · rfl

/-- The counters are all that is added. -/
theorem map_recordRtlAllocateHeap :
    Prod.snd <$> recordRtlAllocateHeap env caller heap flags size = hookedRtlAllocateHeap env caller heap flags size := by
  unfold hookedRtlAllocateHeap recordRtlAllocateHeap
  simp only [← map_recordArenaCapture, map_bind, apply_ite (Functor.map Prod.snd), map_rtlHookScope, map_pure, bind_pure,
    bind_map_left]

end

/-! ## The bands -/

/-- The bands from 64 KB on. -/
def heapBands : List String := ["64to256KB", "256to512KB", "512KBto1MB", "1to4MB", "4to16MB", "16MBplus"]

/-- What can become of a request. -/
def dispositions : List String := ["HeapBandCaptured", "HeapBandMissed", "HeapBandSelf"]

def bandCounters : List String :=
  heapBands.flatMap fun band => (bandName "AllocSize" band) :: dispositions.map fun d => bandName d band

/-- What a call adds to the counters of the bands. -/
def bandPart (counted : List Increment) : List Increment := counted.filter fun i => i.name ∈ bandCounters

/-- The request adds one to its band and one to what became of it, in the same band. -/
def Disposed (counted : List Increment) : Prop :=
  ∃ band ∈ heapBands, ∃ d ∈ dispositions, bandPart counted = [⟨bandName "AllocSize" band, 1⟩, ⟨bandName d band, 1⟩]

section
variable {size : ℕ}

theorem bandPart_append (l l' : List Increment) : bandPart (l ++ l') = bandPart l ++ bandPart l' := List.filter_append ..

/-- A count under other names. -/
def Apart (counted : List Increment) : Prop := ∀ name ∈ counted.map (·.name), name ∉ bandCounters

theorem Apart.bandPart {l : List Increment} (h : Apart l) : bandPart l = [] :=
  List.filter_eq_nil_iff.2 fun i hi => by simpa using h i.name (List.mem_map_of_mem hi)

/-- Both recorders find the same band. -/
theorem recorders_agree (h : heapCaptureThreshold ≤ size) : ∃ band ∈ heapBands,
    recordAllocSizeBucket size = [⟨bandName "AllocSize" band, 1⟩, ⟨bandName "AllocBytes" band, size⟩] ∧
    ∀ d, recordHeapBandBucket size d = [⟨bandName d band, 1⟩] := by
  unfold recordAllocSizeBucket recordHeapBandBucket
  simp only [if_neg (not_lt.2 h)]
  rw [heapCaptureThreshold] at h
  simp only [if_neg (show ¬ size < 4 * 1024 by omega), if_neg (show ¬ size < 64 * 1024 by omega)]
  split_ifs
  · exact ⟨"64to256KB", by decide, rfl, fun _ => rfl⟩
  · exact ⟨"256to512KB", by decide, rfl, fun _ => rfl⟩
  · exact ⟨"512KBto1MB", by decide, rfl, fun _ => rfl⟩
  · exact ⟨"1to4MB", by decide, rfl, fun _ => rfl⟩
  · exact ⟨"4to16MB", by decide, rfl, fun _ => rfl⟩
  · exact ⟨"16MBplus", by decide, rfl, fun _ => rfl⟩

/-- Below the bands the recorders count elsewhere, or nothing. -/
theorem bandPart_small (h : size < heapCaptureThreshold) (d : String) :
    bandPart (recordAllocSizeBucket size) = [] ∧ recordHeapBandBucket size d = [] := by
  refine ⟨Apart.bandPart ?_, if_pos h⟩
  rw [heapCaptureThreshold] at h
  unfold recordAllocSizeBucket
  by_cases h4 : size < 4 * 1024
  · simp only [if_pos h4]
    show ∀ name ∈ ["AllocSize_0to4KB", "AllocBytes_0to4KB"], name ∉ bandCounters
    decide +kernel
  · simp only [if_neg h4, if_pos h]
    show ∀ name ∈ ["AllocSize_4to64KB", "AllocBytes_4to64KB"], name ∉ bandCounters
    decide +kernel

theorem mem_bandCounters : ∀ band ∈ heapBands, bandName "AllocSize" band ∈ bandCounters ∧ bandName "AllocBytes" band ∉ bandCounters ∧
    ∀ d ∈ dispositions, bandName d band ∈ bandCounters := by decide +kernel

/-- The parts of a call's count that are about the bands. -/
def Recorded (size : ℕ) (counted : List Increment) : Prop :=
  ∃ d ∈ dispositions, bandPart counted = bandPart (recordAllocSizeBucket size) ++ bandPart (recordHeapBandBucket size d)

theorem Recorded.small {l : List Increment} (h : Recorded size l) (hs : size < heapCaptureThreshold) : bandPart l = [] := by
  obtain ⟨d, -, e⟩ := h
  rw [e, (bandPart_small hs d).1, (bandPart_small hs d).2]
  rfl

theorem Recorded.disposed {l : List Increment} (h : Recorded size l) (hs : heapCaptureThreshold ≤ size) : Disposed l := by
  obtain ⟨d, hd, e⟩ := h
  obtain ⟨band, hb, hsize, hband⟩ := recorders_agree hs
  obtain ⟨h1, h2, h3⟩ := mem_bandCounters band hb
  refine ⟨band, hb, d, hd, ?_⟩
  rw [e, hsize, hband]
  simp [bandPart, h1, h2, h3 d hd]

/-- What a branch counts, with what it adds under other names. -/
theorem recorded_of {pre post : List Increment} {d : String} (hd : d ∈ dispositions) (hpre : Apart pre) (hpost : Apart post) :
    Recorded size (recordAllocSizeBucket size ++ (pre ++ (recordHeapBandBucket size d ++ post))) := by
  refine ⟨d, hd, ?_⟩
  rw [bandPart_append, bandPart_append, bandPart_append, hpre.bandPart, hpost.bandPart, List.nil_append, List.append_nil]

end

/-! ## One call -/

section
variable {env : Env σ} {caller : Caller} {heap flags size : ℕ} {full : List Increment}

theorem apart_nil : Apart [] := fun _ h => absurd h List.not_mem_nil

/-- The other counters of the hook are none of the bands'. -/
theorem apart_pair {n m : String} (hn : n ∉ bandCounters) (hm : m ∉ bandCounters) (v v' : ℕ) : Apart [⟨n, v⟩, ⟨m, v'⟩] := by
  simp [Apart, hn, hm]

/-- Whatever the arena branch does, it counts one disposition. -/
theorem recorded_arenaCapture (hfull : Apart full) :
    Triple (fun _ => True) (recordArenaCapture env caller size) fun r _ =>
      Recorded size (recordAllocSizeBucket size ++ (full ++ r.1)) := by
  have hbare : ∀ d ∈ dispositions, Recorded size (recordAllocSizeBucket size ++ (full ++ recordHeapBandBucket size d)) := by
    intro d hd
    have h : Recorded size (recordAllocSizeBucket size ++ (full ++ (recordHeapBandBucket size d ++ []))) :=
      recorded_of hd hfull apart_nil
    rwa [List.append_nil] at h
  have hmissed := hbare "HeapBandMissed" (by decide)
  refine .get fun w _ => .ite (fun hc => ?_) fun hc => .pure fun _ _ => ?_
  · refine Triple.bind (Q := fun _ _ => True) (fun _ _ => trivial) fun _ => .get fun v _ => .ite (fun hactive => ?_) fun hactive => ?_
    · refine .ite (fun hcra => ?_) fun hcra => .pure fun _ _ => hmissed
      refine Triple.bind (Q := fun _ _ => True) (fun _ _ => trivial) fun p => .pure fun _ _ => ?_
      dsimp only
      split_ifs with hp hself
      · exact recorded_of (by decide) hfull (apart_pair (by decide +kernel) (by decide +kernel) _ _)
      · exact hbare "HeapBandSelf" (by decide)
      · exact hmissed
    · -- the proxy stays inactive
      refine .pure fun _ _ => ?_
      refine ⟨"HeapBandMissed", by decide, ?_⟩
      have hobs : Apart [⟨"RtlAllocHeap_Observed", size⟩, ⟨"RtlAllocHeap_ObservedCount", 1⟩] :=
        apart_pair (by decide +kernel) (by decide +kernel) _ _
      rw [bandPart_append, bandPart_append, bandPart_append, hfull.bandPart, hobs.bandPart, List.nil_append, List.nil_append]
  · -- only a request below the bands is left alone
    have hsmall : size < heapCaptureThreshold := by
      by_contra hs
      exact hc (by simp [capturable, not_lt.1 hs])
    refine ⟨"HeapBandMissed", by decide, ?_⟩
    rw [bandPart_append, bandPart_append, hfull.bandPart, (bandPart_small hsmall _).2]
    rfl

/-- A call that gets past the guard. -/
theorem recorded_rtlAllocateHeap : Triple (fun w => (w.busy || !w.tool.memManager || w.tool.shuttingDown) = false)
    (recordRtlAllocateHeap env caller heap flags size) fun r _ => Recorded size r.1 := by
  refine .get fun w hw => .ite (fun h => absurd h (by rw [hw]; exact Bool.false_ne_true)) fun _ => ?_
  refine Triple.bind (Q := fun _ _ => True) (fun _ _ => trivial) fun _ => ?_
  refine Triple.bind (Q := fun r _ => Recorded size r.1) ?_ fun r =>
    Triple.bind (Q := fun _ _ => Recorded size r.1) (fun _ h => h) fun _ => .pure fun _ h => h
  refine Triple.bind (Q := fun _ _ => True) (fun _ _ => trivial) fun _ => ?_
  refine Triple.bind (Q := fun _ _ => True) (fun _ _ => trivial) fun p => .ite (fun hp => ?_) fun hp => ?_
  · refine Triple.bind (Q := fun _ _ => True) (fun _ _ => trivial) fun _ => .pure fun _ _ => ?_
    show Recorded size (recordAllocSizeBucket size ++ ([] ++ (recordHeapBandBucket size "HeapBandCaptured" ++ _)))
    exact recorded_of (by decide) apart_nil (apart_pair (by decide +kernel) (by decide +kernel) _ _)
  refine .get fun v _ => Triple.bind (Q := fun p _ => p ≠ 0 → sardineGate v.tool caller heap size = true) ?_ fun p => ?_
  · exact .ite (fun h _ _ _ => h) fun _ => .pure fun _ _ h => absurd rfl h
  refine .ite (fun hp => ?_) fun hp => ?_
  · -- a shard takes only what is below the bands
    intro u hu
    have hg := hu hp
    simp only [sardineGate, Bool.and_eq_true, decide_eq_true_eq] at hg
    have hsmall : size < heapCaptureThreshold := hg.1.1.1.1.2
    refine ⟨"HeapBandMissed", by decide, ?_⟩
    show bandPart (recordAllocSizeBucket size ++ [⟨"ProxyHeap_Alloc", 1⟩, ⟨"ProxyHeap_AllocBytes", size⟩]) = _
    have hother : Apart [⟨"ProxyHeap_Alloc", 1⟩, ⟨"ProxyHeap_AllocBytes", size⟩] :=
      apart_pair (by decide +kernel) (by decide +kernel) _ _
    rw [bandPart_append, hother.bandPart, (bandPart_small hsmall _).2]
    rfl
  · have hfull : Apart (if sardineGate v.tool caller heap size then [⟨"ProxyHeap_Full_Fallback", 1⟩] else []) := by
      split
      · have h : ("ProxyHeap_Full_Fallback" : String) ∉ bandCounters := by decide +kernel
        simpa [Apart] using h
      · exact apart_nil
    refine Triple.bind ((recorded_arenaCapture hfull).mono (fun _ _ => trivial) fun _ _ h => h) fun r => ?_
    refine .ite (fun _ => ?_) fun _ => ?_
    · exact Triple.bind (Q := fun _ _ => Recorded size _) (fun _ h => h) fun _ => .pure fun _ h => h
    · refine Triple.bind (Q := fun _ _ => Recorded size _) (fun _ h => h) fun _ => ?_
      exact Triple.bind (Q := fun _ _ => Recorded size _) (fun _ h => h) fun _ => .pure fun _ h => h

end

/-! ## Runs -/

/-- A process between two calls, with all that its calls of `Hooked_RtlAllocateHeap` have counted. -/
structure Counted (σ : Type) where
  world : World σ
  counted : List Increment

inductive HeapEvent (σ : Type)
  | allocate (caller : Caller) (heap flags size : ℕ)
  /-- Whatever else the process does, by any thread. -/
  | other (w : World σ)

namespace Counted

def step (env : Env σ) (s : Counted σ) : HeapEvent σ → Counted σ
  | .allocate caller heap flags size =>
    let (r, w) := exec (recordRtlAllocateHeap env caller heap flags size) s.world
    ⟨w, s.counted ++ r.1⟩
  | .other w => { s with world := w }

end Counted

/-- What was added under a name. -/
def sumUnder (counted : List Increment) (name : String) : ℕ := ((counted.filter (·.name = name)).map (·.value)).sum

/-- In each of the bands as much is counted of what became of the requests as of the requests. -/
def Reconciled (counted : List Increment) : Prop := ∀ band ∈ heapBands, sumUnder counted (bandName "AllocSize" band) =
  sumUnder counted (bandName "HeapBandCaptured" band) + sumUnder counted (bandName "HeapBandMissed" band) +
    sumUnder counted (bandName "HeapBandSelf" band)

theorem sumUnder_append (l l' : List Increment) (name : String) :
    sumUnder (l ++ l') name = sumUnder l name + sumUnder l' name := by
  simp [sumUnder]

theorem sumUnder_flatMap {α : Type} (f : α → List Increment) (name : String) :
    ∀ l : List α, sumUnder (l.flatMap f) name = (l.map fun a => sumUnder (f a) name).sum
  | [] => rfl
  | a :: l => by rw [List.flatMap_cons, sumUnder_append, sumUnder_flatMap f name l, List.map_cons, List.sum_cons]

/-- The counters of the bands depend on the part about the bands. -/
theorem sumUnder_bandPart (l : List Increment) {name : String} (h : name ∈ bandCounters) :
    sumUnder (bandPart l) name = sumUnder l name := by
  unfold sumUnder bandPart
  rw [List.filter_filter]
  congr 2
  refine List.filter_congr fun i _ => ?_
  by_cases hi : i.name = name
  · simp [hi, h]
  · simp [hi]

theorem Reconciled.append {l l' : List Increment} (h : Reconciled l) (h' : Reconciled l') : Reconciled (l ++ l') := by
  intro band hb
  have h1 := h band hb
  have h2 := h' band hb
  simp only [sumUnder_append]
  omega

/-- Of a count only the part about the bands matters. -/
theorem reconciled_iff (l : List Increment) : Reconciled l ↔ Reconciled (bandPart l) := by
  refine forall₂_congr fun band hb => ?_
  obtain ⟨h1, -, h3⟩ := mem_bandCounters band hb
  rw [sumUnder_bandPart l h1, sumUnder_bandPart l (h3 "HeapBandCaptured" (by decide)),
    sumUnder_bandPart l (h3 "HeapBandMissed" (by decide)), sumUnder_bandPart l (h3 "HeapBandSelf" (by decide))]

/-- One request in its band, with what became of it, whichever they are. -/
theorem reconciled_pair : ∀ band ∈ heapBands, ∀ d ∈ dispositions,
    Reconciled [⟨bandName "AllocSize" band, 1⟩, ⟨bandName d band, 1⟩] := by
  unfold Reconciled
  decide +kernel

theorem Recorded.reconciled {size : ℕ} {l : List Increment} (h : Recorded size l) : Reconciled l := by
  rw [reconciled_iff]
  by_cases hs : size < heapCaptureThreshold
  · rw [h.small hs]
    exact fun _ _ => rfl
  · obtain ⟨band, hb, d, hd, e⟩ := h.disposed (not_lt.1 hs)
    rw [e]
    exact reconciled_pair band hb d hd

section
variable {env : Env σ}

/-- A call behind the guard counts nothing. -/
theorem reconciled_rtlAllocateHeap (caller : Caller) (heap flags size : ℕ) (w : World σ) :
    Reconciled (exec (recordRtlAllocateHeap env caller heap flags size) w).1.1 := by
  by_cases hg : (w.busy || !w.tool.memManager || w.tool.shuttingDown) = true
  · have he : (exec (recordRtlAllocateHeap env caller heap flags size) w).1.1 = [] := by
      unfold recordRtlAllocateHeap
      rw [exec_bind, exec_get, exec_ite, if_pos hg]
      rfl
    rw [he]
    exact fun _ _ => rfl
  · exact (recorded_rtlAllocateHeap w (Bool.eq_false_iff.2 hg)).reconciled

theorem Counted.reconciled_step (s : Counted σ) (e : HeapEvent σ) (h : Reconciled s.counted) :
    Reconciled (s.step env e).counted := by
  cases e with
  | allocate caller heap flags size => exact h.append (reconciled_rtlAllocateHeap caller heap flags size s.world)
  | other w => exact h

theorem Counted.reconciled_run (w : World σ) (events : List (HeapEvent σ)) :
    Reconciled (Run.after (Counted.step env) ⟨w, []⟩ events).counted :=
  List.foldlRecOn events (Counted.step env) (motive := fun s => Reconciled s.counted) (fun _ _ => rfl)
    fun s h e _ => s.reconciled_step e h

end

/-! ## The counters of Analytics -/

open Analytics (Counters maxAnalyticsItems)

def counterName (name : String) : Analytics.Name := name.toList.map Char.toNat

/-- The calls of `IncrementCounter` for the bands are those that were counted, by whichever threads and in
whichever order. -/
def Posted (s : Counters) (counted : List Increment) : Prop := ∀ name ∈ bandCounters,
  ((s.calls.filter (·.name = counterName name)).map (·.value)).Perm ((counted.filter (·.name = name)).map (·.value))

instance (s : Counters) (counted : List Increment) : Decidable (Posted s counted) :=
  inferInstanceAs (Decidable (∀ name ∈ bandCounters, _))

/-- After every run, with all calls back and room for all names in the table, each band's counter is the sum
of the three counters of what became of its requests; and each request past the guard has counted once in its
band and once for one of the three. -/
theorem reconciled_after (env : Env σ) (w : World σ) (events : List (HeapEvent σ)) (N : Finset Analytics.Name)
    (hN : N.card ≤ maxAnalyticsItems) (acts : List Analytics.Act) (hacts : Counters.Run N acts)
    (hidle : ∀ c ∈ (Counters.after acts).calls, (Counters.after acts).threads c.thread = none)
    (hposted : Posted (Counters.after acts) (Run.after (Counted.step env) ⟨w, []⟩ events).counted) :
    (∀ band ∈ heapBands, (Counters.after acts).getCounterValue (counterName (bandName "AllocSize" band)) =
      ((Counters.after acts).getCounterValue (counterName (bandName "HeapBandCaptured" band)) +
        (Counters.after acts).getCounterValue (counterName (bandName "HeapBandMissed" band)) +
        (Counters.after acts).getCounterValue (counterName (bandName "HeapBandSelf" band))) % 2 ^ 64) ∧
    ∀ (v : World σ) (caller : Caller) (heap flags size : ℕ), (v.busy || !v.tool.memManager || v.tool.shuttingDown) = false →
      heapCaptureThreshold ≤ size → Disposed (exec (recordRtlAllocateHeap env caller heap flags size) v).1.1 := by
  refine ⟨fun band hb => ?_, fun v caller heap flags size hg hs => (recorded_rtlAllocateHeap v hg).disposed hs⟩
  obtain ⟨-, -, -, hvalue⟩ := Counters.exact_after hN hacts
  -- each counter reads the sum of what was counted under its name
  have hread : ∀ name ∈ bandCounters, (Counters.after acts).getCounterValue (counterName name) =
      sumUnder (Run.after (Counted.step env) ⟨w, []⟩ events).counted name % 2 ^ 64 := by
    intro name hn
    rw [hvalue hidle, Counters.sumOf, (hposted name hn).sum_eq, sumUnder]
  obtain ⟨h1, -, h3⟩ := mem_bandCounters band hb
  rw [hread _ h1, hread _ (h3 "HeapBandCaptured" (by decide)), hread _ (h3 "HeapBandMissed" (by decide)),
    hread _ (h3 "HeapBandSelf" (by decide)), Counted.reconciled_run w events band hb]
  omega

/-- Three requests of 64 KB in an arena of one slot: the first gets it, the second is the tool's own, the third
is refused. -/
def threeRequests : List (HeapEvent (List ℕ)) :=
  [.allocate .plain 7 0 0x10000, .allocate { Caller.plain with self := true } 7 0 0x10000, .allocate .plain 7 0 0x10000]

/-- A call of `IncrementCounter`, and its steps. -/
def post (kind : String) (moves : ℕ) : List Analytics.Act :=
  .call ⟨1, counterName (bandName kind "64to256KB"), 1, false⟩ :: List.replicate moves (.move 1)

def posts : List Analytics.Act := post "AllocSize" 12 ++ post "HeapBandCaptured" 14 ++ post "AllocSize" 4 ++
  post "HeapBandSelf" 16 ++ post "AllocSize" 4 ++ post "HeapBandMissed" 18

def postedNames : Finset Analytics.Name := (["AllocSize", "HeapBandCaptured", "HeapBandMissed", "HeapBandSelf"].map fun kind =>
  counterName (bandName kind "64to256KB")).toFinset

theorem reconciled_threeRequests :
    (Counters.after posts).getCounterValue (counterName (bandName "AllocSize" "64to256KB")) =
      ((Counters.after posts).getCounterValue (counterName (bandName "HeapBandCaptured" "64to256KB")) +
        (Counters.after posts).getCounterValue (counterName (bandName "HeapBandMissed" "64to256KB")) +
        (Counters.after posts).getCounterValue (counterName (bandName "HeapBandSelf" "64to256KB"))) % 2 ^ 64 ∧
    Disposed (exec (recordRtlAllocateHeap Env.scripted .plain 7 0 0x10000) (World.install Sys.arena64K [1])).1.1 := by
  have h := reconciled_after Env.scripted (World.install Sys.arena64K [1, 5, 6]) threeRequests postedNames (by decide +kernel)
    posts (by decide +kernel) (by decide +kernel) (by decide +kernel)
  constructor
  · exact h.1 "64to256KB" (by decide)
  · exact h.2 (World.install Sys.arena64K [1]) .plain 7 0 0x10000 (by decide +kernel) (by decide)

end Ts3Vas
