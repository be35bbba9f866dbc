/-
What the two tables answer, over every run of lookups from any number of threads, heaps and modules:
exactly when their answers are those of the names themselves.
-/
import Ts3Vas.Hook.Callers

namespace Ts3Vas

/-! ## The module table -/

/-- Every entry is what the slow path resolves for a loaded module. -/
def Resolved (mods : List Module) (seen : Seen) : Prop := ∀ c ∈ seen.callerMods, ∃ m ∈ mods, c = .of m

/-- An entry of the table covers the address. -/
def Seen.caches (seen : Seen) (ra : ℕ) : Bool := seen.callerMods.any fun c => c.Holds ra

section
variable {mods : List Module} {seen : Seen} {ra : ℕ} {m : Module}

theorem caches_of_find {c : CallerModRange} (h : seen.callerMods.find? (fun c => c.Holds ra) = some c) :
    seen.caches ra = true := by
  rw [Seen.caches, List.any_eq_true]
  exact ⟨c, List.mem_of_find?_eq_some h, by simpa using List.find?_some h⟩

theorem caches_of_not_find (h : seen.callerMods.find? (fun c => c.Holds ra) = none) : seen.caches ra = false := by
  rw [Seen.caches, List.any_eq_false]
  rw [List.find?_eq_none] at h
  exact h

theorem Resolved.found (h : Resolved mods seen) (hl : Loaded mods) (hm : moduleAt mods ra = some m) {c : CallerModRange}
    (hc : seen.callerMods.find? (fun c => c.Holds ra) = some c) : c = .of m := by
  obtain ⟨n, hn, rfl⟩ := h c (List.mem_of_find?_eq_some hc)
  have hra : (CallerModRange.of n).Holds ra := by simpa using List.find?_some hc
  obtain ⟨hm, hma⟩ := moduleAt_some hm
  rw [hl.sole hn hm hra hma]

/-- A module that the table does not cover is not known to it by its base either. -/
theorem Resolved.unknown (h : Resolved mods seen) (hl : Loaded mods) (hm : moduleAt mods ra = some m)
    (hc : seen.callerMods.find? (fun c => c.Holds ra) = none) :
    (seen.callerMods.any fun c => c.base = m.base) = false := by
  obtain ⟨hm, hra⟩ := moduleAt_some hm
  rw [List.find?_eq_none] at hc
  rw [List.any_eq_false]
  intro c hmem hb
  obtain ⟨n, hn, rfl⟩ := h c hmem
  have hpn := hl.placed n hn
  have hpm := hl.placed m hm
  have hb : n.base = m.base := of_decide_eq_true hb
  have hmm : m.Holds m.base := ⟨le_rfl, hpm.2⟩
  have hnm : n.Holds m.base := ⟨hb.le, hb ▸ hpn.2⟩
  have hcov := hc (.of n) hmem
  rw [hl.sole hn hm hnm hmm] at hcov
  exact hcov (decide_eq_true hra)

theorem Resolved.append (h : Resolved mods seen) (hm : m ∈ mods) :
    Resolved mods { seen with callerMods := seen.callerMods ++ [.of m] } := by
  intro c hc
  rcases List.mem_append.1 hc with hc | hc
  · exact h c hc
  · exact ⟨m, hm, List.mem_singleton.1 hc⟩

theorem Resolved.mono {mods' : List Module} (h : Resolved mods seen) (hm : mods ⊆ mods') : Resolved mods' seen := by
  intro c hc
  obtain ⟨n, hn, e⟩ := h c hc
  exact ⟨n, hm hn, e⟩

/-- The graphics lookup answers with the module's name, and appends what it has resolved while there
is room. -/
theorem Resolved.graphics (h : Resolved mods seen) (hl : Loaded mods) (hr : seen.diagCSInit = true)
    (hm : moduleAt mods ra = some m) : callerIsGraphicsModule mods ra seen = (isGraphicsModule (m.baseName 64),
      if seen.caches ra = false ∧ seen.callerMods.length < kCallerModMax then
        { seen with callerMods := seen.callerMods ++ [.of m] } else seen) := by
  have hra := hl.ra_pos hm
  unfold callerIsGraphicsModule
  rw [if_neg (by simp [hra, hr])]
  cases hc : seen.callerMods.find? fun c => c.Holds ra with
  | some c =>
    have hcov := caches_of_find hc
    have hcm := h.found hl hm hc
    rw [if_neg (by simp [hcov])]
    subst hcm
    rfl
  | none =>
    have hcov := caches_of_not_find hc
    simp only [hm, h.unknown hl hm hc, hcov, Bool.not_false, true_and]
    split <;> rfl

/-- The audio lookup does too, but a table that is full answers no. -/
theorem Resolved.audio (h : Resolved mods seen) (hl : Loaded mods) (hr : seen.diagCSInit = true)
    (hm : moduleAt mods ra = some m) : (callerIsAudioModule mods ra seen).1 =
      (decide (seen.caches ra = true ∨ seen.callerMods.length < kCallerModMax) && isAudioModule (m.baseName 64)) := by
  have hra := hl.ra_pos hm
  obtain ⟨hmem, hma⟩ := moduleAt_some hm
  unfold callerIsAudioModule
  rw [if_neg (by simp [hra, hr])]
  cases hc : seen.callerMods.find? fun c => c.Holds ra with
  | some c =>
    have hcov := caches_of_find hc
    have hcm := h.found hl hm hc
    subst hcm
    simp [hcov, CallerModRange.of]
  | none =>
    have hcov := caches_of_not_find hc
    -- the lookup goes through the graphics resolver and then reads the table again
    rw [h.graphics hl hr hm]
    by_cases hroom : seen.callerMods.length < kCallerModMax
    · simp only [hcov, hroom, and_self, if_true, List.find?_append, hc, Option.none_or]
      have hof : (CallerModRange.of m).Holds ra := hma
      rw [List.find?_cons_of_pos (by simpa using hof)]
      rfl
    · simp only [hcov, hroom, and_false, if_false, hc]
      simp

/-- A lookup leaves the table, or appends a loaded module to it. -/
def Grown (mods : List Module) (seen seen' : Seen) : Prop :=
  seen' = seen ∨ ∃ m ∈ mods, seen' = { seen with callerMods := seen.callerMods ++ [.of m] }

theorem grown_callerIsGraphicsModule (mods : List Module) (ra : ℕ) (seen : Seen) :
    Grown mods seen (callerIsGraphicsModule mods ra seen).2 := by
  unfold callerIsGraphicsModule
  split_ifs
  · exact .inl rfl
  · split
    · exact .inl rfl
    · split
      · exact .inl rfl
      · dsimp only
        split_ifs
        · exact .inr ⟨_, (moduleAt_some ‹_›).1, rfl⟩
        · exact .inl rfl

theorem grown_callerIsAudioModule (mods : List Module) (ra : ℕ) (seen : Seen) :
    Grown mods seen (callerIsAudioModule mods ra seen).2 := by
  unfold callerIsAudioModule
  split_ifs
  · exact .inl rfl
  · split
    · exact .inl rfl
    · dsimp only
      split <;> exact grown_callerIsGraphicsModule mods ra seen

theorem Grown.diagCSInit {seen' : Seen} (h : Grown mods seen seen') : seen'.diagCSInit = seen.diagCSInit := by
  rcases h with rfl | ⟨m, -, rfl⟩ <;> rfl

theorem Grown.heapUse {seen' : Seen} (h : Grown mods seen seen') : seen'.heapUse = seen.heapUse := by
  rcases h with rfl | ⟨m, -, rfl⟩ <;> rfl

theorem Resolved.grown {seen' : Seen} (hr : Resolved mods seen) (h : Grown mods seen seen') : Resolved mods seen' := by
  rcases h with rfl | ⟨m, hm, rfl⟩
  · exact hr
  · exact hr.append hm

end

/-! ## The heap table -/

/-- The thread's slot, where it has one, is that of its heap. -/
def LastHeap.Fits (last : LastHeap) (seen : Seen) : Prop :=
  ∀ i, last.slot = some i → ∃ r, seen.heapUse[i]? = some r ∧ r.handle = last.handle

section
variable {mods : List Module} {seen : Seen} {last : LastHeap} {heap ra : ℕ}

theorem LastHeap.Fits.entry (hf : last.Fits seen) {r : HeapUseRec} (h : last.entry heap seen = some r) :
    ∃ i, last = ⟨heap, some i⟩ ∧ seen.heapUse[i]? = some r ∧ r.handle = heap := by
  unfold LastHeap.entry at h
  by_cases he : heap = last.handle
  · rw [if_pos he, Option.bind_eq_some_iff] at h
    obtain ⟨i, hi, hr⟩ := h
    obtain ⟨r', hr', hrh⟩ := hf i hi
    rw [hr] at hr'
    cases hr'
    refine ⟨i, ?_, hr, hrh.trans he.symm⟩
    rw [he, ← hi]
  · rw [if_neg he] at h
    cases h

/-- A slot stays right when the table grows. -/
theorem LastHeap.Fits.append (hf : last.Fits seen) (r : HeapUseRec) :
    last.Fits { seen with heapUse := seen.heapUse ++ [r] } := by
  rintro i hi
  obtain ⟨r', hr, hrh⟩ := hf i hi
  exact ⟨r', (List.getElem?_append_left (List.getElem?_eq_some_iff.1 hr).1).trans hr, hrh⟩

/-- What `RecordHeapUse` does: the heap has an entry, or gets one, or there is no room for it. -/
theorem recordHeapUse_cases (mods : List Module) (ra : ℕ) (hr : seen.diagCSInit = true) (hf : last.Fits seen) (hh : heap ≠ 0) :
    (∃ i r, seen.heapUse[i]? = some r ∧ r.handle = heap ∧
      recordHeapUse mods heap ra last seen = (r.corralTarget, ⟨heap, some i⟩, seen)) ∨
    ((∀ r ∈ seen.heapUse, r.handle ≠ heap) ∧
      if seen.heapUse.length < kHeapUseMax then
        recordHeapUse mods heap ra last seen = (false, ⟨heap, some seen.heapUse.length⟩,
          { seen with heapUse := seen.heapUse ++ [.of heap (firstCaller mods ra)] })
      else recordHeapUse mods heap ra last seen = (false, last, seen)) := by
  unfold recordHeapUse
  rw [if_neg (by simp [hh, hr])]
  cases hl : last.entry heap seen with
  | some r =>
    -- the thread's own slot
    obtain ⟨i, rfl, hr, hrh⟩ := hf.entry hl
    exact .inl ⟨i, r, hr, hrh, rfl⟩
  | none =>
    cases hs : seen.heapUse.findIdx? fun r => r.handle = heap with
    | some i =>
      left
      rw [List.findIdx?_eq_some_iff_getElem] at hs
      obtain ⟨hi, hrh, -⟩ := hs
      refine ⟨i, seen.heapUse[i], List.getElem?_eq_getElem hi, of_decide_eq_true hrh, ?_⟩
      simp [List.getElem?_eq_getElem hi]
    | none =>
      right
      rw [List.findIdx?_eq_none_iff] at hs
      refine ⟨fun r hr => of_decide_eq_false (hs r hr), ?_⟩
      split_ifs <;> rfl

/-- A heap with an entry is answered by it, through the thread's slot or not. -/
theorem excluded_of_mem (hr : seen.diagCSInit = true) (hf : last.Fits seen) (hh : heap ≠ 0)
    (hd : (seen.heapUse.map (·.handle)).Nodup) {r : HeapUseRec} (hm : r ∈ seen.heapUse) (he : r.handle = heap) :
    heapIsSardineExcluded heap last seen = r.sardineExclude := by
  have hsole : ∀ r' ∈ seen.heapUse, r'.handle = heap → r' = r := fun r' hr' he' =>
    List.inj_on_of_nodup_map hd hr' hm (he'.trans he.symm)
  unfold heapIsSardineExcluded
  rw [if_neg (by simp [hh, hr])]
  cases hl : last.entry heap seen with
  | some r' =>
    obtain ⟨i, -, hr', hrh⟩ := hf.entry hl
    rw [hsole r' (List.mem_of_getElem? hr') hrh]
  | none =>
    cases hs : seen.heapUse.find? fun r => r.handle = heap with
    | some r' =>
      have he' : r'.handle = heap := by simpa using List.find?_some hs
      rw [hsole r' (List.mem_of_find?_eq_some hs) he']
    | none =>
      rw [List.find?_eq_none] at hs
      exact absurd he (by simpa using hs r hm)

theorem excluded_of_absent (hf : last.Fits seen) (ha : ∀ r ∈ seen.heapUse, r.handle ≠ heap) :
    heapIsSardineExcluded heap last seen = false := by
  unfold heapIsSardineExcluded
  by_cases h0 : heap = 0 ∨ !seen.diagCSInit
  · rw [if_pos h0]
  rw [if_neg h0]
  cases hl : last.entry heap seen with
  | some r =>
    obtain ⟨i, -, hr, hrh⟩ := hf.entry hl
    exact absurd hrh (ha r (List.mem_of_getElem? hr))
  | none =>
    have hs : (seen.heapUse.find? fun r => r.handle = heap) = none := by
      rw [List.find?_eq_none]
      exact fun r hr => by simpa using ha r hr
    rw [hs]

end

/-- `RecordHeapUse` leaves the module table. -/
theorem recordHeapUse_keeps (mods : List Module) (heap ra : ℕ) (last : LastHeap) (seen : Seen) :
    (recordHeapUse mods heap ra last seen).2.2.callerMods = seen.callerMods ∧
      (recordHeapUse mods heap ra last seen).2.2.diagCSInit = seen.diagCSInit := by
  unfold recordHeapUse
  split
  · exact ⟨rfl, rfl⟩
  · split
    · exact ⟨rfl, rfl⟩
    · split
      · exact ⟨rfl, rfl⟩
      · split <;> exact ⟨rfl, rfl⟩

/-! ## The lookups of a hook -/

section
variable {mods : List Module} {seen : Seen} {heap size : ℕ} {site : Site} {last : LastHeap} {t : Tool}

theorem Resolved.recordHeapUse (h : Resolved mods seen) (heap ra : ℕ) (last : LastHeap) :
    Resolved mods (Ts3Vas.recordHeapUse mods heap ra last seen).2.2 := by
  unfold Resolved
  rw [(recordHeapUse_keeps mods heap ra last seen).1]
  exact h

/-- A conjunct that may be left out. -/
theorem Grown.ite {c : Prop} [Decidable c] {seen' : Seen} (h : Grown mods seen seen') : Grown mods seen (if c then seen' else seen) := by
  split
  · exact h
  · exact .inl rfl

theorem look_lookHeapAlloc (h : Resolved mods seen) (hr : seen.diagCSInit = true) :
    Resolved mods (lookHeapAlloc mods t heap size site last seen).seen ∧
      (lookHeapAlloc mods t heap size site last seen).seen.diagCSInit = true := by
  have h1 := h.recordHeapUse heap site.ra last
  have r1 := (recordHeapUse_keeps mods heap site.ra last seen).2.trans hr
  have g1 := grown_callerIsGraphicsModule mods site.ra (recordHeapUse mods heap site.ra last seen).2.2
  exact ⟨h1.grown g1.ite, g1.ite.diagCSInit.trans r1⟩

theorem look_lookRtl (h : Resolved mods seen) (hr : seen.diagCSInit = true) :
    Resolved mods (lookRtl mods t heap size site last seen).seen ∧
      (lookRtl mods t heap size site last seen).seen.diagCSInit = true := by
  obtain ⟨h1, r1⟩ : Resolved mods (lookHeapAlloc mods t heap size site last seen).seen ∧ _ := look_lookHeapAlloc h hr
  have g1 := grown_callerIsAudioModule mods site.ra (lookHeapAlloc mods t heap size site last seen).seen
  exact ⟨h1.grown g1.ite, g1.ite.diagCSInit.trans r1⟩

/-- Both hooks learn whether the caller is a graphics module, whatever the table holds. -/
theorem graphics_lookHeapAlloc (h : Resolved mods seen) (hl : Loaded mods) (hr : seen.diagCSInit = true) {m : Module}
    (hm : moduleAt mods site.ra = some m) :
    (lookHeapAlloc mods t heap size site last seen).caller.graphics = isGraphicsModule (m.baseName 64) := by
  have h1 := h.recordHeapUse heap site.ra last
  have r1 := (recordHeapUse_keeps mods heap site.ra last seen).2.trans hr
  exact congrArg Prod.fst (h1.graphics hl r1 hm)

theorem graphics_lookRtl (h : Resolved mods seen) (hl : Loaded mods) (hr : seen.diagCSInit = true) {m : Module}
    (hm : moduleAt mods site.ra = some m) :
    (lookRtl mods t heap size site last seen).caller.graphics = isGraphicsModule (m.baseName 64) :=
  congrArg Prod.fst ((h.recordHeapUse heap site.ra last).graphics hl
    ((recordHeapUse_keeps mods heap site.ra last seen).2.trans hr) hm)

end

/-! ## Runs of lookups -/

/-- The loaded modules, what has been seen, the slot of each thread, and, for the record, each heap in
the order of its first use with the name of the module that used it. -/
structure Watch where
  mods : List Module
  seen : Seen
  last : ℕ → LastHeap
  firstUse : List (ℕ × List Char)

/-- A module is loaded, or a thread looks something up. -/
inductive Look
  | load (m : Module)
  | recordHeapUse (thread heap ra : ℕ)
  | callerIsGraphicsModule (ra : ℕ)
  | callerIsAudioModule (ra : ℕ)
  deriving DecidableEq

namespace Watch

def start : Watch := ⟨[], .start, fun _ => .start, []⟩

/-- Null is no heap. -/
def noteFirst (w : Watch) (heap ra : ℕ) : List (ℕ × List Char) :=
  if heap = 0 ∨ heap ∈ w.firstUse.map Prod.fst then w.firstUse else w.firstUse ++ [(heap, nameAt w.mods ra)]

def step (w : Watch) : Look → Watch
  | .load m => { w with mods := w.mods ++ [m] }
  | .recordHeapUse thread heap ra =>
    let r := Ts3Vas.recordHeapUse w.mods heap ra (w.last thread) w.seen
    { w with seen := r.2.2, last := Function.update w.last thread r.2.1, firstUse := w.noteFirst heap ra }
  | .callerIsGraphicsModule ra => { w with seen := (Ts3Vas.callerIsGraphicsModule w.mods ra w.seen).2 }
  | .callerIsAudioModule ra => { w with seen := (Ts3Vas.callerIsAudioModule w.mods ra w.seen).2 }

theorem step_recordHeapUse (w : Watch) (thread heap ra : ℕ) : w.step (.recordHeapUse thread heap ra) =
    { w with
      seen := (Ts3Vas.recordHeapUse w.mods heap ra (w.last thread) w.seen).2.2
      last := Function.update w.last thread (Ts3Vas.recordHeapUse w.mods heap ra (w.last thread) w.seen).2.1
      firstUse := w.noteFirst heap ra } := rfl

def Lawful (w : Watch) : Look → Prop
  | .load m => m.Fits w.mods
  | _ => True

instance (w : Watch) : (l : Look) → Decidable (w.Lawful l)
  | .load m => inferInstanceAs (Decidable (m.Fits w.mods))
  | .recordHeapUse .. | .callerIsGraphicsModule _ | .callerIsAudioModule _ => inferInstanceAs (Decidable True)

/-- The entry of a heap with its first user. -/
def entryOf (e : ℕ × List Char) : HeapUseRec := .of e.1 (shown (e.2.take 39))

/-- What every run keeps: the heap table holds the first heaps in their order. -/
structure Sound (w : Watch) : Prop where
  ready : w.seen.diagCSInit = true
  loaded : Loaded w.mods
  resolved : Resolved w.mods w.seen
  heaps : w.seen.heapUse = (w.firstUse.take kHeapUseMax).map entryOf
  keys : (w.firstUse.map Prod.fst).Nodup
  proper : 0 ∉ w.firstUse.map Prod.fst
  fits : ∀ t, (w.last t).Fits w.seen

theorem start_sound : start.Sound :=
  ⟨rfl, loaded_nil, fun _ h => (nomatch h), rfl, .nil, fun h => (nomatch h), fun _ _ h => (nomatch h)⟩

section
variable {w : Watch}

theorem Sound.handles (h : w.Sound) : w.seen.heapUse.map (·.handle) = (w.firstUse.map Prod.fst).take kHeapUseMax := by
  rw [h.heaps, List.map_map, List.map_take]
  rfl

theorem Sound.handles_nodup (h : w.Sound) : (w.seen.heapUse.map (·.handle)).Nodup :=
  h.handles ▸ h.keys.sublist (List.take_sublist _ _)

theorem Sound.length_heapUse (h : w.Sound) : w.seen.heapUse.length = min kHeapUseMax w.firstUse.length := by
  rw [h.heaps, List.length_map, List.length_take]

theorem Sound.load (h : w.Sound) {m : Module} (hm : w.Lawful (.load m)) : (w.step (.load m)).Sound :=
  ⟨h.ready, h.loaded.append hm, h.resolved.mono (List.subset_append_left _ _), h.heaps, h.keys, h.proper, h.fits⟩

/-- A module lookup only adds to the module table. -/
theorem Sound.grown (h : w.Sound) {seen : Seen} (hg : Grown w.mods w.seen seen) : Sound { w with seen := seen } := by
  refine ⟨hg.diagCSInit.trans h.ready, h.loaded, h.resolved.grown hg, hg.heapUse.trans h.heaps, h.keys, h.proper, ?_⟩
  rintro t i hi
  obtain ⟨r, hr, e⟩ := h.fits t i hi
  exact ⟨r, hg.heapUse.symm ▸ hr, e⟩

theorem Sound.absent (h : w.Sound) {heap : ℕ} (hroom : w.seen.heapUse.length < kHeapUseMax)
    (ha : ∀ r ∈ w.seen.heapUse, r.handle ≠ heap) : heap ∉ w.firstUse.map Prod.fst := by
  rintro hm
  rw [h.length_heapUse] at hroom
  have hall : (w.firstUse.map Prod.fst).take kHeapUseMax = w.firstUse.map Prod.fst :=
    List.take_of_length_le (by rw [List.length_map]; omega)
  rw [← hall, ← h.handles, List.mem_map] at hm
  obtain ⟨r, hr, e⟩ := hm
  exact ha r hr e

/-- A heap that is used for the first time. -/
theorem Sound.first (h : w.Sound) {heap : ℕ} (ra : ℕ) (h0 : heap ≠ 0) (hm : heap ∉ w.firstUse.map Prod.fst) :
    w.noteFirst heap ra = w.firstUse ++ [(heap, nameAt w.mods ra)] ∧ ((w.noteFirst heap ra).map Prod.fst).Nodup ∧
      0 ∉ (w.noteFirst heap ra).map Prod.fst := by
  have e : w.noteFirst heap ra = w.firstUse ++ [(heap, nameAt w.mods ra)] := if_neg (not_or.2 ⟨h0, hm⟩)
  rw [e, List.map_append]
  refine ⟨rfl, List.nodup_append.2 ⟨h.keys, List.nodup_singleton _, ?_⟩, ?_⟩
  · rintro a ha b hb rfl
    rw [List.mem_singleton.1 hb] at ha
    exact hm ha
  · rw [List.mem_append, not_or]
    refine ⟨h.proper, ?_⟩
    rw [List.map_singleton, List.mem_singleton]
    exact fun e => h0 e.symm

theorem fits_update {seen : Seen} (hs : ∀ t, (w.last t).Fits seen) {last : LastHeap} (hl : last.Fits seen)
    (thread t : ℕ) : (Function.update w.last thread last t).Fits seen := by
  by_cases e : t = thread
  · rw [e, Function.update_self]
    exact hl
  · rw [Function.update_of_ne e]
    exact hs t

/-- The heap has an entry, so it has been used before. -/
theorem Sound.recalled (h : w.Sound) {thread heap ra i : ℕ} {r : HeapUseRec} (hr : w.seen.heapUse[i]? = some r)
    (hrh : r.handle = heap)
    (e : Ts3Vas.recordHeapUse w.mods heap ra (w.last thread) w.seen = (r.corralTarget, ⟨heap, some i⟩, w.seen)) :
    (w.step (.recordHeapUse thread heap ra)).Sound := by
  have hmem : heap ∈ w.firstUse.map Prod.fst := by
    have hm : r.handle ∈ w.seen.heapUse.map (·.handle) := List.mem_map_of_mem (List.mem_of_getElem? hr)
    rw [h.handles, hrh] at hm
    exact List.mem_of_mem_take hm
  have e' : w.noteFirst heap ra = w.firstUse := if_pos (.inr hmem)
  rw [step_recordHeapUse, e, e']
  refine ⟨h.ready, h.loaded, h.resolved, h.heaps, h.keys, h.proper, fits_update h.fits ?_ thread⟩
  rintro j hj
  cases hj
  exact ⟨r, hr, hrh⟩

/-- A new heap gets the next entry. -/
theorem Sound.entered (h : w.Sound) {thread heap ra : ℕ} (h0 : heap ≠ 0) (hroom : w.seen.heapUse.length < kHeapUseMax)
    (ha : ∀ r ∈ w.seen.heapUse, r.handle ≠ heap)
    (e : Ts3Vas.recordHeapUse w.mods heap ra (w.last thread) w.seen = (false, ⟨heap, some w.seen.heapUse.length⟩,
      { w.seen with heapUse := w.seen.heapUse ++ [.of heap (firstCaller w.mods ra)] })) :
    (w.step (.recordHeapUse thread heap ra)).Sound := by
  obtain ⟨e', hk, hp⟩ := h.first ra h0 (h.absent hroom ha)
  have hlen := h.length_heapUse
  have hgrow : w.seen.heapUse ++ [HeapUseRec.of heap (firstCaller w.mods ra)] =
      ((w.firstUse ++ [(heap, nameAt w.mods ra)]).take kHeapUseMax).map entryOf := by
    rw [List.take_of_length_le (by rw [List.length_append, List.length_singleton]; omega), List.map_append, h.heaps,
      List.take_of_length_le (by omega)]
    rfl
  rw [step_recordHeapUse, e]
  refine ⟨h.ready, h.loaded, h.resolved, ?_, hk, hp, fits_update (fun t => (h.fits t).append _) ?_ thread⟩
  · rw [e']
    exact hgrow
  · rintro i hi
    cases hi
    exact ⟨_, List.getElem?_concat_length, rfl⟩

/-- The table is full: the heap gets no entry, and the thread no slot. -/
theorem Sound.dropped (h : w.Sound) {thread heap ra : ℕ} (h0 : heap ≠ 0) (hfull : ¬ w.seen.heapUse.length < kHeapUseMax)
    (e : Ts3Vas.recordHeapUse w.mods heap ra (w.last thread) w.seen = (false, w.last thread, w.seen)) :
    (w.step (.recordHeapUse thread heap ra)).Sound := by
  have hlen : kHeapUseMax ≤ w.firstUse.length := by
    have := h.length_heapUse
    omega
  have htake : (w.noteFirst heap ra).take kHeapUseMax = w.firstUse.take kHeapUseMax := by
    unfold noteFirst
    split_ifs
    · rfl
    · exact List.take_append_of_le_length hlen
  have hkeys : ((w.noteFirst heap ra).map Prod.fst).Nodup ∧ 0 ∉ (w.noteFirst heap ra).map Prod.fst := by
    by_cases hm : heap ∈ w.firstUse.map Prod.fst
    · rw [noteFirst, if_pos (.inr hm)]
      exact ⟨h.keys, h.proper⟩
    · exact (h.first ra h0 hm).2
  rw [step_recordHeapUse, e]
  refine ⟨h.ready, h.loaded, h.resolved, ?_, hkeys.1, hkeys.2, fits_update h.fits (h.fits thread) thread⟩
  rw [htake]
  exact h.heaps

theorem Sound.recordHeapUse (h : w.Sound) (thread heap ra : ℕ) : (w.step (.recordHeapUse thread heap ra)).Sound := by
  by_cases h0 : heap = 0
  · have e : Ts3Vas.recordHeapUse w.mods heap ra (w.last thread) w.seen = (false, w.last thread, w.seen) :=
      if_pos (.inl h0)
    have e' : w.noteFirst heap ra = w.firstUse := if_pos (.inl h0)
    rw [step_recordHeapUse, e, e', Function.update_eq_self]
    exact h
  rcases recordHeapUse_cases w.mods ra h.ready (h.fits thread) h0 with ⟨i, r, hr, hrh, e⟩ | ⟨ha, e⟩
  · exact h.recalled hr hrh e
  · by_cases hroom : w.seen.heapUse.length < kHeapUseMax
    · rw [if_pos hroom] at e
      exact h.entered h0 hroom ha e
    · rw [if_neg hroom] at e
      exact h.dropped h0 hroom e

theorem Sound.step (h : w.Sound) {l : Look} (hl : w.Lawful l) : (w.step l).Sound := by
  cases l with
  | load m => exact h.load hl
  | recordHeapUse thread heap ra => exact h.recordHeapUse thread heap ra
  | callerIsGraphicsModule ra => exact h.grown (grown_callerIsGraphicsModule w.mods ra w.seen)
  | callerIsAudioModule ra => exact h.grown (grown_callerIsAudioModule w.mods ra w.seen)

end

/-- A run of lookups from the start. -/
abbrev Run (ls : List Look) : Prop := Run.Guarded step Lawful start ls

abbrev after (ls : List Look) : Watch := Run.after step start ls

theorem sound_after {ls : List Look} (h : Run ls) : (after ls).Sound :=
  h.invariant (fun _ _ hs hl => hs.step hl) start_sound

/-! ## When the tables are right -/

theorem isDriverModule_shown (m : List Char) : isDriverModule (shown m) = isDriverModule m := by
  unfold shown
  by_cases e : m = []
  · rw [if_pos e, e]
    decide
  · rw [if_neg e]

section
variable {w : Watch}

/-- A heap is excluded by what its entry keeps of the name, if it came early enough to have one. -/
theorem Sound.excluded (h : w.Sound) {i heap : ℕ} {name : List Char} (hi : w.firstUse[i]? = some (heap, name)) (t : ℕ) :
    heapIsSardineExcluded heap (w.last t) w.seen = (decide (i < kHeapUseMax) && isDriverModule (name.take 39)) := by
  have hmem : heap ∈ w.firstUse.map Prod.fst := List.mem_map_of_mem (f := Prod.fst) (List.mem_of_getElem? hi)
  by_cases hk : i < kHeapUseMax
  · have hr : entryOf (heap, name) ∈ w.seen.heapUse := by
      rw [h.heaps]
      refine List.mem_map_of_mem (List.mem_of_getElem? (i := i) ?_)
      rw [List.getElem?_take_of_lt hk]
      exact hi
    have h0 : heap ≠ 0 := by
      rintro rfl
      exact h.proper hmem
    rw [excluded_of_mem h.ready (h.fits t) h0 h.handles_nodup hr rfl, decide_eq_true hk, Bool.true_and]
    exact isDriverModule_shown _
  · rw [decide_eq_false hk, Bool.false_and]
    -- the table keeps the first heaps only, and this one came later
    apply excluded_of_absent (h.fits t)
    rintro r hr e
    have hin : heap ∈ (w.firstUse.map Prod.fst).take kHeapUseMax := by
      rw [← h.handles, ← e]
      exact List.mem_map_of_mem hr
    have hout : heap ∈ (w.firstUse.map Prod.fst).drop kHeapUseMax := by
      refine List.mem_of_getElem? (i := i - kHeapUseMax) ?_
      rw [List.getElem?_drop, Nat.add_sub_cancel' (not_lt.1 hk), List.getElem?_map, hi]
      rfl
    exact List.disjoint_take_drop h.keys le_rfl hin hout

/-- The tables answer as the names do: about every heap with the module that used it first, from any
thread, and about every return address with the module that holds it. -/
def Faithful (w : Watch) : Prop :=
  (∀ heap name t, (heap, name) ∈ w.firstUse → heapIsSardineExcluded heap (w.last t) w.seen = isDriverModule name) ∧
    ∀ ra m, moduleAt w.mods ra = some m → (callerIsAudioModule w.mods ra w.seen).1 = isAudioModule m.name

end

/-- After any run: a heap is answered rightly just if it is among the first 128 and the 39 characters
kept of its first module's name say what the name says, or comes later and was first used by no
graphics or audio module; and an address just if its module is in the table or finds room there and
the 63 characters kept say what the name says, or finds none and is no audio module. -/
theorem faithful_iff {ls : List Look} (h : Run ls) :
    (∀ i heap name t, (after ls).firstUse[i]? = some (heap, name) →
      (heapIsSardineExcluded heap ((after ls).last t) (after ls).seen = isDriverModule name ↔
        if i < kHeapUseMax then isDriverModule (name.take 39) = isDriverModule name else isDriverModule name = false)) ∧
    ∀ ra m, moduleAt (after ls).mods ra = some m →
      ((callerIsAudioModule (after ls).mods ra (after ls).seen).1 = isAudioModule m.name ↔
        if (after ls).seen.caches ra = true ∨ (after ls).seen.callerMods.length < kCallerModMax then
          isAudioModule (m.name.take 63) = isAudioModule m.name
        else isAudioModule m.name = false) := by
  have hs := sound_after h
  constructor
  · intro i heap name t hi
    rw [hs.excluded hi t]
    by_cases hk : i < kHeapUseMax
    · simp [hk]
    · simp only [hk, decide_false, Bool.false_and, if_false]
      exact eq_comm
  · intro ra m hm
    rw [hs.resolved.audio hs.loaded hs.ready hm]
    by_cases hroom : (after ls).seen.caches ra = true ∨ (after ls).seen.callerMods.length < kCallerModMax
    · rw [decide_eq_true hroom, Bool.true_and, if_pos hroom]
      rfl
    · rw [decide_eq_false hroom, Bool.false_and, if_neg hroom]
      exact eq_comm

/-- An audio module and a driver, and a heap of each. -/
def fewHeaps : List Look :=
  [.load ⟨0x10000, 0x20000, "DSOUND.dll".toList⟩, .load ⟨0x20000, 0x30000, "AMDXN32.DLL".toList⟩,
    .recordHeapUse 0 0x500000 0x10500, .callerIsGraphicsModule 0x20500, .recordHeapUse 1 0x600000 0x20500]

theorem faithful_fewHeaps :
    (∀ i heap name t, (after fewHeaps).firstUse[i]? = some (heap, name) →
      (heapIsSardineExcluded heap ((after fewHeaps).last t) (after fewHeaps).seen = isDriverModule name ↔
        if i < kHeapUseMax then isDriverModule (name.take 39) = isDriverModule name else isDriverModule name = false)) ∧
    ∀ ra m, moduleAt (after fewHeaps).mods ra = some m →
      ((callerIsAudioModule (after fewHeaps).mods ra (after fewHeaps).seen).1 = isAudioModule m.name ↔
        if (after fewHeaps).seen.caches ra = true ∨ (after fewHeaps).seen.callerMods.length < kCallerModMax then
          isAudioModule (m.name.take 63) = isAudioModule m.name
        else isAudioModule m.name = false) :=
  faithful_iff (by decide)

def amdxn32 : Module := ⟨0x10000, 0x20000, "AMDXN32.DLL".toList⟩

/-- Heaps 1 to 128, used from an address that no module holds. -/
def strayHeaps : List Look := (List.range 128).map fun k => .recordHeapUse 0 (k + 1) 0x30000

/-- The driver, 128 heaps that no module uses first, and one that the driver does. -/
def crowdedHeaps : List Look := .load amdxn32 :: strayHeaps ++ [.recordHeapUse 0 1000 0x10500]

/-- The state inside the loop: the heaps so far, without a name. -/
def Strayed (k : ℕ) (w : Watch) : Prop :=
  w.mods = [amdxn32] ∧ w.firstUse = (List.range k).map fun j => (j + 1, [])

theorem Strayed.step {k : ℕ} {w : Watch} (h : Strayed k w) : Strayed (k + 1) (w.step (.recordHeapUse 0 (k + 1) 0x30000)) := by
  obtain ⟨hm, hf⟩ := h
  have hnew : k + 1 ∉ w.firstUse.map Prod.fst := by
    rw [hf]
    simp
  have hname : nameAt w.mods 0x30000 = [] := by
    rw [hm]
    decide
  refine ⟨hm, ?_⟩
  rw [step_recordHeapUse]
  dsimp only
  rw [noteFirst, if_neg (not_or.2 ⟨Nat.succ_ne_zero k, hnew⟩), hname, hf, List.range_succ, List.map_append]
  rfl

theorem run_strayHeaps : Run.Guarded Watch.step Lawful (start.step (.load amdxn32)) strayHeaps ∧
    Strayed 128 (Run.after Watch.step (start.step (.load amdxn32)) strayHeaps) :=
  Run.Guarded.loop ⟨rfl, rfl⟩ fun _ _ _ h => ⟨trivial, h.step⟩

theorem after_load_append (m : Module) (ls : List Look) (l : Look) :
    after (.load m :: ls ++ [l]) = (Run.after Watch.step (start.step (.load m)) ls).step l := by
  rw [after, Run.after_append]
  rfl

theorem run_crowdedHeaps : Run crowdedHeaps ∧ (after crowdedHeaps).firstUse[128]? = some (1000, amdxn32.name) := by
  obtain ⟨hg, hm, hf⟩ := run_strayHeaps
  have hload : start.Lawful (.load amdxn32) := by decide
  constructor
  · exact Run.Guarded.append ⟨hload, hg⟩ ⟨trivial, trivial⟩
  · have hnew : 1000 ∉ ((List.range 128).map fun j => (j + 1, ([] : List Char))).map Prod.fst := by simp
    have hname : nameAt [amdxn32] 0x10500 = amdxn32.name := by decide
    rw [crowdedHeaps, after_load_append, step_recordHeapUse]
    dsimp only
    rw [noteFirst, hf, hm, if_neg (not_or.2 ⟨by decide, hnew⟩), hname,
      List.getElem?_append_right (by simp), List.length_map, List.length_range]
    rfl

theorem not_faithful_crowdedHeaps : ¬ ∀ ls, Run ls → (after ls).Faithful := by
  intro h
  obtain ⟨hrun, hi⟩ := run_crowdedHeaps
  have hx := (sound_after hrun).excluded hi 0
  rw [(h _ hrun).1 1000 amdxn32.name 0 (List.mem_of_getElem? hi)] at hx
  exact absurd hx (by decide)

end Watch

end Ts3Vas
