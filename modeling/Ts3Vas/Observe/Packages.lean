/-
Script_Packages: the map-view path and the ReadFile path report a package through one set of base
names. A ReadFile sighting marks the name before it scans, and the mark stays when the scan finds
nothing.
-/
import Ts3Vas.Observe.Dedup
import Ts3Vas.Observe.Dbpf

namespace Ts3Vas

open ScriptScanDedup Dbpf

/-! ## Sightings -/

/-- The set of names, and the counters of the two paths. -/
structure ScriptProbe where
  slots : Slots
  scriptPackages : ℕ
  scriptResources : ℕ
  scriptXmlResources : ℕ

inductive Sighting
  /-- A mapped view: the base name where GetMappedFileNameA has one, and the scanned types. -/
  | mapView (base : Option (List ℕ)) (typeStats : List DbpfTypeStats)
  /-- A read of a package: the base name of its path, and the handle that a scan of it opens. -/
  | readFile (base : List ℕ) (disk : Disk)

namespace ScriptProbe

/-- The three counters of one report. -/
def report (s : ScriptProbe) (r : Resources) : ScriptProbe :=
  { s with
    scriptPackages := s.scriptPackages + 1
    scriptResources := s.scriptResources + r.script
    scriptXmlResources := s.scriptXmlResources + r.xml }

/-- `ProbeScriptAssembly`. Only a view with a name goes through the set. -/
def probeScriptAssembly (s : ScriptProbe) (base : Option (List ℕ)) (typeStats : List DbpfTypeStats) : ScriptProbe :=
  if !typeStatsHaveScript typeStats then s
  else match base with
  | none => s.report (resources typeStats)
  | some b =>
    let (seen, slots) := markOnce s.slots (keyFromBaseNameA b)
    let s := { s with slots := slots }
    if seen then s else s.report (resources typeStats)

/-- The end of `Hooked_ReadFile`, after a read that gave bytes of a package. -/
def hookedReadFile (s : ScriptProbe) (base : List ℕ) (disk : Disk) : ScriptProbe :=
  let (seen, slots) := markOnce s.slots (keyFromBaseNameW base)
  let s := { s with slots := slots }
  if seen then s
  else
    let r := scanPackageForScript disk
    if 0 < r.script then s.report r else s

def step (s : ScriptProbe) : Sighting → ScriptProbe
  | .mapView base typeStats => s.probeScriptAssembly base typeStats
  | .readFile base disk => s.hookedReadFile base disk

def start : ScriptProbe := ⟨fun _ => 0, 0, 0, 0⟩

end ScriptProbe

namespace Sighting

/-- The sighting is able to see a script resource. -/
def sees : Sighting → Bool
  | .mapView _ typeStats => typeStatsHaveScript typeStats
  | .readFile _ disk => 0 < (scanPackageForScript disk).script

/-- The key under which it goes to the set: a view without a script or without a name does not. -/
def asks : Sighting → Option ℕ
  | .mapView base typeStats => if typeStatsHaveScript typeStats then base.map fun b => remap (keyFromBaseNameA b) else none
  | .readFile base _ => some (remap (keyFromBaseNameW base))

def isRead : Sighting → Bool
  | .mapView .. => false
  | .readFile .. => true

/-- What it found. -/
def found : Sighting → Resources
  | .mapView _ typeStats => resources typeStats
  | .readFile _ disk => scanPackageForScript disk

end Sighting

/-- A package by its base name, as the code page and as UTF-16 have it. -/
structure Package where
  ansi : List ℕ
  wide : List ℕ
  deriving DecidableEq, Repr

namespace Package

def keyA (p : Package) : ℕ := remap (keyFromBaseNameA p.ansi)
def keyW (p : Package) : ℕ := remap (keyFromBaseNameW p.wide)

/-- The sighting is one of this package. -/
def sights (p : Package) : Sighting → Bool
  | .mapView base _ => base = some p.ansi
  | .readFile base _ => base = p.wide

end Package

namespace ScriptProbe

/-- The calls of `MarkOnce` never run out of probes. -/
def Roomy (s : ScriptProbe) (σ : Sighting) : Prop := ∀ k ∈ σ.asks, ¬ Passed s.slots k probes

instance (s : ScriptProbe) (σ : Sighting) : Decidable (s.Roomy σ) :=
  inferInstanceAs (Decidable (∀ k ∈ σ.asks, ¬ Passed s.slots k probes))

/-- How often Script_Packages goes up at the sightings of a package. -/
def counted (p : Package) : ScriptProbe → List Sighting → ℕ
  | _, [] => 0
  | s, σ :: σs =>
    (if p.sights σ then (s.step σ).scriptPackages - s.scriptPackages else 0) + counted p (s.step σ) σs

/-- No sighting of another package has a key of this one. -/
def Apart (p : Package) (σs : List Sighting) : Prop :=
  ∀ σ ∈ σs, p.sights σ = false → ∀ k ∈ σ.asks, k ≠ p.keyA ∧ k ≠ p.keyW

instance (p : Package) (σs : List Sighting) : Decidable (Apart p σs) :=
  inferInstanceAs (Decidable (∀ σ ∈ σs, p.sights σ = false → ∀ k ∈ σ.asks, k ≠ p.keyA ∧ k ≠ p.keyW))

/-- The first sighting of such a kind sees a script. -/
def led (kind : Sighting → Bool) (σs : List Sighting) : Bool := (σs.find? kind).any Sighting.sees

/-! ## One sighting -/

theorem markOnce_remap (slots : Slots) (key : ℕ) : markOnce slots (remap key) = markOnce slots key := by
  have h : remap (remap key) = remap key := if_neg (remap_ne key)
  unfold markOnce
  rw [h]

/-- A sighting that goes to the set. -/
theorem step_asks {σ : Sighting} {k : ℕ} (h : σ.asks = some k) (s : ScriptProbe) : s.step σ =
    if (markOnce s.slots k).1 then { s with slots := (markOnce s.slots k).2 }
    else if σ.sees then { s with slots := (markOnce s.slots k).2 }.report σ.found
    else { s with slots := (markOnce s.slots k).2 } := by
  cases σ with
  | mapView base typeStats =>
    by_cases hs : typeStatsHaveScript typeStats
    · cases base with
      | none => simp [Sighting.asks, hs] at h
      | some b =>
        simp only [Sighting.asks, hs, if_true, Option.map_some, Option.some.injEq] at h
        subst h
        rw [markOnce_remap]
        simp only [step, probeScriptAssembly, hs, Bool.not_true, Bool.false_eq_true, if_false, Sighting.sees, if_true]
        rfl
    · simp [Sighting.asks, hs] at h
  | readFile base disk =>
    simp only [Sighting.asks, Option.some.injEq] at h
    subst h
    rw [markOnce_remap]
    simp only [step, hookedReadFile, Sighting.sees, decide_eq_true_eq]
    rfl

/-- A sighting that does not go to the set leaves it alone. -/
theorem step_silent {σ : Sighting} (h : σ.asks = none) (s : ScriptProbe) : (s.step σ).slots = s.slots := by
  cases σ with
  | mapView base typeStats =>
    by_cases hs : typeStatsHaveScript typeStats
    · cases base with
      | none => simp [step, probeScriptAssembly, hs, report]
      | some b => simp [Sighting.asks, hs] at h
    · simp [step, probeScriptAssembly, hs]
  | readFile base disk => cases h

/-- A sighting that goes to the set either finds its key, or puts it there and reports what it saw. -/
theorem step_cases {σ : Sighting} {k : ℕ} (h : σ.asks = some k) {s : ScriptProbe} (hs : Filled s.slots)
    (hroom : s.Roomy σ) :
    (Stored s.slots k ∧ s.step σ = s) ∨
    (¬ Stored s.slots k ∧ ∃ i, s.slots i = 0 ∧ Filled (Function.update s.slots i k) ∧
      (s.step σ).slots = Function.update s.slots i k ∧
      (s.step σ).scriptPackages = s.scriptPackages + if σ.sees then 1 else 0) := by
  have hk : k ≠ 0 ∧ remap k = k := by
    cases σ with
    | mapView base typeStats =>
      simp only [Sighting.asks] at h
      split at h
      · obtain ⟨b, -, rfl⟩ := Option.map_eq_some_iff.1 h
        exact ⟨remap_ne _, if_neg (remap_ne _)⟩
      · cases h
    | readFile base disk =>
      cases h
      exact ⟨remap_ne _, if_neg (remap_ne _)⟩
  have hpass : ¬ Passed s.slots (remap k) probes := hk.2.symm ▸ hroom k h
  rw [step_asks h]
  rcases markOnce_cases s.slots k hpass with ⟨hst, e⟩ | ⟨n, hp, h0, e⟩
  · rw [hk.2] at hst
    rw [e]
    exact .inl ⟨hst, rfl⟩
  · rw [hk.2] at hp h0 e
    rw [e]
    refine .inr ⟨hs.not_stored hk.1 hp h0, index k n, h0, hs.claim hp h0, ?_, ?_⟩
    · rw [if_neg Bool.false_ne_true]
      split <;> rfl
    · rw [if_neg Bool.false_ne_true]
      split <;> rfl

/-! ## The whole sequence -/

/-- How often Script_Packages goes up at the sightings that go to the set under a key. -/
def countedUnder (k : ℕ) : ScriptProbe → List Sighting → ℕ
  | _, [] => 0
  | s, σ :: σs =>
    (if σ.asks = some k then (s.step σ).scriptPackages - s.scriptPackages else 0) + countedUnder k (s.step σ) σs

abbrev Run (s : ScriptProbe) (σs : List Sighting) : Prop := Run.Guarded step Roomy s σs

theorem step_filled {s : ScriptProbe} (hs : Filled s.slots) {σ : Sighting} (hroom : s.Roomy σ) : Filled (s.step σ).slots := by
  cases ha : σ.asks with
  | none =>
    rw [step_silent ha]
    exact hs
  | some k =>
    rcases step_cases ha hs hroom with ⟨-, e⟩ | ⟨-, i, -, hf, e, -⟩
    · rw [e]; exact hs
    · rw [e]; exact hf

/-- A sighting under another key leaves this one stored or not. -/
theorem step_stored {s : ScriptProbe} (hs : Filled s.slots) {σ : Sighting} (hroom : s.Roomy σ) {k : ℕ} (hk : k ≠ 0)
    (ha : σ.asks ≠ some k) : Stored (s.step σ).slots k ↔ Stored s.slots k := by
  cases ha' : σ.asks with
  | none => rw [step_silent ha']
  | some k' =>
    rcases step_cases ha' hs hroom with ⟨-, e⟩ | ⟨-, i, h0, -, e, -⟩
    · rw [e]
    · rw [e]
      exact (stored_claim h0).2 k hk fun h => ha (h ▸ ha')

/-- Under one key the first sighting decides: it is counted when it sees a script, and no other is. -/
theorem countedUnder_eq {k : ℕ} (hk : k ≠ 0) : ∀ {σs : List Sighting} {s : ScriptProbe}, Filled s.slots → Run s σs →
    (Stored s.slots k → countedUnder k s σs = 0) ∧
      (¬ Stored s.slots k → countedUnder k s σs = if led (fun σ => σ.asks = some k) σs then 1 else 0)
  | [], _, _, _ => ⟨fun _ => rfl, fun _ => rfl⟩
  | σ :: σs, s, hs, hrun => by
    obtain ⟨ih1, ih2⟩ := countedUnder_eq hk (step_filled hs hrun.1) hrun.2
    by_cases ha : σ.asks = some k
    · have hlead : led (fun σ => σ.asks = some k) (σ :: σs) = σ.sees := by simp [led, ha]
      rcases step_cases ha hs hrun.1 with ⟨hst, e⟩ | ⟨hst, i, h0, -, e, hc⟩
      · rw [e] at ih1
        refine ⟨fun _ => ?_, fun h => absurd hst h⟩
        rw [countedUnder, if_pos ha, e, ih1 hst, Nat.sub_self]
      · have hafter : Stored (s.step σ).slots k := e ▸ (stored_claim h0).1
        refine ⟨fun h => absurd h hst, fun _ => ?_⟩
        rw [countedUnder, if_pos ha, ih1 hafter, hlead, hc, Nat.add_sub_cancel_left, Nat.add_zero]
    · have hlead : led (fun σ => σ.asks = some k) (σ :: σs) = led (fun σ => σ.asks = some k) σs := by simp [led, ha]
      rw [countedUnder, if_neg ha, Nat.zero_add, hlead]
      have hst := step_stored hs hrun.1 hk ha
      exact ⟨fun h => ih1 (hst.2 h), fun h => ih2 fun h' => h (hst.1 h')⟩

theorem Package.sights_asks {p : Package} {σ : Sighting} (h : p.sights σ) {k : ℕ} (ha : σ.asks = some k) :
    k = if σ.isRead then p.keyW else p.keyA := by
  cases σ with
  | mapView base typeStats =>
    simp only [Package.sights, decide_eq_true_eq] at h
    subst h
    simp only [Sighting.asks] at ha
    split at ha
    · cases ha; rfl
    · cases ha
  | readFile base disk =>
    simp only [Package.sights, decide_eq_true_eq] at h
    subst h
    cases ha; rfl

/-- A sighting of a package that does not go to the set is not counted. -/
theorem step_unasked {p : Package} {σ : Sighting} (h : p.sights σ) (ha : σ.asks = none) (s : ScriptProbe) : s.step σ = s := by
  cases σ with
  | mapView base typeStats =>
    simp only [Package.sights, decide_eq_true_eq] at h
    subst h
    by_cases hs : typeStatsHaveScript typeStats
    · simp [Sighting.asks, hs] at ha
    · simp [step, probeScriptAssembly, hs]
  | readFile base disk => cases ha

/-- The sightings of a package are those that go to the set under its keys. -/
theorem counted_eq {p : Package} : ∀ {σs : List Sighting} (s : ScriptProbe), Apart p σs →
    counted p s σs = countedUnder p.keyA s σs + if p.keyA = p.keyW then 0 else countedUnder p.keyW s σs
  | [], _, _ => by simp [counted, countedUnder]
  | σ :: σs, s, h => by
    obtain ⟨hσ, hσs⟩ := List.forall_mem_cons.1 h
    have ih := counted_eq (s.step σ) hσs
    rw [counted, countedUnder, countedUnder, ih]
    cases ha : σ.asks with
    | none =>
      by_cases hp : p.sights σ
      · simp [hp, step_unasked hp ha]
      · simp [hp]
    | some k =>
      by_cases hp : p.sights σ
      · have hk := Package.sights_asks hp ha
        by_cases hkk : p.keyA = p.keyW
        · have hka : k = p.keyA := by rw [hk]; split <;> simp [hkk]
          simp only [hp, hka, hkk, if_true]
          omega
        · cases hr : σ.isRead with
          | true =>
            rw [hr] at hk
            simp only [if_true] at hk
            simp only [hp, hk, hkk, Ne.symm hkk, Option.some.injEq, if_true, if_false]
            omega
          | false =>
            rw [hr] at hk
            simp only [Bool.false_eq_true, if_false] at hk
            simp only [hp, hk, hkk, Option.some.injEq, if_true, if_false]
            omega
      · have hne := hσ (Bool.eq_false_iff.2 hp) k ha
        simp [hp, hne.1, hne.2]

theorem led_congr {f g : Sighting → Bool} : ∀ {σs : List Sighting}, (∀ σ ∈ σs, f σ = g σ) → led f σs = led g σs
  | [], _ => rfl
  | σ :: σs, h => by
    obtain ⟨hσ, hσs⟩ := List.forall_mem_cons.1 h
    have ih := led_congr hσs
    unfold led at ih ⊢
    rw [List.find?_cons, List.find?_cons, hσ]
    cases g σ with
    | true => rfl
    | false => exact ih

/-- The package's sightings on a path that go to the set. -/
def Package.marks (p : Package) (path : Sighting → Bool) (σ : Sighting) : Bool := p.sights σ && (path σ && σ.asks.isSome)

/-- The first of its sightings to go to the set sees a script. Where the two hooks hash the base name
differently, their sightings do not meet, and it is one path that counts the package and not the other. -/
def CountedOnce (p : Package) (σs : List Sighting) : Prop :=
  if p.keyA = p.keyW then led (Package.marks p fun _ => true) σs = true
  else led (Package.marks p fun σ => !σ.isRead) σs ≠ led (Package.marks p fun σ => σ.isRead) σs

instance (p : Package) (σs : List Sighting) : Decidable (CountedOnce p σs) := by
  unfold CountedOnce
  infer_instance

/-- The sightings under one of the package's keys are those of the paths that have this key. -/
theorem led_marks {p : Package} {σs : List Sighting} (h : Apart p σs) {k : ℕ} (hk : k = p.keyA ∨ k = p.keyW)
    (path : Sighting → Bool) (hpath : ∀ σ, path σ = decide ((if σ.isRead then p.keyW else p.keyA) = k)) :
    led (fun σ => decide (σ.asks = some k)) σs = led (Package.marks p path) σs := by
  refine led_congr fun σ hσ => ?_
  unfold Package.marks
  cases ha : σ.asks with
  | none => simp
  | some k' =>
    cases hp : p.sights σ with
    | false =>
      have hne := h σ hσ hp k' ha
      have hkk : k' ≠ k := by rcases hk with rfl | rfl; exacts [hne.1, hne.2]
      simp [hkk]
    | true =>
      rw [hpath, ← Package.sights_asks hp ha]
      simp

theorem filled_start : Filled start.slots := fun _ h => absurd rfl h

theorem not_stored_start {k : ℕ} (hk : k ≠ 0) : ¬ Stored start.slots k := by
  rintro ⟨i, rfl⟩
  exact hk rfl

/-- With one key for both hooks, the first sighting that marks the name decides. -/
theorem counted_of_keys_eq {p : Package} {σs : List Sighting} (hrun : Run start σs) (hapart : Apart p σs)
    (hk : p.keyA = p.keyW) : counted p start σs = if led (Package.marks p fun _ => true) σs then 1 else 0 := by
  have hA : p.keyA ≠ 0 := remap_ne _
  rw [counted_eq start hapart, (countedUnder_eq hA filled_start hrun).2 (not_stored_start hA), if_pos hk, Nat.add_zero,
    led_marks hapart (.inl rfl) (fun _ => true) (by simp [hk])]

/-- With two keys, each path counts the package on its own. -/
theorem counted_of_keys_ne {p : Package} {σs : List Sighting} (hrun : Run start σs) (hapart : Apart p σs)
    (hk : p.keyA ≠ p.keyW) : counted p start σs = (if led (Package.marks p fun σ => !σ.isRead) σs then 1 else 0) +
      if led (Package.marks p fun σ => σ.isRead) σs then 1 else 0 := by
  have hA : p.keyA ≠ 0 := remap_ne _
  have hW : p.keyW ≠ 0 := remap_ne _
  have hmaps : ∀ σ : Sighting, (!σ.isRead) = decide ((if σ.isRead then p.keyW else p.keyA) = p.keyA) := by
    intro σ
    cases σ.isRead <;> simp [Ne.symm hk]
  have hreads : ∀ σ : Sighting, σ.isRead = decide ((if σ.isRead then p.keyW else p.keyA) = p.keyW) := by
    intro σ
    cases σ.isRead <;> simp [hk]
  rw [counted_eq start hapart, (countedUnder_eq hA filled_start hrun).2 (not_stored_start hA),
    (countedUnder_eq hW filled_start hrun).2 (not_stored_start hW), if_neg hk, led_marks hapart (.inl rfl) _ hmaps,
    led_marks hapart (.inr rfl) _ hreads]

/-- A package whose name has one key, with nobody else about: no call runs out of probes. -/
theorem run_alone {p : Package} (hk : p.keyA = p.keyW) : ∀ {σs : List Sighting} {s : ScriptProbe}, Filled s.slots →
    (∀ i, s.slots i = 0 ∨ s.slots i = p.keyA) → (∀ σ ∈ σs, p.sights σ) → Run s σs
  | [], _, _, _, _ => trivial
  | σ :: σs, s, hs, hone, h => by
    obtain ⟨hσ, hσs⟩ := List.forall_mem_cons.1 h
    have hkey : ∀ k ∈ σ.asks, k = p.keyA := by
      intro k ha
      rw [Package.sights_asks hσ ha]
      split <;> simp [hk]
    have hroom : s.Roomy σ := by
      intro k ha hpass
      obtain ⟨h0, hne⟩ := hpass 0 (by decide)
      rw [hkey k ha] at h0 hne
      rcases hone (index p.keyA 0) with h | h
      · exact h0 h
      · exact hne h
    refine ⟨hroom, run_alone hk (step_filled hs hroom) (fun i => ?_) hσs⟩
    cases ha : σ.asks with
    | none =>
      rw [step_silent ha]
      exact hone i
    | some k =>
      rcases step_cases ha hs hroom with ⟨-, e⟩ | ⟨-, j, -, -, e, -⟩
      · rw [e]
        exact hone i
      · rw [e, hkey k ha]
        by_cases hij : i = j
        · right
          rw [hij, Function.update_self]
        · rw [Function.update_of_ne hij]
          exact hone i

theorem apart_alone {p : Package} {σs : List Sighting} (h : ∀ σ ∈ σs, p.sights σ) : Apart p σs :=
  fun σ hσ hp => absurd (h σ hσ) (Bool.eq_false_iff.1 hp)

/-- For an ASCII name the two hooks use one key. -/
theorem Package.keys_ascii {p : Package} (h : p.wide = p.ansi) (hb : ∀ c ∈ p.ansi, c < 128) : p.keyA = p.keyW := by
  rw [Package.keyA, Package.keyW, h, key_ascii hb]

/-- Over a sequence of sightings Script_Packages goes up once for a package exactly when the first of
its sightings that marks the name sees a script: a ReadFile sighting whose scan fails does not come first. -/
theorem counted_once_iff (p : Package) {σs : List Sighting} (hrun : Run start σs) (hapart : Apart p σs) :
    counted p start σs = 1 ↔ CountedOnce p σs := by
  unfold CountedOnce
  by_cases hk : p.keyA = p.keyW
  · rw [counted_of_keys_eq hrun hapart hk, if_pos hk]
    simp
  · rw [counted_of_keys_ne hrun hapart hk, if_neg hk]
    cases led (Package.marks p fun σ => !σ.isRead) σs <;> cases led (Package.marks p fun σ => σ.isRead) σs <;> simp

/-- `mod.package`. -/
def modPackage : Package :=
  ⟨[109, 111, 100, 46, 112, 97, 99, 107, 97, 103, 101], [109, 111, 100, 46, 112, 97, 99, 107, 97, 103, 101]⟩

theorem modPackage_keys : modPackage.keyA = modPackage.keyW := Package.keys_ascii rfl (by decide)

/-- A read of the package whose scan cannot open the file. -/
def blindRead : Sighting := .readFile modPackage.wide ⟨false, false, fun _ _ => none, fun _ _ _ h => by cases h⟩

/-- A view of the package that shows its script. -/
def scriptView : Sighting := .mapView (some modPackage.ansi) [⟨kDbpfTypeScript, 1, 4096⟩]

/-- After a read whose scan cannot open the file, the view that shows the script is passed over. -/
theorem blind_read_hides_script : Run start [blindRead, scriptView] ∧ Apart modPackage [blindRead, scriptView] ∧
    (∃ σ ∈ [blindRead, scriptView], modPackage.sights σ ∧ σ.sees) ∧ counted modPackage start [blindRead, scriptView] = 0 := by
  have hall : ∀ σ ∈ [blindRead, scriptView], modPackage.sights σ := by decide
  have hrun := run_alone modPackage_keys filled_start (fun _ => .inl rfl) hall
  have hcount := counted_of_keys_eq hrun (apart_alone hall) modPackage_keys
  have hled : led (Package.marks modPackage fun _ => true) [blindRead, scriptView] = false := by decide
  rw [hled] at hcount
  exact ⟨hrun, apart_alone hall, by decide, hcount⟩

/-- The view first, and the reads after it. -/
theorem counted_once_view : counted modPackage start [scriptView, blindRead, scriptView] = 1 := by
  have hall : ∀ σ ∈ [scriptView, blindRead, scriptView], modPackage.sights σ := by decide
  have hrun := run_alone modPackage_keys filled_start (fun _ => .inl rfl) hall
  apply (counted_once_iff modPackage hrun (apart_alone hall)).2
  rw [CountedOnce, if_pos modPackage_keys]
  decide

end ScriptProbe

end Ts3Vas
