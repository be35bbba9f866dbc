/-
The views that `Hooked_NtMapViewOfSection` sees. Each is classified by what the memory manager and the
file name tell of it, and entered in two books: the counters of Analytics, and the tracker of
MapViewTypeTracker.cpp with its tables of files and of resource types.
-/
import Ts3Vas.Hook.Bands
import Ts3Vas.Lib.Tally
import Ts3Vas.Observe.Files
import Ts3Vas.Observe.Packages
import Ts3Vas.Observe.Types

namespace Ts3Vas.MapViewTypeTracker

open Dbpf Tally

/-! ## File names -/

/-- `strrchr`: the rest of the string from the last such character on. -/
def strrchr (c : ℕ) : Name → Option Name
  | [] => none
  | x :: s =>
    match strrchr c s with
    | some t => some t
    | none => if x = c then some (x :: s) else none

def backslash : ℕ := 92
def dot : ℕ := 46

/-- What follows the last backslash. -/
def component (path : Name) : Name :=
  match strrchr backslash path with
  | some slash => slash.tail
  | none => path

def bytesOfString (s : String) : Name := s.toList.map Char.toNat

def packageExtensions : List Name := [bytesOfString ".package", bytesOfString ".world", bytesOfString ".sims3"]

/-- `IsPackageExtension`. -/
def isPackageExtension (filename : Name) : Bool :=
  match strrchr dot filename with
  | some ext => packageExtensions.any fun e => fold ext = e
  | none => false

def maxPath : ℕ := 260

/-- A drive letter with its colon, and the device that QueryDosDeviceA names for it. -/
structure Drive where
  drive : Name
  device : Option Name
  deriving DecidableEq, Repr

/-- The device is the front of the path, up to a backslash. -/
def Drive.holds (d : Drive) (devPath : Name) : Option Name :=
  match d.device with
  | some device =>
    if fold (devPath.take device.length) = fold device ∧ devPath[device.length]? = some backslash then
      some (d.drive ++ devPath.drop device.length)
    else none
  | none => none

/-- `GetMappedFullPath`, from what GetMappedFileNameA gives. -/
def getMappedFullPath (devPath : Name) (drives : List Drive) : Name := (drives.findSome? (·.holds devPath)).getD devPath

/-- The file name as the hook keeps it, cut to its buffer. -/
def baseNameOf (devPath : Name) : Name := (component devPath).take (maxPath - 1)

/-- `isPackageExt`, from both forms of the path. -/
def isPackageExt (devPath : Name) (drives : List Drive) : Bool :=
  isPackageExtension (baseNameOf devPath) || isPackageExtension (getMappedFullPath devPath drives)

section
variable {c d : ℕ} {s t : Name}

theorem strrchr_append (h : c ∉ t) : strrchr c (s ++ c :: t) = some (c :: t) := by
  have hnone : ∀ {t : Name}, c ∉ t → strrchr c t = none := by
    intro t
    induction t with
    | nil => exact fun _ => rfl
    | cons x t ih =>
      intro hx
      rw [List.mem_cons, not_or] at hx
      rw [strrchr, ih hx.2]
      exact if_neg (Ne.symm hx.1)
  induction s with
  | nil =>
    rw [List.nil_append, strrchr, hnone h]
    exact if_pos rfl
  | cons x s ih => rw [List.cons_append, strrchr, ih]

theorem strrchr_cases (c : ℕ) : ∀ s : Name, strrchr c s = none ∧ c ∉ s ∨
    ∃ u t, s = u ++ c :: t ∧ c ∉ t ∧ strrchr c s = some (c :: t)
  | [] => .inl ⟨rfl, List.not_mem_nil⟩
  | x :: s => by
    rcases strrchr_cases c s with ⟨hn, hs⟩ | ⟨u, t, rfl, ht, hs⟩
    · by_cases hx : x = c
      · subst hx
        refine .inr ⟨[], s, rfl, hs, ?_⟩
        rw [strrchr, hn]
        exact if_pos rfl
      · refine .inl ⟨?_, by rw [List.mem_cons, not_or]; exact ⟨Ne.symm hx, hs⟩⟩
        rw [strrchr, hn]
        exact if_neg hx
    · exact .inr ⟨x :: u, t, rfl, ht, by rw [strrchr, hs]⟩

/-- The component of a path that goes on behind a backslash. -/
theorem component_append (h : backslash ∉ t) : component (s ++ backslash :: t) = t := by
  rw [component, strrchr_append h]
  rfl

/-- What comes before a backslash does not matter for the component. -/
theorem component_rest (s t : Name) : component (s ++ backslash :: t) = component (backslash :: t) := by
  rcases strrchr_cases backslash (backslash :: t) with ⟨-, hn⟩ | ⟨u, w, hw, hnot, -⟩
  · exact absurd (List.mem_cons_self ..) hn
  · rw [hw, ← List.append_assoc, component_append hnot, component_append hnot]

theorem fold_mem (h : backslash ∈ s) : backslash ∈ fold s :=
  List.mem_map.2 ⟨backslash, h, rfl⟩

theorem isPackageExtension_of_backslash (h : backslash ∈ t) : (packageExtensions.any fun e => fold t = e) = false := by
  have hext : ∀ e ∈ packageExtensions, backslash ∉ e := by decide
  rw [List.any_eq_false]
  intro e he hfold
  rw [decide_eq_true_eq] at hfold
  exact hext e he (hfold ▸ fold_mem h)

/-- The extension of a path is that of its component: a dot before the last backslash begins no extension. -/
theorem isPackageExtension_component (path : Name) : isPackageExtension path = isPackageExtension (component path) := by
  rcases strrchr_cases backslash path with ⟨hn, -⟩ | ⟨u, t, rfl, ht, -⟩
  · rw [component, hn]
  rw [component_append ht]
  rcases strrchr_cases dot t with ⟨hn, hdot⟩ | ⟨v, w, rfl, hw, hs⟩
  · rw [show isPackageExtension t = false by rw [isPackageExtension, hn]]
    rcases strrchr_cases dot (u ++ backslash :: t) with ⟨hn', -⟩ | ⟨v, w, he, -, hs⟩
    · rw [isPackageExtension, hn']
    · have hmem : backslash ∈ dot :: w := by
        rcases List.append_eq_append_iff.1 he with ⟨a, rfl, ha⟩ | ⟨a, rfl, ha⟩
        · rcases List.cons_eq_append_iff.1 ha with ⟨rfl, ha⟩ | ⟨a, rfl, ha⟩
          · cases ha
          · rw [List.cons_append, List.cons.injEq] at ha
            exact absurd (ha.2 ▸ List.mem_append_right _ (List.mem_cons_self ..)) hdot
        · rw [ha]
          exact List.mem_append_right _ (List.mem_cons_self ..)
      rw [isPackageExtension, hs]
      exact isPackageExtension_of_backslash hmem
  · have hs' : strrchr dot (u ++ backslash :: (v ++ dot :: w)) = some (dot :: w) := by
      rw [← List.cons_append, ← List.append_assoc, strrchr_append hw]
    simp only [isPackageExtension, hs, hs']

/-- The drive letter in front changes nothing. -/
theorem component_getMappedFullPath (devPath : Name) (drives : List Drive) :
    component (getMappedFullPath devPath drives) = component devPath := by
  unfold getMappedFullPath
  rcases hf : drives.findSome? (·.holds devPath) with _ | full
  · rw [hf, Option.getD_none]
  rw [hf, Option.getD_some]
  obtain ⟨d, -, hd⟩ := List.exists_of_findSome?_eq_some hf
  unfold Drive.holds at hd
  split at hd
  · rename_i device hdev
    split at hd
    · rename_i hmatch
      obtain ⟨hlt, hget⟩ := List.getElem?_eq_some_iff.1 hmatch.2
      have hdrop : devPath.drop device.length = backslash :: devPath.drop (device.length + 1) := by
        rw [List.drop_eq_getElem_cons hlt, hget]
      have hsplit : devPath = devPath.take device.length ++ backslash :: devPath.drop (device.length + 1) := by
        rw [← hdrop, List.take_append_drop]
      cases hd
      rw [hdrop, component_rest]
      exact (component_rest _ _).symm.trans (congrArg component hsplit.symm)
    · cases hd
  · cases hd

/-- Both forms of the path have the extension of the component, if that fits its buffer. -/
theorem isPackageExt_eq {devPath : Name} (h : (component devPath).length < maxPath) (drives : List Drive) :
    isPackageExt devPath drives = isPackageExtension (component devPath) := by
  have hbase : baseNameOf devPath = component devPath := List.take_of_length_le (Nat.le_sub_one_of_lt h)
  rw [isPackageExt, hbase, isPackageExtension_component (getMappedFullPath devPath drives),
    component_getMappedFullPath, Bool.or_self]

end

/-! ## The tracker -/

inductive ViewKind
  | anonymous
  | imageSection
  | fileMappedOther
  | fileMappedNoName
  /-- A package whose view has no DBPF header. -/
  | fileMappedPackage
  | fileMappedDbpf
  deriving DecidableEq, Repr

namespace ViewKind

def all : List ViewKind :=
  [.anonymous, .imageSection, .fileMappedOther, .fileMappedNoName, .fileMappedPackage, .fileMappedDbpf]

/-- The kinds whose views go to the table of files. -/
def named : ViewKind → Bool
  | .fileMappedOther | .fileMappedPackage | .fileMappedDbpf => true
  | _ => false

end ViewKind

/-- Its counters are 64-bit words. -/
structure Tracker where
  cnt : ViewKind → ℕ
  bytes : ViewKind → ℕ
  cntRedirected : ℕ
  bytesRedirected : ℕ
  files : List FileSlot
  types : TypeTable

namespace Tracker

def zero : Tracker := ⟨fun _ => 0, fun _ => 0, 0, 0, [], .zero⟩

/-- `RecordView`; a null name is the empty one. -/
def recordView (t : Tracker) (kind : ViewKind) (baseName : Name) (viewBytes : ℕ) (redirected : Bool) : Tracker :=
  let t := { t with
    cnt := Function.update t.cnt kind ((t.cnt kind + 1) % 2 ^ 64)
    bytes := Function.update t.bytes kind ((t.bytes kind + viewBytes) % 2 ^ 64)
    files := if kind.named then recordFileName t.files baseName viewBytes else t.files }
  if redirected then { t with
    cntRedirected := (t.cntRedirected + 1) % 2 ^ 64
    bytesRedirected := (t.bytesRedirected + viewBytes) % 2 ^ 64 }
  else t

/-- The first line of `Report`. -/
def totalViews (t : Tracker) : ℕ := (ViewKind.all.map t.cnt).sum % 2 ^ 64

def totalBytes (t : Tracker) : ℕ := (ViewKind.all.map t.bytes).sum % 2 ^ 64

end Tracker

/-! ## The hook -/

inductive MemType
  | memPrivate
  | memImage
  | memMapped
  deriving DecidableEq, Repr

/-- One call: where the thread stands, what the real function returns, and what the queries on the view
give. -/
structure Mapping where
  /-- Bootstrapping, inside a hook, or shutting down. -/
  busy : Bool
  status : ℤ
  /-- `*BaseAddress` and `*ViewSize`, 0 also for a null pointer. -/
  baseAddress : ℕ
  viewSize : ℕ
  ownProcess : Bool
  /-- `mbi.Type`, if VirtualQuery succeeds. -/
  mbiType : Option MemType
  /-- What GetMappedFileNameA gives, if it succeeds. -/
  devPath : Option Name
  drives : List Drive
  /-- The bytes of the view. -/
  content : ℕ → ℕ
  now : ℕ

/-- The types that the scan of the view finds. -/
def Mapping.typeStats (m : Mapping) : List DbpfTypeStats := scanDbpfIndex m.content m.viewSize kMaxTypeStats

/-- The books. -/
structure Views where
  analytics : Bool
  tracking : Bool
  activeHookCalls : ℤ
  counted : List Increment
  tracker : Tracker
  script : ScriptProbe
  lastDbpfMapTickMs : ℕ

namespace Views

/-- `IncrementCounter`, on an instance if there is one. -/
def count (s : Views) (is : List Increment) : Views := if s.analytics then { s with counted := s.counted ++ is } else s

def recordView (s : Views) (kind : ViewKind) (baseName : Name) (viewSz : ℕ) : Views :=
  if s.tracking then { s with tracker := s.tracker.recordView kind baseName viewSz false } else s

def recordDbpfTypes (s : Views) (stats : List DbpfTypeStats) : Views :=
  if s.tracking then { s with tracker := { s.tracker with types := MapViewTypeTracker.recordDbpfTypes s.tracker.types stats } }
  else s

/-- An image or an anonymous view. -/
def unmapped (s : Views) (m : Mapping) (kind : ViewKind) (counter : String) : Views :=
  (s.recordView kind [] m.viewSize).count [⟨"MapView_Total", 1⟩, ⟨counter, 1⟩]

/-- A package view: the scan, and what it is entered as. -/
def package (s : Views) (m : Mapping) (devPath : Name) : Views :=
  let hasDbpf := !m.typeStats.isEmpty
  let s := if hasDbpf then
      { s with
        lastDbpfMapTickMs := m.now
        script := s.script.probeScriptAssembly (some (component devPath)) m.typeStats }
    else s
  let s := s.recordView (if hasDbpf then .fileMappedDbpf else .fileMappedPackage) (baseNameOf devPath) m.viewSize
  let s := if hasDbpf then s.recordDbpfTypes m.typeStats else s
  s.count [⟨"MapView_PackageBytes", m.viewSize⟩]

/-- A view that MEM_MAPPED is the type of. -/
def mapped (s : Views) (m : Mapping) : Views :=
  let devPath := m.devPath.getD []
  let baseName := if devPath = [] then [] else baseNameOf devPath
  let isPkg := isPackageExtension baseName || isPackageExtension (if m.devPath.isSome then getMappedFullPath devPath m.drives else [])
  let s := s.count [⟨"MapView_Total", 1⟩, ⟨"MapView_FileMapped", 1⟩,
    ⟨if devPath = [] then "MapView_FileMapped_NoName" else if isPkg then "MapView_Package" else "MapView_FileMapped_Other", 1⟩]
  if devPath = [] then
    (s.recordView .fileMappedNoName [] m.viewSize).count [⟨"MapView_FileMapped_NoName_Bytes", m.viewSize⟩]
  else if !isPkg then s.recordView .fileMappedOther baseName m.viewSize
  else s.package m devPath

def enter (s : Views) : Views := { s with activeHookCalls := s.activeHookCalls + 1 }
def leave (s : Views) : Views := { s with activeHookCalls := s.activeHookCalls - 1 }

/-- `Hooked_NtMapViewOfSection`: what it returns, and the books after it. -/
def hookedNtMapViewOfSection (s : Views) (m : Mapping) : ℤ × Views :=
  if m.busy then (m.status, s)
  else
    let s := s.enter
    if m.status < 0 ∨ m.baseAddress = 0 ∨ m.viewSize = 0 then (m.status, s.leave)
    else if !m.ownProcess then (m.status, s.leave)
    else match m.mbiType with
    | none => (m.status, s.leave)
    | some .memImage => (m.status, (s.unmapped m .imageSection "MapView_ImageSection").leave)
    | some .memPrivate => (m.status, (s.unmapped m .anonymous "MapView_Anonymous").leave)
    | some .memMapped => (m.status, (s.mapped m).leave)

def step (s : Views) (m : Mapping) : Views := (s.hookedNtMapViewOfSection m).2

/-- The books before the first call, with an instance of Analytics and one of the tracker. -/
def start : Views := ⟨true, true, 0, [], .zero, .start, 0⟩

abbrev after (ms : List Mapping) : Views := Run.after step start ms

end Views

/-! ## What a view is -/

namespace Mapping

/-- The kind of the view that a call makes, if it makes one that is looked at: by its type, its name, the
extension of the name, and what a scan finds. -/
def kind? (m : Mapping) : Option ViewKind :=
  if m.busy ∨ m.status < 0 ∨ m.baseAddress = 0 ∨ m.viewSize = 0 ∨ m.ownProcess = false then none
  else m.mbiType.map fun
    | .memImage => .imageSection
    | .memPrivate => .anonymous
    | .memMapped =>
      if m.devPath.getD [] = [] then .fileMappedNoName
      else if isPackageExtension (component (m.devPath.getD [])) then
        if m.typeStats = [] then .fileMappedPackage else .fileMappedDbpf
      else .fileMappedOther

/-- The last component of the name fits a buffer of MAX_PATH. -/
def Legible (m : Mapping) : Prop := ∀ path ∈ m.devPath, (component path).length < maxPath

instance (m : Mapping) : Decidable m.Legible := inferInstanceAs (Decidable (∀ path ∈ m.devPath, _))

end Mapping

/-- What Analytics counts of a view. -/
def increments (viewSz : ℕ) : ViewKind → List Increment
  | .anonymous => [⟨"MapView_Total", 1⟩, ⟨"MapView_Anonymous", 1⟩]
  | .imageSection => [⟨"MapView_Total", 1⟩, ⟨"MapView_ImageSection", 1⟩]
  | .fileMappedNoName => [⟨"MapView_Total", 1⟩, ⟨"MapView_FileMapped", 1⟩, ⟨"MapView_FileMapped_NoName", 1⟩,
      ⟨"MapView_FileMapped_NoName_Bytes", viewSz⟩]
  | .fileMappedOther => [⟨"MapView_Total", 1⟩, ⟨"MapView_FileMapped", 1⟩, ⟨"MapView_FileMapped_Other", 1⟩]
  | .fileMappedPackage | .fileMappedDbpf => [⟨"MapView_Total", 1⟩, ⟨"MapView_FileMapped", 1⟩, ⟨"MapView_Package", 1⟩,
      ⟨"MapView_PackageBytes", viewSz⟩]

namespace Views

/-- A view of that kind in both books. -/
def book (s : Views) (m : Mapping) (k : ViewKind) : Views :=
  let t := s.tracker.recordView k (if k.named then baseNameOf (m.devPath.getD []) else []) m.viewSize false
  if k = .fileMappedDbpf then
    { s with
      counted := s.counted ++ increments m.viewSize k
      tracker := { t with types := MapViewTypeTracker.recordDbpfTypes t.types m.typeStats }
      script := s.script.probeScriptAssembly (some (component (m.devPath.getD []))) m.typeStats
      lastDbpfMapTickMs := m.now }
  else { s with counted := s.counted ++ increments m.viewSize k, tracker := t }

/-- The hook never changes what the real function returned. -/
theorem hooked_status (s : Views) (m : Mapping) : (s.hookedNtMapViewOfSection m).1 = m.status := by
  unfold hookedNtMapViewOfSection
  split
  · rfl
  · dsimp only
    split
    · rfl
    · split
      · rfl
      · split <;> rfl

theorem leave_enter (s : Views) : s.enter.leave = s := by simp [enter, leave]

section
variable {s : Views} {m : Mapping}

/-- The extension of a view with a name, as the hook checks it twice. -/
theorem isPkg_eq (hm : m.Legible) (hpath : m.devPath.getD [] ≠ []) :
    (isPackageExtension (baseNameOf (m.devPath.getD [])) ||
      isPackageExtension (if m.devPath.isSome then getMappedFullPath (m.devPath.getD []) m.drives else [])) =
    isPackageExtension (component (m.devPath.getD [])) := by
  rcases hd : m.devPath with _ | path
  · rw [hd] at hpath
    exact absurd rfl hpath
  · exact isPackageExt_eq (hm path hd) m.drives

theorem package_eq (ha : s.analytics) (ht : s.tracking) :
    ((s.enter.count [⟨"MapView_Total", 1⟩, ⟨"MapView_FileMapped", 1⟩, ⟨"MapView_Package", 1⟩]).package m
      (m.devPath.getD [])).leave = s.book m (if m.typeStats = [] then .fileMappedPackage else .fileMappedDbpf) := by
  by_cases hscan : m.typeStats = []
  · simp [package, book, enter, leave, count, recordView, ha, ht, hscan, ViewKind.named, increments]
  · simp [package, book, enter, leave, count, recordView, recordDbpfTypes, ha, ht, hscan, ViewKind.named, increments]

theorem mapped_eq (ha : s.analytics) (ht : s.tracking) (hm : m.Legible) :
    (s.enter.mapped m).leave = s.book m (if m.devPath.getD [] = [] then .fileMappedNoName
      else if isPackageExtension (component (m.devPath.getD [])) then
        if m.typeStats = [] then .fileMappedPackage else .fileMappedDbpf
      else .fileMappedOther) := by
  unfold mapped
  by_cases hpath : m.devPath.getD [] = []
  · simp [hpath, book, enter, leave, count, recordView, ha, ht, ViewKind.named, increments]
  · simp only [if_neg hpath]
    rw [isPkg_eq hm hpath]
    by_cases hext : isPackageExtension (component (m.devPath.getD []))
    · rw [if_pos hext]
      simp only [hext, if_true, Bool.not_true, Bool.false_eq_true, if_false]
      exact package_eq ha ht
    · rw [if_neg hext]
      simp [hext, book, enter, leave, count, recordView, ha, ht, ViewKind.named, increments]

theorem unmapped_eq (ha : s.analytics) (ht : s.tracking) :
    (s.enter.unmapped m .imageSection "MapView_ImageSection").leave = s.book m .imageSection ∧
      (s.enter.unmapped m .anonymous "MapView_Anonymous").leave = s.book m .anonymous := by
  constructor <;> simp [unmapped, book, enter, leave, count, recordView, ha, ht, ViewKind.named, increments]

/-- One call: a view of its kind in both books, or nothing. -/
theorem step_eq (ha : s.analytics) (ht : s.tracking) (hm : m.Legible) :
    s.step m = match m.kind? with
      | some k => s.book m k
      | none => s := by
  unfold step hookedNtMapViewOfSection Mapping.kind?
  by_cases hbusy : m.busy
  · simp [hbusy]
  by_cases hfail : m.status < 0 ∨ m.baseAddress = 0 ∨ m.viewSize = 0
  · have hskip : m.busy ∨ m.status < 0 ∨ m.baseAddress = 0 ∨ m.viewSize = 0 ∨ m.ownProcess = false := by tauto
    rw [if_neg hbusy, if_pos hskip]
    dsimp only
    rw [if_pos hfail]
    exact leave_enter s
  by_cases hown : m.ownProcess
  · have hskip : ¬ (m.busy ∨ m.status < 0 ∨ m.baseAddress = 0 ∨ m.viewSize = 0 ∨ m.ownProcess = false) := by
      simp only [hown]
      tauto
    rw [if_neg hbusy, if_neg hfail, if_neg hskip]
    simp only [hown, Bool.not_true, Bool.false_eq_true, if_false]
    rcases m.mbiType with _ | ty
    · exact leave_enter s
    · cases ty with
      | memPrivate => exact (unmapped_eq ha ht).2
      | memImage => exact (unmapped_eq ha ht).1
      | memMapped => exact mapped_eq ha ht hm
  · simp [hbusy, hfail, hown, leave_enter]

/-! ## Whole runs -/

theorem after_concat (ms : List Mapping) (m : Mapping) : after (ms ++ [m]) = (after ms).step m := Run.after_append ..

theorem book_frame (k : ViewKind) : (s.book m k).analytics = s.analytics ∧ (s.book m k).tracking = s.tracking ∧
    (s.book m k).activeHookCalls = s.activeHookCalls := by
  by_cases hk : k = .fileMappedDbpf <;> simp [book, hk]

theorem book_counted (k : ViewKind) : (s.book m k).counted = s.counted ++ increments m.viewSize k := by
  by_cases hk : k = .fileMappedDbpf <;> simp [book, hk]

theorem book_cnt (k : ViewKind) :
    (s.book m k).tracker.cnt = Function.update s.tracker.cnt k ((s.tracker.cnt k + 1) % 2 ^ 64) ∧
      (s.book m k).tracker.bytes = Function.update s.tracker.bytes k ((s.tracker.bytes k + m.viewSize) % 2 ^ 64) := by
  by_cases hk : k = .fileMappedDbpf <;> simp [book, hk, Tracker.recordView]

theorem book_redirected (k : ViewKind) : (s.book m k).tracker.cntRedirected = s.tracker.cntRedirected ∧
    (s.book m k).tracker.bytesRedirected = s.tracker.bytesRedirected := by
  by_cases hk : k = .fileMappedDbpf <;> simp [book, hk, Tracker.recordView]

theorem book_files (k : ViewKind) : (s.book m k).tracker.files =
    if k.named then recordFileName s.tracker.files (baseNameOf (m.devPath.getD [])) m.viewSize else s.tracker.files := by
  by_cases hk : k = .fileMappedDbpf
  · simp [book, hk, Tracker.recordView, ViewKind.named]
  · by_cases hn : k.named <;> simp [book, hk, Tracker.recordView, hn]

theorem book_types (k : ViewKind) : (s.book m k).tracker.types =
      (if k = .fileMappedDbpf then MapViewTypeTracker.recordDbpfTypes s.tracker.types m.typeStats else s.tracker.types) ∧
    (s.book m k).script = if k = .fileMappedDbpf then
      s.script.probeScriptAssembly (some (component (m.devPath.getD []))) m.typeStats else s.script := by
  by_cases hk : k = .fileMappedDbpf <;> simp [book, hk, Tracker.recordView]

end

end Views

/-! ## Whole runs -/

/-- The recordings, scans and sightings that the views stand for. -/
def Mapping.recording? (m : Mapping) : Option Recording := m.kind?.bind fun k =>
  if k.named then some ⟨baseNameOf (m.devPath.getD []), m.viewSize⟩ else none

def Mapping.isDbpf (m : Mapping) : Bool := m.kind? = some .fileMappedDbpf

/-- What the sighting of a package view is. -/
def Mapping.sighting (m : Mapping) : Sighting := .mapView (some (component (m.devPath.getD []))) m.typeStats

/-- What is posted of a call. -/
def Mapping.posted (m : Mapping) : List Increment := (m.kind?.map (increments m.viewSize)).getD []

section
variable {ms : List Mapping} {m : Mapping}

/-- What the calls leave in the books, call by call. -/
structure Booked (ms : List Mapping) (s : Views) : Prop where
  analytics : s.analytics
  tracking : s.tracking
  calls : s.activeHookCalls = 0
  counted : s.counted = ms.flatMap (·.posted)
  cnt : s.tracker.cnt = ms.foldl (bump (2 ^ 64) Mapping.kind? fun _ => 1) fun _ => 0
  bytes : s.tracker.bytes = ms.foldl (bump (2 ^ 64) Mapping.kind? (·.viewSize)) fun _ => 0
  redirected : s.tracker.cntRedirected = 0 ∧ s.tracker.bytesRedirected = 0
  files : s.tracker.files = filesAfter (ms.filterMap (·.recording?))
  types : s.tracker.types = ((ms.filter (·.isDbpf)).map (·.typeStats)).foldl recordDbpfTypes .zero
  script : s.script = ((ms.filter (·.isDbpf)).map (·.sighting)).foldl ScriptProbe.step .start

theorem Booked.step {s : Views} (h : Booked ms s) (hm : m.Legible) : Booked (ms ++ [m]) (s.step m) := by
  rw [Views.step_eq h.analytics h.tracking hm]
  rcases hk : m.kind? with _ | k
  · have hrec : m.recording? = none := by rw [Mapping.recording?, hk]; rfl
    have hdbpf : m.isDbpf = false := by rw [Mapping.isDbpf, hk]; rfl
    have hpost : m.posted = [] := by rw [Mapping.posted, hk]; rfl
    refine ⟨h.analytics, h.tracking, h.calls, ?_, ?_, ?_, h.redirected, ?_, ?_, ?_⟩
    · rw [List.flatMap_append, List.flatMap_singleton, hpost, List.append_nil, h.counted]
    · rw [List.foldl_concat, bump_none hk, h.cnt]
    · rw [List.foldl_concat, bump_none hk, h.bytes]
    · rw [List.filterMap_append, List.filterMap_cons_none hrec, List.filterMap_nil, List.append_nil, h.files]
    · rw [List.filter_append, List.filter_cons_of_neg (by simp [hdbpf]), List.filter_nil, List.append_nil, h.types]
    · rw [List.filter_append, List.filter_cons_of_neg (by simp [hdbpf]), List.filter_nil, List.append_nil, h.script]
  · obtain ⟨ha, ht, hc⟩ := Views.book_frame (s := s) (m := m) k
    obtain ⟨hcnt, hbytes⟩ := Views.book_cnt (s := s) (m := m) k
    obtain ⟨hr, hrb⟩ := Views.book_redirected (s := s) (m := m) k
    obtain ⟨htypes, hscript⟩ := Views.book_types (s := s) (m := m) k
    have hpost : m.posted = increments m.viewSize k := by rw [Mapping.posted, hk]; rfl
    refine ⟨ha.trans h.analytics, ht.trans h.tracking, hc.trans h.calls, ?_, ?_, ?_,
      ⟨hr.trans h.redirected.1, hrb.trans h.redirected.2⟩, ?_, ?_, ?_⟩
    · rw [Views.book_counted, h.counted, List.flatMap_append, List.flatMap_singleton, hpost]
    · rw [hcnt, List.foldl_concat, bump_some hk, h.cnt]
    · rw [hbytes, List.foldl_concat, bump_some hk, h.bytes]
    · rw [Views.book_files, h.files, List.filterMap_append]
      by_cases hn : k.named
      · have hrec : m.recording? = some ⟨baseNameOf (m.devPath.getD []), m.viewSize⟩ := by
          rw [Mapping.recording?, hk]
          exact if_pos hn
        rw [if_pos hn, List.filterMap_cons_some hrec, List.filterMap_nil, filesAfter, filesAfter, List.foldl_concat]
        rfl
      · have hrec : m.recording? = none := by
          rw [Mapping.recording?, hk]
          exact if_neg hn
        rw [if_neg hn, List.filterMap_cons_none hrec, List.filterMap_nil, List.append_nil]
    · rw [htypes, h.types, List.filter_append]
      by_cases hd : k = .fileMappedDbpf
      · rw [if_pos hd, List.filter_cons_of_pos (by simp [Mapping.isDbpf, hk, hd]), List.filter_nil, List.map_append,
          List.map_singleton, List.foldl_concat]
      · rw [if_neg hd, List.filter_cons_of_neg (by simp [Mapping.isDbpf, hk, hd]), List.filter_nil, List.append_nil]
    · rw [hscript, h.script, List.filter_append]
      by_cases hd : k = .fileMappedDbpf
      · rw [if_pos hd, List.filter_cons_of_pos (by simp [Mapping.isDbpf, hk, hd]), List.filter_nil, List.map_append,
          List.map_singleton, List.foldl_concat]
        rfl
      · rw [if_neg hd, List.filter_cons_of_neg (by simp [Mapping.isDbpf, hk, hd]), List.filter_nil, List.append_nil]

end

end Ts3Vas.MapViewTypeTracker
