/-
The strings that the hooks look at: module names, searched without regard to case and copied into
buffers. Here each read and each copy is checked: a read past a terminator, or a copy into a buffer that
is too small, ends the run.
-/
import Ts3Vas.Hook.Callers
import Ts3Vas.Hook.Unfreed

namespace Ts3Vas

/-- A string with a terminator: the bytes before it. -/
structure CString where
  bytes : List UInt8
  nonzero : 0 ∉ bytes

namespace CString

/-- The bytes that may be read. -/
def memory (s : CString) : List UInt8 := s.bytes ++ [0]

/-- `lstrlenA`, over the memory from the pointer on. -/
def lstrlenA : List UInt8 → Option ℕ
  | [] => none
  | c :: p => if c = 0 then some 0 else (lstrlenA p).map (· + 1)

/-- `A` to `Z` made small. -/
def lowerByte (a : UInt8) : UInt8 := if 65 ≤ a ∧ a ≤ 90 then a - 65 + 97 else a

/-- The inner loop of `StringContainsI` at `i`, with that many characters of the needle to go: where
`i` stands when it ends. -/
def matched (p needle : List UInt8) (i : ℕ) : ℕ → Option ℕ
  | 0 => some i
  | togo + 1 => do
    let a ← p[i]?
    if a = 0 then return i
    let b ← needle[i]?
    if lowerByte a ≠ lowerByte b then return i
    matched p needle (i + 1) togo

/-- The outer loop, over the memory from `p` on. -/
def search (needle : List UInt8) (needleLen : ℕ) : List UInt8 → Option Bool
  | [] => none
  | c :: p =>
    if c = 0 then some false
    else do
      let i ← matched (c :: p) needle 0 needleLen
      if i = needleLen then return true
      search needle needleLen p

/-- `StringContainsI`, where no string stands for a null pointer. -/
def stringContainsI : Option CString → Option CString → Option Bool
  | some haystack, some needle => do
    let needleLen ← lstrlenA needle.memory
    if needleLen = 0 then return true
    search needle.memory needleLen haystack.memory
  | _, _ => some false

/-! ## What is read and found -/

theorem lstrlenA_bytes {u : List UInt8} (hu : 0 ∉ u) : lstrlenA (u ++ [0]) = some u.length := by
  induction u with
  | nil => rfl
  | cons c u ih =>
    rw [List.mem_cons, not_or] at hu
    rw [List.cons_append, lstrlenA, if_neg (Ne.symm hu.1), ih hu.2]
    rfl

/-- The inner loop ends at the terminator of the haystack at the latest, and gets to the end of the needle
when what is left of the needle is a prefix of what is left there. -/
theorem matched_spec {u w : List UInt8} (hu : 0 ∉ u) :
    ∀ togo i, i + togo = w.length → i ≤ u.length →
      ∃ j, matched (u ++ [0]) (w ++ [0]) i togo = some j ∧
        (j = w.length ↔ (w.drop i).map lowerByte <+: (u.drop i).map lowerByte)
  | 0, i, hi, _ => by
    refine ⟨i, rfl, ?_⟩
    rw [List.drop_of_length_le (show w.length ≤ i by omega)]
    exact ⟨fun _ => List.nil_prefix, fun _ => hi⟩
  | togo + 1, i, hi, hle => by
    have hw : i < w.length := by omega
    have hb : (w ++ [0])[i]? = some w[i] := by rw [List.getElem?_append_left hw, List.getElem?_eq_getElem hw]
    rw [List.drop_eq_getElem_cons hw, List.map_cons, matched]
    rcases hle.lt_or_eq with hlt | rfl
    · have ha : (u ++ [0])[i]? = some u[i] := by rw [List.getElem?_append_left hlt, List.getElem?_eq_getElem hlt]
      have hne : u[i] ≠ 0 := fun h => hu (h ▸ List.getElem_mem hlt)
      rw [List.drop_eq_getElem_cons hlt, List.map_cons, List.cons_prefix_cons, ha, hb]
      by_cases hab : lowerByte u[i] = lowerByte w[i]
      · obtain ⟨j, hj, hiff⟩ := matched_spec (w := w) hu togo (i + 1) (by omega) hlt
        refine ⟨j, ?_, by rw [hiff, hab]; simp⟩
        simpa [hne, hab] using hj
      · refine ⟨i, by simp [hne, hab], ?_⟩
        constructor
        · intro h
          omega
        · rintro ⟨h, -⟩
          exact absurd h.symm hab
    · -- the haystack ends here, and the needle does not
      refine ⟨u.length, by simp, ?_⟩
      rw [List.drop_length, List.map_nil, List.prefix_nil]
      constructor
      · intro h
        omega
      · intro h
        cases h

theorem search_spec {w : List UInt8} (hw : w ≠ []) {u : List UInt8} (hu : 0 ∉ u) :
    ∃ b, search (w ++ [0]) w.length (u ++ [0]) = some b ∧ (b = true ↔ w.map lowerByte <:+: u.map lowerByte) := by
  induction u with
  | nil =>
    refine ⟨false, rfl, ?_⟩
    rw [List.map_nil, List.infix_nil, List.map_eq_nil_iff]
    simpa using hw
  | cons c u ih =>
    obtain ⟨hc, htail⟩ := not_or.1 (List.mem_cons.not.1 hu)
    obtain ⟨i, hi, hpre⟩ := matched_spec (w := w) hu w.length 0 (by omega) (Nat.zero_le _)
    rw [List.drop_zero, List.drop_zero] at hpre
    rw [List.cons_append] at hi
    rw [List.cons_append, search, if_neg (Ne.symm hc), hi, List.map_cons, List.infix_cons_iff, ← List.map_cons, ← hpre]
    by_cases hlen : i = w.length
    · exact ⟨true, by simp [hlen], by simp [hlen]⟩
    · obtain ⟨b, hb, hiff⟩ := ih htail
      exact ⟨b, by simpa [hlen] using hb, by simp [hlen, hiff]⟩

/-- No read of the search lies past a terminator, and it finds the needle exactly where it stands, the
case of letters aside. -/
theorem stringContainsI_finds (haystack needle : CString) :
    ∃ b, stringContainsI (some haystack) (some needle) = some b ∧
      (b = true ↔ needle.bytes = [] ∨ needle.bytes.map lowerByte <:+: haystack.bytes.map lowerByte) := by
  simp only [stringContainsI, memory, lstrlenA_bytes needle.nonzero]
  by_cases hnil : needle.bytes = []
  · exact ⟨true, by simp [hnil], by simp [hnil]⟩
  · obtain ⟨b, hb, hiff⟩ := search_spec hnil haystack.nonzero
    have hlen : needle.bytes.length ≠ 0 := fun h => hnil (List.eq_nil_of_length_eq_zero h)
    exact ⟨b, by simpa [hlen] using hb, by simp [hnil, hiff]⟩

/-! ## The search over characters -/

theorem startsWithI_iff : ∀ p needle : List Char, startsWithI p needle = true ↔ needle.map lowerA <+: p.map lowerA
  | p, [] => by cases p <;> simp [startsWithI]
  | [], b :: needle => by simp [startsWithI]
  | a :: p, b :: needle => by
    rw [startsWithI, List.map_cons, List.map_cons, List.cons_prefix_cons, Bool.and_eq_true, decide_eq_true_iff,
      startsWithI_iff p needle, eq_comm]

theorem stringContainsI_iff (haystack needle : List Char) :
    Ts3Vas.stringContainsI haystack needle = true ↔ needle.map lowerA <:+: haystack.map lowerA := by
  by_cases hnil : needle = []
  · unfold Ts3Vas.stringContainsI
    simp [hnil]
  · have hlen : needle.length ≠ 0 := fun h => hnil (List.eq_nil_of_length_eq_zero h)
    induction haystack with
    | nil => simp [Ts3Vas.stringContainsI, hlen, hnil]
    | cons c p ih =>
      rw [Ts3Vas.stringContainsI, if_neg hlen, Bool.or_eq_true, startsWithI_iff, List.map_cons, List.infix_cons_iff]
      exact or_congr Iff.rfl ih

/-- The characters of a string. -/
def chars (s : CString) : List Char := s.bytes.map Char.ofUInt8

theorem toNat_ofUInt8 (a : UInt8) : (Char.ofUInt8 a).toNat = a.toNat := rfl

theorem ofUInt8_injective : Function.Injective Char.ofUInt8 := by
  intro a b h
  rw [← UInt8.toNat_inj, ← toNat_ofUInt8, ← toNat_ofUInt8, h]

theorem lowerA_ofUInt8 (a : UInt8) : lowerA (Char.ofUInt8 a) = Char.ofUInt8 (lowerByte a) := by
  have hrange : ('A'.toNat ≤ (Char.ofUInt8 a).toNat ∧ (Char.ofUInt8 a).toNat ≤ 'Z'.toNat) ↔ 65 ≤ a ∧ a ≤ 90 := Iff.rfl
  unfold lowerA lowerByte
  simp only [hrange]
  split
  · next h =>
    have h1 : 65 ≤ a.toNat := h.1
    have h2 : a.toNat ≤ 90 := h.2
    have hsmall : (a - 65 + 97).toNat = a.toNat - 65 + 97 := by
      rw [UInt8.toNat_add, UInt8.toNat_sub_of_le _ _ h.1]
      exact Nat.mod_eq_of_lt (show a.toNat - 65 + 97 < 2 ^ 8 by omega)
    calc Char.ofNat ((Char.ofUInt8 a).toNat - 'A'.toNat + 'a'.toNat)
        = Char.ofNat (Char.ofUInt8 (a - 65 + 97)).toNat := by rw [toNat_ofUInt8 (a - 65 + 97), hsmall]; rfl
      _ = Char.ofUInt8 (a - 65 + 97) := Char.ofNat_toNat _
  · rfl

theorem infix_map_injective {α β : Type} {f : α → β} (hf : Function.Injective f) (l l' : List α) :
    l.map f <:+: l'.map f ↔ l <:+: l' := by
  constructor
  · intro h
    obtain ⟨l₀, hl₀, heq⟩ := List.infix_map_iff.1 h
    rwa [List.map_injective_iff.2 hf heq]
  · intro h
    exact h.map f

/-- The functions that test a name over its characters find what the code finds. -/
theorem stringContainsI_chars (haystack needle : CString) :
    stringContainsI (some haystack) (some needle) = some (Ts3Vas.stringContainsI haystack.chars needle.chars) := by
  obtain ⟨b, hb, hiff⟩ := stringContainsI_finds haystack needle
  rw [hb, Option.some.injEq, Bool.eq_iff_iff, hiff, stringContainsI_iff]
  have hlow (s : CString) : s.chars.map lowerA = (s.bytes.map lowerByte).map Char.ofUInt8 := by
    simp only [chars, List.map_map, Function.comp_def, lowerA_ofUInt8]
  rw [hlow, hlow, infix_map_injective ofUInt8_injective]
  constructor
  · rintro (h | h)
    · rw [h]
      exact List.nil_infix
    · exact h
  · exact .inr

end CString

/-! ## Copying a name -/

def MAX_PATH : ℕ := 260

/-- `strcpy_s` into a buffer of `n` characters, which ends the process where the source does not fit. -/
def strcpyS (n : ℕ) (source : List Char) : Option (List Char) := if source.length < n then some source else none

/-- The path that a module was loaded from, empty where `GetModuleFileNameA` fails. -/
abbrev Paths := Module → List Char

/-- `GetModuleFileNameA` into a buffer of `MAX_PATH` characters: a longer path is cut. -/
def getModuleFileNameA (path : List Char) : Option (List Char) := if path = [] then none else some (path.take (MAX_PATH - 1))

/-- What stands behind the last backslash. -/
def baseOf (path : List Char) : List Char := (path.reverse.takeWhile fun c => c ≠ '\\').reverse

/-- What `ClassifyCallerModule` returns for a base name, and nothing where it goes on to the next frame. -/
def kindOf (base : List Char) : Option AllocCallerKind :=
  if namesOneOf ["TS3W.exe", "TS3.exe", "Game_Win32.exe"] base then some .gameExe
  else if namesOneOf ["msvcr", "msvcp", "vcruntime", "ucrtbase"] base then some .runtimeDll
  else if namesOneOf ["TS3VASManager"] base then none
  else if namesOneOf [".asi"] base then some .modDll
  else if isGraphicsModule base then some .graphics
  else none

/-- The base name of the module that a frame lies in, where the two queries find one. -/
def baseAt (paths : Paths) (mods : List Module) (a : ℕ) : Option (List Char) :=
  (moduleAt mods a).bind fun m => (getModuleFileNameA (paths m)).map baseOf

/-- The loop of `ClassifyCallerModule`, with the copy into a buffer of `n` characters, 0 for none. -/
def copyFrames (paths : Paths) (mods : List Module) (n : ℕ) : List ℕ → List Char → Option (AllocCallerKind × List Char)
  | [], name => some (.systemDll, name)
  | a :: frames, name =>
    if a = 0 then some (.systemDll, name)
    else match baseAt paths mods a with
      | none => copyFrames paths mods n frames name
      | some base => do
        -- before anything is known of the module
        let name ← if 0 < n then strcpyS n base else some name
        match kindOf base with
        | some kind => some (kind, name)
        | none => copyFrames paths mods n frames name

/-- `ClassifyCallerModule`: what it returns, and what it leaves in the buffer. -/
def copyCallerModule (paths : Paths) (mods : List Module) (n returnAddress : ℕ) (frames : List ℕ) :
    Option (AllocCallerKind × List Char) :=
  if returnAddress = 0 then some (.unknown, [])
  else copyFrames paths mods n (frames.take kCallerStackDepth) []

/-- A call of `ClassifyCallerModule`, by the function that makes it. -/
inductive ClassifyCall
  | recordVaMixCounters | logRoGameContext | registerDiagnosticAlloc | recordLocalVasReserve | logRangeAllocationHit
  | rtlCreateHeap | rtlAllocateHeap | ntAllocateVirtualMemory | ntAllocateVirtualMemoryEx
  | virtualAllocWriteWatch | virtualAllocRedirected | virtualAllocDetail
  deriving DecidableEq, Repr

/-- The size of the buffer that it passes. -/
def ClassifyCall.moduleNameBytes : ClassifyCall → ℕ
  | .registerDiagnosticAlloc | .rtlCreateHeap | .virtualAllocWriteWatch => 64
  | .recordVaMixCounters | .logRoGameContext | .recordLocalVasReserve | .logRangeAllocationHit | .rtlAllocateHeap
  | .ntAllocateVirtualMemory | .ntAllocateVirtualMemoryEx | .virtualAllocRedirected | .virtualAllocDetail => MAX_PATH

/-- A record of `s_diagRecords` with all its fields. -/
structure NamedRecord extends DiagnosticAllocRecord where
  retAddr : ℕ
  allocTick : ℕ
  moduleName : List Char
  deriving DecidableEq, Repr

/-- `RegisterDiagnosticAlloc` with its copies, the tick that it reads given. -/
def copyDiagnosticAlloc (paths : Paths) (mods : List Module) (diagCSInit : Bool) (tick : ℕ) (frames : List ℕ)
    (records : List NamedRecord) (address size retAddr : ℕ) : Option (List NamedRecord) :=
  if address = 0 ∨ size = 0 ∨ !diagCSInit then some records
  else do
    let modName := (← copyCallerModule paths mods 64 retAddr frames).2
    let modName ← if modName = [] then strcpyS 64 "<unknown>".toList else some modName
    if records.length < kDiagMax then do
      let moduleName ← strcpyS 64 modName
      return records ++ [⟨⟨address, size⟩, retAddr, tick, moduleName⟩]
    else return records

/-! ## What fits -/

section
variable {paths : Paths} {mods : List Module} {n : ℕ}

/-- Every name that the walk comes to fits the buffer: those of the frames before the first null one,
up to the first that settles the kind. -/
def NamesFit (paths : Paths) (mods : List Module) (n : ℕ) (frames : List ℕ) : Prop :=
  ∀ walked a rest base, frames = walked ++ a :: rest → a ≠ 0 →
    (∀ f ∈ walked, f ≠ 0 ∧ ∀ name, baseAt paths mods f = some name → kindOf name = none) →
    baseAt paths mods a = some base → base.length < n

theorem baseAt_length {a : ℕ} {base : List Char} (h : baseAt paths mods a = some base) : base.length < MAX_PATH := by
  unfold baseAt at h
  obtain ⟨m, -, h⟩ := Option.bind_eq_some_iff.1 h
  obtain ⟨path, hpath, rfl⟩ := Option.map_eq_some_iff.1 h
  unfold getModuleFileNameA at hpath
  split at hpath
  · cases hpath
  · cases hpath
    have hcut : (baseOf ((paths m).take (MAX_PATH - 1))).length ≤ ((paths m).take (MAX_PATH - 1)).length := by
      have hsub := (List.takeWhile_sublist (fun c => c ≠ '\\') (l := ((paths m).take (MAX_PATH - 1)).reverse)).length_le
      rw [List.length_reverse] at hsub
      unfold baseOf
      rwa [List.length_reverse]
    rw [List.length_take] at hcut
    have : 0 < MAX_PATH := by decide
    omega

theorem namesFit_MAX_PATH (frames : List ℕ) : NamesFit paths mods MAX_PATH frames :=
  fun _ _ _ _ _ _ _ h => baseAt_length h

theorem namesFit_nil : NamesFit paths mods n [] := by
  rintro walked a rest base h
  cases walked <;> cases h

/-- The walk ends at a null frame. -/
theorem namesFit_null (frames : List ℕ) : NamesFit paths mods n (0 :: frames) := by
  rintro walked a rest base h ha hw -
  cases walked with
  | nil => exact absurd (List.cons.inj h).1.symm ha
  | cons f walked => exact absurd (List.cons.inj h).1.symm (hw f List.mem_cons_self).1

/-- One more frame: its own name, and what follows where it settles nothing. -/
theorem namesFit_cons {a : ℕ} (ha : a ≠ 0) (frames : List ℕ) : NamesFit paths mods n (a :: frames) ↔
    (∀ base, baseAt paths mods a = some base → base.length < n) ∧
      ((∀ base, baseAt paths mods a = some base → kindOf base = none) → NamesFit paths mods n frames) := by
  constructor
  · intro h
    refine ⟨fun base hbase => h [] a frames base rfl ha (by simp) hbase, ?_⟩
    intro hnone walked b rest base hsplit hb hw hbase
    refine h (a :: walked) b rest base (by rw [hsplit, List.cons_append]) hb ?_ hbase
    rw [List.forall_mem_cons]
    exact ⟨⟨ha, hnone⟩, hw⟩
  · rintro ⟨hown, hrest⟩ walked b rest base hsplit hb hw hbase
    cases walked with
    | nil =>
      obtain ⟨rfl, -⟩ := List.cons.inj hsplit
      exact hown base hbase
    | cons f walked =>
      obtain ⟨rfl, htail⟩ := List.cons.inj hsplit
      rw [List.forall_mem_cons] at hw
      exact hrest hw.1.2 walked b rest base htail hb hw.2 hbase

/-! ## The walk -/

/-- A frame with a name: the copy, then the rest where the name settles nothing. -/
theorem copyFrames_named {a : ℕ} (ha : a ≠ 0) {base : List Char} (hbase : baseAt paths mods a = some base) (hn : 0 < n)
    (frames : List ℕ) (name : List Char) :
    copyFrames paths mods n (a :: frames) name =
      if base.length < n then
        match kindOf base with
        | some kind => some (kind, base)
        | none => copyFrames paths mods n frames base
      else none := by
  rw [copyFrames, if_neg ha, hbase]
  simp only [hn, if_true, strcpyS]
  split <;> rfl

theorem copyFrames_unnamed {a : ℕ} (ha : a ≠ 0) (hbase : baseAt paths mods a = none) (frames : List ℕ) (name : List Char) :
    copyFrames paths mods n (a :: frames) name = copyFrames paths mods n frames name := by
  rw [copyFrames, if_neg ha, hbase]

theorem copyFrames_null (frames : List ℕ) (name : List Char) :
    copyFrames paths mods n (0 :: frames) name = some (.systemDll, name) := by rw [copyFrames, if_pos rfl]

/-- The walk comes to its end exactly where each name on its way fits. -/
theorem copyFrames_isSome (hn : 0 < n) (frames : List ℕ) (name : List Char) :
    (copyFrames paths mods n frames name).isSome ↔ NamesFit paths mods n frames := by
  induction frames generalizing name with
  | nil => exact ⟨fun _ => namesFit_nil, fun _ => rfl⟩
  | cons a frames ih =>
    by_cases ha : a = 0
    · rw [ha, copyFrames_null]
      exact ⟨fun _ => namesFit_null frames, fun _ => rfl⟩
    rw [namesFit_cons ha]
    cases hbase : baseAt paths mods a with
    | none =>
      rw [copyFrames_unnamed ha hbase, ih]
      simp
    | some base =>
      rw [copyFrames_named ha hbase hn]
      simp only [Option.some.injEq, forall_eq']
      split
      · next hlt =>
        cases hkind : kindOf base with
        | none => simp [hlt, ih]
        | some kind => simp [hlt]
      · next hlt => simp [hlt]

/-- What it leaves in the buffer fits it. -/
theorem copyFrames_fits (hn : 0 < n) {frames : List ℕ} {name : List Char} {r : AllocCallerKind × List Char}
    (h : copyFrames paths mods n frames name = some r) (hname : name.length < n) : r.2.length < n := by
  induction frames generalizing name with
  | nil =>
    cases h
    exact hname
  | cons a frames ih =>
    by_cases ha : a = 0
    · rw [ha, copyFrames_null] at h
      cases h
      exact hname
    cases hbase : baseAt paths mods a with
    | none =>
      rw [copyFrames_unnamed ha hbase] at h
      exact ih h hname
    | some base =>
      rw [copyFrames_named ha hbase hn] at h
      split at h
      · next hlt =>
        split at h
        · cases h
          exact hlt
        · exact ih h hlt
      · cases h

/-- The queries give the base names of the modules. -/
def Named (paths : Paths) (mods : List Module) : Prop :=
  ∀ m ∈ mods, (getModuleFileNameA (paths m)).map baseOf = some m.name

theorem Named.baseAt (h : Named paths mods) (a : ℕ) : Ts3Vas.baseAt paths mods a = (moduleAt mods a).map (·.name) := by
  unfold Ts3Vas.baseAt
  cases hm : moduleAt mods a with
  | none => rfl
  | some m => exact h m (moduleAt_some hm).1

theorem classifyFrames_named {a : ℕ} (ha : a ≠ 0) {m : Module} (hm : moduleAt mods a = some m) (frames : List ℕ)
    (name : List Char) : classifyFrames mods (a :: frames) name =
      match kindOf m.name with
      | some kind => (kind, m.name)
      | none => classifyFrames mods frames m.name := by
  rw [classifyFrames, if_neg ha, hm]
  unfold kindOf
  dsimp only
  split_ifs <;> rfl

/-- Where the copies succeed, the walk finds what it finds without them. -/
theorem copyFrames_classify (hpaths : Named paths mods) (hn : 0 < n) {frames : List ℕ} {name : List Char}
    {r : AllocCallerKind × List Char} (h : copyFrames paths mods n frames name = some r) :
    r = classifyFrames mods frames name := by
  induction frames generalizing name with
  | nil =>
    cases h
    rfl
  | cons a frames ih =>
    by_cases ha : a = 0
    · rw [ha, copyFrames_null] at h
      cases h
      rw [ha, classifyFrames, if_pos rfl]
    have hbase := hpaths.baseAt a
    cases hm : moduleAt mods a with
    | none =>
      rw [hm] at hbase
      rw [copyFrames_unnamed ha hbase] at h
      rw [classifyFrames, if_neg ha, hm]
      exact ih h
    | some m =>
      rw [hm] at hbase
      rw [copyFrames_named ha hbase hn] at h
      rw [classifyFrames_named ha hm]
      split at h
      · cases hkind : kindOf m.name with
        | none =>
          rw [hkind] at h
          exact ih h
        | some kind =>
          rw [hkind] at h
          cases h
          rfl
      · cases h

/-- `ClassifyCallerModule` is as it was modelled without its buffer. -/
theorem copyCallerModule_classify (hpaths : Named paths mods) (hn : 0 < n) {ra : ℕ} {frames : List ℕ}
    {r : AllocCallerKind × List Char} (h : copyCallerModule paths mods n ra frames = some r) :
    r = classifyCallerModule mods ra frames := by
  unfold copyCallerModule at h
  unfold classifyCallerModule
  split at h
  · next hra =>
    cases h
    rw [if_pos hra]
  · next hra =>
    rw [if_neg hra]
    exact copyFrames_classify hpaths hn h

theorem copyCallerModule_isSome (hn : 0 < n) (ra : ℕ) (frames : List ℕ) :
    (copyCallerModule paths mods n ra frames).isSome ↔ ra = 0 ∨ NamesFit paths mods n (frames.take kCallerStackDepth) := by
  unfold copyCallerModule
  split
  · next hra => simp [hra]
  · next hra => simp [hra, copyFrames_isSome hn]

/-! ## RegisterDiagnosticAlloc -/

theorem copyCallerModule_fits (hn : 0 < n) {ra : ℕ} {frames : List ℕ} {r : AllocCallerKind × List Char}
    (h : copyCallerModule paths mods n ra frames = some r) : r.2.length < n := by
  unfold copyCallerModule at h
  split at h
  · cases h
    exact hn
  · exact copyFrames_fits hn h hn

/-- Once the walk has come through, the record gets a name that fits its field. -/
theorem copyDiagnosticAlloc_some {diagCSInit : Bool} {tick address size ra : ℕ} {frames : List ℕ} {records : List NamedRecord}
    (hgate : ¬ (address = 0 ∨ size = 0 ∨ !diagCSInit)) {r : AllocCallerKind × List Char}
    (h : copyCallerModule paths mods 64 ra frames = some r) :
    copyDiagnosticAlloc paths mods diagCSInit tick frames records address size ra = some (
      if records.length < kDiagMax then
        records ++ [⟨⟨address, size⟩, ra, tick, if r.2 = [] then "<unknown>".toList else r.2⟩]
      else records) := by
  have hfit := copyCallerModule_fits (by decide) h
  have hunknown : strcpyS 64 "<unknown>".toList = some "<unknown>".toList := by decide
  have hname : strcpyS 64 r.2 = some r.2 := by rw [strcpyS, if_pos hfit]
  unfold copyDiagnosticAlloc
  rw [if_neg hgate, h]
  dsimp only [Option.bind_eq_bind, Option.bind_some]
  split_ifs <;> simp only [hunknown, hname, Option.bind_some, Option.pure_def]

theorem copyDiagnosticAlloc_none {diagCSInit : Bool} {tick address size ra : ℕ} {frames : List ℕ} {records : List NamedRecord}
    (hgate : ¬ (address = 0 ∨ size = 0 ∨ !diagCSInit)) (h : copyCallerModule paths mods 64 ra frames = none) :
    copyDiagnosticAlloc paths mods diagCSInit tick frames records address size ra = none := by
  unfold copyDiagnosticAlloc
  rw [if_neg hgate, h]
  rfl

theorem copyDiagnosticAlloc_isSome (diagCSInit : Bool) (tick address size ra : ℕ) (frames : List ℕ)
    (records : List NamedRecord) :
    (copyDiagnosticAlloc paths mods diagCSInit tick frames records address size ra).isSome ↔
      (address = 0 ∨ size = 0 ∨ diagCSInit = false) ∨ (copyCallerModule paths mods 64 ra frames).isSome := by
  by_cases hgate : address = 0 ∨ size = 0 ∨ !diagCSInit
  · have hback : address = 0 ∨ size = 0 ∨ diagCSInit = false := by simpa using hgate
    unfold copyDiagnosticAlloc
    rw [if_pos hgate]
    exact ⟨fun _ => .inl hback, fun _ => rfl⟩
  · have hback : ¬ (address = 0 ∨ size = 0 ∨ diagCSInit = false) := by simpa using hgate
    cases h : copyCallerModule paths mods 64 ra frames with
    | none =>
      rw [copyDiagnosticAlloc_none hgate h]
      simp [hback]
    | some r =>
      rw [copyDiagnosticAlloc_some hgate h]
      exact ⟨fun _ => .inr rfl, fun _ => rfl⟩

/-- `RegisterDiagnosticAlloc` is as it was modelled without the names. -/
theorem copyDiagnosticAlloc_register {tick address size ra : ℕ} {frames : List ℕ} {records records' : List NamedRecord}
    (h : copyDiagnosticAlloc paths mods true tick frames records address size ra = some records') :
    records'.map (·.toDiagnosticAllocRecord) =
      registerDiagnosticAlloc (records.map (·.toDiagnosticAllocRecord)) address size := by
  by_cases hgate : address = 0 ∨ size = 0
  · unfold copyDiagnosticAlloc at h
    rw [if_pos (by simpa using hgate)] at h
    cases h
    rw [registerDiagnosticAlloc, if_pos hgate]
  · have hgate' : ¬ (address = 0 ∨ size = 0 ∨ !true) := by simpa using hgate
    cases hr : copyCallerModule paths mods 64 ra frames with
    | none =>
      rw [copyDiagnosticAlloc_none hgate' hr] at h
      cases h
    | some r =>
      rw [copyDiagnosticAlloc_some hgate' hr] at h
      cases h
      rw [registerDiagnosticAlloc, if_neg hgate, List.length_map]
      split_ifs <;> simp

theorem ClassifyCall.moduleNameBytes_cases (call : ClassifyCall) : call.moduleNameBytes = 64 ∨ call.moduleNameBytes = MAX_PATH := by
  cases call <;> decide

/-- No copy overruns, exactly where the buffer has `MAX_PATH` characters or each name on the way of the walk
has fewer than 64. -/
theorem copies_fit_iff (paths : Paths) (mods : List Module) (ra : ℕ) (frames : List ℕ) :
    (∀ call : ClassifyCall, (copyCallerModule paths mods call.moduleNameBytes ra frames).isSome ↔
      call.moduleNameBytes = MAX_PATH ∨ ra = 0 ∨ NamesFit paths mods 64 (frames.take kCallerStackDepth)) ∧
    (∀ diagCSInit tick records address size,
      (copyDiagnosticAlloc paths mods diagCSInit tick frames records address size ra).isSome ↔
        (address = 0 ∨ size = 0 ∨ diagCSInit = false) ∨ ra = 0 ∨ NamesFit paths mods 64 (frames.take kCallerStackDepth)) := by
  constructor
  · intro call
    rcases call.moduleNameBytes_cases with h | h
    · have hne : 64 ≠ MAX_PATH := by decide
      rw [h, copyCallerModule_isSome (by decide)]
      simp [hne]
    · rw [h, copyCallerModule_isSome (by decide)]
      simp [namesFit_MAX_PATH]
  · rintro diagCSInit tick records address size
    rw [copyDiagnosticAlloc_isSome, copyCallerModule_isSome (by decide)]

/-- A plugin with a name of 68 characters calls. -/
theorem copies_overrun :
    let name := List.replicate 64 'm' ++ ".asi".toList
    let paths : Paths := fun _ => "C:\\".toList ++ name
    let mods : List Module := [⟨0x10000000, 0x10010000, name⟩]
    (baseOf (paths ⟨0x10000000, 0x10010000, name⟩)).length ≤ 259 ∧
      copyCallerModule paths mods ClassifyCall.rtlCreateHeap.moduleNameBytes 0x10001000 [0x10001000] = none ∧
      copyCallerModule paths mods ClassifyCall.virtualAllocWriteWatch.moduleNameBytes 0x10001000 [0x10001000] = none ∧
      copyDiagnosticAlloc paths mods true 0 [0x10001000] [] 0x20000000 0x100000 0x10001000 = none := by
  decide +kernel

end

end Ts3Vas
