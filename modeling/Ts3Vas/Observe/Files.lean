/-
The table of mapped file names, MapViewTypeTracker.cpp. RecordFileName compares the whole name with the
stored copies, and a copy is cut to 79 bytes: a longer name never finds its own slot again.
-/
import Ts3Vas.Observe.Dedup

namespace Ts3Vas.MapViewTypeTracker

open ScriptScanDedup (lower)

/-! ## The table -/

/-- The bytes of a string before its terminator. -/
abbrev Name := List ℕ

structure FileSlot where
  name : Name
  viewCount : ℕ
  totalBytes : ℕ
  deriving DecidableEq, Repr

def kMaxFiles : ℕ := 64
/-- `sizeof(FileSlot::name)`. -/
def nameBytes : ℕ := 80

/-- A name as `_stricmp` reads it, in the C locale. -/
def fold (n : Name) : Name := n.map lower

/-- `_stricmp(a, b) == 0`. -/
def sameName (a b : Name) : Prop := fold a = fold b

instance (a b : Name) : Decidable (sameName a b) := inferInstanceAs (Decidable (_ = _))

/-- What `strncpy_s(name, baseName, _TRUNCATE)` leaves in `FileSlot::name`. -/
def stored (n : Name) : Name := n.take (nameBytes - 1)

/-- The two additions to a slot. -/
def FileSlot.bump (x : FileSlot) (bytes : ℕ) : FileSlot :=
  { x with viewCount := (x.viewCount + 1) % 2 ^ 64, totalBytes := (x.totalBytes + bytes) % 2 ^ 64 }

@[simp] theorem FileSlot.bump_name (x : FileSlot) (bytes : ℕ) : (x.bump bytes).name = x.name := rfl

theorem FileSlot.bump_viewCount {x : FileSlot} (h : x.viewCount + 1 < 2 ^ 64) (bytes : ℕ) :
    (x.bump bytes).viewCount = x.viewCount + 1 := Nat.mod_eq_of_lt h

/-- The search for the name's slot, and the additions to it. -/
def bumpFile (baseName : Name) (bytes : ℕ) : List FileSlot → Option (List FileSlot)
  | [] => none
  | f :: files =>
    if sameName f.name baseName then
      some (f.bump bytes :: files)
    else (bumpFile baseName bytes files).map (f :: ·)

/-- `RecordFileName` on the first `m_fileCount` entries of `m_files`, no other thread in between. -/
def recordFileName (files : List FileSlot) (baseName : Name) (bytes : ℕ) : List FileSlot :=
  if baseName = [] then files
  else match bumpFile baseName bytes files with
  | some files => files
  | none =>
    -- the same search again, under the lock
    match bumpFile baseName bytes files with
    | some files => files
    | none => if files.length < kMaxFiles then files ++ [⟨stored baseName, 1, bytes % 2 ^ 64⟩] else files

/-- A call of `RecordFileName`. -/
structure Recording where
  baseName : Name
  bytes : ℕ
  deriving DecidableEq, Repr

def record (files : List FileSlot) (c : Recording) : List FileSlot := recordFileName files c.baseName c.bytes

/-- The table after the calls. -/
def filesAfter (calls : List Recording) : List FileSlot := calls.foldl record []

/-! ## One slot a name -/

def countOf (calls : List Recording) (n : Name) : ℕ := calls.countP fun c => sameName c.baseName n

def bytesOf (calls : List Recording) (n : Name) : ℕ := ((calls.filter fun c => sameName c.baseName n).map (·.bytes)).sum

/-- The slots of a name, as far as a slot holds a name. -/
def slotsOf (files : List FileSlot) (n : Name) : List FileSlot := files.filter fun x => sameName x.name (stored n)

/-- The name has exactly one slot, with the number and the bytes of its calls. -/
def OneSlot (files : List FileSlot) (calls : List Recording) (n : Name) : Prop :=
  ∃ x, slotsOf files n = [x] ∧ x.viewCount = countOf calls n % 2 ^ 64 ∧ x.totalBytes = bytesOf calls n % 2 ^ 64

/-- Names with the same stored copy are the same, and one too long to be stored whole comes once. -/
structure Legible (calls : List Recording) : Prop where
  distinct : ∀ a ∈ calls, ∀ b ∈ calls, sameName (stored a.baseName) (stored b.baseName) → sameName a.baseName b.baseName
  once : ∀ a ∈ calls, nameBytes ≤ a.baseName.length → countOf calls a.baseName = 1

theorem fold_stored (n : Name) : fold (stored n) = (fold n).take (nameBytes - 1) := List.map_take ..

theorem length_fold (n : Name) : (fold n).length = n.length := List.length_map ..

/-- A slot's name is short, so it is its own copy. -/
theorem fold_stored_of_short {n : Name} (h : n.length < nameBytes) : fold (stored n) = fold n := by
  rw [stored, List.take_of_length_le (by unfold nameBytes at *; omega)]

theorem length_stored (n : Name) : (stored n).length < nameBytes := by
  unfold stored nameBytes
  rw [List.length_take]; omega

theorem stored_congr {a b : Name} (h : sameName a b) : sameName (stored a) (stored b) := by
  unfold sameName at *
  rw [fold_stored, fold_stored, h]

section
variable {files : List FileSlot} {calls : List Recording} {n : Name} {c : Recording}

theorem bumpFile_cases (n : Name) (bytes : ℕ) : ∀ files : List FileSlot,
    (bumpFile n bytes files = none ∧ ∀ y ∈ files, ¬ sameName y.name n) ∨
    ∃ pre x post, files = pre ++ x :: post ∧ (∀ y ∈ pre, ¬ sameName y.name n) ∧ sameName x.name n ∧
      bumpFile n bytes files = some (pre ++ x.bump bytes :: post)
  | [] => .inl ⟨rfl, by simp⟩
  | f :: files => by
    by_cases hf : sameName f.name n
    · exact .inr ⟨[], f, files, rfl, by simp, hf, by rw [bumpFile, if_pos hf]; rfl⟩
    · rw [bumpFile, if_neg hf]
      rcases bumpFile_cases n bytes files with ⟨e, hn⟩ | ⟨pre, x, post, rfl, hpre, hx, e⟩
      · left
        rw [e]
        exact ⟨rfl, List.forall_mem_cons.2 ⟨hf, hn⟩⟩
      · right
        rw [e]
        exact ⟨f :: pre, x, post, rfl, List.forall_mem_cons.2 ⟨hf, hpre⟩, hx, rfl⟩

/-- What a call does: it raises the first slot of its name, enters a new one, or finds no room. -/
theorem record_cases (files : List FileSlot) (hc : c.baseName ≠ []) :
    (∃ pre x post, files = pre ++ x :: post ∧ (∀ y ∈ pre, ¬ sameName y.name c.baseName) ∧ sameName x.name c.baseName ∧
      record files c = pre ++ x.bump c.bytes :: post) ∨
    ((∀ y ∈ files, ¬ sameName y.name c.baseName) ∧ files.length < kMaxFiles ∧
      record files c = files ++ [⟨stored c.baseName, 1, c.bytes % 2 ^ 64⟩]) ∨
    ((∀ y ∈ files, ¬ sameName y.name c.baseName) ∧ kMaxFiles ≤ files.length ∧ record files c = files) := by
  unfold record recordFileName
  rw [if_neg hc]
  rcases bumpFile_cases c.baseName c.bytes files with ⟨e, hn⟩ | ⟨pre, x, post, rfl, hpre, hx, e⟩
  · rw [e]
    right
    by_cases hlen : files.length < kMaxFiles
    · exact .inl ⟨hn, hlen, by rw [if_pos hlen]⟩
    · exact .inr ⟨hn, Nat.not_lt.1 hlen, by rw [if_neg hlen]⟩
  · rw [e]
    exact .inl ⟨pre, x, post, rfl, hpre, hx, rfl⟩

theorem countOf_append (c : Recording) : countOf (calls ++ [c]) n =
    countOf calls n + if sameName c.baseName n then 1 else 0 := by
  unfold countOf
  rw [List.countP_append, List.countP_singleton]
  simp

theorem bytesOf_append (c : Recording) : bytesOf (calls ++ [c]) n =
    bytesOf calls n + if sameName c.baseName n then c.bytes else 0 := by
  unfold bytesOf
  rw [List.filter_append, List.map_append, List.sum_append]
  by_cases h : sameName c.baseName n
  · simp [h]
  · simp [h]

theorem countOf_pos (hc : c ∈ calls) : 0 < countOf calls c.baseName :=
  List.countP_pos_iff.2 ⟨c, hc, by simp [sameName]⟩

/-- A name alike to another is alike to the same names. -/
theorem sameName_congr {a b : Name} (h : sameName a b) (k : Name) : decide (sameName k a) = decide (sameName k b) :=
  decide_eq_decide.2 ⟨fun hk => hk.trans h, fun hk => hk.trans h.symm⟩

theorem countOf_congr {a b : Name} (h : sameName a b) : countOf calls a = countOf calls b := by
  unfold countOf
  simp only [sameName_congr h]

theorem bytesOf_congr {a b : Name} (h : sameName a b) : bytesOf calls a = bytesOf calls b := by
  unfold bytesOf
  simp only [sameName_congr h]

/-- Calls of two names with one copy are all calls with that copy. -/
theorem countOf_add_le (calls : List Recording) {a b : Name} (hne : ¬ sameName a b) (hab : sameName (stored a) (stored b)) :
    countOf calls a + countOf calls b ≤ calls.countP fun c => fold (stored c.baseName) = fold (stored a) := by
  induction calls with
  | nil => exact le_rfl
  | cons c calls ih =>
    simp only [countOf, List.countP_cons] at ih ⊢
    by_cases h1 : sameName c.baseName a
    · have h2 : ¬ sameName c.baseName b := fun h2 => hne (h1.symm.trans h2)
      have h3 : fold (stored c.baseName) = fold (stored a) := stored_congr h1
      simp only [h1, h2, h3, decide_true, decide_false, if_true, Bool.false_eq_true, if_false]
      omega
    · by_cases h2 : sameName c.baseName b
      · have h3 : fold (stored c.baseName) = fold (stored a) := (stored_congr h2).trans hab.symm
        simp only [h1, h2, h3, decide_true, decide_false, if_true, Bool.false_eq_true, if_false]
        omega
      · simp only [h1, h2, decide_false, Bool.false_eq_true, if_false]
        omega

/-! ## The slots of a name -/

theorem mem_slotsOf {x : FileSlot} : x ∈ slotsOf files n ↔ x ∈ files ∧ sameName x.name (stored n) := by
  simp [slotsOf]

theorem slotsOf_congr {a b : Name} (h : sameName (stored a) (stored b)) : slotsOf files a = slotsOf files b := by
  unfold slotsOf
  simp only [sameName_congr h]

/-- Raising the one slot of a name leaves it the only one. -/
theorem slotsOf_raise {pre post : List FileSlot} {x y : FileSlot} (bytes : ℕ) (h : slotsOf (pre ++ x :: post) n = [y])
    (hx : sameName x.name (stored n)) : x = y ∧ slotsOf (pre ++ x.bump bytes :: post) n = [x.bump bytes] := by
  unfold slotsOf at *
  rw [List.filter_append, List.filter_cons_of_pos (by exact decide_eq_true hx)] at h ⊢
  have hlen := congrArg List.length h
  rw [List.length_append, List.length_cons, List.length_singleton] at hlen
  rw [List.length_eq_zero_iff.1 (show (pre.filter _).length = 0 by omega),
    List.length_eq_zero_iff.1 (show (post.filter _).length = 0 by omega)] at h ⊢
  exact ⟨List.singleton_inj.1 h, rfl⟩

/-- Raising a slot leaves the slots of other names alone. -/
theorem slotsOf_other {pre post : List FileSlot} {x : FileSlot} (bytes : ℕ) (hx : ¬ sameName x.name (stored n)) :
    slotsOf (pre ++ x.bump bytes :: post) n = slotsOf (pre ++ x :: post) n := by
  have hnot : ¬ decide (sameName x.name (stored n)) = true := by simpa using hx
  unfold slotsOf
  rw [List.filter_append, List.filter_append, List.filter_cons_of_neg (by exact hnot),
    List.filter_cons_of_neg (by exact hnot)]

/-! ## Every run -/

/-- What the table is after any calls that the counters can count. -/
structure Logged (calls : List Recording) (files : List FileSlot) : Prop where
  small : ∀ x ∈ files, x.viewCount ≤ calls.length
  names : ∀ x ∈ files, ∃ c ∈ calls, x.name = stored c.baseName
  /-- A slot is raised only by a name that it holds whole. -/
  raised : ∀ x ∈ files, x.viewCount ≤ 1 ∨ ∃ c ∈ calls, sameName x.name c.baseName
  room : files.length ≤ kMaxFiles
  /-- No call is lost before the table is full. -/
  total : files.length = kMaxFiles ∨ ∀ k : Name, ((files.filter fun x => fold x.name = k).map (·.viewCount)).sum =
    calls.countP fun c => fold (stored c.baseName) = k

theorem Logged.nil : Logged [] [] := ⟨by simp, by simp, by simp, Nat.zero_le _, .inr fun _ => rfl⟩

theorem Logged.length_lt (h : Logged calls files) {x : FileSlot} (hx : x ∈ files) : x.name.length < nameBytes := by
  obtain ⟨c, -, e⟩ := h.names x hx
  rw [e]
  exact length_stored _

/-- A slot that a name finds is also the slot of the name's stored copy. -/
theorem Logged.found (h : Logged calls files) {x : FileSlot} (hx : x ∈ files) (hn : sameName x.name n) :
    fold x.name = fold (stored n) := by
  rw [fold_stored, ← hn, ← fold_stored, fold_stored_of_short (h.length_lt hx)]

theorem Logged.step (h : Logged calls files) (hc : c.baseName ≠ []) (hshort : (calls ++ [c]).length < 2 ^ 64) :
    Logged (calls ++ [c]) (record files c) := by
  have hmono : ∀ {P : Recording → Prop}, (∃ d ∈ calls, P d) → ∃ d ∈ calls ++ [c], P d := by
    rintro P ⟨d, hd, hp⟩
    exact ⟨d, List.mem_append_left _ hd, hp⟩
  have hlength : (calls ++ [c]).length = calls.length + 1 := List.length_append
  have hsmall : ∀ y ∈ files, y.viewCount ≤ (calls ++ [c]).length := fun y hy => (h.small y hy).trans (by omega)
  rcases record_cases files hc with ⟨pre, x, post, rfl, -, hx, e⟩ | ⟨-, hlen, e⟩ | ⟨-, hlen, e⟩
  · rw [e]
    have hfound := h.found (List.mem_append_right _ (List.mem_cons_self ..)) hx
    have hle := h.small x (by simp)
    have hraised := FileSlot.bump_viewCount (x := x) (by omega) c.bytes
    have hothers : ∀ y ∈ pre ++ x.bump c.bytes :: post, y ∈ pre ++ x :: post ∨ y = x.bump c.bytes := by
      intro y hy
      simp only [List.mem_append, List.mem_cons] at hy ⊢
      tauto
    refine ⟨fun y hy => ?_, fun y hy => ?_, fun y hy => ?_, by have := h.room; simpa using this, ?_⟩
    · rcases hothers y hy with hy | rfl
      · exact hsmall y hy
      · omega
    · rcases hothers y hy with hy | rfl
      · exact hmono (h.names y hy)
      · exact hmono (h.names x (by simp))
    · rcases hothers y hy with hy | rfl
      · exact (h.raised y hy).imp_right hmono
      · exact .inr ⟨c, by simp, hx⟩
    · rcases h.total with hfull | htotal
      · left
        simpa using hfull
      · right
        intro k
        have hk := htotal k
        rw [List.countP_append, List.countP_singleton, ← hk]
        by_cases hxk : fold x.name = k
        · have hck : fold (stored c.baseName) = k := hfound ▸ hxk
          simp [List.filter_append, hxk, hck, hraised]
          omega
        · have hck : ¬ fold (stored c.baseName) = k := hfound ▸ hxk
          simp [List.filter_append, hxk, hck]
  · rw [e]
    refine ⟨List.forall_mem_append.2 ⟨hsmall, ?_⟩, List.forall_mem_append.2 ⟨fun y hy => hmono (h.names y hy), ?_⟩,
      List.forall_mem_append.2 ⟨fun y hy => (h.raised y hy).imp_right hmono, ?_⟩, ?_, ?_⟩
    · exact List.forall_mem_singleton.2 (by rw [hlength]; exact Nat.le_add_left ..)
    · exact List.forall_mem_singleton.2 ⟨c, by simp, rfl⟩
    · exact List.forall_mem_singleton.2 (.inl le_rfl)
    · rw [List.length_append, List.length_singleton]; omega
    · right
      intro k
      have hk := (h.total.resolve_left hlen.ne) k
      rw [List.countP_append, List.countP_singleton, ← hk]
      by_cases hck : fold (stored c.baseName) = k
      · simp [List.filter_append, hck]
      · simp [List.filter_append, hck]
  · rw [e]
    exact ⟨hsmall, fun y hy => hmono (h.names y hy), fun y hy => (h.raised y hy).imp_right hmono, h.room,
      .inl (le_antisymm h.room hlen)⟩

theorem logged_after : ∀ (rest : List Recording) {calls : List Recording} {files : List FileSlot}, Logged calls files →
    (∀ c ∈ rest, c.baseName ≠ []) → (calls ++ rest).length < 2 ^ 64 → Logged (calls ++ rest) (rest.foldl record files)
  | [], calls, files, h, _, _ => by simpa using h
  | c :: rest, calls, files, h, hne, hshort => by
    obtain ⟨hc, hrest⟩ := List.forall_mem_cons.1 hne
    rw [List.append_cons] at hshort ⊢
    exact logged_after rest (h.step hc ((List.sublist_append_left ..).length_le.trans_lt hshort)) hrest hshort

/-! ## Names and copies -/

/-- The distinct names of the calls, ignoring case. -/
def names (calls : List Recording) : Finset Name := (calls.map fun c => fold c.baseName).toFinset

/-- Their stored copies. -/
def copies (calls : List Recording) : Finset Name := (names calls).image (List.take (nameBytes - 1))

theorem mem_names (hc : c ∈ calls) : fold c.baseName ∈ names calls := List.mem_toFinset.2 (List.mem_map_of_mem hc)

theorem mem_copies (hc : c ∈ calls) : fold (stored c.baseName) ∈ copies calls :=
  Finset.mem_image.2 ⟨_, mem_names hc, (fold_stored _).symm⟩

/-- With one slot for each name, no two slots have the same copy. -/
theorem nodup_of_oneSlot (hnames : ∀ x ∈ files, ∃ c ∈ calls, x.name = stored c.baseName)
    (h : ∀ c ∈ calls, OneSlot files calls c.baseName) : (files.map fun x => fold x.name).Nodup := by
  refine List.nodup_iff_count_le_one.2 fun k => ?_
  by_cases hk : k ∈ files.map fun x => fold x.name
  · obtain ⟨x, hx, rfl⟩ := List.mem_map.1 hk
    obtain ⟨c, hc, e⟩ := hnames x hx
    obtain ⟨y, hy, -⟩ := h c hc
    have hcount : (files.map fun x => fold x.name).count (fold x.name) = (slotsOf files c.baseName).length := by
      rw [List.count, List.countP_map, List.countP_eq_length_filter, e]
      refine congrArg List.length (List.filter_congr fun z _ => ?_)
      exact beq_eq_decide _ _
    rw [hcount, hy]
    exact le_rfl
  · rw [List.count_eq_zero.2 hk]
    exact Nat.zero_le 1

/-- There are no more slots than copies. -/
theorem length_le_copies (hnames : ∀ x ∈ files, ∃ c ∈ calls, x.name = stored c.baseName)
    (h : ∀ c ∈ calls, OneSlot files calls c.baseName) : files.length ≤ (copies calls).card := by
  have hcard := List.toFinset_card_of_nodup (nodup_of_oneSlot hnames h)
  rw [List.length_map] at hcard
  rw [← hcard]
  refine Finset.card_le_card fun k hk => ?_
  obtain ⟨x, hx, rfl⟩ := List.mem_map.1 (List.mem_toFinset.1 hk)
  obtain ⟨c, hc, e⟩ := hnames x hx
  rw [e]
  exact mem_copies hc

/-! ## One slot a name, when the names are legible -/

/-- Names that one slot each is enough for have copies of their own: a shared copy would leave fewer
copies than slots in a full table, or more calls than its slot has counted. -/
theorem distinct_of_oneSlot (hl : Logged calls files) (hcap : (names calls).card ≤ kMaxFiles)
    (h : ∀ c ∈ calls, OneSlot files calls c.baseName) {a b : Recording} (ha : a ∈ calls) (hb : b ∈ calls)
    (hab : sameName (stored a.baseName) (stored b.baseName)) : sameName a.baseName b.baseName := by
  by_contra hne
  rcases hl.total with hfull | htotal
  · have hlen := length_le_copies hl.names h
    have hlt : (copies calls).card < (names calls).card := by
      refine lt_of_le_of_ne Finset.card_image_le fun e => hne ?_
      refine Finset.card_image_iff.1 e (mem_names ha) (mem_names hb) ?_
      show (fold a.baseName).take _ = (fold b.baseName).take _
      rw [← fold_stored, ← fold_stored]
      exact hab
    omega
  · obtain ⟨x, hx, hxa, -⟩ := h a ha
    obtain ⟨y, hy, hyb, -⟩ := h b hb
    have hxy : x = y := by
      rw [← slotsOf_congr hab, hx] at hy
      exact List.singleton_inj.1 hy
    have hsum : ((slotsOf files a.baseName).map (·.viewCount)).sum = _ := htotal (fold (stored a.baseName))
    rw [hx, List.map_singleton, List.sum_singleton, hxa] at hsum
    have hle := countOf_add_le calls hne hab
    have hpos := countOf_pos hb
    have hmod := Nat.mod_le (countOf calls a.baseName) (2 ^ 64)
    omega

/-- A name too long to be stored whole is counted once in its slot, whatever its calls. -/
theorem once_of_oneSlot (hl : Logged calls files) (hshort : calls.length < 2 ^ 64) (hcap : (names calls).card ≤ kMaxFiles)
    (h : ∀ c ∈ calls, OneSlot files calls c.baseName) {a : Recording} (ha : a ∈ calls)
    (hlong : nameBytes ≤ a.baseName.length) : countOf calls a.baseName = 1 := by
  obtain ⟨x, hx, hcount, -⟩ := h a ha
  have hmem := mem_slotsOf.1 (hx ▸ List.mem_singleton_self x : x ∈ slotsOf files a.baseName)
  have hpos := countOf_pos ha
  rcases hl.raised x hmem.1 with hone | ⟨d, hd, hxd⟩
  · have hle : countOf calls a.baseName ≤ calls.length := List.countP_le_length
    rw [Nat.mod_eq_of_lt (by omega)] at hcount
    omega
  · -- the slot's own name was recorded too: a name of the same copy, and a shorter one
    have hshort := hl.length_lt hmem.1
    have hcopy : sameName (stored d.baseName) (stored a.baseName) := (hl.found hmem.1 hxd).symm.trans hmem.2
    have hsame := distinct_of_oneSlot hl hcap h hd ha hcopy
    have h1 := congrArg List.length hxd
    have h2 := congrArg List.length hsame
    rw [length_fold, length_fold] at h1 h2
    omega

/-- The table when the names are legible. -/
structure Told (calls : List Recording) (files : List FileSlot) : Prop where
  names : ∀ x ∈ files, ∃ c ∈ calls, x.name = stored c.baseName
  slots : ∀ c ∈ calls, OneSlot files calls c.baseName

/-- A slot that a name finds is its own, entered by a call of the same name. -/
theorem Told.found (h : Told calls files) (hleg : Legible (calls ++ [c])) {x : FileSlot} (hx : x ∈ files)
    (hxc : sameName x.name c.baseName) :
    sameName x.name (stored c.baseName) ∧ ∃ d ∈ calls, sameName d.baseName c.baseName := by
  obtain ⟨d, hd, e⟩ := h.names x hx
  have hstore : sameName x.name (stored c.baseName) := by
    rw [sameName, fold_stored, ← hxc, ← fold_stored, fold_stored_of_short (e ▸ length_stored _)]
  refine ⟨hstore, d, hd, hleg.distinct d (List.mem_append_left _ hd) c (by simp) ?_⟩
  rw [← e]
  exact hstore

/-- A slot that the name does not find is not its own, when an earlier call has the same name. -/
theorem Told.short (hleg : Legible (calls ++ [c])) {d : Recording} (hd : d ∈ calls) (hdc : sameName d.baseName c.baseName) :
    fold (stored c.baseName) = fold c.baseName := by
  apply fold_stored_of_short
  by_contra hlong
  have hone := hleg.once c (by simp) (Nat.not_lt.1 hlong)
  have hpos : 0 < countOf calls c.baseName := List.countP_pos_iff.2 ⟨d, hd, by simpa using hdc⟩
  rw [countOf_append, if_pos (show sameName c.baseName c.baseName from rfl)] at hone
  omega

/-- A name that finds no slot is new. -/
theorem Told.new (h : Told calls files) (hleg : Legible (calls ++ [c])) (hnone : ∀ y ∈ files, ¬ sameName y.name c.baseName) :
    ∀ d ∈ calls, ¬ sameName d.baseName c.baseName := by
  intro d hd hdc
  obtain ⟨x, hx, -⟩ := h.slots d hd
  obtain ⟨hmem, hxd⟩ := mem_slotsOf.1 (hx ▸ List.mem_singleton_self x : x ∈ slotsOf files d.baseName)
  exact hnone x hmem (hxd.trans ((stored_congr hdc).trans (Told.short hleg hd hdc)))

/-- Another call of a name already entered. -/
theorem Told.again {pre post : List FileSlot} {x : FileSlot} (h : Told calls (pre ++ x :: post))
    (hleg : Legible (calls ++ [c])) (hxc : sameName x.name c.baseName) : Told (calls ++ [c])
      (pre ++ x.bump c.bytes :: post) := by
  obtain ⟨hstore, d, hd, hdc⟩ := h.found hleg (by simp) hxc
  have hkeep : ∀ y ∈ pre ++ x.bump c.bytes :: post,
      ∃ z ∈ pre ++ x :: post, y.name = z.name := by
    intro y hy
    rw [List.mem_append, List.mem_cons] at hy
    rcases hy with hy | rfl | hy
    · exact ⟨y, by simp [hy], rfl⟩
    · exact ⟨x, by simp, rfl⟩
    · exact ⟨y, by simp [hy], rfl⟩
  constructor
  · intro y hy
    obtain ⟨z, hz, ezy⟩ := hkeep y hy
    obtain ⟨e, he, en⟩ := h.names z hz
    exact ⟨e, List.mem_append_left _ he, ezy.trans en⟩
  · intro e he
    by_cases hec : sameName e.baseName c.baseName
    -- the slot of this name: it held the calls so far, and now this one
    · obtain ⟨y, hy, hcount, hbytes⟩ := h.slots d hd
      have hstored := stored_congr (hdc.trans hec.symm)
      have hdx : sameName x.name (stored d.baseName) := hstore.trans (stored_congr hdc).symm
      obtain ⟨rfl, hslot⟩ := slotsOf_raise c.bytes hy hdx
      rw [slotsOf_congr hstored] at hslot
      refine ⟨_, hslot, ?_, ?_⟩
      · rw [countOf_append, if_pos (show sameName c.baseName e.baseName from hec.symm), countOf_congr (hec.trans hdc.symm)]
        show (x.viewCount + 1) % 2 ^ 64 = _
        rw [hcount, Nat.mod_add_mod]
      · rw [bytesOf_append, if_pos (show sameName c.baseName e.baseName from hec.symm), bytesOf_congr (hec.trans hdc.symm)]
        show (x.totalBytes + c.bytes) % 2 ^ 64 = _
        rw [hbytes, Nat.mod_add_mod]
    · have hcalls : e ∈ calls := by
        rcases List.mem_append.1 he with he | he
        · exact he
        · exact absurd (List.mem_singleton.1 he ▸ rfl) hec
      obtain ⟨y, hy, hcount, hbytes⟩ := h.slots e hcalls
      have hne : ¬ sameName x.name (stored e.baseName) := fun hxe =>
        hec (hleg.distinct e he c (by simp) (hxe.symm.trans hstore))
      refine ⟨y, (slotsOf_other c.bytes hne).trans hy, ?_, ?_⟩
      · rw [countOf_append, if_neg fun h => hec h.symm]
        exact hcount
      · rw [bytesOf_append, if_neg fun h => hec h.symm]
        exact hbytes

/-- The first call of a name. -/
theorem Told.enter (h : Told calls files) (hleg : Legible (calls ++ [c]))
    (hnew : ∀ d ∈ calls, ¬ sameName d.baseName c.baseName) :
    Told (calls ++ [c]) (files ++ [⟨stored c.baseName, 1, c.bytes % 2 ^ 64⟩]) := by
  refine ⟨List.forall_mem_append.2 ⟨fun y hy => ?_, List.forall_mem_singleton.2 ⟨c, by simp, rfl⟩⟩, fun e he => ?_⟩
  · obtain ⟨d, hd, e⟩ := h.names y hy
    exact ⟨d, List.mem_append_left _ hd, e⟩
  · rw [List.mem_append, List.mem_singleton] at he
    rcases he with he | rfl
    · obtain ⟨y, hy, hcount, hbytes⟩ := h.slots e he
      have hne : ¬ sameName (stored c.baseName) (stored e.baseName) := fun hce =>
        hnew e he (hleg.distinct e (List.mem_append_left _ he) c (by simp) hce.symm)
      have hce : ¬ sameName c.baseName e.baseName := fun h => hnew e he h.symm
      refine ⟨y, ?_, ?_, ?_⟩
      · rw [slotsOf, List.filter_append, ← slotsOf, hy]
        simp [hne]
      · rw [countOf_append, if_neg hce]
        exact hcount
      · rw [bytesOf_append, if_neg hce]
        exact hbytes
    -- no slot has this name's copy yet: its call would be one of the same name
    · have hnone : slotsOf files e.baseName = [] := by
        rw [slotsOf, List.filter_eq_nil_iff]
        intro y hy hye
        obtain ⟨d, hd, e'⟩ := h.names y hy
        rw [decide_eq_true_eq, e'] at hye
        exact hnew d hd (hleg.distinct d (List.mem_append_left _ hd) e (by simp) hye)
      have hzero : ∀ d ∈ calls, ¬ decide (sameName d.baseName e.baseName) = true := fun d hd => by
        simpa using hnew d hd
      refine ⟨⟨stored e.baseName, 1, e.bytes % 2 ^ 64⟩, ?_, ?_, ?_⟩
      · rw [slotsOf, List.filter_append, ← slotsOf, hnone]
        simp [sameName]
      · rw [countOf_append, if_pos (show sameName e.baseName e.baseName from rfl), countOf, List.countP_eq_zero.2 hzero]
        rfl
      · rw [bytesOf_append, if_pos (show sameName e.baseName e.baseName from rfl), bytesOf, List.filter_eq_nil_iff.2 hzero]
        simp

theorem Told.step (h : Told calls files) (hc : c.baseName ≠ []) (hcap : (MapViewTypeTracker.names (calls ++ [c])).card ≤ kMaxFiles)
    (hleg : Legible (calls ++ [c])) : Told (calls ++ [c]) (record files c) := by
  rcases record_cases files hc with ⟨pre, x, post, rfl, -, hx, e⟩ | ⟨hnone, -, e⟩ | ⟨hnone, hlen, e⟩
  · rw [e]
    exact h.again hleg hx
  · rw [e]
    exact h.enter hleg (h.new hleg hnone)
  · -- every slot has a name of its own among the names before this one, and this one is new
    have hnew := h.new hleg hnone
    have hle := (length_le_copies h.names h.slots).trans Finset.card_image_le
    have hlt : (MapViewTypeTracker.names calls).card < (MapViewTypeTracker.names (calls ++ [c])).card := by
      refine Finset.card_lt_card ((Finset.ssubset_iff_of_subset fun k hk => ?_).2 ⟨fold c.baseName, mem_names (by simp), ?_⟩)
      · obtain ⟨d, hd, rfl⟩ := List.mem_map.1 (List.mem_toFinset.1 hk)
        exact mem_names (List.mem_append_left _ hd)
      · intro hk
        obtain ⟨d, hd, hdc⟩ := List.mem_map.1 (List.mem_toFinset.1 hk)
        exact hnew d hd hdc
    omega

theorem Legible.left {more : List Recording} (h : Legible (calls ++ more)) : Legible calls where
  distinct a ha b hb := h.distinct a (List.mem_append_left _ ha) b (List.mem_append_left _ hb)
  once a ha hlong := by
    have hone := h.once a (List.mem_append_left _ ha) hlong
    have hpos := countOf_pos ha
    unfold countOf at *
    rw [List.countP_append] at hone
    omega

theorem names_left (calls more : List Recording) :
    (MapViewTypeTracker.names calls).card ≤ (MapViewTypeTracker.names (calls ++ more)).card := by
  refine Finset.card_le_card fun k hk => ?_
  obtain ⟨d, hd, rfl⟩ := List.mem_map.1 (List.mem_toFinset.1 hk)
  exact mem_names (List.mem_append_left _ hd)

theorem told_after : ∀ (rest : List Recording) {calls : List Recording} {files : List FileSlot}, Told calls files →
    (∀ c ∈ rest, c.baseName ≠ []) → (MapViewTypeTracker.names (calls ++ rest)).card ≤ kMaxFiles →
    Legible (calls ++ rest) → Told (calls ++ rest) (rest.foldl record files)
  | [], calls, files, h, _, _, _ => by simpa using h
  | c :: rest, calls, files, h, hne, hcap, hleg => by
    obtain ⟨hc, hrest⟩ := List.forall_mem_cons.1 hne
    rw [List.append_cons] at hcap hleg ⊢
    exact told_after rest (h.step hc ((names_left _ _).trans hcap) hleg.left) hrest hcap hleg

/-- After calls with at most 64 names, each name has one slot with its calls and bytes if the names' copies differ as the
names do and no name that a copy cuts comes twice; and only then, as long as the calls can be counted. -/
theorem filesAfter_oneSlot (calls : List Recording) (hne : ∀ c ∈ calls, c.baseName ≠ [])
    (hcap : (MapViewTypeTracker.names calls).card ≤ kMaxFiles) :
    (Legible calls → ∀ c ∈ calls, OneSlot (filesAfter calls) calls c.baseName) ∧
    (calls.length < 2 ^ 64 → (∀ c ∈ calls, OneSlot (filesAfter calls) calls c.baseName) → Legible calls) := by
  constructor
  · intro hleg
    have hnil : Told [] [] := ⟨by simp, by simp⟩
    exact (told_after calls hnil hne hcap hleg).slots
  · intro hshort h
    have hl : Logged calls (filesAfter calls) := logged_after calls Logged.nil hne hshort
    exact ⟨fun a ha b hb hab => distinct_of_oneSlot hl hcap h ha hb hab,
      fun a ha hlong => once_of_oneSlot hl hshort hcap h ha hlong⟩

/-- A name of 80 bytes, twice. -/
def overlong : Recording := ⟨List.replicate 80 97, 4096⟩

/-- The second call does not find the slot of the first. -/
theorem not_oneSlot_overlong : (names [overlong, overlong]).card = 1 ∧
    ¬ ∀ c ∈ [overlong, overlong], OneSlot (filesAfter [overlong, overlong]) [overlong, overlong] c.baseName := by
  constructor
  · decide +kernel
  · intro h
    obtain ⟨x, hx, -⟩ := h overlong (by simp)
    have hlen : (slotsOf (filesAfter [overlong, overlong]) overlong.baseName).length = 2 := by decide +kernel
    rw [hx] at hlen
    cases hlen

theorem filesAfter_oneSlot_twice :
    let calls : List Recording := [⟨[97, 98], 10⟩, ⟨[65, 66], 20⟩]
    (Legible calls → ∀ c ∈ calls, OneSlot (filesAfter calls) calls c.baseName) ∧
    (calls.length < 2 ^ 64 → (∀ c ∈ calls, OneSlot (filesAfter calls) calls c.baseName) → Legible calls) :=
  filesAfter_oneSlot [⟨[97, 98], 10⟩, ⟨[65, 66], 20⟩] (by simp) (by decide +kernel)

end

end Ts3Vas.MapViewTypeTracker
