/-
The tables of LogObserveTables: one walk over the address space adds up what is committed, in the proxy arena
and outside of it, and keeps the eight largest regions of two kinds. And the five largest call sites of
ReportLocalVasSources, whose table is filled the same way.
-/
import Ts3Vas.Lib.TopN
import Ts3Vas.Observe.Heartbeat
import Ts3Vas.Observe.LocalVas

namespace Ts3Vas.HeartbeatMonitor

/-! ## LogObserveTables -/

structure Reg where
  base : ℕ
  size : ℕ
  deriving DecidableEq, Repr

def kTopN : ℕ := 8

/-- The variables of the loop. -/
structure ObserveTables where
  /-- The largest private regions outside of the arena. -/
  top : List Reg
  /-- The largest regions with a file. -/
  named : List Reg
  proxyCommitted : ℕ
  localCommitted : ℕ
  localRegions : ℕ
  mappedCommitted : ℕ
  imageCommitted : ℕ
  band : Fin 4 → ℕ

/-- The index of `band` for a region of that many MB. -/
def bandOf (mb : ℕ) : Fin 4 := if mb < 1 then 0 else if mb < 16 then 1 else if mb < 64 then 2 else 3

def Region.reg (r : Region) : Reg := ⟨r.base, r.size⟩

/-- The region starts in the arena. -/
def Region.InArena (proxyBase proxyEnd : ℕ) (r : Region) : Prop := proxyBase < proxyEnd ∧ proxyBase ≤ r.base ∧ r.base < proxyEnd

instance (proxyBase proxyEnd : ℕ) (r : Region) : Decidable (r.InArena proxyBase proxyEnd) := inferInstanceAs (Decidable (_ ∧ _))

namespace ObserveTables

def empty : ObserveTables := ⟨.replicate kTopN ⟨0, 0⟩, .replicate kTopN ⟨0, 0⟩, 0, 0, 0, 0, 0, fun _ => 0⟩

/-- The body of the loop. -/
def look (proxyBase proxyEnd : ℕ) (t : ObserveTables) (r : Region) : ObserveTables :=
  match r.state, r.type with
  | .free, _ => t
  | .reserve, _ => t
  | .commit, .priv =>
    if r.InArena proxyBase proxyEnd then { t with proxyCommitted := add32 t.proxyCommitted r.size }
    else
      { t with
        localCommitted := add32 t.localCommitted r.size
        localRegions := add32 t.localRegions 1
        band := Function.update t.band (bandOf (r.size / MB)) (add32 (t.band (bandOf (r.size / MB))) 1)
        top := TopN.insert (·.size) r.reg t.top }
  | .commit, .image =>
    { t with imageCommitted := add32 t.imageCommitted r.size, named := TopN.insert (·.size) r.reg t.named }
  | .commit, .mapped =>
    { t with mappedCommitted := add32 t.mappedCommitted r.size, named := TopN.insert (·.size) r.reg t.named }

end ObserveTables

/-- The loop, for an arena between the two addresses; both are 0 where there is no memory manager. -/
def logObserveTables (space : AddressSpace) (proxyBase proxyEnd : ℕ) : ObserveTables :=
  (walk 0 space.regions).foldl (ObserveTables.look proxyBase proxyEnd) .empty

/-- The regions that get a line each. -/
def rows (t : List Reg) : List Reg := t.takeWhile fun x => decide (0 < x.size)

/-! ## What they hold -/

/-- Private committed regions in the arena, and outside of it. -/
def inProxy (proxyBase proxyEnd : ℕ) (r : Region) : Bool :=
  decide (r.state = .commit) && decide (r.type = .priv) && decide (r.InArena proxyBase proxyEnd)

def isLocal (proxyBase proxyEnd : ℕ) (r : Region) : Bool :=
  decide (r.state = .commit) && decide (r.type = .priv) && !decide (r.InArena proxyBase proxyEnd)

def ofType (type : MemType) (r : Region) : Bool := decide (r.state = .commit) && decide (r.type = type)

def fileBacked (r : Region) : Bool := decide (r.state = .commit) && !decide (r.type = .priv)

def bytesOf (p : Region → Bool) (rs : List Region) : ℕ := ((rs.filter p).map (·.size)).sum

section
variable {proxyBase proxyEnd : ℕ}

theorem bytesOf_append (p : Region → Bool) (rs rs' : List Region) : bytesOf p (rs ++ rs') = bytesOf p rs + bytesOf p rs' := by
  rw [bytesOf, List.filter_append, List.map_append, List.sum_append, bytesOf, bytesOf]

theorem bytesOf_singleton (p : Region → Bool) (r : Region) : bytesOf p [r] = if p r then r.size else 0 := by
  by_cases hp : p r <;> simp [bytesOf, hp]

/-- The tables after the regions, before the sums are known not to wrap. -/
def tablesOf (proxyBase proxyEnd : ℕ) (rs : List Region) : ObserveTables where
  top := ((rs.filter (isLocal proxyBase proxyEnd)).map Region.reg).foldl (fun t x => TopN.insert (·.size) x t) (.replicate kTopN ⟨0, 0⟩)
  named := ((rs.filter fileBacked).map Region.reg).foldl (fun t x => TopN.insert (·.size) x t) (.replicate kTopN ⟨0, 0⟩)
  proxyCommitted := bytesOf (inProxy proxyBase proxyEnd) rs % 2 ^ 32
  localCommitted := bytesOf (isLocal proxyBase proxyEnd) rs % 2 ^ 32
  localRegions := (rs.filter (isLocal proxyBase proxyEnd)).length % 2 ^ 32
  mappedCommitted := bytesOf (ofType .mapped) rs % 2 ^ 32
  imageCommitted := bytesOf (ofType .image) rs % 2 ^ 32
  band k := (rs.filter fun r => isLocal proxyBase proxyEnd r && decide (bandOf (r.size / MB) = k)).length % 2 ^ 32

theorem look_tablesOf (rs : List Region) (r : Region) :
    (tablesOf proxyBase proxyEnd rs).look proxyBase proxyEnd r = tablesOf proxyBase proxyEnd (rs ++ [r]) := by
  unfold ObserveTables.look
  cases hstate : r.state with
  | free => simp [tablesOf, bytesOf_append, bytesOf_singleton, hstate, isLocal, inProxy, ofType, fileBacked]
  | reserve => simp [tablesOf, bytesOf_append, bytesOf_singleton, hstate, isLocal, inProxy, ofType, fileBacked]
  | commit =>
    cases htype : r.type with
    | priv =>
      dsimp only
      split
      · rename_i hin
        simp [tablesOf, bytesOf_append, bytesOf_singleton, hstate, htype, hin, isLocal, inProxy, ofType, fileBacked, add32]
      · rename_i hout
        have hlocal : isLocal proxyBase proxyEnd r = true := by simp [isLocal, hstate, htype, hout]
        have hband : Function.update (tablesOf proxyBase proxyEnd rs).band (bandOf (r.size / MB))
            (add32 ((tablesOf proxyBase proxyEnd rs).band (bandOf (r.size / MB))) 1) =
            (tablesOf proxyBase proxyEnd (rs ++ [r])).band := by
          funext k
          by_cases hk : bandOf (r.size / MB) = k
          · subst hk
            simp [tablesOf, add32, hlocal, List.filter_append]
          · rw [Function.update_of_ne (Ne.symm hk)]
            simp [tablesOf, hk, List.filter_append]
        rw [hband]
        simp [tablesOf, bytesOf_append, bytesOf_singleton, hstate, htype, hout, hlocal, inProxy, ofType, fileBacked, add32]
    | image =>
      simp [tablesOf, bytesOf_append, bytesOf_singleton, hstate, htype, isLocal, inProxy, ofType, fileBacked, add32]
    | mapped =>
      simp [tablesOf, bytesOf_append, bytesOf_singleton, hstate, htype, isLocal, inProxy, ofType, fileBacked, add32]

theorem foldl_look_tables (rs : List Region) :
    rs.foldl (ObserveTables.look proxyBase proxyEnd) .empty = tablesOf proxyBase proxyEnd rs := by
  induction rs using List.reverseRecOn with
  | nil => rfl
  | append_singleton rs r ih => rw [List.foldl_concat, ih, look_tablesOf]

/-! ## Nothing wraps -/

theorem Follows.bytes_lt : ∀ {rs : List Region} {addr : ℕ}, Follows addr rs →
    addr + (rs.map (·.size)).sum < 2 ^ 32 ∧ rs.length ≤ (rs.map (·.size)).sum
  | [], _, h => ⟨h, le_rfl⟩
  | r :: rs, addr, h => by
    obtain ⟨-, hsize, hrest⟩ := h
    obtain ⟨hlt, hlen⟩ := hrest.bytes_lt
    rw [List.map_cons, List.sum_cons, List.length_cons]
    omega

theorem bytesOf_lt {rs : List Region} (h : Follows 0 rs) (p : Region → Bool) : bytesOf p rs % 2 ^ 32 = bytesOf p rs := by
  refine Nat.mod_eq_of_lt (lt_of_le_of_lt ?_ (by simpa using h.bytes_lt.1))
  exact ((List.filter_sublist (p := p)).map _).sum_le_sum fun _ _ => Nat.zero_le _

theorem length_lt {rs : List Region} (h : Follows 0 rs) (p : Region → Bool) :
    (rs.filter p).length % 2 ^ 32 = (rs.filter p).length := by
  have hbytes := h.bytes_lt
  have := List.length_filter_le p rs
  exact Nat.mod_eq_of_lt (by omega)

theorem Follows.size_pos : ∀ {rs : List Region} {addr : ℕ}, Follows addr rs → ∀ r ∈ rs, 0 < r.size
  | r :: rs, _, h, x, hx => by
    rcases List.mem_cons.1 hx with rfl | hx
    · exact h.2.1
    · exact h.2.2.size_pos x hx

/-- The rows of either table: the largest, in order. -/
theorem rows_foldl {rs : List Region} (h : ∀ r ∈ rs, 0 < r.size) (p : Region → Bool) :
    rows (((rs.filter p).map Region.reg).foldl (fun t x => TopN.insert (·.size) x t) (.replicate kTopN ⟨0, 0⟩)) =
      (((rs.filter p).map Region.reg).mergeSort fun a b => decide (b.size ≤ a.size)).take kTopN := by
  refine TopN.takeWhile_foldl Reg.size ⟨0, 0⟩ kTopN fun x hx => ?_
  obtain ⟨r, hr, rfl⟩ := List.mem_map.1 hx
  exact h r (List.mem_filter.1 hr).1

theorem split_sum (p q : Region → Bool) (rs : List Region) (h : ∀ r ∈ rs, ¬(p r ∧ q r)) :
    bytesOf (fun r => p r || q r) rs = bytesOf p rs + bytesOf q rs := by
  induction rs with
  | nil => rfl
  | cons r rs ih =>
    have hr := h r List.mem_cons_self
    have ih := ih fun x hx => h x (List.mem_cons_of_mem _ hx)
    rw [← List.singleton_append]
    simp only [bytesOf_append, bytesOf_singleton, ih]
    rcases hp : p r <;> rcases hq : q r <;> simp_all <;> omega

theorem arena_local_or_fileBacked (r : Region) : decide (r.state = .commit) =
    ((inProxy proxyBase proxyEnd r || isLocal proxyBase proxyEnd r) || (ofType .mapped r || ofType .image r)) := by
  unfold inProxy isLocal ofType
  cases r.state <;> cases r.type <;> simp

/-- The parts of all that is committed. -/
theorem committed_split (rs : List Region) : bytesOf (fun r => decide (r.state = .commit)) rs =
    bytesOf (inProxy proxyBase proxyEnd) rs + bytesOf (isLocal proxyBase proxyEnd) rs +
      (bytesOf (ofType .mapped) rs + bytesOf (ofType .image) rs) := by
  have hparts := funext (@arena_local_or_fileBacked proxyBase proxyEnd)
  rw [hparts, split_sum, split_sum, split_sum]
  · rintro r - ⟨h, h'⟩
    simp [ofType] at h h'
    exact absurd (h.2.symm.trans h'.2) (by decide)
  · rintro r - ⟨h, h'⟩
    simp [inProxy, isLocal] at h h'
    exact h'.2 h.2
  · rintro r - ⟨h, h'⟩
    have hpriv : r.type = .priv := by
      rcases Bool.or_eq_true_iff.1 h with h | h
      · simp [inProxy] at h
        exact h.1.2
      · simp [isLocal] at h
        exact h.1.2
    rcases Bool.or_eq_true_iff.1 h' with h' | h' <;>
    · simp [ofType] at h'
      exact absurd (hpriv.symm.trans h'.2) (by decide)

theorem sum_bands {α : Type*} (f : α → Fin 4) (l : List α) : (l.filter fun x => decide (f x = 0)).length +
    (l.filter fun x => decide (f x = 1)).length + (l.filter fun x => decide (f x = 2)).length +
    (l.filter fun x => decide (f x = 3)).length = l.length := by
  induction l with
  | nil => rfl
  | cons x l ih =>
    have hx : f x = 0 ∨ f x = 1 ∨ f x = 2 ∨ f x = 3 := by
      generalize f x = k
      revert k
      decide
    rcases hx with hx | hx | hx | hx <;> simp [hx] <;> omega

end

/-- Whatever the address space and the arena, the sums are those of the regions they name and together all that is
committed, the bands count every local region once, and the rows are the eight largest regions of their kind, the
largest first and of equal ones the lowest first. -/
theorem observe_tables (space : AddressSpace) (proxyBase proxyEnd : ℕ) :
    let t := logObserveTables space proxyBase proxyEnd
    let locals := space.regions.filter (isLocal proxyBase proxyEnd)
    t.proxyCommitted = bytesOf (inProxy proxyBase proxyEnd) space.regions ∧
    t.localCommitted = bytesOf (isLocal proxyBase proxyEnd) space.regions ∧
    t.mappedCommitted = bytesOf (ofType .mapped) space.regions ∧ t.imageCommitted = bytesOf (ofType .image) space.regions ∧
    t.proxyCommitted + t.localCommitted + (t.mappedCommitted + t.imageCommitted) =
      bytesOf (fun r => decide (r.state = .commit)) space.regions ∧
    t.localRegions = locals.length ∧ (∀ k, t.band k = (locals.filter fun r => decide (bandOf (r.size / MB) = k)).length) ∧
    t.band 0 + t.band 1 + t.band 2 + t.band 3 = t.localRegions ∧
    rows t.top = ((locals.map Region.reg).mergeSort fun a b => decide (b.size ≤ a.size)).take kTopN ∧
    rows t.named =
      (((space.regions.filter fileBacked).map Region.reg).mergeSort fun a b => decide (b.size ≤ a.size)).take kTopN := by
  intro t locals
  have ht : t = tablesOf proxyBase proxyEnd space.regions := by
    change (walk 0 space.regions).foldl _ _ = _
    rw [walk_eq space.follows, foldl_look_tables]
  have hproxy : t.proxyCommitted = bytesOf (inProxy proxyBase proxyEnd) space.regions := by
    rw [ht]; exact bytesOf_lt space.follows _
  have hlocal : t.localCommitted = bytesOf (isLocal proxyBase proxyEnd) space.regions := by
    rw [ht]; exact bytesOf_lt space.follows _
  have hmapped : t.mappedCommitted = bytesOf (ofType .mapped) space.regions := by
    rw [ht]; exact bytesOf_lt space.follows _
  have himage : t.imageCommitted = bytesOf (ofType .image) space.regions := by
    rw [ht]; exact bytesOf_lt space.follows _
  have hregions : t.localRegions = locals.length := by
    rw [ht]; exact length_lt space.follows _
  have hband : ∀ k, t.band k = (locals.filter fun r => decide (bandOf (r.size / MB) = k)).length := by
    intro k
    have hcomm : (fun r => isLocal proxyBase proxyEnd r && decide (bandOf (r.size / MB) = k)) =
        fun r => decide (bandOf (r.size / MB) = k) && isLocal proxyBase proxyEnd r := funext fun r => Bool.and_comm ..
    rw [ht, List.filter_filter, ← hcomm]
    exact length_lt space.follows _
  refine ⟨hproxy, hlocal, hmapped, himage, ?_, hregions, hband, ?_, ?_, ?_⟩
  · rw [hproxy, hlocal, hmapped, himage, ← committed_split]
  · rw [hband, hband, hband, hband, hregions]
    exact sum_bands (fun r => bandOf (r.size / MB)) locals
  · rw [ht]; exact rows_foldl space.follows.size_pos _
  · rw [ht]; exact rows_foldl space.follows.size_pos _

end Ts3Vas.HeartbeatMonitor

namespace Ts3Vas.LocalVas

/-! ## ReportLocalVasSources -/

theorem insertTop_eq (e : TopEntry) : ∀ top, insertTop e top = TopN.insert TopEntry.bytes e top
  | [] => rfl
  | t :: top => by
    rw [insertTop, TopN.insert, insertTop_eq e top, List.dropLast_cons_of_ne_nil (List.cons_ne_nil t top)]

/-- The loop over the slots inserts the entries of the used ones. -/
theorem reportTop_foldl (slots : Callers) : reportTop slots =
    (entries slots).foldl (fun top e => TopN.insert TopEntry.bytes e top) (.replicate 5 ⟨0, 0, 0⟩) := by
  rw [reportTop_eq]
  simp only [insertTop_eq]

/-- The lines are for the five call sites with the most bytes, the largest first and of equal ones the lower slot first. -/
theorem listed_largest (slots : Callers) :
    listed slots = ((entries slots).mergeSort fun a b => decide (b.bytes ≤ a.bytes)).take 5 := by
  have hentry : ∀ e ∈ entries slots, e.addr ≠ 0 ∧ 0 < e.bytes := by
    intro e he
    obtain ⟨i, -, h0, hb, rfl⟩ := mem_entries.1 he
    exact ⟨h0, hb⟩
  rw [listed, reportTop_foldl, TopN.foldl_insert 5 fun e he => (hentry e he).2]
  apply TopN.filter_cells
  · rfl
  · intro e he
    exact decide_eq_true (hentry e (List.mem_mergeSort.1 he))

end Ts3Vas.LocalVas
