/-
The table of large local reserves, from which the world-exit report is written. `Hooked_VirtualAlloc`
enters a reserve when it has it; `Hooked_VirtualFree` strikes the record out before it tries the release,
and does not enter it again when the release fails. The write-watch reserves among them are slots of the
script arena.
-/
import Ts3Vas.Hook.Tiers
import Ts3Vas.Corral.Runs

namespace Ts3Vas

open Prog

variable {σ : Type}

/-! ## The table -/

/-- `DiagnosticAllocRecord`; when and by whom the reserve was made is left out. -/
structure DiagnosticAllocRecord where
  address : ℕ
  size : ℕ
  deriving DecidableEq, Repr

def kDiagMax : ℕ := 8192

/-- `RegisterDiagnosticAlloc` on the first `s_diagCount` records, after `Install`. -/
def registerDiagnosticAlloc (records : List DiagnosticAllocRecord) (address size : ℕ) : List DiagnosticAllocRecord :=
  if address = 0 ∨ size = 0 then records
  else if records.length < kDiagMax then records ++ [⟨address, size⟩]
  else records

/-- `RemoveDiagnosticAlloc`: the last record takes the place of the one struck out. -/
def removeDiagnosticAlloc (records : List DiagnosticAllocRecord) (address : ℕ) : List DiagnosticAllocRecord :=
  if address = 0 then records
  else match records.findIdx? fun r => r.address = address, records.getLast? with
  | some i, some last => (records.set i last).dropLast
  | _, _ => records

/-! ## The hooks with the table -/

/-- Where a pointer of `Hooked_VirtualAlloc` comes from; the guard passes some calls on. -/
inductive Place
  | passed | arena | corral | system
  deriving DecidableEq, Repr

/-- `usedRealPath`. -/
def Place.usedRealPath : Place → Bool
  | .corral | .system => true
  | .passed | .arena => false

/-- `Hooked_VirtualAlloc`, with the place where it has found its pointer. -/
def placeVirtualAlloc (env : Env σ) (addr size type protect : ℕ) : Hook σ (Place × ℕ) := do
  let w ← get
  if w.closed || !w.tool.resolved .virtualAlloc then
    if w.tool.resolved .virtualAlloc then do
      let p ← callValue env (.virtualAlloc addr size type protect)
      return (.passed, p)
    else return (.passed, 0)
  else rtlHookScope do
    setInHook true
    ensureProxyActive size type protect
    let w ← get
    let slot ← attempt (redirects w.tool addr size type protect) (redirectSlot env size protect)
    let q ← orElse slot (attempt (writeWatchCandidate addr type && w.tool.memManager) (corralReserve env size type protect))
    let p ← orElse q (callValue env (.virtualAlloc addr size type protect))
    setInHook false
    return (if slot ≠ 0 then .arena else if q ≠ 0 then .corral else .system, p)

/-- The place is all that is added. -/
theorem map_placeVirtualAlloc (env : Env σ) (addr size type protect : ℕ) :
    Prod.snd <$> placeVirtualAlloc env addr size type protect = hookedVirtualAlloc env addr size type protect := by
  unfold hookedVirtualAlloc placeVirtualAlloc
  simp only [map_bind, apply_ite (Functor.map Prod.snd), map_rtlHookScope, map_pure, bind_pure]

/-- The functions below the hooks with the script arena, and the slots of it that are out, beside their own
state. `outcome` is what the system answers within a call of CorralReserve. -/
def Env.corralled (env : Env σ) (outcome : (size type protect : ℕ) → σ → Outcome × σ) : Env (σ × Corralled) where
  real c w :=
    let (r, v) := exec (env.real c) ⟨w.os.1, w.tool, w.thread, w.trace⟩
    (r, ⟨(v.os, w.os.2), v.tool, v.thread, v.trace⟩)
  handleLive h s := env.handleLive h s.1
  stray := env.stray
  memcpy dst src n s := (env.memcpy dst src n s.1, s.2)
  isCorralAddress p s := s.2.corral.isCorralAddress p
  corralReserve size type protect s :=
    let (o, t) := outcome size type protect s.1
    ((s.2.corral.corralReserve o size type).1, (t, s.2.step (.reserve size type o)))
  corralFree p s := (env.corralFree p s.1, s.2.step (.free p))

/-- A process between two calls, with the reserves that are outstanding. -/
structure Watched (σ : Type) where
  world : World (σ × Corralled)
  /-- The first `s_diagCount` entries of `s_diagRecords`. -/
  records : List DiagnosticAllocRecord
  /-- The results of the large MEM_RESERVE requests on the local path that no release has given back. -/
  outstanding : Finset ℕ

inductive VirtualCall
  | alloc (addr size type protect : ℕ)
  | free (addr size type : ℕ)
  deriving DecidableEq, Repr

/-- A reserve that is entered in the table. -/
def qualifies (r : Place × ℕ) (size type : ℕ) : Bool :=
  r.1.usedRealPath && decide (r.2 ≠ 0) && hasFlag type MEM_RESERVE && decide (1024 * 1024 ≤ size)

namespace Watched

abbrev corral (s : Watched σ) : Corralled := s.world.os.2

def step (env : Env (σ × Corralled)) (s : Watched σ) : VirtualCall → Watched σ
  | .alloc addr size type protect =>
    let (r, w) := exec (placeVirtualAlloc env addr size type protect) s.world
    if qualifies r size type then ⟨w, registerDiagnosticAlloc s.records r.2 size, insert r.2 s.outstanding⟩
    else { s with world := w }
  | .free addr size type =>
    -- the record goes first, whatever becomes of the release
    let records := if hasFlag type MEM_RELEASE ∧ addr ≠ 0 then removeDiagnosticAlloc s.records addr else s.records
    let (ok, w) := exec (hookedVirtualFree env addr size type) s.world
    ⟨w, records, if hasFlag type MEM_RELEASE ∧ addr ≠ 0 ∧ ok ≠ 0 then s.outstanding.erase addr else s.outstanding⟩

def start (w : World (σ × Corralled)) : Watched σ := ⟨w, [], ∅⟩

/-- The system reserves no page twice: a large reserve of its own is none of the outstanding ones and lies in no
segment of the script arena, and a new segment holds none of the outstanding ones. -/
def Promised (env : Env σ) (outcome : (size type protect : ℕ) → σ → Outcome × σ) (s : Watched σ) : VirtualCall → Prop
  | .alloc addr size type protect =>
    let x := exec (placeVirtualAlloc (env.corralled outcome) addr size type protect) s.world
    let o := (outcome size type protect s.world.os.1).1
    (x.1.1 = .system → qualifies x.1 size type → x.1.2 ∉ s.outstanding ∧ ∀ z ∈ Corral.zones x.2.os.2.corral.segs, x.1.2 ∉ z) ∧
    (writeWatchCandidate addr type → s.corral.Promised (.reserve size type o) ∧
      (o.reserve ≠ 0 → ∀ a ∈ s.outstanding, a ∉ (⟨o.reserve, s.corral.corral.growSize size⟩ : Span)))
  | .free .. => True

/-- Fewer than 8192 reserves are outstanding where one is entered. -/
def Few (env : Env (σ × Corralled)) (s : Watched σ) : VirtualCall → Prop
  | .alloc addr size type protect =>
    qualifies (exec (placeVirtualAlloc env addr size type protect) s.world).1 size type → s.outstanding.card < kDiagMax
  | .free .. => True

/-- A write-watch reserve does not wrap when it is rounded to the granules of the script arena. -/
def Unwrapped (s : Watched σ) : VirtualCall → Prop
  | .alloc addr size type _ => writeWatchCandidate addr type → NoWrap s.corral.corral.gran size
  | .free .. => True

/-- No release of an outstanding reserve fails. -/
def Releases (env : Env (σ × Corralled)) (s : Watched σ) : VirtualCall → Prop
  | .alloc .. => True
  | .free addr size type =>
    hasFlag type MEM_RELEASE → addr ≠ 0 → addr ∈ s.outstanding → (exec (hookedVirtualFree env addr size type) s.world).1 ≠ 0

instance (env : Env σ) (outcome : (size type protect : ℕ) → σ → Outcome × σ) (s : Watched σ) :
    (c : VirtualCall) → Decidable (s.Promised env outcome c)
  | .alloc .. => inferInstanceAs (Decidable ((_ → _ → _ ∧ ∀ z ∈ _, _) ∧ (_ → _ ∧ (_ → ∀ a ∈ _, _))))
  | .free .. => inferInstanceAs (Decidable True)

instance (env : Env (σ × Corralled)) (s : Watched σ) : (c : VirtualCall) → Decidable (s.Few env c)
  | .alloc .. => inferInstanceAs (Decidable (_ → _))
  | .free .. => inferInstanceAs (Decidable True)

instance (s : Watched σ) : (c : VirtualCall) → Decidable (s.Unwrapped c)
  | .alloc .. => inferInstanceAs (Decidable (_ → _))
  | .free .. => inferInstanceAs (Decidable True)

instance (env : Env (σ × Corralled)) (s : Watched σ) : (c : VirtualCall) → Decidable (s.Releases env c)
  | .alloc .. => inferInstanceAs (Decidable True)
  | .free .. => inferInstanceAs (Decidable (_ → _ → _ → _))

/-- The table is exactly the outstanding reserves. -/
structure Exact (s : Watched σ) : Prop where
  distinct : (s.records.map (·.address)).Nodup
  exact : ∀ a, a ∈ s.records.map (·.address) ↔ a ∈ s.outstanding

end Watched

/-! ## Striking out -/

section
variable {records : List DiagnosticAllocRecord} {a : ℕ}

/-- The last record in the place of the one found. -/
theorem remove_found {pre post : List DiagnosticAllocRecord} {x : DiagnosticAllocRecord} (h0 : a ≠ 0)
    (hpre : ∀ y ∈ pre, y.address ≠ a) (hx : x.address = a) :
    (removeDiagnosticAlloc (pre ++ x :: post) a).Perm (pre ++ post) := by
  have hidx : (pre ++ x :: post).findIdx? (fun r => decide (r.address = a)) = some pre.length := by
    have hnone : pre.findIdx? (fun r => decide (r.address = a)) = none :=
      List.findIdx?_eq_none_iff.2 fun y hy => decide_eq_false (hpre y hy)
    rw [List.findIdx?_append, hnone, List.findIdx?_cons, decide_eq_true hx]
    simp
  unfold removeDiagnosticAlloc
  rw [if_neg h0, hidx]
  rcases List.eq_nil_or_concat' post with rfl | ⟨post, last, rfl⟩
  · rw [List.getLast?_concat]
    simp
  · have hlast : (pre ++ x :: (post ++ [last])).getLast? = some last := by
      rw [← List.cons_append, ← List.append_assoc, List.getLast?_concat]
    have hset : ((pre ++ x :: (post ++ [last])).set pre.length last).dropLast = pre ++ last :: post := by
      rw [List.set_append_right _ _ le_rfl, Nat.sub_self, List.set_cons_zero, ← List.cons_append, ← List.append_assoc,
        List.dropLast_concat]
    rw [hlast]
    dsimp only
    rw [hset]
    exact List.Perm.append_left pre (List.perm_append_singleton last post).symm

/-- The records that stay are those at other addresses. -/
theorem remove_perm (h0 : a ≠ 0) (records : List DiagnosticAllocRecord) :
    ((removeDiagnosticAlloc records a).map (·.address)).Perm ((records.map (·.address)).erase a) := by
  by_cases h : ∃ x ∈ records, x.address = a
  · obtain ⟨x, hx, hxa⟩ := h
    -- the search stops at the first record of the address
    obtain ⟨pre, y, post, rfl, hpre, hy⟩ : ∃ pre y post, records = pre ++ y :: post ∧
        (∀ z ∈ pre, z.address ≠ a) ∧ y.address = a := by
      induction records with
      | nil => cases hx
      | cons z records ih =>
        by_cases hz : z.address = a
        · exact ⟨[], z, records, rfl, by simp, hz⟩
        · rcases List.mem_cons.1 hx with rfl | hx
          · exact absurd hxa hz
          · obtain ⟨pre, y, post, rfl, hpre, hy⟩ := ih hx
            exact ⟨z :: pre, y, post, rfl, List.forall_mem_cons.2 ⟨hz, hpre⟩, hy⟩
    have hnot : a ∉ pre.map (·.address) := by
      rintro hm
      obtain ⟨z, hz, e⟩ := List.mem_map.1 hm
      exact hpre z hz e
    rw [List.map_append, List.map_cons, hy, List.erase_append_right _ hnot, List.erase_cons_head, ← List.map_append]
    exact (remove_found h0 hpre hy).map _
  · have hnot : a ∉ records.map (·.address) := by
      rintro hm
      obtain ⟨z, hz, e⟩ := List.mem_map.1 hm
      exact h ⟨z, hz, e⟩
    have hidx : records.findIdx? (fun r => decide (r.address = a)) = none :=
      List.findIdx?_eq_none_iff.2 fun y hy => decide_eq_false fun e => h ⟨y, hy, e⟩
    rw [List.erase_of_not_mem hnot, removeDiagnosticAlloc, if_neg h0, hidx]

end

/-! ## The script arena below the hooks -/

namespace Watched

section
variable {env : Env σ} {outcome : (size type protect : ℕ) → σ → Outcome × σ} {α : Type} {m : Hook (σ × Corralled) α}
  {t : σ × Corralled}

/-- A scope touches neither the system nor the script arena. -/
theorem os_rtlHookScope {P : σ × Corralled → Prop} {Q : α → σ × Corralled → Prop}
    (hm : Triple (fun w => P w.os) m fun a w => Q a w.os) : Triple (fun w => P w.os) (rtlHookScope m) fun a w => Q a w.os :=
  fun _ hw => hm _ hw

theorem os_setInHook (b : Bool) (P : σ × Corralled → Prop) : Triple (fun w => P w.os) (setInHook b) fun _ w => P w.os := by
  intro w hw
  obtain ⟨th, -, e⟩ := exec_setInHook b w
  rw [e]
  exact hw

theorem os_ensureProxyActive (size type protect : ℕ) (P : σ × Corralled → Prop) :
    Triple (fun w => P w.os) (ensureProxyActive size type protect) fun _ w => P w.os := by
  have hpure : ∀ w₀ : World (σ × Corralled), P w₀.os → Triple (fun w => w = w₀) (pure ()) fun _ w => P w.os :=
    fun w₀ h => .pure fun _ e => e ▸ h
  refine .get fun w hw => .ite (fun _ => hpure w hw) fun _ => .ite (fun _ => hpure w hw) fun _ =>
    .ite (fun _ => hpure w hw) fun _ => .ite (fun _ => hpure w hw) fun _ => .ite (fun _ => hpure w hw) fun _ =>
    .ite (fun _ => hpure w hw) fun _ => ?_
  rintro v rfl
  exact hw

/-- What a call below leaves of the script arena. -/
theorem corral_callValue (c : RealCall) (P : Corralled → Prop) :
    Triple (fun w => P w.os.2) (callValue (env.corralled outcome) c) fun _ w => P w.os.2 := fun _ hw => hw

theorem corral_forward (c : RealCall) (absent : ℕ) (P : Corralled → Prop) :
    Triple (fun w => P w.os.2) (forward (env.corralled outcome) c absent) fun _ w => P w.os.2 := by
  intro w hw
  rcases exec_forward_cases (env.corralled outcome) c absent w with ⟨-, e⟩ | ⟨-, th, th', -, e⟩
  · rw [e]
    exact hw
  · rw [e]
    exact hw

theorem corral_redirectSlot (size protect : ℕ) (P : Corralled → Prop) :
    Triple (fun w => P w.os.2) (redirectSlot (env.corralled outcome) size protect) fun _ w => P w.os.2 := by
  refine Triple.bind (Q := fun _ w => P w.os.2) (fun _ hw => hw) fun slot => .ite (fun _ => .pure fun _ hw => hw) fun _ => ?_
  refine Triple.bind (corral_forward _ _ P) fun c => .ite (fun _ => ?_) fun _ => ?_
  · exact Triple.bind (Q := fun _ w => P w.os.2) (fun _ hw => hw) fun _ => .pure fun _ hw => hw
  · exact Triple.bind (Q := fun _ w => P w.os.2) (fun _ hw => hw) fun _ => .pure fun _ hw => hw

/-- No redirect takes a write-watch reserve. -/
theorem redirects_writeWatch {u : Tool} {addr size type protect : ℕ} (h : writeWatchCandidate addr type = true) :
    redirects u addr size type protect = false := by
  simp only [writeWatchCandidate, Bool.and_eq_true] at h
  have hwatch : hasFlag type (MEM_WRITE_WATCH ||| MEM_PHYSICAL ||| MEM_LARGE_PAGES) = true := by
    have hbit := of_decide_eq_true h.1.1
    refine decide_eq_true fun h0 => hbit ?_
    rw [Nat.or_assoc, Nat.and_or_distrib_left] at h0
    exact (Nat.or_eq_zero_iff.1 h0).1
  simp [redirects, hwatch]

/-- The script arena after it has been asked, or left alone, with the slot that it has given. -/
def Asked (o : Outcome) (c : Corralled) (addr size type slot q : ℕ) (c' : Corralled) : Prop :=
  (c' = c ∧ (slot = 0 → q = 0)) ∨
    (slot = 0 ∧ writeWatchCandidate addr type = true ∧ c' = c.step (.reserve size type o) ∧
      q = (c.corral.corralReserve o size type).1)

/-- What `Hooked_VirtualAlloc` does to the script arena: nothing, or one CorralReserve, and a pointer of that place
is the one that it has returned. -/
def Placed (o : Outcome) (c : Corralled) (addr size type : ℕ) (r : Place × ℕ) (c' : Corralled) : Prop :=
  (c' = c ∧ r.1 ≠ .corral) ∨
    (writeWatchCandidate addr type = true ∧ c' = c.step (.reserve size type o) ∧
      (r.1 = .corral → r.2 ≠ 0 ∧ r.2 = (c.corral.corralReserve o size type).1))

theorem Asked.placed {o : Outcome} {c c' : Corralled} {addr size type slot q p : ℕ} (h : Asked o c addr size type slot q c')
    (hp : q ≠ 0 → p = q) :
    Placed o c addr size type (if slot ≠ 0 then .arena else if q ≠ 0 then .corral else .system, p) c' := by
  rcases h with ⟨e, h0⟩ | ⟨hslot, hcand, e, hq⟩
  · refine .inl ⟨e, ?_⟩
    by_cases hslot : slot = 0
    · simp [hslot, h0 hslot]
    · simp [hslot]
  · refine .inr ⟨hcand, e, fun hplace => ?_⟩
    have hne : q ≠ 0 := by
      intro h0
      simp [hslot, h0] at hplace
    exact ⟨by rw [hp hne]; exact hne, (hp hne).trans hq⟩

theorem placed (addr size type protect : ℕ) : Triple (fun w => w.os = t)
    (placeVirtualAlloc (env.corralled outcome) addr size type protect) fun r w =>
      Placed (outcome size type protect t.1).1 t.2 addr size type r w.os.2 := by
  refine .get fun w hw => .ite (fun _ => .ite (fun _ => ?_) fun _ => .pure fun _ e => .inl ⟨e ▸ congrArg Prod.snd hw, ?_⟩) fun _ => ?_
  · refine Triple.bind (Q := fun _ w => w.os.2 = t.2) ?_ fun p => .pure fun _ e => .inl ⟨e, by simp⟩
    exact (corral_callValue _ (· = t.2)).mono (fun _ e => e ▸ congrArg Prod.snd hw) fun _ _ h => h
  · simp
  refine (os_rtlHookScope (P := (· = t)) (Q := fun r s => Placed _ t.2 addr size type r s.2) ?_).here hw
  refine Triple.bind (os_setInHook true (· = t)) fun _ => Triple.bind (os_ensureProxyActive size type protect (· = t)) fun _ => ?_
  refine .get fun w hw => Triple.bind (Q := fun slot w => w.os.2 = t.2 ∧ (writeWatchCandidate addr type = true → slot = 0 ∧ w.os = t))
    (.ite (fun hr => ?_) fun _ => .pure fun _ e => e ▸ ⟨congrArg Prod.snd hw, fun _ => ⟨rfl, hw⟩⟩) fun slot => ?_
  · -- a redirected request is no write-watch reserve
    refine (corral_redirectSlot size protect (· = t.2)).mono (fun _ e => e ▸ congrArg Prod.snd hw) fun slot v hv => ?_
    exact ⟨hv, fun hwatch => absurd hr (by rw [redirects_writeWatch hwatch]; exact Bool.false_ne_true)⟩
  refine Triple.bind (Q := fun q w => Asked (outcome size type protect t.1).1 t.2 addr size type slot q w.os.2) ?_ fun q => ?_
  · refine .ite (fun h0 => .ite (fun hwatch v hv => ?_) fun _ => .pure fun _ hv => .inl ⟨hv.1, fun _ => rfl⟩) fun h0 =>
      .pure fun _ hv => .inl ⟨hv.1, fun h => absurd h h0⟩
    have hcand : writeWatchCandidate addr type = true := (Bool.and_eq_true_iff.1 hwatch).1
    have hos : v.os = t := (hv.2 hcand).2
    refine .inr ⟨h0, hcand, ?_, ?_⟩
    · show v.os.2.step (.reserve size type (outcome size type protect v.os.1).1) = _
      rw [hos]
    · show (v.os.2.corral.corralReserve (outcome size type protect v.os.1).1 size type).1 = _
      rw [hos]
  refine Triple.bind (Q := fun p w => Asked (outcome size type protect t.1).1 t.2 addr size type slot q w.os.2 ∧ (q ≠ 0 → p = q))
    (.ite (fun h0 _ hv => ⟨hv, fun h => absurd h0 h⟩) fun _ => .pure fun _ hv => ⟨hv, fun _ => rfl⟩) fun p => ?_
  refine Triple.bind (os_setInHook false fun s => Asked (outcome size type protect t.1).1 t.2 addr size type slot q s.2 ∧
    (q ≠ 0 → p = q)) fun _ => .pure fun w hw => hw.1.placed hw.2

/-- What `Hooked_VirtualFree` does to it: nothing, or one CorralFree, and then it reports success. -/
theorem freed (addr size type : ℕ) : Triple (fun w => w.os.2 = t.2) (hookedVirtualFree (env.corralled outcome) addr size type)
    fun ok w => w.os.2 = t.2 ∨ (w.os.2 = t.2.step (.free addr) ∧ hasFlag type MEM_RELEASE = true ∧ addr ≠ 0 ∧ ok ≠ 0) := by
  refine .get fun w hw => .ite (fun hc => ?_) fun _ => ?_
  · rintro v rfl
    exact .inr ⟨congrArg (fun c => Corralled.step c (.free addr)) hw, hc.1, hc.2.1, Nat.one_ne_zero⟩
  have htake : Triple (fun v => v = w) (vatUntrack addr type) fun _ v => v.os.2 = t.2 := by
    refine .ite (fun _ => ?_) fun _ => .pure fun _ e => e ▸ hw
    rintro v rfl
    exact hw
  refine Triple.bind htake fun found => ?_
  cases found with
  | none => exact (corral_forward _ 0 (· = t.2)).mono (fun _ h => h) fun _ _ h => .inl h
  | some r =>
    refine Triple.bind (Q := fun _ v => v.os.2 = t.2) ?_ fun _ => .pure fun _ h => .inl h
    refine Triple.bind (corral_forward _ 0 (· = t.2)) fun _ => .get fun v hv => .ite (fun _ => ?_) fun _ => .pure fun _ e => e ▸ hv
    rintro u rfl
    exact hv

end

end Watched

/-! ## The table -/

namespace Watched

/-- A reserve that is entered is at no outstanding address, and fewer than 8192 are outstanding. -/
def Fresh (env : Env (σ × Corralled)) (s : Watched σ) : VirtualCall → Prop
  | .alloc addr size type protect =>
    let r := (exec (placeVirtualAlloc env addr size type protect) s.world).1
    qualifies r size type → r.2 ∉ s.outstanding ∧ s.outstanding.card < kDiagMax
  | .free .. => True

section
variable {env : Env (σ × Corralled)} {s : Watched σ}

/-- As many records as outstanding reserves. -/
theorem Exact.length (h : s.Exact) : s.records.length = s.outstanding.card := by
  have hset : (s.records.map (·.address)).toFinset = s.outstanding := by
    ext a
    rw [List.mem_toFinset]
    exact h.exact a
  rw [← hset, List.toFinset_card_of_nodup h.distinct, List.length_map]

theorem Exact.alloc (h : s.Exact) {addr size type protect : ℕ} (hop : s.Fresh env (.alloc addr size type protect)) :
    (s.step env (.alloc addr size type protect)).Exact := by
  unfold step
  unfold Fresh at hop
  dsimp only at hop ⊢
  generalize exec (placeVirtualAlloc env addr size type protect) s.world = r at hop ⊢
  obtain ⟨⟨used, p⟩, w⟩ := r
  dsimp only at hop ⊢
  by_cases hq : qualifies (used, p) size type = true
  · rw [if_pos hq]
    obtain ⟨hnew, hroom⟩ := hop hq
    simp only [qualifies, Bool.and_eq_true, decide_eq_true_eq] at hq
    have hentered : registerDiagnosticAlloc s.records p size = s.records ++ [⟨p, size⟩] := by
      unfold registerDiagnosticAlloc
      rw [if_neg (by omega), if_pos (by rw [h.length]; exact hroom)]
    constructor
    · show ((registerDiagnosticAlloc s.records p size).map (·.address)).Nodup
      rw [hentered, List.map_append, List.map_singleton]
      refine List.nodup_append.2 ⟨h.distinct, List.nodup_singleton _, fun a ha b hb e => ?_⟩
      have hap : a = p := e.trans (List.mem_singleton.1 hb)
      exact hnew ((h.exact p).1 (hap ▸ ha))
    · intro a
      show a ∈ (registerDiagnosticAlloc s.records p size).map (·.address) ↔ a ∈ insert p s.outstanding
      rw [hentered, List.map_append, List.mem_append, h.exact a, Finset.mem_insert, List.map_singleton,
        List.mem_singleton]
      exact or_comm
  · rw [if_neg hq]
    exact ⟨h.distinct, h.exact⟩

/-- A release keeps the table exact just if it does not fail on an outstanding reserve. -/
theorem Exact.free_iff (h : s.Exact) (addr size type : ℕ) :
    (s.step env (.free addr size type)).Exact ↔ s.Releases env (.free addr size type) := by
  unfold step Releases
  dsimp only
  generalize exec (hookedVirtualFree env addr size type) s.world = r
  obtain ⟨ok, w⟩ := r
  dsimp only
  by_cases hrel : hasFlag type MEM_RELEASE = true ∧ addr ≠ 0
  · rw [if_pos hrel]
    have hperm := remove_perm hrel.2 s.records
    have hdistinct := hperm.nodup_iff.2 (h.distinct.erase addr)
    have hmem : ∀ a, a ∈ (removeDiagnosticAlloc s.records addr).map (·.address) ↔ a ≠ addr ∧ a ∈ s.outstanding := by
      intro a
      rw [hperm.mem_iff, h.distinct.mem_erase_iff, h.exact a]
    by_cases hok : ok = 0
    · rw [if_neg (by simp [hok])]
      constructor
      · intro hexact _ _ hin
        exact absurd rfl ((hmem addr).1 ((hexact.exact addr).2 hin)).1
      · intro hnone
        refine ⟨hdistinct, fun a => (hmem a).trans ⟨fun ha => ha.2, fun ha => ⟨?_, ha⟩⟩⟩
        rintro rfl
        exact hnone hrel.1 hrel.2 ha hok
    · rw [if_pos ⟨hrel.1, hrel.2, hok⟩]
      refine iff_of_true ⟨hdistinct, fun a => ?_⟩ fun _ _ _ => hok
      rw [hmem a]
      exact Finset.mem_erase.symm
  · rw [if_neg hrel, if_neg fun hr => hrel ⟨hr.1, hr.2.1⟩]
    exact iff_of_true ⟨h.distinct, h.exact⟩ fun h1 h2 => absurd ⟨h1, h2⟩ hrel

theorem Exact.step_iff (h : s.Exact) {c : VirtualCall} (hop : s.Fresh env c) :
    (s.step env c).Exact ↔ s.Releases env c := by
  cases c with
  | alloc addr size type protect => exact iff_of_true (h.alloc hop) trivial
  | free addr size type => exact h.free_iff addr size type

theorem start_exact (w : World (σ × Corralled)) : (start w).Exact := ⟨List.nodup_nil, by simp [start]⟩

end

/-! ## Where the outstanding reserves lie -/

/-- A slot of the script arena that is out, or no address of it. -/
def Lodges (c : Corralled) (a : ℕ) : Prop := (∃ slot ∈ c.out, slot.addr = a) ∨ ∀ z ∈ Corral.zones c.corral.segs, a ∉ z

structure Lodged (s : Watched σ) : Prop where
  kept : s.corral.Kept
  lodges : ∀ a ∈ s.outstanding, Lodges s.corral a

section
variable {env : Env σ} {outcome : (size type protect : ℕ) → σ → Outcome × σ} {s : Watched σ} {c : Corralled} {a : ℕ}

/-- A request that grows the script arena has got a reservation. -/
theorem reserve_zone (h : c.Kept) {o : Outcome} {size : ℕ} (type : ℕ) (hop : c.WellFormed (.reserve size type o)) {z : Span}
    (hz : z ∈ Corral.zones (c.step (.reserve size type o)).corral.segs) :
    z ∈ Corral.zones c.corral.segs ∨ (o.reserve ≠ 0 ∧ z = ⟨o.reserve, c.corral.growSize size⟩) := by
  have hzones := (h.reserve type hop).zones
  rcases hzones with e | ⟨hgrow, e⟩
  · exact .inl (e ▸ hz)
  · have hmem : z ∈ Corral.zones c.corral.segs ++ [⟨o.reserve, c.corral.growSize size⟩] := e ▸ hz
    rcases List.mem_append.1 hmem with hz | hz
    · exact .inl hz
    · refine .inr ⟨fun h0 => ?_, List.mem_singleton.1 hz⟩
      -- without a reservation nothing is added
      revert hgrow
      unfold Corral.grows Corral.addCorralSegment
      simp only [h0, if_true, Bool.and_eq_true]
      rintro ⟨-, hadd⟩
      split_ifs at hadd

theorem Lodges.reserve (h : c.Kept) {o : Outcome} {size : ℕ} (type : ℕ) (hop : c.WellFormed (.reserve size type o))
    (ha : Lodges c a) (hnew : o.reserve ≠ 0 → a ∉ (⟨o.reserve, c.corral.growSize size⟩ : Span)) :
    Lodges (c.step (.reserve size type o)) a := by
  rcases ha with ⟨slot, hs, e⟩ | hout
  · refine .inl ⟨slot, ?_, e⟩
    show slot ∈ if (c.corral.corralReserve o size type).1 = 0 then c.out else c.out ++ [_]
    split
    · exact hs
    · exact List.mem_append_left _ hs
  · refine .inr fun z hz => ?_
    rcases reserve_zone h type hop hz with hz | ⟨h0, rfl⟩
    · exact hout z hz
    · exact hnew h0

/-- The slot of a request is none of the lodged addresses. -/
theorem Lodges.ne_slot (h : c.Kept) {o : Outcome} {size : ℕ} (type : ℕ) (hop : c.WellFormed (.reserve size type o))
    (hp : (c.corral.corralReserve o size type).1 ≠ 0) (ha : Lodges c a)
    (hnew : o.reserve ≠ 0 → a ∉ (⟨o.reserve, c.corral.growSize size⟩ : Span)) : a ≠ (c.corral.corralReserve o size type).1 := by
  rintro rfl
  rcases ha with ⟨slot, hs, e⟩ | hout
  · exact h.reserve_new type hop hp slot hs e
  · have hs : (⟨(c.corral.corralReserve o size type).1, size⟩ : Slot) ∈ (c.step (.reserve size type o)).out := by
      show _ ∈ if (c.corral.corralReserve o size type).1 = 0 then c.out else c.out ++ [_]
      rw [if_neg hp]
      exact List.mem_append_right _ (List.mem_singleton_self _)
    obtain ⟨z, hz, hin⟩ := (h.step_reserve type hop).mem_zone hs
    rcases reserve_zone h type hop hz with hz | ⟨h0, rfl⟩
    · exact hout z hz hin
    · exact hnew h0 hin

theorem Lodges.free (h : c.Kept) {addr : ℕ} (ha : Lodges c a) (hne : a ≠ addr) : Lodges (c.step (.free addr)) a := by
  rcases ha with ⟨slot, hs, rfl⟩ | hout
  · refine .inl ⟨slot, ?_, rfl⟩
    show slot ∈ if (c.corral.corralFree addr).1 then c.out.filter (·.addr ≠ addr) else c.out
    split
    · exact List.mem_filter.2 ⟨hs, decide_eq_true hne⟩
    · exact hs
  · refine .inr fun z hz => hout z ?_
    rwa [h.zones_free] at hz

/-- What an allocation leaves behind: the outstanding reserves are lodged as before, and one that is entered is new. -/
theorem Lodged.placed (h : s.Lodged) {addr size type protect : ℕ} (hp : s.Promised env outcome (.alloc addr size type protect))
    (hw : s.Unwrapped (.alloc addr size type protect)) {r : Place × ℕ} {w : World (σ × Corralled)}
    (e : exec (placeVirtualAlloc (env.corralled outcome) addr size type protect) s.world = (r, w)) :
    w.os.2.Kept ∧ (∀ a ∈ s.outstanding, Lodges w.os.2 a) ∧
      (qualifies r size type = true → Lodges w.os.2 r.2 ∧ r.2 ∉ s.outstanding) := by
  have hplaced : Placed (outcome size type protect s.world.os.1).1 s.world.os.2 addr size type
      (exec (placeVirtualAlloc (env.corralled outcome) addr size type protect) s.world).1
      (exec (placeVirtualAlloc (env.corralled outcome) addr size type protect) s.world).2.os.2 :=
    Watched.placed addr size type protect s.world rfl
  obtain ⟨hsystem, hgrant⟩ := hp
  rw [e] at hplaced hsystem
  dsimp only at hplaced hsystem
  have hplace : qualifies r size type = true → r.1 ≠ .corral → r.1 = .system := by
    intro hq hne
    simp only [qualifies, Bool.and_eq_true] at hq
    cases hr : r.1 <;> simp_all [Place.usedRealPath]
  rcases hplaced with ⟨hos, hne⟩ | ⟨hcand, hos, hcorral⟩
  · rw [hos] at hsystem ⊢
    refine ⟨h.kept, h.lodges, fun hq => ?_⟩
    obtain ⟨hnew, hout⟩ := hsystem (hplace hq hne) hq
    exact ⟨.inr hout, hnew⟩
  · obtain ⟨hpromise, hclear⟩ := hgrant hcand
    have hop : s.corral.WellFormed (.reserve size type (outcome size type protect s.world.os.1).1) := ⟨hw hcand, hpromise⟩
    rw [hos] at hsystem ⊢
    refine ⟨h.kept.step_reserve type hop, fun a ha => (h.lodges a ha).reserve h.kept type hop fun h0 => hclear h0 a ha, fun hq => ?_⟩
    by_cases hr : r.1 = .corral
    · obtain ⟨h0, hslot⟩ := hcorral hr
      have h0' : (s.corral.corral.corralReserve (outcome size type protect s.world.os.1).1 size type).1 ≠ 0 := hslot ▸ h0
      constructor
      · refine .inl ⟨⟨_, size⟩, ?_, hslot.symm⟩
        show _ ∈ if (s.corral.corral.corralReserve _ size type).1 = 0 then s.corral.out else s.corral.out ++ [_]
        rw [if_neg h0']
        exact List.mem_append_right _ (List.mem_singleton_self _)
      · intro hin
        exact (h.lodges _ hin).ne_slot h.kept type hop h0' (fun hres => hclear hres _ hin) hslot
    · obtain ⟨hnew, hout⟩ := hsystem (hplace hq hr) hq
      exact ⟨.inr hout, hnew⟩

theorem Lodged.step (h : s.Lodged) {c : VirtualCall} (hp : s.Promised env outcome c) (hw : s.Unwrapped c) :
    (s.step (env.corralled outcome) c).Lodged := by
  cases c with
  | alloc addr size type protect =>
    unfold Watched.step
    dsimp only
    rcases e : exec (placeVirtualAlloc (env.corralled outcome) addr size type protect) s.world with ⟨r, w⟩
    obtain ⟨hk, hold, hnew⟩ := h.placed hp hw e
    dsimp only
    split
    · exact ⟨hk, fun a ha => (Finset.mem_insert.1 ha).elim (fun e => e ▸ (hnew ‹_›).1) (hold a)⟩
    · exact ⟨hk, hold⟩
  | free addr size type =>
    have hfreed := @freed _ env outcome s.world.os addr size type s.world rfl
    unfold Watched.step
    dsimp only
    rcases e : exec (hookedVirtualFree (env.corralled outcome) addr size type) s.world with ⟨ok, w⟩
    rw [e] at hfreed
    dsimp only at hfreed ⊢
    rcases hfreed with hos | ⟨hos, hrel, haddr, hok⟩
    · refine ⟨?_, fun a ha => ?_⟩
      · show w.os.2.Kept
        rw [hos]
        exact h.kept
      · show Lodges w.os.2 a
        rw [hos]
        dsimp only at ha
        split at ha
        · exact h.lodges a (Finset.mem_of_mem_erase ha)
        · exact h.lodges a ha
    · refine ⟨?_, fun a ha => ?_⟩
      · show w.os.2.Kept
        rw [hos]
        exact h.kept.step_free addr
      · show Lodges w.os.2 a
        dsimp only at ha
        rw [if_pos ⟨hrel, haddr, hok⟩] at ha
        rw [hos]
        have hne := Finset.mem_erase.1 ha
        exact (h.lodges a hne.2).free h.kept hne.1

/-- Where the outstanding reserves are lodged, every reserve that is entered is new. -/
theorem Lodged.fresh (h : s.Lodged) {c : VirtualCall} (hp : s.Promised env outcome c) (hf : s.Few (env.corralled outcome) c)
    (hw : s.Unwrapped c) : s.Fresh (env.corralled outcome) c := by
  cases c with
  | alloc addr size type protect =>
    intro hq
    exact ⟨((h.placed hp hw rfl).2.2 hq).2, hf hq⟩
  | free => trivial

end

/-! ## Runs -/

/-- In every run of the two hooks in which no write-watch reserve wraps, the table is exactly the outstanding
reserves in every state just if no release of an outstanding reserve fails. -/
theorem exact_iff_releases (env : Env σ) (outcome : (size type protect : ℕ) → σ → Outcome × σ) (granKb topDownKb : Option ℤ)
    (o : Outcome) (startMb growMb maxMb : Option ℕ) (ho : Corralled.StartGranted o startMb) (w : World (σ × Corralled))
    (hw : w.os.2 = Corralled.start granKb topDownKb o startMb growMb maxMb) {calls : List VirtualCall}
    (hcalls : Run.Guarded (step (env.corralled outcome))
      (fun s c => s.Promised env outcome c ∧ s.Few (env.corralled outcome) c ∧ s.Unwrapped c) (start w) calls) :
    Run.Guarded (step (env.corralled outcome)) (fun s c => (s.step (env.corralled outcome) c).Exact) (start w) calls ↔
      Run.Guarded (step (env.corralled outcome)) (Releases (env.corralled outcome)) (start w) calls := by
  have hlodged : (start w).Lodged := by
    refine ⟨?_, fun a ha => absurd ha (Finset.notMem_empty a)⟩
    show w.os.2.Kept
    rw [hw]
    exact Corralled.start_kept granKb topDownKb growMb maxMb ho
  have hfresh : Run.Guarded (step (env.corralled outcome)) (Fresh (env.corralled outcome)) (start w) calls :=
    hcalls.mono (I := Lodged) (fun s c h hc => h.step hc.1 hc.2.2) (fun s c h hc => h.fresh hc.1 hc.2.1 hc.2.2) hlodged
  exact Run.Guarded.always_iff (fun _ _ h hop => h.step_iff hop) (start_exact w) hfresh

/-- Over 64 KB at 0x10000000, with a script arena of 126 MB at 0x40000000 that does not grow. -/
def overCorral (replies : List ℕ) : World (List ℕ × Corralled) :=
  .install Sys.arena64K (replies, Corralled.start none none ⟨0x40000000, true, true, true⟩ none none none)

/-- The system has no other segment. -/
def soleSegment (_ _ _ : ℕ) (s : List ℕ) : Outcome × List ℕ := (⟨0, true, true, true⟩, s)

/-- Two reserves at addresses of the caller's choice and one of the script arena; two are released and made again. -/
def reused : List VirtualCall := [.alloc 0x20000000 0x100000 MEM_RESERVE 1, .alloc 0x30000000 0x200000 MEM_RESERVE 1,
  .alloc 0 0x100000 (MEM_RESERVE ||| MEM_WRITE_WATCH) 1, .free 0x20000000 0 MEM_RELEASE,
  .alloc 0x20000000 0x100000 MEM_RESERVE 1, .free 0x40000000 0 MEM_RELEASE,
  .alloc 0 0x200000 (MEM_RESERVE ||| MEM_WRITE_WATCH) 1]

theorem exact_iff_releases_reused :
    Run.Guarded (step (Env.scripted.corralled soleSegment)) (fun s c => (s.step (Env.scripted.corralled soleSegment) c).Exact)
        (start (overCorral [0x20000000, 0x30000000, 1, 0x20000000])) reused ↔
      Run.Guarded (step (Env.scripted.corralled soleSegment)) (Releases (Env.scripted.corralled soleSegment))
        (start (overCorral [0x20000000, 0x30000000, 1, 0x20000000])) reused :=
  exact_iff_releases .scripted soleSegment none none ⟨0x40000000, true, true, true⟩ none none none
    (by unfold Corralled.StartGranted; decide) _ rfl (by decide +kernel)

/-- A reserve, and a release that the system refuses because it names a size. -/
def refused : List VirtualCall := [.alloc 0x20000000 0x100000 MEM_RESERVE 1, .free 0x20000000 0x100000 MEM_RELEASE]

/-- A write-watch reserve of 4 GB less a byte takes no room of the script arena; the next one is at its address. -/
def wrapped : List VirtualCall := [.alloc 0 0xFFFFFFFF (MEM_RESERVE ||| MEM_WRITE_WATCH) 1,
  .alloc 0 0x100000 (MEM_RESERVE ||| MEM_WRITE_WATCH) 1]

/-- The reserve that was not released is outstanding and no longer in the table; and two records are of one address. -/
theorem not_exact_refused :
    (Run.Guarded (step (Env.scripted.corralled soleSegment))
        (fun s c => s.Promised .scripted soleSegment c ∧ s.Few (Env.scripted.corralled soleSegment) c ∧ s.Unwrapped c)
        (start (overCorral [0x20000000, 0])) refused ∧
      ¬ (Run.after (step (Env.scripted.corralled soleSegment)) (start (overCorral [0x20000000, 0])) refused).Exact) ∧
    Run.Guarded (step (Env.scripted.corralled soleSegment))
        (fun s c => s.Promised .scripted soleSegment c ∧ s.Few (Env.scripted.corralled soleSegment) c ∧
          s.Releases (Env.scripted.corralled soleSegment) c) (start (overCorral [])) wrapped ∧
      ¬ (Run.after (step (Env.scripted.corralled soleSegment)) (start (overCorral [])) wrapped).Exact := by
  refine ⟨⟨by decide +kernel, fun h => ?_⟩, by decide +kernel, fun h => ?_⟩
  · have hin : 0x20000000 ∈ (Run.after (step (Env.scripted.corralled soleSegment))
        (start (overCorral [0x20000000, 0])) refused).outstanding := by decide +kernel
    have hlen : (Run.after (step (Env.scripted.corralled soleSegment))
        (start (overCorral [0x20000000, 0])) refused).records = [] := by decide +kernel
    have hrec := (h.exact 0x20000000).2 hin
    rw [hlen] at hrec
    cases hrec
  · have hrecords : (Run.after (step (Env.scripted.corralled soleSegment)) (start (overCorral [])) wrapped).records =
        [⟨0x40000000, 0xFFFFFFFF⟩, ⟨0x40000000, 0x100000⟩] := by decide +kernel
    have hdistinct := h.distinct
    rw [hrecords] at hdistinct
    exact absurd hdistinct (by decide)

end Watched

end Ts3Vas
