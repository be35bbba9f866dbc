/-
The redirected slots and their records in the tracker: what the five hooks of virtual memory do to
them, called on a thread outside any hook, and what the release of such a slot does.
-/
import Ts3Vas.Hook.Exec

namespace Ts3Vas

open Prog

variable {σ : Type}

/-! ## The slots and their records -/

def Slot.entry (s : Slot) : VatEntry := ⟨s.addr, s.size⟩

/-- The tool after the release of a redirected slot: the slot is free, its record gone. -/
def Tool.afterRelease (t : Tool) (slot : Slot) : Tool :=
  { t with sys := t.sys.step (.free slot), tables := (t.tables.take slot.addr .vat).2 }

/-- Since the tool was `t₀` the slots of `S` have been redirected and not released, and each has its
record. -/
structure Held (t₀ : Tool) (S : List Slot) (t : Tool) : Prop where
  memManager : t.memManager = true
  running : t.shuttingDown = false
  sound : t.sys.Sound
  arena : ProxyAllocator.SameArena t₀.sys.alloc t.sys.alloc
  live : t.sys.live.Perm (t₀.sys.live ++ S)
  vat : t.tables.vat.entries.Perm (S.map Slot.entry)
  positive : ∀ s ∈ S, 0 < alignUp s.size t₀.sys.alloc.allocGranularity
  nodup : (S.map Slot.addr).Nodup

section
variable {t₀ t : Tool} {S : List Slot} {slot : Slot}

/-- A tool that differs in other things. -/
theorem Held.of_eq {t' : Tool} (h : Held t₀ S t) (hm : t'.memManager = t.memManager) (hr : t'.shuttingDown = t.shuttingDown)
    (hs : t'.sys = t.sys) (ht : t'.tables.vat = t.tables.vat) : Held t₀ S t' :=
  ⟨hm.trans h.memManager, hr.trans h.running, hs ▸ h.sound, hs ▸ h.arena, hs ▸ h.live, ht ▸ h.vat, h.positive, h.nodup⟩

theorem Held.granularity (h : Held t₀ S t) : t.sys.alloc.allocGranularity = t₀.sys.alloc.allocGranularity := h.arena.2.2

theorem Held.mem_live (h : Held t₀ S t) (hs : slot ∈ S) : slot ∈ t.sys.live := h.live.mem_iff.2 (List.mem_append_right _ hs)

theorem Held.addrs_nodup (h : Held t₀ S t) : t.tables.vat.addrs.Nodup := by
  have hp : t.tables.vat.addrs.Perm (S.map Slot.addr) := by
    have := h.vat.map VatEntry.addr
    rwa [List.map_map] at this
  exact hp.nodup_iff.2 h.nodup

/-- The record of a redirected slot is the slot's own. -/
theorem Held.view (h : Held t₀ S t) (hs : slot ∈ S) : t.tables.view slot.addr .vat = some ⟨slot.addr, slot.size⟩ := by
  have hl : t.tables.vat.lookup slot.addr = some slot.size :=
    (Vat.lookup_eq_some h.addrs_nodup).2 (h.vat.mem_iff.2 (List.mem_map_of_mem hs))
  show (t.tables.vat.lookup slot.addr).map _ = _
  rw [hl]
  rfl

theorem Held.mem_of_view (h : Held t₀ S t) {addr : ℕ} {r : ProxyAllocRecord} (hr : t.tables.view addr .vat = some r) :
    r.proxyBase = addr ∧ (⟨addr, r.proxySize⟩ : Slot) ∈ S := by
  obtain ⟨size, hl, rfl⟩ := Option.map_eq_some_iff.1 hr
  have hm := h.vat.mem_iff.1 ((Vat.lookup_eq_some h.addrs_nodup).1 hl)
  obtain ⟨s, hs, e⟩ := List.mem_map.1 hm
  cases e
  exact ⟨rfl, hs⟩

/-- A redirected slot lies in the arena, where `Free` takes it. -/
theorem Held.isProxyAddress (h : Held t₀ S t) (hs : slot ∈ S) : isProxyAddress t slot.addr = true := by
  have hpos := h.positive slot hs
  rw [← h.granularity] at hpos
  exact h.sound.isProxyAddress (h.mem_live hs) hpos

/-! ## What grants and releases keep -/

variable {size : ℕ} {fromTop : Bool}

/-- An `Allocate` that grants nothing. -/
theorem Held.refused (h : Held t₀ S t) (hp : (t.sys.alloc.allocate size fromTop).1 = 0) :
    Held t₀ S { t with sys := t.sys.step (.allocate size fromTop) } := by
  obtain ⟨hs, ha⟩ := h.sound.allocate_same size fromTop
  refine ⟨h.memManager, h.running, hs, h.arena.trans ha, ?_, h.vat, h.positive, h.nodup⟩
  dsimp only
  rw [Sys.step_allocate, if_pos hp]
  exact h.live

/-- A slot that goes back at once. -/
theorem Held.returned (h : Held t₀ S t) (hp : (t.sys.alloc.allocate size fromTop).1 ≠ 0) :
    Held t₀ S { t with sys := (t.sys.step (.allocate size fromTop)).step (.free ⟨(t.sys.alloc.allocate size fromTop).1, size⟩) } := by
  obtain ⟨hs, ha, hperm⟩ := h.sound.returned hp
  exact ⟨h.memManager, h.running, hs, h.arena.trans ha, hperm.trans h.live, h.vat, h.positive, h.nodup⟩

/-- Two slots of some bytes at one address would share the first, so a new slot has an address of its own. -/
theorem Held.fresh (h : Held t₀ S t) (hp : (t.sys.alloc.allocate size fromTop).1 ≠ 0)
    (hpos : 0 < alignUp size t₀.sys.alloc.allocGranularity) : (t.sys.alloc.allocate size fromTop).1 ∉ S.map Slot.addr := by
  intro hm
  obtain ⟨s, hsS, e⟩ := List.mem_map.1 hm
  have hap := h.sound.granted_apart hp (h.mem_live hsS)
  rw [h.granularity] at hap
  have hspos := h.positive s hsS
  apply hap s.addr
  · simp only [Slot.span, Span.mem_mk]
    omega
  · simp only [Slot.span, Span.mem_mk]
    omega

/-- A slot that is granted, committed and tracked. -/
theorem Held.granted (h : Held t₀ S t) (hp : (t.sys.alloc.allocate size fromTop).1 ≠ 0) (hsize : 0 < size)
    (htop : (t.sys.alloc.allocate size fromTop).1 + size ≤ 2 ^ 32) (hroom : t.tables.vat.entries.length < kVatMax) :
    Held t₀ (S ++ [⟨(t.sys.alloc.allocate size fromTop).1, size⟩])
      { t with
        sys := t.sys.step (.allocate size fromTop)
        tables := t.tables.put (t.sys.alloc.allocate size fromTop).1 size .vat } := by
  obtain ⟨hs, ha⟩ := h.sound.allocate_same size fromTop
  have hpos := h.sound.granted_pos hp hsize htop
  rw [h.granularity] at hpos
  constructor
  · exact h.memManager
  · exact h.running
  · exact hs
  · exact h.arena.trans ha
  · rw [Sys.live_granted hp, ← List.append_assoc]
    exact h.live.append_right _
  · show (t.tables.vat.track _ size).entries.Perm _
    rw [Vat.track_of_lt hroom, List.map_append]
    exact h.vat.append_right _
  · intro s hs
    rcases List.mem_append.1 hs with hs | hs
    · exact h.positive s hs
    · exact List.mem_singleton.1 hs ▸ hpos
  · rw [List.map_append]
    refine List.nodup_append.2 ⟨h.nodup, List.nodup_singleton _, ?_⟩
    rintro a ha' b hb rfl
    rw [List.mem_singleton.1 hb] at ha'
    exact h.fresh hp hpos ha'

/-- A release of a redirected slot. -/
theorem Held.released (h : Held t₀ S t) (hs : slot ∈ S) : Held t₀ (S.erase slot) (t.afterRelease slot) := by
  have hop : t.sys.Owned (.free slot) := h.mem_live hs
  obtain ⟨hsound, ha⟩ := h.sound.step_same hop
  refine ⟨h.memManager, h.running, hsound, h.arena.trans ha, ?_, ?_, fun s hs => h.positive s (List.mem_of_mem_erase hs), ?_⟩
  · have hp := (h.live.trans ((List.perm_cons_erase hs).append_left _)).trans List.perm_middle
    exact ((List.perm_cons_erase (h.mem_live hs)).symm.trans hp).cons_inv
  · have hl : t.tables.vat.lookup slot.addr = some slot.size :=
      (Vat.lookup_eq_some h.addrs_nodup).2 (h.vat.mem_iff.2 (List.mem_map_of_mem hs))
    have hp := (Vat.perm_untrack hl).symm.trans (h.vat.trans ((List.perm_cons_erase hs).map _))
    exact hp.cons_inv
  · exact h.nodup.sublist ((List.erase_sublist).map _)

end

/-! ## The system below -/

def RealCall.isNt : RealCall → Bool
  | ntAllocateVirtualMemory .. | ntFreeVirtualMemory .. | ntAllocateVirtualMemoryEx .. => true
  | _ => false

/-- What is asked of the functions below the hooks: a call from inside a hook leaves the tool, the Nt
functions call no hook at all, no byte is committed past the end of the address space, and the script
arena is not the proxy's. -/
structure Direct (env : Env σ) (t₀ : Tool) : Prop where
  calm : Calm env
  quiet : ∀ c w, w.closed = true ∨ c.isNt = true → (exec (env.real c) w).2.tool = w.tool
  commit : ∀ p size protect w, (exec (env.real (.virtualAlloc p size MEM_COMMIT protect)) w).1.value ≠ 0 →
    0 < size ∧ p + size ≤ 2 ^ 32
  corral : ∀ p s, isProxyAddress t₀ p = true → env.isCorralAddress p s = false

section
variable {env : Env σ} {t₀ t : Tool} {S : List Slot} {size protect : ℕ}

theorem Hooking.closed {w : World σ} (h : Hooking w) : w.closed = true := by
  simp [World.closed, World.busy, show w.thread.hookActive = true from h]

/-- A call from inside a hook changes neither the tool nor the mark. -/
theorem Direct.call (h : Direct env t₀) (c : RealCall) : Triple (Exact t) (call env c) fun _ => Exact t := by
  intro w hw
  exact ⟨hooking_of_keeps (h.calm.call c) hw.1, (h.quiet c w (.inl (Hooking.closed hw.1))).trans hw.2⟩

theorem Direct.callValue (h : Direct env t₀) (c : RealCall) : Triple (Exact t) (callValue env c) fun _ => Exact t :=
  (h.call c).bind fun _ => .pure fun _ hw => hw

/-- A commit goes straight down. -/
theorem Direct.commitSlot (h : Direct env t₀) (p size protect : ℕ) :
    Triple (Exact t) (commitSlot env p size protect) fun c w => Exact t w ∧ (c ≠ 0 → 0 < size ∧ p + size ≤ 2 ^ 32) := by
  intro w hw
  unfold Ts3Vas.commitSlot
  rw [exec_forward hw.1]
  split
  · exact ⟨h.callValue _ w hw, h.commit p size protect w⟩
  · exact ⟨hw, fun hc => absurd rfl hc⟩

/-- Inside a hook, every redirected slot with its record. -/
def Holding (t₀ : Tool) (w : World σ) : Prop := Hooking w ∧ ∃ S, Held t₀ S w.tool

theorem holding_of_exact {α : Type} {m : Hook σ α} (hm : ∀ t, Triple (Exact t) m fun _ => Exact t) :
    Triple (Holding t₀) m fun _ => Holding t₀ := by
  rintro w ⟨hact, S, hS⟩
  obtain ⟨hact', htool⟩ := hm w.tool w ⟨hact, rfl⟩
  exact ⟨hact', S, htool.symm ▸ hS⟩

/-- The arena has a slot for a redirect. -/
def Tool.grants (t : Tool) (size : ℕ) : Bool := (t.sys.alloc.allocate size (t.sys.alloc.prefersTopDown size)).1 ≠ 0

/-- The redirect gives a slot with a record, or leaves the slots as they are. -/
theorem Direct.redirectSlot (h : Direct env t₀) (hS : Held t₀ S t)
    (hroom : t.grants size = true → t.tables.vat.entries.length < kVatMax) :
    Triple (Exact t) (redirectSlot env size protect) fun _ => Holding t₀ := by
  rintro w ⟨hact, rfl⟩
  refine ⟨hooking_of_keeps (h.calm.redirectSlot size protect) hact, ?_⟩
  unfold Ts3Vas.redirectSlot
  rw [exec_bind, exec_arenaAllocate]
  dsimp only
  rw [exec_ite]
  -- no slot, a slot that cannot be committed, or one that is tracked
  by_cases hp : (w.tool.sys.alloc.allocate size (w.tool.sys.alloc.prefersTopDown size)).1 = 0
  · rw [if_pos hp]
    exact ⟨S, hS.refused hp⟩
  rw [if_neg hp, exec_bind, exec_ite]
  obtain ⟨⟨-, htool⟩, hcommit⟩ := h.commitSlot (w.tool.sys.alloc.allocate size (w.tool.sys.alloc.prefersTopDown size)).1 size
    protect { w with tool := { w.tool with sys := w.tool.sys.step (.allocate size (w.tool.sys.alloc.prefersTopDown size)) } }
    ⟨hact, rfl⟩
  by_cases hc : (exec (Ts3Vas.commitSlot env (w.tool.sys.alloc.allocate size (w.tool.sys.alloc.prefersTopDown size)).1 size
      protect) { w with tool := { w.tool with
        sys := w.tool.sys.step (.allocate size (w.tool.sys.alloc.prefersTopDown size)) } }).1 = 0
  · rw [if_pos hc, exec_bind, exec_arenaFree]
    refine ⟨S, ?_⟩
    dsimp only [exec_pure]
    rw [htool]
    exact hS.returned hp
  · rw [if_neg hc]
    refine ⟨_, (hS.granted hp (hcommit hc).1 (hcommit hc).2 (hroom (decide_eq_true hp))).of_eq ?_ ?_ ?_ ?_⟩
    all_goals
      show _ = _
      simp [onTool, htool]

/-! ## The hooks -/

/-- The proxy is active, or `EnsureProxyActiveForVirtualPath` makes it so. -/
def Tool.activates (t : Tool) : Bool := t.proxyActive || (t.forceProxyActive && !t.passive)

/-- What `EnsureProxyActiveForVirtualPath` may change. -/
theorem exact_ensureProxyActive (type : ℕ) : Triple (Exact t) (ensureProxyActive size type protect : Hook σ Unit)
    fun _ w => ∃ b, (b = true → t.activates = true) ∧ Exact { t with proxyActive := b } w := by
  intro w hw
  have hsame : ∃ b, (b = true → t.activates = true) ∧ Exact { t with proxyActive := b } w :=
    ⟨t.proxyActive, fun hb => by rw [Tool.activates, hb, Bool.true_or], hw⟩
  unfold ensureProxyActive
  rw [exec_bind, exec_get]
  dsimp only
  rw [exec_ite]
  split
  · exact hsame
  rw [exec_ite]
  -- only a forced activation goes past this test
  by_cases hf : w.tool.forceProxyActive = true
  swap
  · rw [if_pos (by simp [hf])]
    exact hsame
  rw [if_neg (by simp [hf])]
  simp only [exec_ite]
  split_ifs <;> try exact hsame
  rw [activateProxy, onTool, exec_modify]
  split
  · exact hsame
  · rename_i hp
    refine ⟨true, fun _ => ?_, hw.1, by rw [hw.2]⟩
    rw [hw.2] at hf hp
    simp [Tool.activates, hf, hp]

theorem redirects_mono {b b' : Bool} (h : b = true → b' = true) {addr type : ℕ}
    (hr : redirects { t with proxyActive := b } addr size type protect = true) :
    redirects { t with proxyActive := b' } addr size type protect = true := by
  unfold redirects at hr ⊢
  rw [Bool.and_eq_true] at hr ⊢
  exact ⟨hr.1, h hr.2⟩

/-- The redirect behind its gate, with the proxy active or not. -/
theorem Direct.attempt_redirectSlot (h : Direct env t₀) (hS : Held t₀ S t) {b : Bool} {c : Prop} [Decidable c]
    (hroom : c → t.grants size = true → t.tables.vat.entries.length < kVatMax) :
    Triple (Exact { t with proxyActive := b }) (attempt c (Ts3Vas.redirectSlot env size protect)) fun _ => Holding t₀ := by
  have hS' : Held t₀ S { t with proxyActive := b } := hS.of_eq rfl rfl rfl rfl
  exact .ite (fun hg => h.redirectSlot hS' (hroom hg)) fun _ => .pure fun w hw => ⟨hw.1, S, hw.2.symm ▸ hS'⟩

theorem holding_corralReserve (env : Env σ) (type : ℕ) :
    Triple (Holding t₀) (corralReserve env size type protect) fun _ => Holding t₀ :=
  holding_of_exact fun _ => .get fun _ hw => fun _ e => e ▸ hw

theorem Direct.hookedVirtualAlloc (h : Direct env t₀) (hS : Held t₀ S t) (addr type : ℕ)
    (hroom : redirects { t with proxyActive := t.activates } addr size type protect = true → t.grants size = true →
      t.tables.vat.entries.length < kVatMax) :
    Triple (fun w => w.busy = false ∧ w.tool = t) (hookedVirtualAlloc env addr size type protect)
      fun _ w => ∃ S, Held t₀ S w.tool := by
  refine .get fun w hw => .ite (fun hc => .ite (fun hr => ?_) fun _ => ?_) fun _ => ?_
  · rw [World.closed, hw.1, hw.2, hS.running, ← hw.2, hr] at hc
    cases hc
  · exact .pure fun _ e => ⟨S, by rw [e, hw.2]; exact hS⟩
  refine Triple.here (tool_rtlHookScope (R := fun u => u = t) (Q := fun _ u => ∃ S, Held t₀ S u) ?_) hw.2
  refine Triple.bind (Q := fun _ => Exact t) (exact_setInHook true) fun _ => (exact_ensureProxyActive type).bind fun _ => ?_
  refine .get fun v hv => ?_
  obtain ⟨b, hb, hact, htool⟩ := hv
  rw [htool]
  -- from here on only the redirect changes slots or records
  refine Triple.bind (Q := fun _ => Holding t₀) ?_ fun p => ?_
  · exact (h.attempt_redirectSlot hS fun hg => hroom (redirects_mono hb hg)).mono (fun _ e => by rw [e]; exact ⟨hact, htool⟩) fun _ _ h => h
  refine Triple.bind (Q := fun _ => Holding t₀) ?_ fun q => Triple.bind (Q := fun _ => Holding t₀) ?_ fun r => ?_
  · exact .ite (fun _ => .ite (fun _ => holding_corralReserve env type) fun _ => .pure fun _ hv => hv) fun _ => .pure fun _ hv => hv
  · exact .ite (fun _ => holding_of_exact fun _ => h.callValue _) fun _ => .pure fun _ hv => hv
  · exact fun v hv => (hooking_setInHook (R := fun u => ∃ S, Held t₀ S u) false v hv).2

/-- A call of an Nt function. -/
theorem Direct.callNt (h : Direct env t₀) {c : RealCall} (hc : c.isNt = true) (base region : Option ℕ) :
    Triple (fun w => w.tool = t) (callNt env c base region) fun _ w => w.tool = t :=
  Triple.bind (Q := fun _ w => w.tool = t) (fun w hw => (h.quiet c w (.inr hc)).trans hw) fun _ => .pure fun _ hw => hw

theorem Direct.forward (h : Direct env t₀) (c : RealCall) (absent : ℕ) :
    Triple (fun w => w.tool = t) (forward env c absent) fun _ w => w.tool = t := by
  refine .get fun w hw => .ite (fun hc => .ite (fun hr => ?_) fun _ => .pure fun _ e => e ▸ hw) fun _ => ?_
  · rintro v rfl
    refine (h.quiet c v (.inl ?_)).trans hw
    rwa [hr, Bool.not_true, Bool.or_false] at hc
  · refine Triple.here (tool_rtlHookScope (R := fun u => u = t) (Q := fun _ u => u = t) ?_) hw
    refine Triple.bind (Q := fun _ => Exact t) (exact_setInHook true) fun _ => (h.callValue c).bind fun _ => ?_
    exact fun v hv => (exact_setInHook false v hv).2

theorem Direct.hookedNtAllocateVirtualMemory (h : Direct env t₀) (hS : Held t₀ S t) (process : ℕ) (base : Option ℕ)
    (zeroBits : ℕ) (region : Option ℕ) (type : ℕ)
    (hroom : ∀ addr size, base = some addr → region = some size → process = minusOne →
      redirects { t with proxyActive := t.activates } addr size type protect = true → t.grants size = true →
      t.tables.vat.entries.length < kVatMax) :
    Triple (fun w => w.tool = t) (hookedNtAllocateVirtualMemory env process base zeroBits region type protect)
      fun _ w => ∃ S, Held t₀ S w.tool := by
  have hreal : Triple (fun w => w.tool = t) (realNtAllocateVirtualMemory env process base zeroBits region type protect)
      fun _ w => ∃ S, Held t₀ S w.tool := (h.callNt rfl _ _).mono (fun _ hw => hw) fun _ _ hw => ⟨S, hw.symm ▸ hS⟩
  refine .get fun w hw => ?_
  cases base with
  | none => exact hreal.here hw
  | some addr =>
  cases region with
  | none => exact hreal.here hw
  | some size =>
    -- behind the guard the call goes straight down
    refine .ite (fun _ => hreal.here hw) fun _ => ?_
    refine Triple.here (tool_rtlHookScope (R := fun u => u = t) (Q := fun _ u => ∃ S, Held t₀ S u) ?_) hw
    refine Triple.bind (Q := fun _ => Exact t) (exact_setInHook true) fun _ => ?_
    refine Triple.bind (Q := fun _ v => ∃ b, (b = true → t.activates = true) ∧ Exact { t with proxyActive := b } v) ?_
      fun _ => .get fun v hv => ?_
    · refine .ite (fun _ => exact_ensureProxyActive type) fun _ => .pure fun _ hv => ⟨t.proxyActive, fun hb => ?_, hv⟩
      rw [Tool.activates, hb, Bool.true_or]
    obtain ⟨b, hb, hact, htool⟩ := hv
    rw [htool]
    refine Triple.bind (Q := fun _ => Holding t₀) ?_ fun p => .ite (fun _ => .pure fun _ hv => hv.2) fun _ => ?_
    · exact (h.attempt_redirectSlot hS fun hg => hroom addr size rfl rfl hg.1 (redirects_mono hb hg.2)).mono
        (fun _ e => by rw [e]; exact ⟨hact, htool⟩) fun _ _ h => h
    -- nothing was redirected: the real function has the last word
    · rintro u ⟨-, S', hS'⟩
      have hu : (exec (realNtAllocateVirtualMemory env process (some addr) zeroBits (some size) type protect) u).2.tool = u.tool :=
        h.callNt rfl _ _ u rfl
      exact ⟨S', hu.symm ▸ hS'⟩

theorem Direct.hookedNtAllocateVirtualMemoryEx (h : Direct env t₀) (hS : Held t₀ S t) (process : ℕ) (base region : Option ℕ)
    (type params count : ℕ)
    (hroom : ∀ addr size, base = some addr → region = some size → process = minusOne → params = 0 ∨ count = 0 →
      redirects t addr size type protect = true → t.grants size = true → t.tables.vat.entries.length < kVatMax) :
    Triple (fun w => w.tool = t) (hookedNtAllocateVirtualMemoryEx env process base region type protect params count)
      fun _ w => ∃ S, Held t₀ S w.tool := by
  have hreal : Triple (fun w => w.tool = t) (realNtAllocateVirtualMemoryEx env process base region type protect params count)
      fun _ w => ∃ S, Held t₀ S w.tool := (h.callNt rfl _ _).mono (fun _ hw => hw) fun _ _ hw => ⟨S, hw.symm ▸ hS⟩
  refine .get fun w hw => .ite (fun _ => .pure fun _ e => ⟨S, by rw [e, hw]; exact hS⟩) fun _ => ?_
  cases base with
  | none => exact hreal.here hw
  | some addr =>
  cases region with
  | none => exact hreal.here hw
  | some size =>
    refine .ite (fun _ => hreal.here hw) fun _ => ?_
    refine Triple.here (tool_rtlHookScope (R := fun u => u = t) (Q := fun _ u => ∃ S, Held t₀ S u) ?_) hw
    refine Triple.bind (Q := fun _ => Exact t) (exact_setInHook true) fun _ => ?_
    rw [hw]
    refine Triple.bind (Q := fun _ => Holding t₀) ?_ fun p => .ite (fun _ => .pure fun _ hv => hv.2) fun _ => ?_
    · exact h.attempt_redirectSlot (b := t.proxyActive) hS fun hg => hroom addr size rfl rfl hg.1 hg.2.2 hg.2.1
    · rintro u ⟨-, S', hS'⟩
      have hu : (exec (realNtAllocateVirtualMemoryEx env process (some addr) (some size) type protect params count) u).2.tool =
          u.tool := h.callNt rfl _ _ u rfl
      exact ⟨S', hu.symm ▸ hS'⟩

/-! ## Releases -/

theorem exec_takeRecord (p : ℕ) (k : Keeper) (w : World σ) : exec (takeRecord p k) w =
    (w.tool.tables.view p k, { w with tool := { w.tool with tables := (w.tool.tables.take p k).2 } }) := by
  rw [← Tables.take_fst]
  rfl

/-- What a free of an address takes out of the tracker, if anything. -/
def Untracked (S : List Slot) (t : Tool) (addr : ℕ) (found : Option ProxyAllocRecord) (w : World σ) : Prop :=
  match found with
  | none => w.tool = t
  | some r => (⟨addr, r.proxySize⟩ : Slot) ∈ S ∧ w.tool = { t with tables := (t.tables.take addr .vat).2 }

theorem Held.vatUntrack (hS : Held t₀ S t) (addr type : ℕ) :
    Triple (fun w : World σ => w.tool = t) (vatUntrack addr type) (Untracked S t addr) := by
  refine .ite (fun _ => ?_) fun _ => .pure fun _ hw => hw
  rintro w rfl
  rw [exec_takeRecord]
  cases hr : w.tool.tables.view addr .vat with
  | none =>
    have hl : w.tool.tables.vat.lookup addr = none := Option.map_eq_none_iff.1 hr
    show { w.tool with tables := (w.tool.tables.take addr .vat).2 } = w.tool
    rw [Tables.take, Vat.untrack_of_none hl]
  | some r => exact ⟨(hS.mem_of_view hr).2, rfl⟩

/-- The record of a redirected slot is found. -/
theorem Held.vatUntrack_slot (hS : Held t₀ S t) {slot : Slot} (hs : slot ∈ S) {type : ℕ} (hr : hasFlag type MEM_RELEASE = true) :
    Triple (fun w : World σ => w.tool = t) (Ts3Vas.vatUntrack slot.addr type)
      fun found w => found = some ⟨slot.addr, slot.size⟩ ∧ w.tool = { t with tables := (t.tables.take slot.addr .vat).2 } := by
  refine .ite (fun _ => ?_) fun hn => absurd hr hn
  rintro w rfl
  rw [exec_takeRecord, hS.view hs]
  exact ⟨rfl, rfl⟩

/-- The slot goes back with the size that it was asked for, which `Free` rounds as `Allocate` did. -/
theorem Direct.releaseSlot (h : Direct env t₀) (addr : ℕ) (r : ProxyAllocRecord) (hm : t.memManager = true) :
    Triple (fun w => w.tool = t) (releaseSlot env addr r)
      fun _ w => w.tool = { t with sys := t.sys.step (.free ⟨addr, r.proxySize⟩) } := by
  refine Triple.bind (h.forward _ _) fun _ => .get fun w hw => ?_
  rw [hw, if_pos hm]
  rintro v rfl
  rw [exec_arenaFree, ← hw]

/-- The rest of a free whose record has been found. -/
theorem Direct.released {α : Type} (h : Direct env t₀) (hS : Held t₀ S t) (addr : ℕ) (r : ProxyAllocRecord) (ok : α) :
    Triple (Untracked S t addr (some r)) (do Ts3Vas.releaseSlot env addr r; return ok) fun _ w => ∃ S, Held t₀ S w.tool := by
  rintro w ⟨hm, hw⟩
  have hrel : (exec (Ts3Vas.releaseSlot env addr r) w).2.tool = t.afterRelease ⟨addr, r.proxySize⟩ :=
    h.releaseSlot (t := { t with tables := (t.tables.take addr .vat).2 }) addr r hS.memManager w hw
  refine ⟨S.erase ⟨addr, r.proxySize⟩, ?_⟩
  show Held t₀ _ (exec (Ts3Vas.releaseSlot env addr r) w).2.tool
  rw [hrel]
  exact hS.released hm

theorem Direct.hookedVirtualFree (h : Direct env t₀) (hS : Held t₀ S t) (addr size type : ℕ) :
    Triple (fun w => w.tool = t) (hookedVirtualFree env addr size type) fun _ w => ∃ S, Held t₀ S w.tool := by
  refine .get fun w hw => .ite (fun _ v e => ⟨S, ?_⟩) fun _ => ?_
  · show Held t₀ S v.tool
    rw [e, hw]
    exact hS
  · refine Triple.bind ((hS.vatUntrack addr type).here hw) fun found => ?_
    cases found with
    | none => exact (h.forward _ _).mono (fun _ hv => hv) fun _ _ hv => ⟨S, hv.symm ▸ hS⟩
    | some r => exact h.released hS addr r 1

theorem Direct.hookedNtFreeVirtualMemory (h : Direct env t₀) (hS : Held t₀ S t) (process : ℕ) (base region : Option ℕ)
    (type : ℕ) : Triple (fun w => w.tool = t) (hookedNtFreeVirtualMemory env process base region type)
      fun _ w => ∃ S, Held t₀ S w.tool := by
  have hreal : Triple (fun w => w.tool = t) (realNtFreeVirtualMemory env process base region type) fun _ w => w.tool = t :=
    h.callNt rfl _ _
  have hheld : ∀ w : World σ, w.tool = t → ∃ S, Held t₀ S w.tool := fun _ hw => ⟨S, hw.symm ▸ hS⟩
  refine .get fun w hw => ?_
  cases base with
  | none => exact hreal.mono (fun _ e => e ▸ hw) fun _ v hv => hheld v hv
  | some addr =>
    refine .ite (fun _ => hreal.mono (fun _ e => e ▸ hw) fun _ v hv => hheld v hv) fun _ => ?_
    refine Triple.here (tool_rtlHookScope (R := fun u => u = t) (Q := fun _ u => ∃ S, Held t₀ S u) ?_) hw
    refine Triple.bind (Q := fun _ v => v.tool = t) (fun v hv => (exact_setInHook true v hv).2) fun _ => ?_
    refine .ite (fun _ v hv => hheld v hv) fun _ => Triple.bind (hS.vatUntrack addr type) fun found => ?_
    cases found with
    | none => exact hreal.mono (fun _ hv => hv) fun _ v hv => hheld v hv
    | some r => exact h.released hS addr r _

/-! ## A release of a redirected slot -/

variable {slot : Slot}

theorem Direct.isCorralAddress (h : Direct env t₀) (hS : Held t₀ S t) (hs : slot ∈ S) (s : σ) :
    env.isCorralAddress slot.addr s = false := by
  apply h.corral
  have hp := hS.isProxyAddress hs
  rw [Ts3Vas.isProxyAddress, hS.arena.isProxyAddress] at hp
  exact hp

/-- The rest of the free, once `VatUntrack` has found the record. -/
theorem Direct.freed {α : Type} (h : Direct env t₀) (hS : Held t₀ S t) (ok : α) :
    Triple (fun w => w.tool = { t with tables := (t.tables.take slot.addr .vat).2 })
      (do Ts3Vas.releaseSlot env slot.addr ⟨slot.addr, slot.size⟩; return ok)
      fun r w => r = ok ∧ w.tool = t.afterRelease slot :=
  Triple.bind (h.releaseSlot slot.addr ⟨slot.addr, slot.size⟩ hS.memManager) fun _ => .pure fun _ hw => ⟨rfl, hw⟩

theorem Direct.virtualFree_slot (h : Direct env t₀) (hS : Held t₀ S t) (hs : slot ∈ S) (size : ℕ) {type : ℕ}
    (hr : hasFlag type MEM_RELEASE = true) : Triple (fun w => w.tool = t)
      (Ts3Vas.hookedVirtualFree env slot.addr size type) fun r w => r = 1 ∧ w.tool = t.afterRelease slot := by
  refine .get fun w hw => .ite (fun hc => ?_) fun _ => ?_
  · exact absurd hc.2.2.2 (by rw [h.isCorralAddress hS hs]; decide)
  refine Triple.bind ((hS.vatUntrack_slot hs hr).here hw) fun found => ?_
  rintro v ⟨rfl, hv⟩
  exact h.freed hS 1 v hv

theorem Direct.ntFree_slot (h : Direct env t₀) (hS : Held t₀ S t) (hs : slot ∈ S) (process : ℕ) (region : Option ℕ) {type : ℕ}
    (hr : hasFlag type MEM_RELEASE = true) : Triple (fun w => w.busy = false ∧ w.tool = t)
      (Ts3Vas.hookedNtFreeVirtualMemory env process (some slot.addr) region type)
      fun r w => r.status = 0 ∧ w.tool = t.afterRelease slot := by
  refine .get fun w hw => ?_
  have hopen : ¬ (w.closed || !w.tool.memManager) = true := by
    simp [World.closed, hw.1, hw.2, hS.running, hS.memManager]
  refine .ite (fun hc => absurd hc hopen) fun _ => ?_
  refine Triple.here (tool_rtlHookScope (R := fun u => u = t) (Q := fun (r : NtReply) u => r.status = 0 ∧ u = t.afterRelease slot) ?_) hw.2
  refine Triple.bind (Q := fun _ v => v.tool = t) (fun v hv => (exact_setInHook true v hv).2) fun _ => ?_
  refine .ite (fun hc => ?_) fun _ => Triple.bind (hS.vatUntrack_slot hs hr) fun found => ?_
  · exact absurd hc.2.2 (by rw [h.isCorralAddress hS hs]; decide)
  rintro v ⟨rfl, hv⟩
  obtain ⟨e, ht⟩ := h.freed hS (⟨0, some 0, region.map fun _ => 0⟩ : NtReply) v hv
  exact ⟨congrArg NtReply.status e, ht⟩

end

end Ts3Vas
