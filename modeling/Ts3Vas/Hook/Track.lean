/-
Runs of the virtual-memory hooks on threads that are outside any hook: every redirected slot keeps its
record in the tracker, and its release finds it, as long as the tracker has had room at each redirect.
-/
import Ts3Vas.Alloc.Crowd
import Ts3Vas.Hook.Held

namespace Ts3Vas

open Prog

variable {σ : Type}

/-! ## Runs of the virtual-memory hooks -/

namespace HookCall

/-- The three hooks that redirect and the two that release. -/
def isVirtual : HookCall → Bool
  | ntAllocateVirtualMemory .. | ntAllocateVirtualMemoryEx .. | virtualAlloc .. => true
  | ntFreeVirtualMemory .. | virtualFree .. => true
  | _ => false

/-- The call passes the redirect conditions, and the arena has a slot for it. -/
def redirected (t : Tool) : HookCall → Bool
  | virtualAlloc addr size type protect =>
    redirects { t with proxyActive := t.activates } addr size type protect && t.grants size
  | ntAllocateVirtualMemory process (some addr) _ (some size) type protect =>
    decide (process = minusOne) && redirects { t with proxyActive := t.activates } addr size type protect && t.grants size
  | ntAllocateVirtualMemoryEx process (some addr) (some size) type protect params count =>
    decide (process = minusOne) && decide (params = 0 ∨ count = 0) && redirects t addr size type protect && t.grants size
  | _ => false

/-- The address that a MEM_RELEASE names. -/
def releases : HookCall → Option ℕ
  | virtualFree addr _ type => if hasFlag type MEM_RELEASE then some addr else none
  | ntFreeVirtualMemory _ base _ type => if hasFlag type MEM_RELEASE then base else none
  | _ => none

/-- TRUE or STATUS_SUCCESS. -/
def success : HookCall → ℕ
  | virtualFree .. => 1
  | _ => 0

end HookCall

section
variable {env : Env σ} {t₀ t : Tool} {S : List Slot} {slot : Slot}

/-- A call of a virtual-memory hook outside any hook, with room in the tracker if it redirects. -/
theorem Direct.held_run (h : Direct env t₀) (hS : Held t₀ S t) {c : HookCall} (hv : c.isVirtual = true)
    (hroom : c.redirected t = true → t.tables.vat.entries.length < kVatMax) :
    Triple (fun w => w.busy = false ∧ w.tool = t) (c.run env) fun _ w => ∃ S, Held t₀ S w.tool := by
  cases c with
  | virtualAlloc addr size type protect =>
    refine h.hookedVirtualAlloc hS addr type fun hr hg => hroom ?_
    rw [HookCall.redirected, hr, hg]; rfl
  | ntAllocateVirtualMemory process base zeroBits region type protect =>
    refine Triple.map ((h.hookedNtAllocateVirtualMemory hS process base zeroBits region type ?_).mono (fun _ hw => hw.2)
      fun _ _ h => h) fun _ _ h => h
    rintro addr size rfl rfl hp hr hg
    apply hroom
    rw [HookCall.redirected, decide_eq_true hp, hr, hg]; rfl
  | ntAllocateVirtualMemoryEx process base region type protect params count =>
    refine Triple.map ((h.hookedNtAllocateVirtualMemoryEx hS process base region type params count ?_).mono
      (fun _ hw => hw.2) fun _ _ h => h) fun _ _ h => h
    rintro addr size rfl rfl hp hc hr hg
    apply hroom
    rw [HookCall.redirected, decide_eq_true hp, decide_eq_true hc, hr, hg]; rfl
  | virtualFree addr size type => exact (h.hookedVirtualFree hS addr size type).mono (fun _ hw => hw.2) fun _ _ h => h
  | ntFreeVirtualMemory process base region type =>
    exact Triple.map ((h.hookedNtFreeVirtualMemory hS process base region type).mono (fun _ hw => hw.2) fun _ _ h => h)
      fun _ _ h => h
  | _ => cases hv

/-- A release of a redirected slot by either hook. -/
theorem Direct.release_run (h : Direct env t₀) (hS : Held t₀ S t) (hs : slot ∈ S) {c : HookCall}
    (hc : c.releases = some slot.addr) : Triple (fun w => w.busy = false ∧ w.tool = t) (c.run env)
      fun r w => r = c.success ∧ w.tool = t.afterRelease slot := by
  cases c with
  | virtualFree addr size type =>
    rw [HookCall.releases] at hc
    split at hc
    · cases hc
      exact (h.virtualFree_slot hS hs size ‹_›).mono (fun _ hw => hw.2) fun _ _ h => h
    · cases hc
  | ntFreeVirtualMemory process base region type =>
    rw [HookCall.releases] at hc
    split at hc
    · cases hc
      exact Triple.map (h.ntFree_slot hS hs process region ‹_›) fun _ _ h => h
    · cases hc
  | _ => cases hc

end

/-- A process: the threads with their marks. -/
structure Host (σ : Type) where
  world : World σ
  threads : ℕ → Thread

namespace Host

/-- The world as a thread sees it. -/
def onThread (s : Host σ) (thread : ℕ) : World σ := { s.world with thread := s.threads thread }

/-- What a thread's call of a hook returns, and the world after it. -/
def call (env : Env σ) (s : Host σ) (e : ℕ × HookCall) : ℕ × World σ := exec (e.2.run env) (s.onThread e.1)

def step (env : Env σ) (s : Host σ) (e : ℕ × HookCall) : Host σ where
  world := (s.call env e).2
  threads := Function.update s.threads e.1 (s.call env e).2.thread

/-- A call of a virtual-memory hook by a thread that is not inside a hook. -/
def Lawful (s : Host σ) (e : ℕ × HookCall) : Prop := (s.onThread e.1).busy = false ∧ e.2.isVirtual = true

instance decidableLawful (s : Host σ) (e : ℕ × HookCall) : Decidable (s.Lawful e) := inferInstanceAs (Decidable (_ ∧ _))

/-- A redirect finds room in the tracker. -/
def Roomy (s : Host σ) (e : ℕ × HookCall) : Prop :=
  e.2.redirected s.world.tool = true → s.world.tool.tables.vat.entries.length < kVatMax

instance decidableRoomy (s : Host σ) (e : ℕ × HookCall) : Decidable (s.Roomy e) := inferInstanceAs (Decidable (_ → _))

/-- The slots granted since the tool was `t₀` and not given back. -/
def redirected (t₀ : Tool) (s : Host σ) : List Slot := s.world.tool.sys.live.diff t₀.sys.live

/-- What the release of a redirected slot has to do. -/
structure Released (env : Env σ) (s : Host σ) (e : ℕ × HookCall) (slot : Slot) : Prop where
  found : s.world.tool.tables.view slot.addr .vat = some ⟨slot.addr, slot.size⟩
  success : (s.call env e).1 = e.2.success
  freed : (s.step env e).world.tool.sys = s.world.tool.sys.step (.free slot)
  bytes : (s.step env e).world.tool.sys.alloc.totalFreedBytes =
    (s.world.tool.sys.alloc.totalFreedBytes + alignUp slot.size s.world.tool.sys.alloc.allocGranularity) % 2 ^ 64
  others : ∀ addr k, (s.step env e).world.tool.tables.view addr k =
    if k = .vat ∧ addr = slot.addr then none else s.world.tool.tables.view addr k

section
variable {env : Env σ} {t₀ : Tool} {s : Host σ} {e : ℕ × HookCall}

/-- The invariant: every redirected slot has its record. -/
def Tracked (t₀ : Tool) (s : Host σ) : Prop := ∃ S, Held t₀ S s.world.tool

theorem Tracked.step (h : s.Tracked t₀) (he : Direct env t₀) (hl : s.Lawful e) (hr : s.Roomy e) :
    (s.step env e).Tracked t₀ := by
  obtain ⟨S, hS⟩ := h
  exact he.held_run hS hl.2 hr (s.onThread e.1) ⟨hl.1, rfl⟩

theorem perm_redirected {S : List Slot} (hS : Held t₀ S s.world.tool) : (s.redirected t₀).Perm S := by
  have hdiff : ∀ l : List Slot, (l ++ S).diff l = S := by
    intro l
    induction l with
    | nil => rfl
    | cons a l ih => rw [List.cons_append, List.diff_cons, List.erase_cons_head, ih]
  exact hdiff t₀.sys.live ▸ hS.live.diff_right _

theorem Tracked.released (h : s.Tracked t₀) (he : Direct env t₀) {slot : Slot} (hslot : slot ∈ s.redirected t₀) (hl : s.Lawful e)
    (hc : e.2.releases = some slot.addr) : s.Released env e slot := by
  obtain ⟨S, hS⟩ := h
  have hs : slot ∈ S := (perm_redirected hS).mem_iff.1 hslot
  obtain ⟨hsucc, htool⟩ := he.release_run hS hs hc (s.onThread e.1) ⟨hl.1, rfl⟩
  -- of the state only the slot and its record are gone
  have hstep : (s.step env e).world.tool = s.world.tool.afterRelease slot := htool
  constructor
  · exact hS.view hs
  · exact hsucc
  · rw [hstep, Tool.afterRelease]
  · rw [hstep, Tool.afterRelease, Sys.step_free]
    exact ProxyAllocator.totalFreedBytes_free hS.sound.books (hS.isProxyAddress hs)
  · intro addr k
    rw [hstep, Tool.afterRelease]
    exact Tables.view_take hS.addrs_nodup slot.addr .vat addr k

/-- In every run in which each redirect finds room in the tracker, the release of a live redirected
slot does all it has to. -/
theorem redirected_released {w : World σ} (he : Direct env w.tool) (hm : w.tool.memManager = true)
    (hr : w.tool.shuttingDown = false) (hs : w.tool.sys.Sound) (hv : w.tool.tables.vat.entries = []) (threads : ℕ → Thread)
    {es : List (ℕ × HookCall)} (hes : Run.Guarded (Host.step env) (fun s e => s.Lawful e ∧ s.Roomy e) ⟨w, threads⟩ es) :
    ∀ slot ∈ (Run.after (Host.step env) ⟨w, threads⟩ es).redirected w.tool, ∀ e,
      (Run.after (Host.step env) ⟨w, threads⟩ es).Lawful e → e.2.releases = some slot.addr →
      (Run.after (Host.step env) ⟨w, threads⟩ es).Released env e slot := by
  have hstart : (⟨w, threads⟩ : Host σ).Tracked w.tool := by
    refine ⟨[], hm, hr, hs, .refl _, ?_, ?_, fun _ h => (nomatch h), List.nodup_nil⟩
    · rw [List.append_nil]
    · rw [hv]; rfl
  have hend := hes.invariant (fun _ _ h hg => h.step he hg.1 hg.2) hstart
  intro slot hslot e hl hc
  exact hend.released he hslot hl hc

end

end Host

/-! ## A tracker with room -/

/-- Commits and decommits succeed, and nothing else. -/
def Env.pages : Env Unit where
  real c w := (⟨match c with
    | .virtualAlloc p size _ _ => if 0 < p ∧ 0 < size ∧ p + size ≤ 2 ^ 32 then p else 0
    | .virtualFree _ _ type => if type = MEM_DECOMMIT then 1 else 0
    | _ => 0, 0, 0⟩, w)
  handleLive _ _ := true
  stray _ := 0
  memcpy _ _ _ s := s
  isCorralAddress _ _ := false
  corralReserve _ _ _ s := (0, s)
  corralFree _ s := s

theorem direct_pages (t : Tool) : Direct Env.pages t := by
  constructor
  · exact fun _ _ _ => rfl
  · exact fun _ _ _ => rfl
  · intro p size protect w hc
    by_contra hn
    refine hc (if_neg ?_)
    rintro ⟨-, h1, h2⟩
    exact hn ⟨h1, h2⟩
  · exact fun _ _ _ => rfl

namespace Host

/-- One thread, outside any hook. -/
def start (a : ProxyAllocator) : Host Unit := ⟨World.install a (), fun _ => ⟨false, false, false⟩⟩

/-- A reserve and commit of some bytes at any address. -/
def reserve (size : ℕ) : HookCall := .virtualAlloc 0 size (MEM_RESERVE ||| MEM_COMMIT) PAGE_READWRITE

def release (addr : ℕ) : HookCall := .virtualFree addr 0 MEM_RELEASE

/-- Three slots, the first of them released. -/
def fewSlots : List (ℕ × HookCall) := [(0, reserve 10000), (1, reserve 4096), (0, release 0x10000000), (0, reserve 300000)]

theorem redirected_released_few : Host.Released Env.pages (Run.after (Host.step Env.pages) (start arena16M) fewSlots)
    (1, release 0x10003000) ⟨0x10003000, 4096⟩ := by
  have hsound : Sys.Sound ⟨arena16M, []⟩ := (Sys.start_proper arena16M_started.whole.idle).toSound
  have hes : Run.Guarded (Host.step Env.pages) (fun s e => s.Lawful e ∧ s.Roomy e) (start arena16M) fewSlots := by decide +kernel
  exact redirected_released (direct_pages _) rfl rfl hsound rfl _ hes ⟨0x10003000, 4096⟩ (by decide +kernel) _
    (by decide +kernel) rfl

end Host

/-! ## A tracker that is full -/

theorem exec_commitSlot_pages {w : World Unit} (hw : Hooking w) (hrun : w.tool.resolved .virtualAlloc = true)
    {p size : ℕ} (protect : ℕ) (hfits : 0 < p ∧ 0 < size ∧ p + size ≤ 2 ^ 32) : exec (commitSlot Env.pages p size protect) w =
      (p, { w with trace := w.trace ++ [.virtualAlloc p size MEM_COMMIT protect] }) := by
  rw [commitSlot, exec_forward hw, if_pos (by exact hrun)]
  have hreal : exec (Env.pages.real (.virtualAlloc p size MEM_COMMIT protect)) w = (⟨p, 0, 0⟩, w) := by
    show ((⟨if _ then p else 0, 0, 0⟩, w) : Reply × World Unit) = _
    rw [if_pos hfits]
  rw [callValue, call, exec_bind, exec_bind, exec_get, exec_bind, hreal]
  rfl

theorem exec_redirectSlot_pages {w : World Unit} (hw : Hooking w) (hrun : w.tool.resolved .virtualAlloc = true)
    {p size : ℕ} (protect : ℕ) (htop : w.tool.sys.alloc.prefersTopDown size = false)
    (hp : (w.tool.sys.alloc.allocate size false).1 = p) (hfits : 0 < p ∧ 0 < size ∧ p + size ≤ 2 ^ 32) :
    exec (redirectSlot Env.pages size protect) w = (p, { w with
      tool := { w.tool with sys := w.tool.sys.step (.allocate size false), tables := w.tool.tables.put p size .vat }
      trace := w.trace ++ [.virtualAlloc p size MEM_COMMIT protect] }) := by
  unfold redirectSlot
  rw [exec_bind, exec_arenaAllocate]
  dsimp only
  rw [htop, hp, exec_ite, if_neg hfits.1.ne', exec_bind, exec_commitSlot_pages (by exact hw) (by exact hrun) protect hfits]
  dsimp only
  rw [exec_ite, if_neg hfits.1.ne']
  rfl

theorem orElse_of_ne {p : ℕ} (hp : p ≠ 0) (m : Hook σ ℕ) : orElse p m = pure p := if_neg hp

/-- A request that is redirected, once the proxy is active. -/
theorem exec_virtualAlloc_slot {env : Env σ} {w v : World σ} {size type protect p : ℕ} (hopen : w.closed = false)
    (hrun : w.tool.resolved .virtualAlloc = true) (htls : w.tool.tlsAllocated = true)
    (hr : redirects w.tool 0 size type protect = true) (hp : p ≠ 0)
    (hslot : exec (redirectSlot env size protect) { w with thread := { w.thread with hookActive := true, inHook := true } } = (p, v)) :
    exec (hookedVirtualAlloc env 0 size type protect) w =
      (p, (exec (do setInHook false; setHookActive false) v).2) := by
  have hact : w.tool.proxyActive = true := by
    rw [redirects, Bool.and_eq_true] at hr
    exact hr.2
  unfold hookedVirtualAlloc
  rw [exec_bind, exec_get]
  dsimp only
  rw [exec_ite, if_neg (by simp [hopen, hrun])]
  have hin : (exec (setInHook true) (exec (setHookActive true) w).2).2 =
      { w with thread := { w.thread with hookActive := true, inHook := true } } := by
    simp [setInHook, setHookActive, htls]
  have hensure : exec (ensureProxyActive size type protect)
      { w with thread := { w.thread with hookActive := true, inHook := true } } =
      ((), { w with thread := { w.thread with hookActive := true, inHook := true } }) := by
    unfold ensureProxyActive
    rw [exec_bind, exec_get]
    dsimp only
    rw [hact]
    rfl
  simp only [rtlHookScope, exec_bind, hin, hensure, exec_get, attempt, hr, if_true, hslot, orElse_of_ne hp, exec_pure]

namespace Host

/-- A world over the arena of `crowdArena`, the proxy active, its thread outside any hook. -/
def crowdWorld (sys : Sys) (tables : Tables) (trace : List RealCall) : World Unit :=
  ⟨(), { Tool.install Sys.crowdArena with proxyActive := true, sys := sys, tables := tables }, ⟨false, false, false⟩, trace⟩

/-- A reserve of one page is redirected. -/
theorem exec_reserve (sys : Sys) (tables : Tables) (trace : List RealCall) {p : ℕ}
    (htop : sys.alloc.prefersTopDown 4096 = false) (hp : (sys.alloc.allocate 4096 false).1 = p)
    (hfits : 0 < p ∧ p + 4096 ≤ 2 ^ 32) : exec ((reserve 4096).run Env.pages) (crowdWorld sys tables trace) =
    (p, crowdWorld (sys.step (.allocate 4096 false)) (tables.put p 4096 .vat)
      (trace ++ [.virtualAlloc p 4096 MEM_COMMIT PAGE_READWRITE])) := by
  have hslot := exec_redirectSlot_pages (w := { crowdWorld sys tables trace with thread := ⟨false, true, true⟩ }) rfl rfl
    PAGE_READWRITE htop hp ⟨hfits.1, by decide, hfits.2⟩
  exact exec_virtualAlloc_slot rfl rfl rfl rfl hfits.1.ne' hslot

/-- One thread outside any hook. -/
def crowd (sys : Sys) (tables : Tables) (trace : List RealCall) : Host Unit :=
  ⟨crowdWorld sys tables trace, fun _ => ⟨false, false, false⟩⟩

theorem step_crowd (sys : Sys) (tables : Tables) (trace : List RealCall) {p : ℕ}
    (htop : sys.alloc.prefersTopDown 4096 = false) (hp : (sys.alloc.allocate 4096 false).1 = p)
    (hfits : 0 < p ∧ p + 4096 ≤ 2 ^ 32) : (crowd sys tables trace).step Env.pages (0, reserve 4096) =
    crowd (sys.step (.allocate 4096 false)) (tables.put p 4096 .vat)
      (trace ++ [.virtualAlloc p 4096 MEM_COMMIT PAGE_READWRITE]) := by
  show (⟨(exec ((reserve 4096).run Env.pages) (crowdWorld sys tables trace)).2, Function.update _ 0
    (exec ((reserve 4096).run Env.pages) (crowdWorld sys tables trace)).2.thread⟩ : Host Unit) = _
  rw [exec_reserve sys tables trace htop hp hfits]
  exact congrArg _ (Function.update_eq_self 0 _)

/-- After `k` reserves of a page: all are live, the first 8192 have a record. -/
structure Crammed (k : ℕ) (s : Host Unit) : Prop where
  shape : s = crowd s.world.tool.sys s.world.tool.tables s.world.trace
  filling : Sys.Filling k s.world.tool.sys
  topDown : s.world.tool.sys.alloc.topDownBytes = 256 * 1024
  tracked : s.world.tool.tables.vat.addrs = (List.range (min k kVatMax)).map fun i => (Sys.page i).addr

theorem Crammed.step {k : ℕ} (hk : k < 174761) {s : Host Unit} (hs : Crammed k s) :
    s.Lawful (0, reserve 4096) ∧ Crammed (k + 1) (s.step Env.pages (0, reserve 4096)) := by
  obtain ⟨hshape, hfill, htop, htracked⟩ := hs
  generalize s.world.tool.sys = sys at *
  generalize s.world.tool.tables = tables at *
  generalize s.world.trace = trace at *
  subst hshape
  have halloc := (hfill.allocate hk).2
  have hbelow : sys.alloc.prefersTopDown 4096 = false := by rw [ProxyAllocator.prefersTopDown, htop]; rfl
  have hpage : (sys.alloc.allocate 4096 false).1 = (Sys.page k).addr := congrArg Prod.fst halloc
  have hfits : 0 < (Sys.page k).addr ∧ (Sys.page k).addr + 4096 ≤ 2 ^ 32 := by
    simp only [Sys.page]
    omega
  rw [step_crowd sys tables trace hbelow hpage hfits]
  refine ⟨⟨rfl, rfl⟩, rfl, (hfill.step hk).2, ?_, Vat.addrs_track (f := fun i => (Sys.page i).addr) htracked 4096⟩
  show (sys.step (.allocate 4096 false)).alloc.topDownBytes = _
  rw [Sys.step_allocate, halloc]
  exact htop

def crowdStart : Host Unit := crowd ⟨Sys.crowdArena, []⟩ .empty []

/-- One reserve more than the tracker has places. -/
@[irreducible] def manyPages : List (ℕ × HookCall) := (List.range 8193).map fun _ => (0, reserve 4096)

theorem crammed : Run.Guarded (Host.step Env.pages) Lawful crowdStart manyPages ∧
    Crammed 8193 (Run.after (Host.step Env.pages) crowdStart manyPages) := by
  unfold manyPages
  refine Run.Guarded.loop (P := Crammed) ⟨rfl, ?_, rfl, rfl⟩ fun k _ hk hs => hs.step (by omega)
  exact ⟨Sys.crowdArena_onCrowd, rfl, rfl, fun i hi => absurd hi (Nat.not_lt_zero i)⟩

/-- The release of an address without a record goes to `Real_VirtualFree`, which fails. -/
theorem Crammed.call_release {k : ℕ} {s : Host Unit} (hs : Crammed k s) {addr : ℕ}
    (hn : s.world.tool.tables.view addr .vat = none) : (s.call Env.pages (0, release addr)).1 = 0 := by
  obtain ⟨hshape, -, -, -⟩ := hs
  generalize s.world.tool.sys = sys at *
  generalize s.world.trace = trace at *
  generalize s.world.tool.tables = tables at *
  subst hshape
  -- nothing is untracked, so the tables stay as they are
  have hfound : exec (vatUntrack addr MEM_RELEASE) (crowdWorld sys tables trace) = (none, crowdWorld sys tables trace) := by
    have hl : tables.vat.lookup addr = none := Option.map_eq_none_iff.1 hn
    show exec (takeRecord addr .vat) (crowdWorld sys tables trace) = _
    rw [exec_takeRecord]
    show (tables.view addr .vat, crowdWorld sys (tables.take addr .vat).2 trace) = _
    rw [hn, Tables.take, Vat.untrack_of_none hl]
  show (exec (hookedVirtualFree Env.pages addr 0 MEM_RELEASE) (crowdWorld sys tables trace)).1 = 0
  unfold hookedVirtualFree
  rw [exec_bind, exec_get]
  dsimp only
  rw [exec_ite, if_neg (fun h => Bool.false_ne_true h.2.2.2), exec_bind, hfound]
  rfl

/-- The process whose tracker is full. -/
def full : Host Unit := Run.after (Host.step Env.pages) crowdStart manyPages

theorem full_crammed : Crammed 8193 full := crammed.2

/-- The 8193rd slot is redirected and has no record. -/
theorem full_untracked : Sys.page 8192 ∈ full.redirected crowdStart.world.tool ∧
    full.world.tool.tables.view (Sys.page 8192).addr .vat = none := by
  constructor
  · rw [redirected, show crowdStart.world.tool.sys.live = [] from rfl, List.diff_nil]
    exact full_crammed.filling.live 8192 (by omega)
  · exact Option.map_eq_none_iff.2 (Vat.lookup_of_dropped Sys.page_addr_injective full_crammed.tracked le_rfl)

theorem not_released_full :
    Run.Guarded (Host.step Env.pages) Lawful crowdStart manyPages ∧
    Sys.page 8192 ∈ full.redirected crowdStart.world.tool ∧
    full.Lawful (0, release (Sys.page 8192).addr) ∧ (full.call Env.pages (0, release (Sys.page 8192).addr)).1 = 0 ∧
    ¬ full.Released Env.pages (0, release (Sys.page 8192).addr) (Sys.page 8192) := by
  have hzero := full_crammed.call_release full_untracked.2
  refine ⟨crammed.1, full_untracked.1, ?_, hzero, fun h => ?_⟩
  · rw [full_crammed.shape]
    exact ⟨rfl, rfl⟩
  · have hsucc := h.success
    rw [hzero] at hsucc
    cases hsucc

end Host

end Ts3Vas
