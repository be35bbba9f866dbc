/-
Redirects whose slot cannot be committed. The three hooks of virtual memory and the heap's way into the
arena each give such a slot back, and so does the script arena; what is left of it then.
-/
import Ts3Vas.Hook.Held
import Ts3Vas.Corral.Rollback

namespace Ts3Vas

open Prog

variable {σ : Type}

/-! ## The redirects, with the slot that they give back -/

/-- `createProxyAllocation`, with the slot that it has not been able to commit. -/
def undoneCreateProxyAllocation (env : Env σ) (caller : Caller) (size protect : ℕ) : Hook σ (Option Slot × ℕ) := do
  let w ← get
  if caller.self then return (none, 0)
  else if w.tool.proxyMaxBytes ≠ 0 ∧ w.tool.proxyMaxBytes ≤ size then return (none, 0)
  else do
    let p ← arenaAllocate size
    if p = 0 then return (none, 0)
    else if !isProxyAddress w.tool p || p % pageSize ≠ 0 then do
      arenaFree p size
      return (none, 0)
    else do
      let c ← commitSlot env p size (if protect = 0 then PAGE_READWRITE else protect)
      if c = 0 then do
        arenaFree p size
        return (some ⟨p, size⟩, 0)
      else do
        onTool fun t => { t with tables := t.tables.put p size .allocations }
        return (none, p)

def undoneRedirectSlot (env : Env σ) (size protect : ℕ) : Hook σ (Option Slot × ℕ) := do
  let slot ← arenaAllocate size
  if slot = 0 then return (none, 0)
  else do
    let c ← commitSlot env slot size protect
    if c = 0 then do
      arenaFree slot size
      return (some ⟨slot, size⟩, 0)
    else do
      onTool fun t => { t with tables := t.tables.put slot size .vat }
      return (none, slot)

def undoneAttempt (c : Prop) [Decidable c] (m : Hook σ (Option Slot × ℕ)) : Hook σ (Option Slot × ℕ) :=
  if c then m else pure (none, 0)

def undoneVirtualAlloc (env : Env σ) (addr size type protect : ℕ) : Hook σ (Option Slot × ℕ) := do
  let w ← get
  if w.closed || !w.tool.resolved .virtualAlloc then
    if w.tool.resolved .virtualAlloc then do
      let p ← callValue env (.virtualAlloc addr size type protect)
      return (none, p)
    else return (none, 0)
  else rtlHookScope do
    setInHook true
    ensureProxyActive size type protect
    let w ← get
    let (undone, p) ← undoneAttempt (redirects w.tool addr size type protect) (undoneRedirectSlot env size protect)
    let p ← orElse p (attempt (writeWatchCandidate addr type && w.tool.memManager) (corralReserve env size type protect))
    let p ← orElse p (callValue env (.virtualAlloc addr size type protect))
    setInHook false
    return (undone, p)

def undoneNtAllocateVirtualMemory (env : Env σ) (process : ℕ) (base : Option ℕ) (zeroBits : ℕ) (region : Option ℕ)
    (type protect : ℕ) : Hook σ (Option Slot × NtReply) := do
  let w ← get
  match base, region with
  | some addr, some size =>
    if w.closed || !w.tool.memManager then
      (none, ·) <$> realNtAllocateVirtualMemory env process base zeroBits region type protect
    else rtlHookScope do
      setInHook true
      onlyIf (process = minusOne) (ensureProxyActive size type protect)
      let w ← get
      let (undone, slot) ← undoneAttempt (process = minusOne ∧ redirects w.tool addr size type protect)
        (undoneRedirectSlot env size protect)
      if slot ≠ 0 then return (undone, ⟨0, some slot, some size⟩)
      else (undone, ·) <$> realNtAllocateVirtualMemory env process base zeroBits region type protect
  | _, _ => (none, ·) <$> realNtAllocateVirtualMemory env process base zeroBits region type protect

def undoneNtAllocateVirtualMemoryEx (env : Env σ) (process : ℕ) (base region : Option ℕ)
    (type protect params count : ℕ) : Hook σ (Option Slot × NtReply) := do
  let w ← get
  if !w.tool.resolved .ntAllocateVirtualMemoryEx then return (none, ⟨STATUS_NOT_IMPLEMENTED, base, region⟩)
  else
    match base, region with
    | some addr, some size =>
      if w.closed || !w.tool.memManager then
        (none, ·) <$> realNtAllocateVirtualMemoryEx env process base region type protect params count
      else rtlHookScope do
        setInHook true
        let (undone, slot) ← undoneAttempt
          (process = minusOne ∧ redirects w.tool addr size type protect ∧ (params = 0 ∨ count = 0))
          (undoneRedirectSlot env size protect)
        if slot ≠ 0 then return (undone, ⟨0, some slot, some size⟩)
        else (undone, ·) <$> realNtAllocateVirtualMemoryEx env process base region type protect params count
    | _, _ => (none, ·) <$> realNtAllocateVirtualMemoryEx env process base region type protect params count

/-! ## The slot is all that is added -/

section
variable (env : Env σ) (size protect : ℕ)

theorem map_undoneCreateProxyAllocation (caller : Caller) :
    Prod.snd <$> undoneCreateProxyAllocation env caller size protect = createProxyAllocation env caller size protect := by
  unfold createProxyAllocation undoneCreateProxyAllocation
  simp only [map_bind, apply_ite (Functor.map Prod.snd), map_pure]

theorem map_undoneRedirectSlot : Prod.snd <$> undoneRedirectSlot env size protect = redirectSlot env size protect := by
  unfold redirectSlot undoneRedirectSlot
  simp only [map_bind, apply_ite (Functor.map Prod.snd), map_pure]

theorem map_undoneAttempt (c : Prop) [Decidable c] :
    Prod.snd <$> undoneAttempt c (undoneRedirectSlot env size protect) = attempt c (redirectSlot env size protect) := by
  rw [undoneAttempt, attempt, apply_ite (Functor.map Prod.snd), map_undoneRedirectSlot, map_pure]

theorem map_undoneVirtualAlloc (addr type : ℕ) :
    Prod.snd <$> undoneVirtualAlloc env addr size type protect = hookedVirtualAlloc env addr size type protect := by
  unfold hookedVirtualAlloc undoneVirtualAlloc
  simp only [← map_undoneAttempt, map_bind, apply_ite (Functor.map Prod.snd), map_rtlHookScope, map_pure, bind_pure,
    bind_map_left]

theorem map_undoneNtAllocateVirtualMemory (process : ℕ) (base : Option ℕ) (zeroBits : ℕ) (region : Option ℕ) (type : ℕ) :
    Prod.snd <$> undoneNtAllocateVirtualMemory env process base zeroBits region type protect =
      hookedNtAllocateVirtualMemory env process base zeroBits region type protect := by
  unfold hookedNtAllocateVirtualMemory undoneNtAllocateVirtualMemory
  cases base <;> cases region <;>
    simp only [← map_undoneAttempt, map_bind, apply_ite (Functor.map Prod.snd), map_rtlHookScope, map_pure,
      bind_map_left, Functor.map_map, id_map']

theorem map_undoneNtAllocateVirtualMemoryEx (process : ℕ) (base region : Option ℕ) (type params count : ℕ) :
    Prod.snd <$> undoneNtAllocateVirtualMemoryEx env process base region type protect params count =
      hookedNtAllocateVirtualMemoryEx env process base region type protect params count := by
  unfold hookedNtAllocateVirtualMemoryEx undoneNtAllocateVirtualMemoryEx
  cases base <;> cases region <;>
    simp only [← map_undoneAttempt, map_bind, apply_ite (Functor.map Prod.snd), map_rtlHookScope, map_pure,
      bind_map_left, Functor.map_map, id_map']

end

/-- A way into the arena, with its arguments. -/
inductive Redirect
  | createProxyAllocation (caller : Caller) (size protect : ℕ)
  | virtualAlloc (addr size type protect : ℕ)
  | ntAllocateVirtualMemory (process : ℕ) (base : Option ℕ) (zeroBits : ℕ) (region : Option ℕ) (type protect : ℕ)
  | ntAllocateVirtualMemoryEx (process : ℕ) (base region : Option ℕ) (type protect params count : ℕ)

namespace Redirect

def run (env : Env σ) : Redirect → Hook σ ℕ
  | createProxyAllocation caller size protect => Ts3Vas.createProxyAllocation env caller size protect
  | virtualAlloc addr size type protect => hookedVirtualAlloc env addr size type protect
  | ntAllocateVirtualMemory process base zeroBits region type protect =>
    NtReply.status <$> hookedNtAllocateVirtualMemory env process base zeroBits region type protect
  | ntAllocateVirtualMemoryEx process base region type protect params count =>
    NtReply.status <$> hookedNtAllocateVirtualMemoryEx env process base region type protect params count

/-- The slot that has been granted and not committed, if there is one. -/
def undone (env : Env σ) : Redirect → Hook σ (Option Slot)
  | createProxyAllocation caller size protect => Prod.fst <$> undoneCreateProxyAllocation env caller size protect
  | virtualAlloc addr size type protect => Prod.fst <$> undoneVirtualAlloc env addr size type protect
  | ntAllocateVirtualMemory process base zeroBits region type protect =>
    Prod.fst <$> undoneNtAllocateVirtualMemory env process base zeroBits region type protect
  | ntAllocateVirtualMemoryEx process base region type protect params count =>
    Prod.fst <$> undoneNtAllocateVirtualMemoryEx env process base region type protect params count

theorem undone_run (env : Env σ) (p : Redirect) (w : World σ) : (exec (p.undone env) w).2 = (exec (p.run env) w).2 := by
  cases p with
  | createProxyAllocation caller size protect =>
    show _ = (exec (Ts3Vas.createProxyAllocation env caller size protect) w).2
    rw [← map_undoneCreateProxyAllocation]
    rfl
  | virtualAlloc addr size type protect =>
    show _ = (exec (hookedVirtualAlloc env addr size type protect) w).2
    rw [← map_undoneVirtualAlloc]
    rfl
  | ntAllocateVirtualMemory process base zeroBits region type protect =>
    show _ = (exec (hookedNtAllocateVirtualMemory env process base zeroBits region type protect) w).2
    rw [← map_undoneNtAllocateVirtualMemory]
    rfl
  | ntAllocateVirtualMemoryEx process base region type protect params count =>
    show _ = (exec (hookedNtAllocateVirtualMemoryEx env process base region type protect params count) w).2
    rw [← map_undoneNtAllocateVirtualMemoryEx]
    rfl

end Redirect

/-! ## What a redirect does to the tool -/

/-- What is asked of the functions below the hooks: they leave the marks, and the tool when they are called
behind the guard. -/
structure Silent (env : Env σ) : Prop where
  calm : Calm env
  quiet : ∀ c w, w.closed = true → (exec (env.real c) w).2.tool = w.tool

/-- A slot that was given back is the one that `Allocate` had for its size, and the tool has seen no more
than the grant and the free. -/
def Undone (t : Tool) (slot : Option Slot) (t' : Tool) : Prop := ∀ s ∈ slot, s.addr ≠ 0 ∧
  s.addr = (t.sys.alloc.allocate s.size (t.sys.alloc.prefersTopDown s.size)).1 ∧
  t'.sys = t.sys.backAgain s.size (t.sys.alloc.prefersTopDown s.size) ∧ t'.tables = t.tables

theorem undone_none (t t' : Tool) : Undone t none t' := fun _ h => nomatch h

section
variable {env : Env σ} {t : Tool} {R : Tool → Prop} {size protect : ℕ}

theorem Silent.commitSlot (h : Silent env) (p size protect : ℕ) (w : World σ) :
    (exec (commitSlot env p size protect) w).2.tool = w.tool := by
  unfold Ts3Vas.commitSlot
  rcases exec_forward_cases env (.virtualAlloc p size MEM_COMMIT protect) 0 w with ⟨-, e⟩ | ⟨-, th, th', hc, e⟩
  · rw [e]
  · rw [e]
    exact h.quiet _ _ hc

/-- What follows a grant: the commit, and the record or the free. -/
theorem Silent.granted (h : Silent env) (size protect : ℕ) (k : Keeper) (w : World σ)
    (hp : (w.tool.sys.alloc.allocate size (w.tool.sys.alloc.prefersTopDown size)).1 ≠ 0) {r : (Option Slot × ℕ) × World σ}
    (hr : exec (do
      let c ← Ts3Vas.commitSlot env (w.tool.sys.alloc.allocate size (w.tool.sys.alloc.prefersTopDown size)).1 size protect
      if c = 0 then do
        arenaFree (w.tool.sys.alloc.allocate size (w.tool.sys.alloc.prefersTopDown size)).1 size
        return (some ⟨(w.tool.sys.alloc.allocate size (w.tool.sys.alloc.prefersTopDown size)).1, size⟩, 0)
      else do
        onTool fun t => { t with tables := t.tables.put (w.tool.sys.alloc.allocate size (w.tool.sys.alloc.prefersTopDown size)).1 size k }
        return (none, (w.tool.sys.alloc.allocate size (w.tool.sys.alloc.prefersTopDown size)).1))
      { w with tool := { w.tool with sys := w.tool.sys.step (.allocate size (w.tool.sys.alloc.prefersTopDown size)) } } = r) :
    Undone w.tool r.1.1 r.2.tool := by
  have htool := h.commitSlot (w.tool.sys.alloc.allocate size (w.tool.sys.alloc.prefersTopDown size)).1 size protect
    { w with tool := { w.tool with sys := w.tool.sys.step (.allocate size (w.tool.sys.alloc.prefersTopDown size)) } }
  rw [← hr, exec_bind, exec_ite]
  split
  · rw [exec_bind, exec_arenaFree]
    dsimp only [exec_pure]
    rw [htool]
    rintro slot ⟨⟩
    exact ⟨hp, rfl, rfl, rfl⟩
  · exact undone_none _ _

/-- A redirect, from any state. -/
theorem Silent.redirectSlot (h : Silent env) (size protect : ℕ) (w : World σ) :
    Undone w.tool (exec (undoneRedirectSlot env size protect) w).1.1 (exec (undoneRedirectSlot env size protect) w).2.tool := by
  unfold undoneRedirectSlot
  rw [exec_bind, exec_arenaAllocate]
  dsimp only
  rw [exec_ite]
  split
  · exact undone_none _ _
  · exact h.granted size protect .vat w ‹_› rfl

theorem Silent.createProxyAllocation (h : Silent env) (caller : Caller) (size protect : ℕ) (w : World σ) :
    Undone w.tool (exec (undoneCreateProxyAllocation env caller size protect) w).1.1
      (exec (undoneCreateProxyAllocation env caller size protect) w).2.tool := by
  unfold undoneCreateProxyAllocation
  rw [exec_bind, exec_get, exec_ite]
  split
  · exact undone_none _ _
  rw [exec_ite]
  split
  · exact undone_none _ _
  rw [exec_bind, exec_arenaAllocate]
  dsimp only
  rw [exec_ite]
  split
  · exact undone_none _ _
  rw [exec_ite]
  split
  · exact undone_none _ _
  · exact h.granted size (if protect = 0 then PAGE_READWRITE else protect) .allocations w ‹_› rfl

/-- Inside a hook a call changes nothing of the tool. -/
theorem Silent.call (h : Silent env) (c : RealCall) :
    Triple (fun w => Hooking w ∧ R w.tool) (call env c) fun _ w => Hooking w ∧ R w.tool := by
  intro w hw
  have htool : (exec (Ts3Vas.call env c) w).2.tool = w.tool := h.quiet c w (Hooking.closed hw.1)
  exact ⟨hooking_of_keeps (h.calm.call c) hw.1, htool.symm ▸ hw.2⟩

theorem Silent.attempt (h : Silent env) (c : Prop) [Decidable c] {b : Bool} :
    Triple (Exact { t with proxyActive := b }) (undoneAttempt c (undoneRedirectSlot env size protect))
      fun r w => Hooking w ∧ Undone t r.1 w.tool := by
  refine .ite (fun _ w hw => ⟨?_, ?_⟩) fun _ => .pure fun w hw => ⟨hw.1, undone_none _ _⟩
  · have hact := hooking_of_keeps (h.calm.redirectSlot size protect) hw.1
    rw [← map_undoneRedirectSlot] at hact
    exact hact
  · have hu := h.redirectSlot size protect w
    rw [hw.2] at hu
    exact hu

theorem Silent.hookedVirtualAlloc (h : Silent env) (addr type : ℕ) :
    Triple (fun w => w.tool = t) (undoneVirtualAlloc env addr size type protect) fun r w => Undone t r.1 w.tool := by
  refine .get fun w hw => .ite (fun hc => .ite (fun hr => ?_) fun _ => ?_) fun _ => ?_
  · exact Triple.bind (Q := fun _ _ => True) (fun _ _ => trivial) fun _ => .pure fun _ _ => undone_none _ _
  · exact .pure fun _ _ => undone_none _ _
  refine Triple.here (tool_rtlHookScope (R := fun u => u = t) (Q := fun (r : Option Slot × ℕ) u => Undone t r.1 u) ?_) hw
  refine Triple.bind (Q := fun _ => Exact t) (exact_setInHook true) fun _ => (exact_ensureProxyActive type).bind fun _ => ?_
  refine .get fun v ⟨b, _, hv⟩ => ?_
  refine Triple.bind (Q := fun (r : Option Slot × ℕ) w => Hooking w ∧ Undone t r.1 w.tool) ((h.attempt _).mono (fun _ e => e ▸ hv) fun _ _ h => h)
    fun r => ?_
  -- from here on nothing changes the tool
  refine Triple.bind (Q := fun _ w => Hooking w ∧ Undone t r.1 w.tool) ?_ fun p =>
    Triple.bind (Q := fun _ w => Hooking w ∧ Undone t r.1 w.tool) ?_ fun q =>
      Triple.bind (Q := fun _ w => Hooking w ∧ Undone t r.1 w.tool) (hooking_setInHook false) fun _ => .pure fun _ hv => hv.2
  · exact .ite (fun _ => .ite (fun _ => .get fun _ hw => fun _ e => e ▸ hw) fun _ => .pure fun _ hv => hv) fun _ => .pure fun _ hv => hv
  · exact .ite (fun _ => (h.call _).bind fun _ => .pure fun _ hv => hv) fun _ => .pure fun _ hv => hv

/-- A real Nt function, behind what has been undone. -/
theorem Silent.realNt (h : Silent env) (c : RealCall) (base region : Option ℕ) (slot : Option Slot) :
    Triple (fun w => Hooking w ∧ Undone t slot w.tool) ((slot, ·) <$> callNt env c base region) fun r w => Undone t r.1 w.tool :=
  Triple.map (Q := fun _ w => Undone t slot w.tool) ((h.call c).bind fun _ => .pure fun _ hv => hv.2) fun _ _ hv => hv

theorem undone_realNt (env : Env σ) (c : RealCall) (base region : Option ℕ) (P : World σ → Prop) :
    Triple P ((none, ·) <$> callNt env c base region) fun r w => Undone t r.1 w.tool :=
  Triple.map (Q := fun _ _ => True) (fun _ _ => trivial) fun _ _ _ => undone_none _ _

theorem Silent.hookedNtAllocateVirtualMemory (h : Silent env) (process : ℕ) (base : Option ℕ) (zeroBits : ℕ) (region : Option ℕ)
    (type : ℕ) : Triple (fun w => w.tool = t) (undoneNtAllocateVirtualMemory env process base zeroBits region type protect)
      fun r w => Undone t r.1 w.tool := by
  refine .get fun w hw => ?_
  cases base with
  | none => exact undone_realNt env _ _ _ _
  | some addr =>
  cases region with
  | none => exact undone_realNt env _ _ _ _
  | some size =>
    refine .ite (fun _ => undone_realNt env _ _ _ _) fun _ => ?_
    refine Triple.here (tool_rtlHookScope (R := fun u => u = t) (Q := fun (r : Option Slot × NtReply) u => Undone t r.1 u) ?_) hw
    refine Triple.bind (Q := fun _ => Exact t) (exact_setInHook true) fun _ => ?_
    refine Triple.bind (Q := fun _ v => ∃ b, Exact { t with proxyActive := b } v) ?_ fun _ => .get fun v ⟨b, hv⟩ => ?_
    · refine .ite (fun _ => (exact_ensureProxyActive type).mono (fun _ hv => hv) fun _ _ ⟨b, _, hv⟩ => ⟨b, hv⟩) fun _ => ?_
      exact .pure fun _ hv => ⟨t.proxyActive, hv⟩
    refine Triple.bind (Q := fun (r : Option Slot × ℕ) w => Hooking w ∧ Undone t r.1 w.tool) ((h.attempt _).mono (fun _ e => e ▸ hv) fun _ _ h => h)
      fun r => ?_
    exact .ite (fun _ => .pure fun _ hv => hv.2) fun _ => h.realNt _ _ _ _

theorem Silent.hookedNtAllocateVirtualMemoryEx (h : Silent env) (process : ℕ) (base region : Option ℕ) (type params count : ℕ) :
    Triple (fun w => w.tool = t) (undoneNtAllocateVirtualMemoryEx env process base region type protect params count)
      fun r w => Undone t r.1 w.tool := by
  refine .get fun w hw => .ite (fun _ => .pure fun _ _ => undone_none _ _) fun _ => ?_
  cases base with
  | none => exact undone_realNt env _ _ _ _
  | some addr =>
  cases region with
  | none => exact undone_realNt env _ _ _ _
  | some size =>
    refine .ite (fun _ => undone_realNt env _ _ _ _) fun _ => ?_
    refine Triple.here (tool_rtlHookScope (R := fun u => u = t) (Q := fun (r : Option Slot × NtReply) u => Undone t r.1 u) ?_) hw
    refine Triple.bind (Q := fun _ => Exact t) (exact_setInHook true) fun _ => ?_
    refine Triple.bind (Q := fun (r : Option Slot × ℕ) w => Hooking w ∧ Undone t r.1 w.tool) ?_ fun r => ?_
    · exact (h.attempt (b := t.proxyActive) _).mono (fun _ hv => hv) fun _ _ h => h
    · exact .ite (fun _ => .pure fun _ hv => hv.2) fun _ => h.realNt _ _ _ _

/-- Whichever way the request came. -/
theorem Silent.undone (h : Silent env) (p : Redirect) (w : World σ) :
    Undone w.tool (exec (p.undone env) w).1 (exec (p.run env) w).2.tool := by
  rw [← p.undone_run env w]
  cases p with
  | createProxyAllocation caller size protect => exact h.createProxyAllocation caller size protect w
  | virtualAlloc addr size type protect => exact h.hookedVirtualAlloc addr type w rfl
  | ntAllocateVirtualMemory process base zeroBits region type protect =>
    exact h.hookedNtAllocateVirtualMemory process base zeroBits region type w rfl
  | ntAllocateVirtualMemoryEx process base region type protect params count =>
    exact h.hookedNtAllocateVirtualMemoryEx process base region type params count w rfl

end

/-! ## What is left of the slot -/

/-- In `t'` nothing: slots, counters, records and sizes are those of `t`, and its bytes go to a later request. -/
structure Tool.RolledBack (t t' : Tool) (slot : Slot) : Prop where
  unmoved : t.sys.Unmoved t'.sys
  tables : t'.tables = t.tables
  available : t'.sys.Available slot

/-- After any calls of the allocator, with requests of any size, and while it has a node: a slot of at least a
byte that a redirect cannot commit leaves nothing behind exactly if the allocator's sum of what was asked for
has room for the size, and its count of slots for one more. The same holds of the slots of the script arena. -/
theorem rolledBack_iff {env : Env σ} (he : Silent env) :
    (∀ (a : ProxyAllocator) (ops : List Op) (w : World σ) (p : Redirect) (slot : Slot), Started a → Sys.Run Sys.Owned a ops →
      w.tool.sys = Sys.after a ops → w.tool.sys.alloc.nodeFree ≠ 0 → 0 < slot.size →
      NoWrap w.tool.sys.alloc.allocGranularity slot.size → (exec (p.undone env) w).1 = some slot →
      (w.tool.RolledBack (exec (p.run env) w).2.tool slot ↔ w.tool.sys.RoomFor slot.size)) ∧
    ∀ (granKb topDownKb : Option ℤ) (o₀ : Outcome) (startMb growMb maxMb : Option ℕ) (ops : List CorralOp) (c : Corral)
      (o : Outcome) (size type : ℕ), Corralled.StartGranted o₀ startMb →
      Run.Guarded Corralled.step Corralled.Promised (Corralled.start granKb topDownKb o₀ startMb growMb maxMb) ops →
      c = (Run.after Corralled.step (Corralled.start granKb topDownKb o₀ startMb growMb maxMb) ops).corral →
      c.Granted o (c.growSize size) → (∀ s ∈ c.segs, s.sys.alloc.nodeFree ≠ 0) → NoWrap c.gran size →
      c.Uncommitted o size type →
      (c.RolledBack (c.corralReserve o size type).2 ⟨(c.findSlot o size).1.1, size⟩ ↔
        ∀ s ∈ Corral.granting size c.segs, s.sys.RoomFor size) := by
  constructor
  · intro a ops w p slot ha hops hw hn hpos hwrap hundone
    obtain ⟨h0, haddr, hsys, htables⟩ := he.undone p w slot hundone
    have hl : w.tool.sys.Ledger := hw ▸ Sys.ledger_after ha hops
    have hslot : slot = ⟨(w.tool.sys.alloc.allocate slot.size (w.tool.sys.alloc.prefersTopDown slot.size)).1, slot.size⟩ := by
      rw [← haddr]
    rw [haddr] at h0
    have havailable := hl.available hpos hwrap hn h0
    rw [← hslot, ← hsys] at havailable
    have hunmoved := hl.unmoved_iff hpos hwrap h0
    rw [← hsys] at hunmoved
    exact ⟨fun h => hunmoved.1 h.unmoved, fun h => ⟨hunmoved.2 h, htables, havailable⟩⟩
  · rintro granKb topDownKb o₀ startMb growMb maxMb ops c o size type ho₀ hops rfl ho hn hwrap hu
    have hl := Corralled.ledgered_after (Corralled.start_ledgered granKb topDownKb growMb maxMb ho₀) hops
    exact hl.rolledBack hwrap ho hn hu

theorem silent_scripted : Silent Env.scripted := by
  refine ⟨calm_scripted, fun c w _ => ?_⟩
  have hreal : (exec (Env.scripted.real c) w).2.tool = (Env.scripted.real c w).2.tool := rfl
  rw [hreal]
  unfold Env.scripted
  dsimp only
  cases w.os <;> rfl

/-- A system that commits nothing. -/
def World.bare : World (List ℕ) := World.install Sys.arena1G []

/-- A script arena of 1 MB. -/
def Corral.oneMb : Corral := (Corralled.start none none ⟨0x10000000, true, true, true⟩ (some 1) none none).corral

/-- 64 KB asked for. -/
def Redirect.whole : Redirect := .virtualAlloc 0 0x10000 (MEM_RESERVE ||| MEM_COMMIT) PAGE_READWRITE

theorem rolledBack_arena1G :
    World.bare.tool.RolledBack (exec (Redirect.whole.run Env.scripted) World.bare).2.tool ⟨0x40000000, 0x10000⟩ ∧
    Corral.oneMb.RolledBack (Corral.oneMb.corralReserve ⟨0x20000000, true, true, false⟩ 0x10000 MEM_COMMIT).2
      ⟨(Corral.oneMb.findSlot ⟨0x20000000, true, true, false⟩ 0x10000).1.1, 0x10000⟩ := by
  obtain ⟨harena, hcorral⟩ := rolledBack_iff silent_scripted
  constructor
  · refine (harena _ [] _ _ _ Sys.arena1G_started trivial rfl ?_ ?_ ?_ ?_).2 ?_
    all_goals decide +kernel
  · refine (hcorral none none ⟨0x10000000, true, true, true⟩ (some 1) none none [] _ _ _ _ (fun _ => ?_) trivial rfl
      ?_ ?_ ?_ ⟨?_, ?_, ?_⟩).2 ?_
    all_goals decide +kernel

/-- A request of 4 GB less a byte counts in full and takes no room. -/
def World.wrapped : World (List ℕ) :=
  (exec ((Redirect.virtualAlloc 0 0xFFFFFFFF (MEM_RESERVE ||| MEM_COMMIT) PAGE_READWRITE).run Env.scripted) World.bare).2

/-- The calls of the allocator in it. -/
def wrappedOps : List Op := [.allocate 0xFFFFFFFF true, .free ⟨0x80000000, 0xFFFFFFFF⟩]

/-- After it, 64 KB that cannot be committed take its count away. -/
theorem not_rolledBack_wrapped : Started Sys.arena1G ∧ Sys.Run Sys.Owned Sys.arena1G wrappedOps ∧
    World.wrapped.tool.sys = Sys.after Sys.arena1G wrappedOps ∧ World.wrapped.tool.sys.alloc.nodeFree ≠ 0 ∧
    NoWrap World.wrapped.tool.sys.alloc.allocGranularity 0x10000 ∧
    (exec (Redirect.whole.undone Env.scripted) World.wrapped).1 = some ⟨0x40000000, 0x10000⟩ ∧
    ¬ World.wrapped.tool.RolledBack (exec (Redirect.whole.run Env.scripted) World.wrapped).2.tool ⟨0x40000000, 0x10000⟩ := by
  refine ⟨Sys.arena1G_started, by decide +kernel, by decide +kernel, by decide +kernel, by decide +kernel, by decide +kernel,
    fun h => ?_⟩
  exact absurd h.unmoved.liveRequestedBytes (by decide +kernel)

end Ts3Vas
