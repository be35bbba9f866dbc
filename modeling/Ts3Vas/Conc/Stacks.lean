/-
The stack traces of StackWalker.cpp: threads that capture, the worker that logs, and the destructor, over
one bounded queue and one semaphore. Atomic loads, critical sections and semaphore calls are the steps,
and they come in any order.
-/
import Ts3Vas.Lib.Run

namespace Ts3Vas.StackWalker

def MAX_STACK_FRAMES : ℕ := 32

def MAX_QUEUE_SIZE : ℕ := 50

def maxCount : ℕ := 2 ^ 31 - 1

structure StackWalkRequest where
  frames : List ℕ
  reason : List Char
  threadId : ℕ
  deriving DecidableEq, Repr

/-- What the worker is about to do; in `log` it is in `LogRawFrames`. -/
inductive Worker
  | notStarted
  | test
  | wait
  /-- The wait has taken a permit; about to read `m_stop` again. -/
  | woken
  | take
  | log (request : StackWalkRequest)
  /-- Out of the loop, with the permits that it took and did not use. -/
  | drain (permits : ℕ)
  /-- It has counted what is left of the queue and returned. -/
  | exited (permits remainingCount : ℕ)
  | terminated (permits : ℕ) (inHand : List StackWalkRequest)
  deriving DecidableEq, Repr

namespace Worker

/-- The request that the worker took and has not logged. -/
def inHand : Worker → List StackWalkRequest
  | .log request => [request]
  | .terminated _ inHand => inHand
  | _ => []

/-- The permits that the worker took and has no request for. -/
def permits : Worker → ℕ
  | .woken | .take => 1
  | .drain n | .exited n _ | .terminated n _ => n
  | _ => 0

def looping : Worker → Bool
  | .drain _ | .exited .. | .terminated .. => false
  | _ => true

end Worker

inductive Destructor
  | none
  | stopping
  /-- It has released the semaphore to wake the worker, and waits for it. -/
  | waiting
  deriving DecidableEq, Repr

/-- The permits that the destructor has put into the semaphore. -/
def Destructor.permits : Destructor → ℕ
  | .waiting => 1
  | _ => 0

inductive Waited
  | object
  | timeout
  | failed
  deriving DecidableEq, Repr

structure Walker where
  /-- The count of `m_semaphore`, if CreateSemaphore made it. -/
  semaphore : Option ℕ
  threadHandle : Bool
  stop : Bool
  queue : List StackWalkRequest
  droppedCaptures : ℕ
  worker : Worker
  destructor : Destructor
  /-- Built by calls that have not entered the critical section. -/
  built : List StackWalkRequest
  /-- Queued by calls that have not released the semaphore. -/
  owing : List StackWalkRequest
  /-- What was queued, what the worker has logged and what found the queue full, each in order. -/
  accepted : List StackWalkRequest
  logged : List StackWalkRequest
  refused : List StackWalkRequest

inductive Act
  /-- `Start`, and whether CreateThread works. -/
  | start (created : Bool)
  /-- A call of `CaptureAndLogStackAsync` up to its critical section. -/
  | capture (reason : Option (List Char)) (threadId : ℕ) (frames : List ℕ)
  | enqueue (request : StackWalkRequest)
  /-- Its ReleaseSemaphore, and the end of it. -/
  | release (request : StackWalkRequest)
  | waited (result : Waited)
  | work
  | destroy
  deriving DecidableEq, Repr

namespace Walker

def construct (created : Bool) : Walker where
  semaphore := if created then some 0 else none
  threadHandle := false
  stop := false
  queue := []
  droppedCaptures := 0
  worker := .notStarted
  destructor := .none
  built := []
  owing := []
  accepted := []
  logged := []
  refused := []

def count (s : Walker) : ℕ := s.semaphore.getD 0

def releaseSemaphore (s : Walker) : Walker :=
  { s with semaphore := s.semaphore.map fun n => if n < maxCount then n + 1 else n }

def request? (s : Walker) (reason : Option (List Char)) (threadId : ℕ) (frames : List ℕ) : Option StackWalkRequest :=
  if s.stop then none
  else if s.semaphore.isNone || !s.threadHandle then none
  else if (frames.take MAX_STACK_FRAMES).isEmpty then none
  else some ⟨frames.take MAX_STACK_FRAMES, (reason.getD "Unknown".toList).take 127, threadId⟩

def push (s : Walker) (request : StackWalkRequest) : Walker :=
  if s.queue.length < MAX_QUEUE_SIZE then
    { s with
      queue := s.queue ++ [request]
      built := s.built.erase request
      owing := request :: s.owing
      accepted := s.accepted ++ [request] }
  else
    { s with
      droppedCaptures := (s.droppedCaptures + 1) % 2 ^ 32
      built := s.built.erase request
      refused := s.refused ++ [request] }

def pop (s : Walker) : Walker :=
  match s.queue with
  | [] => { s with worker := .test }
  | request :: queue => { s with worker := .log request, queue := queue }

def work (s : Walker) : Walker :=
  match s.worker with
  | .test => { s with worker := if s.stop then .drain 0 else .wait }
  | .woken => { s with worker := if s.stop then .drain 1 else .take }
  | .take => s.pop
  | .log request => { s with worker := .test, logged := s.logged ++ [request] }
  | .drain n => { s with worker := .exited n s.queue.length }
  | .notStarted | .wait | .exited .. | .terminated .. => s

def step (s : Walker) : Act → Walker
  | .start created =>
    if s.threadHandle || s.semaphore.isNone || !created then s
    else { s with threadHandle := true, worker := .test }
  | .capture reason threadId frames =>
    match s.request? reason threadId frames with
    | none => s
    | some request => { s with built := request :: s.built }
  | .enqueue request => s.push request
  | .release request => { s.releaseSemaphore with owing := s.owing.erase request }
  | .waited .object => { s with semaphore := s.semaphore.map (· - 1), worker := .woken }
  | .waited .timeout => { s with worker := .test }
  | .waited .failed => { s with worker := .drain 0 }
  | .work => s.work
  | .destroy =>
    match s.destructor with
    | .none => { s with stop := true, destructor := .stopping }
    | .stopping => { s.releaseSemaphore with destructor := .waiting }
    | .waiting =>
      -- the wait of 2000 ms ends with the worker's exit, or the worker is terminated
      match s.worker with
      | .notStarted | .exited .. => s
      | w => { s with worker := .terminated w.permits w.inHand }

/-- The order of the steps of each thread. A wait takes a permit where there is one, and times out
where there is none. -/
def Allowed (s : Walker) : Act → Prop
  | .start _ | .capture .. | .work => True
  | .enqueue request => request ∈ s.built
  | .release request => request ∈ s.owing
  | .waited .object => s.worker = .wait ∧ 0 < s.count
  | .waited .timeout => s.worker = .wait ∧ s.count = 0
  | .waited .failed => s.worker = .wait
  | .destroy => True

instance (s : Walker) : (act : Act) → Decidable (s.Allowed act)
  | .start _ | .capture .. | .work | .destroy => inferInstanceAs (Decidable True)
  | .enqueue _ | .release _ => inferInstanceAs (Decidable (_ ∈ _))
  | .waited .object | .waited .timeout => inferInstanceAs (Decidable (_ ∧ _))
  | .waited .failed => inferInstanceAs (Decidable (_ = _))

abbrev Run (s : Walker) (acts : List Act) : Prop := Run.Guarded step Allowed s acts

abbrev after (s : Walker) (acts : List Act) : Walker := Run.after step s acts

/-! ## The invariant -/

/-- The invariant of every order of steps. Each queued request has its permit: in the semaphore, with the
call that has yet to release it, or with the worker that is about to take it. -/
structure Kept (s : Walker) : Prop where
  fifo : s.accepted = s.logged ++ s.worker.inHand ++ s.queue
  room : s.queue.length ≤ MAX_QUEUE_SIZE
  dropped : s.droppedCaptures = s.refused.length % 2 ^ 32
  permits : s.semaphore.isSome → s.count + s.owing.length + s.worker.permits = s.queue.length + s.destructor.permits
  /-- The permit in hand is not the one that the destructor put in. -/
  taken : s.worker = .take → s.destructor.permits ≤ s.count
  stopped : s.destructor ≠ .none ↔ s.stop
  started : s.threadHandle = false → s.worker = .notStarted
  bare : s.semaphore = none → s.threadHandle = false ∧ s.built = [] ∧ s.owing = []

section
variable {s : Walker} {request : StackWalkRequest}

theorem construct_kept (created : Bool) : (construct created).Kept where
  fifo := rfl
  room := Nat.zero_le _
  dropped := rfl
  permits := by cases created <;> simp [construct, count, Worker.permits, Destructor.permits]
  taken := nofun
  stopped := by simp [construct]
  started := fun _ => rfl
  bare := fun _ => ⟨rfl, rfl, rfl⟩

theorem Kept.semaphore_of_built (h : s.Kept) (hr : request ∈ s.built) : s.semaphore.isSome := by
  rw [Option.isSome_iff_ne_none]
  intro hn
  rw [(h.bare hn).2.1] at hr
  cases hr

theorem Kept.semaphore_of_owing (h : s.Kept) (hr : request ∈ s.owing) : s.semaphore.isSome := by
  rw [Option.isSome_iff_ne_none]
  intro hn
  rw [(h.bare hn).2.2] at hr
  cases hr

theorem Kept.semaphore_of_worker (h : s.Kept) (hw : s.worker ≠ .notStarted) : s.semaphore.isSome := by
  rw [Option.isSome_iff_ne_none]
  exact fun hn => hw (h.started (h.bare hn).1)

theorem Destructor.permits_le (d : Destructor) : d.permits ≤ 1 := by cases d <;> decide

theorem Kept.count_lt (h : s.Kept) : s.count < maxCount := by
  rcases hsem : s.semaphore with _ | n
  · simp [count, hsem, maxCount]
  · have hp := h.permits (by rw [hsem]; rfl)
    have hroom := h.room
    have hd := Destructor.permits_le s.destructor
    simp only [MAX_QUEUE_SIZE, maxCount] at *
    omega

theorem releaseSemaphore_count (h : s.Kept) (hs : s.semaphore.isSome) : s.releaseSemaphore.count = s.count + 1 := by
  have hlt := h.count_lt
  obtain ⟨n, hn⟩ := Option.isSome_iff_exists.1 hs
  simp only [count, hn, Option.getD_some] at hlt
  simp only [releaseSemaphore, count, hn, Option.map_some, if_pos hlt, Option.getD_some]

theorem releaseSemaphore_isSome : s.releaseSemaphore.semaphore.isSome = s.semaphore.isSome := by simp [releaseSemaphore]

theorem releaseSemaphore_eq_none : s.releaseSemaphore.semaphore = none ↔ s.semaphore = none := by simp [releaseSemaphore]

/-! ## What each step keeps -/

theorem Kept.push (h : s.Kept) (hr : request ∈ s.built) : (s.push request).Kept := by
  have hsem := h.semaphore_of_built hr
  have hsome : s.semaphore ≠ none := Option.isSome_iff_ne_none.1 hsem
  unfold Walker.push
  split
  · rename_i hroom
    constructor
    case fifo => simp only [h.fifo, List.append_assoc]
    case room => rw [List.length_append]; exact hroom
    case dropped => exact h.dropped
    case permits =>
      intro _
      have hp := h.permits hsem
      simp only [count, List.length_cons, List.length_append, List.length_nil] at hp ⊢
      omega
    case taken => exact h.taken
    case stopped => exact h.stopped
    case started => exact h.started
    case bare => exact fun hn => absurd hn hsome
  · constructor
    case fifo => exact h.fifo
    case room => exact h.room
    case dropped => simp only [h.dropped, List.length_append, List.length_singleton, Nat.mod_add_mod]
    case permits => exact h.permits
    case taken => exact h.taken
    case stopped => exact h.stopped
    case started => exact h.started
    case bare => exact fun hn => absurd hn hsome

theorem Kept.release (h : s.Kept) (hr : request ∈ s.owing) : (s.step (.release request)).Kept := by
  have hsem := h.semaphore_of_owing hr
  have hcount := releaseSemaphore_count h hsem
  constructor
  case fifo => exact h.fifo
  case room => exact h.room
  case dropped => exact h.dropped
  case permits =>
    intro _
    have hp := h.permits hsem
    have hlen := List.length_erase_of_mem hr
    have hpos := List.length_pos_of_mem hr
    show s.releaseSemaphore.count + (s.owing.erase request).length + s.worker.permits = _
    rw [hcount, hlen]
    change _ = s.queue.length + s.destructor.permits
    omega
  case taken =>
    intro ht
    show s.destructor.permits ≤ s.releaseSemaphore.count
    rw [hcount]
    exact (h.taken ht).trans (Nat.le_succ _)
  case stopped => exact h.stopped
  case started => exact h.started
  case bare => exact fun hn => absurd (releaseSemaphore_eq_none.1 hn) (Option.isSome_iff_ne_none.1 hsem)

theorem Kept.queue_ne_nil (h : s.Kept) (hw : s.worker = .take) : s.queue ≠ [] := by
  have hp := h.permits (h.semaphore_of_worker (by rw [hw]; nofun))
  have hd := h.taken hw
  rw [hw, Worker.permits] at hp
  intro hq
  rw [hq, List.length_nil] at hp
  omega

theorem Kept.pop (h : s.Kept) (hw : s.worker = .take) : s.pop.Kept := by
  have hsem := h.semaphore_of_worker (s := s) (by rw [hw]; nofun)
  have hp := h.permits hsem
  unfold Walker.pop
  split
  case h_1 hq => exact absurd hq (h.queue_ne_nil hw)
  case h_2 request queue hq =>
    constructor
    case fifo => simp only [h.fifo, hw, hq, Worker.inHand, List.append_nil, List.append_assoc, List.singleton_append]
    case room =>
      have hroom := h.room
      rw [hq, List.length_cons] at hroom
      exact (Nat.le_succ _).trans hroom
    case dropped => exact h.dropped
    case permits =>
      intro _
      rw [hw, hq, List.length_cons, Worker.permits] at hp
      change s.count + s.owing.length + 0 = queue.length + s.destructor.permits
      omega
    case taken => nofun
    case stopped => exact h.stopped
    case started => exact fun ht => absurd (h.started ht) (by rw [hw]; nofun)
    case bare => exact fun hn => absurd hn (Option.isSome_iff_ne_none.1 hsem)

/-- The worker moves on, and all but its own clauses stay. -/
theorem Kept.move (h : s.Kept) {w : Worker} (hs : s.worker ≠ .notStarted) (hhand : w.inHand = s.worker.inHand)
    (hpermits : w.permits = s.worker.permits) (htake : w = .take → s.destructor.permits ≤ s.count) :
    ({ s with worker := w } : Walker).Kept where
  fifo := by rw [h.fifo, hhand]
  room := h.room
  dropped := h.dropped
  permits := by rw [hpermits]; exact h.permits
  taken := htake
  stopped := h.stopped
  started := fun ht => absurd (h.started ht) hs
  bare := h.bare

theorem Kept.not_waiting (h : s.Kept) (hs : s.stop = false) : s.destructor.permits = 0 := by
  have hd : ¬ s.destructor ≠ .none := fun hd => by simp [h.stopped.1 hd] at hs
  rw [not_not.1 hd]
  rfl

theorem Kept.work (h : s.Kept) : s.work.Kept := by
  unfold Walker.work
  split
  case h_1 hw =>
    by_cases hs : s.stop
    · rw [if_pos hs]
      exact h.move (by rw [hw]; nofun) (by rw [hw]; rfl) (by rw [hw]; rfl) nofun
    · rw [if_neg hs]
      exact h.move (by rw [hw]; nofun) (by rw [hw]; rfl) (by rw [hw]; rfl) nofun
  case h_2 hw =>
    by_cases hs : s.stop
    · rw [if_pos hs]
      exact h.move (by rw [hw]; nofun) (by rw [hw]; rfl) (by rw [hw]; rfl) nofun
    · rw [if_neg hs]
      have hd := h.not_waiting (by simpa using hs)
      exact h.move (by rw [hw]; nofun) (by rw [hw]; rfl) (by rw [hw]; rfl) fun _ => hd.le.trans (Nat.zero_le _)
  case h_3 hw => exact h.pop hw
  case h_4 request hw =>
    have hsem := h.semaphore_of_worker (s := s) (by rw [hw]; nofun)
    constructor
    case fifo => simp only [h.fifo, hw, Worker.inHand, List.append_nil]
    case room => exact h.room
    case dropped => exact h.dropped
    case permits =>
      intro _
      have hp := h.permits hsem
      rw [hw] at hp
      exact hp
    case taken => nofun
    case stopped => exact h.stopped
    case started => exact fun ht => absurd (h.started ht) (by rw [hw]; nofun)
    case bare => exact fun hn => absurd hn (Option.isSome_iff_ne_none.1 hsem)
  case h_5 n hw => exact h.move (by rw [hw]; nofun) (by rw [hw]; rfl) (by rw [hw]; rfl) nofun
  all_goals exact h

theorem Kept.start (h : s.Kept) (created : Bool) : (s.step (.start created)).Kept := by
  simp only [Walker.step]
  split
  · exact h
  · rename_i hstart
    simp only [Bool.or_eq_true, not_or, Bool.not_eq_true, Option.isNone_eq_false_iff] at hstart
    have hw := h.started hstart.1.1
    have hsem : s.semaphore ≠ none := Option.isSome_iff_ne_none.1 hstart.1.2
    refine ⟨?_, h.room, h.dropped, fun hs => ?_, nofun, h.stopped, nofun, fun hn => absurd hn hsem⟩
    · have hf := h.fifo
      rw [hw] at hf
      exact hf
    · have hp := h.permits hs
      rw [hw] at hp
      exact hp

theorem Kept.capture (h : s.Kept) (reason : Option (List Char)) (threadId : ℕ) (frames : List ℕ) :
    (s.step (.capture reason threadId frames)).Kept := by
  simp only [Walker.step]
  split
  case h_1 => exact h
  case h_2 request hr =>
    refine ⟨h.fifo, h.room, h.dropped, h.permits, h.taken, h.stopped, h.started, fun hn => ?_⟩
    change s.semaphore = none at hn
    simp [request?, hn] at hr

theorem Kept.waited (h : s.Kept) {result : Waited} (hop : s.Allowed (.waited result)) :
    (s.step (.waited result)).Kept := by
  cases result
  case object =>
    obtain ⟨hw, hpos⟩ := hop
    have hsem := h.semaphore_of_worker (s := s) (by rw [hw]; nofun)
    obtain ⟨n, hn⟩ := Option.isSome_iff_exists.1 hsem
    have hp := h.permits hsem
    simp only [hw, count, hn, Option.getD_some, Worker.permits] at hp hpos
    constructor
    case fifo =>
      have hf := h.fifo
      rw [hw] at hf
      exact hf
    case room => exact h.room
    case dropped => exact h.dropped
    case permits =>
      intro _
      simp only [step, count, hn, Option.map_some, Option.getD_some, Worker.permits]
      omega
    case taken => nofun
    case stopped => exact h.stopped
    case started => exact fun ht => absurd (h.started ht) (by rw [hw]; nofun)
    case bare =>
      intro hnone
      simp [step, hn] at hnone
  case timeout => exact h.move (by rw [hop.1]; nofun) (by rw [hop.1]; rfl) (by rw [hop.1]; rfl) nofun
  case failed =>
    have hw : s.worker = .wait := hop
    exact h.move (by rw [hw]; nofun) (by rw [hw]; rfl) (by rw [hw]; rfl) nofun

theorem Kept.destroy (h : s.Kept) : (s.step .destroy).Kept := by
  simp only [Walker.step]
  split
  case h_1 hd =>
    refine ⟨h.fifo, h.room, h.dropped, fun hs => ?_, fun _ => Nat.zero_le _, by simp, h.started, h.bare⟩
    have hp := h.permits hs
    rw [hd] at hp
    exact hp
  case h_2 hd =>
    constructor
    case fifo => exact h.fifo
    case room => exact h.room
    case dropped => exact h.dropped
    case permits =>
      intro hs
      rw [releaseSemaphore_isSome] at hs
      have hp := h.permits hs
      rw [hd] at hp
      show s.releaseSemaphore.count + s.owing.length + s.worker.permits = s.queue.length + 1
      rw [releaseSemaphore_count h hs]
      change _ = s.queue.length + 0 at hp
      omega
    case taken =>
      intro ht
      have hs := h.semaphore_of_worker (s := s) (by rw [show s.worker = .take from ht]; nofun)
      show 1 ≤ s.releaseSemaphore.count
      rw [releaseSemaphore_count h hs]
      omega
    case stopped => exact ⟨fun _ => h.stopped.1 (by rw [hd]; nofun), fun _ => nofun⟩
    case started => exact h.started
    case bare =>
      intro hn
      exact h.bare (releaseSemaphore_eq_none.1 hn)
  case h_3 =>
    split
    case h_1 => exact h
    case h_2 => exact h
    case h_3 hs _ => exact h.move hs rfl rfl nofun

theorem Kept.step (h : s.Kept) {act : Act} (hop : s.Allowed act) : (s.step act).Kept := by
  cases act with
  | start created => exact h.start created
  | capture reason threadId frames => exact h.capture reason threadId frames
  | enqueue request => exact h.push hop
  | release request => exact h.release hop
  | waited result => exact h.waited hop
  | work => exact h.work
  | destroy => exact h.destroy

theorem Kept.run (h : s.Kept) {acts : List Act} (hrun : Run s acts) : (after s acts).Kept :=
  hrun.invariant (fun _ _ h hop => h.step hop) h

end

/-! ## What comes of a request -/

def enqueued : List Act → List StackWalkRequest
  | [] => []
  | .enqueue request :: acts => request :: enqueued acts
  | _ :: acts => enqueued acts

section
variable {s : Walker} {acts : List Act}

theorem enqueued_append (acts' : List Act) : ∀ acts : List Act, enqueued (acts ++ acts') = enqueued acts ++ enqueued acts'
  | [] => rfl
  | act :: acts => by
    rw [List.cons_append]
    cases act <;> simp only [enqueued, enqueued_append acts' acts, List.cons_append]

theorem work_decided (s : Walker) : s.work.accepted = s.accepted ∧ s.work.refused = s.refused := by
  unfold work pop
  split
  case h_3 => split <;> exact ⟨rfl, rfl⟩
  all_goals exact ⟨rfl, rfl⟩

/-- Only the critical section of a call adds to what is accepted or refused, -/
theorem step_undecided (s : Walker) {act : Act} (h : ∀ request, act ≠ .enqueue request) :
    (s.step act).accepted = s.accepted ∧ (s.step act).refused = s.refused := by
  cases act with
  | enqueue request => exact absurd rfl (h request)
  | start created => simp only [step]; split <;> exact ⟨rfl, rfl⟩
  | capture reason threadId frames => simp only [step]; split <;> exact ⟨rfl, rfl⟩
  | release request => exact ⟨rfl, rfl⟩
  | waited result => cases result <;> exact ⟨rfl, rfl⟩
  | work => exact work_decided s
  | destroy =>
    simp only [step]
    split
    case h_3 => split <;> exact ⟨rfl, rfl⟩
    all_goals exact ⟨rfl, rfl⟩

/-- and it adds its request to one of the two. -/
theorem step_decided (s : Walker) (act : Act) :
    (s.step act).accepted = s.accepted ++ enqueued [act] ∧ (s.step act).refused = s.refused ∨
    (s.step act).accepted = s.accepted ∧ (s.step act).refused = s.refused ++ enqueued [act] := by
  by_cases h : ∃ request, act = .enqueue request
  · obtain ⟨request, rfl⟩ := h
    simp only [step, push]
    split
    · exact .inl ⟨rfl, rfl⟩
    · exact .inr ⟨rfl, rfl⟩
  · push Not at h
    have hnil : enqueued [act] = [] := by
      cases act <;> first | rfl | exact absurd rfl (h _)
    rw [hnil, List.append_nil]
    exact .inl (step_undecided s h)

/-- Every request that enters the critical section is accepted or refused, once, and the accepted ones keep
their order. -/
theorem after_decided : ∀ (acts : List Act) (s : Walker), ∃ l r, (after s acts).accepted = s.accepted ++ l ∧
    (after s acts).refused = s.refused ++ r ∧ l.Sublist (enqueued acts) ∧ (enqueued acts).Perm (l ++ r)
  | [], _ => ⟨[], [], (List.append_nil _).symm, (List.append_nil _).symm, .slnil, .nil⟩
  | act :: acts, s => by
    obtain ⟨l, r, hl, hr, hsub, hperm⟩ := after_decided acts (s.step act)
    rw [show act :: acts = [act] ++ acts from rfl, enqueued_append]
    rw [show after s ([act] ++ acts) = after (s.step act) acts from rfl, hl, hr]
    rcases step_decided s act with ⟨ha, hf⟩ | ⟨ha, hf⟩
    · refine ⟨enqueued [act] ++ l, r, by rw [ha, List.append_assoc], by rw [hf], hsub.append_left _, ?_⟩
      rw [List.append_assoc]
      exact hperm.append_left _
    · refine ⟨l, enqueued [act] ++ r, by rw [ha], by rw [hf, List.append_assoc], ?_, ?_⟩
      · exact hsub.trans (List.sublist_append_right ..)
      · exact (hperm.append_left _).trans (List.perm_append_comm_assoc ..)

end

/-- In any order of the steps of any number of threads, the worker and the destructor: what has been logged,
what the worker has in hand and what is queued are the accepted requests, in the order of their critical
sections; each request that got there is accepted or counted as dropped; and the queue stays bounded. -/
theorem logged_in_order {created : Bool} {acts : List Act} (hrun : Run (construct created) acts) :
    let s := after (construct created) acts
    s.accepted = s.logged ++ s.worker.inHand ++ s.queue ∧ s.accepted.Sublist (enqueued acts) ∧
      (enqueued acts).Perm (s.accepted ++ s.refused) ∧ s.droppedCaptures = s.refused.length % 2 ^ 32 ∧
      s.queue.length ≤ MAX_QUEUE_SIZE := by
  intro s
  have h : s.Kept := (construct_kept created).run hrun
  obtain ⟨l, r, hl, hr, hsub, hperm⟩ := after_decided acts (construct created)
  have hs : s.accepted = l := hl
  have hs' : s.refused = r := hr
  exact ⟨h.fifo, hs ▸ hsub, by rw [hs, hs']; exact hperm, h.dropped, h.room⟩

/-- A thread is captured while the worker waits, and the worker logs it. -/
theorem logged_in_order_capture :
    let acts := [.start true, .capture none 7 [1, 2], .work, .enqueue ⟨[1, 2], "Unknown".toList, 7⟩,
      .release ⟨[1, 2], "Unknown".toList, 7⟩, .waited .object, .work, .work, .work]
    let s := after (construct true) acts
    s.accepted = s.logged ++ s.worker.inHand ++ s.queue ∧ s.accepted.Sublist (enqueued acts) ∧
      (enqueued acts).Perm (s.accepted ++ s.refused) ∧ s.droppedCaptures = s.refused.length % 2 ^ 32 ∧
      s.queue.length ≤ MAX_QUEUE_SIZE :=
  logged_in_order (by decide)

/-- No wake-up is lost or made up: the permits in the semaphore, the releases that callers still owe and the
permits that the worker took for no request are as many as the queued requests and the permit that the destructor
put in. So the worker that has taken a permit for a request finds one, and the worker that finds no permit
leaves only requests that are about to be released. -/
theorem permits_match_queue {created : Bool} {acts : List Act} (hrun : Run (construct created) acts) :
    let s := after (construct created) acts
    (s.semaphore.isSome → s.count + s.owing.length + s.worker.permits = s.queue.length + s.destructor.permits) ∧
    (s.worker = .take → s.queue ≠ []) ∧
    (s.worker = .wait → s.count = 0 → s.queue.length ≤ s.owing.length) ∧ s.count < maxCount := by
  intro s
  have h : s.Kept := (construct_kept created).run hrun
  refine ⟨h.permits, h.queue_ne_nil, fun hw hc => ?_, h.count_lt⟩
  have hp := h.permits (h.semaphore_of_worker (by rw [hw]; nofun))
  rw [hw, hc] at hp
  change 0 + s.owing.length + 0 = _ at hp
  omega

/-- Between the two releases of two captured threads the worker has taken the first permit. -/
theorem permits_match_queue_two :
    let s := after (construct true) [.start true, .work, .capture none 7 [1], .capture none 8 [2],
      .enqueue ⟨[1], "Unknown".toList, 7⟩, .enqueue ⟨[2], "Unknown".toList, 8⟩, .release ⟨[2], "Unknown".toList, 8⟩,
      .waited .object]
    (s.semaphore.isSome → s.count + s.owing.length + s.worker.permits = s.queue.length + s.destructor.permits) ∧
    (s.worker = .take → s.queue ≠ []) ∧
    (s.worker = .wait → s.count = 0 → s.queue.length ≤ s.owing.length) ∧ s.count < maxCount :=
  permits_match_queue (by decide)

/-! ## The worker catches up -/

/-- Steps of the worker that take a permit where they can. -/
def ByWorker (act : Act) : Prop := act = .work ∨ act = .waited .object

/-- How many steps the worker is away from having logged everything. -/
def togo (s : Walker) : ℕ := match s.worker with
  | .log _ => 5 * s.queue.length + 1
  | .test => 5 * s.queue.length
  | .wait => 5 * s.queue.length - 1
  | .woken => 5 * s.queue.length - 2
  | .take => 5 * s.queue.length - 3
  | _ => 0

/-- Nothing owed, nothing stopped, and the worker in its loop. -/
structure Quiet (s : Walker) : Prop where
  kept : s.Kept
  running : s.stop = false
  settled : s.owing = []
  looping : s.worker.looping
  started : s.worker ≠ .notStarted

/-- The worker has a step to take, and comes nearer, as long as anything is queued or in hand. -/
theorem Quiet.advance {s : Walker} (h : s.Quiet) (hleft : s.queue ≠ [] ∨ s.worker.inHand ≠ []) :
    ∃ act, ByWorker act ∧ s.Allowed act ∧ (s.step act).Quiet ∧ (s.step act).accepted = s.accepted ∧
      (s.step act).togo < s.togo := by
  have hp := h.kept.permits (h.kept.semaphore_of_worker h.started)
  rw [h.settled, h.kept.not_waiting h.running, List.length_nil] at hp
  have hkept := h.kept.work
  have hrun := h.running
  have hqueued : s.worker.inHand = [] → 0 < s.queue.length := fun hn =>
    List.length_pos_iff.2 (hleft.resolve_right fun hne => hne hn)
  cases hw : s.worker with
  | notStarted => exact absurd hw h.started
  | test =>
    have e : s.step .work = { s with worker := .wait } := by simp [step, work, hw, hrun]
    have hq := hqueued (by rw [hw]; rfl)
    refine ⟨.work, .inl rfl, trivial, e ▸ ⟨?_, hrun, h.settled, rfl, nofun⟩, by rw [e], ?_⟩
    · rw [← e]; exact hkept
    · simp only [e, togo, hw]
      omega
  | wait =>
    have hq := hqueued (by rw [hw]; rfl)
    have hpos : 0 < s.count := by
      rw [hw] at hp
      change s.count + 0 + 0 = _ at hp
      omega
    have hop : s.Allowed (.waited .object) := ⟨hw, hpos⟩
    refine ⟨.waited .object, .inr rfl, hop, ⟨h.kept.step hop, hrun, h.settled, rfl, nofun⟩, rfl, ?_⟩
    simp only [step, togo, hw]
    omega
  | woken =>
    have e : s.step .work = { s with worker := .take } := by simp [step, work, hw, hrun]
    have hq := hqueued (by rw [hw]; rfl)
    refine ⟨.work, .inl rfl, trivial, e ▸ ⟨?_, hrun, h.settled, rfl, nofun⟩, by rw [e], ?_⟩
    · rw [← e]; exact hkept
    · simp only [e, togo, hw]
      omega
  | take =>
    obtain ⟨request, queue, hq⟩ := List.exists_cons_of_ne_nil (h.kept.queue_ne_nil hw)
    have e : s.step .work = { s with worker := .log request, queue := queue } := by simp [step, work, pop, hw, hq]
    refine ⟨.work, .inl rfl, trivial, e ▸ ⟨?_, hrun, h.settled, rfl, nofun⟩, by rw [e], ?_⟩
    · rw [← e]; exact hkept
    · simp only [e, togo, hw, hq, List.length_cons]
      omega
  | log request =>
    have e : s.step .work = { s with worker := .test, logged := s.logged ++ [request] } := by simp [step, work, hw]
    refine ⟨.work, .inl rfl, trivial, e ▸ ⟨?_, hrun, h.settled, rfl, nofun⟩, by rw [e], ?_⟩
    · rw [← e]; exact hkept
    · simp [e, togo, hw]
  | drain n => exact absurd h.looping (by rw [hw]; nofun)
  | exited n r => exact absurd h.looping (by rw [hw]; nofun)
  | terminated n l => exact absurd h.looping (by rw [hw]; nofun)

theorem Quiet.done {s : Walker} (h : s.Quiet) (hleft : ¬ (s.queue ≠ [] ∨ s.worker.inHand ≠ [])) :
    s.queue = [] ∧ s.logged = s.accepted := by
  push Not at hleft
  have hf := h.kept.fifo
  rw [hleft.1, hleft.2, List.append_nil, List.append_nil] at hf
  exact ⟨hleft.1, hf.symm⟩

theorem Quiet.drain : ∀ (n : ℕ) {s : Walker}, s.Quiet → s.togo ≤ n → ∃ acts, (∀ act ∈ acts, ByWorker act) ∧
    acts.length ≤ n ∧ Run s acts ∧ (after s acts).queue = [] ∧ (after s acts).logged = s.accepted
  | n, s, h, hn => by
    by_cases hleft : s.queue ≠ [] ∨ s.worker.inHand ≠ []
    · obtain ⟨act, hby, hop, hq, ha, hlt⟩ := h.advance hleft
      obtain ⟨m, rfl⟩ : ∃ m, n = m + 1 := ⟨n - 1, by omega⟩
      obtain ⟨acts, hall, hlen, hrun, hempty, hlog⟩ := Quiet.drain m hq (by omega)
      refine ⟨act :: acts, ?_, by simpa using hlen, ⟨hop, hrun⟩, hempty, ?_⟩
      · rw [List.forall_mem_cons]
        exact ⟨hby, hall⟩
      · rw [← ha]
        exact hlog
    · exact ⟨[], by simp, Nat.zero_le _, trivial, h.done hleft⟩

/-- Nobody but the callers that owe a release has to act for the releases. -/
theorem Kept.settle : ∀ (n : ℕ) {s : Walker}, s.Kept → s.owing.length = n →
    let acts := s.owing.map .release
    let t := after s acts
    Run s acts ∧ t.Kept ∧ t.owing = [] ∧ t.stop = s.stop ∧ t.worker = s.worker ∧ t.queue = s.queue ∧
      t.accepted = s.accepted
  | 0, s, h, hn => by
    rw [List.length_eq_zero_iff] at hn
    simp only [hn, List.map_nil]
    exact ⟨trivial, h, hn, rfl, rfl, rfl, rfl⟩
  | n + 1, s, h, hn => by
    obtain ⟨request, owing, ho⟩ := List.exists_cons_of_length_eq_add_one hn
    have hop : s.Allowed (.release request) := by
      show request ∈ s.owing
      rw [ho]
      exact List.mem_cons_self ..
    have hnext : (s.step (.release request)).owing = owing := by
      show s.owing.erase request = owing
      rw [ho, List.erase_cons_head]
    have ih := Kept.settle n (h.step hop) (by rw [hnext]; rw [ho] at hn; exact Nat.succ.inj hn)
    rw [hnext] at ih
    obtain ⟨hrun, hk, he, hs, hw, hq, ha⟩ := ih
    rw [ho]
    exact ⟨⟨hop, hrun⟩, hk, he, hs, hw, hq, ha⟩

/-- From whatever a run has come to, as long as the worker is in its loop and not told to stop: once the
callers have made the releases that they owe, the worker alone logs every accepted request, in at most five
steps for each that is queued or in hand. -/
theorem catches_up {created : Bool} {acts : List Act} (hrun : Run (construct created) acts)
    (hstop : (after (construct created) acts).stop = false)
    (hloop : (after (construct created) acts).worker.looping)
    (hstart : (after (construct created) acts).worker ≠ .notStarted) :
    let s := after (construct created) acts
    ∃ steps, (∀ act ∈ steps, ByWorker act) ∧ steps.length ≤ 5 * (s.queue.length + s.worker.inHand.length) ∧
      Run s (s.owing.map .release ++ steps) ∧ (after s (s.owing.map .release ++ steps)).queue = [] ∧
      (after s (s.owing.map .release ++ steps)).logged = s.accepted := by
  intro s
  have h : s.Kept := (construct_kept created).run hrun
  obtain ⟨hr, hk, he, hs, hw, hq, ha⟩ := h.settle s.owing.length rfl
  have hquiet : (after s (s.owing.map .release)).Quiet :=
    ⟨hk, hs.trans hstop, he, hw ▸ hloop, hw ▸ hstart⟩
  obtain ⟨steps, hall, hlen, hrun', hempty, hlog⟩ := hquiet.drain _ le_rfl
  refine ⟨steps, hall, hlen.trans ?_, Run.guarded_append.2 ⟨hr, hrun'⟩, ?_, ?_⟩
  · unfold togo
    rw [hq, hw]
    cases s.worker <;> simp only [Worker.inHand, List.length_singleton] <;> omega
  · rw [after, Run.after_append]
    exact hempty
  · rw [after, Run.after_append]
    exact hlog.trans ha

theorem catches_up_two :
    let acts := [.start true, .capture none 7 [1], .capture none 8 [2], .enqueue ⟨[1], "Unknown".toList, 7⟩,
      .enqueue ⟨[2], "Unknown".toList, 8⟩, .release ⟨[2], "Unknown".toList, 8⟩]
    let s := after (construct true) acts
    ∃ steps, (∀ act ∈ steps, ByWorker act) ∧ steps.length ≤ 5 * (s.queue.length + s.worker.inHand.length) ∧
      Run s (s.owing.map .release ++ steps) ∧ (after s (s.owing.map .release ++ steps)).queue = [] ∧
      (after s (s.owing.map .release ++ steps)).logged = s.accepted :=
  catches_up (by decide) (by decide) (by decide) (by decide)

/-! ## The end -/

/-- The requests that the worker still logs after `m_stop` is set. -/
def due (s : Walker) : ℕ := match s.worker with
  | .log _ | .take => 1
  | _ => 0

/-- What one step does once `m_stop` is set. -/
structure Closing (s t : Walker) : Prop where
  stop : t.stop
  /-- No call gets past its check any more: what is accepted now was built before. -/
  built : ∃ late, t.accepted = s.accepted ++ late ∧ (late ++ t.built).Subperm s.built
  logged : t.logged.length + t.due ≤ s.logged.length + s.due

theorem Closing.of_logged {s t : Walker} (h : t.stop) (ha : t.accepted = s.accepted) (hb : t.built = s.built)
    (hl : t.logged.length + t.due ≤ s.logged.length + s.due) : Closing s t :=
  ⟨h, ⟨[], ha.trans (List.append_nil _).symm, hb ▸ List.Subperm.refl _⟩, hl⟩

theorem Closing.refl {s : Walker} (h : s.stop) : Closing s s := .of_logged h rfl rfl le_rfl

theorem Closing.trans {s t u : Walker} (h : Closing s t) (h' : Closing t u) : Closing s u := by
  obtain ⟨late, ha, hb⟩ := h.built
  obtain ⟨late', ha', hb'⟩ := h'.built
  refine ⟨h'.stop, ⟨late ++ late', by rw [ha', ha, List.append_assoc], ?_⟩, h'.logged.trans h.logged⟩
  rw [List.append_assoc]
  exact ((List.subperm_append_left late).2 hb').trans hb

theorem closing_work {s : Walker} (h : s.stop) : Closing s s.work := by
  unfold work
  split
  case h_1 hw => exact .of_logged h rfl rfl (by simp [due, h])
  case h_2 hw => exact .of_logged h rfl rfl (by simp [due, h])
  case h_3 hw =>
    unfold pop
    split
    · exact .of_logged h rfl rfl (by simp [due])
    · exact .of_logged h rfl rfl (by simp [due, hw])
  case h_4 request hw => exact .of_logged h rfl rfl (by simp [due, hw])
  case h_5 n hw => exact .of_logged h rfl rfl (by simp [due])
  all_goals exact .refl h

theorem closing_push {s : Walker} (h : s.stop) {request : StackWalkRequest} (hr : request ∈ s.built) :
    Closing s (s.push request) := by
  unfold push
  split
  · exact ⟨h, ⟨[request], rfl, (List.perm_cons_erase hr).symm.subperm⟩, le_rfl⟩
  · exact ⟨h, ⟨[], (List.append_nil _).symm, List.erase_subperm ..⟩, le_rfl⟩

theorem closing_step {s : Walker} (h : s.stop) {act : Act} (hop : s.Allowed act) : Closing s (s.step act) := by
  cases act with
  | start created =>
    simp only [step]
    split
    · exact .refl h
    · exact .of_logged h rfl rfl (by simp [due])
  | capture reason threadId frames =>
    have hnone : s.request? reason threadId frames = none := by rw [request?, if_pos h]
    simp only [step, hnone]
    exact .refl h
  | enqueue request => exact closing_push h hop
  | release request => exact .of_logged h rfl rfl le_rfl
  | waited result => cases result <;> exact .of_logged h rfl rfl (by simp [step, due])
  | work => exact closing_work h
  | destroy =>
    simp only [step]
    split
    case h_3 =>
      split
      case h_3 => exact .of_logged h rfl rfl (by simp [due])
      all_goals exact .refl h
    case h_1 => exact .of_logged rfl rfl rfl le_rfl
    case h_2 => exact .of_logged h rfl rfl le_rfl

theorem closing_run : ∀ {acts : List Act} {s : Walker}, s.stop → Run s acts → Closing s (after s acts)
  | [], _, h, _ => .refl h
  | _ :: _, _, h, hrun =>
    have hstep := closing_step h hrun.1
    hstep.trans (closing_run hstep.stop hrun.2)

/-- Once `m_stop` is set, whatever happens after: at most one more request is logged, one that was accepted
before; only requests of calls that are past their check are still accepted; and what is in hand and in the
queue when the worker has returned is what will never be logged. -/
theorem stop_loses_queue {created : Bool} {acts acts' : List Act} (hrun : Run (construct created) (acts ++ acts'))
    (hstop : (after (construct created) acts).stop) :
    let s := after (construct created) acts
    let t := after (construct created) (acts ++ acts')
    t.stop ∧ t.logged <+: s.accepted ∧ t.logged.length ≤ s.logged.length + 1 ∧
      (∃ late, t.accepted = s.accepted ++ late ∧ late.Subperm s.built) ∧
      t.accepted = t.logged ++ t.worker.inHand ++ t.queue := by
  intro s t
  obtain ⟨hs, ht⟩ := Run.guarded_append.1 hrun
  have h : s.Kept := (construct_kept created).run hs
  have h' : t.Kept := (construct_kept created).run hrun
  have hc : Closing s t := by
    show Closing s (Run.after step (construct created) (acts ++ acts'))
    rw [Run.after_append]
    exact closing_run hstop ht
  have hdue : s.logged.length + s.due ≤ s.accepted.length := by
    rw [h.fifo, List.length_append, List.length_append, due]
    split
    case h_1 request hw => simp only [hw, Worker.inHand, List.length_singleton]; omega
    case h_2 hw =>
      have := List.length_pos_iff.2 (h.queue_ne_nil hw)
      omega
    case h_3 => omega
  have hdue' : s.due ≤ 1 := by unfold due; split <;> omega
  have hlog := hc.logged
  have hlogged : t.logged <+: t.accepted := by rw [h'.fifo, List.append_assoc]; exact List.prefix_append ..
  obtain ⟨late, ha, hb⟩ := hc.built
  have hbefore : s.accepted <+: t.accepted := ⟨late, ha.symm⟩
  refine ⟨hc.stop, List.prefix_of_prefix_length_le hlogged hbefore (by omega), by omega, ⟨late, ha, ?_⟩, h'.fifo⟩
  exact (List.sublist_append_left late t.built).subperm.trans hb

theorem stop_loses_queue_two :
    let acts := [.start true, .capture none 7 [1], .capture none 8 [2], .enqueue ⟨[1], "Unknown".toList, 7⟩,
      .enqueue ⟨[2], "Unknown".toList, 8⟩, .release ⟨[1], "Unknown".toList, 7⟩, .destroy]
    let s := after (construct true) acts
    let t := after (construct true) (acts ++ [.destroy, .work, .work])
    t.stop ∧ t.logged <+: s.accepted ∧ t.logged.length ≤ s.logged.length + 1 ∧
      (∃ late, t.accepted = s.accepted ++ late ∧ late.Subperm s.built) ∧
      t.accepted = t.logged ++ t.worker.inHand ++ t.queue :=
  stop_loses_queue (by decide) (by decide)

end Walker

end Ts3Vas.StackWalker
