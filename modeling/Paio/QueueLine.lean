import Paio.Library.Mutex
import Paio.QueueRuns

/-!
# Paio.QueueLine

The queue machine is a service line. `Locked` says which threads are in which critical section, so
that each lock has at most one owner; the worker that owns the lock of the submission queue is the
server of the line. `Sound.line_step` shows that every step of the machine is a step of the line or
one that the line does not see, and what holds of every run of a line then holds of the machine.
-/

namespace Paio

open Mutex ServiceLine

/-! ## Who holds which lock -/

namespace CallerPc

def holdsQueue : CallerPc → Bool
  | .emplacing | .notifyingWorkers | .leavingSubmission => true
  | _ => false

def holdsCompletion : CallerPc → Bool
  | .testingSize | .startingWait | .peeking | .leavingCompletion => true
  | _ => false

def phase : CallerPc → Phase
  | .idle => .idle
  | .submitting | .emplacing => .called
  | .leavingCompletion | .recording => .received
  | _ => .awaiting

end CallerPc

namespace WorkerPc

variable {C : Type}

def holdsQueue : WorkerPc C → Bool
  | .looping | .entering | .waiting | .relocking _ | .stopped => false
  | _ => true

def holdsCompletion : WorkerPc C → Bool
  | .pushing _ _ | .notifyingCallers | .leavingCompletion => true
  | _ => false

def holdsObjects : WorkerPc C → Bool
  | .enforcing _ _ | .leavingObjects _ _ => true
  | _ => false

def server : WorkerPc C → Server C Result
  | .lockingObjects ref _ | .enforcing ref _ => .started ref
  | .leavingObjects ref result | .completing ref result | .pushing ref result => .served ref result
  | _ => .free

theorem notify_cases (pc : WorkerPc C) :
    pc.notify = pc ∨ pc = .waiting ∧ pc.notify = .relocking false := by
  cases pc <;> simp [notify]

end WorkerPc

theorem Caller.notify_cases (x : Caller) :
    x.notify = x ∨ x.pc = .waiting ∧ x.notify = { x with pc := .relocking } := by
  cases hpc : x.pc <;> simp [notify, hpc]

namespace Machine

variable {C W : Type} {opt : Options} {hash : String → UInt32} {m m' : Machine C W}

def holdsQueue (m : Machine C W) : Thread C W → Bool
  | .caller c => (m.callers c).pc.holdsQueue
  | .worker w => (m.workers w).holdsQueue

def holdsCompletion (m : Machine C W) : Thread C W → Bool
  | .caller c => (m.callers c).pc.holdsCompletion
  | .worker w => (m.workers w).holdsCompletion

structure Locked (m : Machine C W) : Prop where
  queue : Owned m.queueLock m.holdsQueue
  completion : Owned m.completionLock m.holdsCompletion
  objects : Owned m.objectsLock fun w => (m.workers w).holdsObjects

theorem lockQueue_eq_some {t : Thread C W} {next : Machine C W} :
    m.lockQueue t next = some m' ↔ m.queueLock = none ∧ { next with queueLock := some t } = m' := by
  simp [lockQueue]

theorem lockCompletion_eq_some {t : Thread C W} {next : Machine C W} :
    m.lockCompletion t next = some m' ↔
      m.completionLock = none ∧ { next with completionLock := some t } = m' := by
  simp [lockCompletion]

theorem Locked.congr (hl : Locked m) (hq : m'.queueLock = m.queueLock)
    (hk : m'.completionLock = m.completionLock) (ho : m'.objectsLock = m.objectsLock)
    (hcallers : ∀ c, (m'.callers c).pc.holdsQueue = (m.callers c).pc.holdsQueue ∧
      (m'.callers c).pc.holdsCompletion = (m.callers c).pc.holdsCompletion)
    (hworkers : ∀ w, (m'.workers w).holdsQueue = (m.workers w).holdsQueue ∧
      (m'.workers w).holdsCompletion = (m.workers w).holdsCompletion ∧
      (m'.workers w).holdsObjects = (m.workers w).holdsObjects) : Locked m' := by
  have hQ : m'.holdsQueue = m.holdsQueue := by
    funext t
    cases t with
    | caller c => exact (hcallers c).1
    | worker w => exact (hworkers w).1
  have hK : m'.holdsCompletion = m.holdsCompletion := by
    funext t
    cases t with
    | caller c => exact (hcallers c).2
    | worker w => exact (hworkers w).2.1
  have hO : (fun w => (m'.workers w).holdsObjects) = fun w => (m.workers w).holdsObjects :=
    funext fun w => (hworkers w).2.2
  refine ⟨?_, ?_, ?_⟩
  · rw [hq, hQ]
    exact hl.queue
  · rw [hk, hK]
    exact hl.completion
  · rw [ho, hO]
    exact hl.objects

theorem Locked.notifyWorkers (hl : Locked m) : Locked m.notifyWorkers := by
  refine hl.congr rfl rfl rfl (fun _ => ⟨rfl, rfl⟩) ?_
  intro w
  simp only [Machine.notifyWorkers]
  rcases (m.workers w).notify_cases with h | ⟨h, h'⟩
  · rw [h]
    exact ⟨rfl, rfl, rfl⟩
  · rw [h', h]
    exact ⟨rfl, rfl, rfl⟩

theorem Locked.notifyCallers (hl : Locked m) : Locked m.notifyCallers := by
  refine hl.congr rfl rfl rfl ?_ (fun _ => ⟨rfl, rfl, rfl⟩)
  intro c
  simp only [Machine.notifyCallers]
  rcases (m.callers c).notify_cases with h | ⟨h, h'⟩
  · rw [h]
    exact ⟨rfl, rfl⟩
  · rw [h', h]
    exact ⟨rfl, rfl⟩

section Callers

variable [DecidableEq C]

/-- A step of a caller keeps the locks in order when it changes them as its own section says. -/
theorem Locked.setCaller (hl : Locked m) {c : C} {x : Caller}
    (hcallers : m'.callers = Function.update m.callers c x) (hworkers : m'.workers = m.workers)
    (hobjects : m'.objectsLock = m.objectsLock)
    (hqueue : Moves (.caller c) (m.callers c).pc.holdsQueue x.pc.holdsQueue
      m.queueLock m'.queueLock)
    (hcompletion : Moves (.caller c) (m.callers c).pc.holdsCompletion x.pc.holdsCompletion
      m.completionLock m'.completionLock) : Locked m' := by
  have hself : m'.callers c = x := by rw [hcallers, Function.update_self]
  have hne : ∀ c', c' ≠ c → m'.callers c' = m.callers c' := by
    intro c' hcc
    rw [hcallers, Function.update_of_ne hcc]
  refine ⟨hl.queue.move (t := .caller c) ?_ ?_, hl.completion.move (t := .caller c) ?_ ?_, ?_⟩
  · intro t htt
    cases t with
    | caller c' => rw [holdsQueue, holdsQueue, hne c' (fun heq => htt (by rw [heq]))]
    | worker w => rw [holdsQueue, holdsQueue, hworkers]
  · rwa [← hself] at hqueue
  · intro t htt
    cases t with
    | caller c' => rw [holdsCompletion, holdsCompletion, hne c' (fun heq => htt (by rw [heq]))]
    | worker w => rw [holdsCompletion, holdsCompletion, hworkers]
  · rwa [← hself] at hcompletion
  · rw [hworkers, hobjects]
    exact hl.objects

theorem request_cases {c : C} {context : Context} {buffer : Buffer} {size : Nat} {result : Result}
    (hs : m.request c context buffer size result = some m') :
    (m.callers c).pc = .idle ∧ m' = m.called c context buffer size result := by
  simp only [request] at hs
  split at hs <;> cases hs
  rename_i hidle
  refine ⟨hidle.1, ?_⟩
  simp only [called, ChannelDefault.buildTicket_ticketId, ChannelDefault.buildTicket_snd]

theorem Locked.request (hl : Locked m) {c : C} {context : Context} {buffer : Buffer} {size : Nat}
    {result : Result} (h : m.request c context buffer size result = some m') : Locked m' := by
  obtain ⟨hidle, rfl⟩ := request_cases h
  exact hl.setCaller rfl rfl rfl (by rw [hidle]; rfl) (by rw [hidle]; rfl)

theorem Locked.callerStep (hl : Locked m) {c : C} (h : m.callerStep opt c = some m') :
    Locked m' := by
  cases hpc : (m.callers c).pc <;> simp only [Machine.callerStep, hpc] at h
  case idle => cases h
  case submitting =>
    obtain ⟨hfree, rfl⟩ := lockQueue_eq_some.mp h
    exact hl.setCaller rfl rfl rfl (by rw [hpc]; exact ⟨hfree, rfl⟩) (by rw [hpc]; rfl)
  case emplacing =>
    cases h
    exact hl.setCaller rfl rfl rfl (by rw [hpc]; split <;> rfl) (by rw [hpc]; split <;> rfl)
  case notifyingWorkers =>
    cases h
    have hpc' : (m.notifyWorkers.callers c).pc = .notifyingWorkers := hpc
    exact hl.notifyWorkers.setCaller rfl rfl rfl (by rw [hpc']; rfl) (by rw [hpc']; rfl)
  case collecting =>
    obtain ⟨hfree, rfl⟩ := lockCompletion_eq_some.mp h
    exact hl.setCaller rfl rfl rfl (by rw [hpc]; rfl) (by rw [hpc]; exact ⟨hfree, rfl⟩)
  case testingSize =>
    cases h
    exact hl.setCaller rfl rfl rfl (by rw [hpc]; split <;> rfl) (by rw [hpc]; split <;> rfl)
  case waiting => cases h
  case relocking =>
    obtain ⟨hfree, rfl⟩ := lockCompletion_eq_some.mp h
    exact hl.setCaller rfl rfl rfl (by rw [hpc]; rfl) (by rw [hpc]; exact ⟨hfree, rfl⟩)
  case peeking =>
    split at h
    · cases h
    · split at h <;> cases h
      · exact hl.setCaller rfl rfl rfl (by rw [hpc]; rfl) (by rw [hpc]; rfl)
      · exact hl.setCaller rfl rfl rfl (by rw [hpc]; rfl) (by rw [hpc]; rfl)
  case recording =>
    split at h <;> cases h
    exact hl.setCaller rfl rfl rfl (by rw [hpc]; rfl) (by rw [hpc]; rfl)
  case leavingSubmission | startingWait | leavingCompletion =>
    cases h
    exact hl.setCaller rfl rfl rfl (by rw [hpc]; rfl) (by rw [hpc]; rfl)

end Callers

section Workers

variable [DecidableEq W]

theorem Locked.setWorker (hl : Locked m) {w : W} {pc : WorkerPc C}
    (hworkers : m'.workers = Function.update m.workers w pc) (hcallers : m'.callers = m.callers)
    (hqueue : Moves (.worker w) (m.workers w).holdsQueue pc.holdsQueue m.queueLock m'.queueLock)
    (hcompletion : Moves (.worker w) (m.workers w).holdsCompletion pc.holdsCompletion
      m.completionLock m'.completionLock)
    (hobjects : Moves w (m.workers w).holdsObjects pc.holdsObjects m.objectsLock m'.objectsLock) :
    Locked m' := by
  have hself : m'.workers w = pc := by rw [hworkers, Function.update_self]
  have hne : ∀ w', w' ≠ w → m'.workers w' = m.workers w' := by
    intro w' hww
    rw [hworkers, Function.update_of_ne hww]
  refine ⟨hl.queue.move (t := .worker w) ?_ ?_, hl.completion.move (t := .worker w) ?_ ?_,
    hl.objects.move (t := w) ?_ ?_⟩
  · intro t htt
    cases t with
    | caller c => rw [holdsQueue, holdsQueue, hcallers]
    | worker w' => rw [holdsQueue, holdsQueue, hne w' (fun heq => htt (by rw [heq]))]
  · rwa [← hself] at hqueue
  · intro t htt
    cases t with
    | caller c => rw [holdsCompletion, holdsCompletion, hcallers]
    | worker w' => rw [holdsCompletion, holdsCompletion, hne w' (fun heq => htt (by rw [heq]))]
  · rwa [← hself] at hcompletion
  · intro w' hww
    rw [hne w' hww]
  · rwa [← hself] at hobjects

theorem Locked.workerStep (hl : Locked m) {clock : Clock} {fuel : Nat} {w : W}
    (h : workerStep hash clock fuel m w = some m') : Locked m' := by
  cases hpc : m.workers w <;> simp only [Machine.workerStep, hpc] at h
  case looping | checkingTimeout =>
    cases h
    exact hl.setWorker rfl rfl (by rw [hpc]; split <;> rfl) (by rw [hpc]; split <;> rfl)
      (by rw [hpc]; split <;> rfl)
  case entering | relocking =>
    obtain ⟨hfree, rfl⟩ := lockQueue_eq_some.mp h
    exact hl.setWorker rfl rfl (by rw [hpc]; exact ⟨hfree, rfl⟩) (by rw [hpc]; rfl)
      (by rw [hpc]; rfl)
  case testingSize =>
    split at h
    · cases h
      exact hl.setWorker rfl rfl (by rw [hpc]; rfl) (by rw [hpc]; rfl) (by rw [hpc]; rfl)
    · split at h
      · cases h
      · split at h <;> cases h
        exact hl.setWorker rfl rfl (by rw [hpc]; rfl) (by rw [hpc]; rfl) (by rw [hpc]; rfl)
  case waiting | stopped => cases h
  case lockingObjects =>
    split at h <;> cases h
    rename_i hfree
    exact hl.setWorker rfl rfl (by rw [hpc]; rfl) (by rw [hpc]; rfl)
      (by rw [hpc]; exact ⟨hfree, rfl⟩)
  case enforcing =>
    split at h
    · cases h
    · split at h <;> cases h
      exact hl.setWorker rfl rfl (by rw [hpc]; rfl) (by rw [hpc]; rfl) (by rw [hpc]; rfl)
  case completing =>
    obtain ⟨hfree, rfl⟩ := lockCompletion_eq_some.mp h
    exact hl.setWorker rfl rfl (by rw [hpc]; rfl) (by rw [hpc]; exact ⟨hfree, rfl⟩)
      (by rw [hpc]; rfl)
  case pushing =>
    cases h
    exact hl.setWorker rfl rfl (by rw [hpc]; split <;> rfl) (by rw [hpc]; split <;> rfl)
      (by rw [hpc]; split <;> rfl)
  case notifyingCallers =>
    cases h
    have hpc' : m.notifyCallers.workers w = .notifyingCallers := hpc
    exact hl.notifyCallers.setWorker rfl rfl (by rw [hpc']; rfl) (by rw [hpc']; rfl)
      (by rw [hpc']; rfl)
  case startingWait | leavingObjects | leavingCompletion | leavingSubmission =>
    cases h
    exact hl.setWorker rfl rfl (by rw [hpc]; rfl) (by rw [hpc]; rfl) (by rw [hpc]; rfl)

end Workers

variable [DecidableEq C] [DecidableEq W]

theorem Locked.step (hl : Locked m) {a : Action C W} (h : m.step opt hash a = some m') :
    Locked m' := by
  cases a with
  | request c context buffer size result => exact hl.request h
  | caller c => exact hl.callerStep h
  | wakeCaller c =>
    simp only [Machine.step] at h
    split at h <;> cases h
    rename_i hpc
    exact hl.setCaller rfl rfl rfl (by rw [hpc]; rfl) (by rw [hpc]; rfl)
  | worker w clock fuel => exact hl.workerStep h
  | wakeWorker w timedOut =>
    simp only [Machine.step] at h
    split at h <;> cases h
    rename_i hpc
    exact hl.setWorker rfl rfl (by rw [hpc]; rfl) (by rw [hpc]; rfl) (by rw [hpc]; rfl)
  | stopWorker =>
    cases h
    exact hl.congr rfl rfl rfl (fun _ => ⟨rfl, rfl⟩) (fun _ => ⟨rfl, rfl, rfl⟩)

/-! ## The line of tickets -/

end Machine

/-- What the line sees of a call. -/
def Caller.call (x : Caller) : ServiceLine.Call Ticket Result :=
  ⟨x.pc.phase, x.serial, x.ticket, x.result⟩

theorem Caller.notify_call (x : Caller) : x.notify.call = x.call := by
  rcases x.notify_cases with h | ⟨h, h'⟩
  · rw [h]
  · rw [h', call, call, h]
    rfl

theorem CallerPc.phase_eq_idle_iff {pc : CallerPc} : pc.phase = .idle ↔ pc = .idle := by
  cases pc <;> simp [phase]

namespace WorkerPc

variable {C : Type}

theorem notify_server (pc : WorkerPc C) : pc.notify.server = pc.server := by
  rcases pc.notify_cases with h | ⟨h, h'⟩
  · rw [h]
  · rw [h', h]
    rfl

theorem holdsQueue_of_server {pc : WorkerPc C} (h : pc.server ≠ .free) : pc.holdsQueue = true := by
  cases pc <;> simp [server, holdsQueue] at h ⊢

end WorkerPc

namespace Machine

variable {C W : Type} {opt : Options} {hash : String → UInt32} {m m' : Machine C W}

/-- The ticket that a worker has taken out of the submission queue, if any. -/
def server (m : Machine C W) : Server C Result :=
  match m.queueLock with
  | some (.worker w) => (m.workers w).server
  | _ => .free

def line (m : Machine C W) : Line C Ticket Result where
  calls c := (m.callers c).call
  waiting := m.submissions
  server := m.server
  ready := m.completions
  history := m.history

theorem Locked.server_eq (hl : Locked m) {w : W} (h : (m.workers w).holdsQueue = true) :
    m.server = (m.workers w).server := by
  have hlock := (hl.queue (.worker w)).mp h
  rw [server, hlock]

theorem Locked.server_eq_free_iff (hl : Locked m) :
    m.server = .free ↔ ∀ w, (m.workers w).server = .free := by
  constructor
  · intro h w
    by_contra hne
    rw [hl.server_eq (WorkerPc.holdsQueue_of_server hne)] at h
    exact hne h
  · intro h
    rw [server]
    split
    · exact h _
    · rfl

/-- As long as no worker takes or finishes a ticket, the line sees the same server. -/
theorem Locked.server_congr (hl : Locked m) (hl' : Locked m')
    (h : ∀ w, (m'.workers w).server = (m.workers w).server) : m'.server = m.server := by
  by_cases hfree : m.server = .free
  · rw [hfree, hl'.server_eq_free_iff]
    intro w
    rw [h w, hl.server_eq_free_iff.mp hfree w]
  · rw [hl.server_eq_free_iff, not_forall] at hfree
    obtain ⟨w, hw⟩ := hfree
    rw [hl.server_eq (WorkerPc.holdsQueue_of_server hw),
      hl'.server_eq (WorkerPc.holdsQueue_of_server (by rwa [h w])), h w]

/-- A step that the line does not see. -/
theorem Locked.line_eq (hl : Locked m) (hl' : Locked m')
    (hcalls : ∀ c, (m'.callers c).call = (m.callers c).call)
    (hworkers : ∀ w, (m'.workers w).server = (m.workers w).server)
    (hsubmissions : m'.submissions = m.submissions) (hcompletions : m'.completions = m.completions)
    (hhistory : m'.history = m.history) : m'.line = m.line := by
  simp only [line, hl.server_congr hl' hworkers, hsubmissions, hcompletions, hhistory, hcalls]

section

variable [DecidableEq C]

theorem call_update (callers : C → Caller) (c : C) (x : Caller) :
    (fun c' => (Function.update callers c x c').call) =
      Function.update (fun c' => (callers c').call) c x.call := by
  funext c'
  by_cases hcc : c' = c
  · subst hcc
    rw [Function.update_self, Function.update_self]
  · rw [Function.update_of_ne hcc, Function.update_of_ne hcc]

/-- The line after the step of a caller, whoever holds the locks. -/
theorem Locked.line_setCaller (hl : Locked m) (hl' : Locked m') {c : C} {x : Caller}
    {call : ServiceLine.Call Ticket Result} (hcall : x.call = call)
    (hcallers : m'.callers = Function.update m.callers c x)
    (hworkers : ∀ w, (m'.workers w).server = (m.workers w).server) :
    m'.line = { m.line with
      calls := Function.update m.line.calls c call
      waiting := m'.submissions
      ready := m'.completions
      history := m'.history } := by
  simp only [line, hl.server_congr hl' hworkers, hcallers, call_update, hcall]

/-- A step of a caller that the line does not see: it stays in its phase. -/
theorem Locked.line_moveCaller (hl : Locked m) (hl' : Locked m') {c : C} {pc : CallerPc}
    (hpc : pc.phase = (m.callers c).pc.phase)
    (hcallers : m'.callers = Function.update m.callers c { m.callers c with pc := pc })
    (hworkers : ∀ w, (m'.workers w).server = (m.workers w).server)
    (hsubmissions : m'.submissions = m.submissions) (hcompletions : m'.completions = m.completions)
    (hhistory : m'.history = m.history) : m'.line = m.line := by
  have hcall : Caller.call { m.callers c with pc := pc } = m.line.calls c := by
    rw [Caller.call, hpc]
    rfl
  rw [hl.line_setCaller hl' hcall hcallers hworkers, Function.update_eq_self, hsubmissions,
    hcompletions, hhistory]
  rfl

end

section

variable [DecidableEq W]

/-- A step of a worker that the line does not see: it has the same ticket as before. -/
theorem Locked.line_moveWorker (hl : Locked m) (hl' : Locked m') {w : W} {pc : WorkerPc C}
    (hpc : pc.server = (m.workers w).server)
    (hworkers : m'.workers = Function.update m.workers w pc)
    (hcalls : ∀ c, (m'.callers c).call = (m.callers c).call)
    (hsubmissions : m'.submissions = m.submissions) (hcompletions : m'.completions = m.completions)
    (hhistory : m'.history = m.history) : m'.line = m.line := by
  refine hl.line_eq hl' hcalls ?_ hsubmissions hcompletions hhistory
  intro w'
  rw [hworkers]
  by_cases hww : w' = w
  · subst hww
    rw [Function.update_self, hpc]
  · rw [Function.update_of_ne hww]

/-- The line after the step of a worker that holds the lock of the submission queue. -/
theorem Locked.line_setWorker (hl' : Locked m') {w : W} {pc : WorkerPc C}
    (hpc : pc.holdsQueue = true) (hworkers : m'.workers = Function.update m.workers w pc)
    (hcallers : m'.callers = m.callers) :
    m'.line = { m.line with
      waiting := m'.submissions
      server := pc.server
      ready := m'.completions
      history := m'.history } := by
  have hself : m'.workers w = pc := by rw [hworkers, Function.update_self]
  simp only [line, hl'.server_eq (w := w) (by rwa [hself]), hself, hcallers]

end

/-- The Result that a worker has before it enforces a ticket is new and has the ticket's
identifier. -/
def Loaded (m : Machine C W) : Prop :=
  ∀ w ref result, m.workers w = .lockingObjects ref result ∨ m.workers w = .enforcing ref result →
    result = { ticketId := (m.callers ref.caller).ticket.ticketId }

structure Sound (m : Machine C W) : Prop where
  locked : Locked m
  loaded : Loaded m
  correct : Correct Ticket.ticketId Ticket.freshResult m.line

/-- No ticket gets the identifier of a call that is still in progress. -/
def Fresh (m : Machine C W) : Action C W → Prop
  | .request _ _ _ _ _ =>
    ∀ c, (m.callers c).pc ≠ .idle → (m.callers c).ticket.ticketId ≠ m.channel.ticketId
  | _ => True

theorem deref_eq_some {ref : Ref C} {ticket : Ticket} (h : m.deref ref = some ticket) :
    ticket = (m.callers ref.caller).ticket := by
  simp only [deref] at h
  split at h
  · exact (Option.some.inj h).symm
  · cases h

/-- A worker that has not enforced its ticket yet has it in the line. -/
theorem Sound.started_awaiting (h : Sound m) {w : W} {ref : Ref C} {result : Result}
    (hw : m.workers w = .lockingObjects ref result ∨ m.workers w = .enforcing ref result) :
    (m.callers ref.caller).pc ≠ .idle := by
  have hserver : m.line.server = .started ref := by
    have hsrv := h.locked.server_eq (w := w) (by rcases hw with hw | hw <;> rw [hw] <;> rfl)
    rcases hw with hw | hw <;> rw [hw] at hsrv <;> exact hsrv
  have hphase := (h.correct.matched.content ref (by simp [Line.content, hserver, Server.refs])).2
  intro hidle
  simp only [line, Caller.call, hidle] at hphase
  cases hphase

/-- What every step but a new call leaves alone. -/
structure Kept (m m' : Machine C W) : Prop where
  ticket : ∀ c, (m'.callers c).ticket = (m.callers c).ticket
  serial : ∀ c, (m'.callers c).serial = (m.callers c).serial
  idle : ∀ c, (m.callers c).pc = .idle → (m'.callers c).pc = .idle
  made : m'.history.made = m.history.made
  ticketId : m'.channel.ticketId = m.channel.ticketId

section Workers

variable [DecidableEq W]

theorem workerStep_kept {clock : Clock} {fuel : Nat} {w : W}
    (hs : workerStep hash clock fuel m w = some m') : Kept m m' := by
  cases hpc : m.workers w <;> simp only [workerStep, hpc] at hs
  case waiting | stopped => cases hs
  case entering | relocking =>
    obtain ⟨-, rfl⟩ := lockQueue_eq_some.mp hs
    exact ⟨fun _ => rfl, fun _ => rfl, fun _ h => h, rfl, rfl⟩
  case completing =>
    obtain ⟨-, rfl⟩ := lockCompletion_eq_some.mp hs
    exact ⟨fun _ => rfl, fun _ => rfl, fun _ h => h, rfl, rfl⟩
  case testingSize =>
    split at hs
    · cases hs
      exact ⟨fun _ => rfl, fun _ => rfl, fun _ h => h, rfl, rfl⟩
    · split at hs
      · cases hs
      · split at hs <;> cases hs
        exact ⟨fun _ => rfl, fun _ => rfl, fun _ h => h, rfl, rfl⟩
  case lockingObjects =>
    split at hs <;> cases hs
    exact ⟨fun _ => rfl, fun _ => rfl, fun _ h => h, rfl, rfl⟩
  case enforcing =>
    split at hs
    · cases hs
    · split at hs <;> cases hs
      exact ⟨fun _ => rfl, fun _ => rfl, fun _ h => h, rfl, rfl⟩
  case notifyingCallers =>
    cases hs
    refine ⟨?_, ?_, ?_, rfl, rfl⟩
    · intro c
      exact congrArg ServiceLine.Call.ticket (m.callers c).notify_call
    · intro c
      exact congrArg ServiceLine.Call.serial (m.callers c).notify_call
    · intro c hidle
      simp [notifyCallers, moveWorker, Caller.notify, hidle]
  case looping | checkingTimeout | startingWait | leavingObjects | pushing | leavingCompletion |
      leavingSubmission =>
    cases hs
    exact ⟨fun _ => rfl, fun _ => rfl, fun _ h => h, rfl, rfl⟩

theorem Loaded.setWorker (hl : Loaded m) {w : W} {pc : WorkerPc C}
    (hworkers : m'.workers = Function.update m.workers w pc)
    (htickets : ∀ c, (m'.callers c).ticket = (m.callers c).ticket)
    (hpc : ∀ ref result, pc = .lockingObjects ref result ∨ pc = .enforcing ref result →
      result = { ticketId := (m.callers ref.caller).ticket.ticketId }) : Loaded m' := by
  intro w' ref result hw
  rw [htickets]
  rw [hworkers] at hw
  by_cases hww : w' = w
  · subst hww
    rw [Function.update_self] at hw
    exact hpc ref result hw
  · rw [Function.update_of_ne hww] at hw
    exact hl w' ref result hw

theorem Loaded.workerStep (hl : Loaded m) {clock : Clock} {fuel : Nat} {w : W}
    (hs : workerStep hash clock fuel m w = some m') : Loaded m' := by
  cases hpc : m.workers w <;> simp only [Machine.workerStep, hpc] at hs
  case waiting | stopped => cases hs
  case looping | checkingTimeout =>
    cases hs
    exact hl.setWorker rfl (fun _ => rfl) (by split <;> simp)
  case entering | relocking =>
    obtain ⟨-, rfl⟩ := lockQueue_eq_some.mp hs
    exact hl.setWorker rfl (fun _ => rfl) (by simp)
  case completing =>
    obtain ⟨-, rfl⟩ := lockCompletion_eq_some.mp hs
    exact hl.setWorker rfl (fun _ => rfl) (by simp)
  case testingSize =>
    split at hs
    · cases hs
      exact hl.setWorker rfl (fun _ => rfl) (by simp)
    · split at hs
      · cases hs
      · split at hs <;> cases hs
        rename_i ticket hderef
        refine hl.setWorker rfl (fun _ => rfl) ?_
        intro ref result hpc'
        simp only [WorkerPc.lockingObjects.injEq, reduceCtorEq, or_false] at hpc'
        obtain ⟨rfl, rfl⟩ := hpc'
        rw [deref_eq_some hderef]
  case lockingObjects ref result =>
    split at hs <;> cases hs
    refine hl.setWorker rfl (fun _ => rfl) ?_
    intro ref' result' hpc'
    simp only [WorkerPc.enforcing.injEq, reduceCtorEq, false_or] at hpc'
    obtain ⟨rfl, rfl⟩ := hpc'
    exact hl w ref result (.inl hpc)
  case enforcing =>
    split at hs
    · cases hs
    · split at hs <;> cases hs
      exact hl.setWorker rfl (fun _ => rfl) (by simp)
  case pushing =>
    cases hs
    exact hl.setWorker rfl (fun _ => rfl) (by split <;> simp)
  case notifyingCallers =>
    cases hs
    refine hl.setWorker rfl ?_ (by simp)
    intro c
    exact congrArg ServiceLine.Call.ticket (m.callers c).notify_call
  case startingWait | leavingObjects | leavingCompletion | leavingSubmission =>
    cases hs
    exact hl.setWorker rfl (fun _ => rfl) (by simp)

end Workers

section Callers

variable [DecidableEq C]

theorem kept_setCaller {c : C} {x : Caller} (hpc : (m.callers c).pc ≠ .idle)
    (hcallers : m'.callers = Function.update m.callers c x)
    (hticket : x.ticket = (m.callers c).ticket) (hserial : x.serial = (m.callers c).serial)
    (hmade : m'.history.made = m.history.made)
    (hid : m'.channel.ticketId = m.channel.ticketId) : Kept m m' := by
  have hself : m'.callers c = x := by rw [hcallers, Function.update_self]
  have hne : ∀ c', c' ≠ c → m'.callers c' = m.callers c' := by
    intro c' hcc
    rw [hcallers, Function.update_of_ne hcc]
  refine ⟨?_, ?_, ?_, hmade, hid⟩
  · intro c'
    by_cases hcc : c' = c
    · rw [hcc, hself, hticket]
    · rw [hne c' hcc]
  · intro c'
    by_cases hcc : c' = c
    · rw [hcc, hself, hserial]
    · rw [hne c' hcc]
  · intro c' hidle
    rw [hne c' (fun hcc => hpc (by rwa [hcc] at hidle)), hidle]

theorem callerStep_kept {c : C} (hs : m.callerStep opt c = some m') : Kept m m' := by
  have hidle : (m.callers c).pc ≠ .idle := by
    intro hpc
    simp [callerStep, hpc] at hs
  cases hpc : (m.callers c).pc <;> simp only [callerStep, hpc] at hs
  case idle | waiting => cases hs
  case submitting =>
    obtain ⟨-, rfl⟩ := lockQueue_eq_some.mp hs
    exact kept_setCaller hidle rfl rfl rfl rfl rfl
  case collecting | relocking =>
    obtain ⟨-, rfl⟩ := lockCompletion_eq_some.mp hs
    exact kept_setCaller hidle rfl rfl rfl rfl rfl
  case peeking =>
    split at hs
    · cases hs
    · split at hs <;> cases hs <;> exact kept_setCaller hidle rfl rfl rfl rfl rfl
  case recording =>
    split at hs <;> cases hs
    rename_i channel hrecord
    obtain ⟨stats, rfl⟩ := ChannelDefault.recordStatistics_cases opt hrecord
    exact kept_setCaller hidle rfl rfl rfl rfl rfl
  case emplacing | notifyingWorkers | leavingSubmission | testingSize | startingWait |
      leavingCompletion =>
    cases hs
    exact kept_setCaller hidle rfl rfl rfl rfl rfl

/-- What else the step of a caller leaves alone. -/
theorem callerStep_frame {c : C} (hs : m.callerStep opt c = some m') :
    m'.channel.submissionQueue = m.channel.submissionQueue ∧ m'.isRunning = m.isRunning ∧
      (m'.workers = m.workers ∨ m'.workers = m.notifyWorkers.workers) ∧
      (m'.history.submitted = m.history.submitted ∨ (m.callers c).pc = .emplacing) := by
  cases hpc : (m.callers c).pc <;> simp only [callerStep, hpc] at hs
  case idle | waiting => cases hs
  case submitting =>
    obtain ⟨-, rfl⟩ := lockQueue_eq_some.mp hs
    exact ⟨rfl, rfl, .inl rfl, .inl rfl⟩
  case collecting | relocking =>
    obtain ⟨-, rfl⟩ := lockCompletion_eq_some.mp hs
    exact ⟨rfl, rfl, .inl rfl, .inl rfl⟩
  case emplacing =>
    cases hs
    exact ⟨rfl, rfl, .inl rfl, .inr rfl⟩
  case notifyingWorkers =>
    cases hs
    exact ⟨rfl, rfl, .inr rfl, .inl rfl⟩
  case peeking =>
    split at hs
    · cases hs
    · split at hs <;> cases hs <;> exact ⟨rfl, rfl, .inl rfl, .inl rfl⟩
  case recording =>
    split at hs <;> cases hs
    rename_i channel hrecord
    obtain ⟨stats, rfl⟩ := ChannelDefault.recordStatistics_cases opt hrecord
    exact ⟨rfl, rfl, .inl rfl, .inl rfl⟩
  case leavingSubmission | testingSize | startingWait | leavingCompletion =>
    cases hs
    exact ⟨rfl, rfl, .inl rfl, .inl rfl⟩

/-- A step of the line. -/
abbrev LineStep : Line C Ticket Result → Line C Ticket Result → Prop :=
  Step Ticket.ticketId Result.ticketId Ticket.freshResult

theorem Sound.line_request (h : Sound m) (hl' : Locked m') {c : C} {context : Context}
    {buffer : Buffer} {size : Nat} {result : Result}
    (hfresh : Fresh m (.request c context buffer size result))
    (hs : m.request c context buffer size result = some m') : LineStep m.line m'.line := by
  obtain ⟨hidle, rfl⟩ := request_cases hs
  rw [h.locked.line_setCaller hl' rfl rfl (fun _ => rfl)]
  refine Step.call c _ _ (CallerPc.phase_eq_idle_iff.mpr hidle) ?_
  intro c' hc'
  rw [ChannelDefault.buildTicket_ticketId]
  exact hfresh c' (fun hpc => hc' (CallerPc.phase_eq_idle_iff.mpr hpc))

theorem Sound.line_callerStep (h : Sound m) (hl' : Locked m') {c : C}
    (hs : m.callerStep opt c = some m') : m'.line = m.line ∨ LineStep m.line m'.line := by
  have hl := h.locked
  cases hpc : (m.callers c).pc <;> simp only [callerStep, hpc] at hs
  case idle | waiting => cases hs
  case submitting =>
    obtain ⟨-, rfl⟩ := lockQueue_eq_some.mp hs
    exact .inl (hl.line_moveCaller hl' (by rw [hpc]; rfl) rfl (fun _ => rfl) rfl rfl rfl)
  case collecting | relocking =>
    obtain ⟨-, rfl⟩ := lockCompletion_eq_some.mp hs
    exact .inl (hl.line_moveCaller hl' (by rw [hpc]; rfl) rfl (fun _ => rfl) rfl rfl rfl)
  case emplacing =>
    cases hs
    have hcall : Caller.call { m.callers c with
        pc := if queueSize m.submissions = 0 then .notifyingWorkers else .leavingSubmission } =
        { m.line.calls c with phase := .awaiting } := by
      split <;> rfl
    rw [hl.line_setCaller hl' hcall rfl (fun _ => rfl)]
    exact .inr (Step.submit c (by simp only [line, Caller.call, hpc]; rfl))
  case notifyingWorkers =>
    cases hs
    exact .inl (hl.line_moveCaller hl' (by rw [hpc]; rfl) rfl
      (fun w => (m.workers w).notify_server) rfl rfl rfl)
  case testingSize =>
    cases hs
    exact .inl (hl.line_moveCaller hl' (by rw [hpc]; split <;> rfl) rfl (fun _ => rfl) rfl rfl rfl)
  case peeking =>
    split at hs
    · cases hs
    · rename_i ref front rest hready
      split at hs <;> cases hs
      · rename_i hid
        have hmem : (ref, front) ∈ m.line.ready := by
          simp only [line, hready, List.mem_cons_self]
        have hgiven : front = (m.callers ref.caller).ticket.freshResult :=
          h.correct.answered.ready _ hmem
        have hfront : (m.callers c).result.assign front = front := by
          rw [hgiven, Ticket.assign_freshResult]
        have hcall : Caller.call { m.callers c with
            pc := .leavingCompletion
            result := (m.callers c).result.assign front } =
            { m.line.calls c with phase := .received, result := front } := by
          rw [hfront]
          rfl
        rw [hl.line_setCaller hl' hcall rfl (fun _ => rfl)]
        simp only [hfront]
        exact .inr (Step.hand c (by simp only [line, Caller.call, hpc]; rfl) hready hid)
      · exact .inl (hl.line_moveCaller hl' (by rw [hpc]; rfl) rfl (fun _ => rfl) rfl rfl rfl)
  case recording =>
    split at hs <;> cases hs
    rw [hl.line_setCaller hl' rfl rfl (fun _ => rfl)]
    exact .inr (Step.ret c (by simp only [line, Caller.call, hpc]; rfl))
  case leavingSubmission | startingWait | leavingCompletion =>
    cases hs
    exact .inl (hl.line_moveCaller hl' (by rw [hpc]; rfl) rfl (fun _ => rfl) rfl rfl rfl)

end Callers

variable [DecidableEq C] [DecidableEq W]

theorem Sound.line_workerStep (h : Sound m) (hl' : Locked m') {clock : Clock} {fuel : Nat} {w : W}
    (hs : workerStep hash clock fuel m w = some m') :
    m'.line = m.line ∨ LineStep m.line m'.line := by
  have hl := h.locked
  have hserver : (m.workers w).holdsQueue = true → m.line.server = (m.workers w).server :=
    hl.server_eq
  cases hpc : m.workers w <;> simp only [workerStep, hpc] at hs hserver
  case looping =>
    cases hs
    exact .inl (hl.line_moveWorker hl' (by rw [hpc]; split <;> rfl) rfl (fun _ => rfl) rfl rfl rfl)
  case checkingTimeout =>
    cases hs
    exact .inl (hl.line_moveWorker hl' (by rw [hpc]; split <;> rfl) rfl (fun _ => rfl) rfl rfl rfl)
  case entering | relocking =>
    obtain ⟨-, rfl⟩ := lockQueue_eq_some.mp hs
    exact .inl (hl.line_moveWorker hl' (by rw [hpc]; rfl) rfl (fun _ => rfl) rfl rfl rfl)
  case completing =>
    obtain ⟨-, rfl⟩ := lockCompletion_eq_some.mp hs
    exact .inl (hl.line_moveWorker hl' (by rw [hpc]; rfl) rfl (fun _ => rfl) rfl rfl rfl)
  case testingSize =>
    split at hs
    · cases hs
      exact .inl (hl.line_moveWorker hl' (by rw [hpc]; rfl) rfl (fun _ => rfl) rfl rfl rfl)
    · split at hs
      · cases hs
      · rename_i ref rest hwaiting
        split at hs <;> cases hs
        rw [hl'.line_setWorker rfl rfl rfl]
        exact .inr (Step.start hwaiting (hserver rfl))
  case waiting | stopped => cases hs
  case lockingObjects =>
    split at hs <;> cases hs
    exact .inl (hl.line_moveWorker hl' (by rw [hpc]; rfl) rfl (fun _ => rfl) rfl rfl rfl)
  case enforcing ref result =>
    split at hs
    · cases hs
    · rename_i ticket hderef
      split at hs <;> cases hs
      rename_i q result' henforce
      obtain rfl := deref_eq_some hderef
      have hresult : result' = (m.callers ref.caller).ticket.freshResult := by
        rw [SubmissionQueue.enforceMechanism_result hash henforce,
          h.loaded w ref result (.inr hpc), Ticket.writeResult_new]
      rw [hl'.line_setWorker rfl rfl rfl, hresult]
      exact .inr (Step.serve (hserver rfl))
  case pushing ref result =>
    cases hs
    have hcopy : result.copy = result := by
      rw [h.correct.answered.server ref result (hserver rfl), Ticket.copy_freshResult]
    have hfree : (if queueSize m.completions = 0 then WorkerPc.notifyingCallers
        else .leavingCompletion : WorkerPc C).server = .free := by
      split <;> rfl
    rw [hl'.line_setWorker (by split <;> rfl) rfl rfl, hfree, hcopy]
    exact .inr (Step.complete (hserver rfl))
  case notifyingCallers =>
    cases hs
    exact .inl (hl.line_moveWorker hl' (by rw [hpc]; rfl) rfl
      (fun c => (m.callers c).notify_call) rfl rfl rfl)
  case startingWait | leavingObjects | leavingCompletion | leavingSubmission =>
    cases hs
    exact .inl (hl.line_moveWorker hl' (by rw [hpc]; rfl) rfl (fun _ => rfl) rfl rfl rfl)

/-- Every step is a new call or keeps what the calls are about. -/
theorem step_cases {a : Action C W} (hs : m.step opt hash a = some m') :
    (∃ c context buffer size result, a = .request c context buffer size result ∧
      (m.callers c).pc = .idle ∧ m' = m.called c context buffer size result) ∨ Kept m m' := by
  cases a with
  | request c context buffer size result =>
    exact .inl ⟨c, context, buffer, size, result, rfl, request_cases hs⟩
  | caller c => exact .inr (callerStep_kept hs)
  | wakeCaller c =>
    simp only [step] at hs
    split at hs <;> cases hs
    rename_i hpc
    exact .inr (kept_setCaller (by rw [hpc]; simp) rfl rfl rfl rfl rfl)
  | worker w clock fuel => exact .inr (workerStep_kept hs)
  | wakeWorker w timedOut =>
    simp only [step] at hs
    split at hs <;> cases hs
    exact .inr ⟨fun _ => rfl, fun _ => rfl, fun _ h => h, rfl, rfl⟩
  | stopWorker =>
    cases hs
    exact .inr ⟨fun _ => rfl, fun _ => rfl, fun _ h => h, rfl, rfl⟩

theorem Sound.loaded_step (h : Sound m) {a : Action C W} (hs : m.step opt hash a = some m') :
    Loaded m' := by
  have hl := h.loaded
  cases a with
  | request c context buffer size result =>
    obtain ⟨hidle, rfl⟩ := request_cases hs
    intro w ref result' hw
    have hne : ref.caller ≠ c := by
      intro heq
      have hactive := h.started_awaiting hw
      rw [heq] at hactive
      exact hactive hidle
    rw [called_callers_of_ne m hne]
    exact hl w ref result' hw
  | caller c =>
    intro w ref result hw
    rw [(callerStep_kept hs).ticket]
    refine hl w ref result ?_
    rcases (callerStep_frame hs).2.2.1 with hworkers | hworkers
    · rwa [hworkers] at hw
    · simp only [hworkers, notifyWorkers] at hw
      rcases (m.workers w).notify_cases with hn | ⟨-, hn⟩
      · rwa [hn] at hw
      · simp [hn] at hw
  | wakeCaller c =>
    simp only [step] at hs
    split at hs <;> cases hs
    rename_i hpc
    have hkept : Kept m (m.moveCaller c .relocking) :=
      kept_setCaller (by rw [hpc]; simp) rfl rfl rfl rfl rfl
    intro w ref result hw
    rw [hkept.ticket]
    exact hl w ref result hw
  | worker w clock fuel => exact hl.workerStep hs
  | wakeWorker w timedOut =>
    simp only [step] at hs
    split at hs <;> cases hs
    exact hl.setWorker rfl (fun _ => rfl) (by simp)
  | stopWorker =>
    cases hs
    exact hl

/-- Every step of the machine is a step of the line or one that the line does not see. -/
theorem Sound.line_step (h : Sound m) {a : Action C W} (hfresh : Fresh m a)
    (hs : m.step opt hash a = some m') : m'.line = m.line ∨ LineStep m.line m'.line := by
  have hl := h.locked
  have hl' := hl.step hs
  cases a with
  | request c context buffer size result => exact .inr (h.line_request hl' hfresh hs)
  | caller c => exact h.line_callerStep hl' hs
  | wakeCaller c =>
    simp only [step] at hs
    split at hs <;> cases hs
    rename_i hpc
    exact .inl (hl.line_moveCaller hl' (by rw [hpc]; rfl) rfl (fun _ => rfl) rfl rfl rfl)
  | worker w clock fuel => exact h.line_workerStep hl' hs
  | wakeWorker w timedOut =>
    simp only [step] at hs
    split at hs <;> cases hs
    rename_i hpc
    exact .inl (hl.line_moveWorker hl' (by rw [hpc]; rfl) rfl (fun _ => rfl) rfl rfl rfl)
  | stopWorker =>
    cases hs
    exact .inl (hl.line_eq hl' (fun _ => rfl) (fun _ => rfl) rfl rfl rfl)

theorem Sound.step (h : Sound m) {a : Action C W} (hfresh : Fresh m a)
    (hs : m.step opt hash a = some m') : Sound m' := by
  refine ⟨h.locked.step hs, h.loaded_step hs, ?_⟩
  rcases h.line_step hfresh hs with hline | hline
  · rw [hline]
    exact h.correct
  · exact h.correct.step (fun _ => rfl) hline

end Machine

end Paio
