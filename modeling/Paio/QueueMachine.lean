import Paio.Channel
import Paio.Library.ServiceLine

/-!
# Paio.QueueMachine

A channel in queue mode with any number of callers and workers, one step for each acquisition and
release of a mutex, each wait and notification of a condition variable, each loop test and each
access to a queue.

A caller runs `channel_enforce`: `build_ticket`, `SubmissionQueue::enqueue`,
`CompletionQueue::dequeue` and the statistics. A worker runs `SubmissionQueue::operator()`, which
calls `SubmissionQueue::dequeue`; that call keeps `m_queue_lock` until the Result of its ticket is
in the completion queue.

* The submission queue holds pointers to tickets that are local variables of their callers. A
  pointer is the caller with the number of its call; it can be read as long as that call has not
  returned (`deref`). Reading it later is undefined behaviour, here a step that does not exist.
* `CallerPc` and `WorkerPc` name the next thing a thread does. `startingWait` is the call of `wait`
  with the lock held, `waiting` the time in it, `relocking` its end, where the lock is taken again.
  What follows a test under the same lock, up to the next test, release or notification, happens
  in the step of the test.
* A step that the enforcement of a ticket does not come back from does not exist either. The step
  that makes it carries the clock readings of the call and a bound on its loops.
* `history` and the references beside the Results in `completions` record what happened. No step
  depends on them.
-/

namespace Paio

open ServiceLine

/-- `size ()` of either queue, a `size_t` that is returned as an `int`. -/
def queueSize {α : Type} (q : List α) : Int := toInt32 q.length

@[simp] theorem queueSize_nil {α : Type} : queueSize ([] : List α) = 0 := by
  simp [queueSize, toInt32]

theorem queueSize_cons_ne_zero {α : Type} {a : α} {q : List α} (h : q.length + 1 < 2 ^ 32) :
    queueSize (a :: q) ≠ 0 := by
  intro hzero
  rw [queueSize, toInt32, List.length_cons] at hzero
  have hdvd := Int.dvd_of_bmod_eq_zero hzero
  omega

attribute [irreducible] queueSize

inductive CallerPc where
  | idle
  | submitting
  | emplacing
  | notifyingWorkers
  | leavingSubmission
  | collecting
  | testingSize
  | startingWait
  | waiting
  | relocking
  | peeking
  | leavingCompletion
  | recording
  deriving DecidableEq, Repr

theorem length_noBytes : ([] : List UInt8).length = 0 := rfl

/-- The local variables of a call: the ticket, the context it was made with and the Result that
the reference parameter names. -/
structure Caller where
  pc : CallerPc := .idle
  serial : Nat := 0
  context : Context := {}
  ticket : Ticket := { buffer_length := length_noBytes }
  result : Result := {}

/-- With the ticket pointer and the Result of `SubmissionQueue::dequeue` while it has them. -/
inductive WorkerPc (C : Type) where
  | looping
  | entering
  | testingSize
  | startingWait
  | waiting
  | relocking (timedOut : Bool)
  | checkingTimeout (timedOut : Bool)
  | lockingObjects (ticket : Ref C) (result : Result)
  | enforcing (ticket : Ref C) (result : Result)
  | leavingObjects (ticket : Ref C) (result : Result)
  | completing (ticket : Ref C) (result : Result)
  | pushing (ticket : Ref C) (result : Result)
  | notifyingCallers
  | leavingCompletion
  | leavingSubmission
  | stopped

/-- `notify_all` for one thread: it has no effect on a thread that does not wait. -/
def Caller.notify (x : Caller) : Caller :=
  match x.pc with
  | .waiting => { x with pc := .relocking }
  | _ => x

def WorkerPc.notify {C : Type} : WorkerPc C → WorkerPc C
  | .waiting => .relocking false
  | pc => pc

inductive Thread (C W : Type) where
  | caller (c : C)
  | worker (w : W)
  deriving DecidableEq

structure Machine (C W : Type) where
  channel : ChannelDefault
  submissions : List (Ref C) := []
  completions : List (Ref C × Result) := []
  isRunning : Bool := true
  queueLock : Option (Thread C W) := none
  completionLock : Option (Thread C W) := none
  objectsLock : Option W := none
  callers : C → Caller := fun _ => {}
  workers : W → WorkerPc C := fun _ => .looping
  history : History C Ticket Result := {}

/-- What a thread does next, or something that happens to it: a new call, a spurious wake-up, a
timeout, the end of the workers. -/
inductive Action (C W : Type) where
  | request (c : C) (context : Context) (buffer : Buffer) (size : Nat) (result : Result)
  | caller (c : C)
  | wakeCaller (c : C)
  | worker (w : W) (clock : Clock) (fuel : Nat)
  | wakeWorker (w : W) (timedOut : Bool)
  | stopWorker

namespace Machine

variable {C W : Type} [DecidableEq C] [DecidableEq W] (opt : Options) (hash : String → UInt32)

def setCaller (m : Machine C W) (c : C) (x : Caller) : Machine C W :=
  { m with callers := Function.update m.callers c x }

/-- `m_is_empty.notify_all ()` of the submission queue. -/
def notifyWorkers (m : Machine C W) : Machine C W :=
  { m with workers := fun w => (m.workers w).notify }

/-- `m_is_empty.notify_all ()` of the completion queue. -/
def notifyCallers (m : Machine C W) : Machine C W :=
  { m with callers := fun c => (m.callers c).notify }

def moveCaller (m : Machine C W) (c : C) (pc : CallerPc) : Machine C W :=
  m.setCaller c { m.callers c with pc := pc }

def moveWorker (m : Machine C W) (w : W) (pc : WorkerPc C) : Machine C W :=
  { m with workers := Function.update m.workers w pc }

/-- `&ticket` in the call that the caller is making. -/
def ticketRef (m : Machine C W) (c : C) : Ref C := ⟨c, (m.callers c).serial⟩

/-- `*ticket`. -/
def deref (m : Machine C W) (ref : Ref C) : Option Ticket :=
  let x := m.callers ref.caller
  if x.serial = ref.serial ∧ x.pc ≠ .idle then some x.ticket else none

/-- `channel_enforce` is called: the ticket is built and the Result gets its identifier. -/
def request (m : Machine C W) (c : C) (context : Context) (buffer : Buffer) (size : Nat)
    (result : Result) : Option (Machine C W) :=
  if (m.callers c).pc = .idle ∧ m.channel.useFastPath = false then
    let (ticket, channel) := m.channel.buildTicket context buffer size
    some { m.setCaller c
        { pc := .submitting
          serial := m.history.made
          context := context
          ticket := ticket
          result := result.setTicketId ticket.ticketId } with
      channel := channel
      history := { m.history with made := m.history.made + 1 } }
  else none

def lockQueue (m : Machine C W) (t : Thread C W) (next : Machine C W) : Option (Machine C W) :=
  if m.queueLock = none then some { next with queueLock := some t } else none

def lockCompletion (m : Machine C W) (t : Thread C W) (next : Machine C W) :
    Option (Machine C W) :=
  if m.completionLock = none then some { next with completionLock := some t } else none

def callerStep (m : Machine C W) (c : C) : Option (Machine C W) :=
  match (m.callers c).pc with
  | .idle => none
  -- SubmissionQueue::enqueue
  | .submitting => m.lockQueue (.caller c) (m.moveCaller c .emplacing)
  | .emplacing =>
    some { m.moveCaller c
        (if queueSize m.submissions = 0 then .notifyingWorkers else .leavingSubmission) with
      submissions := m.submissions ++ [m.ticketRef c]
      history := { m.history with submitted := m.history.submitted ++ [m.ticketRef c] } }
  | .notifyingWorkers => some (m.notifyWorkers.moveCaller c .leavingSubmission)
  | .leavingSubmission => some { m.moveCaller c .collecting with queueLock := none }
  -- CompletionQueue::dequeue
  | .collecting => m.lockCompletion (.caller c) (m.moveCaller c .testingSize)
  | .testingSize =>
    some (m.moveCaller c (if queueSize m.completions = 0 then .startingWait else .peeking))
  | .startingWait => some { m.moveCaller c .waiting with completionLock := none }
  | .waiting => none
  | .relocking => m.lockCompletion (.caller c) (m.moveCaller c .testingSize)
  | .peeking =>
    match m.completions with
    | [] => none
    | (ref, front) :: rest =>
      if (m.callers c).ticket.ticketId = front.ticketId then
        some { m.setCaller c { m.callers c with
              pc := .leavingCompletion
              result := (m.callers c).result.assign front } with
          completions := rest
          history := { m.history with
            handed := m.history.handed ++
              [(m.ticketRef c, ref, (m.callers c).result.assign front)] } }
      else some (m.moveCaller c .testingSize)
  | .leavingCompletion => some { m.moveCaller c .recording with completionLock := none }
  -- the statistics, and the return of channel_enforce
  | .recording =>
    match m.channel.recordStatistics opt (m.callers c).context with
    | .error _ => none
    | .ok channel =>
      some { m.moveCaller c .idle with
        channel := channel
        history := { m.history with
          returned := m.history.returned ++
            [(m.ticketRef c, (m.callers c).ticket, (m.callers c).result)] } }

def workerStep (clock : Clock) (fuel : Nat) (m : Machine C W) (w : W) : Option (Machine C W) :=
  match m.workers w with
  | .looping => some (m.moveWorker w (if m.isRunning then .entering else .stopped))
  -- SubmissionQueue::dequeue
  | .entering => m.lockQueue (.worker w) (m.moveWorker w .testingSize)
  | .testingSize =>
    if queueSize m.submissions = 0 then some (m.moveWorker w .startingWait)
    else
      match m.submissions with
      | [] => none
      | ref :: rest =>
        match m.deref ref with
        | none => none
        | some ticket =>
          some { m.moveWorker w (.lockingObjects ref { ticketId := ticket.ticketId }) with
            submissions := rest }
  | .startingWait => some { m.moveWorker w .waiting with queueLock := none }
  | .waiting => none
  | .relocking timedOut => m.lockQueue (.worker w) (m.moveWorker w (.checkingTimeout timedOut))
  | .checkingTimeout timedOut =>
    some (m.moveWorker w (if timedOut && !m.isRunning then .leavingSubmission else .testingSize))
  -- enforce_mechanism
  | .lockingObjects ref result =>
    if m.objectsLock = none then
      some { m.moveWorker w (.enforcing ref result) with objectsLock := some w }
    else none
  | .enforcing ref result =>
    match m.deref ref with
    | none => none
    | some ticket =>
      match m.channel.submissionQueue.enforceMechanism hash clock fuel ticket result with
      | .error _ => none
      | .ok (q, result') =>
        some { m.moveWorker w (.leavingObjects ref result') with
          channel := { m.channel with submissionQueue := q }
          history := { m.history with served := m.history.served ++ [ref] } }
  | .leavingObjects ref result =>
    some { m.moveWorker w (.completing ref result) with objectsLock := none }
  -- CompletionQueue::enqueue
  | .completing ref result => m.lockCompletion (.worker w) (m.moveWorker w (.pushing ref result))
  | .pushing ref result =>
    some { m.moveWorker w
        (if queueSize m.completions = 0 then .notifyingCallers else .leavingCompletion) with
      completions := m.completions ++ [(ref, result.copy)]
      history := { m.history with completed := m.history.completed ++ [(ref, result.copy)] } }
  | .notifyingCallers => some (m.notifyCallers.moveWorker w .leavingCompletion)
  | .leavingCompletion => some { m.moveWorker w .leavingSubmission with completionLock := none }
  -- the end of dequeue
  | .leavingSubmission => some { m.moveWorker w .looping with queueLock := none }
  | .stopped => none

def step (m : Machine C W) : Action C W → Option (Machine C W)
  | .request c context buffer size result => m.request c context buffer size result
  | .caller c => m.callerStep opt c
  | .wakeCaller c =>
    if (m.callers c).pc = .waiting then some (m.moveCaller c .relocking) else none
  | .worker w clock fuel => workerStep hash clock fuel m w
  | .wakeWorker w timedOut =>
    match m.workers w with
    | .waiting => some (m.moveWorker w (.relocking timedOut))
    | _ => none
  | .stopWorker => some { m with isRunning := false }

/-- One step whose action the guard allows in the state before it. -/
def Next (guard : Machine C W → Action C W → Prop) (m m' : Machine C W) : Prop :=
  ∃ a, guard m a ∧ m.step opt hash a = some m'

/-- The states that the runs of allowed steps from a channel with empty queues can reach. -/
abbrev Reaches (guard : Machine C W → Action C W → Prop) : Machine C W → Machine C W → Prop :=
  Relation.ReflTransGen (Next opt hash guard)

end Machine

end Paio
