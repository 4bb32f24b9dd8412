import Paio.QueueLine
import Paio.Service

/-!
# Paio.Wakeups

No notification of the queue machine is lost. `Live` says what a thread that waits, or is about to
wait, can count on: the queue it waits for is empty, or the thread that filled it holds the lock
and has its notification still to make. It holds over every run in which

* no ticket gets the identifier of a call in progress, and the object of a ticket lets it pass at
  some time;
* there are fewer than `2^32` tickets in the queues, so that `size ()`, an `int`, is zero for an
  empty queue only;
* a caller takes the lock of the completion queue only when the queue is empty or the Result at its
  front has the identifier of the caller's ticket.
-/

namespace Paio

open Mutex ServiceLine

theorem queueSize_eq_zero_iff {α : Type} {q : List α} (h : q.length < 2 ^ 32) :
    queueSize q = 0 ↔ q = [] := by
  cases q with
  | nil => simp
  | cons a q => simp [queueSize_cons_ne_zero h]

namespace Machine

variable {C W : Type} {opt : Options} {hash : String → UInt32} {m m' : Machine C W}

/-- The Result at the front of the completion queue has the identifier of the caller's ticket. -/
def FrontOwn (m : Machine C W) (c : C) : Prop :=
  ∃ ref front rest, m.completions = (ref, front) :: rest ∧
    (m.callers c).ticket.ticketId = front.ticketId

/-- The condition on the steps of a run. -/
def Careful (hash : String → UInt32) (m : Machine C W) : Action C W → Prop
  | .request c context buffer size result =>
    Fresh m (.request c context buffer size result) ∧
      m.channel.submissionQueue.Serviceable hash (m.channel.buildTicket context buffer size).1
  | .caller c =>
    match (m.callers c).pc with
    | .submitting => m.submissions.length + m.completions.length + 1 < 2 ^ 32
    | .collecting => m.completions = [] ∨ m.FrontOwn c
    | .relocking => m.completions = [] ∨ m.FrontOwn c
    | _ => True
  | _ => True

theorem Careful.fresh {a : Action C W} (h : Careful hash m a) : Fresh m a := by
  cases a with
  | request c context buffer size result => exact h.1
  | _ => trivial

/-- What a caller in `CompletionQueue::dequeue` can count on. -/
def CallerOk (m : Machine C W) (c : C) : Prop :=
  match (m.callers c).pc with
  | .testingSize => m.completions = [] ∨ m.FrontOwn c
  | .peeking => m.FrontOwn c
  | .startingWait => m.completions = []
  | .waiting => m.completions = [] ∨ ∃ w, m.workers w = .notifyingCallers
  | _ => True

/-- What a worker in `SubmissionQueue::dequeue` can count on. -/
def WorkerOk (m : Machine C W) (w : W) : Prop :=
  match m.workers w with
  | .startingWait => m.submissions = []
  | .waiting => m.submissions = [] ∨ ∃ c, (m.callers c).pc = .notifyingWorkers
  | _ => True

structure Live (hash : String → UInt32) (m : Machine C W) : Prop where
  callers : ∀ c, m.CallerOk c
  workers : ∀ w, m.WorkerOk w
  length : m.line.content.length < 2 ^ 32
  room : ∀ c, (m.callers c).pc = .emplacing → m.line.content.length + 1 < 2 ^ 32
  serviceable : ∀ c, (m.callers c).pc ≠ .idle →
    m.channel.submissionQueue.Serviceable hash (m.callers c).ticket
  running : m.isRunning = true → ∀ w, m.workers w ≠ .stopped

theorem length_content (m : Machine C W) :
    m.line.content.length =
      m.completions.length + m.line.server.refs.length + m.submissions.length := by
  simp [Line.content, line, Nat.add_assoc]

theorem Live.completions_eq_nil (h : Live hash m) (hsize : queueSize m.completions = 0) :
    m.completions = [] := by
  have hlen := h.length
  rw [length_content] at hlen
  exact (queueSize_eq_zero_iff (by omega)).mp hsize

theorem Live.submissions_eq_nil (h : Live hash m) (hsize : queueSize m.submissions = 0) :
    m.submissions = [] := by
  have hlen := h.length
  rw [length_content] at hlen
  exact (queueSize_eq_zero_iff (by omega)).mp hsize

/-! ## Callers and the completion queue -/

theorem callerOk_of_pc {c : C} (hne : (m.callers c).pc ≠ .testingSize ∧
    (m.callers c).pc ≠ .peeking ∧ (m.callers c).pc ≠ .startingWait ∧ (m.callers c).pc ≠ .waiting) :
    m.CallerOk c := by
  simp only [CallerOk]
  split <;> simp_all

theorem FrontOwn.congr {c : C} (h : m.FrontOwn c) (hcompletions : m'.completions = m.completions)
    (hticket : (m'.callers c).ticket = (m.callers c).ticket) : m'.FrontOwn c := by
  obtain ⟨ref, front, rest, hready, hid⟩ := h
  exact ⟨ref, front, rest, by rw [hcompletions, hready], by rw [hticket, hid]⟩

theorem callerOk_of_not_holds {c : C} (h : (m.callers c).pc.holdsCompletion = false)
    (hwaiting : (m.callers c).pc = .waiting →
      m.completions = [] ∨ ∃ w, m.workers w = .notifyingCallers) : m.CallerOk c := by
  simp only [CallerOk]
  split <;> simp_all [CallerPc.holdsCompletion]

/-- Only one thread is in the sections of the completion queue. -/
theorem Locked.caller_not_holds_completion (hl : Locked m) {t : Thread C W}
    (ht : m.holdsCompletion t = true) {c : C} (hne : t ≠ .caller c) :
    (m.callers c).pc.holdsCompletion = false := by
  cases hb : (m.callers c).pc.holdsCompletion with
  | false => rfl
  | true =>
    have hc : m.holdsCompletion (.caller c) = true := hb
    exact absurd (hl.completion.unique ht hc) hne

/-- A thread in a section of the completion queue, unless it is about to notify, finds nobody
waiting for a queue that is not empty. -/
theorem Live.completions_of_waiting (hl : Locked m) (h : Live hash m) {t : Thread C W}
    (ht : m.holdsCompletion t = true) (hnotify : ∀ w, t = .worker w →
      m.workers w ≠ .notifyingCallers) {c : C} (hpc : (m.callers c).pc = .waiting) :
    m.completions = [] := by
  have hok := h.callers c
  simp only [CallerOk, hpc] at hok
  rcases hok with hok | ⟨w, hw⟩
  · exact hok
  · have hworker : m.holdsCompletion (.worker w) = true := by
      simp only [holdsCompletion, hw, WorkerPc.holdsCompletion]
    exact absurd hw (hnotify w (hl.completion.unique ht hworker))

section Callers

variable [DecidableEq C]

/-- A step of a caller that leaves the completion queue alone. -/
theorem callersOk_setCaller (h : ∀ c, m.CallerOk c) {c : C} {x : Caller}
    (hcallers : m'.callers = Function.update m.callers c x)
    (hcompletions : m'.completions = m.completions)
    (hworkers : ∀ w, m.workers w = .notifyingCallers → m'.workers w = .notifyingCallers)
    (hc : m'.CallerOk c) : ∀ c, m'.CallerOk c := by
  intro c'
  by_cases hcc : c' = c
  · rw [hcc]
    exact hc
  · have hsame : m'.callers c' = m.callers c' := by rw [hcallers, Function.update_of_ne hcc]
    have hok := h c'
    simp only [CallerOk, FrontOwn, hsame, hcompletions] at hok ⊢
    split at hok
    · exact hok
    · exact hok
    · exact hok
    · rcases hok with hok | ⟨w, hw⟩
      · exact .inl hok
      · exact .inr ⟨w, hworkers w hw⟩
    · trivial

theorem pc_moveCaller (m : Machine C W) (c : C) (pc : CallerPc) :
    ((m.moveCaller c pc).callers c).pc = pc := by
  simp [moveCaller, setCaller]

theorem ticket_moveCaller (m : Machine C W) (c : C) (pc : CallerPc) :
    ((m.moveCaller c pc).callers c).ticket = (m.callers c).ticket := by
  simp [moveCaller, setCaller]

theorem Live.callersOk_callerStep (hl : Locked m) (h : Live hash m) {c : C}
    (hcareful : Careful hash m (.caller c)) (hs : m.callerStep opt c = some m') :
    ∀ c, m'.CallerOk c := by
  have hok := h.callers c
  cases hpc : (m.callers c).pc <;> simp only [callerStep, hpc] at hs
  case idle | waiting => cases hs
  case submitting =>
    obtain ⟨-, rfl⟩ := lockQueue_eq_some.mp hs
    exact callersOk_setCaller h.callers rfl rfl (fun _ hw => hw)
      (callerOk_of_pc (by simp [pc_moveCaller]))
  case emplacing =>
    cases hs
    refine callersOk_setCaller h.callers rfl rfl (fun _ hw => hw) (callerOk_of_pc ?_)
    simp only [pc_moveCaller]
    split <;> simp
  case notifyingWorkers =>
    cases hs
    refine callersOk_setCaller h.callers rfl rfl ?_ (callerOk_of_pc (by simp [pc_moveCaller]))
    intro w hw
    simp [moveCaller, setCaller, notifyWorkers, hw, WorkerPc.notify]
  case collecting | relocking =>
    obtain ⟨-, rfl⟩ := lockCompletion_eq_some.mp hs
    refine callersOk_setCaller h.callers rfl rfl (fun _ hw => hw) ?_
    simp only [Careful, hpc] at hcareful
    simp only [CallerOk, pc_moveCaller]
    exact hcareful.imp id fun hf => hf.congr rfl (ticket_moveCaller m c .testingSize)
  case testingSize =>
    cases hs
    refine callersOk_setCaller h.callers rfl rfl (fun _ hw => hw) ?_
    simp only [CallerOk, hpc] at hok
    by_cases hsize : queueSize m.completions = 0
    · simp only [CallerOk, pc_moveCaller, if_pos hsize]
      exact h.completions_eq_nil hsize
    · have hne : m.completions ≠ [] := by
        intro hnil
        exact hsize (by rw [hnil, queueSize_nil])
      simp only [CallerOk, pc_moveCaller, if_neg hsize]
      exact (hok.resolve_left hne).congr rfl (ticket_moveCaller m c _)
  case startingWait =>
    cases hs
    refine callersOk_setCaller h.callers rfl rfl (fun _ hw => hw) ?_
    simp only [CallerOk, hpc] at hok
    simp only [CallerOk, pc_moveCaller]
    exact .inl hok
  case peeking =>
    split at hs
    · cases hs
    · rename_i ref front rest hready
      split at hs <;> cases hs
      · -- nobody else has the lock, and nobody waits while the queue is not empty
        have hholds : m.holdsCompletion (.caller c) = true := by
          simp only [holdsCompletion, hpc, CallerPc.holdsCompletion]
        intro c'
        by_cases hcc : c' = c
        · subst hcc
          exact callerOk_of_pc (by simp [setCaller])
        · have hne : Thread.caller c ≠ (.caller c' : Thread C W) :=
            fun heq => hcc (Thread.caller.inj heq).symm
          apply callerOk_of_not_holds <;> simp only [setCaller, Function.update_of_ne hcc]
          · exact hl.caller_not_holds_completion hholds hne
          · intro hwaiting
            have hnil := h.completions_of_waiting hl hholds (fun w heq => by cases heq) hwaiting
            rw [hready] at hnil
            cases hnil
      · rename_i hid
        simp only [CallerOk, hpc] at hok
        obtain ⟨ref', front', rest', hready', hid'⟩ := hok
        rw [hready] at hready'
        cases hready'
        exact absurd hid' hid
  case recording =>
    split at hs <;> cases hs
    exact callersOk_setCaller h.callers rfl rfl (fun _ hw => hw)
      (callerOk_of_pc (by simp [pc_moveCaller]))
  case leavingSubmission | leavingCompletion =>
    cases hs
    exact callersOk_setCaller h.callers rfl rfl (fun _ hw => hw)
      (callerOk_of_pc (by simp [pc_moveCaller]))

end Callers

section Workers

variable [DecidableEq W]

/-- A step of a worker that leaves the completion queue alone. -/
theorem callersOk_moveWorker (h : ∀ c, m.CallerOk c) {w : W} {pc : WorkerPc C}
    (hpc : m.workers w ≠ .notifyingCallers)
    (hworkers : m'.workers = Function.update m.workers w pc) (hcallers : m'.callers = m.callers)
    (hcompletions : m'.completions = m.completions) : ∀ c, m'.CallerOk c := by
  intro c
  have hok := h c
  simp only [CallerOk, FrontOwn, hcallers, hcompletions] at hok ⊢
  split at hok
  · exact hok
  · exact hok
  · exact hok
  · rcases hok with hok | ⟨w', hw'⟩
    · exact .inl hok
    · refine .inr ⟨w', ?_⟩
      rw [hworkers, Function.update_of_ne, hw']
      intro hww
      exact hpc (by rw [← hww, hw'])
  · trivial

theorem Live.callersOk_workerStep (hl : Locked m) (h : Live hash m) {clock : Clock} {fuel : Nat}
    {w : W} (hs : workerStep hash clock fuel m w = some m') : ∀ c, m'.CallerOk c := by
  cases hpc : m.workers w <;> simp only [workerStep, hpc] at hs
  case waiting | stopped => cases hs
  case entering | relocking =>
    obtain ⟨-, rfl⟩ := lockQueue_eq_some.mp hs
    exact callersOk_moveWorker h.callers (by rw [hpc]; simp) rfl rfl rfl
  case completing =>
    obtain ⟨-, rfl⟩ := lockCompletion_eq_some.mp hs
    exact callersOk_moveWorker h.callers (by rw [hpc]; simp) rfl rfl rfl
  case testingSize =>
    split at hs
    · cases hs
      exact callersOk_moveWorker h.callers (by rw [hpc]; simp) rfl rfl rfl
    · split at hs
      · cases hs
      · split at hs <;> cases hs
        exact callersOk_moveWorker h.callers (by rw [hpc]; simp) rfl rfl rfl
  case lockingObjects =>
    split at hs <;> cases hs
    exact callersOk_moveWorker h.callers (by rw [hpc]; simp) rfl rfl rfl
  case enforcing =>
    split at hs
    · cases hs
    · split at hs <;> cases hs
      exact callersOk_moveWorker h.callers (by rw [hpc]; simp) rfl rfl rfl
  case pushing ref result =>
    cases hs
    have hholds : m.holdsCompletion (.worker w) = true := by
      simp only [holdsCompletion, hpc, WorkerPc.holdsCompletion]
    intro c
    apply callerOk_of_not_holds
    · exact hl.caller_not_holds_completion hholds (by simp)
    · intro hwaiting
      -- the queue was empty, so the notification comes next
      have hnil := h.completions_of_waiting hl hholds
        (fun w' heq => by rw [← Thread.worker.inj heq, hpc]; simp) hwaiting
      refine .inr ⟨w, ?_⟩
      simp [moveWorker, hnil]
  case notifyingCallers =>
    cases hs
    have hholds : m.holdsCompletion (.worker w) = true := by
      simp only [holdsCompletion, hpc, WorkerPc.holdsCompletion]
    intro c
    rcases (m.callers c).notify_cases with hn | ⟨-, hn⟩
    · apply callerOk_of_not_holds <;> simp only [moveWorker, notifyCallers, hn]
      · exact hl.caller_not_holds_completion hholds (by simp)
      · intro hwaiting
        have hpc' := congrArg Caller.pc hn
        simp [Caller.notify, hwaiting] at hpc'
    · apply callerOk_of_pc
      simp [moveWorker, notifyCallers, hn]
  case looping | checkingTimeout | startingWait | leavingObjects | leavingCompletion |
      leavingSubmission =>
    cases hs
    exact callersOk_moveWorker h.callers (by rw [hpc]; simp) rfl rfl rfl

end Workers

/-! ## Workers and the submission queue -/

theorem workerOk_of_pc {w : W} (hne : m.workers w ≠ .startingWait ∧ m.workers w ≠ .waiting) :
    m.WorkerOk w := by
  simp only [WorkerOk]
  split <;> simp_all

theorem workerOk_of_not_holds {w : W} (h : (m.workers w).holdsQueue = false)
    (hwaiting : m.workers w = .waiting →
      m.submissions = [] ∨ ∃ c, (m.callers c).pc = .notifyingWorkers) : m.WorkerOk w := by
  simp only [WorkerOk]
  split <;> simp_all [WorkerPc.holdsQueue]

/-- Only one thread is in the sections of the submission queue. -/
theorem Locked.worker_not_holds_queue (hl : Locked m) {t : Thread C W}
    (ht : m.holdsQueue t = true) {w : W} (hne : t ≠ .worker w) :
    (m.workers w).holdsQueue = false := by
  cases hb : (m.workers w).holdsQueue with
  | false => rfl
  | true =>
    have hw : m.holdsQueue (.worker w) = true := hb
    exact absurd (hl.queue.unique ht hw) hne

/-- A thread in a section of the submission queue, unless it is about to notify, finds nobody
waiting for a queue that is not empty. -/
theorem Live.submissions_of_waiting (hl : Locked m) (h : Live hash m) {t : Thread C W}
    (ht : m.holdsQueue t = true) (hnotify : ∀ c, t = .caller c →
      (m.callers c).pc ≠ .notifyingWorkers) {w : W} (hpc : m.workers w = .waiting) :
    m.submissions = [] := by
  have hok := h.workers w
  simp only [WorkerOk, hpc] at hok
  rcases hok with hok | ⟨c, hc⟩
  · exact hok
  · have hcaller : m.holdsQueue (.caller c) = true := by
      simp only [holdsQueue, hc, CallerPc.holdsQueue]
    exact absurd hc (hnotify c (hl.queue.unique ht hcaller))

/-- A step that changes one caller, which is not about to notify the workers, and leaves the
submission queue alone. -/
theorem workersOk_setCaller [DecidableEq C] (h : ∀ w, m.WorkerOk w) {c : C} {x : Caller}
    (hpc : (m.callers c).pc ≠ .notifyingWorkers)
    (hcallers : m'.callers = Function.update m.callers c x) (hworkers : m'.workers = m.workers)
    (hsubmissions : m'.submissions = m.submissions) : ∀ w, m'.WorkerOk w := by
  intro w
  have hok := h w
  simp only [WorkerOk, hworkers, hsubmissions] at hok ⊢
  split at hok
  · exact hok
  · rcases hok with hok | ⟨c', hc'⟩
    · exact .inl hok
    · refine .inr ⟨c', ?_⟩
      rw [hcallers, Function.update_of_ne, hc']
      intro hcc
      exact hpc (by rw [← hcc, hc'])
  · trivial

/-- A step that changes one worker and leaves the submission queue alone. -/
theorem workersOk_setWorker [DecidableEq W] (h : ∀ w, m.WorkerOk w) {w : W} {pc : WorkerPc C}
    (hworkers : m'.workers = Function.update m.workers w pc)
    (hsubmissions : m'.submissions = m.submissions)
    (hcallers : ∀ c, (m.callers c).pc = .notifyingWorkers →
      (m'.callers c).pc = .notifyingWorkers)
    (hw : m'.WorkerOk w) : ∀ w, m'.WorkerOk w := by
  intro w'
  by_cases hww : w' = w
  · rw [hww]
    exact hw
  · have hsame : m'.workers w' = m.workers w' := by rw [hworkers, Function.update_of_ne hww]
    have hok := h w'
    simp only [WorkerOk, hsame, hsubmissions] at hok ⊢
    split at hok
    · exact hok
    · rcases hok with hok | ⟨c, hc⟩
      · exact .inl hok
      · exact .inr ⟨c, hcallers c hc⟩
    · trivial

theorem Live.workersOk_callerStep [DecidableEq C] (hl : Locked m) (h : Live hash m) {c : C}
    (hs : m.callerStep opt c = some m') : ∀ w, m'.WorkerOk w := by
  cases hpc : (m.callers c).pc <;> simp only [callerStep, hpc] at hs
  case idle | waiting => cases hs
  case submitting =>
    obtain ⟨-, rfl⟩ := lockQueue_eq_some.mp hs
    exact workersOk_setCaller h.workers (by rw [hpc]; simp) rfl rfl rfl
  case collecting | relocking =>
    obtain ⟨-, rfl⟩ := lockCompletion_eq_some.mp hs
    exact workersOk_setCaller h.workers (by rw [hpc]; simp) rfl rfl rfl
  case emplacing =>
    cases hs
    have hholds : m.holdsQueue (.caller c) = true := by
      simp only [holdsQueue, hpc, CallerPc.holdsQueue]
    intro w
    apply workerOk_of_not_holds
    · exact hl.worker_not_holds_queue hholds (by simp)
    · intro hwaiting
      -- the queue was empty, so the notification comes next
      have hnil := h.submissions_of_waiting hl hholds
        (fun c' heq => by rw [← Thread.caller.inj heq, hpc]; simp) hwaiting
      refine .inr ⟨c, ?_⟩
      simp [pc_moveCaller, hnil]
  case notifyingWorkers =>
    cases hs
    have hholds : m.holdsQueue (.caller c) = true := by
      simp only [holdsQueue, hpc, CallerPc.holdsQueue]
    intro w
    rcases (m.workers w).notify_cases with hn | ⟨-, hn⟩
    · apply workerOk_of_not_holds <;> simp only [moveCaller, setCaller, notifyWorkers, hn]
      · exact hl.worker_not_holds_queue hholds (by simp)
      · intro hwaiting
        simp [WorkerPc.notify, hwaiting] at hn
    · apply workerOk_of_pc
      simp [moveCaller, setCaller, notifyWorkers, hn]
  case peeking =>
    split at hs
    · cases hs
    · split at hs <;> cases hs <;>
        exact workersOk_setCaller h.workers (by rw [hpc]; simp) rfl rfl rfl
  case recording =>
    split at hs <;> cases hs
    exact workersOk_setCaller h.workers (by rw [hpc]; simp) rfl rfl rfl
  case leavingSubmission | testingSize | startingWait | leavingCompletion =>
    cases hs
    exact workersOk_setCaller h.workers (by rw [hpc]; simp) rfl rfl rfl

theorem workers_moveWorker [DecidableEq W] (m : Machine C W) (w : W) (pc : WorkerPc C) :
    (m.moveWorker w pc).workers w = pc := by
  simp [moveWorker]

theorem Live.workersOk_workerStep [DecidableEq W] (hl : Locked m) (h : Live hash m)
    {clock : Clock} {fuel : Nat} {w : W} (hs : workerStep hash clock fuel m w = some m') :
    ∀ w, m'.WorkerOk w := by
  have hok := h.workers w
  cases hpc : m.workers w <;> simp only [workerStep, hpc] at hs
  case waiting | stopped => cases hs
  case looping | checkingTimeout =>
    cases hs
    refine workersOk_setWorker h.workers rfl rfl (fun _ hc => hc) (workerOk_of_pc ?_)
    simp only [workers_moveWorker]
    split <;> simp
  case entering | relocking =>
    obtain ⟨-, rfl⟩ := lockQueue_eq_some.mp hs
    exact workersOk_setWorker h.workers rfl rfl (fun _ hc => hc)
      (workerOk_of_pc (by simp [workers_moveWorker]))
  case completing =>
    obtain ⟨-, rfl⟩ := lockCompletion_eq_some.mp hs
    exact workersOk_setWorker h.workers rfl rfl (fun _ hc => hc)
      (workerOk_of_pc (by simp [workers_moveWorker]))
  case testingSize =>
    split at hs
    · rename_i hsize
      cases hs
      refine workersOk_setWorker h.workers rfl rfl (fun _ hc => hc) ?_
      simp only [WorkerOk, workers_moveWorker]
      exact h.submissions_eq_nil hsize
    · split at hs
      · cases hs
      · rename_i ref rest hwaiting
        split at hs <;> cases hs
        have hholds : m.holdsQueue (.worker w) = true := by
          simp only [holdsQueue, hpc, WorkerPc.holdsQueue]
        intro w'
        by_cases hww : w' = w
        · subst hww
          exact workerOk_of_pc (by simp [workers_moveWorker])
        · have hne : Thread.worker w ≠ (.worker w' : Thread C W) :=
            fun heq => hww (Thread.worker.inj heq).symm
          apply workerOk_of_not_holds <;> simp only [moveWorker, Function.update_of_ne hww]
          · exact hl.worker_not_holds_queue hholds hne
          · intro hw'
            have hnil := h.submissions_of_waiting hl hholds (fun c heq => by cases heq) hw'
            rw [hwaiting] at hnil
            cases hnil
  case startingWait =>
    cases hs
    refine workersOk_setWorker h.workers rfl rfl (fun _ hc => hc) ?_
    simp only [WorkerOk, hpc] at hok
    simp only [WorkerOk, workers_moveWorker]
    exact .inl hok
  case lockingObjects =>
    split at hs <;> cases hs
    exact workersOk_setWorker h.workers rfl rfl (fun _ hc => hc)
      (workerOk_of_pc (by simp [workers_moveWorker]))
  case enforcing =>
    split at hs
    · cases hs
    · split at hs <;> cases hs
      exact workersOk_setWorker h.workers rfl rfl (fun _ hc => hc)
        (workerOk_of_pc (by simp [workers_moveWorker]))
  case pushing =>
    cases hs
    refine workersOk_setWorker h.workers rfl rfl (fun _ hc => hc) (workerOk_of_pc ?_)
    simp only [workers_moveWorker]
    split <;> simp
  case notifyingCallers =>
    cases hs
    refine workersOk_setWorker h.workers rfl rfl ?_ (workerOk_of_pc (by simp [workers_moveWorker]))
    intro c hc
    simp [moveWorker, notifyCallers, Caller.notify, hc]
  case leavingObjects | leavingCompletion | leavingSubmission =>
    cases hs
    exact workersOk_setWorker h.workers rfl rfl (fun _ hc => hc)
      (workerOk_of_pc (by simp [workers_moveWorker]))

/-! ## Runs -/

/-- What else the step of a worker leaves alone. -/
theorem workerStep_frame [DecidableEq W] {clock : Clock} {fuel : Nat} {w : W}
    (hs : workerStep hash clock fuel m w = some m') :
    m'.isRunning = m.isRunning ∧ m'.history.submitted = m.history.submitted ∧
      (m'.callers = m.callers ∨ m'.callers = m.notifyCallers.callers) ∧
      (m'.channel.submissionQueue = m.channel.submissionQueue ∨
        ∃ ticket result result', m.channel.submissionQueue.enforceMechanism hash clock fuel ticket
          result = .ok (m'.channel.submissionQueue, result')) := by
  cases hpc : m.workers w <;> simp only [workerStep, hpc] at hs
  case waiting | stopped => cases hs
  case entering | relocking =>
    obtain ⟨-, rfl⟩ := lockQueue_eq_some.mp hs
    exact ⟨rfl, rfl, .inl rfl, .inl rfl⟩
  case completing =>
    obtain ⟨-, rfl⟩ := lockCompletion_eq_some.mp hs
    exact ⟨rfl, rfl, .inl rfl, .inl rfl⟩
  case testingSize =>
    split at hs
    · cases hs
      exact ⟨rfl, rfl, .inl rfl, .inl rfl⟩
    · split at hs
      · cases hs
      · split at hs <;> cases hs
        exact ⟨rfl, rfl, .inl rfl, .inl rfl⟩
  case lockingObjects =>
    split at hs <;> cases hs
    exact ⟨rfl, rfl, .inl rfl, .inl rfl⟩
  case enforcing =>
    split at hs
    · cases hs
    · split at hs <;> cases hs
      rename_i henforce
      exact ⟨rfl, rfl, .inl rfl, .inr ⟨_, _, _, henforce⟩⟩
  case notifyingCallers =>
    cases hs
    exact ⟨rfl, rfl, .inr rfl, .inl rfl⟩
  case looping | checkingTimeout | startingWait | leavingObjects | pushing | leavingCompletion |
      leavingSubmission =>
    cases hs
    exact ⟨rfl, rfl, .inl rfl, .inl rfl⟩

/-- A caller puts its ticket into the queue after it took the lock. -/
theorem callerStep_callers [DecidableEq C] {c : C} (hs : m.callerStep opt c = some m') :
    ∃ x, m'.callers = Function.update m.callers c x ∧
      (x.pc = .emplacing → (m.callers c).pc = .submitting ∧ m.queueLock = none) := by
  cases hpc : (m.callers c).pc <;> simp only [callerStep, hpc] at hs
  case idle | waiting => cases hs
  case submitting =>
    obtain ⟨hfree, rfl⟩ := lockQueue_eq_some.mp hs
    exact ⟨_, rfl, fun _ => ⟨rfl, hfree⟩⟩
  case collecting | relocking =>
    obtain ⟨-, rfl⟩ := lockCompletion_eq_some.mp hs
    exact ⟨_, rfl, by simp⟩
  case emplacing | testingSize =>
    cases hs
    refine ⟨_, rfl, ?_⟩
    split <;> simp
  case peeking =>
    split at hs
    · cases hs
    · split at hs <;> cases hs <;> exact ⟨_, rfl, by simp⟩
  case recording =>
    split at hs <;> cases hs
    exact ⟨_, rfl, by simp⟩
  case notifyingWorkers | leavingSubmission | startingWait | leavingCompletion =>
    cases hs
    exact ⟨_, rfl, by simp⟩

/-- A worker stops after it was told to. -/
theorem workerStep_workers [DecidableEq W] {clock : Clock} {fuel : Nat} {w : W}
    (hs : workerStep hash clock fuel m w = some m') :
    ∃ pc, m'.workers = Function.update m.workers w pc ∧
      (pc = .stopped → m.isRunning = false) := by
  cases hpc : m.workers w <;> simp only [workerStep, hpc] at hs
  case waiting | stopped => cases hs
  case looping =>
    cases hs
    refine ⟨_, rfl, ?_⟩
    split
    · simp
    · rename_i hrunning
      simp [hrunning]
  case entering | relocking =>
    obtain ⟨-, rfl⟩ := lockQueue_eq_some.mp hs
    exact ⟨_, rfl, by simp⟩
  case completing =>
    obtain ⟨-, rfl⟩ := lockCompletion_eq_some.mp hs
    exact ⟨_, rfl, by simp⟩
  case testingSize =>
    split at hs
    · cases hs
      exact ⟨_, rfl, by simp⟩
    · split at hs
      · cases hs
      · split at hs <;> cases hs
        exact ⟨_, rfl, by simp⟩
  case lockingObjects =>
    split at hs <;> cases hs
    exact ⟨_, rfl, by simp⟩
  case enforcing =>
    split at hs
    · cases hs
    · split at hs <;> cases hs
      exact ⟨_, rfl, by simp⟩
  case checkingTimeout | pushing =>
    cases hs
    refine ⟨_, rfl, ?_⟩
    split <;> simp
  case startingWait | leavingObjects | notifyingCallers | leavingCompletion |
      leavingSubmission =>
    cases hs
    exact ⟨_, rfl, by simp⟩

variable [DecidableEq C] [DecidableEq W]

/-- Tickets enter the line in one place. -/
theorem submitted_of_step {a : Action C W} (hs : m.step opt hash a = some m') :
    m'.history.submitted = m.history.submitted ∨
      ∃ c, a = .caller c ∧ (m.callers c).pc = .emplacing ∧
        m'.history.submitted = m.history.submitted ++ [m.ticketRef c] := by
  cases a with
  | request c context buffer size result =>
    obtain ⟨-, rfl⟩ := request_cases hs
    exact .inl rfl
  | caller c =>
    rcases (callerStep_frame hs).2.2.2 with hsame | hpc
    · exact .inl hsame
    · simp only [step, callerStep, hpc] at hs
      cases hs
      exact .inr ⟨c, rfl, hpc, rfl⟩
  | wakeCaller c =>
    simp only [step] at hs
    split at hs <;> cases hs
    exact .inl rfl
  | worker w clock fuel => exact .inl (workerStep_frame hs).2.1
  | wakeWorker w timedOut =>
    simp only [step] at hs
    split at hs <;> cases hs
    exact .inl rfl
  | stopWorker =>
    cases hs
    exact .inl rfl

theorem emplacing_of_step {a : Action C W} (hs : m.step opt hash a = some m') {c : C}
    (hc : (m'.callers c).pc = .emplacing) :
    ((m.callers c).pc = .emplacing ∧ a ≠ .caller c) ∨
      (a = .caller c ∧ (m.callers c).pc = .submitting ∧ m.queueLock = none) := by
  cases a with
  | request c' context buffer size result =>
    obtain ⟨-, rfl⟩ := request_cases hs
    refine .inl ⟨?_, by simp⟩
    by_cases hcc : c = c'
    · subst hcc
      simp at hc
    · rwa [called_callers_of_ne m hcc] at hc
  | caller c' =>
    obtain ⟨x, hcallers, hx⟩ := callerStep_callers hs
    rw [hcallers] at hc
    by_cases hcc : c = c'
    · subst hcc
      rw [Function.update_self] at hc
      exact .inr ⟨rfl, hx hc⟩
    · rw [Function.update_of_ne hcc] at hc
      exact .inl ⟨hc, fun heq => hcc (Action.caller.inj heq).symm⟩
  | wakeCaller c' =>
    simp only [step] at hs
    split at hs <;> cases hs
    refine .inl ⟨?_, by simp⟩
    by_cases hcc : c = c'
    · subst hcc
      simp [pc_moveCaller] at hc
    · simpa [moveCaller, setCaller, hcc] using hc
  | worker w clock fuel =>
    refine .inl ⟨?_, by simp⟩
    rcases (workerStep_frame hs).2.2.1 with hcallers | hcallers
    · rwa [hcallers] at hc
    · simp only [hcallers, notifyCallers] at hc
      rcases (m.callers c).notify_cases with hn | ⟨-, hn⟩
      · rwa [hn] at hc
      · simp [hn] at hc
  | wakeWorker w timedOut =>
    simp only [step] at hs
    split at hs <;> cases hs
    exact .inl ⟨hc, by simp⟩
  | stopWorker =>
    cases hs
    exact .inl ⟨hc, by simp⟩

/-- The line grows by the ticket that enters it. -/
theorem length_content_of_step (h : Sound m) {a : Action C W} (hfresh : Fresh m a)
    (hs : m.step opt hash a = some m') :
    m'.line.content.length ≤ m.line.content.length ∨
      ∃ c, a = .caller c ∧ (m.callers c).pc = .emplacing ∧
        m'.line.content.length ≤ m.line.content.length + 1 := by
  have hlen := h.correct.ordered.length_submitted
  have hlen' := (h.step hfresh hs).correct.ordered.length_submitted
  have hhanded : m.line.history.handed.length ≤ m'.line.history.handed.length := by
    rcases h.line_step hfresh hs with hline | hline
    · rw [hline]
    · exact hline.handed_prefix.length_le
  rcases submitted_of_step hs with hsame | ⟨c, rfl, hpc, hnew⟩
  · have hsame' : m'.line.history.submitted = m.line.history.submitted := hsame
    rw [hsame'] at hlen'
    exact .inl (by omega)
  · have hnew' : m'.line.history.submitted = m.line.history.submitted ++ [m.ticketRef c] := hnew
    rw [hnew', List.length_append, List.length_singleton] at hlen'
    exact .inr ⟨c, rfl, hpc, by omega⟩

theorem Live.length_step (hm : Sound m) (h : Live hash m) {a : Action C W} (hfresh : Fresh m a)
    (hs : m.step opt hash a = some m') : m'.line.content.length < 2 ^ 32 := by
  have hlen := h.length
  rcases length_content_of_step hm hfresh hs with hle | ⟨c, -, hpc, hle⟩
  · omega
  · have hroom := h.room c hpc
    omega

theorem Live.room_step (hm : Sound m) (h : Live hash m) {a : Action C W}
    (hcareful : Careful hash m a) (hs : m.step opt hash a = some m') {c : C}
    (hc : (m'.callers c).pc = .emplacing) : m'.line.content.length + 1 < 2 ^ 32 := by
  have hle := length_content_of_step hm hcareful.fresh hs
  rcases emplacing_of_step hs hc with ⟨hpc, hne⟩ | ⟨rfl, hpc, hfree⟩
  · have hroom := h.room c hpc
    rcases hle with hle | ⟨c', rfl, hpc', -⟩
    · omega
    · -- two callers with the lock of the submission queue
      have hholds : m.holdsQueue (.caller c) = true := by
        simp only [holdsQueue, hpc, CallerPc.holdsQueue]
      have hholds' : m.holdsQueue (.caller c') = true := by
        simp only [holdsQueue, hpc', CallerPc.holdsQueue]
      have heq := Thread.caller.inj (hm.locked.queue.unique hholds hholds')
      exact absurd (by rw [heq]) hne
  · simp only [Careful, hpc] at hcareful
    have hserver : m.line.server = .free := by simp only [line, server, hfree]
    have hcontent := m.length_content
    rw [hserver] at hcontent
    simp only [Server.refs, List.length_nil] at hcontent
    rcases hle with hle | ⟨c', heq, hpc', -⟩
    · omega
    · rw [Action.caller.inj heq, hpc'] at hpc
      cases hpc

theorem Live.serviceable_step (h : Live hash m) {a : Action C W} (hcareful : Careful hash m a)
    (hs : m.step opt hash a = some m') {c : C} (hc : (m'.callers c).pc ≠ .idle) :
    m'.channel.submissionQueue.Serviceable hash (m'.callers c).ticket := by
  obtain ⟨c', context, buffer, size, result, rfl, -, rfl⟩ | hk := step_cases hs
  · by_cases hcc : c = c'
    · subst hcc
      rw [called_callers_self]
      exact hcareful.2
    · rw [called_callers_of_ne m hcc] at hc ⊢
      exact h.serviceable c hc
  · have hold := h.serviceable c fun hidle => hc (hk.idle c hidle)
    rw [hk.ticket]
    cases a with
    | request c' context buffer size result =>
      obtain ⟨-, rfl⟩ := request_cases hs
      exact absurd hk.made (by simp [called])
    | caller c' =>
      rw [(callerStep_frame hs).1]
      exact hold
    | wakeCaller c' =>
      simp only [step] at hs
      split at hs <;> cases hs
      exact hold
    | worker w clock fuel =>
      rcases (workerStep_frame hs).2.2.2 with hsame | ⟨ticket, result, result', henforce⟩
      · rw [hsame]
        exact hold
      · exact hold.enforce henforce
    | wakeWorker w timedOut =>
      simp only [step] at hs
      split at hs <;> cases hs
      exact hold
    | stopWorker =>
      cases hs
      exact hold

/-- Steps do not start the workers again, and no worker stops as long as they are running. -/
theorem Live.running_step (h : Live hash m) {a : Action C W} (hs : m.step opt hash a = some m')
    (hrunning : m'.isRunning = true) :
    m.isRunning = true ∧ ∀ w, m'.workers w ≠ .stopped := by
  cases a with
  | request c context buffer size result =>
    obtain ⟨-, rfl⟩ := request_cases hs
    exact ⟨hrunning, h.running hrunning⟩
  | caller c =>
    obtain ⟨-, hsame, hworkers, -⟩ := callerStep_frame hs
    rw [hsame] at hrunning
    refine ⟨hrunning, ?_⟩
    intro w hw
    refine h.running hrunning w ?_
    rcases hworkers with hworkers | hworkers
    · rwa [hworkers] at hw
    · simp only [hworkers, notifyWorkers] at hw
      rcases (m.workers w).notify_cases with hn | ⟨-, hn⟩
      · rwa [hn] at hw
      · simp [hn] at hw
  | wakeCaller c =>
    simp only [step] at hs
    split at hs <;> cases hs
    exact ⟨hrunning, h.running hrunning⟩
  | worker w clock fuel =>
    rw [(workerStep_frame hs).1] at hrunning
    refine ⟨hrunning, ?_⟩
    obtain ⟨pc, hworkers, hpc⟩ := workerStep_workers hs
    intro w' hw'
    rw [hworkers] at hw'
    by_cases hww : w' = w
    · subst hww
      rw [Function.update_self] at hw'
      simp [hpc hw'] at hrunning
    · rw [Function.update_of_ne hww] at hw'
      exact h.running hrunning w' hw'
  | wakeWorker w timedOut =>
    simp only [step] at hs
    split at hs <;> cases hs
    refine ⟨hrunning, ?_⟩
    intro w' hw'
    by_cases hww : w' = w
    · subst hww
      simp [moveWorker] at hw'
    · simp only [moveWorker, Function.update_of_ne hww] at hw'
      exact h.running hrunning w' hw'
  | stopWorker =>
    cases hs
    cases hrunning

theorem Live.callersOk_step (hl : Locked m) (h : Live hash m) {a : Action C W}
    (hcareful : Careful hash m a) (hs : m.step opt hash a = some m') : ∀ c, m'.CallerOk c := by
  cases a with
  | request c context buffer size result =>
    obtain ⟨-, rfl⟩ := request_cases hs
    exact callersOk_setCaller h.callers rfl rfl (fun _ hw => hw) (callerOk_of_pc (by simp))
  | caller c => exact h.callersOk_callerStep hl hcareful hs
  | wakeCaller c =>
    simp only [step] at hs
    split at hs <;> cases hs
    exact callersOk_setCaller h.callers rfl rfl (fun _ hw => hw)
      (callerOk_of_pc (by simp [pc_moveCaller]))
  | worker w clock fuel => exact h.callersOk_workerStep hl hs
  | wakeWorker w timedOut =>
    simp only [step] at hs
    split at hs <;> cases hs
    rename_i hpc
    exact callersOk_moveWorker h.callers (by rw [hpc]; simp) rfl rfl rfl
  | stopWorker =>
    cases hs
    exact h.callers

theorem Live.workersOk_step (hl : Locked m) (h : Live hash m) {a : Action C W}
    (hs : m.step opt hash a = some m') : ∀ w, m'.WorkerOk w := by
  cases a with
  | request c context buffer size result =>
    obtain ⟨hidle, rfl⟩ := request_cases hs
    exact workersOk_setCaller h.workers (by rw [hidle]; simp) rfl rfl rfl
  | caller c => exact h.workersOk_callerStep hl hs
  | wakeCaller c =>
    simp only [step] at hs
    split at hs <;> cases hs
    rename_i hpc
    exact workersOk_setCaller h.workers (by rw [hpc]; simp) rfl rfl rfl
  | worker w clock fuel => exact h.workersOk_workerStep hl hs
  | wakeWorker w timedOut =>
    simp only [step] at hs
    split at hs <;> cases hs
    exact workersOk_setWorker h.workers rfl rfl (fun _ hc => hc)
      (workerOk_of_pc (by simp [workers_moveWorker]))
  | stopWorker =>
    cases hs
    exact h.workers

theorem Live.step (hm : Sound m) (h : Live hash m) {a : Action C W} (hcareful : Careful hash m a)
    (hs : m.step opt hash a = some m') : Live hash m' where
  callers := h.callersOk_step hm.locked hcareful hs
  workers := h.workersOk_step hm.locked hs
  length := h.length_step hm hcareful.fresh hs
  room := fun _ hc => h.room_step hm hcareful hs hc
  serviceable := fun _ hc => h.serviceable_step hcareful hs hc
  running := fun hrunning => (h.running_step hs hrunning).2

theorem Live.reaches {guard : Machine C W → Action C W → Prop}
    (hguard : ∀ m a, guard m a → Careful hash m a) (hm : Sound m) (h : Live hash m)
    (hr : Reaches opt hash guard m m') : Sound m' ∧ Live hash m' := by
  induction hr with
  | refl => exact ⟨hm, h⟩
  | tail _ hs ih =>
    obtain ⟨a, ha, hs⟩ := hs
    have hcareful := hguard _ _ ha
    exact ⟨ih.1.step hcareful.fresh hs, ih.2.step ih.1 hcareful hs⟩

end Machine

end Paio
