import Paio.QueueMachine

/-!
# Paio.QueueRuns

Runs of the queue machine in which nobody is in the way of the thread that moves: a caller submits
its ticket, a worker serves the ticket at the front of the submission queue, a caller takes the
Result at the front of the completion queue. Put together they are a whole request, and it does
what `channel_enforce` does in the sequential model (`run_request`).
-/

namespace Paio

open ServiceLine

/-- What a request that comes back has done in queue mode. -/
theorem ChannelDefault.channelEnforce_queue {opt : Options} {hash : String → UInt32} {clock : Clock}
    {fuel : Nat} {ch ch' : ChannelDefault} {context : Context} {buffer : Buffer} {size : Nat}
    {result result' : Result} (hmode : ch.useFastPath = false)
    (h : ch.channelEnforce opt hash clock fuel context buffer size result = .ok (ch', result')) :
    ∃ q, ch.submissionQueue.enforceMechanism hash clock fuel
          (ch.buildTicket context buffer size).1
          { ticketId := (ch.buildTicket context buffer size).1.ticketId } =
        .ok (q, (ch.buildTicket context buffer size).1.freshResult) ∧
      { ch with ticketId := ch.ticketId + 1, submissionQueue := q }.recordStatistics opt context =
        .ok ch' ∧
      result' = (ch.buildTicket context buffer size).1.freshResult := by
  simp only [channelEnforce_eq, finishRequest] at h
  split at h
  · cases h
  · rename_i q result'' henforce
    split at h <;> cases h
    rename_i hrecord
    refine ⟨q, ?_, hrecord, by simp [hmode]⟩
    rw [ch.submissionQueue.enforceMechanism_congr hash clock fuel _
      (result.setTicketId ch.ticketId), henforce, Ticket.writeResult_new]

namespace Machine

variable {C W : Type} {m m' m'' : Machine C W}

/-! ## The states after each part of a request -/

section Callers

variable [DecidableEq C]

/-- The machine after a caller has built its ticket. -/
def called (m : Machine C W) (c : C) (context : Context) (buffer : Buffer) (size : Nat)
    (result : Result) : Machine C W :=
  { m.setCaller c
      { pc := .submitting
        serial := m.history.made
        context := context
        ticket := (m.channel.buildTicket context buffer size).1
        result := result.setTicketId m.channel.ticketId } with
    channel := { m.channel with ticketId := m.channel.ticketId + 1 }
    history := { m.history with made := m.history.made + 1 } }

@[simp] theorem called_callers_self (m : Machine C W) (c : C) (context : Context) (buffer : Buffer)
    (size : Nat) (result : Result) :
    (m.called c context buffer size result).callers c =
      { pc := .submitting
        serial := m.history.made
        context := context
        ticket := (m.channel.buildTicket context buffer size).1
        result := result.setTicketId m.channel.ticketId } := by
  simp [called, setCaller]

@[simp] theorem called_callers_of_ne (m : Machine C W) {c c' : C} (h : c' ≠ c) (context : Context)
    (buffer : Buffer) (size : Nat) (result : Result) :
    (m.called c context buffer size result).callers c' = m.callers c' := by
  simp [called, setCaller, h]

/-- The machine after a caller has submitted its ticket. -/
def submitted (m : Machine C W) (c : C) : Machine C W :=
  { m.moveCaller c .collecting with
    submissions := m.submissions ++ [m.ticketRef c]
    workers := if queueSize m.submissions = 0 then m.notifyWorkers.workers else m.workers
    history := { m.history with submitted := m.history.submitted ++ [m.ticketRef c] } }

@[simp] theorem submitted_callers_self (m : Machine C W) (c : C) :
    (m.submitted c).callers c = { m.callers c with pc := .collecting } := by
  simp [submitted, moveCaller, setCaller]

@[simp] theorem submitted_callers_of_ne (m : Machine C W) {c c' : C} (h : c' ≠ c) :
    (m.submitted c).callers c' = m.callers c' := by
  simp [submitted, moveCaller, setCaller, h]

/-- A worker between two tickets does not wait, so a notification does nothing to it. -/
theorem submitted_looping {w : W} (h : m.workers w = .looping) (c : C) :
    (m.submitted c).workers w = .looping := by
  simp only [submitted]
  split
  · simp [notifyWorkers, h, WorkerPc.notify]
  · exact h

/-- The machine after a caller has taken the Result at the front of the completion queue and
returned. -/
def collected (m : Machine C W) (c : C) (ref : Ref C) (front : Result) (rest : List (Ref C × Result))
    (channel : ChannelDefault) : Machine C W :=
  let result := (m.callers c).result.assign front
  { m.setCaller c { m.callers c with pc := .idle, result := result } with
    channel := channel
    completions := rest
    history := { m.history with
      handed := m.history.handed ++ [(m.ticketRef c, ref, result)]
      returned := m.history.returned ++ [(m.ticketRef c, (m.callers c).ticket, result)] } }

@[simp] theorem collected_callers_self (m : Machine C W) (c : C) (ref : Ref C) (front : Result)
    (rest : List (Ref C × Result)) (channel : ChannelDefault) :
    (m.collected c ref front rest channel).callers c =
      { m.callers c with pc := .idle, result := (m.callers c).result.assign front } := by
  simp [collected, setCaller]

@[simp] theorem collected_callers_of_ne (m : Machine C W) {c c' : C} (h : c' ≠ c) (ref : Ref C)
    (front : Result) (rest : List (Ref C × Result)) (channel : ChannelDefault) :
    (m.collected c ref front rest channel).callers c' = m.callers c' := by
  simp [collected, setCaller, h]

end Callers

section Workers

variable [DecidableEq W]

/-- The machine after a worker has served the ticket that `ref` points to: `rest` is what is left of
the submission queue, `q` the objects and `result` the Result after the enforcement. -/
def served (m : Machine C W) (w : W) (ref : Ref C) (rest : List (Ref C)) (q : SubmissionQueue)
    (result : Result) : Machine C W :=
  { m.moveWorker w .looping with
    channel := { m.channel with submissionQueue := q }
    submissions := rest
    completions := m.completions ++ [(ref, result.copy)]
    callers := if queueSize m.completions = 0 then m.notifyCallers.callers else m.callers
    history := { m.history with
      served := m.history.served ++ [ref]
      completed := m.history.completed ++ [(ref, result.copy)] } }

@[simp] theorem served_workers_self (m : Machine C W) (w : W) (ref : Ref C) (rest : List (Ref C))
    (q : SubmissionQueue) (result : Result) :
    (m.served w ref rest q result).workers w = .looping := by
  simp [served, moveWorker]

/-- A caller that does not wait is as before. -/
theorem served_callers {c : C} (h : (m.callers c).notify = m.callers c) (w : W) (ref : Ref C)
    (rest : List (Ref C)) (q : SubmissionQueue) (result : Result) :
    (m.served w ref rest q result).callers c = m.callers c := by
  simp only [served]
  split
  · exact h
  · rfl

end Workers

structure Unlocked (m : Machine C W) : Prop where
  queue : m.queueLock = none
  completion : m.completionLock = none
  objects : m.objectsLock = none

/-! ## The runs -/

variable [DecidableEq C] [DecidableEq W] (opt : Options) (hash : String → UInt32)

def run (m : Machine C W) : List (Action C W) → Option (Machine C W)
  | [] => some m
  | a :: rest =>
    match m.step opt hash a with
    | none => none
    | some m' => m'.run rest

variable {opt hash}

theorem run_append {as bs : List (Action C W)} (h : m.run opt hash as = some m')
    (h' : m'.run opt hash bs = some m'') : m.run opt hash (as ++ bs) = some m'' := by
  induction as generalizing m with
  | nil => cases h; exact h'
  | cons a rest ih =>
    simp only [run, List.cons_append] at h ⊢
    cases hs : m.step opt hash a with
    | none => simp [hs] at h
    | some m₁ =>
      simp only [hs] at h ⊢
      exact ih h

/-- A run whose actions the guard always allows. -/
theorem reaches_of_run {guard : Machine C W → Action C W → Prop} {as : List (Action C W)}
    (hguard : ∀ m, ∀ a ∈ as, guard m a) (h : m.run opt hash as = some m') :
    Reaches opt hash guard m m' := by
  induction as generalizing m with
  | nil => cases h; exact .refl
  | cons a rest ih =>
    simp only [run] at h
    cases hs : m.step opt hash a with
    | none => simp [hs] at h
    | some m₁ =>
      simp only [hs] at h
      exact .head ⟨a, hguard m a List.mem_cons_self, hs⟩
        (ih (fun m a ha => hguard m a (List.mem_cons_of_mem _ ha)) h)

theorem run_call {c : C} (hidle : (m.callers c).pc = .idle) (hmode : m.channel.useFastPath = false)
    (context : Context) (buffer : Buffer) (size : Nat) (result : Result) :
    m.run opt hash [.request c context buffer size result] =
      some (m.called c context buffer size result) := by
  simp [run, step, request, hidle, hmode, called]

theorem run_submit {c : C} (hpc : (m.callers c).pc = .submitting) (hlock : m.queueLock = none) :
    ∃ n, m.run opt hash (List.replicate n (.caller c)) = some (m.submitted c) := by
  by_cases hsize : queueSize m.submissions = 0
  · refine ⟨4, ?_⟩
    simp [List.replicate, run, step, callerStep, hpc, lockQueue, hlock, moveCaller, setCaller,
      notifyWorkers, ticketRef, hsize, submitted]
  · refine ⟨3, ?_⟩
    simp [List.replicate, run, step, callerStep, hpc, lockQueue, hlock, moveCaller, setCaller,
      ticketRef, hsize, submitted]

theorem run_serve {w : W} {ref : Ref C} {rest : List (Ref C)} {ticket : Ticket} {clock : Clock}
    {fuel : Nat} {q : SubmissionQueue} {result : Result} (hpc : m.workers w = .looping)
    (hrunning : m.isRunning = true) (hlocks : m.Unlocked) (hsubs : m.submissions = ref :: rest)
    (hsize : queueSize (ref :: rest) ≠ 0) (hderef : m.deref ref = some ticket)
    (henforce : m.channel.submissionQueue.enforceMechanism hash clock fuel ticket
      { ticketId := ticket.ticketId } = .ok (q, result)) :
    ∃ n, m.run opt hash (List.replicate n (.worker w clock fuel)) =
      some (m.served w ref rest q result) := by
  obtain ⟨hq, hk, ho⟩ := hlocks
  obtain ⟨hserial, hidle, rfl⟩ : (m.callers ref.caller).serial = ref.serial ∧
      (m.callers ref.caller).pc ≠ .idle ∧ (m.callers ref.caller).ticket = ticket := by
    simpa [deref, and_assoc] using hderef
  by_cases hempty : queueSize m.completions = 0
  · refine ⟨11, ?_⟩
    simp [List.replicate, run, step, workerStep, hpc, lockQueue, lockCompletion, hq, hk, ho,
      moveWorker, deref, hserial, hidle, hrunning, hsubs, hsize, henforce, hempty, served,
      notifyCallers]
  · refine ⟨10, ?_⟩
    simp [List.replicate, run, step, workerStep, hpc, lockQueue, lockCompletion, hq, hk, ho,
      moveWorker, deref, hserial, hidle, hrunning, hsubs, hsize, henforce, hempty, served]

theorem run_collect {c : C} {ref : Ref C} {front : Result} {rest : List (Ref C × Result)}
    {channel : ChannelDefault} (hpc : (m.callers c).pc = .collecting)
    (hlock : m.completionLock = none) (hready : m.completions = (ref, front) :: rest)
    (hsize : queueSize ((ref, front) :: rest) ≠ 0)
    (hid : (m.callers c).ticket.ticketId = front.ticketId)
    (hrecord : m.channel.recordStatistics opt (m.callers c).context = .ok channel) :
    m.run opt hash (List.replicate 5 (.caller c)) = some (m.collected c ref front rest channel) := by
  simp [List.replicate, run, step, callerStep, hpc, lockCompletion, hlock, moveCaller, setCaller,
    ticketRef, hready, hsize, hid, hrecord, collected]

theorem reaches_of_run_cons {guard : Machine C W → Action C W → Prop} {a : Action C W}
    {as : List (Action C W)} (ha : guard m a) (hguard : ∀ m, ∀ a ∈ as, guard m a)
    (h : m.run opt hash (a :: as) = some m') : Reaches opt hash guard m m' := by
  simp only [run] at h
  cases hs : m.step opt hash a with
  | none => simp [hs] at h
  | some m₁ =>
    simp only [hs] at h
    exact .head ⟨a, ha, hs⟩ (reaches_of_run hguard h)

/-- Nothing is in the queues, no lock is held and the worker is between two tickets. -/
structure Quiet (w : W) (m : Machine C W) : Prop where
  unlocked : m.Unlocked
  running : m.isRunning = true
  submissions : m.submissions = []
  completions : m.completions = []
  worker : m.workers w = .looping

theorem queueSize_singleton {α : Type} (a : α) : queueSize [a] ≠ 0 :=
  queueSize_cons_ne_zero (by simp)

/-- A request alone in the machine does what `channel_enforce` does in the sequential model. -/
theorem run_request {w : W} (hquiet : m.Quiet w) {c : C} (hidle : (m.callers c).pc = .idle)
    (hmode : m.channel.useFastPath = false) {clock : Clock} {fuel : Nat} {context : Context}
    {buffer : Buffer} {size : Nat} {result result' : Result} {channel : ChannelDefault}
    (henforce : m.channel.channelEnforce opt hash clock fuel context buffer size result =
      .ok (channel, result')) :
    ∃ as m', m.run opt hash (.request c context buffer size result :: as) = some m' ∧
      (∀ a ∈ as, a = .caller c ∨ a = .worker w clock fuel) ∧
      m'.Quiet w ∧ m'.channel = channel ∧
      (m'.callers c).pc = .idle ∧ (m'.callers c).result = result' ∧
      (∀ c', c' ≠ c → m'.callers c' = (m.callers c').notify) ∧
      m'.history.returned = m.history.returned ++
        [(⟨c, m.history.made⟩, (m.channel.buildTicket context buffer size).1, result')] := by
  obtain ⟨hlocks, hrunning, hsubs, hcomps, hw⟩ := hquiet
  obtain ⟨q, hobjects, hrecord, rfl⟩ := ChannelDefault.channelEnforce_queue hmode henforce
  let ref : Ref C := ⟨c, m.history.made⟩
  let ticket := (m.channel.buildTicket context buffer size).1
  let m₁ := m.called c context buffer size result
  let m₂ := m₁.submitted c
  let m₃ := m₂.served w ref [] q ticket.freshResult
  have hcall : m.run opt hash [.request c context buffer size result] = some m₁ :=
    run_call hidle hmode context buffer size result
  obtain ⟨n₁, hsubmit⟩ : ∃ n, m₁.run opt hash (List.replicate n (.caller c)) = some m₂ :=
    run_submit (by simp [m₁]) hlocks.queue
  have hsubs₂ : m₂.submissions = [ref] := by
    simp [m₂, m₁, submitted, called, ticketRef, setCaller, hsubs, ref]
  have hderef : m₂.deref ref = some ticket := by
    simp [m₂, m₁, deref, ref, ticket]
  obtain ⟨n₂, hserve⟩ : ∃ n, m₂.run opt hash (List.replicate n (.worker w clock fuel)) =
      some m₃ :=
    run_serve (submitted_looping hw c) hrunning ⟨hlocks.queue, hlocks.completion, hlocks.objects⟩
      hsubs₂ (queueSize_singleton _) hderef hobjects
  have hc : m₃.callers c = m₂.callers c := by
    refine served_callers ?_ w ref [] q ticket.freshResult
    simp [m₂, Caller.notify]
  have hcollect : m₃.run opt hash (List.replicate 5 (.caller c)) =
      some (m₃.collected c ref ticket.freshResult.copy [] channel) := by
    refine run_collect (by simp [hc, m₂]) hlocks.completion ?_ (queueSize_singleton _) ?_ ?_
    · have hcomps₂ : m₂.completions = [] := hcomps
      simp [m₃, served, hcomps₂]
    · rw [ticket.copy_freshResult, hc, submitted_callers_self, called_callers_self]
      rfl
    · simp only [hc, m₂, m₁, submitted_callers_self, called_callers_self]
      exact hrecord
  refine ⟨List.replicate n₁ (.caller c) ++ (List.replicate n₂ (.worker w clock fuel) ++
    List.replicate 5 (.caller c)), m₃.collected c ref ticket.freshResult.copy [] channel,
    run_append hcall (run_append hsubmit (run_append hserve hcollect)), ?_,
    ⟨⟨hlocks.queue, hlocks.completion, hlocks.objects⟩, hrunning, rfl, rfl, ?_⟩, rfl, by simp, ?_,
    ?_, ?_⟩
  · intro a ha
    simp only [List.mem_append, List.mem_replicate] at ha
    rcases ha with ⟨-, ha⟩ | ⟨-, ha⟩ | ⟨-, ha⟩
    · exact .inl ha
    · exact .inr ha
    · exact .inl ha
  · exact served_workers_self m₂ w ref [] q ticket.freshResult
  · simp [Ticket.copy_freshResult, Ticket.assign_freshResult, ticket]
  · intro c' hcc
    rw [collected_callers_of_ne _ hcc]
    have hcomps₂ : m₂.completions = [] := hcomps
    simp [m₃, served, hcomps₂, notifyCallers, m₂, m₁, hcc]
  · simp only [collected, ticketRef, hc, Ticket.copy_freshResult, Ticket.assign_freshResult]
    simp only [m₂, m₁, submitted_callers_self, called_callers_self]
    rfl

end Machine

end Paio
