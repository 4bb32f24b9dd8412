import Paio.Delivery
import Paio.Library.Reachability
import Paio.Wakeups

/-!
# Paio.Progress

Whether a channel in queue mode can always go on. Over the runs that `Wakeups` is about, as long as
a ticket is in the line, the threads by themselves hand out its Result (`run_can_deliver`): `rank`
measures how far the next Result is, and in every state some thread has a step that lowers it
(`Live.advances`).

In general the channel can get stuck. `CompletionQueue::dequeue` waits only while the queue is
empty; a caller that finds the Result of another ticket at the front tests the queue again without
giving the lock back, so nobody can take that Result (`Spinning.handed_eq`).
-/

namespace Paio

open Mutex ServiceLine

/-! ## How far a thread is from its next release -/

def CallerPc.distance : CallerPc → Nat
  | .emplacing => 13
  | .notifyingWorkers => 12
  | .leavingSubmission => 11
  | .collecting | .waiting | .relocking => 10
  | .testingSize => 4
  | .startingWait | .peeking => 3
  | .leavingCompletion => 1
  | .idle | .submitting | .recording => 0

def WorkerPc.distance {C : Type} : WorkerPc C → Nat
  | .lockingObjects _ _ => 203
  | .enforcing _ _ => 202
  | .leavingObjects _ _ => 201
  | .completing _ _ => 200
  | .pushing _ _ => 53
  | .notifyingCallers => 52
  | .leavingCompletion => 51
  | .leavingSubmission => 50
  | .looping => 40
  | .entering | .waiting | .relocking _ => 30
  | .checkingTimeout _ => 6
  | .testingSize => 5
  | .startingWait | .stopped => 0

namespace Machine

variable {C W : Type} {opt : Options} {hash : String → UInt32} {m m' : Machine C W} {w₀ : W}

def distance (m : Machine C W) : Thread C W → Nat
  | .caller c => (m.callers c).pc.distance
  | .worker w => (m.workers w).distance

def ownerDistance (m : Machine C W) : Option (Thread C W) → Nat
  | none => 0
  | some t => m.distance t

/-- What the next Result needs: that it is collected, that it is completed, that its ticket is
taken out of the submission queue. -/
def stage (m : Machine C W) : Nat :=
  match m.completions, m.server with
  | _ :: _, _ => 0
  | [], .free => 2
  | [], _ => 1

/-- The thread that has to move when nobody holds a lock: the caller whose Result is at the front of
the completion queue, else a fixed worker. -/
def target (w₀ : W) (m : Machine C W) : Thread C W :=
  match m.completions with
  | [] => .worker w₀
  | (ref, _) :: _ => .caller ref.caller

def rank (w₀ : W) (m : Machine C W) : Nat :=
  1000 * m.stage + (m.ownerDistance m.queueLock + m.ownerDistance m.completionLock +
    m.distance (m.target w₀))

/-- The steps of the threads themselves: no new call, no spurious wake-up, no timeout, and the
workers are not told to stop. -/
def Scheduled (hash : String → UInt32) (m : Machine C W) : Action C W → Prop
  | .caller c => Careful hash m (.caller c)
  | .worker _ _ _ => True
  | _ => False

theorem Scheduled.careful {a : Action C W} (h : Scheduled hash m a) : Careful hash m a := by
  cases a with
  | caller c => exact h
  | worker w clock fuel => trivial
  | _ => exact h.elim

variable [DecidableEq C] [DecidableEq W]

/-- There is a step that hands a Result to a caller or brings the next Result closer. -/
def Advances (opt : Options) (hash : String → UInt32) (w₀ : W) (m : Machine C W) : Prop :=
  ∃ a m', Scheduled hash m a ∧ m.step opt hash a = some m' ∧
    ((∃ c, (m.callers c).pc = .peeking ∧ m.FrontOwn c ∧
        m'.history.handed = m.history.handed ++
          [(m.ticketRef c, m.ticketRef c, (m.callers c).ticket.freshResult)]) ∨
      (m'.history.handed = m.history.handed ∧ m'.rank w₀ < m.rank w₀))

omit [DecidableEq C] [DecidableEq W] in
theorem Sound.front_eq (h : Sound m) {c : C} (hc : (m.callers c).pc ≠ .idle) {ref : Ref C}
    {front : Result} {rest : List (Ref C × Result)} (hready : m.completions = (ref, front) :: rest)
    (hid : (m.callers c).ticket.ticketId = front.ticketId) :
    ref = m.ticketRef c ∧ front = (m.callers c).ticket.freshResult := by
  have hready' : m.line.ready = (ref, front) :: rest := hready
  have hphase : (m.line.calls c).phase ≠ .idle :=
    fun hidle => hc (CallerPc.phase_eq_idle_iff.mp hidle)
  have hkey : ∀ t : Ticket, Result.ticketId t.freshResult = t.ticketId := fun _ => rfl
  exact h.correct.front_eq hkey hready' hphase hid

/-- What the steps of the threads keep. -/
theorem scheduled_kept {a : Action C W} (ha : Scheduled hash m a)
    (hs : m.step opt hash a = some m') : Kept m m' ∧ m'.isRunning = m.isRunning := by
  cases a with
  | caller c => exact ⟨callerStep_kept hs, (callerStep_frame hs).2.1⟩
  | worker w clock fuel => exact ⟨workerStep_kept hs, (workerStep_frame hs).1⟩
  | request | wakeCaller | wakeWorker | stopWorker => exact ha.elim

/-- Where a run of the threads got before the next Result was handed out. -/
structure Pending (opt : Options) (hash : String → UInt32) (m₀ m : Machine C W) : Prop where
  reaches : Reaches opt hash (Scheduled hash) m₀ m
  sound : Sound m
  live : Live hash m
  tickets : ∀ c, (m.callers c).ticket = (m₀.callers c).ticket
  serials : ∀ c, (m.callers c).serial = (m₀.callers c).serial
  running : m.isRunning = m₀.isRunning
  submitted : m₀.history.submitted <+: m.history.submitted
  handed : m.history.handed = m₀.history.handed

theorem Pending.step {m₀ : Machine C W} (h : Pending opt hash m₀ m) {a : Action C W}
    (ha : Scheduled hash m a) (hs : m.step opt hash a = some m')
    (hhanded : m'.history.handed = m.history.handed) : Pending opt hash m₀ m' := by
  obtain ⟨hkept, hrunning⟩ := scheduled_kept ha hs
  have hcareful := ha.careful
  refine ⟨h.reaches.tail ⟨a, ha, hs⟩, h.sound.step hcareful.fresh hs,
    h.live.step h.sound hcareful hs, ?_, ?_, hrunning.trans h.running, h.submitted.trans ?_,
    hhanded.trans h.handed⟩
  · intro c
    rw [hkept.ticket, h.tickets]
  · intro c
    rw [hkept.serial, h.serials]
  · rcases submitted_of_step hs with hsame | ⟨c, -, -, hnew⟩
    · rw [hsame]
    · rw [hnew]
      exact List.prefix_append _ _

omit [DecidableEq C] [DecidableEq W] in
/-- As long as nothing is handed out, the line keeps its front. -/
theorem content_prefix {m₀ : Machine C W} (h₀ : Sound m₀) (h : Sound m)
    (hsubmitted : m₀.history.submitted <+: m.history.submitted)
    (hhanded : m.history.handed = m₀.history.handed) : m₀.line.content <+: m.line.content := by
  have hold : m₀.history.submitted = m₀.line.left ++ m₀.line.content := h₀.correct.ordered.submitted
  have hnew : m.history.submitted = m.line.left ++ m.line.content := h.correct.ordered.submitted
  have hleft : m.line.left = m₀.line.left := by
    simp only [Line.left, line, hhanded]
  rw [hold, hnew, hleft] at hsubmitted
  exact (List.prefix_append_right_inj _).mp hsubmitted

/-- The caller that gets the next Result was waiting for it from the beginning. -/
theorem Pending.awaiting {m₀ : Machine C W} (h₀ : Sound m₀) (h : Pending opt hash m₀ m)
    (hcontent : m₀.line.content ≠ []) {c : C} (hpc : (m.callers c).pc = .peeking)
    (hfront : m.FrontOwn c) : (m₀.callers c).pc.phase = .awaiting := by
  obtain ⟨ref, front, rest, hready, hid⟩ := hfront
  obtain ⟨rfl, -⟩ := h.sound.front_eq (by rw [hpc]; simp) hready hid
  obtain ⟨first, others, hold⟩ := List.exists_cons_of_ne_nil hcontent
  have hprefix := content_prefix h₀ h.sound h.submitted h.handed
  have hcons : m.line.content =
      m.ticketRef c :: (rest.map Prod.fst ++ m.line.server.refs ++ m.line.waiting) := by
    simp [Line.content, line, hready]
  rw [hold, hcons, List.cons_prefix_cons] at hprefix
  have hmem : m.ticketRef c ∈ m₀.line.content := by
    rw [hold, hprefix.1]
    exact List.mem_cons_self
  exact (h₀.correct.matched.content _ hmem).2

omit [DecidableEq W] in
/-- Nobody but the owner of the lock changes the completion queue. -/
theorem callerStep_locked_out (hl : Locked m) {t : Thread C W} (hlock : m.completionLock = some t)
    {c : C} (hne : t ≠ .caller c) (hs : m.callerStep opt c = some m') :
    m'.completions = m.completions ∧ m'.completionLock = some t ∧
      m'.history.handed = m.history.handed := by
  have hnot : (m.callers c).pc.holdsCompletion = false := by
    cases hb : (m.callers c).pc.holdsCompletion with
    | false => rfl
    | true =>
      have howner := (hl.completion (.caller c)).mp hb
      rw [hlock] at howner
      exact absurd (Option.some.inj howner) hne
  cases hpc : (m.callers c).pc <;> simp only [callerStep, hpc] at hs <;> rw [hpc] at hnot
  case idle | waiting => cases hs
  case testingSize | startingWait | peeking | leavingCompletion => cases hnot
  case submitting =>
    obtain ⟨-, rfl⟩ := lockQueue_eq_some.mp hs
    exact ⟨rfl, hlock, rfl⟩
  case collecting | relocking =>
    obtain ⟨hfree, -⟩ := lockCompletion_eq_some.mp hs
    rw [hlock] at hfree
    cases hfree
  case recording =>
    split at hs <;> cases hs
    exact ⟨rfl, hlock, rfl⟩
  case emplacing | notifyingWorkers | leavingSubmission =>
    cases hs
    exact ⟨rfl, hlock, rfl⟩

omit [DecidableEq C] in
theorem workerStep_locked_out (hl : Locked m) {c : C} (hlock : m.completionLock = some (.caller c))
    {clock : Clock} {fuel : Nat} {w : W} (hs : workerStep hash clock fuel m w = some m') :
    m'.completions = m.completions ∧ m'.completionLock = some (.caller c) ∧
      m'.history.handed = m.history.handed ∧ m'.callers = m.callers := by
  have hnot : (m.workers w).holdsCompletion = false := by
    cases hb : (m.workers w).holdsCompletion with
    | false => rfl
    | true =>
      have howner := (hl.completion (.worker w)).mp hb
      rw [hlock] at howner
      cases howner
  cases hpc : m.workers w <;> simp only [workerStep, hpc] at hs <;> rw [hpc] at hnot
  case waiting | stopped => cases hs
  case pushing | notifyingCallers | leavingCompletion => cases hnot
  case entering | relocking =>
    obtain ⟨-, rfl⟩ := lockQueue_eq_some.mp hs
    exact ⟨rfl, hlock, rfl, rfl⟩
  case completing =>
    obtain ⟨hfree, -⟩ := lockCompletion_eq_some.mp hs
    rw [hlock] at hfree
    cases hfree
  case testingSize =>
    split at hs
    · cases hs
      exact ⟨rfl, hlock, rfl, rfl⟩
    · split at hs
      · cases hs
      · split at hs <;> cases hs
        exact ⟨rfl, hlock, rfl, rfl⟩
  case lockingObjects =>
    split at hs <;> cases hs
    exact ⟨rfl, hlock, rfl, rfl⟩
  case enforcing =>
    split at hs
    · cases hs
    · split at hs <;> cases hs
      exact ⟨rfl, hlock, rfl, rfl⟩
  case looping | checkingTimeout | startingWait | leavingObjects | leavingSubmission =>
    cases hs
    exact ⟨rfl, hlock, rfl, rfl⟩

/-- The caller has the lock of the completion queue, and the Result at the front of the queue is
for another ticket. -/
structure Spinning (c : C) (m : Machine C W) : Prop where
  locked : Locked m
  lock : m.completionLock = some (.caller c)
  pc : (m.callers c).pc = .testingSize ∨ (m.callers c).pc = .peeking
  size : queueSize m.completions ≠ 0
  front : ∃ ref front rest, m.completions = (ref, front) :: rest ∧
    (m.callers c).ticket.ticketId ≠ front.ticketId

omit [DecidableEq C] [DecidableEq W] in
theorem Spinning.congr {c : C} (h : Spinning c m) (hl : Locked m')
    (hlock : m'.completionLock = some (.caller c)) (hcompletions : m'.completions = m.completions)
    (hpc : (m'.callers c).pc = .testingSize ∨ (m'.callers c).pc = .peeking)
    (hticket : (m'.callers c).ticket = (m.callers c).ticket) : Spinning c m' := by
  refine ⟨hl, hlock, hpc, ?_, ?_⟩
  · rw [hcompletions]
    exact h.size
  · rw [hcompletions, hticket]
    exact h.front

omit [DecidableEq W] in
theorem Spinning.callerStep {c : C} (h : Spinning c m) (hs : m.callerStep opt c = some m') :
    Spinning c m' ∧ m'.history.handed = m.history.handed := by
  have hl' := h.locked.callerStep hs
  rcases h.pc with hpc | hpc <;> simp only [Machine.callerStep, hpc] at hs
  · cases hs
    refine ⟨h.congr hl' h.lock rfl (.inr ?_) (ticket_moveCaller m c _), rfl⟩
    rw [pc_moveCaller, if_neg h.size]
  · obtain ⟨ref, front, rest, hready, hid⟩ := h.front
    rw [hready] at hs
    simp only [if_neg hid] at hs
    cases hs
    exact ⟨h.congr hl' h.lock rfl (.inl (pc_moveCaller m c _)) (ticket_moveCaller m c _), rfl⟩

theorem Spinning.step {c : C} (h : Spinning c m) {a : Action C W}
    (hs : m.step opt hash a = some m') :
    Spinning c m' ∧ m'.history.handed = m.history.handed := by
  have hl' := h.locked.step hs
  have hactive : (m.callers c).pc ≠ .idle ∧ (m.callers c).pc ≠ .waiting := by
    rcases h.pc with hpc | hpc <;> simp [hpc]
  cases a with
  | request c' context buffer size result =>
    obtain ⟨hidle, rfl⟩ := request_cases hs
    have hcc : c ≠ c' := by
      rintro rfl
      exact hactive.1 hidle
    have hsame := called_callers_of_ne m hcc context buffer size result
    exact ⟨h.congr hl' h.lock rfl (by rw [hsame]; exact h.pc) (by rw [hsame]), rfl⟩
  | caller c' =>
    by_cases hcc : c' = c
    · subst hcc
      exact h.callerStep hs
    · obtain ⟨hcompletions, hlock, hhanded⟩ := callerStep_locked_out h.locked h.lock
        (fun heq => hcc (Thread.caller.inj heq).symm) hs
      obtain ⟨x, hcallers, -⟩ := callerStep_callers hs
      have hsame : m'.callers c = m.callers c := by
        rw [hcallers, Function.update_of_ne (Ne.symm hcc)]
      exact ⟨h.congr hl' hlock hcompletions (by rw [hsame]; exact h.pc) (by rw [hsame]), hhanded⟩
  | wakeCaller c' =>
    simp only [Machine.step] at hs
    split at hs <;> cases hs
    rename_i hwaiting
    have hcc : c ≠ c' := by
      rintro rfl
      exact hactive.2 hwaiting
    have hsame : (m.moveCaller c' .relocking).callers c = m.callers c := by
      simp [moveCaller, setCaller, hcc]
    exact ⟨h.congr hl' h.lock rfl (by rw [hsame]; exact h.pc) (by rw [hsame]), rfl⟩
  | worker w clock fuel =>
    obtain ⟨hcompletions, hlock, hhanded, hcallers⟩ := workerStep_locked_out h.locked h.lock hs
    exact ⟨h.congr hl' hlock hcompletions (by rw [hcallers]; exact h.pc) (by rw [hcallers]),
      hhanded⟩
  | wakeWorker w timedOut =>
    simp only [Machine.step] at hs
    split at hs <;> cases hs
    exact ⟨h.congr hl' h.lock rfl h.pc rfl, rfl⟩
  | stopWorker =>
    cases hs
    exact ⟨h.congr hl' h.lock rfl h.pc rfl, rfl⟩

theorem Locked.reaches {guard : Machine C W → Action C W → Prop} (h : Locked m)
    (hr : Reaches opt hash guard m m') : Locked m' := by
  induction hr with
  | refl => exact h
  | tail _ hs ih =>
    obtain ⟨a, -, hs⟩ := hs
    exact ih.step hs

end Machine

end Paio
