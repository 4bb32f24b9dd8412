import Paio.QueueLine

/-!
# Paio.Delivery

What callers of a channel in queue mode can rely on, whatever the schedule. As long as no ticket
gets the identifier of a call that is still in progress, every ticket is enforced at most once,
Results come in the order of submission, and every call returns with the Result of its own ticket
(`run_delivers`). Identifiers are 64-bit numbers, so this covers every run of at most `2^64` calls
(`reaches_fresh`); a call that is delayed for longer than that can lose its Result to another call.
-/

namespace Paio

open ServiceLine

/-- The content of a fresh Result is the buffer of the ticket, also when there is none. -/
theorem Ticket.contentBytes_freshResult (t : Ticket) : t.freshResult.contentBytes = t.buffer := by
  simp only [Result.contentBytes, freshResult]
  split
  · rfl
  · have hlen := t.buffer_length
    have hnil : t.buffer = [] := List.eq_nil_of_length_eq_zero (by omega)
    rw [hnil]
    rfl

namespace Machine

variable {C W : Type}

/-- A channel with empty queues and nobody in it. -/
def start (channel : ChannelDefault) : Machine C W := { channel := channel }

theorem sound_start (channel : ChannelDefault) : (start channel : Machine C W).Sound := by
  refine ⟨⟨?_, ?_, ?_⟩, ?_, ?_⟩
  · intro t
    cases t <;> simp [start, holdsQueue, CallerPc.holdsQueue, WorkerPc.holdsQueue]
  · intro t
    cases t <;> simp [start, holdsCompletion, CallerPc.holdsCompletion, WorkerPc.holdsCompletion]
  · intro w
    simp [start, WorkerPc.holdsObjects]
  · intro w ref result hw
    simp [start] at hw
  · exact correct_of_idle fun _ => rfl

variable {opt : Options} {hash : String → UInt32} {m m' : Machine C W}

/-! ## Identifiers -/

/-- The identifiers of the calls in progress and of the next call, counted from the first one. -/
structure Numbered (first : UInt64) (m : Machine C W) : Prop where
  next : m.channel.ticketId = first + UInt64.ofNat m.history.made
  calls : ∀ c, (m.callers c).pc ≠ .idle → (m.callers c).serial < m.history.made ∧
    (m.callers c).ticket.ticketId = first + UInt64.ofNat (m.callers c).serial

theorem Numbered.kept {first : UInt64} (h : Numbered first m) (hk : Kept m m') :
    Numbered first m' := by
  refine ⟨by rw [hk.ticketId, hk.made, h.next], ?_⟩
  intro c hc
  rw [hk.serial, hk.ticket, hk.made]
  exact h.calls c (fun hidle => hc (hk.idle c hidle))

/-- With fewer than `2^64` calls made so far, the next identifier is not in use. -/
theorem Numbered.fresh {first : UInt64} (h : Numbered first m)
    (hmade : m.history.made < 2 ^ 64) (a : Action C W) : Fresh m a := by
  cases a with
  | request c context buffer size result =>
    intro c' hc' heq
    obtain ⟨hlt, hid⟩ := h.calls c' hc'
    rw [hid, h.next, UInt64.add_right_inj] at heq
    have hnat := congrArg UInt64.toNat heq
    rw [UInt64.toNat_ofNat', UInt64.toNat_ofNat', Nat.mod_eq_of_lt (hlt.trans hmade),
      Nat.mod_eq_of_lt hmade] at hnat
    omega
  | _ => trivial

variable [DecidableEq C] [DecidableEq W]

theorem Numbered.step {first : UInt64} (h : Numbered first m) {a : Action C W}
    (hs : m.step opt hash a = some m') : Numbered first m' := by
  obtain ⟨c, context, buffer, size, result, -, -, rfl⟩ | hk := step_cases hs
  · refine ⟨?_, ?_⟩
    · simp only [called]
      rw [h.next, UInt64.ofNat_add, ← UInt64.add_assoc]
      rfl
    · intro c' hc'
      by_cases hcc : c' = c
      · subst hcc
        simp [called, setCaller, h.next]
      · rw [called_callers_of_ne m hcc] at hc' ⊢
        obtain ⟨hlt, hid⟩ := h.calls c' hc'
        exact ⟨Nat.lt_succ_of_lt hlt, hid⟩
  · exact h.kept hk

/-- A run with at most `2^64` calls uses no identifier twice. -/
theorem reaches_fresh {first : UInt64} (h : Numbered first m)
    (hr : Reaches opt hash (fun _ _ => True) m m') (hmade : m'.history.made ≤ 2 ^ 64) :
    Reaches opt hash Fresh m m' ∧ Numbered first m' := by
  induction hr with
  | refl => exact ⟨.refl, h⟩
  | tail _ hs ih =>
    obtain ⟨a, -, hs⟩ := hs
    obtain ⟨c, context, buffer, size, result, rfl, -, rfl⟩ | hk := step_cases hs
    · have hlt : _ < 2 ^ 64 := Nat.lt_of_succ_le hmade
      obtain ⟨hr', hn⟩ := ih hlt.le
      exact ⟨hr'.tail ⟨_, hn.fresh hlt _, hs⟩, hn.step hs⟩
    · obtain ⟨hr', hn⟩ := ih (by rwa [← hk.made])
      refine ⟨hr'.tail ⟨a, ?_, hs⟩, hn.step hs⟩
      cases a with
      | request c context buffer size result =>
        obtain ⟨-, rfl⟩ := request_cases hs
        exact absurd hk.made (by simp [called])
      | _ => trivial

/-! ## Delivery -/

theorem Sound.reaches {guard : Machine C W → Action C W → Prop}
    (hguard : ∀ m a, guard m a → Fresh m a) (h : Sound m) (hr : Reaches opt hash guard m m') :
    Sound m' := by
  induction hr with
  | refl => exact h
  | tail _ hs ih =>
    obtain ⟨a, ha, hs⟩ := hs
    exact ih.step (hguard _ _ ha) hs

/-- Every ticket is enforced at most once, Results enter the completion queue in the order of
submission, a call that returns has the Result of its own ticket, and every Result that entered the
completion queue has been handed out, once and in order, or is still there. -/
theorem run_delivers {channel : ChannelDefault}
    (h : Reaches opt hash Fresh (start channel) m) :
    m.history.served.Nodup ∧
    m.history.completed.map Prod.fst <+: m.history.submitted ∧
    (∀ call ticket result, (call, ticket, result) ∈ m.history.returned →
      (call, result) ∈ m.history.completed ∧ result.ticketId = ticket.ticketId ∧
        result.hasContent = decide (0 < ticket.bufferSize) ∧
        result.contentBytes = ticket.buffer) ∧
    m.history.completed = m.history.handed.map Prod.snd ++ m.completions ∧
    (m.history.completed.map Prod.fst).Nodup ∧
    ∀ call ref result, (call, ref, result) ∈ m.history.handed → ref = call := by
  have hc := ((sound_start channel).reaches (fun _ _ hf => hf) h).correct
  refine ⟨hc.ordered.nodup.sublist hc.ordered.served_prefix.sublist, hc.ordered.completed_prefix,
    ?_, hc.ordered.completed, hc.ordered.nodup.sublist hc.ordered.completed_prefix.sublist, ?_⟩
  · intro call ticket result hmem
    obtain ⟨rfl, hcompleted⟩ := hc.of_returned hmem
    exact ⟨hcompleted, rfl, rfl, ticket.contentBytes_freshResult⟩
  · intro call ref result hmem
    exact hc.answered.handed _ hmem

end Machine

/-! ## Identifiers that come back -/

/-- A channel without objects and without statistics lets every request pass. -/
structure ChannelDefault.Bypassing (ch : ChannelDefault) : Prop where
  mode : ch.useFastPath = false
  objects : ch.submissionQueue.enfObjects = []
  statistics : ch.collectChannelStatistics = false

theorem SubmissionQueue.enforceMechanism_bypass {hash : String → UInt32} {q : SubmissionQueue}
    (h : q.enfObjects = []) (clock : Clock) (fuel : Nat) (ticket : Ticket) (result : Result) :
    q.enforceMechanism hash clock fuel ticket result =
      .ok ({ q with noMatchObject := (q.noMatchObject.objEnforce ticket result).1 },
        ticket.writeResult result) := by
  simp only [enforceMechanism, selectEnforcementObject, h, List.lookup_nil]
  rfl

theorem ChannelDefault.Bypassing.channelEnforce {opt : Options} {hash : String → UInt32}
    {ch : ChannelDefault} (h : ch.Bypassing) (clock : Clock) (fuel : Nat) (context : Context)
    (buffer : Buffer) (size : Nat) (result : Result) :
    ∃ ch', ch.channelEnforce opt hash clock fuel context buffer size result =
        .ok (ch', (ch.buildTicket context buffer size).1.freshResult) ∧
      ch'.Bypassing ∧ ch'.ticketId = ch.ticketId + 1 := by
  let q : SubmissionQueue := { ch.submissionQueue with
    noMatchObject := (ch.submissionQueue.noMatchObject.objEnforce
      (ch.buildTicket context buffer size).1 (result.setTicketId ch.ticketId)).1 }
  let ch' : ChannelDefault := { ch with ticketId := ch.ticketId + 1, submissionQueue := q }
  have hrecord : ch'.recordStatistics opt context = .ok ch' := by
    simp [recordStatistics, ch', h.statistics]
  refine ⟨ch', ?_, ⟨h.mode, h.objects, h.statistics⟩, rfl⟩
  rw [channelEnforce_eq, SubmissionQueue.enforceMechanism_bypass h.objects]
  simp only [ch', q] at hrecord
  simp only [finishRequest, hrecord, ch', q]
  simp [h.mode]

namespace Machine

def queueOptions : Options := { channelMode := .queueing, channelStatisticCollection := false }

def queueChannel : ChannelDefault := .new queueOptions 1 fun _ => 0

/-- The steps of two calls after their requests: `false` submits its ticket first, though `true` has
the first identifier, and gets its Result first. -/
def overlapping : List (Action Bool Unit) :=
  List.replicate 4 (.caller false) ++ List.replicate 3 (.caller true) ++
    List.replicate 20 (.worker () (fun _ => 0) 0) ++ List.replicate 5 (.caller false) ++
    List.replicate 5 (.caller true)

theorem run_overlapping :
    ∃ m, (start queueChannel).run queueOptions (fun _ => 0) (.request true {} (some fun _ => 7) 1 {} ::
        .request false {} none 0 {} :: overlapping) = some m ∧ m.history.made = 2 ∧
      m.history.submitted = [⟨false, 1⟩, ⟨true, 0⟩] ∧
      m.history.returned.map Prod.fst = [⟨false, 1⟩, ⟨true, 0⟩] := by
  have hmap : ((start queueChannel).run queueOptions (fun _ => 0)
      (.request true {} (some fun _ => 7) 1 {} :: .request false {} none 0 {} :: overlapping)).map
        (fun m => (m.history.made, m.history.submitted, m.history.returned.map Prod.fst)) =
      some (2, [⟨false, 1⟩, ⟨true, 0⟩], [⟨false, 1⟩, ⟨true, 0⟩]) := by decide +kernel
  obtain ⟨m, hrun, hm⟩ := Option.map_eq_some_iff.mp hmap
  simp only [Prod.mk.injEq] at hm
  exact ⟨m, hrun, hm⟩

theorem run_delivers_overlapping :
    ∃ m : Machine Bool Unit, m.history.returned.map Prod.fst = [⟨false, 1⟩, ⟨true, 0⟩] ∧
      m.history.served.Nodup ∧
      m.history.completed.map Prod.fst <+: m.history.submitted ∧
      (∀ call ticket result, (call, ticket, result) ∈ m.history.returned →
        (call, result) ∈ m.history.completed ∧ result.ticketId = ticket.ticketId ∧
          result.hasContent = decide (0 < ticket.bufferSize) ∧
          result.contentBytes = ticket.buffer) ∧
      m.history.completed = m.history.handed.map Prod.snd ++ m.completions ∧
      (m.history.completed.map Prod.fst).Nodup ∧
      ∀ call ref result, (call, ref, result) ∈ m.history.handed → ref = call := by
  obtain ⟨m, hrun, -, -, hreturned⟩ := run_overlapping
  let m₁ := (start queueChannel : Machine Bool Unit).called true {} (some fun _ => 7) 1 {}
  have hfirst : Fresh (start queueChannel : Machine Bool Unit)
      (.request true {} (some fun _ => 7) 1 {}) := fun c hc => absurd rfl hc
  have hsecond : Fresh m₁ (.request false {} none 0 {}) := by
    intro c hc
    cases c with
    | false => exact absurd rfl hc
    | true =>
      show (0 : UInt64) ≠ 1
      decide
  have hrest : Reaches queueOptions (fun _ => 0) Fresh m₁ m := by
    refine reaches_of_run_cons hsecond ?_ hrun
    intro m a ha
    simp only [overlapping, List.mem_append, List.mem_replicate] at ha
    rcases ha with (((⟨-, rfl⟩ | ⟨-, rfl⟩) | ⟨-, rfl⟩) | ⟨-, rfl⟩) | ⟨-, rfl⟩ <;> trivial
  exact ⟨m, hreturned, run_delivers (.head ⟨_, hfirst, rfl⟩ hrest)⟩

/-- The callers of the run below: `false` has built its ticket and is then delayed, `true` makes
one request after the other. -/
structure Delayed (ticket : Ticket) (next : UInt64) (m : Machine Bool Unit) : Prop where
  quiet : m.Quiet ()
  channel : m.channel.Bypassing
  next : m.channel.ticketId = next
  delayed : (m.callers false).pc = .submitting ∧ (m.callers false).ticket = ticket
  other : (m.callers true).pc = .idle

theorem Delayed.request {ticket : Ticket} {next : UInt64} {m : Machine Bool Unit}
    {opt : Options} {hash : String → UInt32} (h : Delayed ticket next m) :
    ∃ m', Reaches opt hash (fun _ _ => True) m m' ∧ Delayed ticket (next + 1) m' := by
  obtain ⟨channel, henforce, hbypassing, hnext⟩ :=
    h.channel.channelEnforce (fun _ => 0) 0 {} none 0 {}
  obtain ⟨as, m', hrun, -, hquiet, hchannel, hidle, -, hother, -⟩ :=
    run_request h.quiet h.other h.channel.mode henforce
  refine ⟨m', reaches_of_run (fun _ _ _ => trivial) hrun, hquiet, ?_, ?_, ?_, hidle⟩
  · rw [hchannel]
    exact hbypassing
  · rw [hchannel, hnext, h.next]
  · rw [hother false (by simp)]
    simp [Caller.notify, h.delayed.1, h.delayed.2]

theorem Delayed.requests {ticket : Ticket} {next : UInt64} {m : Machine Bool Unit}
    {opt : Options} {hash : String → UInt32} (h : Delayed ticket next m) (n : Nat) :
    ∃ m', Reaches opt hash (fun _ _ => True) m m' ∧ Delayed ticket (next + UInt64.ofNat n) m' := by
  induction n with
  | zero => exact ⟨m, .refl, by simpa using h⟩
  | succ n ih =>
    obtain ⟨m₁, hr₁, h₁⟩ := ih
    obtain ⟨m₂, hr₂, h₂⟩ := h₁.request
    refine ⟨m₂, hr₁.trans hr₂, ?_⟩
    rw [UInt64.ofNat_add, ← UInt64.add_assoc]
    exact h₂

/-- The Result of `false` is in the completion queue, and `true` comes to collect its own. -/
structure Overtaking (ticket ticket' : Ticket) (m : Machine Bool Unit) : Prop where
  unlocked : m.Unlocked
  running : m.isRunning = true
  statistics : m.channel.collectChannelStatistics = false
  completions : ∃ ref, m.completions = [(ref, ticket.freshResult)]
  other : (m.callers true).pc = .collecting ∧ (m.callers true).ticket = ticket'

/-- The delayed call submits its ticket, `true` makes one more request, and the worker serves the
delayed call. -/
theorem Delayed.overtaking {ticket : Ticket} {next : UInt64} {m : Machine Bool Unit} {opt : Options}
    {hash : String → UInt32} (h : Delayed ticket next m) :
    ∃ m', Reaches opt hash (fun _ _ => True) m m' ∧
      Overtaking ticket (m.channel.buildTicket {} none 0).1 m' ∧
      m'.history.handed = m.history.handed := by
  obtain ⟨⟨hlocks, hrunning, hsubs, hcomps, hworker⟩, ⟨hmode, hobjects, hstatistics⟩, hnext,
    ⟨hpc, rfl⟩, hidle⟩ := h
  let m₁ := m.submitted false
  let m₂ := m₁.called true {} none 0 {}
  let m₃ := m₂.submitted true
  let q : SubmissionQueue := { m.channel.submissionQueue with
    noMatchObject := (m.channel.submissionQueue.noMatchObject.objEnforce (m.callers false).ticket
      { ticketId := (m.callers false).ticket.ticketId }).1 }
  let refs : Ref Bool × Ref Bool := (m.ticketRef false, ⟨true, m.history.made⟩)
  let m₄ := m₃.served () refs.1 [refs.2] q (m.callers false).ticket.freshResult
  obtain ⟨n₁, h₁⟩ : ∃ n, m.run opt hash (List.replicate n (.caller false)) = some m₁ :=
    run_submit hpc hlocks.queue
  have hidle₁ : (m₁.callers true).pc = .idle := by simpa [m₁] using hidle
  have hmode₁ : m₁.channel.useFastPath = false := hmode
  have h₂ : m₁.run opt hash [.request true {} none 0 {}] = some m₂ :=
    run_call hidle₁ hmode₁ {} none 0 {}
  obtain ⟨n₃, h₃⟩ : ∃ n, m₂.run opt hash (List.replicate n (.caller true)) = some m₃ :=
    run_submit (by simp [m₂]) hlocks.queue
  have hfalse : m₃.callers false = { m.callers false with pc := .collecting } := by
    simp [m₃, m₂, m₁]
  have hsubs₃ : m₃.submissions = [refs.1, refs.2] := by
    simp [m₃, m₂, submitted, ticketRef, m₁, called, setCaller, hsubs, refs]
  have hderef : m₃.deref refs.1 = some (m.callers false).ticket := by
    simp [deref, refs, ticketRef, hfalse]
  have henforce : m₃.channel.submissionQueue.enforceMechanism hash (fun _ => 0) 0
      (m.callers false).ticket { ticketId := (m.callers false).ticket.ticketId } =
        .ok (q, (m.callers false).ticket.freshResult) := by
    rw [← Ticket.writeResult_new]
    exact SubmissionQueue.enforceMechanism_bypass hobjects _ _ _ _
  obtain ⟨n₄, h₄⟩ : ∃ n, m₃.run opt hash (List.replicate n (.worker () (fun _ => 0) 0)) = some m₄ :=
    run_serve (submitted_looping (submitted_looping hworker false) true) hrunning
      ⟨hlocks.queue, hlocks.completion, hlocks.objects⟩ hsubs₃
      (queueSize_cons_ne_zero (by simp)) hderef henforce
  have htrue : m₄.callers true = m₃.callers true := by
    refine served_callers ?_ _ _ _ _ _
    simp [m₃, Caller.notify]
  refine ⟨m₄, reaches_of_run (fun _ _ _ => trivial)
    (run_append h₁ (run_append h₂ (run_append h₃ h₄))),
    ⟨⟨hlocks.queue, hlocks.completion, hlocks.objects⟩, hrunning, hstatistics, ⟨refs.1, ?_⟩, ?_⟩, rfl⟩
  · have hcomps₃ : m₃.completions = [] := hcomps
    simp [m₄, served, hcomps₃, Ticket.copy_freshResult]
  · rw [htrue, submitted_callers_self, called_callers_self]
    exact ⟨rfl, rfl⟩

/-- With the identifier of the other ticket, the Result is taken by the wrong caller. -/
theorem Overtaking.takes_other {ticket ticket' : Ticket} {m : Machine Bool Unit} {opt : Options}
    {hash : String → UInt32} (h : Overtaking ticket ticket' m)
    (hid : ticket'.ticketId = ticket.ticketId) :
    ∃ m' call, Reaches opt hash (fun _ _ => True) m m' ∧
      (call, ticket', ticket.freshResult) ∈ m'.history.returned := by
  obtain ⟨hlocks, -, hstatistics, ⟨ref, hcomps⟩, hpc, hticket⟩ := h
  have hrecord : m.channel.recordStatistics opt (m.callers true).context = .ok m.channel := by
    simp [ChannelDefault.recordStatistics, hstatistics]
  have hcollect : m.run opt hash (List.replicate 5 (.caller true)) =
      some (m.collected true ref ticket.freshResult [] m.channel) := by
    refine run_collect hpc hlocks.completion hcomps (queueSize_singleton _) ?_ hrecord
    rw [hticket, hid]
    rfl
  refine ⟨_, m.ticketRef true, reaches_of_run (fun _ _ _ => trivial) hcollect, ?_⟩
  simp only [collected, hticket, Ticket.assign_freshResult]
  exact List.mem_append_right _ List.mem_cons_self

theorem delayed_first :
    ∃ m : Machine Bool Unit,
      Reaches queueOptions (fun _ => 0) (fun _ _ => True) (start queueChannel) m ∧
      Delayed (queueChannel.buildTicket {} (some fun _ => 7) 1).1 1 m ∧ m.history.handed = [] := by
  refine ⟨(start queueChannel).called false {} (some fun _ => 7) 1 {}, ?_, ?_, rfl⟩
  · exact reaches_of_run (fun _ _ _ => trivial) (run_call rfl rfl {} (some fun _ => 7) 1 {})
  · exact ⟨⟨⟨rfl, rfl, rfl⟩, rfl, rfl, rfl, rfl⟩, ⟨rfl, rfl, rfl⟩, rfl, ⟨rfl, rfl⟩, rfl⟩

/-- `2^64 - 1` requests are made while the first one is delayed. -/
theorem returned_other_content :
    ¬ ∀ m : Machine Bool Unit,
      Reaches queueOptions (fun _ => 0) (fun _ _ => True) (start queueChannel) m →
      ∀ call ticket result, (call, ticket, result) ∈ m.history.returned →
        result.hasContent = decide (0 < ticket.bufferSize) ∧
          result.contentBytes = ticket.buffer := by
  intro hall
  obtain ⟨m₀, hstart, hfirst, -⟩ := delayed_first
  obtain ⟨m₁, hr₁, h₁⟩ : ∃ m, Reaches queueOptions (fun _ => 0) (fun _ _ => True) m₀ m ∧
      Delayed _ _ m := hfirst.requests (2 ^ 64 - 1)
  have hwrap : (1 : UInt64) + UInt64.ofNat (2 ^ 64 - 1) =
      (queueChannel.buildTicket {} (some fun _ => 7) 1).1.ticketId := by
    decide
  rw [hwrap] at h₁
  obtain ⟨m₂, hr₂, h₂, -⟩ : ∃ m, Reaches queueOptions (fun _ => 0) (fun _ _ => True) m₁ m ∧
      Overtaking _ _ m ∧ m.history.handed = m₁.history.handed := h₁.overtaking
  obtain ⟨m₃, call, hr₃, hreturned⟩ := h₂.takes_other (by
    rw [ChannelDefault.buildTicket_ticketId, h₁.next])
  have hcontent := (hall m₃ (hstart.trans (hr₁.trans (hr₂.trans hr₃))) _ _ _ hreturned).1
  simp [Ticket.freshResult, ChannelDefault.buildTicket, ChannelDefault.buildTicket.withoutContent] at hcontent

end Machine

end Paio
