import Paio.ChannelCalls
import Paio.Library.Mutex

/-!
# Paio.FastPathThreads

A channel on the fast path with any number of threads in it: each is in `channel_enforce` or in
`configure_enforcement_object`, and one step is one atomic operation or one access to a lock.

* `gen_ticket_id` increments an atomic counter, in one step.
* The objects are only used with `m_objects_lock` held, the counters with `m_stats_mutex`. A thread
  takes what it works on when it gets the lock and puts back what it made of it later
  (`enforcing`, `recording` and `configuring` carry it), so without the locks updates would be lost.
* The linkers do not change here: objects are created before the run. `linking` is the critical
  section of `get_enforcement_object_diff_token`.
* A step that a call does not come back from does not exist.

Every run is linearizable (`fastPath_linearizable`): whatever the schedule, the calls have the
replies and the effect they have one after the other, in an order that keeps the order of calls
that do not overlap.
-/

namespace Paio

open Linearizability Mutex

/-- What a thread does next, with the local variables it still needs. -/
inductive FastPc where
  | idle
  | buildingTicket (context : Context) (buffer : Buffer) (size : Nat) (result : Result)
  | lockingObjects (context : Context) (ticket : Ticket) (result : Result)
  | enforcing (context : Context) (ticket : Ticket) (result : Result) (objects : SubmissionQueue)
  | leavingObjects (context : Context) (result : Result)
  | lockingStatistics (context : Context) (result : Result)
  | recording (context : Context) (result : Result) (stats : ChannelStatistics)
  | leavingStatistics (result : Result)
  | linking (objectId : Int) (config : Int) (configurations : List Int)
  | lockingConfigured (token : UInt32) (config : Int) (configurations : List Int)
  | configuring (token : UInt32) (config : Int) (configurations : List Int)
      (objects : SubmissionQueue)
  | leavingConfigured (status : PStatus)
  | returning (reply : ChannelReply)

namespace FastPc

def holdsObjects : FastPc → Bool
  | .enforcing .. | .leavingObjects .. | .configuring .. | .leavingConfigured .. => true
  | _ => false

def holdsStatistics : FastPc → Bool
  | .recording .. | .leavingStatistics .. => true
  | _ => false

/-- The ticket is built and the objects have not seen it. -/
def hasTicket : FastPc → Bool
  | .lockingObjects .. | .enforcing .. => true
  | _ => false

/-- The objects have served the request and the statistics have not seen it. -/
def uncounted : FastPc → Bool
  | .leavingObjects .. | .lockingStatistics .. | .recording .. => true
  | _ => false

end FastPc

/-- `serials` numbers the calls, for the history only. -/
structure FastChannel (C : Type) where
  channel : ChannelDefault
  objectsLock : Option C := none
  statisticsLock : Option C := none
  threads : C → FastPc := fun _ => .idle
  serials : C → Nat := fun _ => 0
  made : Nat := 0

inductive FastAction (C : Type) where
  | call (c : C) (op : ChannelCall)
  | run (c : C) (clock : Clock) (fuel : Nat)

namespace FastChannel

variable {C : Type} [DecidableEq C] (opt : Options) (hash : String → UInt32)

def goTo (m : FastChannel C) (c : C) (pc : FastPc) : FastChannel C :=
  { m with threads := Function.update m.threads c pc }

/-- The first line of either function. -/
def entry : ChannelCall → FastPc
  | .enforce context buffer size result => .buildingTicket context buffer size result
  | .configure objectId config configurations => .linking objectId config configurations

def call (m : FastChannel C) (c : C) (op : ChannelCall) : Option (FastChannel C) :=
  match m.threads c with
  | .idle =>
    some { m.goTo c (entry op) with
      serials := Function.update m.serials c m.made
      made := m.made + 1 }
  | _ => none

def lockObjects (m : FastChannel C) (c : C) (pc : FastPc) : Option (FastChannel C) :=
  if m.objectsLock = none then some { m.goTo c pc with objectsLock := some c } else none

def lockStatistics (m : FastChannel C) (c : C) (pc : FastPc) : Option (FastChannel C) :=
  if m.statisticsLock = none then some { m.goTo c pc with statisticsLock := some c } else none

def run (clock : Clock) (fuel : Nat) (m : FastChannel C) (c : C) : Option (FastChannel C) :=
  match m.threads c with
  | .idle => none
  -- channel_enforce
  | .buildingTicket context buffer size result =>
    let (ticket, channel) := m.channel.buildTicket context buffer size
    some { m.goTo c (.lockingObjects context ticket (result.setTicketId ticket.ticketId)) with
      channel := channel }
  | .lockingObjects context ticket result =>
    m.lockObjects c (.enforcing context ticket result m.channel.submissionQueue)
  | .enforcing context ticket result objects =>
    match objects.enqueueFastPath hash clock fuel ticket result with
    | .error _ => none
    | .ok (q, result') =>
      some { m.goTo c (.leavingObjects context result') with
        channel := { m.channel with submissionQueue := q } }
  | .leavingObjects context result =>
    some { m.goTo c (if m.channel.collectChannelStatistics then .lockingStatistics context result
        else .returning (.enforced result)) with
      objectsLock := none }
  | .lockingStatistics context result =>
    m.lockStatistics c (.recording context result m.channel.channelStatistics)
  | .recording context result stats =>
    match { m.channel with channelStatistics := stats }.recordStatistics opt context with
    | .error _ => none
    | .ok channel => some { m.goTo c (.leavingStatistics result) with channel := channel }
  | .leavingStatistics result =>
    some { m.goTo c (.returning (.enforced result)) with statisticsLock := none }
  -- configure_enforcement_object
  | .linking objectId config configurations =>
    let token := m.channel.getEnforcementObjectDiffToken objectId
    some (m.goTo c (if token = noToken then .returning (.configured .error)
      else .lockingConfigured token config configurations))
  | .lockingConfigured token config configurations =>
    m.lockObjects c (.configuring token config configurations m.channel.submissionQueue)
  | .configuring token config configurations objects =>
    match objects.configureEnforcementObject token config configurations with
    | .error _ => none
    | .ok (q, status) =>
      some { m.goTo c (.leavingConfigured status) with
        channel := { m.channel with submissionQueue := q } }
  | .leavingConfigured status =>
    some { m.goTo c (.returning (.configured status)) with objectsLock := none }
  | .returning _ => some (m.goTo c .idle)

def step (m : FastChannel C) : FastAction C → Option (FastChannel C)
  | .call c op => m.call c op
  | .run c clock fuel => run opt hash clock fuel m c

/-- What the threads see of a step: calls and returns. -/
def observe (m : FastChannel C) : FastAction C → List (Event Nat ChannelCall ChannelReply)
  | .call _ op => [.call m.made op]
  | .run c _ _ =>
    match m.threads c with
    | .returning reply => [.ret (m.serials c) reply]
    | _ => []

/-- A channel with nobody in it. -/
def start (channel : ChannelDefault) : FastChannel C := { channel := channel }

def Next (s s' : FastChannel C × List (Event Nat ChannelCall ChannelReply)) : Prop :=
  ∃ a, s.1.step opt hash a = some s'.1 ∧ s'.2 = s.2 ++ s.1.observe a

/-- The machine and its history after some steps from a channel with nobody in it. -/
abbrev Runs (channel : ChannelDefault) (m : FastChannel C)
    (h : List (Event Nat ChannelCall ChannelReply)) : Prop :=
  Relation.ReflTransGen (Next opt hash) (start channel, []) (m, h)

/-! ## The locks -/

structure Locked (m : FastChannel C) : Prop where
  objects : Owned m.objectsLock fun c => (m.threads c).holdsObjects
  statistics : Owned m.statisticsLock fun c => (m.threads c).holdsStatistics

variable {opt hash} {m m' : FastChannel C}

theorem Locked.move (hl : Locked m) {c : C} {pc : FastPc}
    (hthreads : m'.threads = Function.update m.threads c pc)
    (hobjects : Moves c (m.threads c).holdsObjects pc.holdsObjects m.objectsLock m'.objectsLock)
    (hstatistics : Moves c (m.threads c).holdsStatistics pc.holdsStatistics m.statisticsLock
      m'.statisticsLock) : Locked m' := by
  have hself : m'.threads c = pc := by rw [hthreads, Function.update_self]
  have hne : ∀ c', c' ≠ c → m'.threads c' = m.threads c' := by
    intro c' hcc
    rw [hthreads, Function.update_of_ne hcc]
  refine ⟨hl.objects.move (t := c) ?_ ?_, hl.statistics.move (t := c) ?_ ?_⟩
  · intro c' hcc
    rw [hne c' hcc]
  · rwa [← hself] at hobjects
  · intro c' hcc
    rw [hne c' hcc]
  · rwa [← hself] at hstatistics

theorem lockObjects_eq_some {c : C} {pc : FastPc} :
    m.lockObjects c pc = some m' ↔
      m.objectsLock = none ∧ { m.goTo c pc with objectsLock := some c } = m' := by
  simp [lockObjects]

theorem lockStatistics_eq_some {c : C} {pc : FastPc} :
    m.lockStatistics c pc = some m' ↔
      m.statisticsLock = none ∧ { m.goTo c pc with statisticsLock := some c } = m' := by
  simp [lockStatistics]

omit [DecidableEq C] in
theorem locked_start (channel : ChannelDefault) : Locked (start channel : FastChannel C) := by
  refine ⟨?_, ?_⟩
  · intro c
    simp [start, FastPc.holdsObjects]
  · intro c
    simp [start, FastPc.holdsStatistics]

/-! ## What is known of a thread -/

/-- A thread at its place, given the history, the order so far, the requests still to be counted
and the calls in the order in which they drew their identifiers. -/
def Placed (ch₀ : ChannelDefault) (h : List (Event Nat ChannelCall ChannelReply))
    (lin : List (Entry Nat ChannelCall ChannelReply)) (pending : List (Nat × Context))
    (draws : List Nat) (channel : ChannelDefault) (serial : Nat) : FastPc → Prop
  | .idle => True
  | .buildingTicket context buffer size result =>
    .call serial (.enforce context buffer size result) ∈ h ∧ serial ∉ lin.map Entry.id ∧
      serial ∉ draws
  | .lockingObjects context ticket result => Ticketed context ticket result
  | .enforcing context ticket result objects =>
    Ticketed context ticket result ∧ objects = channel.submissionQueue
  | .leavingObjects context result => Answered (.enforced result) ∧ (serial, context) ∈ pending
  | .lockingStatistics context result => Answered (.enforced result) ∧ (serial, context) ∈ pending
  | .recording context result stats =>
    Answered (.enforced result) ∧ (serial, context) ∈ pending ∧ stats = channel.channelStatistics
  | .leavingStatistics result => Answered (.enforced result)
  | .linking objectId config configurations =>
    .call serial (.configure objectId config configurations) ∈ h ∧ serial ∉ lin.map Entry.id ∧
      serial ∉ draws
  | .lockingConfigured token config configurations => Linked token config configurations
  | .configuring token config configurations objects =>
    Linked token config configurations ∧ objects = channel.submissionQueue
  | .leavingConfigured status => Answered (.configured status)
  | .returning reply => Answered reply
where
  Ticketed (context : Context) (ticket : Ticket) (result : Result) : Prop :=
    ∃ buffer size result₀ k, .call serial (.enforce context buffer size result₀) ∈ h ∧
      serial ∉ lin.map Entry.id ∧ draws[k]? = some serial ∧
      ticket = ch₀.ticketFor (ch₀.ticketId + UInt64.ofNat k) context buffer size ∧
      result = result₀.setTicketId (ch₀.ticketId + UInt64.ofNat k)
  Linked (token : UInt32) (config : Int) (configurations : List Int) : Prop :=
    ∃ objectId, .call serial (.configure objectId config configurations) ∈ h ∧
      serial ∉ lin.map Entry.id ∧ serial ∉ draws ∧
      token = ch₀.getEnforcementObjectDiffToken objectId ∧ token ≠ noToken
  Answered (reply : ChannelReply) : Prop := ∃ e ∈ lin, e.id = serial ∧ e.reply = reply

/-- What another thread does, does not concern a thread that has its own number and the locks of
what it works on. -/
theorem Placed.frame {ch₀ channel channel' : ChannelDefault}
    {h h' : List (Event Nat ChannelCall ChannelReply)}
    {lin lin' : List (Entry Nat ChannelCall ChannelReply)} {pending pending' : List (Nat × Context)}
    {draws draws' : List Nat} {serial : Nat} {pc : FastPc}
    (hp : Placed ch₀ h lin pending draws channel serial pc) (hh : ∀ e ∈ h, e ∈ h')
    (hlin : ∀ e ∈ lin, e ∈ lin') (hids : ∀ e ∈ lin', e.id = serial → e ∈ lin)
    (hdraws : ∀ {k i : Nat}, draws[k]? = some i → draws'[k]? = some i)
    (hdrawn : serial ∈ draws' → serial ∈ draws)
    (hpending : ∀ context, (serial, context) ∈ pending → (serial, context) ∈ pending')
    (hobjects : pc.holdsObjects → channel'.submissionQueue = channel.submissionQueue)
    (hstats : pc.holdsStatistics → channel'.channelStatistics = channel.channelStatistics) :
    Placed ch₀ h' lin' pending' draws' channel' serial pc := by
  have hnew : serial ∉ lin.map Entry.id → serial ∉ lin'.map Entry.id := by
    rintro hnot hmem
    obtain ⟨e, he, hid⟩ := List.mem_map.mp hmem
    exact hnot (List.mem_map.mpr ⟨e, hids e he hid, hid⟩)
  have hticketed : ∀ {context ticket result},
      Placed.Ticketed ch₀ h lin draws serial context ticket result →
      Placed.Ticketed ch₀ h' lin' draws' serial context ticket result := by
    rintro context ticket result ⟨buffer, size, result₀, k, hcall, hnot, hk, hticket, hresult⟩
    exact ⟨buffer, size, result₀, k, hh _ hcall, hnew hnot, hdraws hk, hticket, hresult⟩
  have hlinked : ∀ {token config configurations},
      Placed.Linked ch₀ h lin draws serial token config configurations →
      Placed.Linked ch₀ h' lin' draws' serial token config configurations := by
    rintro token config configurations ⟨objectId, hcall, hnot, hdraw, htoken⟩
    exact ⟨objectId, hh _ hcall, hnew hnot, fun hd => hdraw (hdrawn hd), htoken⟩
  have hanswered : ∀ {reply}, Placed.Answered lin serial reply →
      Placed.Answered lin' serial reply := by
    rintro reply ⟨e, he, hid⟩
    exact ⟨e, hlin e he, hid⟩
  cases pc with
  | idle => trivial
  | buildingTicket context buffer size result =>
    exact ⟨hh _ hp.1, hnew hp.2.1, fun hd => hp.2.2 (hdrawn hd)⟩
  | lockingObjects context ticket result => exact hticketed hp
  | enforcing context ticket result objects =>
    exact ⟨hticketed hp.1, hp.2.trans (hobjects rfl).symm⟩
  | leavingObjects context result => exact ⟨hanswered hp.1, hpending _ hp.2⟩
  | lockingStatistics context result => exact ⟨hanswered hp.1, hpending _ hp.2⟩
  | recording context result stats =>
    exact ⟨hanswered hp.1, hpending _ hp.2.1, hp.2.2.trans (hstats rfl).symm⟩
  | leavingStatistics result => exact hanswered hp
  | linking objectId config configurations =>
    exact ⟨hh _ hp.1, hnew hp.2.1, fun hd => hp.2.2 (hdrawn hd)⟩
  | lockingConfigured token config configurations => exact hlinked hp
  | configuring token config configurations objects =>
    exact ⟨hlinked hp.1, hp.2.trans (hobjects rfl).symm⟩
  | leavingConfigured status => exact hanswered hp
  | returning reply => exact hanswered hp

/-! ## The invariant -/

structure Sound (opt : Options) (hash : String → UInt32) (ch₀ : ChannelDefault) (m : FastChannel C)
    (h : List (Event Nat ChannelCall ChannelReply))
    (lin : List (Entry Nat ChannelCall ChannelReply)) (recorded pending : List (Nat × Context))
    (draws : List Nat) (ch : ChannelDefault) : Prop where
  accounts : Accounts opt hash ch₀ m.channel h lin recorded pending ch
  locked : m.Locked
  counter : m.channel.ticketId = ch₀.ticketId + UInt64.ofNat draws.length
  nodup : draws.Nodup
  served : ∀ e ∈ lin, ∀ context buffer size result, e.op = .enforce context buffer size result →
    ∃ k, draws[k]? = some e.id ∧ e.reply =
      .enforced (ch₀.resultFor (ch₀.ticketId + UInt64.ofNat k) context buffer size result)
  calls : ∀ i op, .call i op ∈ h → i < m.made
  serials : ∀ c, m.threads c ≠ .idle → m.serials c < m.made
  distinct : ∀ c c', m.threads c ≠ .idle → m.threads c' ≠ .idle →
    m.serials c = m.serials c' → c = c'
  placed : ∀ c, Placed ch₀ h lin pending draws m.channel (m.serials c) (m.threads c)
  holders : ∀ i ∈ draws, i ∈ (requestsOf lin).map Prod.fst ∨
    ∃ c, m.serials c = i ∧ (m.threads c).hasTicket
  counting : ∀ p ∈ pending, ∃ c, m.serials c = p.1 ∧ (m.threads c).uncounted

variable {ch₀ ch ch' : ChannelDefault} {h h' : List (Event Nat ChannelCall ChannelReply)}
  {lin lin' : List (Entry Nat ChannelCall ChannelReply)}
  {recorded recorded' pending pending' : List (Nat × Context)} {draws draws' : List Nat}

theorem ne_idle_of_hasTicket {pc : FastPc} (hpc : pc.hasTicket) : pc ≠ .idle := by
  rintro rfl
  cases hpc

theorem ne_idle_of_uncounted {pc : FastPc} (hpc : pc.uncounted) : pc ≠ .idle := by
  rintro rfl
  cases hpc

/-- A step of one call in progress: what the others rely on stays, and the books of the call that
moves are in order again at its new place. -/
theorem Sound.change (hs : Sound opt hash ch₀ m h lin recorded pending draws ch) {c : C}
    {pc : FastPc} (hbusy : m.threads c ≠ .idle)
    (hthreads : m'.threads = Function.update m.threads c pc) (hserials : m'.serials = m.serials)
    (hmade : m'.made = m.made) (hlocked : m'.Locked)
    (haccounts : Accounts opt hash ch₀ m'.channel h' lin' recorded' pending' ch')
    (hcounter : m'.channel.ticketId = ch₀.ticketId + UInt64.ofNat draws'.length)
    (hnodup : draws'.Nodup)
    (hh : ∀ e ∈ h, e ∈ h') (hcalls : ∀ i op, .call i op ∈ h' → .call i op ∈ h)
    (hlin : ∀ e ∈ lin, e ∈ lin')
    (hlin' : ∀ e ∈ lin', e ∈ lin ∨ e.id = m.serials c ∧
      ∀ context buffer size result, e.op = .enforce context buffer size result →
        ∃ k, draws'[k]? = some e.id ∧ e.reply =
          .enforced (ch₀.resultFor (ch₀.ticketId + UInt64.ofNat k) context buffer size result))
    (hdraws : ∀ {k i : Nat}, draws[k]? = some i → draws'[k]? = some i)
    (hdraws' : ∀ i ∈ draws', i ∈ draws ∨ i = m.serials c)
    (hpending : ∀ p ∈ pending, p.1 ≠ m.serials c → p ∈ pending')
    (hpending' : ∀ p ∈ pending', p ∈ pending ∨ p.1 = m.serials c)
    (hobjects : m'.channel.submissionQueue = m.channel.submissionQueue ∨
      (m.threads c).holdsObjects)
    (hstats : m'.channel.channelStatistics = m.channel.channelStatistics ∨
      (m.threads c).holdsStatistics)
    (hplaced : Placed ch₀ h' lin' pending' draws' m'.channel (m.serials c) pc)
    (hholder : m.serials c ∈ draws' →
      m.serials c ∈ (requestsOf lin').map Prod.fst ∨ pc.hasTicket)
    (hcounting : ∀ p ∈ pending', p.1 = m.serials c → pc.uncounted) :
    Sound opt hash ch₀ m' h' lin' recorded' pending' draws' ch' := by
  have hself : m'.threads c = pc := by rw [hthreads, Function.update_self]
  have hne : ∀ c', c' ≠ c → m'.threads c' = m.threads c' := by
    intro c' hcc
    rw [hthreads, Function.update_of_ne hcc]
  have hbusy' : ∀ c', m'.threads c' ≠ .idle → m.threads c' ≠ .idle := by
    intro c' hc'
    by_cases hcc : c' = c
    · rwa [hcc]
    · rwa [← hne c' hcc]
  have hother : ∀ c', c' ≠ c → m.threads c' ≠ .idle → m.serials c' ≠ m.serials c :=
    fun c' hcc hc' heq => hcc (hs.distinct c' c hc' hbusy heq)
  refine ⟨haccounts, hlocked, hcounter, hnodup, ?_, ?_, ?_, ?_, ?_, ?_, ?_⟩
  · intro e he context buffer size result hop
    rcases hlin' e he with hold | ⟨-, hnew⟩
    · obtain ⟨k, hk, hreply⟩ := hs.served e hold context buffer size result hop
      exact ⟨k, hdraws hk, hreply⟩
    · exact hnew context buffer size result hop
  · intro i op hcall
    rw [hmade]
    exact hs.calls i op (hcalls i op hcall)
  · intro c' hc'
    rw [hserials, hmade]
    exact hs.serials c' (hbusy' c' hc')
  · intro c₁ c₂ h₁ h₂ heq
    rw [hserials] at heq
    exact hs.distinct c₁ c₂ (hbusy' c₁ h₁) (hbusy' c₂ h₂) heq
  · intro c'
    rw [hserials]
    by_cases hcc : c' = c
    · rw [hcc, hself]
      exact hplaced
    · rw [hne c' hcc]
      by_cases hidle : m.threads c' = .idle
      · rw [hidle]
        trivial
      · have hserial := hother c' hcc hidle
        refine (hs.placed c').frame hh hlin ?_ hdraws ?_ ?_ ?_ ?_
        · intro e he hid
          rcases hlin' e he with hold | ⟨hid', -⟩
          · exact hold
          · exact absurd (hid.symm.trans hid') hserial
        · intro hd
          exact (hdraws' _ hd).resolve_right hserial
        · intro context hp
          exact hpending _ hp hserial
        · intro hholds
          refine hobjects.resolve_right fun hc => hcc ?_
          exact hs.locked.objects.unique hholds hc
        · intro hholds
          refine hstats.resolve_right fun hc => hcc ?_
          exact hs.locked.statistics.unique hholds hc
  · intro i hi
    by_cases hic : i = m.serials c
    · subst hic
      rcases hholder hi with hserved | hticket
      · exact .inl hserved
      · exact .inr ⟨c, by rw [hserials], by rwa [hself]⟩
    · rcases hs.holders i ((hdraws' i hi).resolve_right hic) with hserved | ⟨c', rfl, hticket⟩
      · refine .inl ?_
        obtain ⟨p, hp, rfl⟩ := List.mem_map.mp hserved
        refine List.mem_map.mpr ⟨p, ?_, rfl⟩
        obtain ⟨e, he, hop⟩ := List.mem_filterMap.mp hp
        exact List.mem_filterMap.mpr ⟨e, hlin e he, hop⟩
      · have hcc : c' ≠ c := fun hcc => hic (by rw [hcc])
        exact .inr ⟨c', by rw [hserials], by rwa [hne c' hcc]⟩
  · intro p hp
    by_cases hpc : p.1 = m.serials c
    · exact ⟨c, by rw [hserials, hpc], by rw [hself]; exact hcounting p hp hpc⟩
    · obtain ⟨c', hserial, hc'⟩ := hs.counting p ((hpending' p hp).resolve_right hpc)
      have hcc : c' ≠ c := fun hcc => hpc (by rw [← hserial, hcc])
      exact ⟨c', by rw [hserials, hserial], by rwa [hne c' hcc]⟩

omit [DecidableEq C] in
/-- The draw of a call is one that was served, or the call still has its ticket. -/
theorem Sound.holder (hs : Sound opt hash ch₀ m h lin recorded pending draws ch) {c : C}
    (hbusy : m.threads c ≠ .idle) (hdrawn : m.serials c ∈ draws) :
    m.serials c ∈ (requestsOf lin).map Prod.fst ∨ (m.threads c).hasTicket := by
  rcases hs.holders _ hdrawn with hserved | ⟨c', hserial, hticket⟩
  · exact .inl hserved
  · rw [hs.distinct c' c (ne_idle_of_hasTicket hticket) hbusy hserial] at hticket
    exact .inr hticket

omit [DecidableEq C] in
theorem Sound.uncounted (hs : Sound opt hash ch₀ m h lin recorded pending draws ch) {c : C}
    (hbusy : m.threads c ≠ .idle) {p : Nat × Context} (hp : p ∈ pending)
    (hserial : p.1 = m.serials c) : (m.threads c).uncounted := by
  obtain ⟨c', hserial', hc'⟩ := hs.counting p hp
  rwa [hs.distinct c' c (ne_idle_of_uncounted hc') hbusy (hserial'.trans hserial)] at hc'

/-- A step that changes only the place of the thread and the locks. -/
theorem Sound.move (hs : Sound opt hash ch₀ m h lin recorded pending draws ch) {c : C}
    {pc : FastPc} (hbusy : m.threads c ≠ .idle)
    (hthreads : m'.threads = Function.update m.threads c pc) (hserials : m'.serials = m.serials)
    (hmade : m'.made = m.made) (hlocked : m'.Locked) (hchannel : m'.channel = m.channel)
    (hplaced : Placed ch₀ h lin pending draws m.channel (m.serials c) pc)
    (hticket : pc.hasTicket = (m.threads c).hasTicket)
    (huncounted : pc.uncounted = (m.threads c).uncounted) :
    Sound opt hash ch₀ m' h lin recorded pending draws ch := by
  refine hs.change hbusy hthreads hserials hmade hlocked ?_ ?_ hs.nodup (fun _ he => he)
    (fun _ _ hcall => hcall) (fun _ he => he) (fun _ he => .inl he) id (fun _ hi => .inl hi)
    (fun _ hp _ => hp) (fun _ hp => .inl hp) (.inl (by rw [hchannel])) (.inl (by rw [hchannel]))
    ?_ ?_ ?_
  · rw [hchannel]
    exact hs.accounts
  · rw [hchannel]
    exact hs.counter
  · rw [hchannel]
    exact hplaced
  · intro hdrawn
    rw [hticket]
    exact hs.holder hbusy hdrawn
  · intro p hp hserial
    rw [huncounted]
    exact hs.uncounted hbusy hp hserial

/-- A thread draws an identifier for its ticket. -/
theorem Sound.draw (hs : Sound opt hash ch₀ m h lin recorded pending draws ch) {c : C}
    {context : Context} {buffer : Buffer} {size : Nat} {result : Result}
    (hpc : m.threads c = .buildingTicket context buffer size result) :
    Sound opt hash ch₀
      { m.goTo c (.lockingObjects context (m.channel.buildTicket context buffer size).1
          (result.setTicketId m.channel.ticketId)) with
        channel := { m.channel with ticketId := m.channel.ticketId + 1 } }
      h lin recorded pending (draws ++ [m.serials c]) ch := by
  have hp := hs.placed c
  rw [hpc] at hp
  obtain ⟨hcall, hnew, hdrawn⟩ := hp
  have hbusy : m.threads c ≠ .idle := by simp [hpc]
  refine hs.change hbusy rfl rfl rfl ?_ (hs.accounts.draw _) ?_ ?_ (fun _ he => he)
    (fun _ _ hcall => hcall) (fun _ he => he) (fun _ he => .inl he) ?_ ?_
    (fun _ hp _ => hp) (fun _ hp => .inl hp) (.inl rfl) (.inl rfl) ?_ (fun _ => .inr rfl) ?_
  · exact hs.locked.move rfl (by rw [hpc]; rfl) (by rw [hpc]; rfl)
  · simp only [List.length_append, List.length_singleton, UInt64.ofNat_add, ← add_assoc,
      ← hs.counter]
    rfl
  · rw [List.nodup_append']
    refine ⟨hs.nodup, by simp, ?_⟩
    intro i hi hi'
    rw [List.mem_singleton.mp hi'] at hi
    exact hdrawn hi
  · intro k i hk
    rwa [List.getElem?_append_left (List.getElem?_eq_some_iff.mp hk).1]
  · intro i hi
    rcases List.mem_append.mp hi with hi | hi
    · exact .inl hi
    · exact .inr (List.mem_singleton.mp hi)
  · refine ⟨buffer, size, result, draws.length, hcall, hnew, by simp, ?_, ?_⟩
    · rw [← hs.counter]
      exact ch₀.ticketFor_congr m.channel m.channel.ticketId context buffer size
    · rw [← hs.counter]
  · intro p hp hserial
    have hcontra := hs.uncounted hbusy hp hserial
    rw [hpc] at hcontra
    cases hcontra

/-- The objects serve the ticket of a thread. -/
theorem Sound.enforce (hs : Sound opt hash ch₀ m h lin recorded pending draws ch) {c : C}
    {context : Context} {ticket : Ticket} {result result' : Result} {objects q : SubmissionQueue}
    {clock : Clock} {fuel : Nat} (hmode : ch₀.useFastPath = true)
    (haccepts : ∀ i context buffer size result,
      .call i (.enforce context buffer size result) ∈ h → ch₀.Accepts opt context)
    (hpc : m.threads c = .enforcing context ticket result objects)
    (henforce : objects.enforceMechanism hash clock fuel ticket result = .ok (q, result')) :
    ∃ lin' ch', Sound opt hash ch₀
      { m.goTo c (.leavingObjects context result') with
        channel := { m.channel with submissionQueue := q } }
      h lin' recorded (pending ++ [(m.serials c, context)]) draws ch' := by
  have hp := hs.placed c
  rw [hpc] at hp
  obtain ⟨⟨buffer, size, result₀, k, hcall, hnew, hk, rfl, rfl⟩, rfl⟩ := hp
  have hbusy : m.threads c ≠ .idle := by simp [hpc]
  have hresult := SubmissionQueue.enforceMechanism_result hash henforce
  obtain ⟨ch', ha⟩ := hs.accounts.enforce hcall hnew (haccepts _ _ _ _ _ hcall) henforce
  have hreply : ch₀.resultFor (ch₀.ticketId + UInt64.ofNat k) context buffer size result₀ =
      result' := by
    rw [ChannelDefault.resultFor, if_pos hmode, hresult]
  refine ⟨_, ch', hs.change hbusy rfl rfl rfl ?_ ha hs.counter hs.nodup (fun _ he => he)
    (fun _ _ hcall => hcall) (fun _ he => List.mem_append_left _ he) ?_ id (fun _ hi => .inl hi)
    (fun _ hp _ => List.mem_append_left _ hp) ?_ (.inr (by rw [hpc]; rfl)) (.inl rfl) ?_ ?_
    (fun _ _ _ => rfl)⟩
  · exact hs.locked.move rfl (by rw [hpc]; rfl) (by rw [hpc]; rfl)
  · intro e he
    rcases List.mem_append.mp he with he | he
    · exact .inl he
    · rw [List.mem_singleton.mp he]
      refine .inr ⟨rfl, ?_⟩
      intro context' buffer' size' result'' hop
      cases hop
      exact ⟨k, hk, rfl⟩
  · intro p hp
    rcases List.mem_append.mp hp with hp | hp
    · exact .inl hp
    · exact .inr (by rw [List.mem_singleton.mp hp])
  · refine ⟨⟨_, List.mem_append_right _ List.mem_cons_self, rfl, ?_⟩,
      List.mem_append_right _ List.mem_cons_self⟩
    rw [hreply]
  · intro _
    refine .inl ?_
    simp [requestsOf]

/-- The statistics of a request are done, or there are none to be done. -/
theorem Sound.record (hs : Sound opt hash ch₀ m h lin recorded pending draws ch)
    (m' : FastChannel C) {c : C} {context : Context} {channel : ChannelDefault} {pc : FastPc}
    (hbusy : m.threads c ≠ .idle)
    (hmem : (m.serials c, context) ∈ pending)
    (hrecord : m.channel.recordStatistics opt context = .ok channel)
    (hthreads : m'.threads = Function.update m.threads c pc) (hserials : m'.serials = m.serials)
    (hmade : m'.made = m.made) (hlocked : m'.Locked) (hchannel : m'.channel = channel)
    (hstats : channel.channelStatistics = m.channel.channelStatistics ∨
      (m.threads c).holdsStatistics)
    (hplaced : ∀ pending', Placed ch₀ h lin pending' draws channel (m.serials c) pc)
    (hticket : pc.hasTicket = (m.threads c).hasTicket) :
    ∃ recorded' pending', Sound opt hash ch₀ m' h lin recorded' pending' draws ch := by
  obtain ⟨pending₁, pending₂, rfl⟩ := List.append_of_mem hmem
  have hrest : ∀ p ∈ pending₁ ++ pending₂, p.1 ≠ m.serials c := by
    intro p hp heq
    have hnodup := hs.accounts.nodup_pending
    rw [List.map_append, List.map_cons, List.nodup_middle, ← List.map_append,
      List.nodup_cons] at hnodup
    exact hnodup.1 (List.mem_map.mpr ⟨p, hp, heq⟩)
  have hkeep := ChannelDefault.recordStatistics_eq_tally hrecord
  refine ⟨_, _, hs.change hbusy hthreads hserials hmade hlocked
    (hchannel ▸ hs.accounts.record hrecord) ?_ hs.nodup (fun _ he => he)
    (fun _ _ hcall => hcall) (fun _ he => he) (fun _ he => .inl he) id (fun _ hi => .inl hi)
    ?_ ?_ (.inl ?_) ?_ ?_ ?_ ?_⟩
  · rw [hchannel, hkeep]
    exact hs.counter
  · intro p hp hne
    rcases List.mem_append.mp hp with hp | hp
    · exact List.mem_append_left _ hp
    · rcases List.mem_cons.mp hp with rfl | hp
      · exact absurd rfl hne
      · exact List.mem_append_right _ hp
  · intro p hp
    rcases List.mem_append.mp hp with hp | hp
    · exact .inl (List.mem_append_left _ hp)
    · exact .inl (List.mem_append_right _ (List.mem_cons_of_mem _ hp))
  · rw [hchannel, hkeep]
  · rw [hchannel]
    exact hstats
  · rw [hchannel]
    exact hplaced _
  · intro hdrawn
    rw [hticket]
    exact hs.holder hbusy hdrawn
  · intro p hp hserial
    exact absurd hserial (hrest p hp)

/-- A call is put in the order with an effect on the objects that is not a request's. -/
theorem Sound.settle (hs : Sound opt hash ch₀ m h lin recorded pending draws ch)
    (m' : FastChannel C) {c : C} {pc : FastPc} {objectId config : Int} {configurations : List Int}
    {status : PStatus} {channel : ChannelDefault} (hbusy : m.threads c ≠ .idle)
    (hcall : .call (m.serials c) (.configure objectId config configurations) ∈ h)
    (hnew : m.serials c ∉ lin.map Entry.id) (hdrawn : m.serials c ∉ draws)
    (hconfigure : m.channel.configureEnforcementObject objectId config configurations =
      .ok (channel, status))
    (hthreads : m'.threads = Function.update m.threads c pc) (hserials : m'.serials = m.serials)
    (hmade : m'.made = m.made) (hlocked : m'.Locked)
    (hchannel : m'.channel = { m.channel with submissionQueue := channel.submissionQueue })
    (hobjects : channel.submissionQueue = m.channel.submissionQueue ∨ (m.threads c).holdsObjects)
    (hplaced : ∀ lin' channel', (∃ e ∈ lin', e.id = m.serials c ∧ e.reply = .configured status) →
      Placed ch₀ h lin' pending draws channel' (m.serials c) pc)
    (huncounted : (m.threads c).uncounted = false) :
    ∃ lin' ch', Sound opt hash ch₀ m' h lin' recorded pending draws ch' := by
  obtain ⟨ch', ha⟩ := hs.accounts.configure hcall hnew hconfigure
  refine ⟨_, ch', hs.change hbusy hthreads hserials hmade hlocked (hchannel ▸ ha) ?_ hs.nodup
    (fun _ he => he) (fun _ _ hcall => hcall) (fun _ he => List.mem_append_left _ he) ?_ id
    (fun _ hi => .inl hi) (fun _ hp _ => hp) (fun _ hp => .inl hp) ?_ (.inl ?_) ?_ ?_ ?_⟩
  · rw [hchannel]
    exact hs.counter
  · intro e he
    rcases List.mem_append.mp he with he | he
    · exact .inl he
    · rw [List.mem_singleton.mp he]
      refine .inr ⟨rfl, ?_⟩
      intro context buffer size result hop
      cases hop
  · rw [hchannel]
    exact hobjects
  · rw [hchannel]
  · exact hplaced _ _ ⟨_, List.mem_append_right _ List.mem_cons_self, rfl, rfl⟩
  · intro hd
    exact absurd hd hdrawn
  · intro p hp hserial
    have hcontra := hs.uncounted hbusy hp hserial
    rw [huncounted] at hcontra
    cases hcontra

/-- A call returns with the reply it has in the order. -/
theorem Sound.ret (hs : Sound opt hash ch₀ m h lin recorded pending draws ch) {c : C}
    {reply : ChannelReply} (hpc : m.threads c = .returning reply) :
    Sound opt hash ch₀ (m.goTo c .idle) (h ++ [.ret (m.serials c) reply]) lin recorded pending draws
      ch := by
  have hanswered : ∃ e ∈ lin, e.id = m.serials c ∧ e.reply = reply := by
    have hp := hs.placed c
    rwa [hpc] at hp
  have hbusy : m.threads c ≠ .idle := by simp [hpc]
  refine hs.change hbusy rfl rfl rfl ?_ (hs.accounts.ret hanswered) hs.counter hs.nodup
    (fun _ he => List.mem_append_left _ he) ?_ (fun _ he => he) (fun _ he => .inl he) id
    (fun _ hi => .inl hi) (fun _ hp _ => hp) (fun _ hp => .inl hp) (.inl rfl) (.inl rfl) trivial
    ?_ ?_
  · exact hs.locked.move rfl (by rw [hpc]; rfl) (by rw [hpc]; rfl)
  · intro i op hcall
    simpa using hcall
  · intro hdrawn
    rcases hs.holder hbusy hdrawn with hserved | hticket
    · exact .inl hserved
    · rw [hpc] at hticket
      cases hticket
  · intro p hp hserial
    have hcontra := hs.uncounted hbusy hp hserial
    rw [hpc] at hcontra
    cases hcontra

/-- A new call, under a number that no call has. -/
theorem Sound.call (hs : Sound opt hash ch₀ m h lin recorded pending draws ch) {c : C}
    {op : ChannelCall} (hcall : m.call c op = some m') :
    Sound opt hash ch₀ m' (h ++ [.call m.made op]) lin recorded pending draws ch := by
  obtain ⟨hidle, rfl⟩ : m.threads c = .idle ∧ { m.goTo c (entry op) with
      serials := Function.update m.serials c m.made
      made := m.made + 1 } = m' := by
    simp only [FastChannel.call] at hcall
    split at hcall
    · rename_i hidle
      exact ⟨hidle, Option.some.inj hcall⟩
    · cases hcall
  have hnew : ∀ op', .call m.made op' ∉ h := fun op' hmem => (hs.calls _ _ hmem).ne rfl
  have hnotin : m.made ∉ lin.map Entry.id := by
    intro hmem
    obtain ⟨e, he, hid⟩ := List.mem_map.mp hmem
    exact hnew e.op (hid ▸ hs.accounts.order.called e he)
  have hnotdrawn : m.made ∉ draws := by
    intro hmem
    rcases hs.holders _ hmem with hserved | ⟨c', hserial, hticket⟩
    · exact hnotin ((requestsOf_ids_sublist lin).subset hserved)
    · exact (hs.serials c' (ne_idle_of_hasTicket hticket)).ne hserial
  have hself : Function.update m.threads c (entry op) c = entry op := Function.update_self ..
  have hother : ∀ c', c' ≠ c → Function.update m.threads c (entry op) c' = m.threads c' :=
    fun c' hcc => Function.update_of_ne hcc ..
  have hserial : ∀ c', c' ≠ c → Function.update m.serials c m.made c' = m.serials c' :=
    fun c' hcc => Function.update_of_ne hcc ..
  refine ⟨hs.accounts.call op hnew, ?_, hs.counter, hs.nodup, hs.served, ?_, ?_, ?_, ?_, ?_, ?_⟩
  · exact hs.locked.move rfl (by rw [hidle]; cases op <;> rfl) (by rw [hidle]; cases op <;> rfl)
  · intro i op' hmem
    rcases List.mem_append.mp hmem with hmem | hmem
    · exact Nat.lt_succ_of_lt (hs.calls i op' hmem)
    · cases List.mem_singleton.mp hmem
      exact Nat.lt_succ_self _
  · intro c' hbusy
    by_cases hcc : c' = c
    · subst hcc
      simp
    · simp only [goTo, hother c' hcc] at hbusy
      simp only [hserial c' hcc]
      exact Nat.lt_succ_of_lt (hs.serials c' hbusy)
  · intro c₁ c₂ h₁ h₂ heq
    by_cases hc₁ : c₁ = c
    · by_cases hc₂ : c₂ = c
      · rw [hc₁, hc₂]
      · subst hc₁
        simp only [goTo, hother c₂ hc₂] at h₂
        simp only [Function.update_self, hserial c₂ hc₂] at heq
        exact absurd heq (hs.serials c₂ h₂).ne'
    · by_cases hc₂ : c₂ = c
      · subst hc₂
        simp only [goTo, hother c₁ hc₁] at h₁
        simp only [Function.update_self, hserial c₁ hc₁] at heq
        exact absurd heq (hs.serials c₁ h₁).ne
      · simp only [goTo, hother c₁ hc₁] at h₁
        simp only [goTo, hother c₂ hc₂] at h₂
        simp only [hserial c₁ hc₁, hserial c₂ hc₂] at heq
        exact hs.distinct c₁ c₂ h₁ h₂ heq
  · intro c'
    by_cases hcc : c' = c
    · subst hcc
      simp only [goTo, hself, Function.update_self]
      cases op with
      | enforce context buffer size result => exact ⟨by simp, hnotin, hnotdrawn⟩
      | configure objectId config configurations => exact ⟨by simp, hnotin, hnotdrawn⟩
    · simp only [goTo, hother c' hcc, hserial c' hcc]
      exact (hs.placed c').frame (fun _ he => List.mem_append_left _ he) (fun _ he => he)
        (fun _ he _ => he) id id (fun _ hp => hp) (fun _ => rfl) (fun _ => rfl)
  · intro i hi
    rcases hs.holders i hi with hserved | ⟨c', hid, hticket⟩
    · exact .inl hserved
    · have hcc : c' ≠ c := by
        rintro rfl
        exact ne_idle_of_hasTicket hticket hidle
      exact .inr ⟨c', by simp only [hserial c' hcc, hid], by simpa only [goTo, hother c' hcc]⟩
  · intro p hp
    obtain ⟨c', hid, huncounted⟩ := hs.counting p hp
    have hcc : c' ≠ c := by
      rintro rfl
      exact ne_idle_of_uncounted huncounted hidle
    exact ⟨c', by simp only [hserial c' hcc, hid], by simpa only [goTo, hother c' hcc]⟩

/-- Every step of a call keeps the books. -/
theorem Sound.run (hs : Sound opt hash ch₀ m h lin recorded pending draws ch) {c : C}
    {clock : Clock} {fuel : Nat} (hmode : ch₀.useFastPath = true)
    (haccepts : ∀ i context buffer size result,
      .call i (.enforce context buffer size result) ∈ h → ch₀.Accepts opt context)
    (hrun : run opt hash clock fuel m c = some m') :
    ∃ lin' recorded' pending' draws' ch', Sound opt hash ch₀ m'
      (h ++ m.observe (.run c clock fuel)) lin' recorded' pending' draws' ch' := by
  have hp := hs.placed c
  have hlinkers : m.channel.objectIdToTokenLinkers = ch₀.objectIdToTokenLinkers := by
    rw [hs.accounts.shared]
    rfl
  have htoken : ∀ objectId, m.channel.getEnforcementObjectDiffToken objectId =
      ch₀.getEnforcementObjectDiffToken objectId := by
    intro objectId
    simp only [ChannelDefault.getEnforcementObjectDiffToken, hlinkers]
  cases hpc : m.threads c <;> simp only [FastChannel.run, hpc] at hrun <;>
    simp only [observe, hpc, List.append_nil] <;> rw [hpc] at hp
  case idle => cases hrun
  case buildingTicket context buffer size result =>
    cases hrun
    have hdraw := hs.draw hpc
    simp only [ChannelDefault.buildTicket_snd, ChannelDefault.buildTicket_ticketId]
    exact ⟨_, _, _, _, _, hdraw⟩
  case lockingObjects context ticket result =>
    obtain ⟨hfree, rfl⟩ := lockObjects_eq_some.mp hrun
    refine ⟨_, _, _, _, _, hs.move (by simp [hpc]) rfl rfl rfl ?_ rfl ⟨hp, rfl⟩
      (by rw [hpc]; rfl) (by rw [hpc]; rfl)⟩
    exact hs.locked.move rfl (by rw [hpc]; exact ⟨hfree, rfl⟩) (by rw [hpc]; rfl)
  case enforcing context ticket result objects =>
    split at hrun <;> cases hrun
    rename_i q result' henforce
    obtain ⟨lin', ch', hs'⟩ := hs.enforce hmode haccepts hpc henforce
    exact ⟨_, _, _, _, _, hs'⟩
  case leavingObjects context result =>
    cases hrun
    have hlocked : Locked { m.goTo c (if m.channel.collectChannelStatistics then
        .lockingStatistics context result else .returning (.enforced result)) with
        objectsLock := none } :=
      hs.locked.move rfl (by rw [hpc]; split <;> rfl) (by rw [hpc]; split <;> rfl)
    by_cases hcollects : m.channel.collectChannelStatistics = true
    · rw [if_pos hcollects] at hlocked ⊢
      exact ⟨_, _, _, _, _, hs.move (by simp [hpc]) rfl rfl rfl hlocked rfl hp
        (by rw [hpc]; rfl) (by rw [hpc]; rfl)⟩
    · -- without statistics there is nothing to be counted
      rw [if_neg hcollects] at hlocked ⊢
      have hrecord : m.channel.recordStatistics opt context = .ok m.channel := by
        rw [ChannelDefault.recordStatistics, if_neg hcollects]
      obtain ⟨recorded', pending', hs'⟩ := hs.record { m.goTo c (.returning (.enforced result)) with
          objectsLock := none } (by simp [hpc]) hp.2 hrecord rfl rfl rfl hlocked rfl (.inl rfl)
        (fun _ => hp.1) (by rw [hpc]; rfl)
      exact ⟨_, _, _, _, _, hs'⟩
  case lockingStatistics context result =>
    obtain ⟨hfree, rfl⟩ := lockStatistics_eq_some.mp hrun
    refine ⟨_, _, _, _, _, hs.move (by simp [hpc]) rfl rfl rfl ?_ rfl ⟨hp.1, hp.2, rfl⟩
      (by rw [hpc]; rfl) (by rw [hpc]; rfl)⟩
    exact hs.locked.move rfl (by rw [hpc]; rfl) (by rw [hpc]; exact ⟨hfree, rfl⟩)
  case recording context result stats =>
    obtain ⟨hanswered, hmem, rfl⟩ := hp
    split at hrun <;> cases hrun
    rename_i channel hrecord
    obtain ⟨recorded', pending', hs'⟩ := hs.record { m.goTo c (.leavingStatistics result) with
        channel := channel } (by simp [hpc]) hmem hrecord rfl rfl rfl
      (hs.locked.move rfl (by rw [hpc]; rfl) (by rw [hpc]; rfl)) rfl (.inr (by rw [hpc]; rfl))
      (fun _ => hanswered) (by rw [hpc]; rfl)
    exact ⟨_, _, _, _, _, hs'⟩
  case leavingStatistics result =>
    cases hrun
    refine ⟨_, _, _, _, _, hs.move (by simp [hpc]) rfl rfl rfl ?_ rfl hp (by rw [hpc]; rfl)
      (by rw [hpc]; rfl)⟩
    exact hs.locked.move rfl (by rw [hpc]; rfl) (by rw [hpc]; rfl)
  case linking objectId config configurations =>
    cases hrun
    obtain ⟨hcall, hnew, hdrawn⟩ := hp
    have hlocked : Locked (m.goTo c (if m.channel.getEnforcementObjectDiffToken objectId = noToken
        then .returning (.configured .error)
        else .lockingConfigured (m.channel.getEnforcementObjectDiffToken objectId) config
          configurations)) :=
      hs.locked.move rfl (by rw [hpc]; split <;> rfl) (by rw [hpc]; split <;> rfl)
    by_cases hno : m.channel.getEnforcementObjectDiffToken objectId = noToken
    · rw [if_pos hno] at hlocked ⊢
      have hconfigure : m.channel.configureEnforcementObject objectId config configurations =
          .ok (m.channel, .error) := by
        rw [ChannelDefault.configureEnforcementObject, if_pos hno]
      obtain ⟨lin', ch', hs'⟩ := hs.settle (m.goTo c (.returning (.configured .error)))
        (by simp [hpc]) hcall hnew hdrawn hconfigure rfl rfl rfl hlocked rfl (.inl rfl)
        (fun _ _ hanswered => hanswered) (by rw [hpc]; rfl)
      exact ⟨_, _, _, _, _, hs'⟩
    · rw [if_neg hno] at hlocked ⊢
      exact ⟨_, _, _, _, _, hs.move (by simp [hpc]) rfl rfl rfl hlocked rfl
        ⟨objectId, hcall, hnew, hdrawn, htoken objectId, hno⟩ (by rw [hpc]; rfl) (by rw [hpc]; rfl)⟩
  case lockingConfigured token config configurations =>
    obtain ⟨hfree, rfl⟩ := lockObjects_eq_some.mp hrun
    refine ⟨_, _, _, _, _, hs.move (by simp [hpc]) rfl rfl rfl ?_ rfl ⟨hp, rfl⟩
      (by rw [hpc]; rfl) (by rw [hpc]; rfl)⟩
    exact hs.locked.move rfl (by rw [hpc]; exact ⟨hfree, rfl⟩) (by rw [hpc]; rfl)
  case configuring token config configurations objects =>
    obtain ⟨⟨objectId, hcall, hnew, hdrawn, rfl, hno⟩, rfl⟩ := hp
    split at hrun <;> cases hrun
    rename_i q status hq
    have hconfigure : m.channel.configureEnforcementObject objectId config configurations =
        .ok ({ m.channel with submissionQueue := q }, status) := by
      rw [ChannelDefault.configureEnforcementObject, htoken, if_neg hno]
      simp only [hq]
    obtain ⟨lin', ch', hs'⟩ := hs.settle { m.goTo c (.leavingConfigured status) with
        channel := { m.channel with submissionQueue := q } } (by simp [hpc]) hcall hnew hdrawn
      hconfigure rfl rfl rfl (hs.locked.move rfl (by rw [hpc]; rfl) (by rw [hpc]; rfl)) rfl
      (.inr (by rw [hpc]; rfl)) (fun _ _ hanswered => hanswered) (by rw [hpc]; rfl)
    exact ⟨_, _, _, _, _, hs'⟩
  case leavingConfigured status =>
    cases hrun
    refine ⟨_, _, _, _, _, hs.move (by simp [hpc]) rfl rfl rfl ?_ rfl hp (by rw [hpc]; rfl)
      (by rw [hpc]; rfl)⟩
    exact hs.locked.move rfl (by rw [hpc]; rfl) (by rw [hpc]; rfl)
  case returning reply =>
    cases hrun
    exact ⟨_, _, _, _, _, hs.ret hpc⟩

omit [DecidableEq C] in
theorem sound_start (ch₀ : ChannelDefault) :
    Sound opt hash ch₀ (start ch₀ : FastChannel C) [] [] [] [] [] ch₀ := by
  refine ⟨.start ch₀, locked_start ch₀, ?_, List.nodup_nil, ?_, ?_, ?_, ?_, fun _ => trivial, ?_,
    ?_⟩
  · simp [start]
  · simp
  · simp
  · exact fun c hc => absurd rfl hc
  · exact fun c _ hc => absurd rfl hc
  · simp
  · simp

/-- Every run keeps the books, as long as the statistics have entries for its requests. -/
theorem exists_sound {s : FastChannel C × List (Event Nat ChannelCall ChannelReply)}
    (hmode : ch₀.useFastPath = true)
    (hr : Relation.ReflTransGen (Next opt hash) (start ch₀, []) s)
    (haccepts : ∀ i context buffer size result,
      .call i (.enforce context buffer size result) ∈ s.2 → ch₀.Accepts opt context) :
    ∃ lin recorded pending draws ch,
      Sound opt hash ch₀ s.1 s.2 lin recorded pending draws ch := by
  induction hr with
  | refl => exact ⟨_, _, _, _, _, sound_start ch₀⟩
  | @tail s₁ s₂ _ hnext ih =>
    obtain ⟨a, hstep, hh⟩ := hnext
    rw [hh] at haccepts ⊢
    have haccepts' : ∀ i context buffer size result,
        .call i (.enforce context buffer size result) ∈ s₁.2 → ch₀.Accepts opt context :=
      fun i context buffer size result hmem =>
        haccepts i context buffer size result (List.mem_append_left _ hmem)
    obtain ⟨lin, recorded, pending, draws, ch, hsound⟩ := ih haccepts'
    cases a with
    | call c op => exact ⟨_, _, _, _, _, hsound.call hstep⟩
    | run c clock fuel => exact hsound.run hmode haccepts' hstep

/-! ## Every run is linearizable -/

/-- Nobody is in a call. -/
def Quiet (m : FastChannel C) : Prop := ∀ c, m.threads c = .idle

omit [DecidableEq C] in
theorem Sound.drawn_lt (hs : Sound opt hash ch₀ m h lin recorded pending draws ch) :
    draws.length ≤ m.made := by
  have hsub : draws ⊆ List.range m.made := by
    intro i hi
    rw [List.mem_range]
    rcases hs.holders i hi with hserved | ⟨c, rfl, hticket⟩
    · obtain ⟨e, he, rfl⟩ := List.mem_map.mp ((requestsOf_ids_sublist lin).subset hserved)
      exact hs.calls _ _ (hs.accounts.order.called e he)
    · exact hs.serials c (ne_idle_of_hasTicket hticket)
  simpa using (List.subperm_of_subset hs.nodup hsub).length_le

omit [DecidableEq C] in
/-- No two requests get the same identifier. -/
theorem Sound.ids_distinct (hs : Sound opt hash ch₀ m h lin recorded pending draws ch)
    (hmade : m.made ≤ 2 ^ 64) {e e' : Entry Nat ChannelCall ChannelReply} (he : e ∈ lin)
    (he' : e' ∈ lin) {r r' : Result} (hr : e.reply = .enforced r) (hr' : e'.reply = .enforced r')
    (hid : r.ticketId = r'.ticketId) : e = e' := by
  have hdrawn : ∀ {e : Entry Nat ChannelCall ChannelReply} {r : Result}, e ∈ lin →
      e.reply = .enforced r →
      ∃ k, draws[k]? = some e.id ∧ r.ticketId = ch₀.ticketId + UInt64.ofNat k := by
    intro e r he hr
    obtain ⟨s₁, s₂, hspec⟩ := hs.accounts.order.legal.entry he
    rw [hr] at hspec
    obtain ⟨context, buffer, size, result, hop⟩ := hspec.request_of_enforced
    obtain ⟨k, hk, hreply⟩ := hs.served e he context buffer size result hop
    rw [hr] at hreply
    cases hreply
    exact ⟨k, hk, ChannelDefault.resultFor_ticketId ..⟩
  obtain ⟨k, hk, hrk⟩ := hdrawn he hr
  obtain ⟨k', hk', hrk'⟩ := hdrawn he' hr'
  have hlt : k < 2 ^ 64 :=
    ((List.getElem?_eq_some_iff.mp hk).1.trans_le hs.drawn_lt).trans_le hmade
  have hlt' : k' < 2 ^ 64 :=
    ((List.getElem?_eq_some_iff.mp hk').1.trans_le hs.drawn_lt).trans_le hmade
  have hkk : k = k' := by
    rw [hrk, hrk', UInt64.add_right_inj] at hid
    have hnat := congrArg UInt64.toNat hid
    rwa [UInt64.toNat_ofNat', UInt64.toNat_ofNat', Nat.mod_eq_of_lt hlt,
      Nat.mod_eq_of_lt hlt'] at hnat
  subst hkk
  exact hs.accounts.order.entry_eq he he' (Option.some.inj (hk.symm.trans hk'))

omit [DecidableEq C] in
/-- When nobody is in a call, the identifiers that were drawn are those of the requests. -/
theorem Sound.drawn_of_quiet (hs : Sound opt hash ch₀ m h lin recorded pending draws ch)
    (hquiet : m.Quiet) : draws.length = (requestsOf lin).length := by
  have hperm : draws.Perm ((requestsOf lin).map Prod.fst) := by
    refine (List.perm_ext_iff_of_nodup hs.nodup
      (hs.accounts.order.nodup.sublist (requestsOf_ids_sublist lin))).mpr ?_
    intro i
    constructor
    · intro hi
      rcases hs.holders i hi with hserved | ⟨c, -, hticket⟩
      · exact hserved
      · exact absurd (hquiet c) (ne_idle_of_hasTicket hticket)
    · intro hi
      obtain ⟨p, hp, rfl⟩ := List.mem_map.mp hi
      obtain ⟨e, he, hop⟩ := List.mem_filterMap.mp hp
      cases hcall : e.op with
      | configure objectId config configurations => simp [hcall] at hop
      | enforce context buffer size result =>
        obtain ⟨k, hk, -⟩ := hs.served e he context buffer size result hcall
        simp only [hcall, Option.some.injEq] at hop
        rw [← hop]
        exact List.mem_of_getElem? hk
  rw [hperm.length_eq, List.length_map]

/-- Every run of calls on the fast path is linearizable: there is an order of the calls, in which
those that do not overlap stand as they were made, such that one call after the other gives the
replies that were given and the objects as they are; the identifiers are all different for up to
`2^64` calls; and when nobody is in a call, the channel is the one that the calls leave in this
order, statistics included. -/
theorem fastPath_linearizable (hmode : ch₀.useFastPath = true) (hr : Runs opt hash ch₀ m h)
    (haccepts : ∀ i context buffer size result,
      .call i (.enforce context buffer size result) ∈ h → ch₀.Accepts opt context) :
    ∃ lin ch, Linearization (ChannelDefault.Serves opt hash) ch₀ h lin ch ∧
      m.channel.submissionQueue = ch.submissionQueue ∧
      (m.made ≤ 2 ^ 64 → ∀ e ∈ lin, ∀ e' ∈ lin, ∀ r r', e.reply = .enforced r →
        e'.reply = .enforced r' → r.ticketId = r'.ticketId → e = e') ∧
      (m.Quiet → m.channel =
        { ch with ticketId := ch₀.ticketId + UInt64.ofNat (requestsOf lin).length }) := by
  obtain ⟨lin, recorded, pending, draws, ch, hs⟩ := exists_sound hmode hr haccepts
  refine ⟨lin, ch, hs.accounts.order, hs.accounts.objects_eq, ?_, ?_⟩
  · intro hmade e he e' he' r r' hreply hreply' hid
    exact hs.ids_distinct hmade he he' hreply hreply' hid
  · intro hquiet
    have hnone : pending = [] := by
      refine List.eq_nil_iff_forall_not_mem.mpr ?_
      intro p hp
      obtain ⟨c, -, hc⟩ := hs.counting p hp
      exact ne_idle_of_uncounted hc (hquiet c)
    subst hnone
    rw [← hs.drawn_of_quiet hquiet, ← hs.counter]
    exact hs.accounts.settled

/-- The steps of a list of actions, with what the threads see of them. -/
def exec (opt : Options) (hash : String → UInt32)
    (s : FastChannel C × List (Event Nat ChannelCall ChannelReply)) :
    List (FastAction C) → Option (FastChannel C × List (Event Nat ChannelCall ChannelReply))
  | [] => some s
  | a :: rest =>
    match s.1.step opt hash a with
    | none => none
    | some m' => exec opt hash (m', s.2 ++ s.1.observe a) rest

theorem reaches_of_exec {s s' : FastChannel C × List (Event Nat ChannelCall ChannelReply)}
    {actions : List (FastAction C)} (hexec : exec opt hash s actions = some s') :
    Relation.ReflTransGen (Next opt hash) s s' := by
  induction actions generalizing s with
  | nil =>
    cases hexec
    exact .refl
  | cons a rest ih =>
    simp only [exec] at hexec
    cases hstep : s.1.step opt hash a with
    | none => simp [hstep] at hexec
    | some m' =>
      simp only [hstep] at hexec
      exact .head ⟨a, hstep, rfl⟩ (ih hexec)

/-- The calls of a run are those of its actions. -/
theorem call_mem_of_exec {s s' : FastChannel C × List (Event Nat ChannelCall ChannelReply)}
    {actions : List (FastAction C)} (hexec : exec opt hash s actions = some s') {i : Nat}
    {op : ChannelCall} (hmem : .call i op ∈ s'.2) :
    .call i op ∈ s.2 ∨ ∃ c, .call c op ∈ actions := by
  induction actions generalizing s with
  | nil =>
    cases hexec
    exact .inl hmem
  | cons a rest ih =>
    simp only [exec] at hexec
    split at hexec
    · cases hexec
    · rcases ih hexec with hold | ⟨c, hc⟩
      · rcases List.mem_append.mp hold with hold | hnew
        · exact .inl hold
        · cases a with
          | call c op' =>
            cases List.mem_singleton.mp hnew
            exact .inr ⟨c, List.mem_cons_self⟩
          | run c clock fuel =>
            simp only [observe] at hnew
            split at hnew <;> simp at hnew
      · exact .inr ⟨c, List.mem_cons_of_mem _ hc⟩

/-- Two requests overlap: `true` draws the first identifier, `false` is served first. -/
def overlapping : List (FastAction Bool) :=
  [.call true (.enforce {} none 0 {}), .call false (.enforce {} none 0 {}),
    .run true (fun _ => 0) 0, .run false (fun _ => 0) 0] ++
  List.replicate 7 (.run false (fun _ => 0) 0) ++ List.replicate 7 (.run true (fun _ => 0) 0)

theorem fastPath_linearizable_overlapping :
    let ch₀ := ChannelDefault.new {} 1 fun _ => 0
    ∃ (m : FastChannel Bool) (h : List (Event Nat ChannelCall ChannelReply)), m.Quiet ∧ m.made = 2 ∧
      ∃ lin ch, Linearization (ChannelDefault.Serves {} fun _ => 0) ch₀ h lin ch ∧
        m.channel.submissionQueue = ch.submissionQueue ∧
        (m.made ≤ 2 ^ 64 → ∀ e ∈ lin, ∀ e' ∈ lin, ∀ r r', e.reply = .enforced r →
          e'.reply = .enforced r' → r.ticketId = r'.ticketId → e = e') ∧
        (m.Quiet → m.channel =
          { ch with ticketId := ch₀.ticketId + UInt64.ofNat (requestsOf lin).length }) := by
  intro ch₀
  obtain ⟨s, hexec, hquiet, hmade⟩ : ∃ s : FastChannel Bool × List _,
      exec {} (fun _ => 0) (start ch₀, []) overlapping = some s ∧ s.1.Quiet ∧ s.1.made = 2 := by
    refine ⟨_, rfl, ?_, rfl⟩
    intro c
    cases c <;> rfl
  refine ⟨s.1, s.2, hquiet, hmade,
    fastPath_linearizable rfl (reaches_of_exec hexec) fun i context buffer size result hmem => ?_⟩
  obtain rfl : context = {} := by
    rcases call_mem_of_exec hexec hmem with hnone | ⟨c, hc⟩
    · cases hnone
    · simp [overlapping] at hc
      rcases hc with ⟨-, hc, -⟩ | ⟨-, hc, -⟩ <;> exact hc
  exact ⟨_, rfl⟩

end FastChannel

end Paio
