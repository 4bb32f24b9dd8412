import Paio.ChannelCalls
import Paio.Delivery

/-!
# Paio.QueueHistory

What callers of a channel in queue mode see: the calls they make and the Results these return
with. A request takes effect when a worker enforces its ticket, between its call and its return,
so every run of at most `2^64` calls is linearizable (`queue_linearizable`), and the order is the
one in which the tickets were submitted. It is the specification that the fast path meets too.
-/

namespace Paio

open Linearizability ServiceLine

namespace Machine

variable {C W : Type}

/-- What the callers see of a step. -/
def observe (m : Machine C W) : Action C W → List (Event Nat ChannelCall ChannelReply)
  | .request _ context buffer size result =>
    [.call m.history.made (.enforce context buffer size result)]
  | .caller c =>
    match (m.callers c).pc with
    | .recording => [.ret (m.callers c).serial (.enforced (m.callers c).result)]
    | _ => []
  | _ => []

section

variable [DecidableEq C] [DecidableEq W] (opt : Options) (hash : String → UInt32)

def HistoryNext (s s' : Machine C W × List (Event Nat ChannelCall ChannelReply)) : Prop :=
  ∃ a, s.1.step opt hash a = some s'.1 ∧ s'.2 = s.2 ++ s.1.observe a

/-- The machine and its history after some steps from a channel with nobody in it. -/
abbrev Runs (channel : ChannelDefault) (m : Machine C W)
    (h : List (Event Nat ChannelCall ChannelReply)) : Prop :=
  Relation.ReflTransGen (HistoryNext opt hash) (start channel, []) (m, h)

end

variable {opt : Options} {hash : String → UInt32} {m m' : Machine C W}

/-! ## What a step does to the channel -/

/-- A step that is no new call leaves the channel alone, enforces a ticket, or ends a call. -/
inductive Effect (opt : Options) (hash : String → UInt32) (m m' : Machine C W) (a : Action C W) :
    Prop
  | none (hidle : ∀ c, (m'.callers c).pc = .idle → (m.callers c).pc = .idle)
      (hchannel : m'.channel = m.channel) (hserved : m'.history.served = m.history.served)
      (hseen : m.observe a = [])
  | serve {w : W} {ref : Ref C} {ticket : Ticket} {result result' : Result} {q : SubmissionQueue}
      (clock : Clock) (fuel : Nat) (hw : m.workers w = .enforcing ref result)
      (hderef : m.deref ref = some ticket)
      (henforce : m.channel.submissionQueue.enforceMechanism hash clock fuel ticket result =
        .ok (q, result'))
      (hidle : ∀ c, (m'.callers c).pc = .idle → (m.callers c).pc = .idle)
      (hchannel : m'.channel = { m.channel with submissionQueue := q })
      (hserved : m'.history.served = m.history.served ++ [ref]) (hseen : m.observe a = [])
  | record {c : C} {channel : ChannelDefault} (hpc : (m.callers c).pc = .recording)
      (hrecord : m.channel.recordStatistics opt (m.callers c).context = .ok channel)
      (hself : (m'.callers c).pc = .idle)
      (hidle : ∀ c', c' ≠ c → (m'.callers c').pc = .idle → (m.callers c').pc = .idle)
      (hchannel : m'.channel = channel) (hserved : m'.history.served = m.history.served)
      (hseen : m.observe a =
        [.ret (m.callers c).serial (.enforced (m.callers c).result)])

section Callers

variable [DecidableEq C]

/-- A caller that moves on inside its call. -/
theorem idle_of_setCaller {c : C} {x : Caller} (hcallers : m'.callers = Function.update m.callers c x)
    (hx : x.pc ≠ .idle) (c' : C) (hidle : (m'.callers c').pc = .idle) :
    (m.callers c').pc = .idle := by
  by_cases hcc : c' = c
  · rw [hcc, hcallers, Function.update_self] at hidle
    exact absurd hidle hx
  · rwa [hcallers, Function.update_of_ne hcc] at hidle

theorem context_setCaller {c : C} {x : Caller} (hcallers : m'.callers = Function.update m.callers c x)
    (hx : x.context = (m.callers c).context) (c' : C) :
    (m'.callers c').context = (m.callers c').context := by
  by_cases hcc : c' = c
  · rw [hcc, hcallers, Function.update_self, hx]
  · rw [hcallers, Function.update_of_ne hcc]

theorem callerStep_effect {c : C} (hs : m.callerStep opt c = some m') :
    Effect opt hash m m' (.caller c) ∧
      ∀ c', (m'.callers c').context = (m.callers c').context := by
  cases hpc : (m.callers c).pc <;> simp only [callerStep, hpc] at hs
  case idle | waiting => cases hs
  case submitting =>
    obtain ⟨-, rfl⟩ := lockQueue_eq_some.mp hs
    exact ⟨.none (idle_of_setCaller rfl (by simp)) rfl rfl (by simp [observe, hpc]),
      context_setCaller rfl rfl⟩
  case collecting | relocking =>
    obtain ⟨-, rfl⟩ := lockCompletion_eq_some.mp hs
    exact ⟨.none (idle_of_setCaller rfl (by simp)) rfl rfl (by simp [observe, hpc]),
      context_setCaller rfl rfl⟩
  case emplacing | testingSize =>
    cases hs
    refine ⟨.none (idle_of_setCaller rfl ?_) rfl rfl (by simp [observe, hpc]),
      context_setCaller rfl rfl⟩
    split <;> simp
  case notifyingWorkers | leavingSubmission | startingWait | leavingCompletion =>
    cases hs
    exact ⟨.none (idle_of_setCaller rfl (by simp)) rfl rfl (by simp [observe, hpc]),
      context_setCaller rfl rfl⟩
  case peeking =>
    split at hs
    · cases hs
    · split at hs <;> cases hs
      · exact ⟨.none (idle_of_setCaller rfl (by simp)) rfl rfl (by simp [observe, hpc]),
          context_setCaller rfl rfl⟩
      · exact ⟨.none (idle_of_setCaller rfl (by simp)) rfl rfl (by simp [observe, hpc]),
          context_setCaller rfl rfl⟩
  case recording =>
    split at hs <;> cases hs
    rename_i channel hrecord
    refine ⟨.record hpc hrecord ?_ ?_ rfl rfl (by simp [observe, hpc]), context_setCaller rfl rfl⟩
    · simp [moveCaller, setCaller]
    · intro c' hcc hidle
      simpa [moveCaller, setCaller, hcc] using hidle

end Callers

section Workers

variable [DecidableEq W]

theorem workerStep_effect {clock : Clock} {fuel : Nat} {w : W}
    (hs : workerStep hash clock fuel m w = some m') :
    Effect opt hash m m' (.worker w clock fuel) ∧
      ∀ c, (m'.callers c).context = (m.callers c).context := by
  cases hpc : m.workers w <;> simp only [workerStep, hpc] at hs
  case waiting | stopped => cases hs
  case entering | relocking =>
    obtain ⟨-, rfl⟩ := lockQueue_eq_some.mp hs
    exact ⟨.none (fun _ hidle => hidle) rfl rfl rfl, fun _ => rfl⟩
  case completing =>
    obtain ⟨-, rfl⟩ := lockCompletion_eq_some.mp hs
    exact ⟨.none (fun _ hidle => hidle) rfl rfl rfl, fun _ => rfl⟩
  case testingSize =>
    split at hs
    · cases hs
      exact ⟨.none (fun _ hidle => hidle) rfl rfl rfl, fun _ => rfl⟩
    · split at hs
      · cases hs
      · split at hs <;> cases hs
        exact ⟨.none (fun _ hidle => hidle) rfl rfl rfl, fun _ => rfl⟩
  case lockingObjects =>
    split at hs <;> cases hs
    exact ⟨.none (fun _ hidle => hidle) rfl rfl rfl, fun _ => rfl⟩
  case enforcing ref result =>
    cases hderef : m.deref ref with
    | none => simp [hderef] at hs
    | some ticket =>
      simp only [hderef] at hs
      split at hs <;> cases hs
      rename_i q result' henforce
      exact ⟨.serve clock fuel hpc hderef henforce (fun _ hidle => hidle) rfl rfl rfl,
        fun _ => rfl⟩
  case notifyingCallers =>
    cases hs
    refine ⟨.none ?_ rfl rfl rfl, ?_⟩
    · intro c hidle
      rcases (m.callers c).notify_cases with hn | ⟨-, hn⟩
      · simpa [notifyCallers, moveWorker, hn] using hidle
      · simp [notifyCallers, moveWorker, hn] at hidle
    · intro c
      rcases (m.callers c).notify_cases with hn | ⟨-, hn⟩ <;>
        simp [notifyCallers, moveWorker, hn]
  case looping | checkingTimeout | startingWait | leavingObjects | pushing | leavingCompletion |
      leavingSubmission =>
    cases hs
    exact ⟨.none (fun _ hidle => hidle) rfl rfl rfl, fun _ => rfl⟩

end Workers

/-! ## The books of a run -/

structure Booked (opt : Options) (hash : String → UInt32) (ch₀ : ChannelDefault) (m : Machine C W)
    (h : List (Event Nat ChannelCall ChannelReply))
    (lin : List (Entry Nat ChannelCall ChannelReply)) (recorded pending : List (Nat × Context))
    (ch : ChannelDefault) : Prop where
  accounts : Accounts opt hash ch₀ m.channel h lin recorded pending ch
  calls : ∀ i op, .call i op ∈ h → i < m.history.made
  tickets : ∀ c, (m.callers c).pc ≠ .idle → ∃ buffer size result,
    .call (m.callers c).serial (.enforce (m.callers c).context buffer size result) ∈ h ∧
      (m.callers c).ticket = ch₀.ticketFor (ch₀.ticketId + UInt64.ofNat (m.callers c).serial)
        (m.callers c).context buffer size
  served : lin.map Entry.id = m.history.served.map Ref.serial
  owners : ∀ ref ∈ m.history.served, ∀ c, (m.callers c).pc ≠ .idle →
    (m.callers c).serial = ref.serial → ref.caller = c
  replies : ∀ e ∈ lin, ∀ c, (m.callers c).pc ≠ .idle → (m.callers c).serial = e.id →
    e.reply = .enforced (m.callers c).ticket.freshResult ∧
      (e.id, (m.callers c).context) ∈ requestsOf lin
  ids : ∀ e ∈ lin, ∃ r, e.reply = .enforced r ∧ r.ticketId = ch₀.ticketId + UInt64.ofNat e.id
  made : ∀ i < m.history.made, i ∈ lin.map Entry.id ∨
    ∃ c, (m.callers c).pc ≠ .idle ∧ (m.callers c).serial = i
  done : ∀ p ∈ recorded, ∀ c, (m.callers c).pc ≠ .idle → (m.callers c).serial ≠ p.1
  counting : ∀ p ∈ pending, ∃ c, (m.callers c).pc ≠ .idle ∧ (m.callers c).serial = p.1

variable {ch₀ ch : ChannelDefault} {h : List (Event Nat ChannelCall ChannelReply)}
  {lin : List (Entry Nat ChannelCall ChannelReply)} {recorded pending : List (Nat × Context)}

/-- Calls in progress have different numbers. -/
theorem Sound.serial_inj (hm : m.Sound) (hn : Numbered ch₀.ticketId m) {c c' : C}
    (hc : (m.callers c).pc ≠ .idle) (hc' : (m.callers c').pc ≠ .idle)
    (hserial : (m.callers c).serial = (m.callers c').serial) : c = c' := by
  refine hm.correct.matched.keys c c' ?_ ?_ ?_
  · exact fun hidle => hc (CallerPc.phase_eq_idle_iff.mp hidle)
  · exact fun hidle => hc' (CallerPc.phase_eq_idle_iff.mp hidle)
  · simp only [line, Caller.call]
    rw [(hn.calls c hc).2, (hn.calls c' hc').2, hserial]

/-- A step that changes nothing in the channel. -/
theorem Booked.keep (hb : Booked opt hash ch₀ m h lin recorded pending ch) (hk : Kept m m')
    (hcontext : ∀ c, (m'.callers c).context = (m.callers c).context)
    (hidle : ∀ c, (m'.callers c).pc = .idle → (m.callers c).pc = .idle)
    (hchannel : m'.channel = m.channel) (hserved : m'.history.served = m.history.served) :
    Booked opt hash ch₀ m' h lin recorded pending ch := by
  have hbusy : ∀ c, (m'.callers c).pc ≠ .idle → (m.callers c).pc ≠ .idle :=
    fun c hc hc' => hc (hk.idle c hc')
  refine ⟨?_, ?_, ?_, ?_, ?_, ?_, hb.ids, ?_, ?_, ?_⟩
  · rw [hchannel]
    exact hb.accounts
  · rw [hk.made]
    exact hb.calls
  · intro c hc
    rw [hk.serial, hk.ticket, hcontext]
    exact hb.tickets c (hbusy c hc)
  · rw [hserved]
    exact hb.served
  · intro ref href c hc
    rw [hserved] at href
    rw [hk.serial]
    exact hb.owners ref href c (hbusy c hc)
  · intro e he c hc
    rw [hk.serial, hk.ticket, hcontext]
    exact hb.replies e he c (hbusy c hc)
  · intro i hi
    rw [hk.made] at hi
    rcases hb.made i hi with hin | ⟨c, hc, hserial⟩
    · exact .inl hin
    · exact .inr ⟨c, fun hc' => hc (hidle c hc'), by rw [hk.serial, hserial]⟩
  · intro p hp c hc
    rw [hk.serial]
    exact hb.done p hp c (hbusy c hc)
  · intro p hp
    obtain ⟨c, hc, hserial⟩ := hb.counting p hp
    exact ⟨c, fun hc' => hc (hidle c hc'), by rw [hk.serial, hserial]⟩

/-- A worker enforces the ticket of a call. -/
theorem Booked.serve (hb : Booked opt hash ch₀ m h lin recorded pending ch) (hm : m.Sound)
    (hm' : m'.Sound) (hn : Numbered ch₀.ticketId m) (hmode : ch₀.useFastPath = false)
    (haccepts : ∀ i context buffer size result,
      .call i (.enforce context buffer size result) ∈ h → ch₀.Accepts opt context)
    (hk : Kept m m') (hcontext : ∀ c, (m'.callers c).context = (m.callers c).context)
    (hidle : ∀ c, (m'.callers c).pc = .idle → (m.callers c).pc = .idle) {ref : Ref C}
    {ticket : Ticket} {result result' : Result} {q : SubmissionQueue} {clock : Clock} {fuel : Nat}
    (hderef : m.deref ref = some ticket)
    (henforce : m.channel.submissionQueue.enforceMechanism hash clock fuel ticket result =
      .ok (q, result'))
    (hchannel : m'.channel = { m.channel with submissionQueue := q })
    (hserved : m'.history.served = m.history.served ++ [ref]) :
    ∃ lin' pending' ch', Booked opt hash ch₀ m' h lin' recorded pending' ch' := by
  obtain ⟨hserial, hc, rfl⟩ : (m.callers ref.caller).serial = ref.serial ∧
      (m.callers ref.caller).pc ≠ .idle ∧ (m.callers ref.caller).ticket = ticket := by
    simpa [deref, and_assoc] using hderef
  have hbusy : ∀ c, (m'.callers c).pc ≠ .idle → (m.callers c).pc ≠ .idle :=
    fun c hc hc' => hc (hk.idle c hc')
  obtain ⟨buffer, size, result₀, hcall, hticket⟩ := hb.tickets ref.caller hc
  have hnew : (m.callers ref.caller).serial ∉ lin.map Entry.id := by
    intro hmem
    rw [hb.served, hserial] at hmem
    obtain ⟨ref', href', heq⟩ := List.mem_map.mp hmem
    have hcaller := hb.owners ref' href' ref.caller hc (hserial.trans heq.symm)
    have hsame : ref' = ref := by
      cases ref
      cases ref'
      simp_all
    have hnodup : m'.history.served.Nodup :=
      hm'.correct.ordered.nodup.sublist hm'.correct.ordered.served_prefix.sublist
    rw [hserved, List.nodup_append'] at hnodup
    exact hnodup.2.2 (hsame ▸ href') List.mem_cons_self
  rw [hticket] at henforce
  obtain ⟨ch', ha⟩ := hb.accounts.enforce hcall hnew (haccepts _ _ _ _ _ hcall) henforce
  have hreply : ch₀.resultFor (ch₀.ticketId + UInt64.ofNat (m.callers ref.caller).serial)
      (m.callers ref.caller).context buffer size result₀ =
        (m.callers ref.caller).ticket.freshResult := by
    simp only [ChannelDefault.resultFor, hmode, Bool.false_eq_true, if_false]
    rw [← hticket]
  have hsub : ∀ p ∈ requestsOf lin, p ∈ requestsOf (lin ++
      [⟨(m.callers ref.caller).serial, .enforce (m.callers ref.caller).context buffer size result₀,
        .enforced (ch₀.resultFor (ch₀.ticketId + UInt64.ofNat (m.callers ref.caller).serial)
          (m.callers ref.caller).context buffer size result₀)⟩]) := by
    intro p hp
    rw [requestsOf, List.filterMap_append]
    exact List.mem_append_left _ hp
  refine ⟨_, _, ch', ⟨hchannel ▸ ha, ?_, ?_, ?_, ?_, ?_, ?_, ?_, ?_, ?_⟩⟩
  · rw [hk.made]
    exact hb.calls
  · intro c hc'
    rw [hk.serial, hk.ticket, hcontext]
    exact hb.tickets c (hbusy c hc')
  · rw [List.map_append, hb.served, hserved, List.map_append]
    simp [hserial]
  · intro ref' href' c hc' heq
    rw [hk.serial] at heq
    rw [hserved] at href'
    rcases List.mem_append.mp href' with href' | href'
    · exact hb.owners ref' href' c (hbusy c hc') heq
    · rw [List.mem_singleton.mp href'] at heq ⊢
      exact hm.serial_inj hn hc (hbusy c hc') (hserial.trans heq.symm)
  · intro e he c hc' heq
    rw [hk.serial] at heq
    rw [hk.ticket, hcontext]
    rcases List.mem_append.mp he with he | he
    · obtain ⟨hr, hreq⟩ := hb.replies e he c (hbusy c hc') heq
      exact ⟨hr, hsub _ hreq⟩
    · rw [List.mem_singleton.mp he] at heq ⊢
      obtain rfl := hm.serial_inj hn (hbusy c hc') hc heq
      refine ⟨by rw [hreply], ?_⟩
      simp [requestsOf]
  · intro e he
    rcases List.mem_append.mp he with he | he
    · exact hb.ids e he
    · rw [List.mem_singleton.mp he]
      exact ⟨_, rfl, ChannelDefault.resultFor_ticketId ..⟩
  · intro i hi
    rw [hk.made] at hi
    rcases hb.made i hi with hin | ⟨c, hc', heq⟩
    · exact .inl (by rw [List.map_append]; exact List.mem_append_left _ hin)
    · exact .inr ⟨c, fun hc₁ => hc' (hidle c hc₁), by rw [hk.serial, heq]⟩
  · intro p hp c hc'
    rw [hk.serial]
    exact hb.done p hp c (hbusy c hc')
  · intro p hp
    rcases List.mem_append.mp hp with hp | hp
    · obtain ⟨c, hc', heq⟩ := hb.counting p hp
      exact ⟨c, fun hc₁ => hc' (hidle c hc₁), by rw [hk.serial, heq]⟩
    · rw [List.mem_singleton.mp hp]
      exact ⟨ref.caller, fun hc₁ => hc (hidle _ hc₁), by rw [hk.serial]⟩

/-- A call is counted and returns. -/
theorem Booked.record (hb : Booked opt hash ch₀ m h lin recorded pending ch) (hm : m.Sound)
    (hn : Numbered ch₀.ticketId m) (hk : Kept m m')
    (hcontext : ∀ c, (m'.callers c).context = (m.callers c).context) {c : C}
    {channel : ChannelDefault} (hpc : (m.callers c).pc = .recording)
    (hrecord : m.channel.recordStatistics opt (m.callers c).context = .ok channel)
    (hself : (m'.callers c).pc = .idle)
    (hidle : ∀ c', c' ≠ c → (m'.callers c').pc = .idle → (m.callers c').pc = .idle)
    (hchannel : m'.channel = channel) (hserved : m'.history.served = m.history.served) :
    ∃ recorded' pending', Booked opt hash ch₀ m'
      (h ++ [.ret (m.callers c).serial (.enforced (m.callers c).result)]) lin recorded' pending'
      ch := by
  have hc : (m.callers c).pc ≠ .idle := by simp [hpc]
  have hbusy : ∀ c', (m'.callers c').pc ≠ .idle → c' ≠ c ∧ (m.callers c').pc ≠ .idle := by
    intro c' hc'
    refine ⟨?_, fun hc'' => hc' (hk.idle c' hc'')⟩
    rintro rfl
    exact hc' hself
  -- the ticket of the call has been served, so the call is in the order
  obtain ⟨hresult, hhanded⟩ := hm.correct.answered.received c (by
    simp only [line, Caller.call, hpc]
    rfl)
  have hserial : (m.callers c).serial ∈ lin.map Entry.id := by
    rw [hb.served]
    refine List.mem_map.mpr ⟨m.line.ref c, ?_, rfl⟩
    have hmem : m.line.ref c ∈ m.line.history.served := by
      rw [hm.correct.ordered.served]
      refine List.mem_append_left _ (List.mem_append_left _ ?_)
      exact List.mem_map.mpr ⟨_, hhanded, rfl⟩
    exact hmem
  obtain ⟨e, he, hid⟩ := List.mem_map.mp hserial
  obtain ⟨hreply, hrequest⟩ := hb.replies e he c hc hid.symm
  have hmem : ((m.callers c).serial, (m.callers c).context) ∈ pending := by
    rw [hid] at hrequest
    rcases List.mem_append.mp (hb.accounts.booked.subset hrequest) with hdone | hpending
    · exact absurd rfl (hb.done _ hdone c hc)
    · exact hpending
  obtain ⟨pending₁, pending₂, rfl⟩ := List.append_of_mem hmem
  have hrest : ∀ p ∈ pending₁ ++ pending₂, p.1 ≠ (m.callers c).serial := by
    intro p hp heq
    have hnodup := hb.accounts.nodup_pending
    rw [List.map_append, List.map_cons, List.nodup_middle, ← List.map_append,
      List.nodup_cons] at hnodup
    exact hnodup.1 (List.mem_map.mpr ⟨p, hp, heq⟩)
  have hanswer : e.reply = .enforced (m.callers c).result := by
    rw [hreply]
    exact congrArg ChannelReply.enforced hresult.symm
  refine ⟨_, _, ⟨hchannel ▸ (hb.accounts.record hrecord).ret ⟨e, he, hid, hanswer⟩, ?_, ?_, ?_, ?_,
    ?_, hb.ids, ?_, ?_, ?_⟩⟩
  · rw [hk.made]
    intro i op hcall
    exact hb.calls i op (by simpa using hcall)
  · intro c' hc'
    rw [hk.serial, hk.ticket, hcontext]
    obtain ⟨buffer, size, result, hcall, hticket⟩ := hb.tickets c' (hbusy c' hc').2
    exact ⟨buffer, size, result, List.mem_append_left _ hcall, hticket⟩
  · rw [hserved]
    exact hb.served
  · intro ref href c' hc' heq
    rw [hserved] at href
    rw [hk.serial] at heq
    exact hb.owners ref href c' (hbusy c' hc').2 heq
  · intro e' he' c' hc' heq
    rw [hk.serial] at heq
    rw [hk.ticket, hcontext]
    exact hb.replies e' he' c' (hbusy c' hc').2 heq
  · intro i hi
    rw [hk.made] at hi
    rcases hb.made i hi with hin | ⟨c', hc', heq⟩
    · exact .inl hin
    · by_cases hcc : c' = c
      · subst hcc
        exact .inl (heq ▸ hserial)
      · exact .inr ⟨c', fun hc'' => hc' (hidle c' hcc hc''), by rw [hk.serial, heq]⟩
  · intro p hp c' hc'
    obtain ⟨hcc, hc''⟩ := hbusy c' hc'
    rw [hk.serial]
    rcases List.mem_append.mp hp with hp | hp
    · exact hb.done p hp c' hc''
    · rw [List.mem_singleton.mp hp]
      exact fun heq => hcc (hm.serial_inj hn hc'' hc heq)
  · intro p hp
    have hp' : p ∈ pending₁ ++ ((m.callers c).serial, (m.callers c).context) :: pending₂ := by
      rcases List.mem_append.mp hp with hp | hp
      · exact List.mem_append_left _ hp
      · exact List.mem_append_right _ (List.mem_cons_of_mem _ hp)
    obtain ⟨c', hc', heq⟩ := hb.counting p hp'
    have hcc : c' ≠ c := by
      rintro rfl
      exact hrest p hp heq.symm
    exact ⟨c', fun hc'' => hc' (hidle c' hcc hc''), by rw [hk.serial, heq]⟩

variable [DecidableEq C]

/-- A new call. -/
theorem Booked.request (hb : Booked opt hash ch₀ m h lin recorded pending ch)
    (hn : Numbered ch₀.ticketId m) {c : C} (hidle : (m.callers c).pc = .idle) (context : Context)
    (buffer : Buffer) (size : Nat) (result : Result) :
    Booked opt hash ch₀ (m.called c context buffer size result)
      (h ++ [.call m.history.made (.enforce context buffer size result)]) lin recorded pending
      ch := by
  have hnew : ∀ op, .call m.history.made op ∉ h := fun op hmem => (hb.calls _ _ hmem).ne rfl
  have hother : ∀ c', c' ≠ c → (m.called c context buffer size result).callers c' = m.callers c' :=
    fun c' hcc => called_callers_of_ne m hcc ..
  have hlt : ∀ e ∈ lin, e.id < m.history.made :=
    fun e he => hb.calls _ _ (hb.accounts.order.called e he)
  refine ⟨?_, ?_, ?_, hb.served, ?_, ?_, hb.ids, ?_, ?_, ?_⟩
  · exact (hb.accounts.draw _).call _ hnew
  · intro i op hmem
    rcases List.mem_append.mp hmem with hmem | hmem
    · exact Nat.lt_succ_of_lt (hb.calls i op hmem)
    · cases List.mem_singleton.mp hmem
      exact Nat.lt_succ_self _
  · intro c' hbusy
    by_cases hcc : c' = c
    · subst hcc
      rw [called_callers_self]
      refine ⟨buffer, size, result, by simp, ?_⟩
      rw [← hn.next]
      exact ch₀.ticketFor_congr m.channel m.channel.ticketId context buffer size
    · rw [hother c' hcc] at hbusy ⊢
      obtain ⟨buffer', size', result', hmem, hticket⟩ := hb.tickets c' hbusy
      exact ⟨buffer', size', result', List.mem_append_left _ hmem, hticket⟩
  · intro ref href c' hbusy hserial
    by_cases hcc : c' = c
    · subst hcc
      rw [called_callers_self] at hserial
      have hmem : ref.serial ∈ lin.map Entry.id := by
        rw [hb.served]
        exact List.mem_map_of_mem href
      obtain ⟨e, he, hid⟩ := List.mem_map.mp hmem
      have hcontra := hlt e he
      rw [hid, ← hserial] at hcontra
      exact absurd hcontra (Nat.lt_irrefl _)
    · rw [hother c' hcc] at hbusy hserial
      exact hb.owners ref href c' hbusy hserial
  · intro e he c' hbusy hserial
    by_cases hcc : c' = c
    · subst hcc
      rw [called_callers_self] at hserial
      exact absurd hserial (hlt e he).ne'
    · rw [hother c' hcc] at hbusy hserial ⊢
      exact hb.replies e he c' hbusy hserial
  · intro i hi
    rcases Nat.lt_succ_iff_lt_or_eq.mp hi with hi | rfl
    · rcases hb.made i hi with hserved | ⟨c', hbusy, hserial⟩
      · exact .inl hserved
      · have hcc : c' ≠ c := by
          rintro rfl
          exact hbusy hidle
        exact .inr ⟨c', by rwa [hother c' hcc], by rw [hother c' hcc, hserial]⟩
    · exact .inr ⟨c, by simp, by simp⟩
  · intro p hp c' hbusy
    by_cases hcc : c' = c
    · subst hcc
      rw [called_callers_self]
      have hmem : p ∈ requestsOf lin :=
        hb.accounts.booked.symm.subset (List.mem_append_left _ hp)
      obtain ⟨e, he, hid⟩ := List.mem_map.mp
        ((requestsOf_ids_sublist lin).subset (List.mem_map_of_mem hmem))
      rw [← hid]
      exact (hlt e he).ne'
    · rw [hother c' hcc] at hbusy ⊢
      exact hb.done p hp c' hbusy
  · intro p hp
    obtain ⟨c', hbusy, hserial⟩ := hb.counting p hp
    have hcc : c' ≠ c := by
      rintro rfl
      exact hbusy hidle
    exact ⟨c', by rwa [hother c' hcc], by rw [hother c' hcc, hserial]⟩

variable [DecidableEq W]

/-- Every step is a new call or has one of the effects. -/
theorem step_effect {a : Action C W} (hs : m.step opt hash a = some m') :
    (∃ c context buffer size result, a = .request c context buffer size result ∧
      (m.callers c).pc = .idle ∧ m' = m.called c context buffer size result) ∨
    Kept m m' ∧ Effect opt hash m m' a ∧
      ∀ c, (m'.callers c).context = (m.callers c).context := by
  rcases step_cases hs with hcall | hkept
  · exact .inl hcall
  · refine .inr ⟨hkept, ?_⟩
    cases a with
    | request c context buffer size result =>
      obtain ⟨-, rfl⟩ := request_cases hs
      exact absurd hkept.made (by simp [called])
    | caller c => exact callerStep_effect hs
    | wakeCaller c =>
      simp only [step] at hs
      split at hs <;> cases hs
      exact ⟨.none (idle_of_setCaller rfl (by simp)) rfl rfl rfl, context_setCaller rfl rfl⟩
    | worker w clock fuel => exact workerStep_effect hs
    | wakeWorker w timedOut =>
      simp only [step] at hs
      split at hs <;> cases hs
      exact ⟨.none (fun _ hidle => hidle) rfl rfl rfl, fun _ => rfl⟩
    | stopWorker =>
      cases hs
      exact ⟨.none (fun _ hidle => hidle) rfl rfl rfl, fun _ => rfl⟩

/-! ## Every run is linearizable -/

omit [DecidableEq C] [DecidableEq W] in
theorem Numbered.start (ch₀ : ChannelDefault) :
    Numbered ch₀.ticketId (start ch₀ : Machine C W) := by
  refine ⟨?_, fun c hc => absurd rfl hc⟩
  simp [Machine.start]

omit [DecidableEq C] [DecidableEq W] in
theorem booked_start (ch₀ : ChannelDefault) :
    Booked opt hash ch₀ (start ch₀ : Machine C W) [] [] [] [] ch₀ := by
  refine ⟨.start ch₀, ?_, fun c hc => absurd rfl hc, rfl, ?_, ?_, ?_, ?_, ?_, ?_⟩
  · simp
  · exact fun _ _ c hc => absurd rfl hc
  · simp
  · simp
  · exact fun i hi => absurd hi (Nat.not_lt_zero i)
  · simp
  · simp

theorem Booked.step (hb : Booked opt hash ch₀ m h lin recorded pending ch) (hm : m.Sound)
    (hn : Numbered ch₀.ticketId m) (hmode : ch₀.useFastPath = false)
    (haccepts : ∀ i context buffer size result,
      .call i (.enforce context buffer size result) ∈ h → ch₀.Accepts opt context)
    {a : Action C W} (hfresh : Fresh m a) (hs : m.step opt hash a = some m') :
    ∃ lin' recorded' pending' ch',
      Booked opt hash ch₀ m' (h ++ m.observe a) lin' recorded' pending' ch' := by
  rcases step_effect hs with ⟨c, context, buffer, size, result, rfl, hidle, rfl⟩ |
    ⟨hk, heffect, hcontext⟩
  · exact ⟨_, _, _, _, hb.request hn hidle context buffer size result⟩
  · cases heffect with
    | none hidle hchannel hserved hseen =>
      rw [hseen, List.append_nil]
      exact ⟨_, _, _, _, hb.keep hk hcontext hidle hchannel hserved⟩
    | serve clock fuel hw hderef henforce hidle hchannel hserved hseen =>
      rw [hseen, List.append_nil]
      obtain ⟨lin', pending', ch', hb'⟩ := hb.serve hm (hm.step hfresh hs) hn hmode haccepts hk
        hcontext hidle hderef henforce hchannel hserved
      exact ⟨_, _, _, _, hb'⟩
    | record hpc hrecord hself hidle hchannel hserved hseen =>
      rw [hseen]
      obtain ⟨recorded', pending', hb'⟩ := hb.record hm hn hk hcontext hpc hrecord hself hidle
        hchannel hserved
      exact ⟨_, _, _, _, hb'⟩

theorem exists_booked {s : Machine C W × List (Event Nat ChannelCall ChannelReply)}
    (hmode : ch₀.useFastPath = false)
    (hr : Relation.ReflTransGen (HistoryNext opt hash) (start ch₀, []) s)
    (hmade : s.1.history.made ≤ 2 ^ 64)
    (haccepts : ∀ i context buffer size result,
      .call i (.enforce context buffer size result) ∈ s.2 → ch₀.Accepts opt context) :
    s.1.Sound ∧ Numbered ch₀.ticketId s.1 ∧
      ∃ lin recorded pending ch, Booked opt hash ch₀ s.1 s.2 lin recorded pending ch := by
  induction hr with
  | refl => exact ⟨sound_start ch₀, .start ch₀, _, _, _, _, booked_start ch₀⟩
  | @tail s₁ s₂ _ hnext ih =>
    obtain ⟨a, hstep, hh⟩ := hnext
    rw [hh] at haccepts ⊢
    have haccepts' : ∀ i context buffer size result,
        .call i (.enforce context buffer size result) ∈ s₁.2 → ch₀.Accepts opt context :=
      fun i context buffer size result hmem =>
        haccepts i context buffer size result (List.mem_append_left _ hmem)
    obtain ⟨hmade₁, hfresh⟩ : s₁.1.history.made ≤ 2 ^ 64 ∧
        (Numbered ch₀.ticketId s₁.1 → Fresh s₁.1 a) := by
      rcases step_cases hstep with ⟨c, context, buffer, size, result, rfl, -, heq⟩ | hk
      · rw [heq] at hmade
        have hlt : s₁.1.history.made < 2 ^ 64 := Nat.lt_of_succ_le hmade
        exact ⟨hlt.le, fun hn => hn.fresh hlt _⟩
      · refine ⟨by rwa [← hk.made], fun _ => ?_⟩
        cases a with
        | request c context buffer size result =>
          obtain ⟨-, heq⟩ := request_cases hstep
          exact absurd hk.made (by rw [heq]; simp [called])
        | _ => trivial
    obtain ⟨hm, hn, lin, recorded, pending, ch, hb⟩ := ih hmade₁ haccepts'
    exact ⟨hm.step (hfresh hn) hstep, hn.step hstep,
      hb.step hm hn hmode haccepts' (hfresh hn) hstep⟩

/-- Every run of at most `2^64` calls in queue mode is linearizable, by the specification that the
fast path has: there is an order of the calls in which one after the other they give the Results
that were returned and the objects as they are. It is the order in which the tickets were
submitted; every Result has the identifier of its call; and when nobody is in a call, the channel
is the one that the calls leave in this order, statistics included. -/
theorem queue_linearizable (hmode : ch₀.useFastPath = false) (hr : Runs opt hash ch₀ m h)
    (hmade : m.history.made ≤ 2 ^ 64)
    (haccepts : ∀ i context buffer size result,
      .call i (.enforce context buffer size result) ∈ h → ch₀.Accepts opt context) :
    ∃ lin ch, Linearization (ChannelDefault.Serves opt hash) ch₀ h lin ch ∧
      m.channel.submissionQueue = ch.submissionQueue ∧
      lin.map Entry.id <+: m.history.submitted.map Ref.serial ∧
      (∀ e ∈ lin, ∃ r, e.reply = .enforced r ∧
        r.ticketId = ch₀.ticketId + UInt64.ofNat e.id) ∧
      ((∀ c, (m.callers c).pc = .idle) → m.channel =
        { ch with ticketId := ch₀.ticketId + UInt64.ofNat lin.length }) := by
  obtain ⟨hm, hn, lin, recorded, pending, ch, hb⟩ := exists_booked hmode hr hmade haccepts
  simp only at hm hn hb
  refine ⟨lin, ch, hb.accounts.order, hb.accounts.objects_eq, ?_, hb.ids, ?_⟩
  · rw [hb.served]
    exact hm.correct.ordered.served_prefix.map Ref.serial
  · intro hquiet
    have hnone : pending = [] := by
      refine List.eq_nil_iff_forall_not_mem.mpr ?_
      intro p hp
      obtain ⟨c, hc, -⟩ := hb.counting p hp
      exact hc (hquiet c)
    subst hnone
    have hperm : (lin.map Entry.id).Perm (List.range m.history.made) := by
      refine (List.perm_ext_iff_of_nodup hb.accounts.order.nodup List.nodup_range).mpr ?_
      intro i
      rw [List.mem_range]
      constructor
      · intro hi
        obtain ⟨e, he, rfl⟩ := List.mem_map.mp hi
        exact hb.calls _ _ (hb.accounts.order.called e he)
      · intro hi
        rcases hb.made i hi with hin | ⟨c, hc, -⟩
        · exact hin
        · exact absurd (hquiet c) hc
    have hlength : lin.length = m.history.made := by
      simpa using hperm.length_eq
    rw [hlength, ← hn.next]
    exact hb.accounts.settled

theorem runs_of_run {as : List (Action C W)} (hrun : m.run opt hash as = some m')
    (h : List (Event Nat ChannelCall ChannelReply)) :
    ∃ h', Relation.ReflTransGen (HistoryNext opt hash) (m, h) (m', h') := by
  induction as generalizing m h with
  | nil =>
    cases hrun
    exact ⟨h, .refl⟩
  | cons a rest ih =>
    simp only [run] at hrun
    cases hs : m.step opt hash a with
    | none => simp [hs] at hrun
    | some m₁ =>
      simp only [hs] at hrun
      obtain ⟨h', hr⟩ := ih hrun (h ++ m.observe a)
      exact ⟨h', .head ⟨a, hs, rfl⟩ hr⟩

/-- Two callers whose calls overlap. -/
theorem queue_linearizable_overlapping :
    ∃ (m : Machine Bool Unit) (h : List (Event Nat ChannelCall ChannelReply)),
      m.history.returned.map Prod.fst = [⟨false, 1⟩, ⟨true, 0⟩] ∧
      ∃ lin ch, Linearization (ChannelDefault.Serves queueOptions fun _ => 0) queueChannel h lin ch ∧
        m.channel.submissionQueue = ch.submissionQueue ∧
        lin.map Entry.id <+: m.history.submitted.map Ref.serial ∧
        (∀ e ∈ lin, ∃ r, e.reply = .enforced r ∧
          r.ticketId = queueChannel.ticketId + UInt64.ofNat e.id) ∧
        ((∀ c, (m.callers c).pc = .idle) → m.channel =
          { ch with ticketId := queueChannel.ticketId + UInt64.ofNat lin.length }) := by
  obtain ⟨m, hrun, hmade, -, hreturned⟩ := run_overlapping
  obtain ⟨h, hr⟩ := runs_of_run hrun []
  refine ⟨m, h, hreturned, queue_linearizable rfl hr (by rw [hmade]; decide) ?_⟩
  exact fun _ _ _ _ _ _ => ⟨_, rfl⟩

end Machine

end Paio
