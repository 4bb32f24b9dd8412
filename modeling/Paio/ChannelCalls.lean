import Paio.Channel
import Paio.Library.Linearizability
import Paio.StatisticPositions

/-!
# Paio.ChannelCalls

What a channel does for one call at a time, as the specification of what it does for many at once.
`Serves` is one call with nobody else in the channel: a request under some ticket identifier, or
the configuration of an object.

When calls overlap, the work on the objects and the statistics of a request are done at different
moments, and the statistics of two requests may be done in the other order. Statistics updates
commute (`tally_comm`), so the counters agree with those of the sequential order as soon as no
request is between its two parts; `Accounts` keeps the books until then.
-/

namespace Paio

open Linearizability

variable (opt : Options) (hash : String → UInt32)

inductive ChannelCall where
  | enforce (context : Context) (buffer : Buffer) (size : Nat) (result : Result)
  | configure (objectId : Int) (config : Int) (configurations : List Int)

inductive ChannelReply where
  | enforced (result : Result)
  | configured (status : PStatus)
  deriving DecidableEq

/-- A call alone in a channel whose ticket counter may stand anywhere. -/
inductive ChannelDefault.Serves :
    ChannelDefault → ChannelCall → ChannelReply → ChannelDefault → Prop
  | enforce {ch ch' : ChannelDefault} {context : Context} {buffer : Buffer} {size : Nat}
      {result result' : Result} (ticketId : UInt64) (clock : Clock) (fuel : Nat)
      (h : { ch with ticketId := ticketId }.channelEnforce opt hash clock fuel context buffer size
        result = .ok (ch', result')) :
      Serves ch (.enforce context buffer size result) (.enforced result') ch'
  | configure {ch ch' : ChannelDefault} {objectId config : Int} {configurations : List Int}
      {status : PStatus}
      (h : ch.configureEnforcementObject objectId config configurations = .ok (ch', status)) :
      Serves ch (.configure objectId config configurations) (.configured status) ch'

/-! ## Statistics in any order -/

namespace ChannelStatistics

/-- Both counters of an entry, increased. -/
def add (s : ChannelStatistics) (operation : Int) (value : UInt64) : ChannelStatistics :=
  let position := (operation.tmod s.statsSize).toNat
  { s with
    totalCounter := s.totalCounter.modify position (· + value)
    windowedCounter := s.windowedCounter.modify position (· + value) }

/-- Statistics with vectors of the same sizes, that select entries in the same way. -/
structure Like (s s' : ChannelStatistics) : Prop where
  classifierType : s'.classifierType = s.classifierType
  statsSize : s'.statsSize = s.statsSize
  total : s'.totalCounter.length = s.totalCounter.length
  windowed : s'.windowedCounter.length = s.windowedCounter.length

theorem Like.refl (s : ChannelStatistics) : Like s s := ⟨rfl, rfl, rfl, rfl⟩

theorem Like.trans {s s' s'' : ChannelStatistics} (h : Like s s') (h' : Like s' s'') :
    Like s s'' :=
  ⟨h'.classifierType.trans h.classifierType, h'.statsSize.trans h.statsSize,
    h'.total.trans h.total, h'.windowed.trans h.windowed⟩

theorem like_add (s : ChannelStatistics) (operation : Int) (value : UInt64) :
    Like s (s.add operation value) :=
  ⟨rfl, rfl, List.length_modify .., List.length_modify ..⟩

theorem Like.classifier {s s' : ChannelStatistics} (h : Like s s')
    (operationType operationContext : Int) :
    s'.classifier operationType operationContext = s.classifier operationType operationContext := by
  simp only [ChannelStatistics.classifier, h.classifierType]

theorem modify_add_comm (counters : List UInt64) (i j : Nat) (v w : UInt64) :
    (counters.modify i (· + v)).modify j (· + w) =
      (counters.modify j (· + w)).modify i (· + v) := by
  apply List.ext_getElem?
  intro k
  simp only [List.getElem?_modify]
  cases counters[k]? with
  | none => rfl
  | some counter =>
    by_cases hi : i = k <;> by_cases hj : j = k <;> simp [hi, hj, add_right_comm]

theorem add_comm (s : ChannelStatistics) (operation operation' : Int) (value value' : UInt64) :
    (s.add operation value).add operation' value' =
      (s.add operation' value').add operation value := by
  simp only [add, modify_add_comm]

/-- An update that comes back adds to its entry. -/
theorem updateEntry_eq_add {s s' : ChannelStatistics} {operation : Int} {value : UInt64}
    (h : s.updateEntry operation value = .ok s') : s' = s.add operation value := by
  simp only [updateEntry] at h
  split at h <;> cases h
  rfl

theorem Like.updateEntry_ok {s s' s₁ : ChannelStatistics} (h : Like s s') {operation : Int}
    {value : UInt64} (hs : s.updateEntry operation value = .ok s₁) :
    s'.updateEntry operation value = .ok (s'.add operation value) := by
  simp only [updateEntry] at hs
  split at hs <;> cases hs
  rename_i hbounds
  rw [updateEntry, if_pos (by rwa [h.statsSize, h.total, h.windowed])]
  rfl

end ChannelStatistics

namespace ChannelDefault

/-- What a request adds to its entry. -/
def statisticValue (context : Context) : UInt64 :=
  UInt64.ofInt context.totalOperations *
    if opt.statisticMetric = .counter ∧ context.operationSize = 0 then 1
    else context.operationSize

/-- The statistics after one more request. -/
def tally (collects : Bool) (stats : ChannelStatistics) (context : Context) : ChannelStatistics :=
  if collects then
    stats.add (stats.classifier context.operationType context.operationContext)
      (statisticValue opt context)
  else stats

/-- The statistics have an entry for the request. -/
def Accepts (ch : ChannelDefault) (context : Context) : Prop :=
  ∃ ch', ch.recordStatistics opt context = .ok ch'

variable {opt hash} {ch ch' : ChannelDefault} {context : Context}

theorem tally_comm (collects : Bool) (stats : ChannelStatistics) (c c' : Context) :
    tally opt collects (tally opt collects stats c) c' =
      tally opt collects (tally opt collects stats c') c := by
  cases collects with
  | false => rfl
  | true =>
    simp only [tally, if_true, (ChannelStatistics.like_add stats _ _).classifier]
    exact stats.add_comm _ _ _ _

/-- The same requests in another order leave the same statistics. -/
theorem tally_perm {collects : Bool} {cs cs' : List Context} (h : cs.Perm cs')
    (stats : ChannelStatistics) :
    cs.foldl (tally opt collects) stats = cs'.foldl (tally opt collects) stats :=
  h.foldl_eq' (fun c _ c' _ stats => tally_comm collects stats c c') stats

theorem like_tally (collects : Bool) (stats : ChannelStatistics) (context : Context) :
    stats.Like (tally opt collects stats context) := by
  cases collects with
  | false => exact .refl stats
  | true => exact stats.like_add _ _

theorem like_tallies (collects : Bool) (cs : List Context) (stats : ChannelStatistics) :
    stats.Like (cs.foldl (tally opt collects) stats) := by
  induction cs generalizing stats with
  | nil => exact .refl stats
  | cons c cs ih => exact (like_tally collects stats c).trans (ih _)

theorem recordStatistics_eq_tally (h : ch.recordStatistics opt context = .ok ch') :
    ch' = { ch with
      channelStatistics := tally opt ch.collectChannelStatistics ch.channelStatistics context } := by
  rw [recordStatistics] at h
  by_cases hc : ch.collectChannelStatistics = true
  · simp only [if_pos hc] at h
    split at h <;> cases h
    rename_i stats hu
    rw [ChannelStatistics.updateStatisticEntry_eq] at hu
    rw [ChannelStatistics.updateEntry_eq_add hu, tally, if_pos hc]
    rfl
  · rw [if_neg hc] at h
    cases h
    rw [tally, if_neg hc]

/-- Whether a request has an entry does not change while requests are counted. -/
theorem Accepts.recordStatistics (h : ch.Accepts opt context)
    (hcollects : ch'.collectChannelStatistics = ch.collectChannelStatistics)
    (hlike : ch.channelStatistics.Like ch'.channelStatistics) :
    ch'.recordStatistics opt context = .ok { ch' with
      channelStatistics := tally opt ch'.collectChannelStatistics ch'.channelStatistics context } := by
  obtain ⟨ch₁, h⟩ := h
  rw [ChannelDefault.recordStatistics] at h ⊢
  by_cases hc : ch'.collectChannelStatistics = true
  · rw [if_pos (hcollects ▸ hc)] at h
    simp only [ChannelStatistics.updateStatisticEntry_eq] at h
    split at h <;> cases h
    rename_i stats hu
    simp only [if_pos hc, tally, ChannelStatistics.updateStatisticEntry_eq, hlike.classifier,
      statisticValue, hlike.updateEntry_ok hu]
  · rw [if_neg hc, tally, if_neg hc]

/-! ## Calls on a channel that others use -/

/-- The ticket of a request under a given identifier. -/
def ticketFor (ch : ChannelDefault) (ticketId : UInt64) (context : Context) (buffer : Buffer)
    (size : Nat) : Ticket :=
  ({ ch with ticketId := ticketId }.buildTicket context buffer size).1

/-- The ticket is the same in every channel. -/
theorem ticketFor_congr (ch ch' : ChannelDefault) (ticketId : UInt64) (context : Context)
    (buffer : Buffer) (size : Nat) :
    ch'.ticketFor ticketId context buffer size = ch.ticketFor ticketId context buffer size :=
  buildTicket_congr { ch with ticketId := ticketId } { ch' with ticketId := ticketId } rfl context
    buffer size

@[simp] theorem ticketFor_ticketId (ch : ChannelDefault) (ticketId : UInt64) (context : Context)
    (buffer : Buffer) (size : Nat) :
    (ch.ticketFor ticketId context buffer size).ticketId = ticketId :=
  buildTicket_ticketId { ch with ticketId := ticketId } context buffer size

/-- The Result a request comes back with. -/
def resultFor (ch : ChannelDefault) (ticketId : UInt64) (context : Context) (buffer : Buffer)
    (size : Nat) (result : Result) : Result :=
  if ch.useFastPath then
    (ch.ticketFor ticketId context buffer size).writeResult (result.setTicketId ticketId)
  else (ch.ticketFor ticketId context buffer size).freshResult

/-- The Result has the identifier of the ticket on either path. -/
@[simp] theorem resultFor_ticketId (ch : ChannelDefault) (ticketId : UInt64) (context : Context)
    (buffer : Buffer) (size : Nat) (result : Result) :
    (ch.resultFor ticketId context buffer size result).ticketId = ticketId := by
  rw [resultFor]
  split
  · rcases Nat.eq_zero_or_pos (ch.ticketFor ticketId context buffer size).bufferSize with h | h
    · rw [Ticket.writeResult_noContent h]
      rfl
    · rw [Ticket.writeResult_content h]
      rfl
  · exact ch.ticketFor_ticketId ticketId context buffer size

/-- What the objects do for a ticket is a call alone in the channel, under the identifier of the
ticket and with the statistics done at once. -/
theorem serves_enforce {clock : Clock} {fuel : Nat} {buffer : Buffer} {size : Nat}
    {ticketId : UInt64} {q : SubmissionQueue} {r r' : Result} (result : Result)
    (haccepts : ch.Accepts opt context)
    (h : ch.submissionQueue.enforceMechanism hash clock fuel
      (ch.ticketFor ticketId context buffer size) r = .ok (q, r')) :
    Serves opt hash ch (.enforce context buffer size result)
      (.enforced (ch.resultFor ticketId context buffer size result))
      { ch with
        ticketId := ticketId + 1
        submissionQueue := q
        channelStatistics :=
          tally opt ch.collectChannelStatistics ch.channelStatistics context } := by
  refine .enforce ticketId clock fuel ?_
  have hobjects := ch.submissionQueue.enforceMechanism_congr hash clock fuel
    (ch.ticketFor ticketId context buffer size) r (result.setTicketId ticketId)
  rw [h] at hobjects
  have hrecord := haccepts.recordStatistics
    (show ({ ch with ticketId := ticketId + 1, submissionQueue := q } :
      ChannelDefault).collectChannelStatistics = ch.collectChannelStatistics from rfl) (.refl _)
  rw [channelEnforce_eq]
  simp only [ticketFor] at hobjects
  simp only [hobjects, finishRequest, hrecord]
  rfl

/-- The configuration of an object depends on the objects and the linkers only. -/
theorem configureEnforcementObject_congr (ch ch' : ChannelDefault)
    (hobjects : ch'.submissionQueue = ch.submissionQueue)
    (hlinkers : ch'.objectIdToTokenLinkers = ch.objectIdToTokenLinkers) (objectId config : Int)
    (configurations : List Int) :
    ch'.configureEnforcementObject objectId config configurations =
      match ch.configureEnforcementObject objectId config configurations with
      | .ok (ch₁, status) => .ok ({ ch' with submissionQueue := ch₁.submissionQueue }, status)
      | .error f => .error f := by
  have htoken : ch'.getEnforcementObjectDiffToken objectId =
      ch.getEnforcementObjectDiffToken objectId := by
    simp only [getEnforcementObjectDiffToken, hlinkers]
  rw [configureEnforcementObject, configureEnforcementObject, htoken, hobjects]
  by_cases hno : ch.getEnforcementObjectDiffToken objectId = noToken
  · simp only [if_pos hno, ← hobjects]
  · simp only [if_neg hno]
    cases ch.submissionQueue.configureEnforcementObject
      (ch.getEnforcementObjectDiffToken objectId) config configurations with
    | error f => rfl
    | ok out => rfl

/-- The channel once the objects and the counter have moved on and the requests are counted. -/
def after (opt : Options) (ch₀ : ChannelDefault) (q : SubmissionQueue) (ticketId : UInt64)
    (cs : List Context) : ChannelDefault :=
  { ch₀ with
    submissionQueue := q
    ticketId := ticketId
    channelStatistics := cs.foldl (tally opt ch₀.collectChannelStatistics) ch₀.channelStatistics }

theorem Serves.request_of_enforced {call : ChannelCall} {r : Result}
    (h : Serves opt hash ch call (.enforced r) ch') :
    ∃ context buffer size result, call = .enforce context buffer size result := by
  cases h with
  | enforce _ _ _ _ => exact ⟨_, _, _, _, rfl⟩

theorem Accepts.after {ch₀ : ChannelDefault} (h : ch₀.Accepts opt context) (q : SubmissionQueue)
    (ticketId : UInt64) (cs : List Context) : (ch₀.after opt q ticketId cs).Accepts opt context :=
  ⟨_, h.recordStatistics rfl (like_tallies _ cs _)⟩

end ChannelDefault

/-! ## The books of a run -/

/-- The requests of a sequential order. -/
def requestsOf (lin : List (Entry Nat ChannelCall ChannelReply)) : List (Nat × Context) :=
  lin.filterMap fun e =>
    match e.op with
    | .enforce context _ _ _ => some (e.id, context)
    | .configure _ _ _ => none

theorem requestsOf_ids_sublist (lin : List (Entry Nat ChannelCall ChannelReply)) :
    ((requestsOf lin).map Prod.fst).Sublist (lin.map Entry.id) := by
  induction lin with
  | nil => exact .slnil
  | cons e lin ih =>
    cases hop : e.op with
    | enforce context buffer size result =>
      simpa [requestsOf, List.filterMap_cons, hop] using ih
    | configure objectId config configurations =>
      simpa [requestsOf, List.filterMap_cons, hop] using ih.cons e.id

/-- A channel in use against the sequential order of its calls: the objects are those of the
sequential channel, and so are the statistics up to the requests that are still to be counted. -/
structure Accounts (opt : Options) (hash : String → UInt32) (ch₀ channel : ChannelDefault)
    (h : List (Event Nat ChannelCall ChannelReply))
    (lin : List (Entry Nat ChannelCall ChannelReply)) (recorded pending : List (Nat × Context))
    (ch : ChannelDefault) : Prop where
  order : Linearization (ChannelDefault.Serves opt hash) ch₀ h lin ch
  alone : ch = ch₀.after opt ch.submissionQueue ch.ticketId ((requestsOf lin).map Prod.snd)
  shared : channel =
    ch₀.after opt ch.submissionQueue channel.ticketId (recorded.map Prod.snd)
  booked : (requestsOf lin).Perm (recorded ++ pending)

namespace Accounts

variable {opt : Options} {hash : String → UInt32} {ch₀ channel channel' ch : ChannelDefault}
  {h : List (Event Nat ChannelCall ChannelReply)}
  {lin : List (Entry Nat ChannelCall ChannelReply)} {recorded pending : List (Nat × Context)}

theorem start (ch₀ : ChannelDefault) : Accounts opt hash ch₀ ch₀ [] [] [] [] ch₀ :=
  ⟨.nil, rfl, rfl, .nil⟩

theorem objects_eq (ha : Accounts opt hash ch₀ channel h lin recorded pending ch) :
    channel.submissionQueue = ch.submissionQueue := by
  rw [ha.shared]
  rfl

theorem call (ha : Accounts opt hash ch₀ channel h lin recorded pending ch) {i : Nat}
    (op : ChannelCall) (hnew : ∀ op', .call i op' ∉ h) :
    Accounts opt hash ch₀ channel (h ++ [.call i op]) lin recorded pending ch :=
  { ha with order := ha.order.call op hnew }

theorem ret (ha : Accounts opt hash ch₀ channel h lin recorded pending ch) {i : Nat}
    {reply : ChannelReply} (hmem : ∃ e ∈ lin, e.id = i ∧ e.reply = reply) :
    Accounts opt hash ch₀ channel (h ++ [.ret i reply]) lin recorded pending ch :=
  { ha with order := ha.order.ret hmem }

/-- An identifier is taken. -/
theorem draw (ha : Accounts opt hash ch₀ channel h lin recorded pending ch) (ticketId : UInt64) :
    Accounts opt hash ch₀ { channel with ticketId := ticketId } h lin recorded pending ch where
  order := ha.order
  alone := ha.alone
  shared := by
    rw [ha.shared]
    rfl
  booked := ha.booked

/-- The objects work for a request, whose statistics are now to be counted. -/
theorem enforce (ha : Accounts opt hash ch₀ channel h lin recorded pending ch) {i : Nat}
    {context : Context} {buffer : Buffer} {size : Nat} {result r r' : Result} {clock : Clock}
    {fuel : Nat} {ticketId : UInt64} {q : SubmissionQueue}
    (hcall : .call i (.enforce context buffer size result) ∈ h) (hnew : i ∉ lin.map Entry.id)
    (haccepts : ch₀.Accepts opt context)
    (henforce : channel.submissionQueue.enforceMechanism hash clock fuel
      (ch₀.ticketFor ticketId context buffer size) r = .ok (q, r')) :
    ∃ ch', Accounts opt hash ch₀ { channel with submissionQueue := q } h
      (lin ++ [⟨i, .enforce context buffer size result,
        .enforced (ch₀.resultFor ticketId context buffer size result)⟩])
      recorded (pending ++ [(i, context)]) ch' := by
  have haccepts' : ch.Accepts opt context := by
    rw [ha.alone]
    exact haccepts.after _ _ _
  rw [ha.objects_eq, ← ch₀.ticketFor_congr ch] at henforce
  have hserves := ChannelDefault.serves_enforce result haccepts' henforce
  have hpath : ch.resultFor ticketId context buffer size result =
      ch₀.resultFor ticketId context buffer size result := by
    have hmode : ch.useFastPath = ch₀.useFastPath := by
      rw [ha.alone]
      rfl
    simp only [ChannelDefault.resultFor, ch₀.ticketFor_congr ch, hmode]
  rw [hpath] at hserves
  refine ⟨_, ha.order.commit hcall hnew hserves, ?_, ?_, ?_⟩
  · rw [requestsOf, List.filterMap_append, List.map_append]
    simp only [List.filterMap_cons, List.filterMap_nil, List.map_cons, List.map_nil]
    rw [ha.alone]
    simp [ChannelDefault.after, List.foldl_append, requestsOf]
  · rw [ha.shared]
    rfl
  · rw [requestsOf, List.filterMap_append, ← List.append_assoc]
    exact ha.booked.append_right _

/-- An object is configured. -/
theorem configure (ha : Accounts opt hash ch₀ channel h lin recorded pending ch) {i : Nat}
    {objectId config : Int} {configurations : List Int} {status : PStatus}
    (hcall : .call i (.configure objectId config configurations) ∈ h)
    (hnew : i ∉ lin.map Entry.id)
    (hconfigure : channel.configureEnforcementObject objectId config configurations =
      .ok (channel', status)) :
    ∃ ch', Accounts opt hash ch₀ { channel with submissionQueue := channel'.submissionQueue } h
      (lin ++ [⟨i, .configure objectId config configurations, .configured status⟩])
      recorded pending ch' := by
  have hlinkers : ch.objectIdToTokenLinkers = channel.objectIdToTokenLinkers := by
    rw [ha.shared, ha.alone]
    rfl
  have halone := ChannelDefault.configureEnforcementObject_congr channel ch ha.objects_eq.symm
    hlinkers objectId config configurations
  rw [hconfigure] at halone
  refine ⟨_, ha.order.commit hcall hnew (.configure halone), ?_, ?_, ?_⟩
  · rw [requestsOf, List.filterMap_append]
    simp only [List.filterMap_cons, List.filterMap_nil, List.append_nil]
    rw [ha.alone]
    rfl
  · rw [ha.shared]
    rfl
  · rw [requestsOf, List.filterMap_append]
    simpa [requestsOf] using ha.booked

/-- A request that was pending is counted. -/
theorem record {pending₁ pending₂ : List (Nat × Context)} {i : Nat} {context : Context}
    (ha : Accounts opt hash ch₀ channel h lin recorded (pending₁ ++ (i, context) :: pending₂) ch)
    (hrecord : channel.recordStatistics opt context = .ok channel') :
    Accounts opt hash ch₀ channel' h lin (recorded ++ [(i, context)]) (pending₁ ++ pending₂) ch where
  order := ha.order
  alone := ha.alone
  shared := by
    rw [ChannelDefault.recordStatistics_eq_tally hrecord, ha.shared]
    simp [ChannelDefault.after, List.foldl_append]
  booked := by
    refine ha.booked.trans ?_
    rw [List.append_assoc]
    exact (List.perm_middle).append_left _

/-- No call is in the order of the others twice. -/
theorem nodup_pending (ha : Accounts opt hash ch₀ channel h lin recorded pending ch) :
    (pending.map Prod.fst).Nodup := by
  have hnodup := ha.order.nodup.sublist (requestsOf_ids_sublist lin)
  rw [(ha.booked.map Prod.fst).nodup_iff, List.map_append, List.nodup_append'] at hnodup
  exact hnodup.2.1

/-- With nothing left to be counted the channel is the sequential one, up to the ticket counter. -/
theorem settled (ha : Accounts opt hash ch₀ channel h lin recorded [] ch) :
    channel = { ch with ticketId := channel.ticketId } := by
  have hperm : ((requestsOf lin).map Prod.snd).Perm (recorded.map Prod.snd) := by
    simpa using ha.booked.map Prod.snd
  rw [ha.shared, ha.alone]
  simp only [ChannelDefault.after, ChannelDefault.tally_perm hperm]

end Accounts

end Paio
