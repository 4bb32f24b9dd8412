import Paio.Differentiation
import Paio.EnforcementObject
import Paio.Statistics

/-!
# Paio.Channel

A channel (`ChannelDefault`) with its submission queue: the enforcement objects under their
differentiation tokens, the object that serves requests no token matches, the ticket counter and
the statistics.

`channelEnforce` is one request with nobody else in the channel. On the fast path the object
writes into the caller's Result. On the queue path the ticket goes through the submission queue,
a worker enforces it on a fresh Result, and the caller copies that Result out of the completion
queue.
-/

namespace Paio

variable (opt : Options) (hash : String → UInt32)

/-! ## The completion queue -/

/-- `CompletionQueue::enqueue`: the Result is copied into the queue. -/
def CompletionQueue.enqueue (q : List Result) (r : Result) : List Result := q ++ [r.copy]

/-- One pass through the loop of `CompletionQueue::dequeue`. With an empty queue the caller waits,
with the Result of another ticket at the front it tests again: both are `none`. -/
def CompletionQueue.dequeue (q : List Result) (ticketId : UInt64) (result : Result) :
    Option (Result × List Result) :=
  match q with
  | [] => none
  | front :: rest => if ticketId = front.ticketId then some (result.assign front, rest) else none

/-! ## The submission queue and its objects -/

/-- The object classifiers of a ticket, each converted from `int` to `uint32_t`. -/
def Ticket.objectPair (t : Ticket) : ObjectDifferentiationPair where
  operationType := toUInt32 t.operationType
  operationContext := toUInt32 t.operationContext

structure SubmissionQueue where
  enfObjects : List (UInt32 × EnforcementObject) := []
  noMatchObject : NoopObject := { objectId := -1, tagName := "no_match", shared := true }
  diffBuilder : ObjectHashingDifferentiation
  deriving DecidableEq

namespace SubmissionQueue

/-- The constructor: no objects, and the default object differentiation. -/
def new : SubmissionQueue where
  diffBuilder := .bound opt.objectDifferentiationOperationType
    opt.objectDifferentiationOperationContext

def defineObjectDifferentiation (q : SubmissionQueue) (operationType operationContext : Bool) :
    SubmissionQueue :=
  { q with diffBuilder := (q.diffBuilder.setClassifiers operationType operationContext).bindBuilder }

def buildObjectToken (q : SubmissionQueue) (pair : ObjectDifferentiationPair) : UInt32 :=
  q.diffBuilder.buildDifferentiationToken hash pair

def selectEnforcementObject (q : SubmissionQueue) (token : UInt32) : Option EnforcementObject :=
  q.enfObjects.lookup token

def enforceMechanism (clock : Clock) (fuel : Nat) (q : SubmissionQueue) (ticket : Ticket)
    (result : Result) : Except Fault (SubmissionQueue × Result) :=
  let objectToken := q.buildObjectToken hash ticket.objectPair
  match q.selectEnforcementObject objectToken with
  | some object =>
    match object.objEnforce clock fuel ticket result with
    | .ok (object', result') =>
      .ok ({ q with enfObjects := AssocList.replaceFirst objectToken object' q.enfObjects },
        result')
    | .error f => .error f
  | none =>
    let (object', result') := q.noMatchObject.objEnforce ticket result
    .ok ({ q with noMatchObject := object' }, result')

/-- The Result that comes back is the one the ticket writes over the Result that was given. -/
theorem enforceMechanism_result {clock : Clock} {fuel : Nat} {q q' : SubmissionQueue}
    {ticket : Ticket} {result result' : Result}
    (h : q.enforceMechanism hash clock fuel ticket result = .ok (q', result')) :
    result' = ticket.writeResult result := by
  simp only [enforceMechanism] at h
  split at h
  · split at h
    · rename_i object' result'' ho
      cases h
      exact EnforcementObject.objEnforce_result ho
    · cases h
  · cases h
    rfl

/-- What happens to the objects does not depend on the Result that was given. -/
theorem enforceMechanism_congr (clock : Clock) (fuel : Nat) (q : SubmissionQueue)
    (ticket : Ticket) (result result₂ : Result) :
    q.enforceMechanism hash clock fuel ticket result₂ =
      match q.enforceMechanism hash clock fuel ticket result with
      | .ok (q', _) => .ok (q', ticket.writeResult result₂)
      | .error f => .error f := by
  simp only [enforceMechanism]
  cases q.selectEnforcementObject (q.buildObjectToken hash ticket.objectPair) with
  | none => rfl
  | some object =>
    cases ho : object.objEnforce clock fuel ticket result with
    | error f => simp only [ho, EnforcementObject.objEnforce_error_congr result₂ ho]
    | ok out => simp only [ho, EnforcementObject.objEnforce_congr result₂ ho]

def enqueueFastPath (clock : Clock) (fuel : Nat) (q : SubmissionQueue) (ticket : Ticket)
    (result : Result) : Except Fault (SubmissionQueue × Result) :=
  q.enforceMechanism hash clock fuel ticket result

/-- What a worker does with the ticket it takes from the queue: it enforces it on a fresh Result
and enqueues that Result in the completion queue. -/
def dequeue (clock : Clock) (fuel : Nat) (q : SubmissionQueue) (ticket : Ticket)
    (completionQueue : List Result) : Except Fault (SubmissionQueue × List Result) :=
  match q.enforceMechanism hash clock fuel ticket { ticketId := ticket.ticketId } with
  | .ok (q', result) => .ok (q', CompletionQueue.enqueue completionQueue result)
  | .error f => .error f

def createEnforcementObject (q : SubmissionQueue) (token : UInt32) (object : EnforcementObject) :
    SubmissionQueue × PStatus :=
  match q.selectEnforcementObject token with
  | some _ => (q, .error)
  | none => ({ q with enfObjects := q.enfObjects ++ [(token, object)] }, .ok)

def configureEnforcementObject (q : SubmissionQueue) (token : UInt32) (config : Int)
    (configurations : List Int) : Except Fault (SubmissionQueue × PStatus) :=
  match q.selectEnforcementObject token with
  | none => .ok (q, .error)
  | some object =>
    match object.objConfigure config configurations with
    | .ok (object', status) =>
      .ok ({ q with enfObjects := AssocList.replaceFirst token object' q.enfObjects }, status)
    | .error f => .error f

end SubmissionQueue

/-! ## The channel -/

structure ChannelDefault where
  channelId : UInt32 := 0
  submissionQueue : SubmissionQueue
  useFastPath : Bool := true
  ticketId : UInt64 := 0
  objectIdToTokenLinkers : List (Int × UInt32) := []
  collectChannelStatistics : Bool := true
  collectObjectStatistics : Bool := false
  channelStatistics : ChannelStatistics := {}
  deriving DecidableEq

namespace ChannelDefault

/-- The constructor as `Core` calls it; `channelId` is a `long` there and a `uint32_t` here. -/
def new (channelId : Int) (clock : Clock) : ChannelDefault where
  channelId := toUInt32 channelId
  submissionQueue := .new opt
  useFastPath := decide (opt.channelMode = .fastPath)
  collectChannelStatistics := opt.channelStatisticCollection
  collectObjectStatistics := opt.objectStatisticCollection
  channelStatistics :=
    let stats : ChannelStatistics :=
      { collectionMetric := opt.statisticMetric, classifierType := opt.statisticClassifier }
    if opt.channelStatisticCollection then stats.initializeEntries opt.contextType (clock 0)
    else stats

/-- `gen_ticket_id` returns the counter and increments it, modulo `2^64`. -/
def genTicketId (ch : ChannelDefault) : UInt64 × ChannelDefault :=
  (ch.ticketId, { ch with ticketId := ch.ticketId + 1 })

/-- `build_ticket`. The product of the operation size and the operation count is taken on
`uint64_t` and the ticket keeps it as a `long`. -/
def buildTicket (ch : ChannelDefault) (context : Context) (buffer : Buffer) (size : Nat) :
    Ticket × ChannelDefault :=
  let (ticketId, ch') := ch.genTicketId
  match buffer with
  | some p =>
    if 0 < size then
      ({ ticketId := ticketId
         operations := context.totalOperations
         payload := toLong (context.operationSize * UInt64.ofInt context.totalOperations)
         operationType := context.operationType
         operationContext := context.operationContext
         bufferSize := size
         buffer := readBytes p size
         buffer_length := length_readBytes p size }, ch')
    else (withoutContent ticketId, ch')
  | none => (withoutContent ticketId, ch')
where
  withoutContent (ticketId : UInt64) : Ticket :=
    let operationSize := if context.operationSize = 0 then 1 else context.operationSize
    { ticketId := ticketId
      operations := context.totalOperations
      payload := toLong (operationSize * UInt64.ofInt context.totalOperations)
      operationType := context.operationType
      operationContext := context.operationContext }

/-- The queue path of `channel_enforce` with no other caller: the completion queue is empty before
the worker enqueues the Result. -/
def enqueueAndDequeue (clock : Clock) (fuel : Nat) (q : SubmissionQueue) (ticket : Ticket)
    (result : Result) : Except Fault (SubmissionQueue × Result) :=
  match q.dequeue hash clock fuel ticket [] with
  | .error f => .error f
  | .ok (q', completionQueue) =>
    match CompletionQueue.dequeue completionQueue ticket.ticketId result with
    | some (result', _) => .ok (q', result')
    | none => .error .outOfFuel

/-- The statistics update at the end of `channel_enforce`. -/
def recordStatistics (ch : ChannelDefault) (context : Context) : Except Fault ChannelDefault :=
  if ch.collectChannelStatistics then
    let operationSize := if opt.statisticMetric = .counter ∧ context.operationSize = 0 then 1
      else context.operationSize
    match ch.channelStatistics.updateStatisticEntry context.operationType context.operationContext
        (UInt64.ofInt context.totalOperations * operationSize) with
    | .ok stats => .ok { ch with channelStatistics := stats }
    | .error f => .error f
  else .ok ch

def channelEnforce (clock : Clock) (fuel : Nat) (ch : ChannelDefault) (context : Context)
    (buffer : Buffer) (size : Nat) (result : Result) : Except Fault (ChannelDefault × Result) :=
  let (ticket, ch') := ch.buildTicket context buffer size
  let result' := result.setTicketId ticket.ticketId
  match
    if ch'.useFastPath then ch'.submissionQueue.enqueueFastPath hash clock fuel ticket result'
    else enqueueAndDequeue hash clock fuel ch'.submissionQueue ticket result' with
  | .error f => .error f
  | .ok (q, result'') =>
    match { ch' with submissionQueue := q }.recordStatistics opt context with
    | .ok ch'' => .ok (ch'', result'')
    | .error f => .error f

def defineObjectDifferentiation (ch : ChannelDefault) (operationType operationContext : Bool) :
    ChannelDefault :=
  { ch with
    submissionQueue :=
      ch.submissionQueue.defineObjectDifferentiation operationType operationContext }

def createNewEnforcementObjectLinker (ch : ChannelDefault) (objectId : Int) (token : UInt32) :
    ChannelDefault :=
  { ch with objectIdToTokenLinkers := ch.objectIdToTokenLinkers ++ [(objectId, token)] }

/-- `static_cast<diff_token_t> (-1)` when the identifier is not linked. -/
def getEnforcementObjectDiffToken (ch : ChannelDefault) (objectId : Int) : UInt32 :=
  (ch.objectIdToTokenLinkers.lookup objectId).getD noToken

/-- The object that `create_enforcement_object` makes for a type. -/
def newObject (ch : ChannelDefault) (clock : Clock) (objectId : Int) :
    EnforcementObjectType → EnforcementObject
  | .drl => .drl (.new objectId ch.collectObjectStatistics clock)
  | .noop => .noop { objectId := objectId }

/-- `create_enforcement_object`; `objectType` is `none` for a value that names no type. -/
def createEnforcementObject (clock : Clock) (ch : ChannelDefault) (objectId : Int)
    (pair : ObjectDifferentiationPair) (objectType : Option EnforcementObjectType)
    (configurations : List Int) : Except Fault (ChannelDefault × PStatus) :=
  let hashValue := ch.submissionQueue.buildObjectToken hash pair
  match objectType with
  | none => .ok (ch, .notSupported)
  | some type =>
    let (q, status) := ch.submissionQueue.createEnforcementObject hashValue
      (ch.newObject clock objectId type)
    let ch' := { ch with submissionQueue := q }
    if status.isOk then
      let ch'' := ch'.createNewEnforcementObjectLinker objectId hashValue
      if configurations ≠ [] ∧ type = .drl then
        match ch''.submissionQueue.configureEnforcementObject hashValue
            DRLConfiguration.init.toInt configurations with
        | .ok (q', status') => .ok ({ ch'' with submissionQueue := q' }, status')
        | .error f => .error f
      else .ok (ch'', status)
    else .ok (ch', status)

def configureEnforcementObject (ch : ChannelDefault) (objectId : Int) (config : Int)
    (configurations : List Int) : Except Fault (ChannelDefault × PStatus) :=
  let objectToken := ch.getEnforcementObjectDiffToken objectId
  if objectToken = noToken then .ok (ch, .error)
  else
    match ch.submissionQueue.configureEnforcementObject objectToken config configurations with
    | .ok (q, status) => .ok ({ ch with submissionQueue := q }, status)
    | .error f => .error f

/-! ### What a call can do -/

@[simp] theorem buildTicket_snd (ch : ChannelDefault) (context : Context) (buffer : Buffer)
    (size : Nat) :
    (ch.buildTicket context buffer size).2 = { ch with ticketId := ch.ticketId + 1 } := by
  simp only [buildTicket, genTicketId]
  split
  · split <;> rfl
  · rfl

@[simp] theorem buildTicket_ticketId (ch : ChannelDefault) (context : Context) (buffer : Buffer)
    (size : Nat) : (ch.buildTicket context buffer size).1.ticketId = ch.ticketId := by
  simp only [buildTicket, genTicketId]
  split
  · split <;> rfl
  · rfl

/-- The ticket depends on the request and the counter only. -/
theorem buildTicket_congr (ch ch₂ : ChannelDefault) (h : ch₂.ticketId = ch.ticketId)
    (context : Context) (buffer : Buffer) (size : Nat) :
    (ch₂.buildTicket context buffer size).1 = (ch.buildTicket context buffer size).1 := by
  simp only [buildTicket, genTicketId, h]
  split
  · split <;> rfl
  · rfl

/-- The statistics depend on the old statistics and the request only. -/
theorem recordStatistics_congr (ch ch₂ : ChannelDefault)
    (hc : ch₂.collectChannelStatistics = ch.collectChannelStatistics)
    (hs : ch₂.channelStatistics = ch.channelStatistics) (context : Context) :
    ch₂.recordStatistics opt context =
      match ch.recordStatistics opt context with
      | .ok ch' => .ok { ch₂ with channelStatistics := ch'.channelStatistics }
      | .error f => .error f := by
  simp only [recordStatistics, hc, hs]
  split
  · split <;> simp_all
  · simp only [← hc, ← hs]

theorem recordStatistics_cases {ch ch' : ChannelDefault} {context : Context}
    (h : ch.recordStatistics opt context = .ok ch') :
    ∃ stats, ch' = { ch with channelStatistics := stats } := by
  simp only [recordStatistics] at h
  split at h
  · split at h
    · rename_i stats _
      cases h
      exact ⟨stats, rfl⟩
    · cases h
  · cases h
    exact ⟨ch.channelStatistics, rfl⟩

/-- The queue path, alone: the objects do what they would do on the fast path, and the caller gets
a Result in which nothing of the old one is left. -/
theorem enqueueAndDequeue_eq (clock : Clock) (fuel : Nat) (q : SubmissionQueue) (ticket : Ticket)
    (result : Result) :
    enqueueAndDequeue hash clock fuel q ticket result =
      match q.enforceMechanism hash clock fuel ticket result with
      | .ok (q', _) => .ok (q', ticket.freshResult)
      | .error f => .error f := by
  simp only [enqueueAndDequeue, SubmissionQueue.dequeue,
    q.enforceMechanism_congr hash clock fuel ticket result { ticketId := ticket.ticketId }]
  cases q.enforceMechanism hash clock fuel ticket result with
  | error f => rfl
  | ok out =>
    have hid : ticket.ticketId = ticket.freshResult.ticketId := rfl
    simp only [CompletionQueue.enqueue, CompletionQueue.dequeue, ticket.writeResult_new,
      ticket.copy_freshResult, List.nil_append, ticket.assign_freshResult]
    rw [if_pos hid]

/-- What is left of a request once the objects have worked: the ticket is counted, the statistics
are updated, and on the queue path the Result is the fresh one. -/
def finishRequest (ch : ChannelDefault) (context : Context) (buffer : Buffer) (size : Nat)
    (out : Except Fault (SubmissionQueue × Result)) : Except Fault (ChannelDefault × Result) :=
  match out with
  | .error f => .error f
  | .ok (q, result) =>
    match { ch with ticketId := ch.ticketId + 1, submissionQueue := q }.recordStatistics opt
        context with
    | .ok ch' =>
      .ok (ch', if ch.useFastPath then result
        else (ch.buildTicket context buffer size).1.freshResult)
    | .error f => .error f

/-- On either path the objects do the same work; only the Result depends on the path. -/
theorem channelEnforce_eq (clock : Clock) (fuel : Nat) (ch : ChannelDefault) (context : Context)
    (buffer : Buffer) (size : Nat) (result : Result) :
    ch.channelEnforce opt hash clock fuel context buffer size result =
      ch.finishRequest opt context buffer size
        (ch.submissionQueue.enforceMechanism hash clock fuel
          (ch.buildTicket context buffer size).1 (result.setTicketId ch.ticketId)) := by
  simp only [channelEnforce, finishRequest, buildTicket_snd, buildTicket_ticketId,
    enqueueAndDequeue_eq, SubmissionQueue.enqueueFastPath]
  cases ch.useFastPath with
  | true => rfl
  | false =>
    simp only [Bool.false_eq_true, if_false]
    cases ch.submissionQueue.enforceMechanism hash clock fuel
        (ch.buildTicket context buffer size).1 (result.setTicketId ch.ticketId) with
    | error f => rfl
    | ok out => rfl

/-- A request that comes back has counted one ticket, worked on the objects and updated the
statistics; nothing else of the channel changes. -/
theorem channelEnforce_cases {clock : Clock} {fuel : Nat} {ch ch' : ChannelDefault}
    {context : Context} {buffer : Buffer} {size : Nat} {result result' : Result}
    (h : ch.channelEnforce opt hash clock fuel context buffer size result = .ok (ch', result')) :
    ∃ q result'' stats,
      ch.submissionQueue.enforceMechanism hash clock fuel (ch.buildTicket context buffer size).1
        (result.setTicketId ch.ticketId) = .ok (q, result'') ∧
      ch' = { ch with
        ticketId := ch.ticketId + 1
        submissionQueue := q
        channelStatistics := stats } := by
  simp only [channelEnforce_eq, finishRequest] at h
  split at h
  · cases h
  · rename_i q result'' hq
    split at h
    · rename_i ch'' hs
      cases h
      obtain ⟨stats, rfl⟩ := recordStatistics_cases opt hs
      exact ⟨q, result'', stats, hq, rfl⟩
    · cases h

/-- The object that `create_enforcement_object` leaves under a new token: a rate limiter with
configurations is initialised with them. -/
def initialObject (ch : ChannelDefault) (clock : Clock) (objectId : Int)
    (type : EnforcementObjectType) (configurations : List Int) : Except Fault EnforcementObject :=
  if configurations ≠ [] ∧ type = .drl then
    match (ch.newObject clock objectId type).objConfigure DRLConfiguration.init.toInt
        configurations with
    | .ok (object, _) => .ok object
    | .error f => .error f
  else .ok (ch.newObject clock objectId type)

theorem initialObject_id {ch : ChannelDefault} {clock : Clock} {objectId : Int}
    {type : EnforcementObjectType} {configurations : List Int} {object : EnforcementObject}
    (h : ch.initialObject clock objectId type configurations = .ok object) :
    object.getEnforcementObjectId = objectId := by
  have hnew : (ch.newObject clock objectId type).getEnforcementObjectId = objectId := by
    cases type <;> rfl
  simp only [initialObject] at h
  split at h
  · split at h
    · rename_i o status ho
      cases h
      exact (EnforcementObject.objConfigure_id ho).trans hnew
    · cases h
  · cases h
    exact hnew

/-- The channel with one more object and its linker. -/
def addObject (ch : ChannelDefault) (objectId : Int) (token : UInt32)
    (object : EnforcementObject) : ChannelDefault :=
  { ch with
    submissionQueue :=
      { ch.submissionQueue with
        enfObjects := ch.submissionQueue.enfObjects ++ [(token, object)] }
    objectIdToTokenLinkers := ch.objectIdToTokenLinkers ++ [(objectId, token)] }

/-- Only a rate limiter with one value faults. -/
theorem initialObject_error_iff {ch : ChannelDefault} {clock : Clock} {objectId : Int}
    {type : EnforcementObjectType} {configurations : List Int} :
    (∃ f, ch.initialObject clock objectId type configurations = .error f) ↔
      type = .drl ∧ configurations.length = 1 := by
  cases type with
  | noop => simp [initialObject]
  | drl =>
    have hinit : DRLConfiguration.ofInt DRLConfiguration.init.toInt = some .init := rfl
    rcases configurations with _ | ⟨_, _ | ⟨_, _⟩⟩ <;>
      simp [initialObject, newObject, EnforcementObject.objConfigure,
        DynamicRateLimiter.objConfigure, hinit]

theorem objConfigure_init_status {ch : ChannelDefault} {clock : Clock} {objectId : Int}
    {type : EnforcementObjectType} {configurations : List Int} {object : EnforcementObject}
    {status : PStatus}
    (h : (ch.newObject clock objectId type).objConfigure DRLConfiguration.init.toInt
      configurations = .ok (object, status)) : status = .ok := by
  cases type with
  | drl =>
    have hinit : DRLConfiguration.ofInt DRLConfiguration.init.toInt = some .init := rfl
    simp only [newObject, EnforcementObject.objConfigure, DynamicRateLimiter.objConfigure,
      hinit] at h
    rcases configurations with _ | ⟨_, _ | ⟨_, _⟩⟩
    · simp at h
    · simp at h
    · simp only [Except.ok.injEq, Prod.mk.injEq] at h
      exact h.2.symm
  | noop =>
    simp only [newObject, EnforcementObject.objConfigure, Except.ok.injEq, Prod.mk.injEq] at h
    exact h.2.symm

/-- An object is created exactly when its type exists and its token is free; otherwise the channel
stays as it was. -/
theorem createEnforcementObject_eq (clock : Clock) (ch : ChannelDefault) (objectId : Int)
    (pair : ObjectDifferentiationPair) (objectType : Option EnforcementObjectType)
    (configurations : List Int) :
    ch.createEnforcementObject hash clock objectId pair objectType configurations =
      match objectType with
      | none => .ok (ch, .notSupported)
      | some type =>
        if ch.submissionQueue.buildObjectToken hash pair ∈
            AssocList.keys ch.submissionQueue.enfObjects then .ok (ch, .error)
        else
          match ch.initialObject clock objectId type configurations with
          | .ok object =>
            .ok (ch.addObject objectId (ch.submissionQueue.buildObjectToken hash pair) object, .ok)
          | .error f => .error f := by
  cases objectType with
  | none => rfl
  | some type =>
    simp only [createEnforcementObject, SubmissionQueue.createEnforcementObject,
      SubmissionQueue.selectEnforcementObject]
    generalize ch.submissionQueue.buildObjectToken hash pair = token
    by_cases htoken : token ∈ AssocList.keys ch.submissionQueue.enfObjects
    · obtain ⟨object, ho⟩ := AssocList.exists_lookup_iff_mem.mpr htoken
      simp [htoken, ho, PStatus.isOk]
    · have hl := AssocList.lookup_eq_none_iff_notMem.mpr htoken
      have hself := AssocList.lookup_append_singleton_self
        (ch.newObject clock objectId type) htoken
      simp only [hl, htoken, if_false, PStatus.isOk, decide_true, if_true,
        createNewEnforcementObjectLinker, SubmissionQueue.configureEnforcementObject,
        SubmissionQueue.selectEnforcementObject, hself, initialObject]
      split
      · cases hc : (ch.newObject clock objectId type).objConfigure
          DRLConfiguration.init.toInt configurations with
        | error f => rfl
        | ok os =>
          obtain ⟨object, status⟩ := os
          rw [objConfigure_init_status hc]
          simp [addObject, AssocList.replaceFirst_append_singleton _ _ htoken]
      · rfl

/-- A call that comes back either creates nothing or puts one object under a free token. -/
theorem createEnforcementObject_cases {clock : Clock} {ch ch' : ChannelDefault} {objectId : Int}
    {pair : ObjectDifferentiationPair} {objectType : Option EnforcementObjectType}
    {configurations : List Int} {status : PStatus}
    (h : ch.createEnforcementObject hash clock objectId pair objectType configurations =
      .ok (ch', status)) :
    (ch' = ch ∧ status ≠ .ok ∧
      (objectType = none ∨ ch.submissionQueue.buildObjectToken hash pair ∈
        AssocList.keys ch.submissionQueue.enfObjects)) ∨
    ∃ type object, objectType = some type ∧ status = .ok ∧
      ch.submissionQueue.buildObjectToken hash pair ∉
        AssocList.keys ch.submissionQueue.enfObjects ∧
      ch.initialObject clock objectId type configurations = .ok object ∧
      ch' = ch.addObject objectId (ch.submissionQueue.buildObjectToken hash pair) object := by
  rw [createEnforcementObject_eq] at h
  split at h
  · cases h
    exact .inl ⟨rfl, by simp, .inl rfl⟩
  · rename_i type
    split at h
    · rename_i htaken
      cases h
      exact .inl ⟨rfl, by simp, .inr htaken⟩
    · rename_i hfree
      split at h
      · rename_i object hobject
        cases h
        exact .inr ⟨type, object, rfl, rfl, hfree, hobject, rfl⟩
      · cases h

theorem lookup_getEnforcementObjectDiffToken (ch : ChannelDefault) {objectId : Int}
    (h : ch.getEnforcementObjectDiffToken objectId ≠ noToken) :
    ch.objectIdToTokenLinkers.lookup objectId = some (ch.getEnforcementObjectDiffToken objectId) :=
  AssocList.lookup_of_getD_ne h

/-- Configuring an object touches at most the value of one entry. -/
theorem configureEnforcementObject_cases {ch ch' : ChannelDefault} {objectId config : Int}
    {configurations : List Int} {status : PStatus}
    (h : ch.configureEnforcementObject objectId config configurations = .ok (ch', status)) :
    (ch' = ch ∧ status = .error) ∨
    ∃ token object object', ch.objectIdToTokenLinkers.lookup objectId = some token ∧
      ch.submissionQueue.enfObjects.lookup token = some object ∧
      object.objConfigure config configurations = .ok (object', status) ∧
      ch' = { ch with
        submissionQueue :=
          { ch.submissionQueue with
            enfObjects :=
              AssocList.replaceFirst token object' ch.submissionQueue.enfObjects } } := by
  simp only [configureEnforcementObject] at h
  split at h
  · cases h; exact .inl ⟨rfl, rfl⟩
  · rename_i htoken
    have hl := ch.lookup_getEnforcementObjectDiffToken htoken
    split at h
    · rename_i q status' hq
      cases h
      simp only [SubmissionQueue.configureEnforcementObject,
        SubmissionQueue.selectEnforcementObject] at hq
      split at hq
      · cases hq; exact .inl ⟨rfl, rfl⟩
      · rename_i object ho
        split at hq
        · rename_i object' status' hc
          cases hq
          exact .inr ⟨_, object, object', hl, ho, hc, rfl⟩
        · cases hq
    · cases h

end ChannelDefault

end Paio
