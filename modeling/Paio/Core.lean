import Paio.Channel

/-!
# Paio.Core

The core of a data plane stage: the channels under their tokens, the linkers from channel
identifiers to tokens, the channel differentiation and the housekeeping table, and the calls that
change them.

A call that creates channels or objects reads the clock, so it takes one.
`execute_housekeeping_rules` visits the table in the order of an `unordered_map`, which is not
fixed: the order is an argument, and `IsIterationOrder` says which orders are possible.
-/

namespace Paio

/-! ## Housekeeping rules -/

inductive HousekeepingOperation where
  | createChannel
  | createObject
  | configure
  | remove
  | noOp
  deriving DecidableEq, Repr

structure HousekeepingRule where
  ruleId : UInt64 := 0
  ruleType : HousekeepingOperation := .noOp
  channelId : Int := -1
  enforcementObjectId : Int := -1
  properties : List Int := []
  enforced : Bool := false
  deriving DecidableEq, Repr

namespace HousekeepingRule

def getPropertiesSize (r : HousekeepingRule) : Int := toInt32 r.properties.length

/-- `-1` when there is no property at the index. -/
def getPropertyAtIndex (r : HousekeepingRule) (index : Nat) : Int :=
  if r.getPropertiesSize ≥ index + 1 then r.properties.getD index (-1) else -1

/-- The properties from `beginIndex` to `endIndex`, or nothing when a bound is out of range. -/
def getPropertiesAtRange (r : HousekeepingRule) (beginIndex endIndex : Int) : List Int :=
  if r.getPropertiesSize ≥ beginIndex + 1 ∧ r.getPropertiesSize ≥ endIndex + 1 ∧
      beginIndex ≤ endIndex then
    (r.properties.drop beginIndex.toNat).take (endIndex + 1 - beginIndex).toNat
  else []

/-- The channel classifiers of a `create_channel` rule. -/
def channelTuple (r : HousekeepingRule) : ChannelDifferentiationTuple where
  workflowIdentifier := toUInt32 (r.getPropertyAtIndex 1)
  operationType := toUInt32 (r.getPropertyAtIndex 2)
  operationContext := toUInt32 (r.getPropertyAtIndex 3)

/-- The object classifiers of a `create_object` rule. -/
def objectPair (r : HousekeepingRule) : ObjectDifferentiationPair where
  operationType := toUInt32 (r.getPropertyAtIndex 1)
  operationContext := toUInt32 (r.getPropertyAtIndex 2)

def objectType (r : HousekeepingRule) : Option EnforcementObjectType :=
  EnforcementObjectType.ofLong (r.getPropertyAtIndex 3)

/-- The initial configurations of a `create_object` rule. -/
def objectConfigurations (r : HousekeepingRule) : List Int :=
  r.getPropertiesAtRange 4 (r.getPropertiesSize - 1)

end HousekeepingRule

/-! ## The housekeeping table -/

structure HousekeepingTable where
  housekeepingRules : UnorderedMap UInt64 HousekeepingRule := ∅
  numberOfRules : Int := 0
  numberOfRulesLeftToEmploy : Int := 0

namespace HousekeepingTable

/-- The overload that copies a rule, under the rule's own identifier. -/
def insertHousekeepingRule (t : HousekeepingTable) (rule : HousekeepingRule) :
    HousekeepingTable × PStatus :=
  match t.housekeepingRules.lookup rule.ruleId with
  | none =>
    ({ housekeepingRules := t.housekeepingRules.insert rule.ruleId rule
       numberOfRules := t.numberOfRules + 1
       numberOfRulesLeftToEmploy := t.numberOfRulesLeftToEmploy + 1 }, .ok)
  | some _ => (t, .error)

/-- The overload that constructs the rule from its members. -/
def insertHousekeepingRuleOf (t : HousekeepingTable) (ruleId : UInt64)
    (operation : HousekeepingOperation) (channelId enforcementObjectId : Int)
    (properties : List Int) : HousekeepingTable × PStatus :=
  t.insertHousekeepingRule
    { ruleId := ruleId
      ruleType := operation
      channelId := channelId
      enforcementObjectId := enforcementObjectId
      properties := properties }

def selectHousekeepingRule (t : HousekeepingTable) (ruleId : UInt64) : Option HousekeepingRule :=
  t.housekeepingRules.lookup ruleId

def markHousekeepingRuleAsEnforced (t : HousekeepingTable) (ruleId : UInt64) :
    HousekeepingTable × PStatus :=
  match t.housekeepingRules.lookup ruleId with
  | some rule =>
    if !rule.enforced then
      ({ t with
         housekeepingRules := t.housekeepingRules.insert ruleId { rule with enforced := true }
         numberOfRulesLeftToEmploy := t.numberOfRulesLeftToEmploy - 1 }, .ok)
    else (t, .error)
  | none => (t, .notFound)

def removeHousekeepingRule (t : HousekeepingTable) (ruleId : UInt64) :
    HousekeepingTable × PStatus :=
  match t.housekeepingRules.lookup ruleId with
  | some rule =>
    let left := if !rule.enforced then t.numberOfRulesLeftToEmploy - 1
      else t.numberOfRulesLeftToEmploy
    ({ housekeepingRules := t.housekeepingRules.erase ruleId
       numberOfRules := t.numberOfRules - 1
       numberOfRulesLeftToEmploy := left }, .ok)
  | none => (t, .notFound)

/-- `get_housekeeping_table_size`. The counter is an `std::atomic<int>`, which wraps around; reading
it as an `int` gives what the wrapped counter holds. -/
def getHousekeepingTableSize (t : HousekeepingTable) : Int := toInt32 t.numberOfRules

def getTotalOfRulesLeftToEmploy (t : HousekeepingTable) : Int :=
  toInt32 t.numberOfRulesLeftToEmploy

/-- The table after a rule with a new identifier was inserted. -/
def stage (t : HousekeepingTable) (rule : HousekeepingRule) : HousekeepingTable where
  housekeepingRules := t.housekeepingRules.insert rule.ruleId rule
  numberOfRules := t.numberOfRules + 1
  numberOfRulesLeftToEmploy := t.numberOfRulesLeftToEmploy + 1

/-- A rule is inserted exactly when its identifier is new. -/
theorem insertHousekeepingRule_eq (t : HousekeepingTable) (rule : HousekeepingRule) :
    t.insertHousekeepingRule rule =
      if rule.ruleId ∈ t.housekeepingRules then (t, .error) else (t.stage rule, .ok) := by
  simp only [insertHousekeepingRule]
  split
  · rename_i h
    rw [if_neg (Finmap.lookup_eq_none.mp h)]
    rfl
  · rename_i h
    rw [if_pos (Finmap.mem_of_lookup_eq_some h)]

@[simp] theorem selectHousekeepingRule_stage (t : HousekeepingTable) (rule : HousekeepingRule) :
    (t.stage rule).selectHousekeepingRule rule.ruleId = some rule :=
  Finmap.lookup_insert _

theorem mem_markHousekeepingRuleAsEnforced {t : HousekeepingTable} {ruleId id : UInt64} :
    id ∈ (t.markHousekeepingRuleAsEnforced ruleId).1.housekeepingRules ↔
      id ∈ t.housekeepingRules := by
  simp only [markHousekeepingRuleAsEnforced]
  split
  · rename_i rule h
    split
    · rw [Finmap.mem_insert, or_iff_right_of_imp]
      rintro rfl
      exact Finmap.mem_of_lookup_eq_some h
    · rfl
  · rfl

/-- A list of identifiers in which an iteration over the table may visit its rules. -/
def IsIterationOrder (t : HousekeepingTable) (order : List UInt64) : Prop :=
  order.Nodup ∧ ∀ id, id ∈ order ↔ id ∈ t.housekeepingRules

end HousekeepingTable

/-! ## The core -/

structure Core where
  channels : UnorderedMap UInt32 ChannelDefault := ∅
  channelIdToTokenLinkers : List (Int × UInt32) := []
  channelDiffBuilder : ChannelHashingDifferentiation
  housekeepingTable : HousekeepingTable := {}
  defineDefaultObjectDifferentiation : Bool

/-- The channel classifiers of a request: `long` and `int` values converted to `uint32_t`. -/
def Context.channelTuple (c : Context) : ChannelDifferentiationTuple where
  workflowIdentifier := toUInt32 c.workflowId
  operationType := toUInt32 c.operationType
  operationContext := toUInt32 c.operationContext

namespace Core

variable (opt : Options) (hash : String → UInt32)

def defineChannelDifferentiation (core : Core) (workflow operationType operationContext : Bool) :
    Core :=
  { core with
    channelDiffBuilder :=
      (core.channelDiffBuilder.setClassifiers workflow operationType operationContext).bindBuilder }

/-- The token of a channel's classifiers, as the core builds it at present. -/
abbrev channelToken (core : Core) (tuple : ChannelDifferentiationTuple) : UInt32 :=
  core.channelDiffBuilder.buildDifferentiationToken hash tuple

def selectChannel (core : Core) (token : UInt32) : Option ChannelDefault :=
  core.channels.lookup token

def setChannel (core : Core) (token : UInt32) (channel : ChannelDefault) : Core :=
  { core with channels := core.channels.insert token channel }

def doesChannelTokenExist (core : Core) (token : UInt32) : Bool :=
  (core.channels.lookup token).isSome

def doesChannelIdExist (core : Core) (channelId : Int) : Bool :=
  (core.channelIdToTokenLinkers.find? fun element => element.1 = channelId).isSome

/-- `static_cast<diff_token_t> (-1)` when the identifier is not linked. -/
def getChannelDiffToken (core : Core) (channelId : Int) : UInt32 :=
  (core.channelIdToTokenLinkers.lookup channelId).getD noToken

def createNewChannelLinker (core : Core) (channelId : Int) (token : UInt32) : Core :=
  { core with channelIdToTokenLinkers := core.channelIdToTokenLinkers ++ [(channelId, token)] }

/-- The channel that `create_channel` leaves under a new token. -/
def newChannel (core : Core) (clock : Clock) (channelId : Int) : ChannelDefault :=
  let channel := ChannelDefault.new opt channelId clock
  if core.defineDefaultObjectDifferentiation then
    channel.defineObjectDifferentiation opt.objectDifferentiationOperationType
      opt.objectDifferentiationOperationContext
  else channel

def createChannel (clock : Clock) (core : Core) (channelId : Int)
    (tuple : ChannelDifferentiationTuple) : Core × PStatus :=
  let channelToken := core.channelDiffBuilder.buildDifferentiationToken hash tuple
  if !core.doesChannelTokenExist channelToken && !core.doesChannelIdExist channelId then
    ((core.setChannel channelToken (core.newChannel opt clock channelId)).createNewChannelLinker
      channelId channelToken, .ok)
  else (core, .error)

/-- What every call that names a channel by its identifier does: it looks the token up, gives up
when there is none, and otherwise lets the channel under the token do the work. -/
def onChannel (core : Core) (channelId : Int)
    (work : ChannelDefault → Except Fault (ChannelDefault × PStatus)) :
    Except Fault (Core × PStatus) :=
  let channelToken := core.getChannelDiffToken channelId
  if channelToken = noToken then .ok (core, .error)
  else
    match core.selectChannel channelToken with
    | some channel =>
      match work channel with
      | .ok (channel', status) => .ok (core.setChannel channelToken channel', status)
      | .error f => .error f
    | none => .ok (core, .error)

def createEnforcementObject (clock : Clock) (core : Core) (channelId objectId : Int)
    (pair : ObjectDifferentiationPair) (objectType : Option EnforcementObjectType)
    (configurations : List Int) : Except Fault (Core × PStatus) :=
  core.onChannel channelId fun channel =>
    channel.createEnforcementObject hash clock objectId pair objectType configurations

def defineEnforcementObjectDifferentiation (core : Core) (channelId : Int)
    (operationType operationContext : Bool) : Except Fault (Core × PStatus) :=
  core.onChannel channelId fun channel =>
    .ok (channel.defineObjectDifferentiation operationType operationContext, .ok)

/-! ### Constructors -/

/-- The default constructor. -/
def new : Core where
  channelDiffBuilder := .bound opt.channelDifferentiationWorkflow
    opt.channelDifferentiationOperationType opt.channelDifferentiationOperationContext
  defineDefaultObjectDifferentiation := opt.defineDefaultObjectDifferentiationOnCreateChannel

/-- The classifiers of the `i`-th default channel. -/
def defaultTuple (i : Int) : ChannelDifferentiationTuple where
  workflowIdentifier := toUInt32 i
  operationType := toUInt32 noOp
  operationContext := toUInt32 noOp

def defaultPair : ObjectDifferentiationPair where
  operationType := toUInt32 noOp
  operationContext := toUInt32 noOp

/-- One pass through the loop of the parameterized constructor. The default object is a `noop`
without configurations, so its creation cannot fault. -/
def createDefaultChannel (clock : Clock) (createDefaultObjects : Bool) (core : Core) (i : Int) :
    Core :=
  let (core', status) := core.createChannel opt hash clock i (defaultTuple i)
  if createDefaultObjects && status.isOk then
    match core'.createEnforcementObject hash clock i 0 defaultPair (some .noop) [] with
    | .ok (core'', _) => core''
    | .error _ => core'
  else core'

/-- The parameterized constructor; `clock i` are the readings of the `i`-th pass. -/
def newWith (channels : Int) (createDefaultChannels createDefaultObjects : Bool)
    (clock : Nat → Clock) : Core :=
  if createDefaultChannels then
    (List.range channels.toNat).foldl
      (fun core i => core.createDefaultChannel opt hash (clock i) createDefaultObjects (i + 1))
      (new opt)
  else new opt

/-! ### Requests and rules -/

def enforceRequest (clock : Clock) (fuel : Nat) (core : Core) (context : Context)
    (buffer : Buffer) (size : Nat) (result : Result) : Except Fault (Core × Result) :=
  let channelToken := core.channelDiffBuilder.buildDifferentiationToken hash context.channelTuple
  match core.selectChannel channelToken with
  | some channel =>
    match channel.channelEnforce opt hash clock fuel context buffer size result with
    | .ok (channel', result') => .ok (core.setChannel channelToken channel', result')
    | .error f => .error f
  | none => .ok (core, result)

def employEnforcementRule (core : Core) (channelId objectId : Int) (ruleType : Int)
    (configurations : List Int) : Except Fault (Core × PStatus) :=
  core.onChannel channelId fun channel =>
    channel.configureEnforcementObject objectId ruleType configurations

def insertHousekeepingRule (core : Core) (rule : HousekeepingRule) : Core × PStatus :=
  let (table, status) := core.housekeepingTable.insertHousekeepingRule rule
  ({ core with housekeepingTable := table }, status)

def insertHousekeepingRuleOf (core : Core) (ruleId : UInt64) (operation : HousekeepingOperation)
    (channelId enforcementObjectId : Int) (properties : List Int) : Core × PStatus :=
  let (table, status) := core.housekeepingTable.insertHousekeepingRuleOf ruleId operation channelId
    enforcementObjectId properties
  ({ core with housekeepingTable := table }, status)

/-- The switch of `execute_housekeeping_rule` on a rule that is not yet enforced. -/
def employRule (clock : Clock) (core : Core) (rule : HousekeepingRule) :
    Except Fault (Core × Completion) :=
  match rule.ruleType with
  | .createChannel =>
    let (core', status) := core.createChannel opt hash clock rule.channelId rule.channelTuple
    .ok (core', .returned status)
  | .createObject =>
    match core.createEnforcementObject hash clock rule.channelId rule.enforcementObjectId
        rule.objectPair rule.objectType rule.objectConfigurations with
    | .ok (core', status) => .ok (core', .returned status)
    | .error f => .error f
  | .configure | .remove | .noOp => .ok (core, .threw "HousekeepingOperation type not supported")

def markEnforced (core : Core) (ruleId : UInt64) : Core :=
  { core with
    housekeepingTable := (core.housekeepingTable.markHousekeepingRuleAsEnforced ruleId).1 }

def executeHousekeepingRule (clock : Clock) (core : Core) (ruleId : UInt64) :
    Except Fault (Core × Completion) :=
  match core.housekeepingTable.selectHousekeepingRule ruleId with
  | none => .ok (core, .returned .notFound)
  | some rule =>
    if rule.enforced then .ok (core, .returned .enforced)
    else
      match core.employRule opt hash clock rule with
      | .ok (core', .returned .ok) => .ok (core'.markEnforced ruleId, .returned .ok)
      | .ok (core', completion) => .ok (core', completion)
      | .error f => .error f

/-- The loop of `execute_housekeeping_rules`: `status` is the status of the last rule executed. -/
def executeRulesLoop (clock : UInt64 → Clock) : List UInt64 → PStatus → Core →
    Except Fault (Core × Completion)
  | [], status, core => .ok (core, .returned status)
  | ruleId :: rest, status, core =>
    match core.housekeepingTable.housekeepingRules.lookup ruleId with
    | none => executeRulesLoop clock rest status core
    | some rule =>
      if rule.enforced then executeRulesLoop clock rest status core
      else
        match core.executeHousekeepingRule opt hash (clock ruleId) ruleId with
        | .ok (core', .returned status') =>
          if status'.isError then .ok (core', .returned .error)
          else executeRulesLoop clock rest status' core'
        | .ok (core', .threw what) => .ok (core', .threw what)
        | .error f => .error f

/-- `execute_housekeeping_rules`, visiting the table in the given order; `clock id` are the
readings made while the rule `id` is executed. -/
def executeHousekeepingRules (clock : UInt64 → Clock) (order : List UInt64) (core : Core) :
    Except Fault (Core × Completion) :=
  core.executeRulesLoop opt hash clock order .error

/-- `get_total_channels`: the number of linkers as an `int`. -/
def getTotalChannels (core : Core) : Int := toInt32 core.channelIdToTokenLinkers.length

/-! ### What a call can do -/

theorem doesChannelTokenExist_iff {core : Core} {token : UInt32} :
    core.doesChannelTokenExist token = true ↔ token ∈ core.channels := by
  rw [doesChannelTokenExist, Finmap.lookup_isSome]

theorem doesChannelIdExist_iff {core : Core} {channelId : Int} :
    core.doesChannelIdExist channelId = true ↔
      channelId ∈ AssocList.keys core.channelIdToTokenLinkers := by
  simp [doesChannelIdExist, AssocList.keys]

/-- The core after a rule with a new identifier was inserted. -/
def stage (core : Core) (rule : HousekeepingRule) : Core :=
  { core with housekeepingTable := core.housekeepingTable.stage rule }

theorem insertHousekeepingRule_eq (core : Core) (rule : HousekeepingRule) :
    core.insertHousekeepingRule rule =
      if rule.ruleId ∈ core.housekeepingTable.housekeepingRules then (core, .error)
      else (core.stage rule, .ok) := by
  simp only [insertHousekeepingRule, HousekeepingTable.insertHousekeepingRule_eq]
  split <;> rfl

/-- Executing a rule that is in the table and not enforced runs its operation. -/
theorem executeHousekeepingRule_pending (clock : Clock) {core : Core} {ruleId : UInt64}
    {rule : HousekeepingRule}
    (hsel : core.housekeepingTable.selectHousekeepingRule ruleId = some rule)
    (henf : rule.enforced = false) :
    core.executeHousekeepingRule opt hash clock ruleId =
      match core.employRule opt hash clock rule with
      | .ok (core', .returned .ok) => .ok (core'.markEnforced ruleId, .returned .ok)
      | .ok (core', completion) => .ok (core', completion)
      | .error f => .error f := by
  rw [executeHousekeepingRule, hsel]
  simp only [henf, Bool.false_eq_true, if_false]

/-- A channel is created exactly when neither its token nor its identifier is taken. -/
theorem createChannel_cases (clock : Clock) (core : Core) (channelId : Int)
    (tuple : ChannelDifferentiationTuple) :
    (core.channelDiffBuilder.buildDifferentiationToken hash tuple ∉ core.channels ∧
      channelId ∉ AssocList.keys core.channelIdToTokenLinkers ∧
      core.createChannel opt hash clock channelId tuple =
        ((core.setChannel (core.channelDiffBuilder.buildDifferentiationToken hash tuple)
          (core.newChannel opt clock channelId)).createNewChannelLinker channelId
            (core.channelDiffBuilder.buildDifferentiationToken hash tuple), .ok)) ∨
    ((core.channelDiffBuilder.buildDifferentiationToken hash tuple ∈ core.channels ∨
      channelId ∈ AssocList.keys core.channelIdToTokenLinkers) ∧
      core.createChannel opt hash clock channelId tuple = (core, .error)) := by
  simp only [createChannel]
  split
  · rename_i h
    simp only [Bool.and_eq_true, Bool.not_eq_true', ← Bool.not_eq_true,
      doesChannelTokenExist_iff, doesChannelIdExist_iff] at h
    exact .inl ⟨h.1, h.2, rfl⟩
  · rename_i h
    simp only [Bool.and_eq_true, Bool.not_eq_true', ← Bool.not_eq_true,
      doesChannelTokenExist_iff, doesChannelIdExist_iff, not_and_or, not_not] at h
    exact .inr ⟨h, rfl⟩

theorem lookup_getChannelDiffToken (core : Core) {channelId : Int}
    (h : core.getChannelDiffToken channelId ≠ noToken) :
    core.channelIdToTokenLinkers.lookup channelId = some (core.getChannelDiffToken channelId) :=
  AssocList.lookup_of_getD_ne h

/-- A call that names a channel either gives up or lets the channel of the identifier work. -/
theorem onChannel_cases {core core' : Core} {channelId : Int} {status : PStatus}
    {work : ChannelDefault → Except Fault (ChannelDefault × PStatus)}
    (h : core.onChannel channelId work = .ok (core', status)) :
    (core' = core ∧ status = .error) ∨
    ∃ token channel channel', core.channelIdToTokenLinkers.lookup channelId = some token ∧
      token ≠ noToken ∧ core.selectChannel token = some channel ∧
      work channel = .ok (channel', status) ∧ core' = core.setChannel token channel' := by
  simp only [onChannel] at h
  split at h
  · cases h; exact .inl ⟨rfl, rfl⟩
  · rename_i htoken
    have hl := core.lookup_getChannelDiffToken htoken
    split at h
    · rename_i channel hch
      split at h
      · rename_i channel' status' hw
        cases h
        exact .inr ⟨_, channel, channel', hl, htoken, hch, hw, rfl⟩
      · cases h
    · cases h; exact .inl ⟨rfl, rfl⟩

theorem onChannel_of_lookup {core : Core} {channelId : Int} {token : UInt32}
    {channel : ChannelDefault} {work : ChannelDefault → Except Fault (ChannelDefault × PStatus)}
    (hl : core.channelIdToTokenLinkers.lookup channelId = some token) (htoken : token ≠ noToken)
    (hsel : core.selectChannel token = some channel) :
    core.onChannel channelId work =
      match work channel with
      | .ok (channel', status) => .ok (core.setChannel token channel', status)
      | .error f => .error f := by
  simp [onChannel, getChannelDiffToken, hl, htoken, hsel]

theorem onChannel_of_notMem {core : Core} {channelId : Int}
    {work : ChannelDefault → Except Fault (ChannelDefault × PStatus)}
    (h : channelId ∉ AssocList.keys core.channelIdToTokenLinkers) :
    core.onChannel channelId work = .ok (core, .error) := by
  simp [onChannel, getChannelDiffToken, AssocList.lookup_eq_none_iff_notMem.mpr h]

theorem createEnforcementObject_of_lookup {clock : Clock} {core : Core} {channelId objectId : Int}
    {pair : ObjectDifferentiationPair} {objectType : Option EnforcementObjectType}
    {configurations : List Int} {token : UInt32} {channel channel' : ChannelDefault}
    {status : PStatus} (hl : core.channelIdToTokenLinkers.lookup channelId = some token)
    (htoken : token ≠ noToken) (hsel : core.selectChannel token = some channel)
    (hc : channel.createEnforcementObject hash clock objectId pair objectType configurations =
      .ok (channel', status)) :
    core.createEnforcementObject hash clock channelId objectId pair objectType configurations =
      .ok (core.setChannel token channel', status) := by
  rw [createEnforcementObject, onChannel_of_lookup hl htoken hsel, hc]

/-- A request either finds no channel or is handed to the channel under its token. -/
theorem enforceRequest_cases {clock : Clock} {fuel : Nat} {core core' : Core} {context : Context}
    {buffer : Buffer} {size : Nat} {result result' : Result}
    (h : core.enforceRequest opt hash clock fuel context buffer size result = .ok (core', result')) :
    (core.selectChannel
        (core.channelDiffBuilder.buildDifferentiationToken hash context.channelTuple) = none ∧
      core' = core ∧ result' = result) ∨
    ∃ channel channel', core.selectChannel
        (core.channelDiffBuilder.buildDifferentiationToken hash context.channelTuple) =
          some channel ∧
      channel.channelEnforce opt hash clock fuel context buffer size result =
        .ok (channel', result') ∧
      core' = core.setChannel
        (core.channelDiffBuilder.buildDifferentiationToken hash context.channelTuple) channel' := by
  simp only [enforceRequest] at h
  split at h
  · rename_i channel hch
    split at h
    · rename_i channel' result'' hw
      cases h
      exact .inr ⟨channel, channel', hch, hw, rfl⟩
    · cases h
  · rename_i hch
    cases h
    exact .inl ⟨hch, rfl, rfl⟩

theorem employRule_createChannel (clock : Clock) (core : Core) {rule : HousekeepingRule}
    (h : rule.ruleType = .createChannel) :
    core.employRule opt hash clock rule =
      .ok ((core.createChannel opt hash clock rule.channelId rule.channelTuple).1,
        .returned (core.createChannel opt hash clock rule.channelId rule.channelTuple).2) := by
  rw [employRule, h]

theorem employRule_createObject (clock : Clock) (core : Core) {rule : HousekeepingRule}
    (h : rule.ruleType = .createObject) :
    core.employRule opt hash clock rule =
      match core.createEnforcementObject hash clock rule.channelId rule.enforcementObjectId
          rule.objectPair rule.objectType rule.objectConfigurations with
      | .ok (core', status) => .ok (core', .returned status)
      | .error f => .error f := by
  rw [employRule, h]

/-- A rule creates a channel, creates an object or throws, by its type. -/
theorem employRule_cases {clock : Clock} {core core' : Core} {rule : HousekeepingRule}
    {completion : Completion}
    (h : core.employRule opt hash clock rule = .ok (core', completion)) :
    (∃ status, rule.ruleType = .createChannel ∧
      core.createChannel opt hash clock rule.channelId rule.channelTuple = (core', status) ∧
      completion = .returned status) ∨
    (∃ status, rule.ruleType = .createObject ∧
      core.createEnforcementObject hash clock rule.channelId rule.enforcementObjectId
        rule.objectPair rule.objectType rule.objectConfigurations = .ok (core', status) ∧
      completion = .returned status) ∨
    (∃ what, rule.ruleType ≠ .createChannel ∧ rule.ruleType ≠ .createObject ∧ core' = core ∧
      completion = .threw what) := by
  cases ht : rule.ruleType with
  | createChannel =>
    rw [employRule_createChannel opt hash clock core ht] at h
    cases h
    exact .inl ⟨_, rfl, rfl, rfl⟩
  | createObject =>
    rw [employRule_createObject opt hash clock core ht] at h
    split at h
    · rename_i core₁ status hc
      cases h
      exact .inr (.inl ⟨status, rfl, hc, rfl⟩)
    · cases h
  | configure | remove | noOp =>
    rw [employRule, ht] at h
    cases h
    exact .inr (.inr ⟨_, by simp, by simp, rfl, rfl⟩)

/-- Executing a rule runs its operation on the same core, and at most marks the rule. -/
theorem executeHousekeepingRule_cases {clock : Clock} {core core' : Core} {ruleId : UInt64}
    {completion : Completion}
    (h : core.executeHousekeepingRule opt hash clock ruleId = .ok (core', completion)) :
    (core' = core ∧ completion ≠ .returned .ok) ∨
    ∃ rule core₁, core.housekeepingTable.selectHousekeepingRule ruleId = some rule ∧
      rule.enforced = false ∧
      core.employRule opt hash clock rule = .ok (core₁, completion) ∧
      core' = if completion = .returned .ok then core₁.markEnforced ruleId else core₁ := by
  simp only [executeHousekeepingRule] at h
  split at h
  · cases h; exact .inl ⟨rfl, by simp⟩
  · rename_i rule hrule
    split at h
    · cases h; exact .inl ⟨rfl, by simp⟩
    · rename_i hne
      simp only [Bool.not_eq_true] at hne
      split at h
      · rename_i core₁ he
        cases h
        exact .inr ⟨rule, core₁, hrule, hne, he, by simp⟩
      · rename_i core₁ completion' hok he
        cases h
        refine .inr ⟨rule, core', hrule, hne, he, ?_⟩
        rw [if_neg]
        rintro rfl
        exact hok rfl
      · cases h

end Core

end Paio
