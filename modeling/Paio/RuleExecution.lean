import Mathlib.Data.List.GetD
import Paio.FailedRules
import Paio.Registry

/-!
# Paio.RuleExecution

Executing a rule with whatever properties. Here every property is read through `propertyAt`, which
faults where `m_properties` has no such element; `executeReading_eq` says that the guards of
`get_property_at_index` and `get_properties_at_range` are enough. What is not guarded is the vector
of configurations that a rate limiter is initialised with: it takes two values, and a rule of five
properties hands it one.
-/

namespace Paio

namespace HousekeepingRule

variable (r : HousekeepingRule)

/-- `m_properties.at (index)`. -/
def propertyAt (index : Int) : Except Fault Int :=
  if 0 ≤ index then
    match r.properties[index.toNat]? with
    | some value => .ok value
    | none => .error .outOfBounds
  else .error .outOfBounds

/-- `get_property_at_index` with its read. -/
def readPropertyAtIndex (index : Nat) : Except Fault Int :=
  if r.getPropertiesSize ≥ index + 1 then r.propertyAt index else .ok (-1)

/-- The loop of `get_properties_at_range`, over `count` properties from `index` on. -/
def readProperties (index : Int) : Nat → Except Fault (List Int)
  | 0 => .ok []
  | count + 1 =>
    match r.propertyAt index with
    | .error f => .error f
    | .ok value =>
      match readProperties (index + 1) count with
      | .ok values => .ok (value :: values)
      | .error f => .error f

/-- `get_properties_at_range` with its reads. -/
def readPropertiesAtRange (beginIndex endIndex : Int) : Except Fault (List Int) :=
  if r.getPropertiesSize ≥ beginIndex + 1 ∧ r.getPropertiesSize ≥ endIndex + 1 ∧
      beginIndex ≤ endIndex then
    r.readProperties beginIndex (endIndex + 1 - beginIndex).toNat
  else .ok []

variable {r}

/-- The size that the guards compare with is not larger than the vector. -/
theorem getPropertiesSize_le (r : HousekeepingRule) :
    r.getPropertiesSize ≤ r.properties.length := by
  rw [getPropertiesSize, toInt32, Int.bmod_def]
  split <;> omega

theorem propertyAt_of_lt {index : Nat} (h : index < r.properties.length) :
    r.propertyAt index = .ok (r.properties.getD index (-1)) := by
  rw [propertyAt, if_pos (Int.natCast_nonneg index), Int.toNat_natCast, List.getElem?_eq_getElem h,
    List.getD_eq_getElem _ _ h]

theorem readPropertyAtIndex_eq (r : HousekeepingRule) (index : Nat) :
    r.readPropertyAtIndex index = .ok (r.getPropertyAtIndex index) := by
  have hle := r.getPropertiesSize_le
  unfold readPropertyAtIndex getPropertyAtIndex
  split
  · rename_i hsize
    exact propertyAt_of_lt (by omega)
  · rfl

theorem readProperties_eq {index count : Nat} (h : index + count ≤ r.properties.length) :
    r.readProperties index count = .ok ((r.properties.drop index).take count) := by
  induction count generalizing index with
  | zero => simp [readProperties]
  | succ count ih =>
    have hlt : index < r.properties.length := by omega
    have hrest : r.readProperties (index + 1 : Nat) count =
        .ok ((r.properties.drop (index + 1)).take count) := ih (by omega)
    push_cast at hrest
    rw [readProperties, propertyAt_of_lt hlt, hrest, List.drop_eq_getElem_cons hlt,
      List.getD_eq_getElem _ _ hlt]
    rfl

theorem readPropertiesAtRange_eq (r : HousekeepingRule) (beginIndex : Nat) (endIndex : Int) :
    r.readPropertiesAtRange beginIndex endIndex =
      .ok (r.getPropertiesAtRange beginIndex endIndex) := by
  have hle := r.getPropertiesSize_le
  unfold readPropertiesAtRange getPropertiesAtRange
  split
  · rw [readProperties_eq (by omega)]
    rfl
  · rfl

/-- There is one configuration when there are five properties. -/
theorem length_objectConfigurations (r : HousekeepingRule) :
    r.objectConfigurations.length = (r.getPropertiesSize - 4).toNat := by
  have hle := r.getPropertiesSize_le
  unfold objectConfigurations getPropertiesAtRange
  split
  · rw [List.length_take, List.length_drop]
    omega
  · rw [List.length_nil]
    omega

/-! ## What an operation reads -/

theorem ok_bind {α β : Type} (a : α) (next : α → Except Fault β) :
    (Except.ok a >>= next) = next a := rfl

variable (r)

def readChannelTuple : Except Fault ChannelDifferentiationTuple := do
  let workflowIdentifier ← r.readPropertyAtIndex 1
  let operationType ← r.readPropertyAtIndex 2
  let operationContext ← r.readPropertyAtIndex 3
  return { workflowIdentifier := toUInt32 workflowIdentifier
           operationType := toUInt32 operationType
           operationContext := toUInt32 operationContext }

def readObjectPair : Except Fault ObjectDifferentiationPair := do
  let operationType ← r.readPropertyAtIndex 1
  let operationContext ← r.readPropertyAtIndex 2
  return { operationType := toUInt32 operationType, operationContext := toUInt32 operationContext }

theorem readChannelTuple_eq : r.readChannelTuple = .ok r.channelTuple := by
  rw [readChannelTuple, readPropertyAtIndex_eq, readPropertyAtIndex_eq, readPropertyAtIndex_eq,
    ok_bind, ok_bind, ok_bind, channelTuple]
  rfl

theorem readObjectPair_eq : r.readObjectPair = .ok r.objectPair := by
  rw [readObjectPair, readPropertyAtIndex_eq, readPropertyAtIndex_eq, ok_bind, ok_bind, objectPair]
  rfl

end HousekeepingRule

/-! ## Executing a rule -/

namespace Core

section

variable (opt : Options) (hash : String → UInt32)

/-- The switch of `execute_housekeeping_rule`, with its reads. -/
def employReading (clock : Clock) (core : Core) (rule : HousekeepingRule) :
    Except Fault (Core × Completion) :=
  match rule.ruleType with
  | .createChannel => do
    let tuple ← rule.readChannelTuple
    let (core', status) := core.createChannel opt hash clock rule.channelId tuple
    return (core', .returned status)
  | .createObject => do
    let configurations ← rule.readPropertiesAtRange 4 (rule.getPropertiesSize - 1)
    let pair ← rule.readObjectPair
    let objectType ← rule.readPropertyAtIndex 3
    let (core', status) ← core.createEnforcementObject hash clock rule.channelId
      rule.enforcementObjectId pair (EnforcementObjectType.ofLong objectType) configurations
    return (core', .returned status)
  | .configure | .remove | .noOp => .ok (core, .threw "HousekeepingOperation type not supported")

/-- `execute_housekeeping_rule`, with its reads. -/
def executeReading (clock : Clock) (core : Core) (ruleId : UInt64) :
    Except Fault (Core × Completion) :=
  match core.housekeepingTable.selectHousekeepingRule ruleId with
  | none => .ok (core, .returned .notFound)
  | some rule =>
    if rule.enforced then .ok (core, .returned .enforced)
    else
      match core.employReading opt hash clock rule with
      | .ok (core', .returned .ok) => .ok (core'.markEnforced ruleId, .returned .ok)
      | .ok (core', completion) => .ok (core', completion)
      | .error f => .error f

theorem employReading_eq (clock : Clock) (core : Core) (rule : HousekeepingRule) :
    core.employReading opt hash clock rule = core.employRule opt hash clock rule := by
  have hconfigurations : rule.readPropertiesAtRange 4 (rule.getPropertiesSize - 1) =
      .ok rule.objectConfigurations := rule.readPropertiesAtRange_eq 4 _
  have htype : EnforcementObjectType.ofLong (rule.getPropertyAtIndex 3) = rule.objectType := by
    rw [HousekeepingRule.objectType]
  unfold employReading employRule
  cases rule.ruleType with
  | createChannel =>
    simp only [rule.readChannelTuple_eq, HousekeepingRule.ok_bind]
    rfl
  | createObject =>
    simp only [hconfigurations, rule.readObjectPair_eq, rule.readPropertyAtIndex_eq, htype,
      HousekeepingRule.ok_bind]
    rcases core.createEnforcementObject hash clock rule.channelId rule.enforcementObjectId
      rule.objectPair rule.objectType rule.objectConfigurations with f | ⟨core', status⟩ <;> rfl
  | configure | remove | noOp => rfl

/-- No read of a property is out of range. -/
theorem executeReading_eq (clock : Clock) (core : Core) (ruleId : UInt64) :
    core.executeReading opt hash clock ruleId =
      core.executeHousekeepingRule opt hash clock ruleId := by
  unfold executeReading executeHousekeepingRule
  cases core.housekeepingTable.selectHousekeepingRule ruleId with
  | none => rfl
  | some rule =>
    cases henf : rule.enforced with
    | true => simp only [henf, if_true]
    | false =>
      rcases hrun : core.employRule opt hash clock rule with f | ⟨core', status | what⟩
      · simp only [henf, Bool.false_eq_true, if_false, employReading_eq, hrun]
      · cases status <;> simp only [henf, Bool.false_eq_true, if_false, employReading_eq, hrun]
      · simp only [henf, Bool.false_eq_true, if_false, employReading_eq, hrun]

end

variable {opt : Options} {hash : String → UInt32} {clock : Clock} {core : Core}
  {rule : HousekeepingRule} {ruleId : UInt64}

/-- When the operation reads a configuration that is not there: the rule creates a rate limiter with
one configuration, its channel is there, and no object has its token. -/
def ReadsPast (hash : String → UInt32) (core : Core) (rule : HousekeepingRule) : Prop :=
  rule.enforced = false ∧ rule.ruleType = .createObject ∧ rule.objectType = some .drl ∧
    rule.getPropertiesSize = 5 ∧
    ∃ token channel, core.channelIdToTokenLinkers.lookup rule.channelId = some token ∧
      token ≠ noToken ∧ core.selectChannel token = some channel ∧
      channel.submissionQueue.buildObjectToken hash rule.objectPair ∉
        AssocList.keys channel.submissionQueue.enfObjects

theorem createObject_error_iff {ch : ChannelDefault} {objectId : Int}
    {pair : ObjectDifferentiationPair} {objectType : Option EnforcementObjectType}
    {configurations : List Int} :
    (∃ f, ch.createEnforcementObject hash clock objectId pair objectType configurations =
        .error f) ↔
      objectType = some .drl ∧ configurations.length = 1 ∧
        ch.submissionQueue.buildObjectToken hash pair ∉
          AssocList.keys ch.submissionQueue.enfObjects := by
  rw [ch.createEnforcementObject_eq]
  cases objectType with
  | none => simp
  | some type =>
    by_cases htaken : ch.submissionQueue.buildObjectToken hash pair ∈
        AssocList.keys ch.submissionQueue.enfObjects
    · simp [htaken]
    · have hinitial : (∃ f, ch.initialObject clock objectId type configurations = .error f) ↔
          type = .drl ∧ configurations.length = 1 := ChannelDefault.initialObject_error_iff
      simp only [htaken, if_false, not_false_eq_true, and_true, Option.some.injEq]
      rw [← hinitial]
      cases ch.initialObject clock objectId type configurations with
      | error f => simp
      | ok object => simp

/-- A call that names a channel faults when the channel does. -/
theorem onChannel_error_iff {channelId : Int}
    {work : ChannelDefault → Except Fault (ChannelDefault × PStatus)} :
    (∃ f, core.onChannel channelId work = .error f) ↔
      ∃ token channel, core.channelIdToTokenLinkers.lookup channelId = some token ∧
        token ≠ noToken ∧ core.selectChannel token = some channel ∧
        ∃ f, work channel = .error f := by
  constructor
  · rintro ⟨f, h⟩
    simp only [onChannel] at h
    split at h
    · cases h
    · rename_i htoken
      split at h
      · rename_i channel hsel
        split at h
        · cases h
        · rename_i f' hf
          exact ⟨_, channel, core.lookup_getChannelDiffToken htoken, htoken, hsel, f', hf⟩
      · cases h
  · rintro ⟨token, channel, hl, htoken, hsel, f, hf⟩
    refine ⟨f, ?_⟩
    rw [onChannel_of_lookup hl htoken hsel, hf]

theorem employRule_error_iff (henf : rule.enforced = false) :
    (∃ f, core.employRule opt hash clock rule = .error f) ↔ core.ReadsPast hash rule := by
  have hone : rule.objectConfigurations.length = 1 ↔ rule.getPropertiesSize = 5 := by
    rw [rule.length_objectConfigurations]
    omega
  cases htype : rule.ruleType with
  | createChannel =>
    rw [employRule_createChannel opt hash clock core htype]
    simp [ReadsPast, htype]
  | createObject =>
    have hcreate : (∃ f, core.employRule opt hash clock rule = .error f) ↔
        ∃ f, core.createEnforcementObject hash clock rule.channelId rule.enforcementObjectId
          rule.objectPair rule.objectType rule.objectConfigurations = .error f := by
      rw [employRule_createObject opt hash clock core htype]
      rcases core.createEnforcementObject hash clock rule.channelId rule.enforcementObjectId
        rule.objectPair rule.objectType rule.objectConfigurations with f | ⟨core', status⟩
      · simp
      · simp
    rw [hcreate, Core.createEnforcementObject, onChannel_error_iff]
    simp only [createObject_error_iff, hone]
    constructor
    · rintro ⟨token, channel, hl, htoken, hsel, hdrl, hsize, hfree⟩
      exact ⟨henf, htype, hdrl, hsize, token, channel, hl, htoken, hsel, hfree⟩
    · rintro ⟨-, -, hdrl, hsize, token, channel, hl, htoken, hsel, hfree⟩
      exact ⟨token, channel, hl, htoken, hsel, hdrl, hsize, hfree⟩
  | configure | remove | noOp =>
    simp only [employRule, ReadsPast, htype]
    simp

/-- The execution reads only what exists, and if it does not return OK, the registry stays as it
was: the channels with their objects and their object linkers, and the channel linkers. -/
def ExecutesSafely (opt : Options) (hash : String → UInt32) (clock : Clock) (core : Core)
    (ruleId : UInt64) : Prop :=
  (∃ core' completion, core.executeReading opt hash clock ruleId = .ok (core', completion)) ∧
    ∀ core' status, core.executeReading opt hash clock ruleId = .ok (core', .returned status) →
      status ≠ .ok → core'.channels = core.channels ∧
        core'.channelIdToTokenLinkers = core.channelIdToTokenLinkers

/-- Executing a rule of the table, with whatever properties. -/
theorem executesSafely_iff
    (hsel : core.housekeepingTable.selectHousekeepingRule ruleId = some rule) :
    ExecutesSafely opt hash clock core ruleId ↔ ¬ core.ReadsPast hash rule := by
  have hatomic : ∀ core' status, core.executeReading opt hash clock ruleId =
      .ok (core', .returned status) → status ≠ .ok → core'.channels = core.channels ∧
        core'.channelIdToTokenLinkers = core.channelIdToTokenLinkers := by
    intro core' status h hs
    rw [executeReading_eq] at h
    rw [executeHousekeepingRule_not_ok h hs]
    exact ⟨rfl, rfl⟩
  rw [ExecutesSafely, and_iff_left hatomic, executeReading_eq]
  -- what is left is that the execution comes back
  cases henf : rule.enforced with
  | true =>
    refine iff_of_true ⟨core, .returned .enforced, ?_⟩ ?_
    · simp only [executeHousekeepingRule, hsel, henf, if_true]
    · rintro ⟨hpending, -⟩
      rw [henf] at hpending
      cases hpending
  | false =>
    have herror : (∃ f, core.employRule opt hash clock rule = .error f) ↔
        core.ReadsPast hash rule := employRule_error_iff henf
    rw [← herror, executeHousekeepingRule_pending opt hash clock hsel henf]
    rcases core.employRule opt hash clock rule with f | ⟨core', status | what⟩
    · simp
    · cases status <;> simp
    · simp

/-- A rule that creates a rate limiter in channel 1, with the given configurations. -/
def limiterRule (configurations : List Int) : HousekeepingRule where
  ruleId := 7
  ruleType := .createObject
  channelId := 1
  enforcementObjectId := 5
  properties := [0, 2, 3, 1] ++ configurations

/-- A stage with channel 1 and the rule. -/
def limiterCore (configurations : List Int) : Core :=
  ((newWith workflowOptions numeralHash 1 true false fun _ _ => 0).insertHousekeepingRule
    (limiterRule configurations)).1

theorem limiterCore_reachable (configurations : List Int) :
    (limiterCore configurations).Reachable workflowOptions numeralHash :=
  .step (.newWith 1 true false fun _ _ => 0) (.insertHousekeepingRule _ _)

/-- With two configurations the rate limiter is created. -/
theorem executesSafely_two :
    ExecutesSafely workflowOptions numeralHash (fun _ => 0) (limiterCore [1000, 50]) 7 := by
  have hsel : (limiterCore [1000, 50]).housekeepingTable.selectHousekeepingRule 7 =
      some (limiterRule [1000, 50]) := rfl
  refine (executesSafely_iff hsel).mpr ?_
  rintro ⟨-, -, -, hsize, -⟩
  revert hsize
  decide

/-- With one configuration the second one is read all the same. -/
theorem one_configuration_reads_past :
    (limiterCore [1000]).Reachable workflowOptions numeralHash ∧
      (limiterCore [1000]).executeReading workflowOptions numeralHash (fun _ => 0) 7 =
        .error .outOfBounds := by
  refine ⟨limiterCore_reachable [1000], ?_⟩
  rw [executeReading_eq]
  rfl

end Core

end Paio
