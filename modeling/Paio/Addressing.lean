import Paio.Collection
import Paio.ObjectIds
import Paio.Routing

/-!
# Paio.Addressing

Whether what was created can be addressed. Every lookup of a token by an identifier answers with
one and the same token when there is none, `noToken`, and nothing keeps the hash from giving that
token to a channel or to an object. A register records what a run has created, with the tokens;
`History.recorded` says that it is what the linkers hold, and `addressed_iff_tokensFit` that
everything in it can be addressed exactly when no identifier leads to `noToken`.
-/

namespace Paio

open ChannelStatistics (ChannelStatsRaw)

/-- A channel or an object that was created, with its token. -/
inductive Registration where
  | channel (channelId : Int) (token : UInt32)
  | object (channelId objectId : Int) (token : UInt32)
  deriving DecidableEq, Repr

/-- The token of what was created. -/
def Registration.token : Registration → UInt32
  | .channel _ token => token
  | .object _ _ token => token

/-- The channels of a register. -/
def channelsIn (register : List Registration) : List (Int × UInt32) :=
  register.filterMap fun
    | .channel channelId token => some (channelId, token)
    | .object _ _ _ => none

/-- The objects of one channel in a register. -/
def objectsIn (channelId : Int) (register : List Registration) : List (Int × UInt32) :=
  register.filterMap fun
    | .channel _ _ => none
    | .object owner objectId token => if owner = channelId then some (objectId, token) else none

theorem mem_channelsIn {register : List Registration} {channelId : Int} {token : UInt32} :
    (channelId, token) ∈ channelsIn register ↔ .channel channelId token ∈ register := by
  rw [channelsIn, List.mem_filterMap]
  constructor
  · rintro ⟨r, hr, heq⟩
    cases r with
    | channel id t =>
      cases heq
      exact hr
    | object owner id t => cases heq
  · intro hmem
    exact ⟨_, hmem, rfl⟩

theorem mem_objectsIn {register : List Registration} {channelId objectId : Int} {token : UInt32} :
    (objectId, token) ∈ objectsIn channelId register ↔
      .object channelId objectId token ∈ register := by
  rw [objectsIn, List.mem_filterMap]
  constructor
  · rintro ⟨r, hr, heq⟩
    cases r with
    | channel id t => cases heq
    | object owner id t =>
      simp only at heq
      split at heq
      · rename_i howner
        cases heq
        rwa [← howner]
      · cases heq
  · intro hmem
    exact ⟨_, hmem, if_pos rfl⟩

@[simp] theorem channelsIn_append (register new : List Registration) :
    channelsIn (register ++ new) = channelsIn register ++ channelsIn new :=
  List.filterMap_append

@[simp] theorem objectsIn_append_channel (id channelId : Int) (token : UInt32)
    (register : List Registration) :
    objectsIn id (register ++ [.channel channelId token]) = objectsIn id register := by
  simp [objectsIn]

@[simp] theorem objectsIn_append_object (channelId objectId : Int) (token : UInt32)
    (register : List Registration) :
    objectsIn channelId (register ++ [.object channelId objectId token]) =
      objectsIn channelId register ++ [(objectId, token)] := by
  simp [objectsIn]

theorem objectsIn_append_object_ne {id channelId : Int} (h : channelId ≠ id) (objectId : Int)
    (token : UInt32) (register : List Registration) :
    objectsIn id (register ++ [.object channelId objectId token]) = objectsIn id register := by
  simp [objectsIn, h]

/-! ## Objects in a channel -/

namespace ChannelDefault

/-- The second state has the object linkers of the first, and objects with the same identifiers
under all tokens of the first. -/
structure KeepsObjects (ch ch' : ChannelDefault) : Prop where
  linkers : ch'.objectIdToTokenLinkers = ch.objectIdToTokenLinkers
  object : ∀ token object, ch.submissionQueue.selectEnforcementObject token = some object →
    ∃ object', ch'.submissionQueue.selectEnforcementObject token = some object' ∧
      object'.getEnforcementObjectId = object.getEnforcementObjectId

variable {ch ch' : ChannelDefault} {created : List (Int × UInt32)}

theorem KeepsObjects.of_objects
    (hl : ch'.objectIdToTokenLinkers = ch.objectIdToTokenLinkers)
    (ho : ch'.submissionQueue.enfObjects = ch.submissionQueue.enfObjects) : KeepsObjects ch ch' := by
  refine ⟨hl, fun token object hsel => ⟨object, ?_, rfl⟩⟩
  rw [SubmissionQueue.selectEnforcementObject, ho]
  exact hsel

theorem SameObjects.keepsObjects (h : SameObjects ch ch') : KeepsObjects ch ch' :=
  ⟨h.linkers, h.object⟩

theorem Linked.of_keeps (h : Linked ch created) (hk : KeepsObjects ch ch') : Linked ch' created := by
  refine ⟨hk.linkers.trans h.linkers, fun objectId token hmem => ?_⟩
  obtain ⟨object, hsel, hid⟩ := h.objects objectId token hmem
  obtain ⟨object', hsel', hid'⟩ := hk.object token object hsel
  exact ⟨object', hsel', hid'.trans hid⟩

theorem keepsObjects_collectGeneralStatistics {now later : Int} {raw raw' : ChannelStatsRaw}
    {status : PStatus}
    (h : ch.collectGeneralStatistics now later raw = .ok (ch', status, raw')) :
    KeepsObjects ch ch' := by
  simp only [collectGeneralStatistics] at h
  repeat' split at h
  all_goals cases h
  all_goals exact .of_objects rfl rfl

theorem keepsObjects_collectDetailedStatistics {now : Int} {entries entries' : List ℚ}
    {status : PStatus} (h : ch.collectDetailedStatistics now entries = .ok (ch', status, entries')) :
    KeepsObjects ch ch' := by
  simp only [collectDetailedStatistics] at h
  repeat' split at h
  all_goals cases h
  all_goals exact .of_objects rfl rfl

theorem objCollectStatistics_id {object object' : EnforcementObject} {now : Int}
    {raw raw' : ObjectStatisticsRaw} {status : PStatus}
    (h : object.objCollectStatistics now raw = .ok (object', raw', status)) :
    object'.getEnforcementObjectId = object.getEnforcementObjectId := by
  cases object with
  | drl d =>
    simp only [EnforcementObject.objCollectStatistics,
      DynamicRateLimiter.objCollectStatistics] at h
    repeat' split at h
    all_goals cases h
    all_goals rename_i hd; repeat' split at hd
    all_goals cases hd <;> rfl
  | noop n =>
    cases h
    rfl

theorem keepsObjects_collectObjectStatistics {objectId now : Int} {raw raw' : ObjectStatisticsRaw}
    {status : PStatus}
    (h : ch.callCollectObjectStatistics objectId now raw = .ok (ch', raw', status)) :
    KeepsObjects ch ch' := by
  simp only [callCollectObjectStatistics] at h
  split at h
  · split at h
    · cases h
      exact .of_objects rfl rfl
    · split at h
      · rename_i q raw₁ status₁ hq
        cases h
        simp only [SubmissionQueue.collectEnforcementObjectStatistics,
          SubmissionQueue.selectEnforcementObject] at hq
        split at hq
        · cases hq
          exact .of_objects rfl rfl
        · rename_i object hsel
          split at hq
          · rename_i object' raw₂ status₂ ho
            cases hq
            refine SameObjects.keepsObjects ?_
            exact sameObjects_replace hsel (objCollectStatistics_id ho) rfl rfl rfl
          · cases hq
      · cases h
  · cases h
    exact .of_objects rfl rfl

end ChannelDefault

namespace Core

/-! ## What a call registers -/

variable (opt : Options) (hash : String → UInt32)

/-- The token that the classifiers of an object have in a channel at present. -/
def objectToken (core : Core) (channelId : Int) (pair : ObjectDifferentiationPair) : UInt32 :=
  match core.selectChannel (core.getChannelDiffToken channelId) with
  | some channel => channel.submissionQueue.buildObjectToken hash pair
  | none => noToken

/-- What a rule registers when its execution succeeds. -/
def registrations (core : Core) (rule : HousekeepingRule) : List Registration :=
  match rule.ruleType with
  | .createChannel => [.channel rule.channelId (core.channelToken hash rule.channelTuple)]
  | .createObject =>
    [.object rule.channelId rule.enforcementObjectId
      (core.objectToken hash rule.channelId rule.objectPair)]
  | .configure | .remove | .noOp => []

/-- What the execution of a rule has registered. -/
def registrationsOf (core : Core) (ruleId : UInt64) : Completion → List Registration
  | .returned .ok =>
    match core.housekeepingTable.selectHousekeepingRule ruleId with
    | some rule => core.registrations hash rule
    | none => []
  | _ => []

/-- What one pass through the loop of the parameterized constructor has registered. -/
def defaultRegistrations (clock : Clock) (createDefaultObjects : Bool) (core : Core) (i : Int) :
    List Registration :=
  let (core', status) := core.createChannel opt hash clock i (defaultTuple i)
  if status.isOk then
    .channel i (core.channelToken hash (defaultTuple i)) ::
      if createDefaultObjects then
        match core'.createEnforcementObject hash clock i 0 defaultPair (some .noop) [] with
        | .ok (_, .ok) => [.object i 0 (core'.objectToken hash i defaultPair)]
        | _ => []
      else []
  else []

/-- The statistics of one object, by the identifiers of its channel and its own. -/
def collectEnforcementObjectStatistics (now : Int) (core : Core) (channelId objectId : Int)
    (raw : ObjectStatisticsRaw) : Except Fault (Core × ObjectStatisticsRaw × PStatus) :=
  let channelToken := core.getChannelDiffToken channelId
  if channelToken = noToken then .ok (core, raw, .error)
  else
    match core.selectChannel channelToken with
    | some channel =>
      match channel.callCollectObjectStatistics objectId now
          { raw with channelId := channelId, enforcementObjectId := objectId } with
      | .ok (channel', raw', status) => .ok (core.setChannel channelToken channel', raw', status)
      | .error f => .error f
    | none => .ok (core, raw, .error)

/-- The cores that calls reach, with the register of what they have created. -/
inductive History : Core → List Registration → Prop
  | new : History (Core.new opt) []
  | createDefaultChannel {core : Core} {register : List Registration} (h : History core register)
      (clock : Clock) (createDefaultObjects : Bool) (i : Int) :
      History (core.createDefaultChannel opt hash clock createDefaultObjects i)
        (register ++ core.defaultRegistrations opt hash clock createDefaultObjects i)
  | defineChannelDifferentiation {core : Core} {register : List Registration}
      (h : History core register) (workflow operationType operationContext : Bool) :
      History (core.defineChannelDifferentiation workflow operationType operationContext) register
  | defineEnforcementObjectDifferentiation {core core' : Core} {register : List Registration}
      (h : History core register) {channelId : Int} {operationType operationContext : Bool}
      {status : PStatus}
      (hc : core.defineEnforcementObjectDifferentiation channelId operationType operationContext =
        .ok (core', status)) : History core' register
  | setDefaultObjectDifferentiation {core : Core} {register : List Registration}
      (h : History core register) (value : Bool) :
      History { core with defineDefaultObjectDifferentiation := value } register
  | insertHousekeepingRule {core : Core} {register : List Registration} (h : History core register)
      (rule : HousekeepingRule) : History (core.insertHousekeepingRule rule).1 register
  | executeHousekeepingRule {core core' : Core} {register : List Registration}
      (h : History core register) {clock : Clock} {ruleId : UInt64} {completion : Completion}
      (hc : core.executeHousekeepingRule opt hash clock ruleId = .ok (core', completion)) :
      History core' (register ++ core.registrationsOf hash ruleId completion)
  | employEnforcementRule {core core' : Core} {register : List Registration}
      (h : History core register) {channelId objectId ruleType : Int} {configurations : List Int}
      {status : PStatus}
      (hc : core.employEnforcementRule channelId objectId ruleType configurations =
        .ok (core', status)) : History core' register
  | enforceRequest {core core' : Core} {register : List Registration} (h : History core register)
      {clock : Clock} {fuel : Nat} {context : Context} {buffer : Buffer} {size : Nat}
      {result result' : Result}
      (hc : core.enforceRequest opt hash clock fuel context buffer size result =
        .ok (core', result')) : History core' register
  | collectChannelStatistics {core core' : Core} {register : List Registration}
      (h : History core register) {readings : Readings} {channelId : Int} {status : PStatus}
      {raw : ChannelStatsRaw}
      (hc : core.collectChannelStatistics readings channelId = .ok (core', status, raw)) :
      History core' register
  | collectChannelStatisticsDetailed {core core' : Core} {register : List Registration}
      (h : History core register) {readings : Readings} {channelId : Int} {status : PStatus}
      {entries : List ℚ}
      (hc : core.collectChannelStatisticsDetailed readings channelId =
        .ok (core', status, entries)) : History core' register
  | collectEnforcementObjectStatistics {core core' : Core} {register : List Registration}
      (h : History core register) {now channelId objectId : Int} {raw raw' : ObjectStatisticsRaw}
      {status : PStatus}
      (hc : core.collectEnforcementObjectStatistics now channelId objectId raw =
        .ok (core', raw', status)) : History core' register

/-! ## The register is what the linkers hold -/

/-- The ways in which a call can touch the registry, with what it registers. -/
inductive RegisterStep (core core' : Core) : List Registration → Prop
  | keep (hch : core'.channels = core.channels)
      (hl : core'.channelIdToTokenLinkers = core.channelIdToTokenLinkers) :
      RegisterStep core core' []
  | work {token : UInt32} {channel channel' : ChannelDefault}
      (hsel : core.selectChannel token = some channel) (hkeep : channel.KeepsObjects channel')
      (hch : core'.channels = core.channels.insert token channel')
      (hl : core'.channelIdToTokenLinkers = core.channelIdToTokenLinkers) :
      RegisterStep core core' []
  | createObject {channelId objectId : Int} {token objectToken : UInt32} {channel : ChannelDefault}
      {object : EnforcementObject} (hlink : (channelId, token) ∈ core.channelIdToTokenLinkers)
      (htoken : token ≠ noToken) (hsel : core.selectChannel token = some channel)
      (hfree : objectToken ∉ AssocList.keys channel.submissionQueue.enfObjects)
      (hid : object.getEnforcementObjectId = objectId)
      (hch : core'.channels =
        core.channels.insert token (channel.addObject objectId objectToken object))
      (hl : core'.channelIdToTokenLinkers = core.channelIdToTokenLinkers) :
      RegisterStep core core' [.object channelId objectId objectToken]
  | createChannel {channelId : Int} {token : UInt32} {channel : ChannelDefault}
      (htoken : token ∉ core.channels)
      (hid : channelId ∉ AssocList.keys core.channelIdToTokenLinkers)
      (hempty : channel.objectIdToTokenLinkers = [])
      (hch : core'.channels = core.channels.insert token channel)
      (hl : core'.channelIdToTokenLinkers =
        core.channelIdToTokenLinkers ++ [(channelId, token)]) :
      RegisterStep core core' [.channel channelId token]

/-- The channel linkers are the channels of the register, the object linkers of a channel are its
objects in the register, and objects are only created in channels that can be addressed. -/
structure Recorded (core : Core) (register : List Registration) : Prop where
  registry : LinkedMap.Linked
    (fun channelId channel => ChannelDefault.Linked channel (objectsIn channelId register))
    core.channelIdToTokenLinkers core.channels
  linkers : core.channelIdToTokenLinkers = channelsIn register
  owned : ∀ channelId objectId objectToken, .object channelId objectId objectToken ∈ register →
    ∃ token, (channelId, token) ∈ core.channelIdToTokenLinkers ∧ token ≠ noToken

variable {opt hash} {core core' : Core} {register new : List Registration}

theorem recorded_new : Recorded (Core.new opt) [] :=
  ⟨LinkedMap.linked_empty, rfl, by simp⟩

/-- A channel that was not created has no objects. -/
theorem Recorded.objectsIn_eq_nil (h : Recorded core register) {channelId : Int}
    (hid : channelId ∉ AssocList.keys core.channelIdToTokenLinkers) :
    objectsIn channelId register = [] := by
  rw [List.eq_nil_iff_forall_not_mem]
  rintro ⟨objectId, objectToken⟩ hmem
  obtain ⟨token, hlink, -⟩ := h.owned channelId objectId objectToken (mem_objectsIn.mp hmem)
  exact hid (AssocList.mem_keys_of_mem hlink)

/-- One call keeps the register what the linkers hold. -/
theorem Recorded.step (h : Recorded core register) (hs : RegisterStep core core' new) :
    Recorded core' (register ++ new) := by
  cases hs with
  | keep hch hl =>
    rw [List.append_nil]
    exact ⟨by rw [hch, hl]; exact h.registry, hl.trans h.linkers, by rw [hl]; exact h.owned⟩
  | work hsel hkeep hch hl =>
    rw [List.append_nil]
    refine ⟨?_, hl.trans h.linkers, by rw [hl]; exact h.owned⟩
    rw [hch, hl]
    exact h.registry.update hsel fun _ hc => hc.of_keeps hkeep
  | @createObject channelId objectId token objectToken channel object hlink htoken hsel hfree hid
      hch hl =>
    refine ⟨?_, ?_, ?_⟩
    · rw [hch, hl]
      refine h.registry.update_of_links hsel ?_ ?_
      · -- the channel that the object was created in
        intro id hid' hc
        obtain rfl := h.registry.id_unique hid' hlink
        rw [objectsIn_append_object]
        exact hc.addObject hfree hid
      · intro id token' ch hne hlink' hc
        have hother : channelId ≠ id := by
          rintro rfl
          exact hne (h.registry.token_unique hlink' hlink)
        rwa [objectsIn_append_object_ne hother]
    · rw [hl, h.linkers, channelsIn_append]
      simp [channelsIn]
    · intro id id' objectToken' hmem
      rw [hl]
      rcases List.mem_append.mp hmem with hold | hnew
      · exact h.owned id id' objectToken' hold
      · obtain ⟨rfl, -, -⟩ : id = channelId ∧ id' = objectId ∧ objectToken' = objectToken := by
          simpa using hnew
        exact ⟨token, hlink, htoken⟩
  | @createChannel channelId token channel htoken hid hempty hch hl =>
    have hnone := h.objectsIn_eq_nil hid
    refine ⟨?_, ?_, ?_⟩
    · rw [hch, hl]
      simp only [objectsIn_append_channel]
      refine h.registry.link hid htoken ⟨?_, ?_⟩
      · rw [hempty, hnone]
      · rw [hnone]
        simp
    · rw [hl, h.linkers, channelsIn_append]
      rfl
    · intro id objectId objectToken hmem
      have hold : Registration.object id objectId objectToken ∈ register := by simpa using hmem
      obtain ⟨token', hlink, hne⟩ := h.owned id objectId objectToken hold
      rw [hl]
      exact ⟨token', List.mem_append_left _ hlink, hne⟩

/-! ### Every call is such a step -/

theorem newChannel_objectIdToTokenLinkers (core : Core) (clock : Clock) (channelId : Int) :
    (core.newChannel opt clock channelId).objectIdToTokenLinkers = [] := by
  simp only [newChannel]
  split <;> rfl

theorem createChannel_registers {clock : Clock} {channelId : Int}
    {tuple : ChannelDifferentiationTuple} {status : PStatus}
    (hc : core.createChannel opt hash clock channelId tuple = (core', status)) :
    RegisterStep core core'
      (if status = .ok then [.channel channelId (core.channelToken hash tuple)] else []) := by
  obtain ⟨htoken, hid, heq⟩ | ⟨_, heq⟩ := createChannel_cases opt hash clock core channelId tuple
  · rw [heq] at hc
    cases hc
    exact .createChannel htoken hid (newChannel_objectIdToTokenLinkers core clock channelId) rfl rfl
  · rw [heq] at hc
    cases hc
    exact .keep rfl rfl

theorem onChannel_registers {channelId : Int} {status : PStatus}
    {work : ChannelDefault → Except Fault (ChannelDefault × PStatus)}
    (hwork : ∀ channel channel', work channel = .ok (channel', status) →
      channel.KeepsObjects channel')
    (hc : core.onChannel channelId work = .ok (core', status)) : RegisterStep core core' [] := by
  obtain ⟨rfl, _⟩ | ⟨token, channel, channel', _, _, hsel, hw, rfl⟩ := onChannel_cases hc
  · exact .keep rfl rfl
  · exact .work hsel (hwork channel channel' hw) rfl rfl

theorem collectOn_registers {α : Type} {channelId : Int} {status : PStatus} {initial value : α}
    {collect : ChannelDefault → Except Break (ChannelDefault × PStatus × α)}
    (hcollect : ∀ channel channel', collect channel = .ok (channel', status, value) →
      channel.KeepsObjects channel')
    (hc : core.collectOn channelId collect initial = .ok (core', status, value)) :
    RegisterStep core core' [] := by
  obtain rfl | ⟨token, channel, channel', hsel, hw, rfl⟩ := collectOn_cases hc
  · exact .keep rfl rfl
  · exact .work hsel (hcollect channel channel' hw) rfl rfl

theorem createEnforcementObject_registers {clock : Clock} {channelId objectId : Int}
    {pair : ObjectDifferentiationPair} {objectType : Option EnforcementObjectType}
    {configurations : List Int} {status : PStatus}
    (hc : core.createEnforcementObject hash clock channelId objectId pair objectType
      configurations = .ok (core', status)) :
    RegisterStep core core'
      (if status = .ok then [.object channelId objectId (core.objectToken hash channelId pair)]
        else []) := by
  obtain ⟨rfl, rfl⟩ | ⟨token, channel, channel', hl, htoken, hsel, hw, rfl⟩ := onChannel_cases hc
  · exact .keep rfl rfl
  · have hobject : core.objectToken hash channelId pair =
        channel.submissionQueue.buildObjectToken hash pair := by
      simp only [objectToken, getChannelDiffToken, hl, Option.getD_some, hsel]
    obtain ⟨rfl, hne, _⟩ | ⟨object, rfl, hid, hfree, _, _, rfl⟩ := ChannelDefault.create_cases hw
    · rw [if_neg hne]
      exact .work hsel (.of_objects rfl rfl) rfl rfl
    · rw [if_pos rfl, hobject]
      exact .createObject (AssocList.mem_of_lookup hl) htoken hsel hfree hid rfl rfl

theorem employRule_registers {clock : Clock} {rule : HousekeepingRule} {completion : Completion}
    (hc : core.employRule opt hash clock rule = .ok (core', completion)) :
    RegisterStep core core'
      (if completion = .returned .ok then core.registrations hash rule else []) := by
  obtain ⟨status, htype, hcr, rfl⟩ | ⟨status, htype, hcr, rfl⟩ | ⟨_, _, _, rfl, rfl⟩ :=
    employRule_cases opt hash hc
  · have hs := createChannel_registers hcr
    simpa only [registrations, htype, Completion.returned.injEq] using hs
  · have hs := createEnforcementObject_registers hcr
    simpa only [registrations, htype, Completion.returned.injEq] using hs
  · exact .keep rfl rfl

theorem registrationsOf_of_ne {completion : Completion} (h : completion ≠ .returned .ok)
    (core : Core) (ruleId : UInt64) : core.registrationsOf hash ruleId completion = [] := by
  simp only [registrationsOf]

/-- Marking the rule changes the table only. -/
theorem RegisterStep.markEnforced (h : RegisterStep core core' new) (ruleId : UInt64) :
    RegisterStep core (core'.markEnforced ruleId) new := by
  cases h with
  | keep hch hl => exact .keep hch hl
  | work hsel hkeep hch hl => exact .work hsel hkeep hch hl
  | createObject hlink htoken hsel hfree hid hch hl =>
    exact .createObject hlink htoken hsel hfree hid hch hl
  | createChannel htoken hid hempty hch hl => exact .createChannel htoken hid hempty hch hl

theorem executeHousekeepingRule_registers {clock : Clock} {ruleId : UInt64}
    {completion : Completion}
    (hc : core.executeHousekeepingRule opt hash clock ruleId = .ok (core', completion)) :
    RegisterStep core core' (core.registrationsOf hash ruleId completion) := by
  obtain ⟨rfl, hne⟩ | ⟨rule, core₁, hsel, _, he, rfl⟩ := executeHousekeepingRule_cases opt hash hc
  · rw [registrationsOf_of_ne hne]
    exact .keep rfl rfl
  · have hs := employRule_registers he
    by_cases hok : completion = .returned .ok
    · subst hok
      simp only [registrationsOf, hsel, if_true] at hs ⊢
      exact hs.markEnforced ruleId
    · rw [if_neg hok] at hs
      rwa [if_neg hok, registrationsOf_of_ne hok]

/-- A pass of the constructor is at most two steps. -/
theorem Recorded.createDefaultChannel (h : Recorded core register) (clock : Clock)
    (createDefaultObjects : Bool) (i : Int) :
    Recorded (core.createDefaultChannel opt hash clock createDefaultObjects i)
      (register ++ core.defaultRegistrations opt hash clock createDefaultObjects i) := by
  simp only [Core.createDefaultChannel, defaultRegistrations]
  cases hcr : core.createChannel opt hash clock i (defaultTuple i) with
  | mk core₁ status =>
    have h₁ := h.step (createChannel_registers hcr)
    by_cases hok : status = .ok
    · subst hok
      cases createDefaultObjects with
      | false => simpa [PStatus.isOk] using h₁
      | true =>
        cases hce : core₁.createEnforcementObject hash clock i 0 defaultPair (some .noop) [] with
        | error f => simpa [PStatus.isOk, hce] using h₁
        | ok out =>
          obtain ⟨core₂, status₂⟩ := out
          have h₂ := h₁.step (createEnforcementObject_registers hce)
          by_cases hok₂ : status₂ = .ok
          · simpa [PStatus.isOk, hce, hok₂] using h₂
          · simpa [PStatus.isOk, hce, hok₂] using h₂
    · simpa [PStatus.isOk, hok] using h₁

theorem Recorded.work (h : Recorded core register) (hs : RegisterStep core core' []) :
    Recorded core' register := by
  have h' := h.step hs
  rwa [List.append_nil] at h'

theorem collectEnforcementObjectStatistics_registers {now channelId objectId : Int}
    {raw raw' : ObjectStatisticsRaw} {status : PStatus}
    (hc : core.collectEnforcementObjectStatistics now channelId objectId raw =
      .ok (core', raw', status)) : RegisterStep core core' [] := by
  simp only [Core.collectEnforcementObjectStatistics] at hc
  split at hc
  · cases hc
    exact .keep rfl rfl
  · split at hc
    · rename_i channel hsel
      split at hc
      · rename_i channel' raw₁ status₁ hw
        cases hc
        exact .work hsel (ChannelDefault.keepsObjects_collectObjectStatistics hw) rfl rfl
      · cases hc
    · cases hc
      exact .keep rfl rfl

/-- The register of a run is what the linkers hold. -/
theorem History.recorded (h : History opt hash core register) : Recorded core register := by
  induction h with
  | new => exact recorded_new
  | createDefaultChannel _ clock createDefaultObjects i ih =>
    exact ih.createDefaultChannel clock createDefaultObjects i
  | defineChannelDifferentiation _ w t c ih => exact ih.work (.keep rfl rfl)
  | defineEnforcementObjectDifferentiation _ hc ih =>
    refine ih.work (onChannel_registers ?_ hc)
    intro channel channel' hd
    cases hd
    exact .of_objects rfl rfl
  | setDefaultObjectDifferentiation _ value ih => exact ih.work (.keep rfl rfl)
  | insertHousekeepingRule _ rule ih => exact ih.work (.keep rfl rfl)
  | executeHousekeepingRule _ hc ih => exact ih.step (executeHousekeepingRule_registers hc)
  | employEnforcementRule _ hc ih =>
    refine ih.work (onChannel_registers ?_ hc)
    intro channel channel' hw
    exact (ChannelDefault.configureEnforcementObject_sameObjects hw).keepsObjects
  | enforceRequest _ hc ih =>
    obtain ⟨_, rfl, _⟩ | ⟨channel, channel', hsel, hw, rfl⟩ := enforceRequest_cases opt hash hc
    · exact ih
    · have hsame := ChannelDefault.channelEnforce_sameObjects hw
      exact ih.work (.work hsel hsame.keepsObjects rfl rfl)
  | collectChannelStatistics _ hc ih =>
    refine ih.work (collectOn_registers ?_ hc)
    intro channel channel' hw
    exact ChannelDefault.keepsObjects_collectGeneralStatistics hw
  | collectChannelStatisticsDetailed _ hc ih =>
    refine ih.work (collectOn_registers ?_ hc)
    intro channel channel' hw
    exact ChannelDefault.keepsObjects_collectDetailedStatistics hw
  | collectEnforcementObjectStatistics _ hc ih =>
    exact ih.work (collectEnforcementObjectStatistics_registers hc)

/-- Every reachable core has a history. -/
theorem Reachable.exists_history (h : core.Reachable opt hash) :
    ∃ register, History opt hash core register := by
  induction h with
  | new => exact ⟨[], .new⟩
  | newWith channels createDefaultChannels createDefaultObjects clock =>
    refine newWith_preserves (P := fun core => ∃ register, History opt hash core register)
      ⟨[], .new⟩ ?_ channels createDefaultChannels clock
    rintro core clock i ⟨register, h⟩
    exact ⟨_, h.createDefaultChannel clock createDefaultObjects i⟩
  | step _ hs ih =>
    obtain ⟨register, h⟩ := ih
    cases hs with
    | defineChannelDifferentiation w t c core => exact ⟨_, h.defineChannelDifferentiation w t c⟩
    | defineEnforcementObjectDifferentiation hc =>
      exact ⟨_, h.defineEnforcementObjectDifferentiation hc⟩
    | insertHousekeepingRule rule core => exact ⟨_, h.insertHousekeepingRule rule⟩
    | insertHousekeepingRuleOf id op ch obj props core => exact ⟨_, h.insertHousekeepingRule _⟩
    | executeHousekeepingRule hc => exact ⟨_, h.executeHousekeepingRule hc⟩
    | executeHousekeepingRules _ hc =>
      refine executeRulesLoop_preserves
        (P := fun core => ∃ register, History opt hash core register) ?_ ⟨register, h⟩ hc
      rintro core₁ core₂ clock ruleId completion ⟨register₁, h₁⟩ he
      exact ⟨_, h₁.executeHousekeepingRule he⟩
    | employEnforcementRule hc => exact ⟨_, h.employEnforcementRule hc⟩
    | enforceRequest hc => exact ⟨_, h.enforceRequest hc⟩

/-! ## Addressing -/

/-- The calls that name the channel get to the channel under the token, which does their work. -/
structure Reaches (hash : String → UInt32) (core : Core) (channelId : Int) (token : UInt32)
    (channel : ChannelDefault) : Prop where
  selected : core.selectChannel token = some channel
  create : ∀ clock objectId pair objectType configurations,
    core.createEnforcementObject hash clock channelId objectId pair objectType configurations =
      (channel.createEnforcementObject hash clock objectId pair objectType configurations).map
        fun out => (core.setChannel token out.1, out.2)
  employ : ∀ objectId ruleType configurations,
    core.employEnforcementRule channelId objectId ruleType configurations =
      (channel.configureEnforcementObject objectId ruleType configurations).map
        fun out => (core.setChannel token out.1, out.2)
  collect : ∀ readings, core.collectChannelStatistics readings channelId =
    (channel.collectGeneralStatistics (readings channelId).1 (readings channelId).2
      { channelId := channelId }).map fun out => (core.setChannel token out.1, out.2)
  collectDetailed : ∀ readings, core.collectChannelStatisticsDetailed readings channelId =
    (channel.collectDetailedStatistics (readings channelId).1 []).map
      fun out => (core.setChannel token out.1, out.2)
  collectObject : ∀ now objectId raw,
    core.collectEnforcementObjectStatistics now channelId objectId raw =
      (channel.callCollectObjectStatistics objectId now
        { raw with channelId := channelId, enforcementObjectId := objectId }).map
          fun out => (core.setChannel token out.1, out.2)

/-- Enforcement rules that name the object get to an object with its identifier, in the channel. -/
def ReachesObject (core : Core) (channelId objectId : Int) : Prop :=
  ∃ token channel objectToken object, core.selectChannel token = some channel ∧
    channel.submissionQueue.selectEnforcementObject objectToken = some object ∧
    object.getEnforcementObjectId = objectId ∧
    ∀ ruleType configurations,
      core.employEnforcementRule channelId objectId ruleType configurations =
        (object.objConfigure ruleType configurations).map
          fun out => (core.setChannel token (channel.setObject objectToken out.1), out.2)

/-- Everything in the register can be addressed. -/
structure Addressed (hash : String → UInt32) (core : Core) (register : List Registration) :
    Prop where
  channels : ∀ channelId token, .channel channelId token ∈ register →
    ∃ channel, core.Reaches hash channelId token channel
  objects : ∀ channelId objectId token, .object channelId objectId token ∈ register →
    core.ReachesObject channelId objectId

/-- No identifier leads to the token that stands for none: no channel has it, and no object that is
the first of its identifier in its channel. -/
structure TokensFit (register : List Registration) : Prop where
  channels : ∀ channelId token, .channel channelId token ∈ register → token ≠ noToken
  objects : ∀ channelId objectId,
    (objectsIn channelId register).lookup objectId ≠ some noToken

/-- A register in which `noToken` is the token of nothing. -/
theorem TokensFit.of_forall (h : ∀ r ∈ register, r.token ≠ noToken) : TokensFit register := by
  refine ⟨fun channelId token hmem => h _ hmem, ?_⟩
  intro channelId objectId hl
  exact h _ (mem_objectsIn.mp (AssocList.mem_of_lookup hl)) rfl

theorem reaches_of_lookup {channelId : Int} {token : UInt32} {channel : ChannelDefault}
    (hl : core.channelIdToTokenLinkers.lookup channelId = some token) (htoken : token ≠ noToken)
    (hsel : core.selectChannel token = some channel) : core.Reaches hash channelId token channel := by
  have hdiff : core.getChannelDiffToken channelId = token := by
    rw [getChannelDiffToken, hl]
    rfl
  refine ⟨hsel, ?_, ?_, ?_, ?_, ?_⟩
  · intro clock objectId pair objectType configurations
    rw [Core.createEnforcementObject, onChannel_of_lookup hl htoken hsel]
    rcases channel.createEnforcementObject hash clock objectId pair objectType configurations with
      f | ⟨channel', status⟩ <;> rfl
  · intro objectId ruleType configurations
    rw [Core.employEnforcementRule, onChannel_of_lookup hl htoken hsel]
    rcases channel.configureEnforcementObject objectId ruleType configurations with
      f | ⟨channel', status⟩ <;> rfl
  · intro readings
    rw [Core.collectChannelStatistics, collectOn_of_lookup hl htoken hsel]
    rcases channel.collectGeneralStatistics (readings channelId).1 (readings channelId).2
      { channelId := channelId } with b | ⟨channel', status, raw⟩ <;> rfl
  · intro readings
    rw [Core.collectChannelStatisticsDetailed, collectOn_of_lookup hl htoken hsel]
    rcases channel.collectDetailedStatistics (readings channelId).1 [] with
      b | ⟨channel', status, entries⟩ <;> rfl
  · intro now objectId raw
    simp only [Core.collectEnforcementObjectStatistics, hdiff, if_neg htoken, hsel]
    rcases channel.callCollectObjectStatistics objectId now
      { raw with channelId := channelId, enforcementObjectId := objectId } with
      f | ⟨channel', raw', status⟩ <;> rfl

/-- A channel under the token that stands for none does not even reject a type that does not
exist. -/
theorem Reaches.token_ne {channelId : Int} {token : UInt32} {channel : ChannelDefault}
    (h : core.Reaches hash channelId token channel)
    (hl : core.channelIdToTokenLinkers.lookup channelId = some token) : token ≠ noToken := by
  rintro rfl
  have hcreate := h.create (fun _ => 0) 0 {} none []
  have hdiff : core.getChannelDiffToken channelId = noToken := by
    rw [getChannelDiffToken, hl]
    rfl
  rw [Core.createEnforcementObject, onChannel, hdiff,
    ChannelDefault.createEnforcementObject_eq] at hcreate
  simp [Except.map] at hcreate

theorem Recorded.lookup (h : Recorded core register) {channelId : Int} {token : UInt32}
    (hmem : .channel channelId token ∈ register) :
    core.channelIdToTokenLinkers.lookup channelId = some token := by
  refine AssocList.lookup_of_mem h.registry.ids_nodup ?_
  rw [h.linkers]
  exact mem_channelsIn.mpr hmem

/-- The channel of an object that was created. -/
theorem Recorded.channel_of_object (h : Recorded core register) {channelId objectId : Int}
    {objectToken : UInt32} (hmem : .object channelId objectId objectToken ∈ register) :
    ∃ token channel, core.channelIdToTokenLinkers.lookup channelId = some token ∧
      token ≠ noToken ∧ core.selectChannel token = some channel ∧
      channel.Linked (objectsIn channelId register) := by
  obtain ⟨token, hlink, htoken⟩ := h.owned channelId objectId objectToken hmem
  obtain ⟨channel, hsel, hlinked⟩ := h.registry.entry channelId token hlink
  exact ⟨token, channel, AssocList.lookup_of_mem h.registry.ids_nodup hlink, htoken, hsel, hlinked⟩

theorem Recorded.reachesObject (h : Recorded core register) {channelId objectId : Int}
    {objectToken : UInt32} (hmem : .object channelId objectId objectToken ∈ register)
    (hfirst : (objectsIn channelId register).lookup objectId ≠ some noToken) :
    core.ReachesObject channelId objectId := by
  obtain ⟨token, channel, hl, htoken, hsel, hlinked⟩ := h.channel_of_object hmem
  have hkey : objectId ∈ AssocList.keys (objectsIn channelId register) :=
    AssocList.mem_keys_of_mem (mem_objectsIn.mpr hmem)
  obtain ⟨first, hlookup⟩ := AssocList.exists_lookup_iff_mem.mpr hkey
  obtain ⟨object, hselObject, hid⟩ :=
    hlinked.objects objectId first (AssocList.mem_of_lookup hlookup)
  have hne : first ≠ noToken := fun heq => hfirst (by rw [hlookup, heq])
  have hdiff : channel.getEnforcementObjectDiffToken objectId = first := by
    rw [ChannelDefault.getEnforcementObjectDiffToken, hlinked.linkers, hlookup]
    rfl
  refine ⟨token, channel, first, object, hsel, hselObject, hid, ?_⟩
  intro ruleType configurations
  rw [Core.employEnforcementRule, onChannel_of_lookup hl htoken hsel]
  simp only [ChannelDefault.configureEnforcementObject, hdiff, if_neg hne,
    SubmissionQueue.configureEnforcementObject, hselObject]
  rcases object.objConfigure ruleType configurations with f | ⟨object', status⟩ <;> rfl

/-- An identifier whose first object has the token that stands for none: no rule is employed. -/
theorem Recorded.not_reachesObject (h : Recorded core register) {channelId objectId : Int}
    (hfirst : (objectsIn channelId register).lookup objectId = some noToken) :
    ¬ core.ReachesObject channelId objectId := by
  have hmem := mem_objectsIn.mp (AssocList.mem_of_lookup hfirst)
  obtain ⟨token, channel, hl, htoken, hsel, hlinked⟩ := h.channel_of_object hmem
  rintro ⟨token', channel', objectToken, object, -, -, -, hemploy⟩
  obtain ⟨object', hinit⟩ := ChannelDefault.objConfigure_init object
  have hrule := hemploy DRLConfiguration.init.toInt [0, 0]
  have hdiff : channel.getEnforcementObjectDiffToken objectId = noToken := by
    rw [ChannelDefault.getEnforcementObjectDiffToken, hlinked.linkers, hfirst]
    rfl
  rw [hinit, Core.employEnforcementRule, onChannel_of_lookup hl htoken hsel,
    ChannelDefault.configureEnforcementObject, hdiff] at hrule
  simp [Except.map] at hrule

theorem Recorded.addressed_iff (h : Recorded core register) :
    Addressed hash core register ↔ TokensFit register := by
  constructor
  · intro ha
    refine ⟨?_, ?_⟩
    · intro channelId token hmem
      obtain ⟨channel, hreaches⟩ := ha.channels channelId token hmem
      exact hreaches.token_ne (h.lookup hmem)
    · intro channelId objectId hfirst
      have hmem := mem_objectsIn.mp (AssocList.mem_of_lookup hfirst)
      exact h.not_reachesObject hfirst (ha.objects channelId objectId noToken hmem)
  · intro ht
    refine ⟨?_, ?_⟩
    · intro channelId token hmem
      have hl := h.lookup hmem
      obtain ⟨channel, hsel, -⟩ := h.registry.entry channelId token (AssocList.mem_of_lookup hl)
      exact ⟨channel, reaches_of_lookup hl (ht.channels channelId token hmem) hsel⟩
    · intro channelId objectId token hmem
      exact h.reachesObject hmem (ht.objects channelId objectId)

/-- Whatever the hash and the calls: everything that was created can be addressed exactly when no
channel was created under `noToken`, and no object that is the first of its identifier. -/
theorem addressed_iff_tokensFit (h : History opt hash core register) :
    Addressed hash core register ↔ TokensFit register :=
  h.recorded.addressed_iff

theorem addressed_default_channel :
    let core := (Core.new workflowOptions).createDefaultChannel workflowOptions numeralHash
      (fun _ => 0) true 1
    Addressed numeralHash core [.channel 1 1, .object 1 0 68828294] := by
  intro core
  have hregister : (Core.new workflowOptions).defaultRegistrations workflowOptions numeralHash
      (fun _ => 0) true 1 = [.channel 1 1, .object 1 0 68828294] := by decide
  have h : History workflowOptions numeralHash core [.channel 1 1, .object 1 0 68828294] := by
    rw [← hregister]
    exact History.new.createDefaultChannel (fun _ => 0) true 1
  refine (addressed_iff_tokensFit h).mpr (.of_forall ?_)
  intro r hr
  obtain rfl | rfl : r = .channel 1 1 ∨ r = .object 1 0 68828294 := by simpa using hr
  · decide
  · decide

/-- The channel whose classifiers have the hash `noToken` is created, and no rule creates an object
in it. -/
theorem default_channel_not_addressed :
    let core := (Core.new workflowOptions).createDefaultChannel workflowOptions (fun _ => noToken)
      (fun _ => 0) false 1
    History workflowOptions (fun _ => noToken) core [.channel 1 noToken] ∧
      ¬ Addressed (fun _ => noToken) core [.channel 1 noToken] := by
  intro core
  have hregister : (Core.new workflowOptions).defaultRegistrations workflowOptions
      (fun _ => noToken) (fun _ => 0) false 1 = [.channel 1 noToken] := by decide
  have h : History workflowOptions (fun _ => noToken) core [.channel 1 noToken] := by
    rw [← hregister]
    exact History.new.createDefaultChannel (fun _ => 0) false 1
  refine ⟨h, fun ha => ?_⟩
  exact (h.recorded.addressed_iff.mp ha).channels 1 noToken (List.mem_singleton.mpr rfl) rfl

end Core

end Paio
