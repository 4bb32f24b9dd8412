import Mathlib.Logic.Relation
import Paio.Core
import Paio.Library.LinkedMap

/-!
# Paio.Registry

The channel registry over whole runs. A core keeps its channels in a map by token and in a list of
linkers by identifier; the classifiers may change between two creations and the hash may collide,
but no run makes the two disagree.

The proof has one step for each way in which a call can touch the registry (`RegistryStep`): it
leaves it alone, it lets one channel work, or it adds a channel under a new token together with
the linker of a new identifier.
-/

namespace Paio

variable (opt : Options) (hash : String → UInt32)

/-! ## What can happen to a channel -/

/-- One call on a channel that comes back. -/
inductive ChannelDefault.Step : ChannelDefault → ChannelDefault → Prop
  | enforce {clock : Clock} {fuel : Nat} {context : Context} {buffer : Buffer} {size : Nat}
      {result result' : Result} {ch ch' : ChannelDefault}
      (h : ch.channelEnforce opt hash clock fuel context buffer size result = .ok (ch', result')) :
      Step ch ch'
  | createObject {clock : Clock} {objectId : Int} {pair : ObjectDifferentiationPair}
      {objectType : Option EnforcementObjectType} {configurations : List Int} {status : PStatus}
      {ch ch' : ChannelDefault}
      (h : ch.createEnforcementObject hash clock objectId pair objectType configurations =
        .ok (ch', status)) : Step ch ch'
  | configure {objectId config : Int} {configurations : List Int} {status : PStatus}
      {ch ch' : ChannelDefault}
      (h : ch.configureEnforcementObject objectId config configurations = .ok (ch', status)) :
      Step ch ch'
  | define (operationType operationContext : Bool) (ch : ChannelDefault) :
      Step ch (ch.defineObjectDifferentiation operationType operationContext)

/-- The states of one channel in the order in which calls on it produce them. -/
abbrev ChannelDefault.Evolves : ChannelDefault → ChannelDefault → Prop :=
  Relation.ReflTransGen (ChannelDefault.Step opt hash)

/-- The channel was constructed for the identifier and has only been worked on since. -/
def ChannelDefault.CreatedFor (channelId : Int) (ch : ChannelDefault) : Prop :=
  ch.channelId = toUInt32 channelId ∧
    ∃ clock, ChannelDefault.Evolves opt hash (ChannelDefault.new opt channelId clock) ch

namespace ChannelDefault

variable {opt hash}

theorem Step.channelId_eq {ch ch' : ChannelDefault} (h : Step opt hash ch ch') :
    ch'.channelId = ch.channelId := by
  cases h with
  | enforce h =>
    obtain ⟨q, _, stats, _, rfl⟩ := channelEnforce_cases opt hash h
    rfl
  | @createObject clock objectId pair objectType configurations status ch ch' h =>
    obtain ⟨rfl, _, _⟩ | ⟨_, _, _, _, _, _, rfl⟩ := createEnforcementObject_cases hash h
    · rfl
    · rfl
  | configure h =>
    obtain ⟨rfl, _⟩ | ⟨token, object, object', _, _, _, rfl⟩ := configureEnforcementObject_cases h
    · rfl
    · rfl
  | define t c ch => rfl

theorem CreatedFor.step {channelId : Int} {ch ch' : ChannelDefault}
    (h : CreatedFor opt hash channelId ch) (hs : Step opt hash ch ch') :
    CreatedFor opt hash channelId ch' := by
  obtain ⟨hid, clock, he⟩ := h
  exact ⟨hs.channelId_eq.trans hid, clock, he.tail hs⟩

theorem createdFor_new (channelId : Int) (clock : Clock) :
    CreatedFor opt hash channelId (new opt channelId clock) :=
  ⟨rfl, clock, .refl⟩

end ChannelDefault

namespace Core

/-! ## What can happen to the registry -/

/-- The ways in which a call can touch the channels and their linkers. -/
inductive RegistryStep (core core' : Core) : Prop
  | keep (hch : core'.channels = core.channels)
      (hl : core'.channelIdToTokenLinkers = core.channelIdToTokenLinkers)
  | work {token : UInt32} {channel channel' : ChannelDefault}
      (hsel : core.selectChannel token = some channel)
      (hstep : ChannelDefault.Step opt hash channel channel')
      (hch : core'.channels = core.channels.insert token channel')
      (hl : core'.channelIdToTokenLinkers = core.channelIdToTokenLinkers)
  | create {channelId : Int} {token : UInt32} {channel : ChannelDefault}
      (htoken : token ∉ core.channels)
      (hid : channelId ∉ AssocList.keys core.channelIdToTokenLinkers)
      (hnew : ChannelDefault.CreatedFor opt hash channelId channel)
      (hch : core'.channels = core.channels.insert token channel)
      (hl : core'.channelIdToTokenLinkers =
        core.channelIdToTokenLinkers ++ [(channelId, token)])

/-- The two containers of the registry are in bijection, and each linker leads to the channel that
was created for its identifier. -/
abbrev WellLinked (core : Core) : Prop :=
  LinkedMap.Linked (ChannelDefault.CreatedFor opt hash) core.channelIdToTokenLinkers core.channels

variable {opt hash}

theorem WellLinked.step {core core' : Core} (h : core.WellLinked opt hash)
    (hs : RegistryStep opt hash core core') : core'.WellLinked opt hash := by
  cases hs with
  | keep hch hl => rw [WellLinked, hch, hl]; exact h
  | work hsel hstep hch hl =>
    rw [WellLinked, hch, hl]
    exact h.update hsel fun _ hc => hc.step hstep
  | create htoken hid hnew hch hl =>
    rw [WellLinked, hch, hl]
    exact h.link hid htoken hnew

/-! ### Every call is such a step -/

theorem createdFor_newChannel (core : Core) (clock : Clock) (channelId : Int) :
    ChannelDefault.CreatedFor opt hash channelId (core.newChannel opt clock channelId) := by
  simp only [newChannel]
  split
  · exact (ChannelDefault.createdFor_new channelId clock).step (.define _ _ _)
  · exact ChannelDefault.createdFor_new channelId clock

theorem createChannel_step (clock : Clock) (core : Core) (channelId : Int)
    (tuple : ChannelDifferentiationTuple) :
    RegistryStep opt hash core (core.createChannel opt hash clock channelId tuple).1 := by
  obtain ⟨htoken, hid, heq⟩ | ⟨_, heq⟩ := createChannel_cases opt hash clock core channelId tuple
  · rw [heq]
    exact .create htoken hid (createdFor_newChannel core clock channelId) rfl rfl
  · rw [heq]
    exact .keep rfl rfl

theorem onChannel_step {core core' : Core} {channelId : Int} {status : PStatus}
    {work : ChannelDefault → Except Fault (ChannelDefault × PStatus)}
    (hwork : ∀ channel channel', work channel = .ok (channel', status) →
      ChannelDefault.Step opt hash channel channel')
    (h : core.onChannel channelId work = .ok (core', status)) :
    RegistryStep opt hash core core' := by
  obtain ⟨rfl, _⟩ | ⟨token, channel, channel', _, _, hsel, hw, rfl⟩ := onChannel_cases h
  · exact .keep rfl rfl
  · exact .work hsel (hwork channel channel' hw) rfl rfl

theorem createEnforcementObject_step {clock : Clock} {core core' : Core} {channelId objectId : Int}
    {pair : ObjectDifferentiationPair} {objectType : Option EnforcementObjectType}
    {configurations : List Int} {status : PStatus}
    (h : core.createEnforcementObject hash clock channelId objectId pair objectType
      configurations = .ok (core', status)) : RegistryStep opt hash core core' :=
  onChannel_step (fun _ _ hw => .createObject hw) h

theorem enforceRequest_step {clock : Clock} {fuel : Nat} {core core' : Core} {context : Context}
    {buffer : Buffer} {size : Nat} {result result' : Result}
    (h : core.enforceRequest opt hash clock fuel context buffer size result =
      .ok (core', result')) : RegistryStep opt hash core core' := by
  obtain ⟨_, rfl, _⟩ | ⟨channel, channel', hsel, hw, rfl⟩ := enforceRequest_cases opt hash h
  · exact .keep rfl rfl
  · exact .work hsel (.enforce hw) rfl rfl

theorem employRule_step {clock : Clock} {core core' : Core} {rule : HousekeepingRule}
    {completion : Completion}
    (h : core.employRule opt hash clock rule = .ok (core', completion)) :
    RegistryStep opt hash core core' := by
  obtain ⟨_, _, hc, _⟩ | ⟨_, _, hc, _⟩ | ⟨_, _, _, rfl, _⟩ := employRule_cases opt hash h
  · have hs : RegistryStep opt hash core _ :=
      createChannel_step clock core rule.channelId rule.channelTuple
    rwa [hc] at hs
  · exact createEnforcementObject_step hc
  · exact .keep rfl rfl

theorem executeHousekeepingRule_step {clock : Clock} {core core' : Core} {ruleId : UInt64}
    {completion : Completion}
    (h : core.executeHousekeepingRule opt hash clock ruleId = .ok (core', completion)) :
    RegistryStep opt hash core core' := by
  obtain ⟨rfl, _⟩ | ⟨rule, core₁, _, _, he, rfl⟩ := executeHousekeepingRule_cases opt hash h
  · exact .keep rfl rfl
  · -- marking the rule changes the table only
    have hs := employRule_step he
    split
    · cases hs with
      | keep hch hl => exact .keep hch hl
      | work hsel hstep hch hl => exact .work hsel hstep hch hl
      | create htoken hid hnew hch hl => exact .create htoken hid hnew hch hl
    · exact hs

/-- What every execution of a rule keeps, the loop over the rules keeps. -/
theorem executeRulesLoop_preserves {P : Core → Prop}
    (hrule : ∀ {core core' : Core} {clock : Clock} {ruleId : UInt64} {completion : Completion},
      P core → core.executeHousekeepingRule opt hash clock ruleId = .ok (core', completion) →
      P core')
    {clock : UInt64 → Clock} {order : List UInt64} {status : PStatus} {core core' : Core}
    {completion : Completion} (hP : P core)
    (h : core.executeRulesLoop opt hash clock order status = .ok (core', completion)) :
    P core' := by
  induction order generalizing core status with
  | nil =>
    simp only [Core.executeRulesLoop] at h
    cases h
    exact hP
  | cons ruleId rest ih =>
    simp only [Core.executeRulesLoop] at h
    split at h
    · exact ih hP h
    · split at h
      · exact ih hP h
      · split at h
        · rename_i core₁ status' he
          split at h
          · cases h
            exact hrule hP he
          · exact ih (hrule hP he) h
        · rename_i core₁ what he
          cases h
          exact hrule hP he
        · cases h

theorem WellLinked.executeRulesLoop {clock : UInt64 → Clock} {order : List UInt64}
    {status : PStatus} {core core' : Core} {completion : Completion}
    (hw : core.WellLinked opt hash)
    (h : core.executeRulesLoop opt hash clock order status = .ok (core', completion)) :
    core'.WellLinked opt hash :=
  executeRulesLoop_preserves (fun hw he => hw.step (executeHousekeepingRule_step he)) hw h

/-! ### The constructors -/

theorem wellLinked_new : (Core.new opt).WellLinked opt hash := LinkedMap.linked_empty

theorem WellLinked.createDefaultChannel {core : Core} (hw : core.WellLinked opt hash)
    (clock : Clock) (createDefaultObjects : Bool) (i : Int) :
    (core.createDefaultChannel opt hash clock createDefaultObjects i).WellLinked opt hash := by
  have hw' := hw.step (createChannel_step clock core i (defaultTuple i))
  simp only [Core.createDefaultChannel]
  split
  · split
    · rename_i core'' status hc
      exact hw'.step (createEnforcementObject_step hc)
    · exact hw'
  · exact hw'

/-- What the default constructor gives and every pass keeps, the parameterized constructor gives. -/
theorem newWith_preserves {P : Core → Prop} {createDefaultObjects : Bool} (hnew : P (Core.new opt))
    (hpass : ∀ (core : Core) (clock : Clock) (i : Int), P core →
      P (core.createDefaultChannel opt hash clock createDefaultObjects i))
    (channels : Int) (createDefaultChannels : Bool) (clock : Nat → Clock) :
    P (newWith opt hash channels createDefaultChannels createDefaultObjects clock) := by
  simp only [newWith]
  split
  · refine List.foldlRecOn (motive := P) _ _ hnew ?_
    intro core hP i _
    exact hpass core (clock i) (i + 1) hP
  · exact hnew

theorem wellLinked_newWith (channels : Int) (createDefaultChannels createDefaultObjects : Bool)
    (clock : Nat → Clock) :
    (newWith opt hash channels createDefaultChannels createDefaultObjects clock).WellLinked
      opt hash :=
  newWith_preserves (P := fun core => core.WellLinked opt hash) wellLinked_new
    (fun _ clock i hw => hw.createDefaultChannel clock createDefaultObjects i) channels
    createDefaultChannels clock

/-! ## Runs of a core -/

variable (opt hash)

/-- One public call that comes back, with a status or with an exception. -/
inductive Step : Core → Core → Prop
  | defineChannelDifferentiation (workflow operationType operationContext : Bool) (core : Core) :
      Step core (core.defineChannelDifferentiation workflow operationType operationContext)
  | defineEnforcementObjectDifferentiation {channelId : Int}
      {operationType operationContext : Bool} {status : PStatus} {core core' : Core}
      (h : core.defineEnforcementObjectDifferentiation channelId operationType operationContext =
        .ok (core', status)) : Step core core'
  | insertHousekeepingRule (rule : HousekeepingRule) (core : Core) :
      Step core (core.insertHousekeepingRule rule).1
  | insertHousekeepingRuleOf (ruleId : UInt64) (operation : HousekeepingOperation)
      (channelId enforcementObjectId : Int) (properties : List Int) (core : Core) :
      Step core (core.insertHousekeepingRuleOf ruleId operation channelId enforcementObjectId
        properties).1
  | executeHousekeepingRule {clock : Clock} {ruleId : UInt64} {completion : Completion}
      {core core' : Core}
      (h : core.executeHousekeepingRule opt hash clock ruleId = .ok (core', completion)) :
      Step core core'
  | executeHousekeepingRules {clock : UInt64 → Clock} {order : List UInt64}
      {completion : Completion} {core core' : Core}
      (horder : core.housekeepingTable.IsIterationOrder order)
      (h : core.executeHousekeepingRules opt hash clock order = .ok (core', completion)) :
      Step core core'
  | employEnforcementRule {channelId objectId ruleType : Int} {configurations : List Int}
      {status : PStatus} {core core' : Core}
      (h : core.employEnforcementRule channelId objectId ruleType configurations =
        .ok (core', status)) : Step core core'
  | enforceRequest {clock : Clock} {fuel : Nat} {context : Context} {buffer : Buffer} {size : Nat}
      {result result' : Result} {core core' : Core}
      (h : core.enforceRequest opt hash clock fuel context buffer size result =
        .ok (core', result')) : Step core core'

/-- The states that calls reach from one of the two constructors. -/
inductive Reachable : Core → Prop
  | new : Reachable (Core.new opt)
  | newWith (channels : Int) (createDefaultChannels createDefaultObjects : Bool)
      (clock : Nat → Clock) :
      Reachable (Core.newWith opt hash channels createDefaultChannels createDefaultObjects clock)
  | step {core core' : Core} (h : Reachable core) (hs : Step opt hash core core') :
      Reachable core'

variable {opt hash}

theorem WellLinked.call {core core' : Core} (hw : core.WellLinked opt hash)
    (hs : Step opt hash core core') : core'.WellLinked opt hash := by
  cases hs with
  | defineChannelDifferentiation w t c core => exact hw.step (.keep rfl rfl)
  | defineEnforcementObjectDifferentiation h =>
    refine hw.step (onChannel_step ?_ h)
    intro channel channel' hd
    cases hd
    exact .define _ _ channel
  | insertHousekeepingRule rule core => exact hw.step (.keep rfl rfl)
  | insertHousekeepingRuleOf id op ch obj props core => exact hw.step (.keep rfl rfl)
  | executeHousekeepingRule h => exact hw.step (executeHousekeepingRule_step h)
  | executeHousekeepingRules _ h => exact hw.executeRulesLoop h
  | employEnforcementRule h => exact hw.step (onChannel_step (fun _ _ hc => .configure hc) h)
  | enforceRequest h => exact hw.step (enforceRequest_step h)

theorem Reachable.wellLinked {core : Core} (h : core.Reachable opt hash) :
    core.WellLinked opt hash := by
  induction h with
  | new => exact wellLinked_new
  | newWith channels dc dobj clock => exact wellLinked_newWith channels dc dobj clock
  | step _ hs ih => exact ih.call hs

/-- In every reachable core the linkers are a bijection between identifiers and the tokens of the
channel map, each linker leads to the channel created for its identifier, and the number of
channels is reported as an `int`. -/
theorem reachable_registry {core : Core} (h : core.Reachable opt hash) :
    (core.channelIdToTokenLinkers.map Prod.fst).Nodup ∧
    (core.channelIdToTokenLinkers.map Prod.snd).Nodup ∧
    (core.channelIdToTokenLinkers.map Prod.snd).toFinset = core.channels.keys ∧
    (∀ channelId token, (channelId, token) ∈ core.channelIdToTokenLinkers →
      ∃ channel, core.selectChannel token = some channel ∧
        channel.CreatedFor opt hash channelId) ∧
    core.getTotalChannels = toInt32 core.channels.keys.card ∧
    (core.channels.keys.card < 2 ^ 31 → core.getTotalChannels = core.channels.keys.card) := by
  have hw := h.wellLinked
  have htotal : core.getTotalChannels = toInt32 core.channels.keys.card := by
    rw [getTotalChannels, hw.length_eq_card]
  refine ⟨hw.ids_nodup, hw.tokens_nodup, hw.toFinset_tokens, hw.entry, htotal, ?_⟩
  intro hlt
  rw [htotal, toInt32]
  exact Int.bmod_eq_of_le (by omega) (by omega)

/-- Channels told apart by their workflow alone. -/
def workflowOptions : Options :=
  { channelDifferentiationWorkflow := true, channelDifferentiationOperationContext := false }

theorem reachable_registry_three :
    let core := Core.newWith workflowOptions numeralHash 3 true true fun _ _ => 0
    core.channelIdToTokenLinkers = [(1, 1), (2, 2), (3, 3)] ∧
      core.channels.keys.card < 2 ^ 31 ∧ core.getTotalChannels = core.channels.keys.card := by
  have h := reachable_registry
    (Reachable.newWith 3 true true fun _ _ => 0 : Reachable workflowOptions numeralHash _)
  exact ⟨by decide, by decide, h.2.2.2.2.2 (by decide)⟩

/-! ## More channels than an `int` counts

One `create_channel` rule after another, with the workflow as the only classifier, gives every
number of channels up to `2^32`. -/

/-- The rule that creates channel `n` for workflow `n`. -/
def workflowRule (n : Nat) : HousekeepingRule where
  ruleId := UInt64.ofNat n
  ruleType := .createChannel
  channelId := n
  properties := [0, n]

theorem workflowRule_channelTuple (n : Nat) :
    (workflowRule n).channelTuple.workflowIdentifier = UInt32.ofNat n := by
  simp [HousekeepingRule.channelTuple, HousekeepingRule.getPropertyAtIndex,
    HousekeepingRule.getPropertiesSize, workflowRule, toInt32, toUInt32_natCast]

/-- A core after the rules for workflows below `n`. -/
structure Populated (n : Nat) (core : Core) : Prop where
  reachable : core.Reachable workflowOptions numeralHash
  builder : core.channelDiffBuilder = .bound true false false
  length : core.channelIdToTokenLinkers.length = n
  ids_lt : ∀ id ∈ AssocList.keys core.channelIdToTokenLinkers, id < n
  tokens_lt : ∀ token ∈ core.channels, token.toNat < n
  rules_lt : ∀ id ∈ core.housekeepingTable.housekeepingRules, id.toNat < n

theorem populated_new : Populated 0 (Core.new workflowOptions) where
  reachable := .new
  builder := rfl
  length := rfl
  ids_lt := by simp [Core.new]
  tokens_lt := by simp [Core.new, Finmap.notMem_empty]
  rules_lt := by simp [Core.new, Finmap.notMem_empty]

/-- Inserting and executing the next rule creates the next channel: neither its token nor its
identifier is taken. -/
theorem Populated.execute {n : Nat} {core : Core} (h : Populated n core) (hn : n < 2 ^ 32) :
    (core.stage (workflowRule n)).executeHousekeepingRule workflowOptions numeralHash (fun _ => 0)
      (workflowRule n).ruleId =
    .ok ((((core.stage (workflowRule n)).setChannel (UInt32.ofNat n)
      (core.newChannel workflowOptions (fun _ => 0) n)).createNewChannelLinker n
        (UInt32.ofNat n)).markEnforced (workflowRule n).ruleId, .returned .ok) := by
  have htoken : (core.stage (workflowRule n)).channelDiffBuilder.buildDifferentiationToken
      numeralHash (workflowRule n).channelTuple = UInt32.ofNat n := by
    rw [show (core.stage (workflowRule n)).channelDiffBuilder = .bound true false false
      from h.builder]
    exact (numeralHash_decimal _).trans (workflowRule_channelTuple n)
  have hsel : (core.stage (workflowRule n)).housekeepingTable.selectHousekeepingRule
      (workflowRule n).ruleId = some (workflowRule n) :=
    HousekeepingTable.selectHousekeepingRule_stage _ _
  rw [executeHousekeepingRule_pending _ _ _ hsel rfl]
  obtain ⟨_, _, heq⟩ | ⟨htaken, _⟩ := createChannel_cases workflowOptions numeralHash (fun _ => 0)
    (core.stage (workflowRule n)) n (workflowRule n).channelTuple
  · rw [htoken] at heq
    simp only [employRule, workflowRule]
    simp only [workflowRule] at heq
    rw [heq]
    rfl
  · exfalso
    rcases htaken with ht | hid
    · rw [htoken] at ht
      have := h.tokens_lt _ ht
      rw [UInt32.toNat_ofNat'] at this
      omega
    · exact absurd (h.ids_lt _ hid) (lt_irrefl _)

theorem Populated.succ {n : Nat} {core : Core} (h : Populated n core) (hn : n < 2 ^ 32) :
    ∃ core', Populated (n + 1) core' := by
  have hid : (workflowRule n).ruleId.toNat = n := by
    rw [workflowRule, UInt64.toNat_ofNat']; omega
  have hnew : (workflowRule n).ruleId ∉ core.housekeepingTable.housekeepingRules := by
    intro hmem
    have := h.rules_lt _ hmem
    omega
  have hins : Step workflowOptions numeralHash core (core.stage (workflowRule n)) := by
    have hcore : core.stage (workflowRule n) =
        (core.insertHousekeepingRule (workflowRule n)).1 := by
      rw [insertHousekeepingRule_eq, if_neg hnew]
    rw [hcore]
    exact .insertHousekeepingRule (workflowRule n) core
  refine ⟨_, ⟨(h.reachable.step hins).step (.executeHousekeepingRule (h.execute hn)),
    h.builder, ?_, ?_, ?_, ?_⟩⟩
  · simp [markEnforced, createNewChannelLinker, setChannel, stage, h.length]
  · intro id hmem
    simp only [markEnforced, createNewChannelLinker, setChannel, stage, AssocList.keys_append,
      AssocList.keys_cons, AssocList.keys_nil, List.mem_append, List.mem_singleton] at hmem
    rcases hmem with hold | rfl
    · have := h.ids_lt id hold
      omega
    · omega
  · intro token hmem
    simp only [markEnforced, createNewChannelLinker, setChannel, stage, Finmap.mem_insert] at hmem
    rcases hmem with rfl | hold
    · rw [UInt32.toNat_ofNat']; omega
    · have := h.tokens_lt token hold
      omega
  · intro id hmem
    simp only [markEnforced, HousekeepingTable.mem_markHousekeepingRuleAsEnforced,
      createNewChannelLinker, setChannel, stage, HousekeepingTable.stage,
      Finmap.mem_insert] at hmem
    rcases hmem with rfl | hold
    · omega
    · have := h.rules_lt id hold
      omega

theorem exists_populated {n : Nat} (hn : n ≤ 2 ^ 32) : ∃ core, Populated n core := by
  induction n with
  | zero => exact ⟨_, populated_new⟩
  | succ n ih =>
    obtain ⟨core, h⟩ := ih (by omega)
    exact h.succ (by omega)

/-- With `2^31` channels the `int` that `get_total_channels` returns is negative. -/
theorem getTotalChannels_wraps : ∃ core : Core, core.Reachable workflowOptions numeralHash ∧
    core.channels.keys.card = 2 ^ 31 ∧ core.getTotalChannels = -2 ^ 31 := by
  obtain ⟨core, h⟩ := exists_populated (n := 2 ^ 31) (by omega)
  refine ⟨core, h.reachable, ?_, ?_⟩
  · rw [← h.reachable.wellLinked.length_eq_card, h.length]
  · rw [getTotalChannels, h.length]
    decide

end Core

end Paio
