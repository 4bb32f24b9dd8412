import Paio.Isolation
import Paio.StageState

/-!
# Paio.ChannelFrames

What is left alone by what a control plane does. Rules create channels and objects under new
identifiers and tokens, and put themselves in a table; collections touch the statistics. A relation
that every channel has to itself, and to the channel that it becomes with one object more
(`ChannelDefault.Frame`), holds between the channels before and after any of this
(`Core.KeepsChannels`). Only an enforcement rule reaches further, into the object that it names.
-/

namespace Paio

variable {opt : Options} {hash : String → UInt32}

/-- A relation between a channel and what it becomes, when objects come in addition. -/
structure ChannelDefault.Frame (R : ChannelDefault → ChannelDefault → Prop) : Prop where
  refl : ∀ ch, R ch ch
  trans : ∀ {ch ch' ch''}, R ch ch' → R ch' ch'' → R ch ch''
  add : ∀ (ch : ChannelDefault) (objectId : Int) {token : UInt32} (object : EnforcementObject),
    token ∉ AssocList.keys ch.submissionQueue.enfObjects → R ch (ch.addObject objectId token object)

namespace Core

/-- Every channel that is there stays, with its linker and in the relation. -/
structure KeepsChannels (R : ChannelDefault → ChannelDefault → Prop) (core core' : Core) :
    Prop where
  linked : ∀ channelId token, core.channelIdToTokenLinkers.lookup channelId = some token →
    core'.channelIdToTokenLinkers.lookup channelId = some token
  channels : ∀ token channel, core.selectChannel token = some channel →
    ∃ channel', core'.selectChannel token = some channel' ∧ R channel channel'

namespace KeepsChannels

variable {R : ChannelDefault → ChannelDefault → Prop} {core core' core'' : Core}

theorem of_channels (hR : ChannelDefault.Frame R) (hchannels : core'.channels = core.channels)
    (hlinkers : core'.channelIdToTokenLinkers = core.channelIdToTokenLinkers) :
    KeepsChannels R core core' where
  linked := by
    intro channelId token hl
    rwa [hlinkers]
  channels := by
    intro token channel hsel
    rw [selectChannel, hchannels]
    exact ⟨channel, hsel, hR.refl channel⟩

theorem refl (hR : ChannelDefault.Frame R) (core : Core) : KeepsChannels R core core :=
  .of_channels hR rfl rfl

theorem trans (hR : ChannelDefault.Frame R) (h : KeepsChannels R core core')
    (h' : KeepsChannels R core' core'') : KeepsChannels R core core'' where
  linked := fun channelId token hl => h'.linked channelId token (h.linked channelId token hl)
  channels := by
    intro token channel hsel
    obtain ⟨channel', hsel', hrel⟩ := h.channels token channel hsel
    obtain ⟨channel'', hsel'', hrel'⟩ := h'.channels token channel' hsel'
    exact ⟨channel'', hsel'', hR.trans hrel hrel'⟩

theorem setChannel (hR : ChannelDefault.Frame R) {token : UInt32}
    {channel channel' : ChannelDefault} (hsel : core.selectChannel token = some channel)
    (hrel : R channel channel') : KeepsChannels R core (core.setChannel token channel') where
  linked := fun _ _ hl => hl
  channels := by
    intro token' other hother
    by_cases htoken : token' = token
    · subst htoken
      cases hsel.symm.trans hother
      exact ⟨channel', selectChannel_setChannel_self _ _ _, hrel⟩
    · exact ⟨other, (selectChannel_setChannel_ne htoken _ _).trans hother, hR.refl other⟩

theorem createChannel (hR : ChannelDefault.Frame R) (clock : Clock) (core : Core) (channelId : Int)
    (tuple : ChannelDifferentiationTuple) :
    KeepsChannels R core (core.createChannel opt hash clock channelId tuple).1 := by
  obtain ⟨htoken, hid, heq⟩ | ⟨_, heq⟩ := createChannel_cases opt hash clock core channelId tuple
  · rw [heq]
    refine ⟨fun channelId' token' hl => ?_, fun token' channel hsel => ?_⟩
    · -- the new linker comes last, and has a new identifier
      have hne : channelId' ≠ channelId := by
        rintro rfl
        exact hid (AssocList.mem_keys_of_mem (AssocList.mem_of_lookup hl))
      exact (AssocList.lookup_append_singleton_ne hne _ _).trans hl
    · have hne : token' ≠ core.channelDiffBuilder.buildDifferentiationToken hash tuple := by
        rintro rfl
        exact htoken (Finmap.mem_of_lookup_eq_some hsel)
      exact ⟨channel, (Finmap.lookup_insert_of_ne _ hne).trans hsel, hR.refl channel⟩
  · rw [heq]
    exact refl hR core

theorem onChannel (hR : ChannelDefault.Frame R) {channelId : Int} {status : PStatus}
    {work : ChannelDefault → Except Fault (ChannelDefault × PStatus)}
    (hwork : ∀ channel channel', work channel = .ok (channel', status) → R channel channel')
    (h : core.onChannel channelId work = .ok (core', status)) : KeepsChannels R core core' := by
  obtain ⟨rfl, _⟩ | ⟨token, channel, channel', _, _, hsel, hw, rfl⟩ := onChannel_cases h
  · exact refl hR _
  · exact setChannel hR hsel (hwork channel channel' hw)

theorem createEnforcementObject (hR : ChannelDefault.Frame R) {clock : Clock}
    {channelId objectId : Int} {pair : ObjectDifferentiationPair}
    {objectType : Option EnforcementObjectType} {configurations : List Int} {status : PStatus}
    (h : core.createEnforcementObject hash clock channelId objectId pair objectType
      configurations = .ok (core', status)) : KeepsChannels R core core' := by
  refine onChannel hR (fun channel channel' hw => ?_) h
  obtain ⟨rfl, _⟩ | ⟨_, object, _, _, hfree, _, rfl⟩ :=
    ChannelDefault.createEnforcementObject_cases hash hw
  · exact hR.refl _
  · exact hR.add channel objectId object hfree

theorem employRule (hR : ChannelDefault.Frame R) {clock : Clock} {rule : HousekeepingRule}
    {completion : Completion}
    (h : core.employRule opt hash clock rule = .ok (core', completion)) :
    KeepsChannels R core core' := by
  obtain ⟨_, _, hc, _⟩ | ⟨_, _, hc, _⟩ | ⟨_, _, _, rfl, _⟩ := employRule_cases opt hash h
  · have hkeeps : KeepsChannels R core
        (core.createChannel opt hash clock rule.channelId rule.channelTuple).1 :=
      createChannel hR clock core rule.channelId rule.channelTuple
    rwa [hc] at hkeeps
  · exact createEnforcementObject hR hc
  · exact refl hR _

theorem executeHousekeepingRule (hR : ChannelDefault.Frame R) {clock : Clock} {ruleId : UInt64}
    {completion : Completion}
    (h : core.executeHousekeepingRule opt hash clock ruleId = .ok (core', completion)) :
    KeepsChannels R core core' := by
  obtain ⟨rfl, _⟩ | ⟨rule, core₁, _, _, he, rfl⟩ := executeHousekeepingRule_cases opt hash h
  · exact refl hR _
  · have hkeeps := employRule hR he
    split
    · exact hkeeps.trans hR (.of_channels hR rfl rfl)
    · exact hkeeps

end KeepsChannels

end Core

/-! ## The agent -/

namespace Agent

variable {R : ChannelDefault → ChannelDefault → Prop} {agent agent' : Agent}

theorem employHousekeepingRule_keeps (hR : ChannelDefault.Frame R) {clock : Clock}
    {rule : HousekeepingRule} (htype : rule.Creates) {completion : Completion}
    (h : agent.employHousekeepingRule opt hash clock rule = .ok (agent', completion)) :
    agent.core.KeepsChannels R agent'.core := by
  by_cases hmem : rule.ruleId ∈ agent.core.housekeepingTable.housekeepingRules
  · rw [employHousekeepingRule_duplicate opt hash clock htype hmem] at h
    cases h
    exact .refl hR _
  · have hstage : agent.core.KeepsChannels R (agent.core.stage rule) := .of_channels hR rfl rfl
    rw [employHousekeepingRule_new opt hash clock htype hmem] at h
    split at h
    · split at h
      · rename_i core' completion' he
        cases h
        exact hstage.trans hR (.executeHousekeepingRule hR he)
      · cases h
    · cases h
      exact hstage

theorem executeHousekeepingRules_keeps (hR : ChannelDefault.Frame R) {clock : UInt64 → Clock}
    {order : List UInt64} {completion : Completion}
    (h : agent.executeHousekeepingRules opt hash clock order = .ok (agent', completion)) :
    agent.core.KeepsChannels R agent'.core := by
  have hrules : ∀ core completion, agent.core.executeHousekeepingRules opt hash clock order =
      .ok (core, completion) → agent.core.KeepsChannels R core := by
    intro core completion hc
    exact Core.executeRulesLoop_preserves
      (fun hkeeps he => hkeeps.trans hR (.executeHousekeepingRule hR he)) (.refl hR _) hc
  unfold Agent.executeHousekeepingRules at h
  split at h
  · rename_i core status hc
    cases h
    exact hrules _ _ hc
  · rename_i core what hc
    cases h
    exact hrules _ _ hc
  · cases h

/-- Collections keep what they keep of each channel. -/
theorem collectChannelStatistics_keeps (hR : ChannelDefault.Frame R)
    (hcollect : ∀ ch ch', ChannelDefault.Collected ch ch' → R ch ch') {readings : Readings}
    {channelId : Int} {status : PStatus} {values : List ChannelStatistics.ChannelStatsRaw}
    (h : agent.collectChannelStatistics readings channelId = .ok (agent', status, values)) :
    agent.core.KeepsChannels R agent'.core := by
  unfold Agent.collectChannelStatistics at h
  split at h
  · rename_i core status' values' hfrom
    cases h
    refine Core.collectFrom_preserves ?_ (.refl hR agent.core) hfrom
    intro core core' id status value hkeeps hc
    refine Core.collectOn_preserves (fun token channel channel' _ _ hsel hw => ?_) hkeeps hc
    exact hkeeps.trans hR (.setChannel hR hsel (hcollect _ _ (.general hw)))
  · cases h

theorem collectDetailedChannelStatistics_keeps (hR : ChannelDefault.Frame R)
    (hcollect : ∀ ch ch', ChannelDefault.Collected ch ch' → R ch ch') {readings : Readings}
    {channelId : Int} {status : PStatus} {stats : DetailedStats}
    (h : agent.collectDetailedChannelStatistics readings channelId =
      .ok (agent', status, stats)) : agent.core.KeepsChannels R agent'.core := by
  obtain ⟨core, values, hfrom, rfl, -⟩ := Agent.collectDetailedChannelStatistics_eq_ok h
  refine Core.collectFrom_preserves ?_ (.refl hR agent.core) hfrom
  intro core core' id status value hkeeps hc
  refine Core.collectOn_preserves (fun token channel channel' _ _ hsel hw => ?_) hkeeps hc
  exact hkeeps.trans hR (.setChannel hR hsel (hcollect _ _ (.detailed hw)))

end Agent

/-! ## The control operations -/

namespace Southbound

variable {R : ChannelDefault → ChannelDefault → Prop} {env : Environment} {stage : Stage}
  {handled : Handled} {received : List UInt8} {operation : ControlOperation}

/-- The operation is answered with an ACK, and the channels stay in the relation. -/
structure Acked (R : ChannelDefault → ChannelDefault → Prop) (stage : Stage) (handled : Handled) :
    Prop where
  keeps : stage.agent.core.KeepsChannels R handled.stage.agent.core
  replies : ∃ code, handled.replies = [.ack code]

theorem employHousekeepingRule_acked (hR : ChannelDefault.Frame R) {rule : HousekeepingRule}
    (htype : rule.Creates) (h : employHousekeepingRule opt hash env rule stage = .ok handled) :
    Acked R stage handled := by
  unfold employHousekeepingRule at h
  split at h
  · cases h
  · cases h
  · rename_i agent status he
    cases h
    exact ⟨Agent.employHousekeepingRule_keeps hR htype he, _, rfl⟩

theorem createHousekeepingRule_acked (hR : ChannelDefault.Frame R)
    (h : createHousekeepingRule opt hash env operation received stage = .ok handled) :
    Acked R stage handled := by
  simp only [createHousekeepingRule] at h
  split at h
  · split at h
    · cases h
      exact ⟨.refl hR _, _, rfl⟩
    · split at h
      · cases h
      · rename_i raw _
        exact employHousekeepingRule_acked hR raw.harmless_rule.creates h
  · split at h
    · cases h
      exact ⟨.refl hR _, _, rfl⟩
    · split at h
      · cases h
      · rename_i raw _
        exact employHousekeepingRule_acked hR raw.harmless_rule.creates h
  all_goals cases h
  exact ⟨.refl hR _, _, rfl⟩

/-- The enforcement rule that an operation brings. -/
def enforcementRuleOf (operation : ControlOperation) (received : List UInt8) :
    Option EnforcementRule :=
  if operation.type = some .createEnfRule ∧ received ≠ [] then
    match readInto EnforcementRuleRaw.layout {} received with
    | .ok enforcementRule => some (.ofRaw enforcementRule)
    | .error _ => none
  else none

/-- An operation either brings no rule, and keeps the channels, or is the employment of its rule. -/
theorem createEnforcementRule_cases (hR : ChannelDefault.Frame R)
    (htype : operation.type = some .createEnfRule)
    (h : createEnforcementRule received stage = .ok handled) :
    (∃ code, handled.replies = [.ack code]) ∧
      ((enforcementRuleOf operation received = none ∧
          stage.agent.core.KeepsChannels R handled.stage.agent.core) ∨
        ∃ rule status, enforcementRuleOf operation received = some rule ∧
          stage.agent.core.employ rule = .ok (handled.stage.agent.core, status)) := by
  simp only [createEnforcementRule] at h
  split at h
  · rename_i hempty
    cases h
    exact ⟨⟨_, rfl⟩, .inl ⟨if_neg fun hrule => hrule.2 hempty, .refl hR _⟩⟩
  · rename_i hreceived
    split at h
    · cases h
    · rename_i raw hraw
      split at h
      · cases h
      · rename_i core status he
        cases h
        refine ⟨⟨_, rfl⟩, .inr ⟨.ofRaw raw, status, ?_, he⟩⟩
        rw [enforcementRuleOf, if_pos ⟨htype, hreceived⟩, hraw]

theorem enforcementRuleOf_of_type_ne (htype : operation.type ≠ some .createEnfRule) :
    enforcementRuleOf operation received = none :=
  if_neg fun hrule => htype hrule.1

/-- The operations that neither bring an enforcement rule nor collect. -/
theorem handleControlOperation_acked (hR : ChannelDefault.Frame R)
    (hrule : operation.type ≠ some .createEnfRule) (hgeneral : operation.type ≠ some .collectStats)
    (hdetailed : operation.type ≠ some .collectDetailedStats)
    (h : handleControlOperation opt hash env operation received stage = .ok handled) :
    Acked R stage handled := by
  simp only [handleControlOperation] at h
  split at h
  · simp only [markStageAsReady] at h
    split at h
    · cases h
      exact ⟨.refl hR _, _, rfl⟩
    · split at h
      · cases h
      · split at h <;> cases h <;> exact ⟨.refl hR _, _, rfl⟩
  · rename_i htype
    exact absurd htype hgeneral
  · rename_i htype
    exact absurd htype hdetailed
  · exact createHousekeepingRule_acked hR h
  · cases h
  · rename_i htype
    exact absurd htype hrule
  · unfold executeHousekeepingRules at h
    split at h
    · cases h
    · cases h
    · rename_i agent status he
      cases h
      exact ⟨Agent.executeHousekeepingRules_keeps hR he, _, rfl⟩
  all_goals cases h

theorem collectStatistics_keeps (hR : ChannelDefault.Frame R)
    (hcollect : ∀ ch ch', ChannelDefault.Collected ch ch' → R ch ch')
    (h : collectStatistics env operation received stage = .ok handled) :
    stage.agent.core.KeepsChannels R handled.stage.agent.core := by
  unfold collectStatistics at h
  split at h
  · cases h
  · split at h
    · cases h
    · split at h
      · cases h
      · rename_i agent status channelStats hc
        have hkeeps := Agent.collectChannelStatistics_keeps hR hcollect hc
        split at h
        · split at h
          · cases h
          · cases h
            exact hkeeps
        · cases h
          exact hkeeps

theorem collectInstanceStatistics_keeps (hR : ChannelDefault.Frame R)
    (hcollect : ∀ ch ch', ChannelDefault.Collected ch ch' → R ch ch')
    (h : collectInstanceStatistics env operation stage = .ok handled) :
    stage.agent.core.KeepsChannels R handled.stage.agent.core := by
  have hanswer : ∀ {ρ : Type} {aggregate : DetailedStats → ρ → Except Fault (PStatus × ρ)}
      {initial : ρ} {reply : ρ → ControlReply},
      answerInstanceStatistics env aggregate initial reply stage = .ok handled →
      stage.agent.core.KeepsChannels R handled.stage.agent.core := by
    intro ρ aggregate initial reply ha
    obtain ⟨agent, status, stats, hc, hstage⟩ := replyStatistics_ok ha
    rw [hstage]
    exact Agent.collectDetailedChannelStatistics_keeps hR hcollect hc
  simp only [collectInstanceStatistics] at h
  split at h
  · exact hanswer h
  · exact hanswer h
  · exact hanswer h
  · exact hanswer h
  all_goals cases h
  all_goals exact .refl hR _

/-- An operation that is handled either brings no enforcement rule, and keeps the channels in every
relation that collections keep, or is the employment of its rule. -/
theorem handleControlOperation_cases (hR : ChannelDefault.Frame R)
    (hcollect : ∀ ch ch', ChannelDefault.Collected ch ch' → R ch ch')
    (h : handleControlOperation opt hash env operation received stage = .ok handled) :
    (enforcementRuleOf operation received = none ∧
        stage.agent.core.KeepsChannels R handled.stage.agent.core) ∨
      ∃ rule status, enforcementRuleOf operation received = some rule ∧
        stage.agent.core.employ rule = .ok (handled.stage.agent.core, status) := by
  by_cases hrule : operation.type = some .createEnfRule
  · simp only [handleControlOperation, hrule] at h
    exact (createEnforcementRule_cases hR hrule h).2
  · refine .inl ⟨enforcementRuleOf_of_type_ne hrule, ?_⟩
    by_cases hgeneral : operation.type = some .collectStats
    · simp only [handleControlOperation, hgeneral] at h
      exact collectStatistics_keeps hR hcollect h
    · by_cases hdetailed : operation.type = some .collectDetailedStats
      · simp only [handleControlOperation, hdetailed] at h
        exact collectInstanceStatistics_keeps hR hcollect h
      · exact (handleControlOperation_acked hR hrule hgeneral hdetailed h).keeps

end Southbound

end Paio
