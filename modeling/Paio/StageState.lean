import Paio.Deferred
import Paio.Southbound
import Paio.StatisticCounters

/-!
# Paio.StageState

The states that a stage under a control plane can be in. Its rules come from control operations
only, since a rules file is read without a control plane. What the constructor gives and everything
keeps that a stage does to its core (`Core.Kept`) holds in all of these states.

`Stage.Reachable.sound` is one such property: every channel has as many windowed counters as
statistic entries, and no rule in the housekeeping table can fault or throw when it is executed.
-/

namespace Paio

variable {opt : Options} {hash : String → UInt32}

open ChannelStatistics (ChannelStatsRaw)

/-! ## Windows of channels -/

/-- There is a windowed counter for every statistic entry. -/
def ChannelDefault.Sized (ch : ChannelDefault) : Prop :=
  ch.channelStatistics.windowedCounter.length = ch.channelStatistics.statsSize.toNat

namespace ChannelStatistics

theorem updateStatisticEntry_shape {s s' : ChannelStatistics} {operationType operationContext : Int}
    {value : UInt64} (h : s.updateStatisticEntry operationType operationContext value = .ok s') :
    s'.windowedCounter.length = s.windowedCounter.length ∧ s'.statsSize = s.statsSize := by
  have hentry : ∀ operation, s.updateEntry operation value = .ok s' →
      s'.windowedCounter.length = s.windowedCounter.length ∧ s'.statsSize = s.statsSize := by
    intro operation hu
    simp only [updateEntry] at hu
    split at hu
    · cases hu
      exact ⟨List.length_modify .., rfl⟩
    · cases hu
  simp only [updateStatisticEntry] at h
  split at h
  · exact hentry operationContext h
  · exact hentry operationType h

end ChannelStatistics

namespace ChannelDefault

variable {ch ch' : ChannelDefault}

theorem sized_new (channelId : Int) (clock : Clock) : (new opt channelId clock).Sized := by
  simp only [Sized, new]
  split
  · simp [ChannelStatistics.initializeEntries]
  · rfl

theorem Sized.recordStatistics {context : Context} (hs : ch.Sized)
    (h : ch.recordStatistics opt context = .ok ch') : ch'.Sized := by
  simp only [ChannelDefault.recordStatistics] at h
  split at h
  · split at h
    · rename_i stats hu
      cases h
      obtain ⟨hlength, hsize⟩ := ChannelStatistics.updateStatisticEntry_shape hu
      unfold Sized
      simp only
      rw [hlength, hsize]
      exact hs
    · cases h
  · cases h
    exact hs

/-- No call on a channel changes the number of its windowed counters. -/
theorem Sized.step (hs : ch.Sized) (h : Step opt hash ch ch') : ch'.Sized := by
  cases h with
  | enforce h =>
    rw [channelEnforce_eq] at h
    simp only [finishRequest] at h
    split at h
    · cases h
    · rename_i q result' _
      split at h
      · rename_i ch'' hr
        cases h
        have hs' : ({ ch with ticketId := ch.ticketId + 1, submissionQueue := q } :
            ChannelDefault).Sized := hs
        exact hs'.recordStatistics hr
      · cases h
  | createObject h =>
    obtain ⟨rfl, _, _⟩ | ⟨_, _, _, _, _, _, rfl⟩ := createEnforcementObject_cases hash h
    · exact hs
    · exact hs
  | configure h =>
    obtain ⟨rfl, _⟩ | ⟨token, object, object', _, _, _, rfl⟩ := configureEnforcementObject_cases h
    · exact hs
    · exact hs
  | define t c ch => exact hs

theorem CreatedFor.sized {channelId : Int} (h : CreatedFor opt hash channelId ch) : ch.Sized := by
  obtain ⟨-, clock, he⟩ := h
  induction he with
  | refl => exact sized_new channelId clock
  | tail _ hstep ih => exact ih.step hstep

end ChannelDefault

/-! ## Rules that can be executed -/

/-- Executing the rule comes back: it is of one of the two types, and a rule of an object does not
carry a single configuration value, of which a rate limiter would read two. -/
structure HousekeepingRule.Harmless (r : HousekeepingRule) : Prop where
  creates : r.Creates
  configurations : r.objectConfigurations.length ≠ 1

theorem HousekeepingCreateChannelRaw.harmless_rule (r : HousekeepingCreateChannelRaw) :
    r.rule.Harmless := by
  refine ⟨.inl rfl, ?_⟩
  have hnone : r.rule.objectConfigurations = [] := by
    simp [HousekeepingRule.objectConfigurations, HousekeepingRule.getPropertiesAtRange,
      HousekeepingRule.getPropertiesSize, rule, toInt32]
  rw [hnone]
  decide

theorem HousekeepingCreateObjectRaw.harmless_rule (r : HousekeepingCreateObjectRaw) :
    r.rule.Harmless := by
  refine ⟨.inr rfl, ?_⟩
  have htwo : r.rule.objectConfigurations = [r.propertyFirst, r.propertySecond] := by
    simp [HousekeepingRule.objectConfigurations, HousekeepingRule.getPropertiesAtRange,
      HousekeepingRule.getPropertiesSize, rule, toInt32]
  rw [htwo]
  exact (by decide : (2 : Nat) ≠ 1)

variable (hash) in
theorem ChannelDefault.createEnforcementObject_total (ch : ChannelDefault) (clock : Clock)
    (objectId : Int) (pair : ObjectDifferentiationPair)
    (objectType : Option EnforcementObjectType) {configurations : List Int}
    (h : configurations.length ≠ 1) :
    ∃ ch' status, ch.createEnforcementObject hash clock objectId pair objectType configurations =
      .ok (ch', status) := by
  rw [createEnforcementObject_eq]
  cases objectType with
  | none => exact ⟨ch, _, rfl⟩
  | some type =>
    simp only
    split
    · exact ⟨ch, _, rfl⟩
    · obtain ⟨object, ho⟩ : ∃ object,
          ch.initialObject clock objectId type configurations = .ok object := by
        cases ho : ch.initialObject clock objectId type configurations with
        | ok object => exact ⟨object, rfl⟩
        | error f => exact absurd (initialObject_error_iff.mp ⟨f, ho⟩).2 h
      rw [ho]
      exact ⟨_, _, rfl⟩

namespace Core

/-! ## Sound cores -/

structure Sound (core : Core) : Prop where
  windowed : LinkedMap.Linked (fun _ => ChannelDefault.Sized) core.channelIdToTokenLinkers
    core.channels
  harmless : ∀ id r, core.housekeepingTable.housekeepingRules.lookup id = some r → r.Harmless

variable {core core' : Core}

theorem Sound.setChannel (h : core.Sound) {token : UInt32} {channel channel' : ChannelDefault}
    (hsel : core.selectChannel token = some channel) (hs : channel'.Sized) :
    (core.setChannel token channel').Sound where
  windowed := h.windowed.update hsel fun _ _ => hs
  harmless := h.harmless

theorem Sound.sized (h : core.Sound) {token : UInt32} {channel : ChannelDefault}
    (hsel : core.selectChannel token = some channel) : channel.Sized := by
  obtain ⟨id, hlink⟩ := h.windowed.exists_link hsel
  obtain ⟨channel', hsel', hs⟩ := h.windowed.entry id token hlink
  obtain rfl : channel = channel' := Option.some.inj (hsel.symm.trans hsel')
  exact hs

/-- A call that leaves the table alone and touches the registry as calls do. -/
theorem Sound.step (h : core.Sound) (hs : RegistryStep opt hash core core')
    (htable : core'.housekeepingTable = core.housekeepingTable) : core'.Sound where
  windowed := by
    cases hs with
    | keep hch hl => rw [hch, hl]; exact h.windowed
    | work hsel hstep hch hl =>
      rw [hch, hl]
      exact h.windowed.update hsel fun _ hc => hc.step hstep
    | create htoken hid hnew hch hl =>
      rw [hch, hl]
      exact h.windowed.link hid htoken hnew.sized
  harmless := by rw [htable]; exact h.harmless

theorem Sound.stage (h : core.Sound) {r : HousekeepingRule} (hr : r.Harmless) :
    (core.stage r).Sound where
  windowed := h.windowed
  harmless := by
    intro id r' hl
    by_cases hid : id = r.ruleId
    · subst hid
      obtain rfl : r = r' := Option.some.inj ((Finmap.lookup_insert _).symm.trans hl)
      exact hr
    · exact h.harmless id r' ((Finmap.lookup_insert_of_ne _ hid).symm.trans hl)

theorem Sound.markEnforced (h : core.Sound) (ruleId : UInt64) :
    (core.markEnforced ruleId).Sound where
  windowed := h.windowed
  harmless := by
    intro id r hl
    have hmem : id ∈ core.housekeepingTable.housekeepingRules :=
      HousekeepingTable.mem_markHousekeepingRuleAsEnforced.mp (Finmap.mem_of_lookup_eq_some hl)
    obtain ⟨current, hcurrent⟩ := Option.isSome_iff_exists.mp (Finmap.lookup_isSome.mpr hmem)
    have hr := h.harmless id current hcurrent
    rw [lookup_markEnforced hcurrent ruleId] at hl
    cases hl
    split
    · exact ⟨hr.creates, hr.configurations⟩
    · exact hr

/-- A call that names a channel comes back when the work on every channel does. -/
theorem onChannel_total (core : Core) (channelId : Int)
    {work : ChannelDefault → Except Fault (ChannelDefault × PStatus)}
    (hwork : ∀ channel, ∃ channel' status, work channel = .ok (channel', status)) :
    ∃ core' status, core.onChannel channelId work = .ok (core', status) := by
  unfold onChannel
  simp only
  split
  · exact ⟨_, _, rfl⟩
  · split
    · rename_i channel _
      obtain ⟨channel', status, hc⟩ := hwork channel
      rw [hc]
      exact ⟨_, _, rfl⟩
    · exact ⟨_, _, rfl⟩

variable (opt hash)

/-- Executing a harmless rule comes back with a status. -/
theorem Sound.employRule (h : core.Sound) (clock : Clock) {r : HousekeepingRule}
    (hr : r.Harmless) :
    ∃ core' status, core.employRule opt hash clock r = .ok (core', .returned status) ∧
      core'.Sound := by
  have hok : ∃ core' status, core.employRule opt hash clock r = .ok (core', .returned status) := by
    rcases hr.creates with ht | ht
    · exact ⟨_, _, employRule_createChannel opt hash clock core ht⟩
    · obtain ⟨core', status, hc⟩ := core.onChannel_total r.channelId fun channel =>
        channel.createEnforcementObject_total hash clock r.enforcementObjectId r.objectPair
          r.objectType hr.configurations
      rw [employRule_createObject opt hash clock core ht, createEnforcementObject, hc]
      exact ⟨core', status, rfl⟩
  obtain ⟨core', status, he⟩ := hok
  exact ⟨core', status, he, h.step (employRule_step he) (employRule_housekeepingTable he)⟩

theorem Sound.executeHousekeepingRule (h : core.Sound) (clock : Clock) (ruleId : UInt64) :
    ∃ core' status, core.executeHousekeepingRule opt hash clock ruleId =
      .ok (core', .returned status) ∧ core'.Sound := by
  cases hsel : core.housekeepingTable.selectHousekeepingRule ruleId with
  | none => exact ⟨core, .notFound, by rw [Core.executeHousekeepingRule, hsel], h⟩
  | some rule =>
    cases henf : rule.enforced with
    | true =>
      refine ⟨core, .enforced, ?_, h⟩
      rw [Core.executeHousekeepingRule, hsel]
      simp only [henf, if_true]
    | false =>
      obtain ⟨core₁, status, he, h₁⟩ := h.employRule opt hash clock
        (h.harmless ruleId rule hsel)
      rw [executeHousekeepingRule_pending opt hash clock hsel henf, he]
      by_cases hok : status = .ok
      · subst hok
        exact ⟨_, _, rfl, h₁.markEnforced ruleId⟩
      · refine ⟨core₁, status, ?_, h₁⟩
        split
        · rename_i heq
          cases heq
          exact absurd rfl hok
        · rename_i heq
          cases heq
          rfl
        · rename_i heq
          cases heq

theorem Sound.executeRulesLoop (h : core.Sound) (clock : UInt64 → Clock) (order : List UInt64)
    (status : PStatus) :
    ∃ core' status', core.executeRulesLoop opt hash clock order status =
      .ok (core', .returned status') ∧ core'.Sound := by
  induction order generalizing core status with
  | nil => exact ⟨core, status, rfl, h⟩
  | cons ruleId rest ih =>
    rw [Core.executeRulesLoop]
    split
    · exact ih h status
    · split
      · exact ih h status
      · obtain ⟨core₁, status₁, he, h₁⟩ := h.executeHousekeepingRule opt hash (clock ruleId)
          ruleId
        rw [he]
        simp only
        split
        · exact ⟨core₁, .error, rfl, h₁⟩
        · exact ih h₁ status₁

end Core

namespace Agent

variable (opt hash) {agent : Agent}

theorem employHousekeepingRule_total (h : agent.core.Sound) (clock : Clock) {r : HousekeepingRule}
    (hr : r.Harmless) :
    ∃ agent' status, agent.employHousekeepingRule opt hash clock r =
      .ok (agent', .returned status) ∧ agent'.core.Sound := by
  by_cases hmem : r.ruleId ∈ agent.core.housekeepingTable.housekeepingRules
  · exact ⟨agent, .error, employHousekeepingRule_duplicate opt hash clock hr.creates hmem, h⟩
  · rw [employHousekeepingRule_new opt hash clock hr.creates hmem]
    split
    · obtain ⟨core', status, he, h'⟩ :=
        (h.stage hr).executeHousekeepingRule opt hash clock r.ruleId
      rw [he]
      exact ⟨_, status, rfl, h'⟩
    · exact ⟨_, _, rfl, h.stage hr⟩

theorem executeHousekeepingRules_total (h : agent.core.Sound) (clock : UInt64 → Clock)
    (order : List UInt64) :
    ∃ agent' status, agent.executeHousekeepingRules opt hash clock order =
      .ok (agent', .returned status) ∧ agent'.core.Sound := by
  obtain ⟨core', status, he, h'⟩ := h.executeRulesLoop opt hash clock order .error
  rw [executeHousekeepingRules, Core.executeHousekeepingRules, he]
  exact ⟨_, _, rfl, h'⟩

end Agent

/-! ## Collecting keeps the windows -/

namespace ChannelDefault

theorem Sized.collectGeneralStatistics {ch ch' : ChannelDefault} {now later : Int}
    {raw raw' : ChannelStatsRaw} {status : PStatus} (hs : ch.Sized)
    (h : ch.collectGeneralStatistics now later raw = .ok (ch', status, raw')) : ch'.Sized := by
  simp only [ChannelDefault.collectGeneralStatistics] at h
  split at h
  · split at h
    · cases h
      exact (List.length_map _).trans hs
    · cases h
  · cases h
    exact hs

theorem Sized.collectDetailedStatistics {ch ch' : ChannelDefault} {now : Int}
    {entries entries' : List ℚ} {status : PStatus} (hs : ch.Sized)
    (h : ch.collectDetailedStatistics now entries = .ok (ch', status, entries')) : ch'.Sized := by
  simp only [ChannelDefault.collectDetailedStatistics,
    ChannelStatistics.collectDetailedWindowedEntries] at h
  split at h
  · split at h
    · split at h
      · rename_i stats collected hc
        cases h
        split at hc
        · cases hc
          exact (List.length_map _).trans hs
        · cases hc
      · cases h
    · cases h
  · cases h
    exact hs

end ChannelDefault

namespace Southbound

variable {env : Environment} {stage : Stage} {handled : Handled}

/-- The stage after an answer is the one that collecting has left. -/
theorem replyStatistics_ok {ρ : Type}
    {aggregate : DetailedStats → ρ → Except Fault (PStatus × ρ)} {initial : ρ}
    {reply : ρ → ControlReply}
    {out : Except Break (Agent × PStatus × DetailedStats)}
    (h : replyStatistics aggregate initial reply stage out = .ok handled) :
    ∃ agent status stats, out = .ok (agent, status, stats) ∧
      handled.stage = { stage with agent := agent } := by
  rcases out with b | ⟨agent, status, stats⟩
  · cases h
  · refine ⟨agent, status, stats, rfl, ?_⟩
    simp only [replyStatistics] at h
    split at h
    · split at h
      · cases h; rfl
      · cases h
    · cases h; rfl

variable (opt hash env) in
/-- A harmless rule is answered with an ACK. -/
theorem employHousekeepingRule_total (hs : stage.agent.core.Sound) {r : HousekeepingRule}
    (hr : r.Harmless) :
    ∃ stage' code, employHousekeepingRule opt hash env r stage =
      .ok (.reply stage' (.ack code)) ∧ stage'.agent.core.Sound := by
  obtain ⟨agent, status, he, hs'⟩ :=
    stage.agent.employHousekeepingRule_total opt hash hs env.clock hr
  rw [employHousekeepingRule, he]
  exact ⟨_, _, rfl, hs'⟩

end Southbound

/-! ## Reachable stages -/

namespace Stage

variable (opt hash)

/-- The states of a stage under a control plane, from the two constructors of its core: requests
of the application, calls that define the differentiation, and control operations. -/
inductive Reachable : Stage → Prop
  | new (executeOnReceive : Bool) :
      Reachable { agent := { core := Core.new opt, executeOnReceive := executeOnReceive } }
  | newWith (channels : Int) (createDefaultChannels createDefaultObjects : Bool)
      (clock : Nat → Clock) (executeOnReceive : Bool) :
      Reachable
        { agent :=
            { core := Core.newWith opt hash channels createDefaultChannels createDefaultObjects clock
              executeOnReceive := executeOnReceive } }
  | setExecuteOnReceive {stage : Stage} (h : Reachable stage) (value : Bool) :
      Reachable { stage with agent := { stage.agent with executeOnReceive := value } }
  | setDefaultObjectDifferentiation {stage : Stage} (h : Reachable stage) (value : Bool) :
      Reachable
        { stage with
          agent :=
            { stage.agent with
              core := { stage.agent.core with defineDefaultObjectDifferentiation := value } } }
  | defineChannelDifferentiation {stage : Stage} (h : Reachable stage)
      (workflow operationType operationContext : Bool) :
      Reachable
        { stage with
          agent :=
            { stage.agent with
              core := stage.agent.core.defineChannelDifferentiation workflow operationType
                operationContext } }
  | defineEnforcementObjectDifferentiation {stage : Stage} (h : Reachable stage) {channelId : Int}
      {operationType operationContext : Bool} {status : PStatus} {core : Core}
      (hd : stage.agent.core.defineEnforcementObjectDifferentiation channelId operationType
        operationContext = .ok (core, status)) :
      Reachable { stage with agent := { stage.agent with core := core } }
  | enforceRequest {stage : Stage} (h : Reachable stage) {clock : Clock} {fuel : Nat}
      {context : Context} {buffer : Buffer} {size : Nat} {result result' : Result} {core : Core}
      (he : stage.agent.core.enforceRequest opt hash clock fuel context buffer size result =
        .ok (core, result')) :
      Reachable { stage with agent := { stage.agent with core := core } }
  | handled {stage : Stage} (h : Reachable stage) {env : Environment}
      {operation : ControlOperation} {received : List UInt8} {handled : Handled}
      (hh : Southbound.handleControlOperation opt hash env operation received stage = .ok handled) :
      Reachable handled.stage

end Stage

/-! ## What a stage does to its core -/

/-- The channel before and after a collection that comes back. -/
inductive ChannelDefault.Collected : ChannelDefault → ChannelDefault → Prop
  | general {now later : Int} {raw raw' : ChannelStatsRaw} {status : PStatus}
      {ch ch' : ChannelDefault}
      (h : ch.collectGeneralStatistics now later raw = .ok (ch', status, raw')) : Collected ch ch'
  | detailed {now : Int} {entries entries' : List ℚ} {status : PStatus} {ch ch' : ChannelDefault}
      (h : ch.collectDetailedStatistics now entries = .ok (ch', status, entries')) :
      Collected ch ch'

theorem ChannelDefault.Sized.collected {ch ch' : ChannelDefault} (hs : ch.Sized)
    (h : Collected ch ch') : ch'.Sized := by
  cases h with
  | general hg => exact hs.collectGeneralStatistics hg
  | detailed hd => exact hs.collectDetailedStatistics hd

namespace Core

/-- What the default constructor gives, and everything keeps that a stage does to its core: calls
on the registry, rules that are put in the table and marked, and collections. -/
structure Kept (opt : Options) (hash : String → UInt32) (P : Core → Prop) : Prop where
  new : P (Core.new opt)
  step : ∀ core core', P core → RegistryStep opt hash core core' →
    core'.housekeepingTable = core.housekeepingTable → P core'
  stage : ∀ core r, P core → r.Harmless → P (core.stage r)
  mark : ∀ core ruleId, P core → P (core.markEnforced ruleId)
  collect : ∀ core token channel channel', P core → core.selectChannel token = some channel →
    ChannelDefault.Collected channel channel' → P (core.setChannel token channel')

namespace Kept

variable {P : Core → Prop}

theorem newWith (hP : Kept opt hash P) (channels : Int)
    (createDefaultChannels createDefaultObjects : Bool) (clock : Nat → Clock) :
    P (Core.newWith opt hash channels createDefaultChannels createDefaultObjects clock) := by
  refine newWith_preserves hP.new ?_ channels createDefaultChannels clock
  intro core clock i hcore
  have hchannel := hP.step _ _ hcore (createChannel_step clock core i (defaultTuple i))
    (createChannel_housekeepingTable clock core i (defaultTuple i))
  simp only [createDefaultChannel]
  split
  · split
    · rename_i core'' status hc
      exact hP.step _ _ hchannel (createEnforcementObject_step hc) (onChannel_housekeepingTable hc)
    · exact hchannel
  · exact hchannel

theorem collectChannelStatistics (hP : Kept opt hash P) {readings : Readings}
    {agent agent' : Agent} {channelId : Int} {status : PStatus} {values : List ChannelStatsRaw}
    (hcore : P agent.core)
    (h : agent.collectChannelStatistics readings channelId = .ok (agent', status, values)) :
    P agent'.core := by
  unfold Agent.collectChannelStatistics at h
  split at h
  · rename_i core status' values' hfrom
    cases h
    refine collectFrom_preserves ?_ hcore hfrom
    intro core core' id status value hcore hc
    exact collectOn_preserves (fun token channel channel' _ _ hsel hw =>
      hP.collect core token channel channel' hcore hsel (.general hw)) hcore hc
  · cases h

theorem collectChannelStatisticsDetailed (hP : Kept opt hash P) {readings : Readings}
    {core core' : Core} {channelId : Int} {status : PStatus} {entries : List ℚ} (hcore : P core)
    (h : core.collectChannelStatisticsDetailed readings channelId =
      .ok (core', status, entries)) : P core' :=
  collectOn_preserves (fun token channel channel' _ _ hsel hw =>
    hP.collect core token channel channel' hcore hsel (.detailed hw)) hcore h

theorem collectDetailedChannelStatistics (hP : Kept opt hash P) {readings : Readings}
    {agent agent' : Agent} {channelId : Int} {status : PStatus} {stats : DetailedStats}
    (hcore : P agent.core)
    (h : agent.collectDetailedChannelStatistics readings channelId =
      .ok (agent', status, stats)) : P agent'.core := by
  obtain ⟨core, values, hfrom, rfl, -⟩ := Agent.collectDetailedChannelStatistics_eq_ok h
  exact collectFrom_preserves
    (fun _ _ _ _ _ hcore hc => hP.collectChannelStatisticsDetailed hcore hc) hcore hfrom

theorem executeHousekeepingRule (hP : Kept opt hash P) {clock : Clock} {core core' : Core}
    {ruleId : UInt64} {completion : Completion} (hcore : P core)
    (h : core.executeHousekeepingRule opt hash clock ruleId = .ok (core', completion)) :
    P core' := by
  obtain ⟨rfl, _⟩ | ⟨rule, core₁, _, _, he, rfl⟩ := executeHousekeepingRule_cases opt hash h
  · exact hcore
  · have hcore₁ := hP.step _ _ hcore (employRule_step he) (employRule_housekeepingTable he)
    split
    · exact hP.mark _ ruleId hcore₁
    · exact hcore₁

theorem executeHousekeepingRules (hP : Kept opt hash P) {clock : UInt64 → Clock}
    {order : List UInt64} {agent agent' : Agent} {completion : Completion} (hcore : P agent.core)
    (h : agent.executeHousekeepingRules opt hash clock order = .ok (agent', completion)) :
    P agent'.core := by
  have hrules : ∀ core completion, agent.core.executeHousekeepingRules opt hash clock order =
      .ok (core, completion) → P core := by
    intro core completion hc
    exact executeRulesLoop_preserves (fun hcore he => hP.executeHousekeepingRule hcore he) hcore hc
  unfold Agent.executeHousekeepingRules at h
  split at h
  · rename_i core status hc
    cases h
    exact hrules _ _ hc
  · rename_i core what hc
    cases h
    exact hrules _ _ hc
  · cases h

theorem employHousekeepingRule (hP : Kept opt hash P) {clock : Clock} {agent agent' : Agent}
    {r : HousekeepingRule} (hr : r.Harmless) {completion : Completion} (hcore : P agent.core)
    (h : agent.employHousekeepingRule opt hash clock r = .ok (agent', completion)) :
    P agent'.core := by
  by_cases hmem : r.ruleId ∈ agent.core.housekeepingTable.housekeepingRules
  · rw [Agent.employHousekeepingRule_duplicate opt hash clock hr.creates hmem] at h
    cases h
    exact hcore
  · have hstage := hP.stage agent.core r hcore hr
    rw [Agent.employHousekeepingRule_new opt hash clock hr.creates hmem] at h
    split at h
    · split at h
      · rename_i core' completion' he
        cases h
        exact hP.executeHousekeepingRule hstage he
      · cases h
    · cases h
      exact hstage

/-! ## The handlers -/

section

variable {env : Environment} {stage : Stage} {handled : Handled} {received : List UInt8}
  {operation : ControlOperation}

theorem markStageAsReady (hcore : P stage.agent.core)
    (h : Southbound.markStageAsReady received stage = .ok handled) :
    P handled.stage.agent.core := by
  simp only [Southbound.markStageAsReady] at h
  split at h
  · cases h; exact hcore
  · split at h
    · cases h
    · split at h <;> cases h <;> exact hcore

theorem collectStatistics (hP : Kept opt hash P) (hcore : P stage.agent.core)
    (h : Southbound.collectStatistics env operation received stage = .ok handled) :
    P handled.stage.agent.core := by
  unfold Southbound.collectStatistics at h
  split at h
  · cases h
  · split at h
    · cases h
    · split at h
      · cases h
      · rename_i agent status channelStats hc
        have hcore' := hP.collectChannelStatistics hcore hc
        split at h
        · split at h
          · cases h
          · cases h; exact hcore'
        · cases h; exact hcore'

theorem answerInstanceStatistics (hP : Kept opt hash P) {ρ : Type}
    {aggregate : DetailedStats → ρ → Except Fault (PStatus × ρ)} {initial : ρ}
    {reply : ρ → ControlReply} (hcore : P stage.agent.core)
    (h : Southbound.answerInstanceStatistics env aggregate initial reply stage = .ok handled) :
    P handled.stage.agent.core := by
  obtain ⟨agent, status, stats, hc, hstage⟩ := Southbound.replyStatistics_ok h
  rw [hstage]
  exact hP.collectDetailedChannelStatistics hcore hc

theorem collectInstanceStatistics (hP : Kept opt hash P) (hcore : P stage.agent.core)
    (h : Southbound.collectInstanceStatistics env operation stage = .ok handled) :
    P handled.stage.agent.core := by
  simp only [Southbound.collectInstanceStatistics] at h
  split at h
  · exact hP.answerInstanceStatistics hcore h
  · exact hP.answerInstanceStatistics hcore h
  · exact hP.answerInstanceStatistics hcore h
  · exact hP.answerInstanceStatistics hcore h
  all_goals cases h; exact hcore

theorem createHousekeepingRule (hP : Kept opt hash P) (hcore : P stage.agent.core)
    (h : Southbound.createHousekeepingRule opt hash env operation received stage = .ok handled) :
    P handled.stage.agent.core := by
  have hrule : ∀ r : HousekeepingRule, r.Harmless →
      Southbound.employHousekeepingRule opt hash env r stage = .ok handled →
      P handled.stage.agent.core := by
    intro r hr he
    unfold Southbound.employHousekeepingRule at he
    split at he
    · cases he
    · cases he
    · rename_i agent status hc
      cases he
      exact hP.employHousekeepingRule hr hcore hc
  simp only [Southbound.createHousekeepingRule] at h
  split at h
  · split at h
    · cases h; exact hcore
    · split at h
      · cases h
      · rename_i raw _
        exact hrule raw.rule raw.harmless_rule h
  · split at h
    · cases h; exact hcore
    · split at h
      · cases h
      · rename_i raw _
        exact hrule raw.rule raw.harmless_rule h
  all_goals cases h
  exact hcore

theorem createEnforcementRule (hP : Kept opt hash P) (hcore : P stage.agent.core)
    (h : Southbound.createEnforcementRule received stage = .ok handled) :
    P handled.stage.agent.core := by
  simp only [Southbound.createEnforcementRule] at h
  split at h
  · cases h; exact hcore
  · split at h
    · cases h
    · split at h
      · cases h
      · rename_i core status he
        cases h
        rw [Core.employ, Core.employEnforcementRule] at he
        exact hP.step _ _ hcore (onChannel_step (fun _ _ hc => .configure hc) he)
          (onChannel_housekeepingTable he)

theorem handleControlOperation (hP : Kept opt hash P) (hcore : P stage.agent.core)
    (h : Southbound.handleControlOperation opt hash env operation received stage = .ok handled) :
    P handled.stage.agent.core := by
  simp only [Southbound.handleControlOperation] at h
  split at h
  · exact markStageAsReady hcore h
  · exact hP.collectStatistics hcore h
  · exact hP.collectInstanceStatistics hcore h
  · exact hP.createHousekeepingRule hcore h
  · cases h
  · exact hP.createEnforcementRule hcore h
  · unfold Southbound.executeHousekeepingRules at h
    split at h
    · cases h
    · cases h
    · rename_i agent status he
      cases h
      exact hP.executeHousekeepingRules hcore he
  all_goals cases h

end

/-- It holds in every reachable stage. -/
theorem reachable (hP : Kept opt hash P) {stage : Stage} (h : Stage.Reachable opt hash stage) :
    P stage.agent.core := by
  induction h with
  | new executeOnReceive => exact hP.new
  | newWith channels dc dobj clock executeOnReceive => exact hP.newWith channels dc dobj clock
  | setExecuteOnReceive _ value ih => exact ih
  | setDefaultObjectDifferentiation _ value ih => exact hP.step _ _ ih (.keep rfl rfl) rfl
  | defineChannelDifferentiation _ w t c ih => exact hP.step _ _ ih (.keep rfl rfl) rfl
  | @defineEnforcementObjectDifferentiation stage _ channelId t c status core hd ih =>
    refine hP.step _ _ ih (onChannel_step ?_ hd) (onChannel_housekeepingTable hd)
    intro channel channel' hw
    cases hw
    exact .define _ _ channel
  | enforceRequest _ he ih =>
    refine hP.step _ _ ih (enforceRequest_step he) ?_
    obtain ⟨_, rfl, _⟩ | ⟨channel, channel', _, _, rfl⟩ := enforceRequest_cases opt hash he
    · rfl
    · rfl
  | handled _ hh ih => exact hP.handleControlOperation ih hh

end Kept

/-! ## Reachable stages are sound -/

theorem sound_new : (Core.new opt).Sound where
  windowed := LinkedMap.linked_empty
  harmless := by
    intro id r hl
    rw [Core.new, Finmap.lookup_empty] at hl
    cases hl

theorem kept_sound (opt : Options) (hash : String → UInt32) : Kept opt hash Sound where
  new := sound_new
  step _ _ h hs htable := h.step hs htable
  stage _ _ h hr := h.stage hr
  mark _ ruleId h := h.markEnforced ruleId
  collect _ _ _ _ h hsel hc := h.setChannel hsel ((h.sized hsel).collected hc)

end Core

theorem Stage.Reachable.sound {stage : Stage} (h : Stage.Reachable opt hash stage) :
    stage.agent.core.Sound :=
  (Core.kept_sound opt hash).reachable h

end Paio
