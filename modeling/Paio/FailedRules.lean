import Paio.Agent

/-!
# Paio.FailedRules

What a rule that fails leaves behind. An operation that does not succeed changes neither the
channels nor their linkers, their objects or their object linkers. The rule itself stays in the
housekeeping table, where the insertion that precedes the execution has put it: the counters have
moved, and the same identifier cannot be submitted again.
-/

namespace Paio

variable {opt : Options} {hash : String → UInt32}

/-- Writing back the value that is there changes nothing. -/
theorem insert_lookup_self {κ ν : Type} [DecidableEq κ] {m : UnorderedMap κ ν} {k : κ} {v : ν}
    (h : m.lookup k = some v) : m.insert k v = m := by
  apply Finmap.ext_lookup
  intro k'
  by_cases hk : k' = k
  · subst hk
    rw [Finmap.lookup_insert, h]
  · rw [Finmap.lookup_insert_of_ne _ hk]

namespace ChannelDefault

theorem createEnforcementObject_not_ok {clock : Clock} {ch ch' : ChannelDefault} {objectId : Int}
    {pair : ObjectDifferentiationPair} {objectType : Option EnforcementObjectType}
    {configurations : List Int} {status : PStatus}
    (h : ch.createEnforcementObject hash clock objectId pair objectType configurations =
      .ok (ch', status)) (hs : status ≠ .ok) : ch' = ch := by
  obtain ⟨rfl, _, _⟩ | ⟨_, _, _, hok, _⟩ := createEnforcementObject_cases hash h
  · rfl
  · exact absurd hok hs

end ChannelDefault

namespace Core

theorem setChannel_self {core : Core} {token : UInt32} {channel : ChannelDefault}
    (h : core.selectChannel token = some channel) : core.setChannel token channel = core := by
  rw [setChannel, insert_lookup_self h]

/-- An operation that fails leaves the core as it was. -/
theorem employRule_not_ok {clock : Clock} {core core' : Core} {rule : HousekeepingRule}
    {status : PStatus} (h : core.employRule opt hash clock rule = .ok (core', .returned status))
    (hs : status ≠ .ok) : core' = core := by
  obtain ⟨_, _, hc, hcompl⟩ | ⟨_, _, hc, hcompl⟩ | ⟨_, _, _, rfl, _⟩ := employRule_cases opt hash h
  · cases hcompl
    obtain ⟨_, _, heq⟩ | ⟨_, heq⟩ :=
      createChannel_cases opt hash clock core rule.channelId rule.channelTuple
    · rw [heq] at hc
      cases hc
      exact absurd rfl hs
    · rw [heq] at hc
      cases hc
      rfl
  · cases hcompl
    obtain ⟨rfl, _⟩ | ⟨token, channel, channel', _, _, hsel, hw, rfl⟩ := onChannel_cases hc
    · rfl
    · rw [ChannelDefault.createEnforcementObject_not_ok hw hs, setChannel_self hsel]
  · rfl

theorem executeHousekeepingRule_not_ok {clock : Clock} {core core' : Core} {ruleId : UInt64}
    {status : PStatus}
    (h : core.executeHousekeepingRule opt hash clock ruleId = .ok (core', .returned status))
    (hs : status ≠ .ok) : core' = core := by
  obtain ⟨rfl, _⟩ | ⟨rule, core₁, _, _, he, rfl⟩ := executeHousekeepingRule_cases opt hash h
  · rfl
  · rw [if_neg (by simpa using hs), employRule_not_ok he hs]

end Core

namespace Agent

/-- A rule that fails leaves the agent as it was, except that a rule with a new identifier stays in
the table and in both counters; submitted again, it fails because of its identifier. -/
theorem employHousekeepingRule_not_ok {clock : Clock} {agent agent' : Agent}
    {rule : HousekeepingRule} {status : PStatus}
    (h : agent.employHousekeepingRule opt hash clock rule = .ok (agent', .returned status))
    (hs : status ≠ .ok) :
    agent' = { agent with
      core := { agent.core with
        housekeepingTable :=
          if rule.ruleId ∈ agent.core.housekeepingTable.housekeepingRules
          then agent.core.housekeepingTable else agent.core.housekeepingTable.stage rule } } ∧
    ∀ clock', agent'.employHousekeepingRule opt hash clock' rule =
      .ok (agent', .returned .error) := by
  have htype : rule.ruleType = .createChannel ∨ rule.ruleType = .createObject := by
    simp only [employHousekeepingRule] at h
    split at h <;> simp_all
  by_cases hmem : rule.ruleId ∈ agent.core.housekeepingTable.housekeepingRules
  · rw [employHousekeepingRule_duplicate opt hash clock htype hmem] at h
    cases h
    rw [if_pos hmem]
    exact ⟨rfl, fun clock' => employHousekeepingRule_duplicate opt hash clock' htype hmem⟩
  · have hagent' : agent' = { agent with core := agent.core.stage rule } := by
      rw [employHousekeepingRule_new opt hash clock htype hmem] at h
      split at h
      · split at h
        · rename_i core' completion hx
          cases h
          rw [Core.executeHousekeepingRule_not_ok hx hs]
        · cases h
      · cases h
        exact absurd rfl hs
    rw [if_neg hmem]
    refine ⟨hagent', fun clock' => employHousekeepingRule_duplicate opt hash clock' htype ?_⟩
    rw [hagent']
    exact Finmap.mem_insert.mpr (.inl rfl)

/-- The rule of `create_object` comes before the rule that creates its channel: it fails, stays in
the table with both counters one up, and fails again once the channel is there. -/
theorem employAll_failed_stays :
    let agent : Agent := { core := Core.new {} }
    let object : HousekeepingRule :=
      { ruleId := 1
        ruleType := .createObject
        channelId := 5
        enforcementObjectId := 1
        properties := [0, 0, 0, 0] }
    let channel : HousekeepingRule :=
      { ruleId := 2, ruleType := .createChannel, channelId := 5, properties := [0, 1, 0, 0] }
    let run := fun rules => (agent.employAll {} numeralHash (fun _ _ => 0) rules).toOption.map
      fun out => (out.2, out.1.core.housekeepingTable.numberOfRules,
        out.1.core.housekeepingTable.numberOfRulesLeftToEmploy)
    agent.core.housekeepingTable.numberOfRules = 0 ∧
      run [object] = some ([.returned .error], 1, 1) ∧
      run [object, channel, object] =
        some ([.returned .error, .returned .ok, .returned .error], 2, 1) ∧
      run [channel, object] = some ([.returned .ok, .returned .ok], 2, 0) := by
  decide

theorem employHousekeepingRule_not_ok_new :
    let agent : Agent := { core := Core.new {} }
    let rule : HousekeepingRule := { ruleId := 1, ruleType := .createObject, channelId := 5 }
    agent.employHousekeepingRule {} numeralHash (fun _ => 0) rule =
        .ok ({ agent with core := agent.core.stage rule }, .returned .error) ∧
      ∀ clock, ({ agent with core := agent.core.stage rule } : Agent).employHousekeepingRule {}
          numeralHash clock rule =
        .ok ({ agent with core := agent.core.stage rule }, .returned .error) := by
  intro agent rule
  have h : agent.employHousekeepingRule {} numeralHash (fun _ => 0) rule =
      .ok ({ agent with core := agent.core.stage rule }, .returned .error) := rfl
  exact ⟨h, (employHousekeepingRule_not_ok h (by decide)).2⟩

end Agent

end Paio
