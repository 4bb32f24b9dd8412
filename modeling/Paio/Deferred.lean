import Paio.Agent
import Paio.RuleSet

/-!
# Paio.Deferred

Rules that are executed when they are received, against rules that are collected first and executed
together later. `execute_housekeeping_rules` visits the table in the order of an `unordered_map`,
not in the order of submission, and stops at the first error. The two agree when there is something
to execute and the order visits the rule of a channel before the rules of its objects; otherwise
the deferred execution ends with an error.
-/

namespace Paio

variable {opt : Options} {hash : String → UInt32}

namespace HousekeepingTable

theorem lookup_markHousekeepingRuleAsEnforced_ne {t : HousekeepingTable} {ruleId id : UInt64}
    (h : id ≠ ruleId) :
    (t.markHousekeepingRuleAsEnforced ruleId).1.housekeepingRules.lookup id =
      t.housekeepingRules.lookup id := by
  simp only [markHousekeepingRuleAsEnforced]
  split
  · split
    · exact Finmap.lookup_insert_of_ne _ h
    · rfl
  · rfl

end HousekeepingTable

namespace Core

theorem onChannel_housekeepingTable {core core' : Core} {channelId : Int} {status : PStatus}
    {work : ChannelDefault → Except Fault (ChannelDefault × PStatus)}
    (h : core.onChannel channelId work = .ok (core', status)) :
    core'.housekeepingTable = core.housekeepingTable := by
  obtain ⟨rfl, _⟩ | ⟨token, channel, channel', _, _, _, _, rfl⟩ := onChannel_cases h
  · rfl
  · rfl

theorem createChannel_housekeepingTable (clock : Clock) (core : Core) (channelId : Int)
    (tuple : ChannelDifferentiationTuple) :
    (core.createChannel opt hash clock channelId tuple).1.housekeepingTable =
      core.housekeepingTable := by
  obtain ⟨_, _, heq⟩ | ⟨_, heq⟩ := createChannel_cases opt hash clock core channelId tuple
  · rw [heq]
    rfl
  · rw [heq]

/-- The operations of the rules do not touch the table. -/
theorem employRule_housekeepingTable {clock : Clock} {core core' : Core} {rule : HousekeepingRule}
    {completion : Completion}
    (h : core.employRule opt hash clock rule = .ok (core', completion)) :
    core'.housekeepingTable = core.housekeepingTable := by
  obtain ⟨_, _, hc, _⟩ | ⟨_, _, hc, _⟩ | ⟨_, _, _, rfl, _⟩ := employRule_cases opt hash h
  · have hkeeps : (core.createChannel opt hash clock rule.channelId
        rule.channelTuple).1.housekeepingTable = core.housekeepingTable :=
      createChannel_housekeepingTable clock core rule.channelId rule.channelTuple
    rwa [hc] at hkeeps
  · exact onChannel_housekeepingTable hc
  · rfl

/-- Marking a rule sets its flag and leaves the other rules alone. -/
theorem lookup_markEnforced {core : Core} {id : UInt64} {current : HousekeepingRule}
    (h : core.housekeepingTable.housekeepingRules.lookup id = some current) (ruleId : UInt64) :
    (core.markEnforced ruleId).housekeepingTable.housekeepingRules.lookup id =
      some (if id = ruleId then { current with enforced := true } else current) := by
  by_cases hid : id = ruleId
  · subst hid
    rw [if_pos rfl, markEnforced]
    simp only [HousekeepingTable.markHousekeepingRuleAsEnforced, h]
    split
    · exact Finmap.lookup_insert _
    · rename_i henf
      rw [h]
      cases current
      simpa using henf
  · rw [if_neg hid]
    exact (HousekeepingTable.lookup_markHousekeepingRuleAsEnforced_ne hid).trans h

/-- Executing a rule and marking it leaves the other entries of the table alone. -/
theorem lookup_executed_ne {clock : Clock} {core core₁ : Core} {rule : HousekeepingRule}
    {completion : Completion}
    (he : core.employRule opt hash clock rule = .ok (core₁, completion)) {id id' : UInt64}
    (hne : id' ≠ id) :
    (core₁.markEnforced id).housekeepingTable.housekeepingRules.lookup id' =
      core.housekeepingTable.housekeepingRules.lookup id' := by
  rw [← employRule_housekeepingTable he]
  exact HousekeepingTable.lookup_markHousekeepingRuleAsEnforced_ne hne

/-! ## Collecting rules -/

/-- The core with a list of new rules in its table. -/
def stageAll (core : Core) (rules : List HousekeepingRule) : Core := rules.foldl stage core

theorem lookup_stageAll_of_notMem {rules : List HousekeepingRule} {id : UInt64}
    (h : id ∉ rules.map HousekeepingRule.ruleId) (core : Core) :
    (core.stageAll rules).housekeepingTable.housekeepingRules.lookup id =
      core.housekeepingTable.housekeepingRules.lookup id := by
  induction rules generalizing core with
  | nil => rfl
  | cons r rest ih =>
    simp only [List.map_cons, List.mem_cons, not_or] at h
    exact (ih h.2 (core.stage r)).trans (Finmap.lookup_insert_of_ne _ h.1)

theorem lookup_stageAll_of_mem {rules : List HousekeepingRule} {r : HousekeepingRule}
    (hids : (rules.map HousekeepingRule.ruleId).Nodup) (h : r ∈ rules) (core : Core) :
    (core.stageAll rules).housekeepingTable.housekeepingRules.lookup r.ruleId = some r := by
  induction rules generalizing core with
  | nil => cases h
  | cons r' rest ih =>
    simp only [List.map_cons, List.nodup_cons] at hids
    rcases List.mem_cons.mp h with rfl | hrest
    · exact (lookup_stageAll_of_notMem hids.1 (core.stage r)).trans (Finmap.lookup_insert _)
    · exact ih hids.2 hrest (core.stage r')

end Core

/-- A rule of one of the two types that the agent accepts. -/
def HousekeepingRule.Creates (r : HousekeepingRule) : Prop :=
  r.ruleType = .createChannel ∨ r.ruleType = .createObject

namespace Agent

/-- Without `execute_on_receive` the rules are only collected. -/
theorem employAll_staged {clock : UInt64 → Clock} {rules : List HousekeepingRule} {agent : Agent}
    (hexec : agent.executeOnReceive = false) (htypes : ∀ r ∈ rules, r.Creates)
    (hids : (rules.map HousekeepingRule.ruleId).Nodup)
    (hfresh : ∀ r ∈ rules, r.ruleId ∉ agent.core.housekeepingTable.housekeepingRules) :
    agent.employAll opt hash clock rules =
      .ok ({ agent with core := agent.core.stageAll rules },
        rules.map fun _ => .returned .ok) := by
  induction rules generalizing agent with
  | nil => rfl
  | cons r rest ih =>
    simp only [List.map_cons, List.nodup_cons] at hids
    have hr : agent.employHousekeepingRule opt hash (clock r.ruleId) r =
        .ok ({ agent with core := agent.core.stage r }, .returned .ok) := by
      rw [employHousekeepingRule_new opt hash _ (htypes r List.mem_cons_self)
        (hfresh r List.mem_cons_self), hexec]
      rfl
    refine CallSequence.run_cons_ok hr ?_
    refine ih hexec (fun r' hr' => htypes r' (List.mem_cons_of_mem r hr')) hids.2 fun r' hr' => ?_
    simp only [Core.stage, HousekeepingTable.stage, Finmap.mem_insert, not_or]
    refine ⟨?_, hfresh r' (List.mem_cons_of_mem r hr')⟩
    intro he
    exact hids.1 (he ▸ List.mem_map_of_mem hr')

/-! ## Executing rules as they are received -/

/-- A rule that is executed on receipt and succeeds was new and has run its operation. -/
theorem employHousekeepingRule_ok {clock : Clock} {agent agent' : Agent} {r : HousekeepingRule}
    (hexec : agent.executeOnReceive = true) (htype : r.Creates)
    (h : agent.employHousekeepingRule opt hash clock r = .ok (agent', .returned .ok)) :
    r.ruleId ∉ agent.core.housekeepingTable.housekeepingRules ∧ r.enforced = false ∧
      ∃ core₁, (agent.core.stage r).employRule opt hash clock r = .ok (core₁, .returned .ok) ∧
        agent' = { agent with core := core₁.markEnforced r.ruleId } := by
  by_cases hmem : r.ruleId ∈ agent.core.housekeepingTable.housekeepingRules
  · rw [employHousekeepingRule_duplicate opt hash clock htype hmem] at h
    cases h
  · rw [employHousekeepingRule_new opt hash clock htype hmem, hexec, if_pos rfl] at h
    split at h
    · rename_i core' completion hx
      cases h
      obtain ⟨_, hne⟩ | ⟨rule, core₁, hsel, henf, he, rfl⟩ :=
        Core.executeHousekeepingRule_cases opt hash hx
      · exact absurd rfl hne
      · obtain rfl : r = rule := by
          have hself : (agent.core.stage r).housekeepingTable.selectHousekeepingRule r.ruleId =
            some r := HousekeepingTable.selectHousekeepingRule_stage _ _
          exact Option.some.inj (hself.symm.trans hsel)
        exact ⟨hmem, henf, core₁, he, by rw [if_pos rfl, hexec]⟩
    · cases h

/-- What a list of rules that all succeed tells about the rules. -/
structure Accepted (opt : Options) (hash : String → UInt32) (core₀ : Core)
    (rules : List HousekeepingRule) : Prop where
  pending : ∀ r ∈ rules, r.enforced = false
  own : ∀ r ∈ rules, Core.Own opt hash core₀ r
  separate : ∀ r ∈ rules, ∀ r' ∈ rules, r ≠ r' → Core.Separate opt hash core₀ r r'

theorem Accepted.append {core₀ : Core} {rules : List HousekeepingRule} {r : HousekeepingRule}
    (h : Accepted opt hash core₀ rules) (henf : r.enforced = false)
    (hown : Core.Own opt hash core₀ r)
    (hsep : ∀ r' ∈ rules, Core.Separate opt hash core₀ r' r) :
    Accepted opt hash core₀ (rules ++ [r]) := by
  refine ⟨?_, ?_, ?_⟩
  · intro r' hr'
    rcases List.mem_append.mp hr' with hold | hnew
    · exact h.pending r' hold
    · exact List.mem_singleton.mp hnew ▸ henf
  · intro r' hr'
    rcases List.mem_append.mp hr' with hold | hnew
    · exact h.own r' hold
    · exact List.mem_singleton.mp hnew ▸ hown
  · intro r₁ hr₁ r₂ hr₂ hne
    rcases List.mem_append.mp hr₁ with hold₁ | hnew₁ <;>
      rcases List.mem_append.mp hr₂ with hold₂ | hnew₂
    · exact h.separate r₁ hold₁ r₂ hold₂ hne
    · exact List.mem_singleton.mp hnew₂ ▸ hsep r₁ hold₁
    · exact List.mem_singleton.mp hnew₁ ▸ (hsep r₂ hold₂).symm
    · exact absurd ((List.mem_singleton.mp hnew₁).trans (List.mem_singleton.mp hnew₂).symm) hne

/-- Rules that are executed on receipt and all succeed build their registry one after the other. -/
theorem employAll_ok {clock : UInt64 → Clock} {core₀ : Core} (hw₀ : core₀.WellLinked opt hash)
    {rules : List HousekeepingRule} (htypes : ∀ r ∈ rules, r.Creates) :
    ∀ {done : List HousekeepingRule} {agent agent' : Agent} {completions : List Completion},
      agent.executeOnReceive = true → Accepted opt hash core₀ done →
      Core.Built opt hash core₀ (· ∈ done) agent.core →
      agent.employAll opt hash clock rules = .ok (agent', completions) →
      (∀ c ∈ completions, c = .returned .ok) →
      Accepted opt hash core₀ (done ++ rules) ∧
        Core.Built opt hash core₀ (· ∈ done ++ rules) agent'.core ∧
        ∀ r ∈ rules, r.ruleId ∉ agent.core.housekeepingTable.housekeepingRules := by
  induction rules with
  | nil =>
    intro done agent agent' completions _ hacc hb h _
    cases h
    simpa using ⟨hacc, hb⟩
  | cons r rest ih =>
    intro done agent agent' completions hexec hacc hb h hok
    obtain ⟨agent₁, completion, completions', hr, hrest, rfl⟩ := CallSequence.run_cons h
    obtain rfl : completion = .returned .ok := hok completion List.mem_cons_self
    have htype := htypes r List.mem_cons_self
    obtain ⟨hfresh, henf, core₁, he, rfl⟩ := employHousekeepingRule_ok hexec htype hr
    have hstage : Core.Built opt hash core₀ (· ∈ done) (agent.core.stage r) :=
      hb.keep rfl rfl rfl rfl
    obtain ⟨hown, _, hsep, hb₁⟩ := hstage.fits_of_employRule hw₀ htype he
    have hmark : Core.Built opt hash core₀ (fun r' => r' ∈ done ∨ r' = r)
        (core₁.markEnforced r.ruleId) := hb₁.keep rfl rfl rfl rfl
    have hb' : Core.Built opt hash core₀ (· ∈ done ++ [r]) (core₁.markEnforced r.ruleId) :=
      hmark.congr fun r' => by simp
    have hexec' : ({ agent with core := core₁.markEnforced r.ruleId } : Agent).executeOnReceive =
        true := hexec
    obtain ⟨hacc', hbuilt, hfresh'⟩ := ih (fun r' hr' => htypes r' (List.mem_cons_of_mem r hr'))
      hexec' (hacc.append henf hown hsep) hb' hrest
      (fun c hc => hok c (List.mem_cons_of_mem _ hc))
    refine ⟨by simpa using hacc', by simpa using hbuilt, ?_⟩
    intro r' hr'
    rcases List.mem_cons.mp hr' with rfl | hlater
    · exact hfresh
    · intro hmem
      refine hfresh' r' hlater ?_
      simp only [Core.markEnforced, HousekeepingTable.mem_markHousekeepingRuleAsEnforced,
        Core.employRule_housekeepingTable he, Core.stage, HousekeepingTable.stage,
        Finmap.mem_insert]
      exact .inr hmem

end Agent

/-! ## Executing the collected rules -/

namespace Core

/-- In the order of the iteration, the rule of a channel comes before the rules of its objects,
unless the channel was there before. -/
def ChannelsFirst (core₀ : Core) (rules : List HousekeepingRule) (order : List UInt64) : Prop :=
  ∀ r ∈ rules, r.ruleType = .createObject →
    r.channelId ∈ AssocList.keys core₀.channelIdToTokenLinkers ∨
      ∃ c ∈ rules, c.ruleType = .createChannel ∧ c.channelId = r.channelId ∧
        order.idxOf c.ruleId < order.idxOf r.ruleId

section Loop

variable {clock : UInt64 → Clock} {core core₁ : Core} {id : UInt64} {rest : List UInt64}
  {status : PStatus} {rule : HousekeepingRule}

/-- A rule that is not in the table or is enforced is passed over. -/
theorem executeRulesLoop_skip
    (h : ∀ rule, core.housekeepingTable.housekeepingRules.lookup id = some rule →
      rule.enforced = true) :
    core.executeRulesLoop opt hash clock (id :: rest) status =
      core.executeRulesLoop opt hash clock rest status := by
  simp only [executeRulesLoop]
  split
  · rfl
  · rename_i rule hl
    rw [if_pos (h rule hl)]

/-- A pending rule that succeeds is marked, and the loop goes on. -/
theorem executeRulesLoop_ok (hl : core.housekeepingTable.housekeepingRules.lookup id = some rule)
    (henf : rule.enforced = false)
    (he : core.employRule opt hash (clock id) rule = .ok (core₁, .returned .ok)) :
    core.executeRulesLoop opt hash clock (id :: rest) status =
      (core₁.markEnforced id).executeRulesLoop opt hash clock rest .ok := by
  simp only [executeRulesLoop, hl, henf, executeHousekeepingRule_pending opt hash _ hl henf, he]
  rfl

/-- A pending rule that fails ends the loop. -/
theorem executeRulesLoop_error
    (hl : core.housekeepingTable.housekeepingRules.lookup id = some rule)
    (henf : rule.enforced = false)
    (he : core.employRule opt hash (clock id) rule = .ok (core, .returned .error)) :
    core.executeRulesLoop opt hash clock (id :: rest) status = .ok (core, .returned .error) := by
  simp only [executeRulesLoop, hl, henf, executeHousekeepingRule_pending opt hash _ hl henf, he]
  rfl

end Loop

/-- In an order without repetitions, what comes before an element is what has been visited. -/
theorem idxOf_lt_iff {visited rest : List UInt64} {id a : UInt64}
    (h : (visited ++ id :: rest).Nodup) :
    (visited ++ id :: rest).idxOf a < (visited ++ id :: rest).idxOf id ↔ a ∈ visited := by
  have hid : id ∉ visited := by
    intro hmem
    exact (List.nodup_append.mp h).2.2 id hmem id List.mem_cons_self rfl
  rw [List.idxOf_append_of_notMem hid, List.idxOf_cons_self]
  by_cases ha : a ∈ visited
  · rw [List.idxOf_append_of_mem ha]
    simpa [ha] using List.idxOf_lt_length_iff.mpr ha
  · rw [List.idxOf_append_of_notMem ha]
    simp [ha]

/-- The state of the loop: the rules that were visited are built, the others are in the table as
they were submitted. -/
structure LoopState (opt : Options) (hash : String → UInt32) (core₀ : Core)
    (rules : List HousekeepingRule) (table : UnorderedMap UInt64 HousekeepingRule)
    (visited rest : List UInt64) (core : Core) : Prop where
  built : Built opt hash core₀ (fun r => r ∈ rules ∧ r.ruleId ∈ visited) core
  table_eq : ∀ id ∈ rest, core.housekeepingTable.housekeepingRules.lookup id = table.lookup id

section Loop

variable {core₀ : Core} {rules : List HousekeepingRule}
  {table : UnorderedMap UInt64 HousekeepingRule} {clock : UInt64 → Clock}
  {visited rest : List UInt64} {id : UInt64} {core : Core} {r : HousekeepingRule}

theorem LoopState.skip (h : LoopState opt hash core₀ rules table visited (id :: rest) core)
    (hnone : ∀ r ∈ rules, r.ruleId ≠ id) :
    LoopState opt hash core₀ rules table (visited ++ [id]) rest core where
  built := by
    refine h.built.congr fun r => ?_
    simp only [List.mem_append, List.mem_singleton]
    constructor
    · rintro ⟨hr, hv⟩
      exact ⟨hr, .inl hv⟩
    · rintro ⟨hr, hv | he⟩
      · exact ⟨hr, hv⟩
      · exact absurd he (hnone r hr)
  table_eq := fun id' hid' => h.table_eq id' (List.mem_cons_of_mem id hid')

/-- Visiting a rule whose channel is there executes it. -/
theorem LoopState.execute (hw₀ : core₀.WellLinked opt hash)
    (hacc : Agent.Accepted opt hash core₀ rules)
    (hids : ∀ r ∈ rules, ∀ r' ∈ rules, r.ruleId = r'.ruleId → r = r')
    (hnd : (visited ++ id :: rest).Nodup)
    (h : LoopState opt hash core₀ rules table visited (id :: rest) core)
    (hr : r ∈ rules) (htype : r.Creates) (hid : r.ruleId = id)
    (havail : core₀.Available (fun c => c ∈ rules ∧ c.ruleId ∈ visited) r) :
    ∃ core₁, core.employRule opt hash (clock id) r = .ok (core₁, .returned .ok) ∧
      LoopState opt hash core₀ rules table (visited ++ [id]) rest (core₁.markEnforced id) := by
  obtain ⟨_, hnd', hdisjoint⟩ := List.nodup_append.mp hnd
  have hsep : ∀ r', r' ∈ rules ∧ r'.ruleId ∈ visited → Separate opt hash core₀ r' r := by
    rintro r' ⟨hr', hv⟩
    refine hacc.separate r' hr' r hr ?_
    rintro rfl
    exact hdisjoint _ hv id List.mem_cons_self hid
  obtain ⟨core₁, he⟩ := h.built.employRule_of_fits hw₀ htype (hacc.own r hr) havail hsep (clock id)
  obtain ⟨_, _, _, hb⟩ := h.built.fits_of_employRule hw₀ htype he
  have hmark : Built opt hash core₀ (fun r' => (r' ∈ rules ∧ r'.ruleId ∈ visited) ∨ r' = r)
      (core₁.markEnforced id) := hb.keep rfl rfl rfl rfl
  refine ⟨core₁, he, ⟨hmark.congr fun r' => ?_, ?_⟩⟩
  · simp only [List.mem_append, List.mem_singleton]
    constructor
    · rintro (⟨hr', hv⟩ | rfl)
      · exact ⟨hr', .inl hv⟩
      · exact ⟨hr, .inr hid⟩
    · rintro ⟨hr', hv | hid'⟩
      · exact .inl ⟨hr', hv⟩
      · exact .inr (hids r' hr' r hr (hid'.trans hid.symm))
  · intro id' hid'
    have hne : id' ≠ id := by
      rintro rfl
      exact (List.nodup_cons.mp hnd').1 hid'
    rw [lookup_executed_ne he hne]
    exact h.table_eq id' (List.mem_cons_of_mem id hid')

end Loop

/-- The loop executes every rule when the channels come first, and ends with an error when an
object comes before its channel. -/
theorem executeRulesLoop_outcome {core₀ : Core} (hw₀ : core₀.WellLinked opt hash)
    {rules : List HousekeepingRule} (hacc : Agent.Accepted opt hash core₀ rules)
    (htypes : ∀ r ∈ rules, r.Creates)
    (hids : ∀ r ∈ rules, ∀ r' ∈ rules, r.ruleId = r'.ruleId → r = r')
    {table : UnorderedMap UInt64 HousekeepingRule}
    (hmem : ∀ r ∈ rules, table.lookup r.ruleId = some r)
    (honly : ∀ id rule, table.lookup id = some rule → rule.enforced = false →
      rule ∈ rules ∧ rule.ruleId = id)
    {clock : UInt64 → Clock} {order : List UInt64} (hnd : order.Nodup) (rest : List UInt64) :
    ∀ {visited : List UInt64} {status : PStatus} {core : Core}, order = visited ++ rest →
      LoopState opt hash core₀ rules table visited rest core →
      ((∀ r ∈ rules, r.ruleId ∈ rest → core₀.Available
          (fun c => c ∈ rules ∧ order.idxOf c.ruleId < order.idxOf r.ruleId) r) →
        ∃ core', core.executeRulesLoop opt hash clock rest status =
            .ok (core', .returned (if ∃ r ∈ rules, r.ruleId ∈ rest then .ok else status)) ∧
          Built opt hash core₀ (fun r => r ∈ rules ∧ r.ruleId ∈ order) core') ∧
      ((∃ r ∈ rules, r.ruleId ∈ rest ∧ ¬ core₀.Available
          (fun c => c ∈ rules ∧ order.idxOf c.ruleId < order.idxOf r.ruleId) r) →
        ∃ core', core.executeRulesLoop opt hash clock rest status =
          .ok (core', .returned .error)) := by
  induction rest with
  | nil =>
    intro visited status core horder h
    refine ⟨fun _ => ⟨core, by simp [executeRulesLoop], ?_⟩, by simp⟩
    rw [horder, List.append_nil]
    exact h.built
  | cons id rest ih =>
    intro visited status core horder h
    have horder' : order = (visited ++ [id]) ++ rest := by simp [horder]
    by_cases hL : ∃ r ∈ rules, r.ruleId = id
    · obtain ⟨r, hr, rfl⟩ := hL
      have hl := (h.table_eq r.ruleId List.mem_cons_self).trans (hmem r hr)
      have henf := hacc.pending r hr
      have hbefore : core₀.Available
          (fun c => c ∈ rules ∧ order.idxOf c.ruleId < order.idxOf r.ruleId) r ↔
          core₀.Available (fun c => c ∈ rules ∧ c.ruleId ∈ visited) r := by
        simp only [horder, idxOf_lt_iff (horder ▸ hnd)]
      constructor
      · intro hall
        have havail := hbefore.mp (hall r hr List.mem_cons_self)
        obtain ⟨core₁, he, h'⟩ := h.execute hw₀ hacc hids (horder ▸ hnd) hr (htypes r hr) rfl havail
        obtain ⟨core', hloop, hb⟩ := (ih horder' h').1
          fun r' hr' hmem' => hall r' hr' (List.mem_cons_of_mem _ hmem')
        refine ⟨core', ?_, hb⟩
        have hsome : ∃ r' ∈ rules, r'.ruleId ∈ r.ruleId :: rest := ⟨r, hr, List.mem_cons_self⟩
        rw [executeRulesLoop_ok hl henf he, hloop, if_pos hsome, ite_self]
      · rintro ⟨r', hr', hmem', hun⟩
        by_cases havail : core₀.Available (fun c => c ∈ rules ∧ c.ruleId ∈ visited) r
        · obtain ⟨core₁, he, h'⟩ :=
            h.execute hw₀ hacc hids (horder ▸ hnd) hr (htypes r hr) rfl havail
          have hrest : r'.ruleId ∈ rest := by
            rcases List.mem_cons.mp hmem' with heq | hrest
            · obtain rfl := hids r' hr' r hr heq
              exact absurd (hbefore.mpr havail) hun
            · exact hrest
          obtain ⟨core', hloop⟩ := (ih horder' h').2 ⟨r', hr', hrest, hun⟩
          exact ⟨core', by rw [executeRulesLoop_ok hl henf he, hloop]⟩
        · have ht : r.ruleType = .createObject := by
            by_contra hne
            exact havail fun ho => absurd ho hne
          exact ⟨core, executeRulesLoop_error hl henf
            (h.built.employRule_of_unavailable ht havail (clock r.ruleId))⟩
    · have hnone : ∀ r ∈ rules, r.ruleId ≠ id := fun r hr he => hL ⟨r, hr, he⟩
      have hskip : core.executeRulesLoop opt hash clock (id :: rest) status =
          core.executeRulesLoop opt hash clock rest status := by
        refine executeRulesLoop_skip fun rule hl => ?_
        rw [h.table_eq id List.mem_cons_self] at hl
        by_contra henf
        obtain ⟨hr, hid⟩ := honly id rule hl (by simpa using henf)
        exact hnone rule hr hid
      have hrest : ∀ r ∈ rules, r.ruleId ∈ id :: rest ↔ r.ruleId ∈ rest := by
        intro r hr
        simp [hnone r hr]
      have hcount : (∃ r ∈ rules, r.ruleId ∈ id :: rest) ↔ ∃ r ∈ rules, r.ruleId ∈ rest := by
        constructor
        · rintro ⟨r, hr, hm⟩
          exact ⟨r, hr, (hrest r hr).mp hm⟩
        · rintro ⟨r, hr, hm⟩
          exact ⟨r, hr, (hrest r hr).mpr hm⟩
      obtain ⟨hgood, hbad⟩ := @ih (visited ++ [id]) status core horder' (h.skip hnone)
      simp only [hskip, hcount]
      refine ⟨fun hall => hgood fun r hr hm => hall r hr ((hrest r hr).mpr hm), ?_⟩
      rintro ⟨r, hr, hm, hun⟩
      exact hbad ⟨r, hr, (hrest r hr).mp hm, hun⟩

theorem channelsFirst_iff {core₀ : Core} {rules : List HousekeepingRule} {order : List UInt64} :
    core₀.ChannelsFirst rules order ↔ ∀ r ∈ rules, core₀.Available
      (fun c => c ∈ rules ∧ order.idxOf c.ruleId < order.idxOf r.ruleId) r := by
  refine forall₂_congr fun r _ => imp_congr_right fun _ => or_congr_right ?_
  constructor
  · rintro ⟨c, hc, ht, hid, hlt⟩
    exact ⟨c, ⟨hc, hlt⟩, ht, hid⟩
  · rintro ⟨c, ⟨hc, hlt⟩, ht, hid⟩
    exact ⟨c, hc, ht, hid, hlt⟩

/-- Rules that wait in the table build nothing. -/
theorem Built.stageAll {core₀ core : Core} {built : HousekeepingRule → Prop}
    (h : Built opt hash core₀ built core) (rules : List HousekeepingRule) :
    Built opt hash core₀ built (core.stageAll rules) := by
  induction rules generalizing core with
  | nil => exact h
  | cons r rest ih => exact ih (h.keep rfl rfl rfl rfl)

/-- Before the loop nothing is visited and nothing is built. -/
theorem loopState_stageAll {core₀ : Core} (hw₀ : core₀.WellLinked opt hash)
    (rules : List HousekeepingRule) (order : List UInt64) :
    LoopState opt hash core₀ rules (core₀.stageAll rules).housekeepingTable.housekeepingRules []
      order (core₀.stageAll rules) where
  built := ((built_start hw₀).stageAll rules).congr fun r => by simp
  table_eq := fun _ _ => rfl

/-- What the batch execution of collected rules comes to. -/
theorem executeHousekeepingRules_outcome {core₀ : Core} (hw₀ : core₀.WellLinked opt hash)
    (hidle : ∀ id rule, core₀.housekeepingTable.housekeepingRules.lookup id = some rule →
      rule.enforced = true)
    {rules : List HousekeepingRule} (hacc : Agent.Accepted opt hash core₀ rules)
    (htypes : ∀ r ∈ rules, r.Creates) (hids : (rules.map HousekeepingRule.ruleId).Nodup)
    (clock : UInt64 → Clock) {order : List UInt64}
    (horder : (core₀.stageAll rules).housekeepingTable.IsIterationOrder order) :
    (core₀.ChannelsFirst rules order → ∃ core',
      (core₀.stageAll rules).executeHousekeepingRules opt hash clock order =
        .ok (core', .returned (if rules = [] then .error else .ok)) ∧
      Built opt hash core₀ (· ∈ rules) core') ∧
    (¬ core₀.ChannelsFirst rules order → ∃ core',
      (core₀.stageAll rules).executeHousekeepingRules opt hash clock order =
        .ok (core', .returned .error)) := by
  obtain ⟨hnd, horder⟩ := horder
  have hinj : ∀ r ∈ rules, ∀ r' ∈ rules, r.ruleId = r'.ruleId → r = r' :=
    fun r hr r' hr' => List.inj_on_of_nodup_map hids hr hr'
  have hmem : ∀ r ∈ rules, (core₀.stageAll rules).housekeepingTable.housekeepingRules.lookup
      r.ruleId = some r := fun r hr => lookup_stageAll_of_mem hids hr core₀
  have honly : ∀ id rule, (core₀.stageAll rules).housekeepingTable.housekeepingRules.lookup id =
      some rule → rule.enforced = false → rule ∈ rules ∧ rule.ruleId = id := by
    intro id rule hl henf
    by_cases hid : id ∈ rules.map HousekeepingRule.ruleId
    · obtain ⟨r, hr, rfl⟩ := List.mem_map.mp hid
      obtain rfl : r = rule := Option.some.inj ((hmem r hr).symm.trans hl)
      exact ⟨hr, rfl⟩
    · rw [lookup_stageAll_of_notMem hid] at hl
      exact absurd (hidle id rule hl) (by simp [henf])
  have hvisited : ∀ r ∈ rules, r.ruleId ∈ order := fun r hr =>
    (horder r.ruleId).mpr (Finmap.mem_of_lookup_eq_some (hmem r hr))
  obtain ⟨hgood, hbad⟩ : _ ∧ _ := @executeRulesLoop_outcome opt hash core₀ hw₀ rules hacc htypes hinj
    _ hmem honly clock order hnd order [] .error (core₀.stageAll rules) rfl
    (loopState_stageAll hw₀ rules order)
  rw [channelsFirst_iff]
  constructor
  · intro hfirst
    obtain ⟨core', hloop, hb⟩ := hgood fun r hr _ => hfirst r hr
    refine ⟨core', ?_, hb.congr fun r => and_iff_left_of_imp (hvisited r)⟩
    rw [executeHousekeepingRules, hloop]
    cases rules with
    | nil => simp
    | cons r rest =>
      have hsome : ∃ r' ∈ r :: rest, r'.ruleId ∈ order :=
        ⟨r, List.mem_cons_self, hvisited r List.mem_cons_self⟩
      rw [if_pos hsome, if_neg (by simp)]
  · intro hfirst
    simp only [not_forall] at hfirst
    obtain ⟨r, hr, hun⟩ := hfirst
    exact hbad ⟨r, hr, hvisited r hr, hun⟩

end Core

namespace Agent

/-- Rules that all succeed when they are executed on receipt: collected and executed together they
succeed and build the same registry exactly when there is a rule at all and the iteration visits
channels before their objects. -/
theorem deferred_agrees_iff {agent : Agent} (hreach : agent.core.Reachable opt hash)
    (hidle : ∀ id rule, agent.core.housekeepingTable.housekeepingRules.lookup id = some rule →
      rule.enforced = true)
    {rules : List HousekeepingRule} (htypes : ∀ r ∈ rules, r.Creates)
    (hids : (rules.map HousekeepingRule.ruleId).Nodup) {clock : UInt64 → Clock}
    {immediate : Agent} {completions : List Completion}
    (himm : ({ agent with executeOnReceive := true } : Agent).employAll opt hash clock rules =
      .ok (immediate, completions))
    (hok : ∀ c ∈ completions, c = .returned .ok) :
    ∃ staged, ({ agent with executeOnReceive := false } : Agent).employAll opt hash clock rules =
        .ok (staged, rules.map fun _ => .returned .ok) ∧
      ∀ (clock₂ : UInt64 → Clock) (order : List UInt64),
        staged.core.housekeepingTable.IsIterationOrder order →
        ((∃ final, staged.executeHousekeepingRules opt hash clock₂ order =
            .ok (final, .returned .ok) ∧ Core.SameRegistry immediate.core final.core) ↔
          rules ≠ [] ∧ agent.core.ChannelsFirst rules order) := by
  have hw₀ := hreach.wellLinked
  have hstart : Core.Built opt hash agent.core (· ∈ ([] : List HousekeepingRule)) agent.core :=
    (Core.built_start hw₀).congr fun r => by simp
  have hexec : ({ agent with executeOnReceive := true } : Agent).executeOnReceive = true := rfl
  obtain ⟨hacc, himmediate, hfresh⟩ :=
    employAll_ok hw₀ htypes hexec ⟨by simp, by simp, by simp⟩ hstart himm hok
  rw [List.nil_append] at hacc himmediate
  refine ⟨_, employAll_staged rfl htypes hids hfresh, ?_⟩
  intro clock₂ order horder
  obtain ⟨hgood, hbad⟩ :=
    Core.executeHousekeepingRules_outcome hw₀ hidle hacc htypes hids clock₂ horder
  constructor
  · rintro ⟨final, hfinal, _⟩
    by_cases hfirst : agent.core.ChannelsFirst rules order
    · obtain ⟨core', hx, _⟩ := hgood hfirst
      refine ⟨?_, hfirst⟩
      rintro rfl
      simp [executeHousekeepingRules, hx, PStatus.isOk] at hfinal
    · obtain ⟨core', hx⟩ := hbad hfirst
      simp [executeHousekeepingRules, hx, PStatus.isOk] at hfinal
  · rintro ⟨hne, hfirst⟩
    obtain ⟨core', hx, hb⟩ := hgood hfirst
    rw [if_neg hne] at hx
    exact ⟨_, by simp only [executeHousekeepingRules, hx]; rfl, himmediate.sameRegistry hb⟩

/-- The rule of a channel. -/
def channelRule : HousekeepingRule :=
  { ruleId := 1, ruleType := .createChannel, channelId := 5, properties := [0, 1, 0, 0] }

/-- The rule of an object in that channel. -/
def objectRule : HousekeepingRule where
  ruleId := 2
  ruleType := .createObject
  channelId := 5
  enforcementObjectId := 1
  properties := [0, 0, 0, 0]

theorem isIterationOrder_two {order : List UInt64} (h : order = [1, 2] ∨ order = [2, 1]) :
    ((Core.new {}).stageAll [channelRule, objectRule]).housekeepingTable.IsIterationOrder order := by
  refine ⟨by rcases h with rfl | rfl <;> decide, fun id => ?_⟩
  simp only [Core.stageAll, List.foldl_cons, List.foldl_nil, Core.stage, HousekeepingTable.stage,
    Finmap.mem_insert]
  rcases h with rfl | rfl <;>
    simp [Core.new, Finmap.notMem_empty, channelRule, objectRule, or_comm]

/-- Both rules succeed on receipt; collected and visited in the other order, the object comes before
its channel and the execution ends with an error. -/
theorem deferred_fails_objectFirst :
    let agent : Agent := { core := Core.new {} }
    let rules := [channelRule, objectRule]
    (agent.employAll {} numeralHash (fun _ _ => 0) rules).toOption.map Prod.snd =
        some [.returned .ok, .returned .ok] ∧
      ∃ staged, ({ agent with executeOnReceive := false } : Agent).employAll {} numeralHash
          (fun _ _ => 0) rules = .ok (staged, [.returned .ok, .returned .ok]) ∧
        staged.core.housekeepingTable.IsIterationOrder [2, 1] ∧
        (staged.executeHousekeepingRules {} numeralHash (fun _ _ => 0) [2, 1]).toOption.map
          Prod.snd = some (.returned .error) := by
  refine ⟨by decide, _, rfl, isIterationOrder_two (.inr rfl), by decide⟩

/-- The same rules, visited in the order in which they were submitted. -/
theorem deferred_agrees_channelFirst :
    let agent : Agent := { core := Core.new {} }
    let rules := [channelRule, objectRule]
    ∃ immediate staged final completions,
      agent.employAll {} numeralHash (fun _ _ => 0) rules = .ok (immediate, completions) ∧
      ({ agent with executeOnReceive := false } : Agent).employAll {} numeralHash (fun _ _ => 0)
        rules = .ok (staged, rules.map fun _ => .returned .ok) ∧
      staged.executeHousekeepingRules {} numeralHash (fun _ _ => 0) [1, 2] =
        .ok (final, .returned .ok) ∧
      Core.SameRegistry immediate.core final.core := by
  intro agent rules
  have hsnd : (agent.employAll {} numeralHash (fun _ _ => 0) rules).toOption.map Prod.snd =
      some [.returned .ok, .returned .ok] := by decide
  cases himm : agent.employAll {} numeralHash (fun _ _ => 0) rules with
  | error f => rw [himm] at hsnd; cases hsnd
  | ok out =>
    obtain ⟨immediate, completions⟩ := out
    rw [himm] at hsnd
    obtain rfl : completions = [.returned .ok, .returned .ok] := Option.some.inj hsnd
    have hreach : agent.core.Reachable {} numeralHash := .new
    have htypes : ∀ r ∈ rules, r.Creates := by
      simp [rules, HousekeepingRule.Creates, channelRule, objectRule]
    have hidle : ∀ id rule, agent.core.housekeepingTable.housekeepingRules.lookup id = some rule →
        rule.enforced = true := by
      intro id rule hl
      simp [agent, Core.new] at hl
    have hfirst : agent.core.ChannelsFirst rules [1, 2] := by
      intro r hr ho
      rcases List.mem_cons.mp hr with rfl | hr
      · cases ho
      · obtain rfl := List.mem_singleton.mp hr
        exact .inr ⟨channelRule, List.mem_cons_self, rfl, rfl, by decide⟩
    obtain ⟨staged, hstaged, hiff⟩ :=
      deferred_agrees_iff hreach hidle htypes (by decide) himm (by simp)
    have horder : staged.core.housekeepingTable.IsIterationOrder [1, 2] := by
      rw [employAll_staged rfl htypes (by decide)
        (by simp [agent, Core.new, Finmap.notMem_empty])] at hstaged
      cases hstaged
      exact isIterationOrder_two (.inl rfl)
    obtain ⟨final, hfinal, hsame⟩ :=
      (hiff (fun _ _ => 0) [1, 2] horder).mpr ⟨by simp [rules], hfirst⟩
    exact ⟨immediate, staged, final, _, rfl, hstaged, hfinal, hsame⟩

end Agent

end Paio
