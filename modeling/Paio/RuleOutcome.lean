import Paio.Deferred
import Paio.FailedRules

/-!
# Paio.RuleOutcome

How the operation of one rule ends, read off the registry it starts from and the rules that were
executed before it. A rule either fits and is built, names an object type that does not exist,
asks for a configuration value it does not carry, or is refused; `Built.outcome` says which, and
that the four cases exclude each other.
-/

namespace Paio

variable {opt : Options} {hash : String → UInt32}

/-- The rule of an object whose type does not exist. -/
def HousekeepingRule.Unsupported (r : HousekeepingRule) : Prop :=
  r.ruleType = .createObject ∧ r.objectType = none

instance : DecidablePred HousekeepingRule.Unsupported :=
  fun r => inferInstanceAs (Decidable (r.ruleType = .createObject ∧ r.objectType = none))

namespace ChannelDefault

/-- What creating an object comes to in a channel in which the other rules have built theirs. -/
theorem Built.create_cases {base ch : ChannelDefault} {rules : HousekeepingRule → Prop}
    {r : HousekeepingRule} (h : Built hash base rules ch) (clock : Clock)
    {type : EnforcementObjectType} (htype : r.objectType = some type) :
    ((∃ ch', ch.createEnforcementObject hash clock r.enforcementObjectId r.objectPair r.objectType
        r.objectConfigurations = .ok (ch', .ok)) ∧ (base.ruleObject r).isSome) ∨
    ((∃ f, ch.createEnforcementObject hash clock r.enforcementObjectId r.objectPair r.objectType
        r.objectConfigurations = .error f) ∧ base.ruleObject r = none ∧
      base.objectAt (base.ruleToken hash r) = none ∧
      ∀ r', rules r' → base.ruleToken hash r' ≠ base.ruleToken hash r) ∨
    (ch.createEnforcementObject hash clock r.enforcementObjectId r.objectPair r.objectType
        r.objectConfigurations = .ok (ch, .error) ∧
      ¬ (base.objectAt (base.ruleToken hash r) = none ∧
        ∀ r', rules r' → base.ruleToken hash r' ≠ base.ruleToken hash r)) := by
  have htoken : ch.submissionQueue.buildObjectToken hash r.objectPair = base.ruleToken hash r :=
    ruleToken_congr h.skeleton r
  have hobject := ruleObject_eq h.skeleton clock htype
  have hcreate := createEnforcementObject_eq hash clock ch r.enforcementObjectId r.objectPair
    r.objectType r.objectConfigurations
  rw [htype] at hcreate
  simp only [htoken] at hcreate
  rw [htype, hcreate]
  by_cases hfree : ch.objectAt (base.ruleToken hash r) = none
  · have hapart := h.objectAt_eq_none.mp hfree
    rw [if_neg (ChannelDefault.objectAt_eq_none.mp hfree)]
    cases ho : ch.initialObject clock r.enforcementObjectId type r.objectConfigurations with
    | ok object =>
      rw [ho] at hobject
      exact .inl ⟨⟨_, rfl⟩, by rw [hobject]; rfl⟩
    | error f =>
      rw [ho] at hobject
      exact .inr (.inl ⟨⟨f, rfl⟩, hobject, hapart.1, hapart.2⟩)
  · have hmem := not_not.mp (mt ChannelDefault.objectAt_eq_none.mpr hfree)
    rw [if_pos hmem]
    exact .inr (.inr ⟨rfl, mt h.objectAt_eq_none.mpr hfree⟩)

/-- An object of one of the two types with both values can be built. -/
theorem isSome_ruleObject (ch : ChannelDefault) {r : HousekeepingRule} (htype : r.objectType ≠ none)
    (hvalues : r.objectType = some .drl → 2 ≤ r.objectConfigurations.length) :
    (ch.ruleObject r).isSome := by
  rw [ruleObject]
  cases ht : r.objectType with
  | none => exact absurd ht htype
  | some type =>
    cases type with
    | noop =>
      rw [Option.bind_some, initialObject, if_neg (by simp)]
      rfl
    | drl =>
      have hlength := hvalues ht
      generalize r.objectConfigurations = configurations at hlength
      rcases configurations with _ | ⟨a, _ | ⟨b, rest⟩⟩
      · simp at hlength
      · simp at hlength
      · rfl

end ChannelDefault

namespace Core

variable (opt hash)

/-- What it takes for a rule to succeed after the other rules. -/
structure Fits (core₀ : Core) (rules : HousekeepingRule → Prop) (r : HousekeepingRule) : Prop where
  creates : r.Creates
  own : Own opt hash core₀ r
  available : core₀.Available rules r
  separate : ∀ r', rules r' → Separate opt hash core₀ r' r

/-- The channel of the rule's object is there, under a token that does not stand for no channel. -/
def Addressable (core₀ : Core) (rules : HousekeepingRule → Prop) (r : HousekeepingRule) : Prop :=
  ∃ token, token ≠ noToken ∧
    ((r.channelId, token) ∈ core₀.channelIdToTokenLinkers ∨
      ∃ c, rules c ∧ c.ruleType = .createChannel ∧ c.channelId = r.channelId ∧
        core₀.channelToken hash c.channelTuple = token)

/-- The object is about to be created, and its configuration reads a value that the rule does not
carry. -/
structure Faulty (core₀ : Core) (rules : HousekeepingRule → Prop) (r : HousekeepingRule) :
    Prop where
  type : r.ruleType = .createObject
  supported : r.objectType ≠ none
  addressable : core₀.Addressable hash rules r
  impossible : (core₀.baseChannel opt r.channelId).ruleObject r = none
  free : (core₀.baseChannel opt r.channelId).objectAt
    ((core₀.baseChannel opt r.channelId).ruleToken hash r) = none
  apart : ∀ r', rules r' → r'.ruleType = .createObject → r'.channelId = r.channelId →
    (core₀.baseChannel opt r.channelId).ruleToken hash r' ≠
      (core₀.baseChannel opt r.channelId).ruleToken hash r

/-- How the operation of a rule ends on a core on which the other rules were executed. -/
inductive Outcome (clock : Clock) (core₀ : Core) (rules : HousekeepingRule → Prop) (core : Core)
    (r : HousekeepingRule) : Prop
  | created {core' : Core} (hfits : Fits opt hash core₀ rules r)
      (he : core.employRule opt hash clock r = .ok (core', .returned .ok))
      (hb : Built opt hash core₀ (fun r' => rules r' ∨ r' = r) core')
  | unsupported (hr : r.Unsupported) (ha : core₀.Addressable hash rules r)
      (he : core.employRule opt hash clock r = .ok (core, .returned .notSupported))
  | faulted {f : Fault} (hf : Faulty opt hash core₀ rules r)
      (he : core.employRule opt hash clock r = .error f)
  | refused {completion : Completion} (hfits : ¬ Fits opt hash core₀ rules r)
      (hr : r.Unsupported → ¬ core₀.Addressable hash rules r)
      (hf : ¬ Faulty opt hash core₀ rules r)
      (he : core.employRule opt hash clock r = .ok (core, completion))
      (hc : completion = .returned .error ∨ ∃ what, completion = .threw what)

variable {opt hash} {core₀ core core' : Core} {rules : HousekeepingRule → Prop}
  {r : HousekeepingRule} {clock : Clock}

theorem Fits.not_unsupported (h : Fits opt hash core₀ rules r) : ¬ r.Unsupported := by
  rintro ⟨ht, hnone⟩
  have hpossible := (h.own.object ht).1
  rw [ChannelDefault.ruleObject, hnone] at hpossible
  cases hpossible

theorem Faulty.not_fits (h : Faulty opt hash core₀ rules r) : ¬ Fits opt hash core₀ rules r := by
  intro hfits
  have hpossible := (hfits.own.object h.type).1
  rw [h.impossible] at hpossible
  cases hpossible

theorem Faulty.not_unsupported (h : Faulty opt hash core₀ rules r) : ¬ r.Unsupported :=
  fun hr => h.supported hr.2

/-- The channel of an addressable rule is found. -/
theorem Built.channel_of_addressable (h : Built opt hash core₀ rules core)
    (ha : core₀.Addressable hash rules r) :
    ∃ token channel, core.channelIdToTokenLinkers.lookup r.channelId = some token ∧
      token ≠ noToken ∧ core.selectChannel token = some channel ∧
      ChannelDefault.Built hash (core₀.baseChannel opt r.channelId)
        (fun r' => rules r' ∧ r'.ruleType = .createObject ∧ r'.channelId = r.channelId)
        channel := by
  obtain ⟨token, htoken, hlink⟩ := ha
  have hmem := (h.linkers r.channelId token).mpr hlink
  obtain ⟨channel, hsel, _⟩ := h.wellLinked.entry r.channelId token hmem
  exact ⟨token, channel, AssocList.lookup_of_mem h.wellLinked.ids_nodup hmem, htoken, hsel,
    h.channels r.channelId token channel hmem hsel⟩

/-- A call that names a channel which is not addressable gives up. -/
theorem Built.onChannel_of_not_addressable (h : Built opt hash core₀ rules core)
    (ha : ¬ core₀.Addressable hash rules r)
    {work : ChannelDefault → Except Fault (ChannelDefault × PStatus)} :
    core.onChannel r.channelId work = .ok (core, .error) := by
  by_cases htoken : core.getChannelDiffToken r.channelId = noToken
  · simp [onChannel, htoken]
  · exfalso
    apply ha
    have hmem := AssocList.mem_of_lookup (core.lookup_getChannelDiffToken htoken)
    exact ⟨_, htoken, (h.linkers r.channelId _).mp hmem⟩

theorem createEnforcementObject_of_error {channelId objectId : Int}
    {pair : ObjectDifferentiationPair} {objectType : Option EnforcementObjectType}
    {configurations : List Int} {token : UInt32} {channel : ChannelDefault} {f : Fault}
    (hl : core.channelIdToTokenLinkers.lookup channelId = some token) (htoken : token ≠ noToken)
    (hsel : core.selectChannel token = some channel)
    (hc : channel.createEnforcementObject hash clock objectId pair objectType configurations =
      .error f) :
    core.createEnforcementObject hash clock channelId objectId pair objectType configurations =
      .error f := by
  rw [Core.createEnforcementObject, onChannel_of_lookup hl htoken hsel, hc]

/-- The rule of an object in a channel that is found lets the channel create the object. -/
theorem employRule_of_lookup {token : UInt32} {channel : ChannelDefault}
    (ht : r.ruleType = .createObject)
    (hl : core.channelIdToTokenLinkers.lookup r.channelId = some token) (htoken : token ≠ noToken)
    (hsel : core.selectChannel token = some channel) :
    core.employRule opt hash clock r =
      (channel.createEnforcementObject hash clock r.enforcementObjectId r.objectPair r.objectType
        r.objectConfigurations).map
        fun out => (core.setChannel token out.1, .returned out.2) := by
  rw [employRule_createObject opt hash clock core ht]
  rcases hc : channel.createEnforcementObject hash clock r.enforcementObjectId r.objectPair
    r.objectType r.objectConfigurations with f | ⟨channel', status⟩
  · rw [createEnforcementObject_of_error hl htoken hsel hc]
    rfl
  · rw [createEnforcementObject_of_lookup hash hl htoken hsel hc]
    rfl

/-- A rule of one of the two types ends without an exception. -/
theorem employRule_ne_threw (htype : r.Creates) (what : String) :
    core.employRule opt hash clock r ≠ .ok (core', .threw what) := by
  rcases htype with ht | ht
  · rw [employRule_createChannel opt hash clock core ht]
    simp
  · rw [employRule_createObject opt hash clock core ht]
    split <;> simp

theorem Built.created (hw₀ : core₀.WellLinked opt hash) (h : Built opt hash core₀ rules core)
    (htype : r.Creates)
    (he : core.employRule opt hash clock r = .ok (core', .returned .ok)) :
    Outcome opt hash clock core₀ rules core r := by
  obtain ⟨hown, havail, hsep, hb⟩ := h.fits_of_employRule hw₀ htype he
  exact .created ⟨htype, hown, havail, hsep⟩ he hb

/-- A rule that fits succeeds, so one that does not succeed does not fit. -/
theorem Built.not_fits (hw₀ : core₀.WellLinked opt hash) (h : Built opt hash core₀ rules core)
    {completion : Completion}
    (he : core.employRule opt hash clock r = .ok (core', completion))
    (hc : completion ≠ .returned .ok) : ¬ Fits opt hash core₀ rules r := by
  intro hfits
  obtain ⟨core₁, hok⟩ :=
    h.employRule_of_fits hw₀ hfits.creates hfits.own hfits.available hfits.separate clock
  rw [he] at hok
  cases hok
  exact hc rfl

theorem Built.outcome (hw₀ : core₀.WellLinked opt hash) (h : Built opt hash core₀ rules core)
    (clock : Clock) (r : HousekeepingRule) : Outcome opt hash clock core₀ rules core r := by
  cases ht : r.ruleType with
  | createChannel =>
    have hnot : r.ruleType ≠ .createObject := by simp [ht]
    obtain ⟨_, _, heq⟩ | ⟨_, heq⟩ :=
      createChannel_cases opt hash clock core r.channelId r.channelTuple
    · have he := employRule_createChannel opt hash clock core ht
      rw [heq] at he
      exact h.created hw₀ (.inl ht) he
    · have he := employRule_createChannel opt hash clock core ht
      rw [heq] at he
      exact .refused (h.not_fits hw₀ he (by simp)) (fun hr => absurd hr.1 hnot)
        (fun hf => hnot hf.type) he (.inl rfl)
  | createObject =>
    by_cases ha : core₀.Addressable hash rules r
    · obtain ⟨token, channel, hl, htoken, hsel, hch⟩ := h.channel_of_addressable ha
      have he : core.employRule opt hash clock r = _ := employRule_of_lookup ht hl htoken hsel
      cases htype : r.objectType with
      | none =>
        rw [htype, ChannelDefault.createEnforcementObject_eq] at he
        simp only [Except.map, setChannel_self hsel] at he
        exact .unsupported ⟨ht, htype⟩ ha he
      | some type =>
        obtain ⟨⟨ch', hc⟩, _⟩ | ⟨⟨f, hc⟩, hnone, hfree, hapart⟩ | ⟨hc, htaken⟩ :=
          hch.create_cases clock htype
        · rw [hc] at he
          exact h.created hw₀ (.inr ht) he
        · rw [hc] at he
          refine .faulted ⟨ht, by simp [htype], ha, hnone, hfree, ?_⟩ he
          intro r' hr' ht' hid
          exact hapart r' ⟨hr', ht', hid⟩
        · rw [hc] at he
          simp only [Except.map, setChannel_self hsel] at he
          refine .refused (h.not_fits hw₀ he (by simp)) ?_ ?_ he (.inl rfl)
          · intro hr
            simp [hr.2] at htype
          · intro hf
            exact htaken ⟨hf.free, fun r' hr' => hf.apart r' hr'.1 hr'.2.1 hr'.2.2⟩
    · have he : core.employRule opt hash clock r = .ok (core, .returned .error) := by
        rw [employRule_createObject opt hash clock core ht, Core.createEnforcementObject,
          h.onChannel_of_not_addressable ha]
      exact .refused (h.not_fits hw₀ he (by simp)) (fun _ => ha) (fun hf => ha hf.addressable) he
        (.inl rfl)
  | configure | remove | noOp =>
    have he : ∃ what, core.employRule opt hash clock r = .ok (core, .threw what) := by
      rw [employRule, ht]
      exact ⟨_, rfl⟩
    obtain ⟨what, he⟩ := he
    refine .refused (h.not_fits hw₀ he (by simp)) ?_ ?_ he (.inr ⟨what, rfl⟩)
    · intro hr
      simp [hr.1] at ht
    · intro hf
      simp [hf.type] at ht

end Core

/-! ## Rules that are executed on receipt -/

namespace Agent

variable (opt hash) in
/-- The agent has received rules with the identifiers `seen`, of which `rules` were accepted. -/
structure Received (core₀ : Core) (seen : UInt64 → Prop) (rules : HousekeepingRule → Prop)
    (agent : Agent) : Prop where
  executes : agent.executeOnReceive = true
  built : Core.Built opt hash core₀ rules agent.core
  ids : ∀ id, id ∈ agent.core.housekeepingTable.housekeepingRules ↔
    id ∈ core₀.housekeepingTable.housekeepingRules ∨ seen id

variable {core₀ : Core} {seen : UInt64 → Prop} {rules : HousekeepingRule → Prop} {agent : Agent}
  {r : HousekeepingRule}

theorem received_start (hw₀ : core₀.WellLinked opt hash) :
    Received opt hash core₀ (fun _ => False) (fun _ => False) { core := core₀ } where
  executes := rfl
  built := Core.built_start hw₀
  ids := by simp

theorem Received.congr {seen₂ : UInt64 → Prop} {rules₂ : HousekeepingRule → Prop}
    (h : Received opt hash core₀ seen rules agent) (hseen : ∀ id, seen id ↔ seen₂ id)
    (hrules : ∀ r, rules r ↔ rules₂ r) : Received opt hash core₀ seen₂ rules₂ agent where
  executes := h.executes
  built := h.built.congr hrules
  ids := by simpa only [hseen] using h.ids

/-- The table after a new rule went through its operation. -/
theorem Received.mem_table (h : Received opt hash core₀ seen rules agent) {clock : Clock}
    {core₁ : Core} {completion : Completion}
    (he : (agent.core.stage r).employRule opt hash clock r = .ok (core₁, completion))
    (id : UInt64) :
    id ∈ core₁.housekeepingTable.housekeepingRules ↔
      id ∈ core₀.housekeepingTable.housekeepingRules ∨ seen id ∨ id = r.ruleId := by
  rw [Core.employRule_housekeepingTable he]
  simp only [Core.stage, HousekeepingTable.stage, Finmap.mem_insert, h.ids]
  tauto

/-- A new rule is accepted exactly when it fits to those that were accepted before. A rule whose
identifier was seen is refused. -/
theorem Received.employ (hw₀ : core₀.WellLinked opt hash)
    (h : Received opt hash core₀ seen rules agent) (htype : r.Creates)
    (hpending : r.enforced = false) (hsupported : ¬ r.Unsupported)
    (hpossible : ¬ Core.Faulty opt hash core₀ rules r) (clock : Clock) :
    (r.ruleId ∉ core₀.housekeepingTable.housekeepingRules ∧ ¬ seen r.ruleId ∧
      Core.Fits opt hash core₀ rules r ∧
      ∃ agent', agent.employHousekeepingRule opt hash clock r = .ok (agent', .returned .ok) ∧
        Received opt hash core₀ (fun id => seen id ∨ id = r.ruleId)
          (fun r' => rules r' ∨ r' = r) agent') ∨
    (¬ (r.ruleId ∉ core₀.housekeepingTable.housekeepingRules ∧ ¬ seen r.ruleId ∧
        Core.Fits opt hash core₀ rules r) ∧
      ∃ agent', agent.employHousekeepingRule opt hash clock r = .ok (agent', .returned .error) ∧
        Received opt hash core₀ (fun id => seen id ∨ id = r.ruleId) rules agent') := by
  by_cases hmem : r.ruleId ∈ agent.core.housekeepingTable.housekeepingRules
  · refine .inr ⟨?_, agent, employHousekeepingRule_duplicate opt hash clock htype hmem, ?_⟩
    · rintro ⟨hfresh, hunseen, _⟩
      exact ((h.ids r.ruleId).mp hmem).elim hfresh hunseen
    · refine ⟨h.executes, h.built, fun id => ?_⟩
      rw [h.ids]
      constructor
      · rintro (hold | hseen)
        · exact .inl hold
        · exact .inr (.inl hseen)
      · rintro (hold | hseen | rfl)
        · exact .inl hold
        · exact .inr hseen
        · exact (h.ids r.ruleId).mp hmem
  · have hfresh : r.ruleId ∉ core₀.housekeepingTable.housekeepingRules ∧ ¬ seen r.ruleId :=
      not_or.mp (mt (h.ids r.ruleId).mpr hmem)
    have hstage : Core.Built opt hash core₀ rules (agent.core.stage r) :=
      h.built.keep rfl rfl rfl rfl
    have hsel : (agent.core.stage r).housekeepingTable.selectHousekeepingRule r.ruleId = some r :=
      HousekeepingTable.selectHousekeepingRule_stage _ _
    rw [employHousekeepingRule_new opt hash clock htype hmem, h.executes, if_pos rfl,
      Core.executeHousekeepingRule_pending opt hash clock hsel hpending]
    cases hstage.outcome hw₀ clock r with
    | @created core₁ hfits he hb =>
      rw [he]
      refine .inl ⟨hfresh.1, hfresh.2, hfits, _, rfl, rfl, hb.keep rfl rfl rfl rfl, ?_⟩
      intro id
      exact HousekeepingTable.mem_markHousekeepingRuleAsEnforced.trans (h.mem_table he id)
    | unsupported hr _ _ => exact absurd hr hsupported
    | faulted hf _ => exact absurd hf hpossible
    | refused hfits _ _ he hc =>
      have hid := h.mem_table he
      obtain rfl | ⟨what, rfl⟩ := hc
      · rw [he]
        refine .inr ⟨fun hall => hfits hall.2.2, _, rfl, rfl, hstage, hid⟩
      · exact absurd he (Core.employRule_ne_threw htype what)

end Agent

end Paio
