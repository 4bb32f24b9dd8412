import Paio.RuleOutcome

/-!
# Paio.RuleOrder

Rules that do not get in each other's way may be employed in any order, as long as the rule of a
channel comes before the rules of its objects. Every rule succeeds, and the registry does not tell
the order: what was built is described by the set of the rules (`Core.Built`).
-/

namespace Paio

variable {opt : Options} {hash : String → UInt32}

namespace Core

variable (opt hash)

/-- The token of the rule's object in a channel that the core creates. -/
def newObjectToken (core₀ : Core) (r : HousekeepingRule) : UInt32 :=
  (core₀.newChannel opt (fun _ => 0) r.channelId).ruleToken hash r

/-- Rules for a core without channels that use no identifier and no token twice. The identifiers of
objects do not matter: to create an object nothing is looked up by its identifier. -/
structure Independent (core₀ : Core) (rules : List HousekeepingRule) : Prop where
  creates : ∀ r ∈ rules, r.Creates
  pending : ∀ r ∈ rules, r.enforced = false
  ruleIds : (rules.map HousekeepingRule.ruleId).Nodup
  fresh : ∀ r ∈ rules, r.ruleId ∉ core₀.housekeepingTable.housekeepingRules
  channels : ∀ r ∈ rules, ∀ r' ∈ rules, r ≠ r' →
    r.ruleType = .createChannel → r'.ruleType = .createChannel →
    r.channelId ≠ r'.channelId ∧
    core₀.channelToken hash r.channelTuple ≠ core₀.channelToken hash r'.channelTuple
  channelToken_ne : ∀ r ∈ rules, r.ruleType = .createChannel →
    core₀.channelToken hash r.channelTuple ≠ noToken
  objects : ∀ r ∈ rules, ∀ r' ∈ rules, r ≠ r' →
    r.ruleType = .createObject → r'.ruleType = .createObject → r.channelId = r'.channelId →
    core₀.newObjectToken opt hash r ≠ core₀.newObjectToken opt hash r'
  types : ∀ r ∈ rules, r.ruleType = .createObject → r.objectType ≠ none
  values : ∀ r ∈ rules, r.ruleType = .createObject → r.objectType = some .drl →
    2 ≤ r.objectConfigurations.length

/-- The rule of a channel comes before the rules of its objects. -/
def ChannelsBefore (rules : List HousekeepingRule) : Prop :=
  ∀ i (h : i < rules.length), rules[i].ruleType = .createObject →
    ∃ c ∈ rules.take i, c.ruleType = .createChannel ∧ c.channelId = rules[i].channelId

instance : DecidablePred ChannelsBefore :=
  fun rules => inferInstanceAs (Decidable (∀ i (h : i < rules.length),
    rules[i].ruleType = .createObject →
      ∃ c ∈ rules.take i, c.ruleType = .createChannel ∧ c.channelId = rules[i].channelId))

variable {opt hash} {core₀ : Core} {rules rules₂ : List HousekeepingRule}

theorem Independent.perm (h : Independent opt hash core₀ rules) (hp : rules.Perm rules₂) :
    Independent opt hash core₀ rules₂ where
  creates := fun r hr => h.creates r (hp.mem_iff.mpr hr)
  pending := fun r hr => h.pending r (hp.mem_iff.mpr hr)
  ruleIds := (hp.map _).nodup_iff.mp h.ruleIds
  fresh := fun r hr => h.fresh r (hp.mem_iff.mpr hr)
  channels := fun r hr r' hr' => h.channels r (hp.mem_iff.mpr hr) r' (hp.mem_iff.mpr hr')
  channelToken_ne := fun r hr => h.channelToken_ne r (hp.mem_iff.mpr hr)
  objects := fun r hr r' hr' => h.objects r (hp.mem_iff.mpr hr) r' (hp.mem_iff.mpr hr')
  types := fun r hr => h.types r (hp.mem_iff.mpr hr)
  values := fun r hr => h.values r (hp.mem_iff.mpr hr)

theorem Independent.unseen (h : Independent opt hash core₀ rules)
    {done rest : List HousekeepingRule} {r : HousekeepingRule} (hsplit : rules = done ++ r :: rest) :
    r.ruleId ∉ done.map HousekeepingRule.ruleId := by
  intro hseen
  have hids := h.ruleIds
  rw [hsplit, List.map_append, List.map_cons] at hids
  exact (List.nodup_append.mp hids).2.2 _ hseen _ List.mem_cons_self rfl

theorem ChannelsBefore.channel (h : ChannelsBefore rules) {done rest : List HousekeepingRule}
    {r : HousekeepingRule} (hsplit : rules = done ++ r :: rest) (ht : r.ruleType = .createObject) :
    ∃ c ∈ done, c.ruleType = .createChannel ∧ c.channelId = r.channelId := by
  subst hsplit
  simpa [ht] using h done.length (by simp)

/-- A registry without channels has no linkers either. -/
theorem WellLinked.linkers_of_empty (hw : core₀.WellLinked opt hash) (h : core₀.channels = ∅) :
    core₀.channelIdToTokenLinkers = [] := by
  rw [List.eq_nil_iff_forall_not_mem]
  rintro ⟨channelId, token⟩ hlink
  obtain ⟨channel, hsel, _⟩ := hw.entry channelId token hlink
  rw [h, Finmap.lookup_empty] at hsel
  cases hsel

/-- In its turn, every rule fits to those before it. -/
theorem Independent.fits (hw₀ : core₀.WellLinked opt hash) (hnone : core₀.channels = ∅)
    (h : Independent opt hash core₀ rules) (hbefore : ChannelsBefore rules)
    {done rest : List HousekeepingRule} {r : HousekeepingRule} (hsplit : rules = done ++ r :: rest) :
    Fits opt hash core₀ (· ∈ done) r := by
  have hlinkers := hw₀.linkers_of_empty hnone
  have hr : r ∈ rules := by simp [hsplit]
  have hdone : ∀ r' ∈ done, r' ∈ rules ∧ r' ≠ r := by
    intro r' hr'
    refine ⟨by simp [hsplit, hr'], ?_⟩
    rintro rfl
    exact h.unseen hsplit (List.mem_map_of_mem hr')
  have hbase : ∀ channelId, core₀.baseChannel opt channelId =
      core₀.newChannel opt (fun _ => 0) channelId := by
    intro channelId
    exact baseChannel_of_notMem (by simp [hlinkers])
  refine ⟨h.creates r hr, ⟨fun _ => ?_, fun ht => ⟨?_, ?_, ?_⟩⟩, fun ht => ?_, fun r' hr' => ?_⟩
  · rw [hlinkers, hnone]
    exact ⟨by simp, Finmap.notMem_empty⟩
  · exact ChannelDefault.isSome_ruleObject _ (h.types r hr ht) (h.values r hr ht)
  · rw [hbase, newChannel]
    split <;> rfl
  · simp [hlinkers]
  · obtain ⟨c, hc, hct, hcid⟩ := hbefore.channel hsplit ht
    exact .inr ⟨c, hc, hct, hcid⟩
  · obtain ⟨hmem, hne⟩ := hdone r' hr'
    refine ⟨h.channels r' hmem r hr hne, fun ht' ht hid => ?_,
      fun ht' _ _ => h.channelToken_ne r' hmem ht', fun _ ht _ => h.channelToken_ne r hr ht⟩
    have hobjects := h.objects r' hmem r hr hne ht' ht hid
    rw [newObjectToken, newObjectToken, hid] at hobjects
    rw [hbase]
    exact hobjects

end Core

namespace Agent

/-- Every rule is employed with success, and what is built is what the rules say. -/
theorem employAll_independent {core₀ : Core} (hw₀ : core₀.WellLinked opt hash)
    (hnone : core₀.channels = ∅) (clock : UInt64 → Clock) {rules : List HousekeepingRule}
    (h : Core.Independent opt hash core₀ rules) (hbefore : Core.ChannelsBefore rules)
    (rest done : List HousekeepingRule) (hsplit : rules = done ++ rest) {agent : Agent}
    (hagent : Received opt hash core₀ (· ∈ done.map HousekeepingRule.ruleId) (· ∈ done) agent) :
    ∃ agent', agent.employAll opt hash clock rest = .ok (agent', rest.map fun _ => .returned .ok) ∧
      Core.Built opt hash core₀ (· ∈ rules) agent'.core := by
  induction rest generalizing done agent with
  | nil => exact ⟨agent, rfl, by simpa [hsplit] using hagent.built⟩
  | cons r rest ih =>
    have hr : r ∈ rules := by simp [hsplit]
    have hfits := h.fits hw₀ hnone hbefore hsplit
    obtain ⟨_, _, _, agent₁, he, hreceived⟩ | ⟨hnot, _⟩ :=
      hagent.employ hw₀ hfits.creates (h.pending r hr) hfits.not_unsupported
        (fun hf => hf.not_fits hfits) (clock r.ruleId)
    · have hnext : Received opt hash core₀ (· ∈ (done ++ [r]).map HousekeepingRule.ruleId)
          (· ∈ done ++ [r]) agent₁ := hreceived.congr (by simp) (by simp)
      obtain ⟨agent', hrun, hbuilt⟩ := ih (done ++ [r]) (by simp [hsplit]) hnext
      exact ⟨agent', CallSequence.run_cons_ok he hrun, hbuilt⟩
    · exact absurd ⟨h.fresh r hr, h.unseen hsplit, hfits⟩ hnot

/-- Two orders of independent rules, in both of which the rule of a channel comes before the rules
of its objects: every rule is employed with success, and the registries are the same. -/
theorem order_irrelevant {core₀ : Core} (hreach : core₀.Reachable opt hash)
    (hnone : core₀.channels = ∅) {rules₁ rules₂ : List HousekeepingRule}
    (hperm : rules₁.Perm rules₂) (h : Core.Independent opt hash core₀ rules₁)
    (h₁ : Core.ChannelsBefore rules₁) (h₂ : Core.ChannelsBefore rules₂)
    (clock₁ clock₂ : UInt64 → Clock) :
    ∃ agent₁ agent₂ : Agent,
      ({ core := core₀ } : Agent).employAll opt hash clock₁ rules₁ =
        .ok (agent₁, rules₁.map fun _ => .returned .ok) ∧
      ({ core := core₀ } : Agent).employAll opt hash clock₂ rules₂ =
        .ok (agent₂, rules₂.map fun _ => .returned .ok) ∧
      (∀ channelId, agent₁.core.channelIdToTokenLinkers.lookup channelId =
        agent₂.core.channelIdToTokenLinkers.lookup channelId) ∧
      Core.SameRegistry agent₁.core agent₂.core := by
  have hw₀ := hreach.wellLinked
  have hstart : Received opt hash core₀
      (· ∈ ([] : List HousekeepingRule).map HousekeepingRule.ruleId)
      (· ∈ ([] : List HousekeepingRule)) { core := core₀ } :=
    (received_start hw₀).congr (by simp) (by simp)
  obtain ⟨agent₁, hrun₁, hb₁⟩ :=
    employAll_independent hw₀ hnone clock₁ h h₁ rules₁ [] rfl hstart
  obtain ⟨agent₂, hrun₂, hb₂⟩ :=
    employAll_independent hw₀ hnone clock₂ (h.perm hperm) h₂ rules₂ [] rfl hstart
  have hsame := hb₁.sameRegistry (hb₂.congr fun r => hperm.mem_iff.symm)
  refine ⟨agent₁, agent₂, hrun₁, hrun₂, fun channelId => ?_, hsame⟩
  exact AssocList.lookup_congr hb₁.wellLinked.ids_nodup hb₂.wellLinked.ids_nodup hsame.linkers _

/-- The rule of a second channel. -/
def secondChannelRule : HousekeepingRule :=
  { ruleId := 3, ruleType := .createChannel, channelId := 6, properties := [0, 0, 0, 2] }

/-- The rule of a rate limiter in the second channel. -/
def limiterRule : HousekeepingRule where
  ruleId := 4
  ruleType := .createObject
  channelId := 6
  enforcementObjectId := 1
  properties := [0, 0, 0, 1, 1000000, 10]

/-- Two channels with an object each, one after the other and interleaved. -/
theorem order_irrelevant_two_channels :
    ∃ agent₁ agent₂ : Agent,
      ({ core := Core.new {} } : Agent).employAll {} numeralHash (fun _ _ => 0)
          [channelRule, objectRule, secondChannelRule, limiterRule] =
        .ok (agent₁, List.replicate 4 (.returned .ok)) ∧
      ({ core := Core.new {} } : Agent).employAll {} numeralHash (fun _ _ => 1)
          [secondChannelRule, limiterRule, channelRule, objectRule] =
        .ok (agent₂, List.replicate 4 (.returned .ok)) ∧
      (∀ channelId, agent₁.core.channelIdToTokenLinkers.lookup channelId =
        agent₂.core.channelIdToTokenLinkers.lookup channelId) ∧
      Core.SameRegistry agent₁.core agent₂.core := by
  refine order_irrelevant .new rfl (by decide) ?_ (by decide) (by decide) (fun _ _ => 0)
    (fun _ _ => 1)
  refine ⟨?_, by decide, by decide, ?_, by decide, by decide, by decide, by decide, by decide⟩
  · simp [HousekeepingRule.Creates, channelRule, objectRule, secondChannelRule, limiterRule]
  · intro r _
    exact Finmap.notMem_empty

end Agent

end Paio
