import Mathlib.Data.List.Perm.Basic
import Paio.Registry

/-!
# Paio.RuleSet

What a set of rules builds, whatever the order. `Built core₀ rules core` describes the registry of
`core` by the registry of `core₀` and the set of the rules executed since, without mentioning their
order; instants are left out of it, since they do depend on when a rule is executed.

Whether a rule succeeds depends on the order in one respect only: the channel of an object has to be
there. `Fits` says what else it takes: a rule has to fit to the registry it starts from and to every
other rule.
-/

namespace Paio

variable (opt : Options) (hash : String → UInt32)

/-! ## Registries without instants -/

/-- An object without the instants of its bucket. -/
def EnforcementObject.timeless : EnforcementObject → EnforcementObject
  | .drl d => .drl { d with bucket := { d.bucket with nextRefillPeriod := 0, lastRefillPeriod := 0 } }
  | .noop n => .noop n

namespace ChannelDefault

/-- A channel without its objects and without instants. -/
def skeleton (ch : ChannelDefault) : ChannelDefault :=
  { ch with
    submissionQueue := { ch.submissionQueue with enfObjects := [] }
    objectIdToTokenLinkers := []
    channelStatistics := ch.channelStatistics.timeless }

/-- The object under a token, without instants. -/
def objectAt (ch : ChannelDefault) (token : UInt32) : Option EnforcementObject :=
  (ch.submissionQueue.selectEnforcementObject token).map EnforcementObject.timeless

/-- The token that a rule's object has in the channel. -/
def ruleToken (ch : ChannelDefault) (r : HousekeepingRule) : UInt32 :=
  ch.submissionQueue.buildObjectToken hash r.objectPair

/-- The object that a rule creates in the channel, if it can, without instants. -/
def ruleObject (ch : ChannelDefault) (r : HousekeepingRule) : Option EnforcementObject :=
  r.objectType.bind fun type =>
    (ch.initialObject (fun _ => 0) r.enforcementObjectId type
      r.objectConfigurations).toOption.map EnforcementObject.timeless

end ChannelDefault

/-- The registries are the same, up to the order of their lists and up to instants. -/
structure Core.SameRegistry (core core' : Core) : Prop where
  linkers : ∀ link, link ∈ core.channelIdToTokenLinkers ↔ link ∈ core'.channelIdToTokenLinkers
  channels : ∀ token, (core.selectChannel token).map ChannelDefault.skeleton =
    (core'.selectChannel token).map ChannelDefault.skeleton
  objects : ∀ token channel channel', core.selectChannel token = some channel →
    core'.selectChannel token = some channel' →
    ∀ objectToken, channel.objectAt objectToken = channel'.objectAt objectToken
  objectLinkers : ∀ token channel channel', core.selectChannel token = some channel →
    core'.selectChannel token = some channel' →
    ∀ link, link ∈ channel.objectIdToTokenLinkers ↔ link ∈ channel'.objectIdToTokenLinkers

namespace ChannelDefault

variable {hash} {base ch : ChannelDefault}

theorem objectAt_eq_none {token : UInt32} :
    ch.objectAt token = none ↔ token ∉ AssocList.keys ch.submissionQueue.enfObjects := by
  rw [objectAt, Option.map_eq_none_iff, SubmissionQueue.selectEnforcementObject,
    AssocList.lookup_eq_none_iff_notMem]

theorem ruleToken_congr (h : ch.skeleton = base.skeleton) (r : HousekeepingRule) :
    ch.ruleToken hash r = base.ruleToken hash r := by
  have hb : ch.submissionQueue.diffBuilder = base.submissionQueue.diffBuilder :=
    congrArg (fun c => c.submissionQueue.diffBuilder) h
  simp only [ruleToken, SubmissionQueue.buildObjectToken, hb]

/-- The object of a rule depends on the clock in its instants only. -/
theorem initialObject_timeless (h : ch.skeleton = base.skeleton) (clock clock₂ : Clock)
    (objectId : Int) (type : EnforcementObjectType) (configurations : List Int) :
    (ch.initialObject clock objectId type configurations).toOption.map
        EnforcementObject.timeless =
      (base.initialObject clock₂ objectId type configurations).toOption.map
        EnforcementObject.timeless := by
  have hc : ch.collectObjectStatistics = base.collectObjectStatistics := by
    have hs := congrArg collectObjectStatistics h
    exact hs
  cases type with
  | noop => simp [initialObject, newObject]
  | drl =>
    simp only [initialObject, newObject, hc]
    rcases configurations with _ | ⟨_, _ | ⟨_, _⟩⟩ <;> rfl

variable (hash) in
/-- The channel is `base` with the objects of the rules. -/
structure Built (base : ChannelDefault) (rules : HousekeepingRule → Prop) (ch : ChannelDefault) :
    Prop where
  skeleton : ch.skeleton = base.skeleton
  possible : ∀ r, rules r → (base.ruleObject r).isSome
  objects : ∀ token object, ch.objectAt token = some object ↔
    base.objectAt token = some object ∨
      ∃ r, rules r ∧ base.ruleToken hash r = token ∧ base.ruleObject r = some object
  linkers : ∀ link, link ∈ ch.objectIdToTokenLinkers ↔
    link ∈ base.objectIdToTokenLinkers ∨
      ∃ r, rules r ∧ (r.enforcementObjectId, base.ruleToken hash r) = link

variable (hash) in
/-- The object of the rule can be created next to those of the others. -/
structure ObjectFits (base : ChannelDefault) (rules : HousekeepingRule → Prop)
    (r : HousekeepingRule) : Prop where
  possible : (base.ruleObject r).isSome
  free : base.objectAt (base.ruleToken hash r) = none
  apart : ∀ r', rules r' → base.ruleToken hash r' ≠ base.ruleToken hash r

variable {rules : HousekeepingRule → Prop} {r : HousekeepingRule} {clock : Clock}

theorem built_base (h : ch.skeleton = base.skeleton)
    (hobjects : ∀ token, ch.objectAt token = base.objectAt token)
    (hlinkers : ch.objectIdToTokenLinkers = base.objectIdToTokenLinkers) :
    Built hash base (fun _ => False) ch where
  skeleton := h
  possible := by simp
  objects := by simp [hobjects]
  linkers := by simp [hlinkers]

theorem Built.congr {rules₂ : HousekeepingRule → Prop} (h : Built hash base rules ch)
    (hr : ∀ r, rules r ↔ rules₂ r) : Built hash base rules₂ ch := by
  have heq : rules = rules₂ := funext fun r => propext (hr r)
  exact heq ▸ h

theorem Built.objectAt_eq_none (h : Built hash base rules ch) {token : UInt32} :
    ch.objectAt token = none ↔ base.objectAt token = none ∧
      ∀ r', rules r' → base.ruleToken hash r' ≠ token := by
  simp only [Option.eq_none_iff_forall_ne_some, ne_eq, h.objects, not_or, not_exists, not_and]
  constructor
  · intro hn
    refine ⟨fun object => (hn object).1, fun r' hr' ht => ?_⟩
    obtain ⟨object, ho⟩ := Option.isSome_iff_exists.mp (h.possible r' hr')
    exact (hn object).2 r' hr' ht ho
  · rintro ⟨hbase, hrules⟩ object
    exact ⟨hbase object, fun r' hr' ht _ => hrules r' hr' ht⟩

theorem Built.addObject (h : Built hash base rules ch) {object : EnforcementObject}
    (hobject : base.ruleObject r = some object.timeless)
    (hfree : ch.objectAt (base.ruleToken hash r) = none) :
    Built hash base (fun r' => rules r' ∨ r' = r)
      (ch.addObject r.enforcementObjectId (base.ruleToken hash r) object) := by
  have hkeys := ChannelDefault.objectAt_eq_none.mp hfree
  refine ⟨h.skeleton, ?_, ?_, ?_⟩
  · rintro r' (hr' | rfl)
    · exact h.possible r' hr'
    · simp [hobject]
  · intro token o
    by_cases ht : token = base.ruleToken hash r
    · subst ht
      have hself : (ch.addObject r.enforcementObjectId (base.ruleToken hash r) object).objectAt
          (base.ruleToken hash r) = some object.timeless := by
        simp only [objectAt, SubmissionQueue.selectEnforcementObject, ChannelDefault.addObject,
          AssocList.lookup_append_singleton_self object hkeys, Option.map_some]
      obtain ⟨hbase, hrules⟩ := h.objectAt_eq_none.mp hfree
      rw [hself, ← hobject]
      constructor
      · intro ho
        exact .inr ⟨r, .inr rfl, rfl, ho⟩
      · rintro (ho | ⟨r', hr' | rfl, ht, ho⟩)
        · simp [hbase] at ho
        · exact absurd ht (hrules r' hr')
        · exact ho
    · have hother : (ch.addObject r.enforcementObjectId (base.ruleToken hash r) object).objectAt
          token = ch.objectAt token := by
        simp only [objectAt, SubmissionQueue.selectEnforcementObject, ChannelDefault.addObject,
          AssocList.lookup_append_singleton_ne ht]
      rw [hother, h.objects]
      constructor
      · rintro (ho | ⟨r', hr', ht', ho⟩)
        · exact .inl ho
        · exact .inr ⟨r', .inl hr', ht', ho⟩
      · rintro (ho | ⟨r', hr' | rfl, ht', ho⟩)
        · exact .inl ho
        · exact .inr ⟨r', hr', ht', ho⟩
        · exact absurd ht'.symm ht
  · intro link
    simp only [ChannelDefault.addObject, List.mem_append, List.mem_singleton, h.linkers]
    constructor
    · rintro ((hl | ⟨r', hr', hl⟩) | hl)
      · exact .inl hl
      · exact .inr ⟨r', .inl hr', hl⟩
      · exact .inr ⟨r, .inr rfl, hl.symm⟩
    · rintro (hl | ⟨r', hr' | rfl, hl⟩)
      · exact .inl (.inl hl)
      · exact .inl (.inr ⟨r', hr', hl⟩)
      · exact .inr hl.symm

theorem ruleObject_eq (h : ch.skeleton = base.skeleton) (clock : Clock)
    {type : EnforcementObjectType} (htype : r.objectType = some type) :
    base.ruleObject r =
      (ch.initialObject clock r.enforcementObjectId type
        r.objectConfigurations).toOption.map EnforcementObject.timeless := by
  rw [ruleObject, htype, Option.bind_some, initialObject_timeless h clock fun _ => 0]

/-- Two channels with the same objects built into the same base. -/
theorem Built.objectAt_eq {ch₂ : ChannelDefault} (h : Built hash base rules ch)
    (h₂ : Built hash base rules ch₂) (token : UInt32) : ch.objectAt token = ch₂.objectAt token := by
  apply Option.ext
  intro object
  exact (h.objects token object).trans (h₂.objects token object).symm

/-- A rule that fits to the others creates its object. -/
theorem Built.create_of_fits (h : Built hash base rules ch) (hfits : ObjectFits hash base rules r)
    (clock : Clock) :
    ∃ ch', ch.createEnforcementObject hash clock r.enforcementObjectId r.objectPair r.objectType
      r.objectConfigurations = .ok (ch', .ok) := by
  have htoken : ch.submissionQueue.buildObjectToken hash r.objectPair = base.ruleToken hash r :=
    ruleToken_congr h.skeleton r
  have hfree := ChannelDefault.objectAt_eq_none.mp
    (h.objectAt_eq_none.mpr ⟨hfits.free, hfits.apart⟩)
  have hpossible := hfits.possible
  cases htype : r.objectType with
  | none =>
    rw [ruleObject, htype] at hpossible
    cases hpossible
  | some type =>
    rw [ruleObject_eq h.skeleton clock htype] at hpossible
    simp only [createEnforcementObject_eq, htoken, if_neg hfree]
    cases ho : ch.initialObject clock r.enforcementObjectId type r.objectConfigurations with
    | error f => rw [ho] at hpossible; cases hpossible
    | ok object => exact ⟨_, rfl⟩

/-- A rule that creates its object fits to the others. -/
theorem Built.fits_of_create (h : Built hash base rules ch) {ch' : ChannelDefault}
    (hc : ch.createEnforcementObject hash clock r.enforcementObjectId r.objectPair r.objectType
      r.objectConfigurations = .ok (ch', .ok)) :
    ObjectFits hash base rules r ∧ Built hash base (fun r' => rules r' ∨ r' = r) ch' := by
  have htoken : ch.submissionQueue.buildObjectToken hash r.objectPair = base.ruleToken hash r :=
    ruleToken_congr h.skeleton r
  obtain ⟨_, hne, _⟩ | ⟨type, object, htype, _, hfree, ho, rfl⟩ :=
    createEnforcementObject_cases hash hc
  · exact absurd rfl hne
  · rw [htoken] at hfree ⊢
    have hnone := ChannelDefault.objectAt_eq_none.mpr hfree
    have hobject : base.ruleObject r = some object.timeless := by
      rw [ruleObject_eq h.skeleton clock htype, ho]
      rfl
    obtain ⟨hbase, hrules⟩ := h.objectAt_eq_none.mp hnone
    exact ⟨⟨by simp [hobject], hbase, hrules⟩, h.addObject hobject hnone⟩

end ChannelDefault

namespace Core

/-! ## What a set of rules builds -/

/-- The channel of an identifier before any rule puts objects into it: the one that is there, or the
one that `create_channel` makes. -/
def baseChannel (core₀ : Core) (channelId : Int) : ChannelDefault :=
  ((core₀.channelIdToTokenLinkers.lookup channelId).bind core₀.selectChannel).getD
    (core₀.newChannel opt (fun _ => 0) channelId)

/-- The registry is that of `core₀` with what the rules have created. -/
structure Built (core₀ : Core) (rules : HousekeepingRule → Prop) (core : Core) : Prop where
  wellLinked : core.WellLinked opt hash
  builder : core.channelDiffBuilder = core₀.channelDiffBuilder
  defineDefault : core.defineDefaultObjectDifferentiation =
    core₀.defineDefaultObjectDifferentiation
  linkers : ∀ channelId token, (channelId, token) ∈ core.channelIdToTokenLinkers ↔
    (channelId, token) ∈ core₀.channelIdToTokenLinkers ∨
      ∃ r, rules r ∧ r.ruleType = .createChannel ∧ r.channelId = channelId ∧
        core₀.channelToken hash r.channelTuple = token
  channels : ∀ channelId token channel, (channelId, token) ∈ core.channelIdToTokenLinkers →
    core.selectChannel token = some channel →
    ChannelDefault.Built hash (core₀.baseChannel opt channelId)
      (fun r => rules r ∧ r.ruleType = .createObject ∧ r.channelId = channelId) channel
  owned : ∀ r, rules r → r.ruleType = .createObject →
    r.channelId ∈ AssocList.keys core.channelIdToTokenLinkers

/-- The rule fits to the registry it starts from. -/
structure Own (core₀ : Core) (r : HousekeepingRule) : Prop where
  channel : r.ruleType = .createChannel →
    r.channelId ∉ AssocList.keys core₀.channelIdToTokenLinkers ∧
    core₀.channelToken hash r.channelTuple ∉ core₀.channels
  object : r.ruleType = .createObject →
    ((core₀.baseChannel opt r.channelId).ruleObject r).isSome ∧
    (core₀.baseChannel opt r.channelId).objectAt
      ((core₀.baseChannel opt r.channelId).ruleToken hash r) = none ∧
    ∀ token, (r.channelId, token) ∈ core₀.channelIdToTokenLinkers → token ≠ noToken

/-- The rules do not get in each other's way: no identifier and no token is used twice, and the
token of a channel with objects is not the one that stands for no channel. -/
structure Separate (core₀ : Core) (r r' : HousekeepingRule) : Prop where
  channels : r.ruleType = .createChannel → r'.ruleType = .createChannel →
    r.channelId ≠ r'.channelId ∧
    core₀.channelToken hash r.channelTuple ≠ core₀.channelToken hash r'.channelTuple
  objects : r.ruleType = .createObject → r'.ruleType = .createObject →
    r.channelId = r'.channelId →
    (core₀.baseChannel opt r'.channelId).ruleToken hash r ≠
      (core₀.baseChannel opt r'.channelId).ruleToken hash r'
  channelObject : r.ruleType = .createChannel → r'.ruleType = .createObject →
    r.channelId = r'.channelId → core₀.channelToken hash r.channelTuple ≠ noToken
  objectChannel : r.ruleType = .createObject → r'.ruleType = .createChannel →
    r.channelId = r'.channelId → core₀.channelToken hash r'.channelTuple ≠ noToken

/-- The channel of an object is there, or one of the rules creates it. -/
def Available (core₀ : Core) (rules : HousekeepingRule → Prop) (r : HousekeepingRule) : Prop :=
  r.ruleType = .createObject →
    r.channelId ∈ AssocList.keys core₀.channelIdToTokenLinkers ∨
      ∃ c, rules c ∧ c.ruleType = .createChannel ∧ c.channelId = r.channelId

variable {opt hash} {core₀ core core' : Core} {rules : HousekeepingRule → Prop}
  {r : HousekeepingRule} {clock : Clock}

theorem Separate.symm {r r' : HousekeepingRule} (h : Separate opt hash core₀ r r') :
    Separate opt hash core₀ r' r where
  channels := fun hr hr' => ⟨(h.channels hr' hr).1.symm, (h.channels hr' hr).2.symm⟩
  objects := by
    intro hr hr' hid
    rw [← hid]
    exact (h.objects hr' hr hid.symm).symm
  channelObject := fun hr hr' hid => h.objectChannel hr' hr hid.symm
  objectChannel := fun hr hr' hid => h.channelObject hr' hr hid.symm

theorem baseChannel_of_select {channelId : Int} {token : UInt32} {channel : ChannelDefault}
    (hl : core₀.channelIdToTokenLinkers.lookup channelId = some token)
    (hsel : core₀.selectChannel token = some channel) :
    core₀.baseChannel opt channelId = channel := by
  simp [baseChannel, hl, hsel]

theorem baseChannel_of_notMem {channelId : Int}
    (h : channelId ∉ AssocList.keys core₀.channelIdToTokenLinkers) :
    core₀.baseChannel opt channelId = core₀.newChannel opt (fun _ => 0) channelId := by
  simp [baseChannel, AssocList.lookup_eq_none_iff_notMem.mpr h]

theorem built_start (hw : core₀.WellLinked opt hash) :
    Built opt hash core₀ (fun _ => False) core₀ where
  wellLinked := hw
  builder := rfl
  defineDefault := rfl
  linkers := by simp
  channels := by
    intro channelId token channel hl hsel
    have hbase : core₀.baseChannel opt channelId = channel :=
      baseChannel_of_select (AssocList.lookup_of_mem hw.ids_nodup hl) hsel
    rw [hbase]
    exact (ChannelDefault.built_base rfl (fun _ => rfl) rfl).congr (by simp)
  owned := by simp

theorem Built.congr {rules₂ : HousekeepingRule → Prop} (h : Built opt hash core₀ rules core)
    (hr : ∀ r, rules r ↔ rules₂ r) : Built opt hash core₀ rules₂ core := by
  have heq : rules = rules₂ := funext fun r => propext (hr r)
  exact heq ▸ h

/-- Whatever changes the housekeeping table only changes nothing here. -/
theorem Built.keep (h : Built opt hash core₀ rules core) (hch : core'.channels = core.channels)
    (hl : core'.channelIdToTokenLinkers = core.channelIdToTokenLinkers)
    (hb : core'.channelDiffBuilder = core.channelDiffBuilder)
    (hd : core'.defineDefaultObjectDifferentiation = core.defineDefaultObjectDifferentiation) :
    Built opt hash core₀ rules core' where
  wellLinked := h.wellLinked.step (.keep hch hl)
  builder := hb.trans h.builder
  defineDefault := hd.trans h.defineDefault
  linkers := by simpa only [hl] using h.linkers
  channels := by simpa only [selectChannel, hch, hl] using h.channels
  owned := by simpa only [hl] using h.owned

theorem Built.mem_keys (h : Built opt hash core₀ rules core) {channelId : Int} :
    channelId ∈ AssocList.keys core.channelIdToTokenLinkers ↔
      channelId ∈ AssocList.keys core₀.channelIdToTokenLinkers ∨
        ∃ r, rules r ∧ r.ruleType = .createChannel ∧ r.channelId = channelId := by
  simp only [AssocList.keys, List.mem_map, Prod.exists, exists_and_right, exists_eq_right]
  constructor
  · rintro ⟨token, hl⟩
    rcases (h.linkers channelId token).mp hl with hold | ⟨c, hc, ht, hid, _⟩
    · exact .inl ⟨token, hold⟩
    · exact .inr ⟨c, hc, ht, hid⟩
  · rintro (⟨token, hold⟩ | ⟨c, hc, ht, hid⟩)
    · exact ⟨token, (h.linkers channelId token).mpr (.inl hold)⟩
    · exact ⟨_, (h.linkers channelId _).mpr (.inr ⟨c, hc, ht, hid, rfl⟩)⟩

theorem Built.mem_channels (hw₀ : core₀.WellLinked opt hash) (h : Built opt hash core₀ rules core)
    {token : UInt32} :
    token ∈ core.channels ↔ token ∈ core₀.channels ∨
      ∃ r, rules r ∧ r.ruleType = .createChannel ∧
        core₀.channelToken hash r.channelTuple = token := by
  rw [← h.wellLinked.mem_tokens_iff, ← hw₀.mem_tokens_iff]
  simp only [LinkedMap.tokens, List.mem_map, Prod.exists, exists_eq_right]
  constructor
  · rintro ⟨channelId, hl⟩
    rcases (h.linkers channelId token).mp hl with hold | ⟨c, hc, ht, _, htoken⟩
    · exact .inl ⟨channelId, hold⟩
    · exact .inr ⟨c, hc, ht, htoken⟩
  · rintro (⟨channelId, hold⟩ | ⟨c, hc, ht, htoken⟩)
    · exact ⟨channelId, (h.linkers channelId token).mpr (.inl hold)⟩
    · exact ⟨_, (h.linkers _ token).mpr (.inr ⟨c, hc, ht, rfl, htoken⟩)⟩

/-! ### Executing one more rule -/

theorem newChannel_skeleton (hd : core.defineDefaultObjectDifferentiation =
      core₀.defineDefaultObjectDifferentiation) (clock clock₂ : Clock) (channelId : Int) :
    (core.newChannel opt clock channelId).skeleton =
      (core₀.newChannel opt clock₂ channelId).skeleton := by
  simp only [newChannel, hd]
  split <;> cases hs : opt.channelStatisticCollection <;>
    simp [ChannelDefault.skeleton, ChannelDefault.new, ChannelDefault.defineObjectDifferentiation,
      hs]

theorem newChannel_built (hid : r.channelId ∉ AssocList.keys core₀.channelIdToTokenLinkers)
    (hd : core.defineDefaultObjectDifferentiation = core₀.defineDefaultObjectDifferentiation) :
    ChannelDefault.Built hash (core₀.baseChannel opt r.channelId) (fun _ => False)
      (core.newChannel opt clock r.channelId) := by
  rw [baseChannel_of_notMem hid]
  refine ChannelDefault.built_base (newChannel_skeleton hd _ _ _) ?_ ?_
  · intro token
    simp only [newChannel]
    split <;> split <;> rfl
  · simp only [newChannel]
    split <;> split <;> rfl

/-- A channel that is created next to the others. -/
theorem Built.addChannel (h : Built opt hash core₀ rules core) (clock : Clock)
    (ht : r.ruleType = .createChannel)
    (hid : r.channelId ∉ AssocList.keys core.channelIdToTokenLinkers)
    (htoken : core₀.channelToken hash r.channelTuple ∉ core.channels) :
    Built opt hash core₀ (fun r' => rules r' ∨ r' = r)
      ((core.setChannel (core₀.channelToken hash r.channelTuple)
        (core.newChannel opt clock r.channelId)).createNewChannelLinker r.channelId
          (core₀.channelToken hash r.channelTuple)) where
  wellLinked := h.wellLinked.step
    (.create htoken hid (createdFor_newChannel core clock r.channelId) rfl rfl)
  builder := h.builder
  defineDefault := h.defineDefault
  linkers := by
    intro channelId token
    simp only [createNewChannelLinker, Core.setChannel, List.mem_append, List.mem_singleton,
      Prod.mk.injEq, h.linkers]
    constructor
    · rintro ((hold | ⟨c, hc, hct, hcid, hctok⟩) | ⟨rfl, rfl⟩)
      · exact .inl hold
      · exact .inr ⟨c, .inl hc, hct, hcid, hctok⟩
      · exact .inr ⟨r, .inr rfl, ht, rfl, rfl⟩
    · rintro (hold | ⟨c, hc | rfl, hct, hcid, hctok⟩)
      · exact .inl (.inl hold)
      · exact .inl (.inr ⟨c, hc, hct, hcid, hctok⟩)
      · exact .inr ⟨hcid.symm, hctok.symm⟩
  channels := by
    intro channelId token ch hl hsel
    rcases List.mem_append.mp hl with hold | hnew
    · obtain ⟨ch₀, hsel₀, _⟩ := h.wellLinked.entry channelId token hold
      have hne : token ≠ core₀.channelToken hash r.channelTuple := by
        rintro rfl
        exact htoken (Finmap.mem_of_lookup_eq_some hsel₀)
      refine (h.channels channelId token ch hold
        ((Finmap.lookup_insert_of_ne _ hne).symm.trans hsel)).congr fun r' => ?_
      constructor
      · rintro ⟨hr', hobj, hid'⟩
        exact ⟨.inl hr', hobj, hid'⟩
      · rintro ⟨hr' | rfl, hobj, hid'⟩
        · exact ⟨hr', hobj, hid'⟩
        · rw [ht] at hobj
          cases hobj
    · obtain ⟨rfl, rfl⟩ : channelId = r.channelId ∧
          token = core₀.channelToken hash r.channelTuple := by simpa using hnew
      obtain rfl : core.newChannel opt clock r.channelId = ch := by
        simpa [selectChannel, createNewChannelLinker, Core.setChannel] using hsel
      have hid₀ : r.channelId ∉ AssocList.keys core₀.channelIdToTokenLinkers :=
        fun hmem => hid (h.mem_keys.mpr (.inl hmem))
      refine (newChannel_built hid₀ h.defineDefault).congr fun r' => ?_
      constructor
      · exact False.elim
      · rintro ⟨hr' | rfl, hobj, hid'⟩
        · exact hid (hid' ▸ h.owned r' hr' hobj)
        · rw [ht] at hobj
          cases hobj
  owned := by
    rintro r' (hr' | rfl) hobj
    · simp only [createNewChannelLinker, Core.setChannel, AssocList.keys_append, List.mem_append]
      exact .inl (h.owned r' hr' hobj)
    · rw [ht] at hobj
      cases hobj

/-- An object that is created in a channel next to the others. -/
theorem Built.addObject (h : Built opt hash core₀ rules core) {token : UInt32}
    {channel channel' : ChannelDefault} (ht : r.ruleType = .createObject)
    (hlink : (r.channelId, token) ∈ core.channelIdToTokenLinkers)
    (hsel : core.selectChannel token = some channel)
    (hstep : ChannelDefault.Step opt hash channel channel')
    (hbuilt : ChannelDefault.Built hash (core₀.baseChannel opt r.channelId)
      (fun r' => (rules r' ∧ r'.ruleType = .createObject ∧ r'.channelId = r.channelId) ∨ r' = r)
      channel') :
    Built opt hash core₀ (fun r' => rules r' ∨ r' = r) (core.setChannel token channel') where
  wellLinked := h.wellLinked.step (.work hsel hstep rfl rfl)
  builder := h.builder
  defineDefault := h.defineDefault
  linkers := by
    intro channelId token'
    refine (h.linkers channelId token').trans ?_
    constructor
    · rintro (hold | ⟨c, hc, hct, hcid, hctok⟩)
      · exact .inl hold
      · exact .inr ⟨c, .inl hc, hct, hcid, hctok⟩
    · rintro (hold | ⟨c, hc | rfl, hct, hcid, hctok⟩)
      · exact .inl hold
      · exact .inr ⟨c, hc, hct, hcid, hctok⟩
      · rw [ht] at hct
        cases hct
  channels := by
    intro channelId token' ch hl hsel'
    by_cases hid : channelId = r.channelId
    · subst hid
      obtain rfl := h.wellLinked.token_unique hl hlink
      obtain rfl : channel' = ch := by simpa [selectChannel, Core.setChannel] using hsel'
      refine hbuilt.congr fun r' => ?_
      constructor
      · rintro (⟨hr', hobj, hid'⟩ | rfl)
        · exact ⟨.inl hr', hobj, hid'⟩
        · exact ⟨.inr rfl, ht, rfl⟩
      · rintro ⟨hr' | rfl, hobj, hid'⟩
        · exact .inl ⟨hr', hobj, hid'⟩
        · exact .inr rfl
    · have hne : token' ≠ token := by
        rintro rfl
        exact hid (h.wellLinked.id_unique hl hlink)
      refine (h.channels channelId token' ch hl
        ((Finmap.lookup_insert_of_ne _ hne).symm.trans hsel')).congr fun r' => ?_
      constructor
      · rintro ⟨hr', hobj, hid'⟩
        exact ⟨.inl hr', hobj, hid'⟩
      · rintro ⟨hr' | rfl, hobj, hid'⟩
        · exact ⟨hr', hobj, hid'⟩
        · exact absurd hid'.symm hid
  owned := by
    rintro r' (hr' | rfl) hobj
    · exact h.owned r' hr' hobj
    · exact AssocList.mem_keys_of_mem hlink

/-! ### When a rule succeeds -/

theorem Built.channelToken_eq (h : Built opt hash core₀ rules core)
    (tuple : ChannelDifferentiationTuple) :
    core.channelToken hash tuple = core₀.channelToken hash tuple := by
  simp only [channelToken, h.builder]

/-- A rule that fits to the registry, to every other rule and whose channel is there succeeds. -/
theorem Built.employRule_of_fits (hw₀ : core₀.WellLinked opt hash)
    (h : Built opt hash core₀ rules core)
    (htype : r.ruleType = .createChannel ∨ r.ruleType = .createObject)
    (hown : Own opt hash core₀ r) (havail : core₀.Available rules r)
    (hsep : ∀ r', rules r' → Separate opt hash core₀ r' r) (clock : Clock) :
    ∃ core', core.employRule opt hash clock r = .ok (core', .returned .ok) := by
  rcases htype with ht | ht
  · have hid : r.channelId ∉ AssocList.keys core.channelIdToTokenLinkers := by
      rw [h.mem_keys]
      rintro (hmem | ⟨c, hc, hct, hcid⟩)
      · exact (hown.channel ht).1 hmem
      · exact ((hsep c hc).channels hct ht).1 hcid
    have htoken : core.channelToken hash r.channelTuple ∉ core.channels := by
      rw [h.channelToken_eq, h.mem_channels hw₀]
      rintro (hmem | ⟨c, hc, hct, hctok⟩)
      · exact (hown.channel ht).2 hmem
      · exact ((hsep c hc).channels hct ht).2 hctok
    obtain ⟨_, _, heq⟩ | ⟨hmem | hmem, _⟩ :=
      createChannel_cases opt hash clock core r.channelId r.channelTuple
    · rw [employRule_createChannel opt hash clock core ht, heq]
      exact ⟨_, rfl⟩
    · exact absurd hmem htoken
    · exact absurd hmem hid
  · obtain ⟨hpossible, hfree, htoken₀⟩ := hown.object ht
    obtain ⟨token, hl⟩ := AssocList.exists_lookup_iff_mem.mpr (h.mem_keys.mpr (havail ht))
    have hlink := AssocList.mem_of_lookup hl
    have htoken : token ≠ noToken := by
      rcases (h.linkers r.channelId token).mp hlink with hold | ⟨c, hc, hct, hcid, rfl⟩
      · exact htoken₀ token hold
      · exact (hsep c hc).channelObject hct ht hcid
    obtain ⟨channel, hsel, _⟩ := h.wellLinked.entry r.channelId token hlink
    have hfits : ChannelDefault.ObjectFits hash (core₀.baseChannel opt r.channelId)
        (fun r' => rules r' ∧ r'.ruleType = .createObject ∧ r'.channelId = r.channelId) r :=
      ⟨hpossible, hfree, fun r' hr' => (hsep r' hr'.1).objects hr'.2.1 ht hr'.2.2⟩
    obtain ⟨channel', hc⟩ :=
      (h.channels r.channelId token channel hlink hsel).create_of_fits hfits clock
    rw [employRule_createObject opt hash clock core ht,
      createEnforcementObject_of_lookup hash hl htoken hsel hc]
    exact ⟨_, rfl⟩

/-- A rule that succeeds fits, and adds itself to what is built. -/
theorem Built.fits_of_employRule (hw₀ : core₀.WellLinked opt hash)
    (h : Built opt hash core₀ rules core)
    (htype : r.ruleType = .createChannel ∨ r.ruleType = .createObject)
    (he : core.employRule opt hash clock r = .ok (core', .returned .ok)) :
    Own opt hash core₀ r ∧ core₀.Available rules r ∧
      (∀ r', rules r' → Separate opt hash core₀ r' r) ∧
      Built opt hash core₀ (fun r' => rules r' ∨ r' = r) core' := by
  rcases htype with ht | ht
  · have hnot : r.ruleType ≠ .createObject := by simp [ht]
    obtain ⟨htoken, hid, heq⟩ | ⟨_, heq⟩ :=
      createChannel_cases opt hash clock core r.channelId r.channelTuple
    · rw [employRule_createChannel opt hash clock core ht, heq] at he
      cases he
      have hid' := mt h.mem_keys.mpr hid
      have htoken' : core₀.channelToken hash r.channelTuple ∉ core.channels := by
        rw [← h.channelToken_eq]
        exact htoken
      have hfree := mt (h.mem_channels hw₀).mpr htoken'
      refine ⟨⟨fun _ => ?_, fun ho => absurd ho hnot⟩, fun ho => absurd ho hnot, ?_, ?_⟩
      · exact ⟨fun hm => hid' (.inl hm), fun hm => hfree (.inl hm)⟩
      · intro r' hr'
        refine ⟨fun ht' _ => ⟨?_, ?_⟩, fun _ ho => absurd ho hnot, fun _ ho => absurd ho hnot, ?_⟩
        · exact fun he' => hid' (.inr ⟨r', hr', ht', he'⟩)
        · exact fun he' => hfree (.inr ⟨r', hr', ht', he'⟩)
        · -- an object of this channel would need the channel to be there already
          intro ho _ he'
          exact absurd (he' ▸ h.owned r' hr' ho) hid
      · have hadd := h.addChannel clock ht hid htoken'
        rw [← h.channelToken_eq] at hadd
        exact hadd
    · rw [employRule_createChannel opt hash clock core ht, heq] at he
      cases he
  · have hnot : r.ruleType ≠ .createChannel := by simp [ht]
    rw [employRule_createObject opt hash clock core ht] at he
    split at he
    · rename_i core₁ status hc
      cases he
      obtain ⟨_, hst⟩ | ⟨token, channel, channel', hl, htoken, hsel, hw, rfl⟩ :=
        onChannel_cases hc
      · cases hst
      · have hlink := AssocList.mem_of_lookup hl
        obtain ⟨hfits, hbuilt⟩ :=
          (h.channels r.channelId token channel hlink hsel).fits_of_create hw
        have hstep : ChannelDefault.Step opt hash channel channel' := .createObject hw
        refine ⟨⟨fun hch => absurd hch hnot, fun _ => ?_⟩, fun _ => ?_, ?_, ?_⟩
        · refine ⟨hfits.possible, hfits.free, fun token' hold => ?_⟩
          rw [h.wellLinked.token_unique ((h.linkers _ _).mpr (.inl hold)) hlink]
          exact htoken
        · exact h.mem_keys.mp (AssocList.mem_keys_of_mem hlink)
        · intro r' hr'
          refine ⟨fun _ hch => absurd hch hnot, fun ho _ hid => hfits.apart r' ⟨hr', ho, hid⟩, ?_,
            fun _ hch => absurd hch hnot⟩
          intro hch _ hid
          have hlink' := (h.linkers r.channelId _).mpr (.inr ⟨r', hr', hch, hid, rfl⟩)
          rw [h.wellLinked.token_unique hlink' hlink]
          exact htoken
        · exact h.addObject ht hlink hsel hstep hbuilt
    · cases he

/-- An object whose channel is not there fails. -/
theorem Built.employRule_of_unavailable (h : Built opt hash core₀ rules core)
    (ht : r.ruleType = .createObject) (havail : ¬ core₀.Available rules r) (clock : Clock) :
    core.employRule opt hash clock r = .ok (core, .returned .error) := by
  have hid : r.channelId ∉ AssocList.keys core.channelIdToTokenLinkers :=
    fun hmem => havail fun _ => h.mem_keys.mp hmem
  rw [employRule_createObject opt hash clock core ht, Core.createEnforcementObject,
    onChannel_of_notMem hid]

/-! ### The same rules build the same registry -/

theorem Built.same_channel {core₂ : Core} (h : Built opt hash core₀ rules core)
    (h₂ : Built opt hash core₀ rules core₂) {token : UInt32} {channel : ChannelDefault}
    (hsel : core.selectChannel token = some channel) :
    ∃ channelId channel₂, core₂.selectChannel token = some channel₂ ∧
      ChannelDefault.Built hash (core₀.baseChannel opt channelId)
        (fun r => rules r ∧ r.ruleType = .createObject ∧ r.channelId = channelId) channel ∧
      ChannelDefault.Built hash (core₀.baseChannel opt channelId)
        (fun r => rules r ∧ r.ruleType = .createObject ∧ r.channelId = channelId) channel₂ := by
  obtain ⟨channelId, hl⟩ := h.wellLinked.exists_link hsel
  have hl₂ := (h₂.linkers channelId token).mpr ((h.linkers channelId token).mp hl)
  obtain ⟨channel₂, hsel₂, _⟩ := h₂.wellLinked.entry channelId token hl₂
  exact ⟨channelId, channel₂, hsel₂, h.channels channelId token channel hl hsel,
    h₂.channels channelId token channel₂ hl₂ hsel₂⟩

theorem Built.sameRegistry {core₂ : Core} (h : Built opt hash core₀ rules core)
    (h₂ : Built opt hash core₀ rules core₂) : SameRegistry core core₂ where
  linkers := fun link => (h.linkers link.1 link.2).trans (h₂.linkers link.1 link.2).symm
  channels := by
    intro token
    cases hsel : core.selectChannel token with
    | some channel =>
      obtain ⟨channelId, channel₂, hsel₂, hb, hb₂⟩ := h.same_channel h₂ hsel
      rw [hsel₂, Option.map_some, Option.map_some, hb.skeleton, hb₂.skeleton]
    | none =>
      cases hsel₂ : core₂.selectChannel token with
      | none => rfl
      | some channel₂ =>
        obtain ⟨_, channel, hsel', _⟩ := h₂.same_channel h hsel₂
        rw [hsel] at hsel'
        cases hsel'
  objects := by
    intro token channel channel₂ hsel hsel₂
    obtain ⟨channelId, channel', hsel', hb, hb'⟩ := h.same_channel h₂ hsel
    obtain rfl : channel' = channel₂ := Option.some.inj (hsel'.symm.trans hsel₂)
    exact hb.objectAt_eq hb'
  objectLinkers := by
    intro token channel channel₂ hsel hsel₂ link
    obtain ⟨channelId, channel', hsel', hb, hb'⟩ := h.same_channel h₂ hsel
    obtain rfl : channel' = channel₂ := Option.some.inj (hsel'.symm.trans hsel₂)
    exact (hb.linkers link).trans (hb'.linkers link).symm

end Core

end Paio
