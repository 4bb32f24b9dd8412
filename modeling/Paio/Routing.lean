import Mathlib.Data.Set.Function
import Paio.Registry

/-!
# Paio.Routing

Where requests end up. A ledger records every channel and every object that a run has created,
with the classifiers it was created for. As long as the classifiers that are selected do not change
under a channel or an object that exists, the ledger describes the registry exactly: the channels
are the ones in the ledger, under the tokens of their classifiers, and so are the objects of each
channel.

A request therefore reaches the channel and the object that were created for its classifiers,
whatever the hash does. That a request without a channel or without an object goes nowhere else
needs a hash that does not confuse it with the classifiers in the ledger.
-/

namespace Paio

variable (opt : Options) (hash : String → UInt32)

/-- The classifiers that `build_object_token` reads of a request, in its ticket. -/
def Context.objectPair (c : Context) : ObjectDifferentiationPair where
  operationType := toUInt32 c.operationType
  operationContext := toUInt32 c.operationContext

theorem ChannelDefault.buildTicket_objectPair (ch : ChannelDefault) (context : Context)
    (buffer : Buffer) (size : Nat) :
    (ch.buildTicket context buffer size).1.objectPair = context.objectPair := by
  simp only [buildTicket, genTicketId]
  split
  · split <;> rfl
  · rfl

/-- A channel or an object that was created, with its classifiers. -/
inductive Creation where
  | channel (channelId : Int) (tuple : ChannelDifferentiationTuple)
  | object (channelId objectId : Int) (pair : ObjectDifferentiationPair)
  deriving DecidableEq, Repr

/-- What a rule creates when its execution succeeds. -/
def HousekeepingRule.creations (r : HousekeepingRule) : List Creation :=
  match r.ruleType with
  | .createChannel => [.channel r.channelId r.channelTuple]
  | .createObject => [.object r.channelId r.enforcementObjectId r.objectPair]
  | .configure | .remove | .noOp => []

/-! ## The objects of a channel -/

namespace ChannelDefault

/-- The objects of the channel are exactly those that were created, each under the token of its
classifiers. -/
structure Holds (created : Int → ObjectDifferentiationPair → Prop) (ch : ChannelDefault) :
    Prop where
  bound : ch.submissionQueue.diffBuilder.Bound
  registered : ∀ objectId pair, created objectId pair → ∃ object,
    ch.submissionQueue.selectEnforcementObject (ch.submissionQueue.buildObjectToken hash pair) =
      some object ∧
    object.getEnforcementObjectId = objectId ∧
    (objectId, ch.submissionQueue.buildObjectToken hash pair) ∈ ch.objectIdToTokenLinkers
  created_of_mem : ∀ token ∈ AssocList.keys ch.submissionQueue.enfObjects,
    ∃ objectId pair, created objectId pair ∧
      token = ch.submissionQueue.buildObjectToken hash pair

/-- The second state has the objects of the first: work has been done on them, and nothing else. -/
structure SameObjects (ch ch' : ChannelDefault) : Prop where
  builder : ch'.submissionQueue.diffBuilder = ch.submissionQueue.diffBuilder
  linkers : ch'.objectIdToTokenLinkers = ch.objectIdToTokenLinkers
  keys : AssocList.keys ch'.submissionQueue.enfObjects =
    AssocList.keys ch.submissionQueue.enfObjects
  object : ∀ token object, ch.submissionQueue.selectEnforcementObject token = some object →
    ∃ object', ch'.submissionQueue.selectEnforcementObject token = some object' ∧
      object'.getEnforcementObjectId = object.getEnforcementObjectId

variable {opt hash} {created : Int → ObjectDifferentiationPair → Prop} {ch ch' : ChannelDefault}

theorem SameObjects.rfl : SameObjects ch ch :=
  ⟨Eq.refl _, Eq.refl _, Eq.refl _, fun _ object h => ⟨object, h, Eq.refl _⟩⟩

theorem Holds.of_same (h : Holds hash created ch) (hs : SameObjects ch ch') :
    Holds hash created ch' := by
  have htoken : ∀ pair, ch'.submissionQueue.buildObjectToken hash pair =
      ch.submissionQueue.buildObjectToken hash pair := by
    intro pair
    simp only [SubmissionQueue.buildObjectToken, hs.builder]
  refine ⟨hs.builder ▸ h.bound, ?_, ?_⟩
  · intro objectId pair hc
    obtain ⟨object, hsel, hid, hl⟩ := h.registered objectId pair hc
    obtain ⟨object', hsel', hid'⟩ := hs.object _ object hsel
    rw [htoken, hs.linkers]
    exact ⟨object', hsel', hid'.trans hid, hl⟩
  · intro token hmem
    rw [hs.keys] at hmem
    obtain ⟨objectId, pair, hc, ht⟩ := h.created_of_mem token hmem
    exact ⟨objectId, pair, hc, ht.trans (htoken pair).symm⟩

/-- Overwriting an object with a later state of the same object. -/
theorem sameObjects_replace {token : UInt32} {object object' : EnforcementObject}
    (hsel : ch.submissionQueue.enfObjects.lookup token = some object)
    (hid : object'.getEnforcementObjectId = object.getEnforcementObjectId)
    (hq : ch'.submissionQueue.enfObjects =
      AssocList.replaceFirst token object' ch.submissionQueue.enfObjects)
    (hb : ch'.submissionQueue.diffBuilder = ch.submissionQueue.diffBuilder)
    (hl : ch'.objectIdToTokenLinkers = ch.objectIdToTokenLinkers) : SameObjects ch ch' := by
  refine ⟨hb, hl, by rw [hq, AssocList.keys_replaceFirst], ?_⟩
  intro token' o ho
  simp only [SubmissionQueue.selectEnforcementObject] at ho ⊢
  rw [hq]
  by_cases ht : token' = token
  · subst ht
    obtain rfl : object = o := Option.some.inj (hsel.symm.trans ho)
    exact ⟨object', AssocList.lookup_replaceFirst_self _
      (AssocList.exists_lookup_iff_mem.mp ⟨_, hsel⟩), hid⟩
  · exact ⟨o, by rw [AssocList.lookup_replaceFirst_ne ht]; exact ho, Eq.refl _⟩

theorem channelEnforce_sameObjects {clock : Clock} {fuel : Nat} {context : Context}
    {buffer : Buffer} {size : Nat} {result result' : Result}
    (h : ch.channelEnforce opt hash clock fuel context buffer size result = .ok (ch', result')) :
    SameObjects ch ch' := by
  obtain ⟨q, result'', stats, hq, rfl⟩ := channelEnforce_cases opt hash h
  simp only [SubmissionQueue.enforceMechanism] at hq
  split at hq
  · rename_i object hsel
    split at hq
    · rename_i object' r' ho
      cases hq
      exact sameObjects_replace hsel (EnforcementObject.objEnforce_id ho) rfl rfl rfl
    · cases hq
  · cases hq
    exact ⟨rfl, rfl, rfl, fun _ object ho => ⟨object, ho, Eq.refl _⟩⟩

theorem configureEnforcementObject_sameObjects {objectId config : Int} {configurations : List Int}
    {status : PStatus}
    (h : ch.configureEnforcementObject objectId config configurations = .ok (ch', status)) :
    SameObjects ch ch' := by
  obtain ⟨rfl, _⟩ | ⟨token, object, object', _, hsel, hc, rfl⟩ :=
    configureEnforcementObject_cases h
  · exact .rfl
  · exact sameObjects_replace hsel (EnforcementObject.objConfigure_id hc) rfl rfl rfl

theorem Holds.addObject (h : Holds hash created ch) {objectId : Int}
    {pair : ObjectDifferentiationPair} {object : EnforcementObject}
    (hid : object.getEnforcementObjectId = objectId)
    (hfree : ch.submissionQueue.buildObjectToken hash pair ∉
      AssocList.keys ch.submissionQueue.enfObjects) :
    Holds hash (fun objectId' pair' => created objectId' pair' ∨ (objectId' = objectId ∧ pair' = pair))
      (ch.addObject objectId (ch.submissionQueue.buildObjectToken hash pair) object) := by
  refine ⟨h.bound, ?_, ?_⟩
  · rintro objectId' pair' (hc | ⟨rfl, rfl⟩)
    · obtain ⟨o, hsel, ho, hl⟩ := h.registered objectId' pair' hc
      have hne : ch.submissionQueue.buildObjectToken hash pair' ≠
          ch.submissionQueue.buildObjectToken hash pair := by
        intro he
        exact hfree (he ▸ AssocList.exists_lookup_iff_mem.mp ⟨o, hsel⟩)
      refine ⟨o, ?_, ho, List.mem_append_left _ hl⟩
      exact (AssocList.lookup_append_singleton_ne hne object _).trans hsel
    · exact ⟨object, AssocList.lookup_append_singleton_self object hfree, hid,
        List.mem_append_right _ List.mem_cons_self⟩
  · intro token hmem
    simp only [ChannelDefault.addObject, AssocList.keys_append, AssocList.keys_cons,
      AssocList.keys_nil, List.mem_append, List.mem_singleton] at hmem
    rcases hmem with hold | rfl
    · obtain ⟨objectId', pair', hc, ht⟩ := h.created_of_mem token hold
      exact ⟨objectId', pair', .inl hc, ht⟩
    · exact ⟨objectId, pair, .inr ⟨Eq.refl _, Eq.refl _⟩, Eq.refl _⟩

/-- A channel without objects holds exactly what was never created. -/
theorem holds_of_empty (hb : ch.submissionQueue.diffBuilder.Bound)
    (hempty : ch.submissionQueue.enfObjects = []) (hnone : ∀ objectId pair, ¬ created objectId pair) :
    Holds hash created ch :=
  ⟨hb, fun objectId pair hc => absurd hc (hnone objectId pair), by simp [hempty]⟩

end ChannelDefault

namespace Core

/-- What the execution of a rule has created. -/
def creationsOf (core : Core) (ruleId : UInt64) : Completion → List Creation
  | .returned .ok =>
    match core.housekeepingTable.selectHousekeepingRule ruleId with
    | some rule => rule.creations
    | none => []
  | _ => []

/-- What one pass through the loop of the parameterized constructor has created. -/
def defaultCreations (clock : Clock) (createDefaultObjects : Bool) (core : Core) (i : Int) :
    List Creation :=
  let (core', status) := core.createChannel opt hash clock i (defaultTuple i)
  if status.isOk then
    .channel i (defaultTuple i) ::
      if createDefaultObjects then
        match core'.createEnforcementObject hash clock i 0 defaultPair (some .noop) [] with
        | .ok (_, .ok) => [.object i 0 defaultPair]
        | _ => []
      else []
  else []

/-- The cores that calls reach, with the ledger of what they have created. The classifiers of the
channels are only chosen while there is no channel, and those of the objects of a channel while
it has no object. -/
inductive Run : Core → List Creation → Prop
  | new : Run (Core.new opt) []
  | createDefaultChannel {core : Core} {ledger : List Creation} (h : Run core ledger)
      (clock : Clock) (createDefaultObjects : Bool) (i : Int) :
      Run (core.createDefaultChannel opt hash clock createDefaultObjects i)
        (ledger ++ core.defaultCreations opt hash clock createDefaultObjects i)
  | defineChannelDifferentiation {core : Core} {ledger : List Creation} (h : Run core ledger)
      (hnone : core.channelIdToTokenLinkers = [])
      (workflow operationType operationContext : Bool) :
      Run (core.defineChannelDifferentiation workflow operationType operationContext) ledger
  | defineEnforcementObjectDifferentiation {core core' : Core} {ledger : List Creation}
      (h : Run core ledger) {channelId : Int} {operationType operationContext : Bool}
      {status : PStatus}
      (hnone : ∀ token channel, core.channelIdToTokenLinkers.lookup channelId = some token →
        core.selectChannel token = some channel → channel.submissionQueue.enfObjects = [])
      (hc : core.defineEnforcementObjectDifferentiation channelId operationType operationContext =
        .ok (core', status)) : Run core' ledger
  | insertHousekeepingRule {core : Core} {ledger : List Creation} (h : Run core ledger)
      (rule : HousekeepingRule) : Run (core.insertHousekeepingRule rule).1 ledger
  | executeHousekeepingRule {core core' : Core} {ledger : List Creation} (h : Run core ledger)
      {clock : Clock} {ruleId : UInt64} {completion : Completion}
      (hc : core.executeHousekeepingRule opt hash clock ruleId = .ok (core', completion)) :
      Run core' (ledger ++ core.creationsOf ruleId completion)
  | employEnforcementRule {core core' : Core} {ledger : List Creation} (h : Run core ledger)
      {channelId objectId ruleType : Int} {configurations : List Int} {status : PStatus}
      (hc : core.employEnforcementRule channelId objectId ruleType configurations =
        .ok (core', status)) : Run core' ledger
  | enforceRequest {core core' : Core} {ledger : List Creation} (h : Run core ledger)
      {clock : Clock} {fuel : Nat} {context : Context} {buffer : Buffer} {size : Nat}
      {result result' : Result}
      (hc : core.enforceRequest opt hash clock fuel context buffer size result =
        .ok (core', result')) : Run core' ledger

/-! ## The ledger describes the registry -/

structure Records (core : Core) (ledger : List Creation) : Prop where
  wellLinked : core.WellLinked opt hash
  bound : core.channelDiffBuilder.Bound
  linked : ∀ channelId tuple, .channel channelId tuple ∈ ledger →
    (channelId, core.channelToken hash tuple) ∈ core.channelIdToTokenLinkers
  recorded : ∀ channelId token, (channelId, token) ∈ core.channelIdToTokenLinkers →
    ∃ tuple, .channel channelId tuple ∈ ledger ∧ token = core.channelToken hash tuple
  owner : ∀ channelId objectId pair, .object channelId objectId pair ∈ ledger →
    channelId ∈ AssocList.keys core.channelIdToTokenLinkers
  holds : ∀ channelId token channel, (channelId, token) ∈ core.channelIdToTokenLinkers →
    core.selectChannel token = some channel →
    channel.Holds hash fun objectId pair => .object channelId objectId pair ∈ ledger

variable {opt hash} {core core' : Core} {ledger ledger' : List Creation}

theorem records_new : Records opt hash (Core.new opt) [] where
  wellLinked := wellLinked_new
  bound := rfl
  linked := by simp
  recorded := by simp [Core.new]
  owner := by simp
  holds := by simp [Core.new]

/-- A call that keeps the channels, their linkers and their classifiers keeps the record. -/
theorem Records.keep (h : Records opt hash core ledger) (hch : core'.channels = core.channels)
    (hl : core'.channelIdToTokenLinkers = core.channelIdToTokenLinkers)
    (hb : core'.channelDiffBuilder = core.channelDiffBuilder) : Records opt hash core' ledger where
  wellLinked := h.wellLinked.step (.keep hch hl)
  bound := hb ▸ h.bound
  linked := by simpa only [channelToken, hb, hl] using h.linked
  recorded := by simpa only [channelToken, hb, hl] using h.recorded
  owner := by simpa only [hl] using h.owner
  holds := by simpa only [selectChannel, hch, hl] using h.holds

/-- Work on the channel of `channelId`, which may have created objects in it. -/
theorem Records.setChannel (h : Records opt hash core ledger) {channelId : Int} {token : UInt32}
    {channel channel' : ChannelDefault}
    (hlink : (channelId, token) ∈ core.channelIdToTokenLinkers)
    (hsel : core.selectChannel token = some channel)
    (hstep : ChannelDefault.Step opt hash channel channel')
    (hchannels : ∀ id tuple, .channel id tuple ∈ ledger' ↔ .channel id tuple ∈ ledger)
    (hobjects : ∀ id objectId pair, id ≠ channelId →
      (.object id objectId pair ∈ ledger' ↔ .object id objectId pair ∈ ledger))
    (hholds : channel'.Holds hash fun objectId pair => .object channelId objectId pair ∈ ledger') :
    Records opt hash (core.setChannel token channel') ledger' where
  wellLinked := h.wellLinked.step (.work hsel hstep rfl rfl)
  bound := h.bound
  linked := fun id tuple hc => h.linked id tuple ((hchannels id tuple).mp hc)
  recorded := by
    intro id token' hl
    obtain ⟨tuple, hc, ht⟩ := h.recorded id token' hl
    exact ⟨tuple, (hchannels id tuple).mpr hc, ht⟩
  owner := by
    intro id objectId pair hc
    by_cases hid : id = channelId
    · subst hid
      exact AssocList.mem_keys_of_mem hlink
    · exact h.owner id objectId pair ((hobjects id objectId pair hid).mp hc)
  holds := by
    intro id token' ch hl hsel'
    by_cases hid : id = channelId
    · subst hid
      obtain rfl := h.wellLinked.token_unique hl hlink
      obtain rfl : channel' = ch := by
        simpa [selectChannel, Core.setChannel] using hsel'
      exact hholds
    · have htoken : token' ≠ token := by
        rintro rfl
        exact hid (h.wellLinked.id_unique hl hlink)
      have hsel₀ : core.selectChannel token' = some ch :=
        (Finmap.lookup_insert_of_ne _ htoken).symm.trans hsel'
      simpa only [hobjects id _ _ hid] using h.holds id token' ch hl hsel₀

/-- Work on a channel that creates nothing. -/
theorem Records.work (h : Records opt hash core ledger) {token : UInt32}
    {channel channel' : ChannelDefault} (hsel : core.selectChannel token = some channel)
    (hstep : ChannelDefault.Step opt hash channel channel')
    (hholds : ∀ created, channel.Holds hash created → channel'.Holds hash created) :
    Records opt hash (core.setChannel token channel') ledger := by
  obtain ⟨channelId, hlink⟩ := h.wellLinked.exists_link hsel
  exact h.setChannel hlink hsel hstep (fun _ _ => Iff.rfl) (fun _ _ _ _ => Iff.rfl)
    (hholds _ (h.holds channelId token channel hlink hsel))

/-! ### Creations -/

theorem newChannel_diffBuilder (core : Core) (clock : Clock) (channelId : Int) :
    (core.newChannel opt clock channelId).submissionQueue.diffBuilder.Bound := by
  simp only [newChannel]
  split <;> rfl

theorem newChannel_enfObjects (core : Core) (clock : Clock) (channelId : Int) :
    (core.newChannel opt clock channelId).submissionQueue.enfObjects = [] := by
  simp only [newChannel]
  split <;> rfl

theorem Records.createChannel (h : Records opt hash core ledger) {clock : Clock} {channelId : Int}
    {tuple : ChannelDifferentiationTuple} {status : PStatus}
    (hc : core.createChannel opt hash clock channelId tuple = (core', status)) :
    Records opt hash core'
      (ledger ++ if status = .ok then [.channel channelId tuple] else []) := by
  have hstep : RegistryStep opt hash core _ := createChannel_step clock core channelId tuple
  have hw := h.wellLinked.step hstep
  obtain ⟨htoken, hid, heq⟩ | ⟨_, heq⟩ := createChannel_cases opt hash clock core channelId tuple
  · rw [heq] at hc hw
    cases hc
    rw [if_pos rfl]
    refine ⟨hw, h.bound, ?_, ?_, ?_, ?_⟩
    · intro id d hd
      rcases List.mem_append.mp hd with hold | hnew
      · exact List.mem_append_left _ (h.linked id d hold)
      · obtain ⟨rfl, rfl⟩ : id = channelId ∧ d = tuple := by simpa using hnew
        exact List.mem_append_right _ List.mem_cons_self
    · intro id token hl
      rcases List.mem_append.mp hl with hold | hnew
      · obtain ⟨d, hd, ht⟩ := h.recorded id token hold
        exact ⟨d, List.mem_append_left _ hd, ht⟩
      · obtain ⟨rfl, rfl⟩ : id = channelId ∧ token = core.channelToken hash tuple := by
          simpa using hnew
        exact ⟨tuple, List.mem_append_right _ List.mem_cons_self, rfl⟩
    · intro id objectId pair hd
      have hold : Creation.object id objectId pair ∈ ledger := by simpa using hd
      have hmem := h.owner id objectId pair hold
      simp only [createNewChannelLinker, Core.setChannel, AssocList.keys_append, List.mem_append]
      exact .inl hmem
    · intro id token ch hl hsel
      simp only [List.mem_append, List.mem_singleton, reduceCtorEq, or_false]
      rcases List.mem_append.mp hl with hold | hnew
      · -- a channel that was there before: its token is not the new one
        obtain ⟨ch₀, hsel₀, _⟩ := h.wellLinked.entry id token hold
        have hne : token ≠ core.channelToken hash tuple := by
          rintro rfl
          exact htoken (Finmap.mem_of_lookup_eq_some hsel₀)
        exact h.holds id token ch hold ((Finmap.lookup_insert_of_ne _ hne).symm.trans hsel)
      · obtain ⟨rfl, rfl⟩ : id = channelId ∧ token = core.channelToken hash tuple := by
          simpa using hnew
        obtain rfl : core.newChannel opt clock id = ch := by
          simpa [selectChannel, createNewChannelLinker, Core.setChannel] using hsel
        exact ChannelDefault.holds_of_empty (newChannel_diffBuilder core clock id)
          (newChannel_enfObjects core clock id)
          (fun objectId pair hd => hid (h.owner id objectId pair hd))
  · rw [heq] at hc
    cases hc
    simpa using h

theorem Records.createEnforcementObject (h : Records opt hash core ledger) {clock : Clock}
    {channelId objectId : Int} {pair : ObjectDifferentiationPair}
    {objectType : Option EnforcementObjectType} {configurations : List Int} {status : PStatus}
    (hc : core.createEnforcementObject hash clock channelId objectId pair objectType
      configurations = .ok (core', status)) :
    Records opt hash core'
      (ledger ++ if status = .ok then [.object channelId objectId pair] else []) := by
  obtain ⟨rfl, rfl⟩ | ⟨token, channel, channel', hl, _, hsel, hw, rfl⟩ := onChannel_cases hc
  · simpa using h
  · have hlink := AssocList.mem_of_lookup hl
    have hold := h.holds channelId token channel hlink hsel
    have hstep : ChannelDefault.Step opt hash channel channel' := .createObject hw
    refine h.setChannel hlink hsel hstep ?_ ?_ ?_
    · intro id tuple
      split <;> simp
    · intro id oid pair' hne
      split <;> simp [hne]
    · obtain ⟨rfl, hne, _⟩ | ⟨type, object, _, rfl, hfree, ho, rfl⟩ :=
        ChannelDefault.createEnforcementObject_cases hash hw
      · simpa [hne] using hold
      · have hadd := hold.addObject (ChannelDefault.initialObject_id ho) hfree
        simpa using hadd

theorem Records.employRule (h : Records opt hash core ledger) {clock : Clock}
    {rule : HousekeepingRule} {completion : Completion}
    (hc : core.employRule opt hash clock rule = .ok (core', completion)) :
    Records opt hash core'
      (ledger ++ if completion = .returned .ok then rule.creations else []) := by
  obtain ⟨_, htype, hcr, rfl⟩ | ⟨_, htype, hcr, rfl⟩ | ⟨_, _, _, rfl, rfl⟩ :=
    employRule_cases opt hash hc
  · simpa [HousekeepingRule.creations, htype] using h.createChannel hcr
  · simpa [HousekeepingRule.creations, htype] using h.createEnforcementObject hcr
  · simpa using h

theorem creationsOf_of_ne {completion : Completion} (h : completion ≠ .returned .ok) (core : Core)
    (ruleId : UInt64) : core.creationsOf ruleId completion = [] := by
  simp only [creationsOf]

/-- Executing a rule adds what it creates to the record. -/
theorem Records.executeHousekeepingRule (h : Records opt hash core ledger) {clock : Clock}
    {ruleId : UInt64} {completion : Completion}
    (hc : core.executeHousekeepingRule opt hash clock ruleId = .ok (core', completion)) :
    Records opt hash core' (ledger ++ core.creationsOf ruleId completion) := by
  obtain ⟨rfl, hne⟩ | ⟨rule, core₁, hsel, _, he, rfl⟩ := executeHousekeepingRule_cases opt hash hc
  · simpa [creationsOf_of_ne hne] using h
  · have hr := h.employRule he
    by_cases hok : completion = .returned .ok
    · subst hok
      simp only [creationsOf, hsel, if_true] at hr ⊢
      exact hr.keep rfl rfl rfl
    · rw [if_neg hok] at hr
      rwa [if_neg hok, creationsOf_of_ne hok]

theorem Records.createDefaultChannel (h : Records opt hash core ledger) (clock : Clock)
    (createDefaultObjects : Bool) (i : Int) :
    Records opt hash (core.createDefaultChannel opt hash clock createDefaultObjects i)
      (ledger ++ core.defaultCreations opt hash clock createDefaultObjects i) := by
  simp only [Core.createDefaultChannel, defaultCreations]
  cases hcr : core.createChannel opt hash clock i (defaultTuple i) with
  | mk core₁ status =>
    have hr := h.createChannel hcr
    by_cases hok : status = .ok
    · subst hok
      cases createDefaultObjects with
      | false => simpa [PStatus.isOk] using hr
      | true =>
        cases hce : core₁.createEnforcementObject hash clock i 0 defaultPair (some .noop) [] with
        | error f => simpa [PStatus.isOk, hce] using hr
        | ok out =>
          obtain ⟨core₂, status₂⟩ := out
          have hr₂ := hr.createEnforcementObject hce
          by_cases hok₂ : status₂ = .ok
          · simpa [PStatus.isOk, hce, hok₂] using hr₂
          · simpa [PStatus.isOk, hce, hok₂] using hr₂
    · simpa [PStatus.isOk, hok] using hr

/-- The ledger of a run describes the registry that the run has built. -/
theorem Run.records (h : Run opt hash core ledger) : Records opt hash core ledger := by
  induction h with
  | new => exact records_new
  | createDefaultChannel _ clock createDefaultObjects i ih =>
    exact ih.createDefaultChannel clock createDefaultObjects i
  | @defineChannelDifferentiation core ledger _ hnone w t c ih =>
    have hw := ih.wellLinked
    refine ⟨hw, rfl, ?_, ?_, ih.owner, ih.holds⟩
    · intro id tuple hc
      have hl := ih.linked id tuple hc
      simp [hnone] at hl
    · intro id token hl
      simp [Core.defineChannelDifferentiation, hnone] at hl
  | defineEnforcementObjectDifferentiation _ hnone hc ih =>
    obtain ⟨rfl, _⟩ | ⟨token, channel, channel', hl, _, hsel, hw, rfl⟩ := onChannel_cases hc
    · exact ih
    · cases hw
      have hempty := hnone token channel hl hsel
      refine ih.work hsel (.define _ _ channel) fun created hh => ?_
      refine ChannelDefault.holds_of_empty rfl hempty fun objectId pair hcr => ?_
      obtain ⟨object, ho, _, _⟩ := hh.registered objectId pair hcr
      simp [SubmissionQueue.selectEnforcementObject, hempty] at ho
  | insertHousekeepingRule _ rule ih => exact ih.keep rfl rfl rfl
  | executeHousekeepingRule _ hc ih => exact ih.executeHousekeepingRule hc
  | employEnforcementRule _ hc ih =>
    obtain ⟨rfl, _⟩ | ⟨token, channel, channel', _, _, hsel, hw, rfl⟩ := onChannel_cases hc
    · exact ih
    · exact ih.work hsel (.configure hw) fun _ hh =>
        hh.of_same (ChannelDefault.configureEnforcementObject_sameObjects hw)
  | enforceRequest _ hc ih =>
    obtain ⟨_, rfl, _⟩ | ⟨channel, channel', hsel, hw, rfl⟩ := enforceRequest_cases opt hash hc
    · exact ih
    · exact ih.work hsel (.enforce hw) fun _ hh =>
        hh.of_same (ChannelDefault.channelEnforce_sameObjects hw)

/-! ### Runs of several rules -/

/-- The batch execution is a run of single executions. -/
theorem Run.executeHousekeepingRules {clock : UInt64 → Clock} {order : List UInt64}
    {completion : Completion} (hr : Run opt hash core ledger)
    (h : core.executeHousekeepingRules opt hash clock order = .ok (core', completion)) :
    ∃ created, Run opt hash core' (ledger ++ created) := by
  have hstart : ∃ created, Run opt hash core (ledger ++ created) :=
    ⟨[], by rwa [List.append_nil]⟩
  refine executeRulesLoop_preserves
    (P := fun core => ∃ created, Run opt hash core (ledger ++ created)) ?_ hstart h
  rintro core₁ core₂ clock ruleId completion ⟨created, hr₁⟩ he
  exact ⟨_, by rw [← List.append_assoc]; exact hr₁.executeHousekeepingRule he⟩

/-- The parameterized constructor is a run of its passes. -/
theorem exists_run_newWith (channels : Int) (createDefaultChannels createDefaultObjects : Bool)
    (clock : Nat → Clock) :
    ∃ ledger, Run opt hash
      (newWith opt hash channels createDefaultChannels createDefaultObjects clock) ledger := by
  refine newWith_preserves (P := fun core => ∃ ledger, Run opt hash core ledger) ⟨[], .new⟩ ?_
    channels createDefaultChannels clock
  rintro core clock i ⟨ledger, hr⟩
  exact ⟨_, hr.createDefaultChannel clock createDefaultObjects i⟩

end Core

/-! ## Where a request ends up -/

namespace ChannelDefault

variable (ch : ChannelDefault) (context : Context)

/-- The channel lets the object under the token work on the ticket of the request, and no other
object. -/
def RunsObject (token : UInt32) (object : EnforcementObject) : Prop :=
  ∀ clock fuel buffer size result,
    ch.channelEnforce opt hash clock fuel context buffer size result =
      ch.finishRequest opt context buffer size
        (match object.objEnforce clock fuel (ch.buildTicket context buffer size).1
            (result.setTicketId ch.ticketId) with
        | .ok (object', result') =>
          .ok ({ ch.submissionQueue with
            enfObjects := AssocList.replaceFirst token object' ch.submissionQueue.enfObjects },
            result')
        | .error f => .error f)

/-- The channel lets its no-match object work on the ticket of the request, and no other. -/
def RunsNoMatch : Prop :=
  ∀ clock fuel buffer size result,
    ch.channelEnforce opt hash clock fuel context buffer size result =
      ch.finishRequest opt context buffer size
        (.ok ({ ch.submissionQueue with
            noMatchObject := (ch.submissionQueue.noMatchObject.objEnforce
              (ch.buildTicket context buffer size).1 (result.setTicketId ch.ticketId)).1 },
          (ch.submissionQueue.noMatchObject.objEnforce
            (ch.buildTicket context buffer size).1 (result.setTicketId ch.ticketId)).2))

variable {opt hash ch context} {created : Int → ObjectDifferentiationPair → Prop}

theorem runsObject_of_select {token : UInt32} {object : EnforcementObject}
    (htoken : ch.submissionQueue.buildObjectToken hash context.objectPair = token)
    (h : ch.submissionQueue.selectEnforcementObject token = some object) :
    ch.RunsObject opt hash context token object := by
  intro clock fuel buffer size result
  have hrun := channelEnforce_eq opt hash clock fuel ch context buffer size result
  simp only [SubmissionQueue.enforceMechanism, buildTicket_objectPair, htoken, h] at hrun
  exact hrun

theorem runsNoMatch_of_select
    (h : ch.submissionQueue.selectEnforcementObject
      (ch.submissionQueue.buildObjectToken hash context.objectPair) = none) :
    ch.RunsNoMatch opt hash context := by
  intro clock fuel buffer size result
  simp only [channelEnforce_eq, SubmissionQueue.enforceMechanism, buildTicket_objectPair, h]

/-- A request with the classifiers of a created object runs that object. -/
theorem Holds.runsObject (h : Holds hash created ch) {objectId : Int}
    {pair : ObjectDifferentiationPair} (hc : created objectId pair)
    (hagree : ch.submissionQueue.diffBuilder.Agree pair context.objectPair) :
    ∃ token object, (objectId, token) ∈ ch.objectIdToTokenLinkers ∧
      ch.submissionQueue.selectEnforcementObject token = some object ∧
      object.getEnforcementObjectId = objectId ∧
      ch.RunsObject opt hash context token object := by
  obtain ⟨object, hsel, hid, hl⟩ := h.registered objectId pair hc
  have htoken : ch.submissionQueue.buildObjectToken hash pair =
      ch.submissionQueue.buildObjectToken hash context.objectPair :=
    ObjectHashingDifferentiation.buildDifferentiationToken_congr h.bound hagree
  exact ⟨_, object, hl, hsel, hid, runsObject_of_select htoken.symm hsel⟩

/-- Without a created object for the request, and without a collision, the no-match object runs. -/
theorem Holds.runsNoMatch (h : Holds hash created ch)
    (hnone : ∀ objectId pair, created objectId pair →
      ¬ ch.submissionQueue.diffBuilder.Agree pair context.objectPair)
    (hinj : Set.InjOn hash ({ch.submissionQueue.diffBuilder.message context.objectPair} ∪
      {m | ∃ objectId pair, created objectId pair ∧
        m = ch.submissionQueue.diffBuilder.message pair})) :
    ch.RunsNoMatch opt hash context := by
  apply runsNoMatch_of_select
  rw [SubmissionQueue.selectEnforcementObject, AssocList.lookup_eq_none_iff_notMem]
  intro hmem
  obtain ⟨objectId, pair, hc, htoken⟩ := h.created_of_mem _ hmem
  have hmsg := hinj (.inl rfl) (.inr ⟨objectId, pair, hc, rfl⟩) htoken
  exact hnone objectId pair hc
    ((ObjectHashingDifferentiation.message_eq_iff h.bound).mp hmsg.symm)

end ChannelDefault

namespace Core

/-- The request is handed to the channel under the token, and no other channel is touched. -/
def PassesTo (core : Core) (context : Context) (token : UInt32) (channel : ChannelDefault) : Prop :=
  ∀ clock fuel buffer size result,
    core.enforceRequest opt hash clock fuel context buffer size result =
      match channel.channelEnforce opt hash clock fuel context buffer size result with
      | .ok (channel', result') => .ok (core.setChannel token channel', result')
      | .error f => .error f

variable {opt hash} {core : Core} {ledger : List Creation} {context : Context}

/-- Every request goes where the run has created a channel and an object for its classifiers: to
that channel, to that object in it, and, when the hash keeps the messages involved apart, to the
no-match object of the channel or to no channel at all when there is none. -/
theorem run_routes (h : Run opt hash core ledger) (context : Context) :
    (∀ channelId tuple, .channel channelId tuple ∈ ledger →
      core.channelDiffBuilder.Agree tuple context.channelTuple →
      ∃ token channel, (channelId, token) ∈ core.channelIdToTokenLinkers ∧
        core.selectChannel token = some channel ∧
        channel.CreatedFor opt hash channelId ∧
        core.PassesTo opt hash context token channel ∧
        (∀ objectId pair, .object channelId objectId pair ∈ ledger →
          channel.submissionQueue.diffBuilder.Agree pair context.objectPair →
          ∃ objectToken object, (objectId, objectToken) ∈ channel.objectIdToTokenLinkers ∧
            channel.submissionQueue.selectEnforcementObject objectToken = some object ∧
            object.getEnforcementObjectId = objectId ∧
            channel.RunsObject opt hash context objectToken object) ∧
        ((∀ objectId pair, .object channelId objectId pair ∈ ledger →
            ¬ channel.submissionQueue.diffBuilder.Agree pair context.objectPair) →
          Set.InjOn hash ({channel.submissionQueue.diffBuilder.message context.objectPair} ∪
            {m | ∃ objectId pair, .object channelId objectId pair ∈ ledger ∧
              m = channel.submissionQueue.diffBuilder.message pair}) →
          channel.RunsNoMatch opt hash context)) ∧
    ((∀ channelId tuple, .channel channelId tuple ∈ ledger →
        ¬ core.channelDiffBuilder.Agree tuple context.channelTuple) →
      Set.InjOn hash ({core.channelDiffBuilder.message context.channelTuple} ∪
        {m | ∃ channelId tuple, .channel channelId tuple ∈ ledger ∧
          m = core.channelDiffBuilder.message tuple}) →
      ∀ clock fuel buffer size result,
        core.enforceRequest opt hash clock fuel context buffer size result =
          .ok (core, result)) := by
  have hr := h.records
  constructor
  · intro channelId tuple hc hagree
    have hlink := hr.linked channelId tuple hc
    obtain ⟨channel, hsel, hcreated⟩ : ∃ channel,
        core.selectChannel (core.channelToken hash tuple) = some channel ∧
          channel.CreatedFor opt hash channelId := hr.wellLinked.entry channelId _ hlink
    have hholds := hr.holds channelId _ channel hlink hsel
    refine ⟨_, channel, hlink, hsel, hcreated, ?_, fun objectId pair => hholds.runsObject,
      hholds.runsNoMatch⟩
    intro clock fuel buffer size result
    have htoken : core.channelToken hash context.channelTuple = core.channelToken hash tuple :=
      (ChannelHashingDifferentiation.buildDifferentiationToken_congr hr.bound hagree).symm
    cases hrun : channel.channelEnforce opt hash clock fuel context buffer size result with
    | ok p => simp only [enforceRequest, htoken, hsel, hrun]
    | error f => simp only [enforceRequest, htoken, hsel, hrun]
  · intro hnone hinj clock fuel buffer size result
    have hsel : core.selectChannel (core.channelToken hash context.channelTuple) = none := by
      rw [selectChannel, Finmap.lookup_eq_none, ← hr.wellLinked.mem_tokens_iff]
      intro hmem
      simp only [LinkedMap.tokens, List.mem_map, Prod.exists, exists_eq_right] at hmem
      obtain ⟨channelId, hl⟩ := hmem
      obtain ⟨tuple, hc, htoken⟩ := hr.recorded channelId _ hl
      have hmsg := hinj (.inl rfl) (.inr ⟨channelId, tuple, hc, rfl⟩) htoken
      exact hnone channelId tuple hc
        ((ChannelHashingDifferentiation.message_eq_iff hr.bound).mp hmsg.symm)
    simp only [enforceRequest, hsel]

/-- A core of two default channels, for the workflows 1 and 2. -/
def twoChannelCore : Core :=
  ((Core.new workflowOptions).createDefaultChannel workflowOptions numeralHash (fun _ => 0) true
    1).createDefaultChannel workflowOptions numeralHash (fun _ => 0) true 2

/-- Each workflow gets to its channel, and a third one to none. -/
theorem run_routes_default :
    (∀ i : Int, i = 1 ∨ i = 2 → ∃ token channel,
      (i, token) ∈ twoChannelCore.channelIdToTokenLinkers ∧
      twoChannelCore.selectChannel token = some channel ∧
      twoChannelCore.PassesTo workflowOptions numeralHash { workflowId := i } token channel) ∧
    ∀ clock fuel buffer size result,
      twoChannelCore.enforceRequest workflowOptions numeralHash clock fuel { workflowId := 3 } buffer
        size result = .ok (twoChannelCore, result) := by
  have hledger : [] ++ (Core.new workflowOptions).defaultCreations workflowOptions numeralHash
        (fun _ => 0) true 1 ++
      ((Core.new workflowOptions).createDefaultChannel workflowOptions numeralHash (fun _ => 0) true
        1).defaultCreations workflowOptions numeralHash (fun _ => 0) true 2 =
      [.channel 1 (defaultTuple 1), .object 1 0 defaultPair, .channel 2 (defaultTuple 2),
        .object 2 0 defaultPair] := by decide
  have hrun := (@Run.new workflowOptions numeralHash).createDefaultChannel (fun _ => 0) true 1
    |>.createDefaultChannel (fun _ => 0) true 2
  rw [hledger] at hrun
  constructor
  · rintro i (rfl | rfl)
    · obtain ⟨token, channel, hl, hsel, _, hpass, _⟩ := (run_routes hrun { workflowId := 1 }).1 1
        (defaultTuple 1) (by simp) (by decide)
      exact ⟨token, channel, hl, hsel, hpass⟩
    · obtain ⟨token, channel, hl, hsel, _, hpass, _⟩ := (run_routes hrun { workflowId := 2 }).1 2
        (defaultTuple 2) (by simp) (by decide)
      exact ⟨token, channel, hl, hsel, hpass⟩
  · refine (run_routes hrun { workflowId := 3 }).2 ?_ ?_
    · intro channelId tuple hc
      simp only [List.mem_cons, List.not_mem_nil, or_false, Creation.channel.injEq, reduceCtorEq,
        false_or] at hc
      obtain ⟨-, rfl⟩ | ⟨-, rfl⟩ := hc
      · decide
      · decide
    · have hinj : Set.InjOn numeralHash (Set.range twoChannelCore.channelDiffBuilder.message) := by
        rintro _ ⟨tuple, rfl⟩ _ ⟨tuple', rfl⟩ heq
        have hworkflow : numeralHash (decimal tuple.workflowIdentifier) =
            numeralHash (decimal tuple'.workflowIdentifier) := heq
        rw [numeralHash_decimal, numeralHash_decimal] at hworkflow
        exact congrArg decimal hworkflow
      refine hinj.mono ?_
      rintro m (rfl | ⟨_, tuple, _, rfl⟩)
      · exact ⟨_, rfl⟩
      · exact ⟨tuple, rfl⟩

end Core

end Paio
