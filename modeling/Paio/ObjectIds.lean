import Paio.Library.RunCondition
import Paio.ObjectStatistics

/-!
# Paio.ObjectIds

Objects and their identifiers over runs of creations on one channel. The objects are kept under
their tokens, which are checked; the identifiers are only appended to the list of linkers, and the
first linker of an identifier wins. `addressable_iff` says for which runs every object that was
created is the one its identifier leads to.
-/

namespace Paio

variable {opt : Options} {hash : String → UInt32}

namespace ChannelDefault

/-! ## Runs -/

/-- A call between two creations, or a creation. -/
inductive ObjectCall where
  | create (clock : Clock) (objectId : Int) (pair : ObjectDifferentiationPair)
      (objectType : Option EnforcementObjectType) (configurations : List Int)
  | define (operationType operationContext : Bool)

variable (hash) in
/-- One call on a channel, with what the calls have created: the identifier and the token of every
creation that returned OK, in order. -/
def call (state : ChannelDefault × List (Int × UInt32)) :
    ObjectCall → Except Fault (ChannelDefault × List (Int × UInt32))
  | .create clock objectId pair objectType configurations =>
    match state.1.createEnforcementObject hash clock objectId pair objectType configurations with
    | .ok (ch', status) =>
      let token := state.1.submissionQueue.buildObjectToken hash pair
      .ok (ch', if status.isOk then state.2 ++ [(objectId, token)] else state.2)
    | .error f => .error f
  | .define operationType operationContext =>
    .ok (state.1.defineObjectDifferentiation operationType operationContext, state.2)

variable (hash) in
/-- A run of calls on a channel without objects. -/
def runCalls (ch : ChannelDefault) (calls : List ObjectCall) :
    Except Fault (ChannelDefault × List (Int × UInt32)) :=
  calls.foldlM (call hash) (ch, [])

/-! ## What an identifier should lead to -/

/-- The channel after work on the object under a token. -/
def setObject (ch : ChannelDefault) (token : UInt32) (object : EnforcementObject) :
    ChannelDefault :=
  { ch with
    submissionQueue :=
      { ch.submissionQueue with
        enfObjects := AssocList.replaceFirst token object ch.submissionQueue.enfObjects } }

/-- Calls with the identifier act on the object that was created under the token with that
identifier, and on no other; statistics are collected where the channel collects them at all. -/
structure ActsOn (ch : ChannelDefault) (objectId : Int) (token : UInt32)
    (object : EnforcementObject) : Prop where
  selected : ch.submissionQueue.selectEnforcementObject token = some object
  created_for : object.getEnforcementObjectId = objectId
  configure : ∀ config configurations,
    ch.configureEnforcementObject objectId config configurations =
      (object.objConfigure config configurations).map fun out => (ch.setObject token out.1, out.2)
  collect : ∀ now raw, ch.callCollectObjectStatistics objectId now raw =
    if ch.collectObjectStatistics then
      (object.objCollectStatistics now raw).map fun out => (ch.setObject token out.1, out.2)
    else .ok (ch, raw, .error)

/-- No identifier was accepted twice, and every object is the one its identifier leads to. -/
structure Addressable (ch : ChannelDefault) (created : List (Int × UInt32)) : Prop where
  ids_nodup : (AssocList.keys created).Nodup
  acts : ∀ objectId token, (objectId, token) ∈ created → ∃ object, ch.ActsOn objectId token object

variable (hash) in
/-- The condition on a call: an object that is about to be created has an identifier that is not
linked, and a token that does not stand for no object. The other cases create nothing: a type that
does not exist, a token that is taken, and a rate limiter with one initial value, for which the
source reads past the vector. -/
def Fresh (ch : ChannelDefault) : ObjectCall → Prop
  | .create _ objectId pair objectType configurations =>
    objectType = none ∨
    ch.submissionQueue.buildObjectToken hash pair ∈ AssocList.keys ch.submissionQueue.enfObjects ∨
    (objectType = some .drl ∧ configurations.length = 1) ∨
    (objectId ∉ AssocList.keys ch.objectIdToTokenLinkers ∧
      ch.submissionQueue.buildObjectToken hash pair ≠ noToken)
  | .define _ _ => True

/-! ## The invariant -/

/-- What every run keeps: the linkers are the creations, and each has its object. -/
structure Linked (ch : ChannelDefault) (created : List (Int × UInt32)) : Prop where
  linkers : ch.objectIdToTokenLinkers = created
  objects : ∀ objectId token, (objectId, token) ∈ created →
    ∃ object, ch.submissionQueue.selectEnforcementObject token = some object ∧
      object.getEnforcementObjectId = objectId

/-- What the runs of fresh creations keep besides. -/
structure Distinct (created : List (Int × UInt32)) : Prop where
  ids_nodup : (AssocList.keys created).Nodup
  tokens : ∀ objectId token, (objectId, token) ∈ created → token ≠ noToken

variable {ch ch' : ChannelDefault} {created : List (Int × UInt32)} {objectId : Int}
  {token : UInt32}

theorem linked_new (channelId : Int) (clock : Clock) :
    Linked (ChannelDefault.new opt channelId clock) [] :=
  ⟨rfl, by simp⟩

/-- One more object, under a free token. -/
theorem Linked.addObject (h : Linked ch created) {object : EnforcementObject}
    (hfree : token ∉ AssocList.keys ch.submissionQueue.enfObjects)
    (hid : object.getEnforcementObjectId = objectId) :
    Linked (ch.addObject objectId token object) (created ++ [(objectId, token)]) := by
  refine ⟨?_, ?_⟩
  · show ch.objectIdToTokenLinkers ++ [(objectId, token)] = _
    rw [h.linkers]
  · intro objectId' token' hmem
    rcases List.mem_append.mp hmem with hold | hnew
    · obtain ⟨object', hsel, hid'⟩ := h.objects objectId' token' hold
      have hne : token' ≠ token := by
        rintro rfl
        exact hfree (AssocList.mem_keys_of_mem (AssocList.mem_of_lookup hsel))
      refine ⟨object', ?_, hid'⟩
      exact (AssocList.lookup_append_singleton_ne hne _ _).trans hsel
    · obtain ⟨rfl, rfl⟩ : objectId' = objectId ∧ token' = token := by simpa using hnew
      exact ⟨object, AssocList.lookup_append_singleton_self object hfree, hid⟩

/-- A call that comes back either creates nothing or creates one object under a free token. -/
theorem create_cases {clock : Clock} {pair : ObjectDifferentiationPair}
    {objectType : Option EnforcementObjectType} {configurations : List Int} {status : PStatus}
    (h : ch.createEnforcementObject hash clock objectId pair objectType configurations =
      .ok (ch', status)) :
    (ch' = ch ∧ status ≠ .ok ∧
      (objectType = none ∨ ch.submissionQueue.buildObjectToken hash pair ∈
        AssocList.keys ch.submissionQueue.enfObjects)) ∨
    ∃ object, status = .ok ∧ object.getEnforcementObjectId = objectId ∧
      ch.submissionQueue.buildObjectToken hash pair ∉
        AssocList.keys ch.submissionQueue.enfObjects ∧
      objectType ≠ none ∧ ¬ (objectType = some .drl ∧ configurations.length = 1) ∧
      ch' = ch.addObject objectId (ch.submissionQueue.buildObjectToken hash pair) object := by
  obtain hnone | ⟨type, object, rfl, rfl, hfree, hobject, rfl⟩ :=
    createEnforcementObject_cases hash h
  · exact .inl hnone
  · refine .inr ⟨object, rfl, initialObject_id hobject, hfree, by simp, ?_, rfl⟩
    rintro ⟨htype, hlength⟩
    obtain ⟨f, hf⟩ := initialObject_error_iff.mpr ⟨Option.some.inj htype, hlength⟩
    rw [hobject] at hf
    cases hf

/-! ## Addressing -/

theorem getEnforcementObjectDiffToken_eq (h : Linked ch created)
    (hnd : (AssocList.keys created).Nodup) (hmem : (objectId, token) ∈ created) :
    ch.getEnforcementObjectDiffToken objectId = token := by
  rw [getEnforcementObjectDiffToken, h.linkers, AssocList.lookup_of_mem hnd hmem]
  rfl

/-- Calls with an identifier that is linked once, to a token that is one, reach the object. -/
theorem Linked.actsOn (h : Linked ch created) (hd : Distinct created)
    (hmem : (objectId, token) ∈ created) : ∃ object, ch.ActsOn objectId token object := by
  obtain ⟨object, hsel, hid⟩ := h.objects objectId token hmem
  have htoken := getEnforcementObjectDiffToken_eq h hd.ids_nodup hmem
  have hne := hd.tokens objectId token hmem
  refine ⟨object, hsel, hid, ?_, ?_⟩
  · intro config configurations
    simp only [configureEnforcementObject, htoken, if_neg hne,
      SubmissionQueue.configureEnforcementObject, hsel]
    rcases object.objConfigure config configurations with f | ⟨object', status⟩ <;> rfl
  · intro now raw
    simp only [callCollectObjectStatistics, htoken, if_neg hne,
      SubmissionQueue.collectEnforcementObjectStatistics, hsel]
    rcases object.objCollectStatistics now raw with f | ⟨object', raw', status⟩ <;> rfl

theorem objConfigure_init (object : EnforcementObject) :
    ∃ object', object.objConfigure DRLConfiguration.init.toInt [0, 0] = .ok (object', .ok) := by
  cases object with
  | drl d => exact ⟨_, rfl⟩
  | noop n => exact ⟨_, rfl⟩

/-- An object under the token that stands for none cannot be configured. -/
theorem ActsOn.token_ne (hl : Linked ch created) (hnd : (AssocList.keys created).Nodup)
    (hmem : (objectId, token) ∈ created) {object : EnforcementObject}
    (h : ch.ActsOn objectId token object) : token ≠ noToken := by
  rintro rfl
  obtain ⟨object', hinit⟩ := objConfigure_init object
  have hconf := h.configure DRLConfiguration.init.toInt [0, 0]
  rw [hinit, configureEnforcementObject, getEnforcementObjectDiffToken_eq hl hnd hmem] at hconf
  simp [Except.map] at hconf

theorem Linked.addressable_iff_distinct (h : Linked ch created) :
    Addressable ch created ↔ Distinct created := by
  constructor
  · intro ha
    refine ⟨ha.ids_nodup, ?_⟩
    intro objectId token hmem
    obtain ⟨object, hacts⟩ := ha.acts objectId token hmem
    exact hacts.token_ne h ha.ids_nodup hmem
  · intro hd
    exact ⟨hd.ids_nodup, fun objectId token hmem => h.actsOn hd hmem⟩

theorem distinct_concat_iff :
    Distinct (created ++ [(objectId, token)]) ↔
      Distinct created ∧ objectId ∉ AssocList.keys created ∧ token ≠ noToken := by
  constructor
  · intro h
    have hnd := h.ids_nodup
    rw [AssocList.keys_append, AssocList.keys_cons, AssocList.keys_nil, List.nodup_append] at hnd
    refine ⟨⟨hnd.1, fun id' token' hmem => h.tokens id' token' (List.mem_append_left _ hmem)⟩, ?_,
      h.tokens objectId token (by simp)⟩
    intro hmem
    exact hnd.2.2 objectId hmem objectId (by simp) rfl
  · rintro ⟨h, hid, hne⟩
    refine ⟨?_, ?_⟩
    · rw [AssocList.keys_append, AssocList.keys_cons, AssocList.keys_nil]
      refine List.nodup_append.mpr ⟨h.ids_nodup, List.nodup_singleton _, ?_⟩
      intro id' hmem id'' hsingle
      rw [List.mem_singleton.mp hsingle]
      rintro rfl
      exact hid hmem
    · intro id' token' hmem
      rcases List.mem_append.mp hmem with hold | hnew
      · exact h.tokens id' token' hold
      · obtain ⟨rfl, rfl⟩ : id' = objectId ∧ token' = token := by simpa using hnew
        exact hne

/-! ## One call -/

variable {created' : List (Int × UInt32)} {c : ObjectCall}

theorem Linked.step (h : Linked ch created) (hc : call hash (ch, created) c = .ok (ch', created')) :
    Linked ch' created' := by
  cases c with
  | define t c =>
    cases hc
    exact ⟨h.linkers, h.objects⟩
  | create clock objectId pair objectType configurations =>
    simp only [ChannelDefault.call] at hc
    split at hc
    · rename_i ch₁ status hcreate
      cases hc
      obtain ⟨rfl, hs, _⟩ | ⟨object, rfl, hid, hfree, _, _, rfl⟩ := create_cases hcreate
      · rw [if_neg (by simpa using hs)]
        exact h
      · exact h.addObject hfree hid
    · cases hc

/-- A fresh call keeps identifiers and tokens apart. -/
theorem Distinct.step (hd : Distinct created) (h : Linked ch created) (hf : ch.Fresh hash c)
    (hc : call hash (ch, created) c = .ok (ch', created')) : Distinct created' := by
  cases c with
  | define t c =>
    cases hc
    exact hd
  | create clock objectId pair objectType configurations =>
    simp only [ChannelDefault.call] at hc
    split at hc
    · rename_i ch₁ status hcreate
      cases hc
      obtain ⟨rfl, hs, _⟩ | ⟨object, rfl, hid, hfree, htype, hlength, rfl⟩ := create_cases hcreate
      · rw [if_neg (by simpa using hs)]
        exact hd
      · rcases hf with hf | hf | hf | ⟨hnew, hne⟩
        · exact absurd hf htype
        · exact absurd hf hfree
        · exact absurd hf hlength
        · rw [h.linkers] at hnew
          exact distinct_concat_iff.mpr ⟨hd, hnew, hne⟩
    · cases hc

/-- A call after which all objects can be addressed was fresh. -/
theorem Linked.fresh (h : Linked ch created)
    (ha : ∀ ch' created', call hash (ch, created) c = .ok (ch', created') →
      Addressable ch' created') : ch.Fresh hash c := by
  cases c with
  | define t c => trivial
  | create clock objectId pair objectType configurations =>
    simp only [Fresh]
    rcases hcreate : ch.createEnforcementObject hash clock objectId pair objectType
      configurations with f | ⟨ch', status⟩
    · rw [createEnforcementObject_eq] at hcreate
      split at hcreate
      · cases hcreate
      · split at hcreate
        · cases hcreate
        · split at hcreate
          · cases hcreate
          · rename_i type _ f hobject
            obtain ⟨rfl, hlength⟩ := initialObject_error_iff.mp ⟨f, hobject⟩
            exact .inr (.inr (.inl ⟨rfl, hlength⟩))
    · have hcall : call hash (ch, created) (.create clock objectId pair objectType configurations) =
          .ok (ch', if status.isOk then
            created ++ [(objectId, ch.submissionQueue.buildObjectToken hash pair)]
            else created) := by
        simp only [ChannelDefault.call, hcreate]
      obtain ⟨rfl, _, hnone⟩ | ⟨object, rfl, hid, hfree, _, _, rfl⟩ := create_cases hcreate
      · rcases hnone with hnone | htaken
        · exact .inl hnone
        · exact .inr (.inl htaken)
      · have haddr := (ha _ _ hcall)
        rw [if_pos (by decide)] at haddr
        have hlinked := h.step hcall
        rw [if_pos (by decide)] at hlinked
        obtain ⟨_, hnew, hne⟩ := distinct_concat_iff.mp (hlinked.addressable_iff_distinct.mp haddr)
        rw [← h.linkers] at hnew
        exact .inr (.inr (.inr ⟨hnew, hne⟩))

/-! ## Runs -/

theorem runCalls_concat (ch : ChannelDefault) (calls : List ObjectCall) (c : ObjectCall)
    (state : ChannelDefault × List (Int × UInt32)) :
    runCalls hash ch (calls ++ [c]) = .ok state ↔
      ∃ state', runCalls hash ch calls = .ok state' ∧ call hash state' c = .ok state :=
  RunCondition.foldlM_concat calls c (ch, []) state

/-- In every run of creations on a new channel, with the classifiers changed in between or not,
every object that was created can be addressed by its identifier after each call exactly when every
creation was fresh. -/
theorem addressable_iff (channelId : Int) (clock : Clock) (calls : List ObjectCall) :
    (∀ run, run <+: calls → ∀ ch created,
      runCalls hash (ChannelDefault.new opt channelId clock) run = .ok (ch, created) →
      Addressable ch created) ↔
    ∀ run c, run ++ [c] <+: calls → ∀ ch created,
      runCalls hash (ChannelDefault.new opt channelId clock) run = .ok (ch, created) →
      ch.Fresh hash c := by
  have hiff := RunCondition.good_iff_cond
    (fun run state => runCalls hash (ChannelDefault.new opt channelId clock) run = .ok state)
    (fun state c state' => call hash state c = .ok state')
    (fun state => Linked state.1 state.2 ∧ Distinct state.2) ?_
    (fun run c state' => runCalls_concat _ run c state')
    (fun state h => h.1.addressable_iff_distinct.mpr h.2)
    (fun state c state' h hf hc => ⟨h.1.step hc, h.2.step h.1 hf hc⟩)
    (fun state c h ha => h.1.fresh fun ch' created' hc => ha (ch', created') hc) calls
  · simpa only [Prod.forall] using hiff
  · rintro state hstate
    cases hstate
    exact ⟨linked_new channelId clock, by simp, by simp⟩

/-- Two rate limiters with identifier 1 and different classifiers. -/
def sameIdCalls : List ObjectCall :=
  [.define true false,
   .create (fun _ => 0) 1 { operationType := 1, operationContext := 0 } (some .drl) [],
   .create (fun _ => 0) 1 { operationType := 2, operationContext := 0 } (some .drl) []]

/-- The second creation is accepted, and from then on configuring identifier 1 leaves the second
object as it is. -/
theorem same_id_accepted :
    ∃ ch token token', runCalls numeralHash (ChannelDefault.new {} 0 fun _ => 0) sameIdCalls =
        .ok (ch, [(1, token), (1, token')]) ∧ token ≠ token' ∧
      ¬ Addressable ch [(1, token), (1, token')] ∧
      (ch.configureEnforcementObject 1 DRLConfiguration.rate.toInt [7]).toOption.map
          (fun out => (out.2, out.1.submissionQueue.selectEnforcementObject token')) =
        some (.ok, ch.submissionQueue.selectEnforcementObject token') := by
  refine ⟨_, 1, 2, rfl, by decide, ?_, by decide⟩
  intro h
  have hnd := h.ids_nodup
  revert hnd
  decide

end ChannelDefault

end Paio
