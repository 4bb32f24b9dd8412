import Paio.Registry

/-!
# Paio.DefaultChannels

The channels of the parameterized constructor. It varies the workflow identifier of the default
channels and leaves the two other classifiers at `no_op`; the shipped options tell channels apart by
the operation context alone. All default channels then have one token, so that the first of them is
created and every other one fails (`newWith_shipped`), which is only logged.
-/

namespace Paio

/-- The classifiers that the options ship with. -/
structure Options.ShippedDifferentiation (opt : Options) : Prop where
  workflow : opt.channelDifferentiationWorkflow = false
  operationType : opt.channelDifferentiationOperationType = false
  operationContext : opt.channelDifferentiationOperationContext = true

namespace Core

variable {opt : Options} {hash : String → UInt32}

/-- As many channels as were asked for, with the identifiers from 1. -/
structure HasDefaultChannels (n : Nat) (core : Core) : Prop where
  count : core.channels.keys.card = n
  identifiers : ∀ channelId, channelId ∈ AssocList.keys core.channelIdToTokenLinkers ↔
    1 ≤ channelId ∧ channelId ≤ n

/-- One object in every channel, a noop with identifier 0. -/
def HasDefaultObjects (core : Core) : Prop :=
  ∀ token channel, core.selectChannel token = some channel →
    channel.submissionQueue.enfObjects.map Prod.snd = [.noop { objectId := 0 }] ∧
      AssocList.keys channel.objectIdToTokenLinkers = [0]

/-- The requests of a workflow are served by the channel of that number. -/
def ServesWorkflows (hash : String → UInt32) (n : Nat) (core : Core) : Prop :=
  ∀ context : Context, 1 ≤ context.workflowId → context.workflowId ≤ n →
    ∃ channel, core.selectChannel (core.channelToken hash context.channelTuple) = some channel ∧
      channel.channelId = toUInt32 context.workflowId

/-- What the constructor is documented to build. -/
structure BuildsDefaults (hash : String → UInt32) (n : Nat) (createDefaultObjects : Bool)
    (core : Core) : Prop where
  channels : core.HasDefaultChannels n
  objects : createDefaultObjects = true → core.HasDefaultObjects
  requests : core.ServesWorkflows hash n

/-! ## The loop of the constructor -/

theorem new_channelDiffBuilder (h : opt.ShippedDifferentiation) :
    (new opt).channelDiffBuilder = .bound false false true := by
  rw [new, h.workflow, h.operationType, h.operationContext]

/-- Any two default channels agree on the context, which is all that counts. -/
theorem channelToken_defaultTuple {core : Core}
    (h : core.channelDiffBuilder = .bound false false true) (i : Int) :
    core.channelDiffBuilder.buildDifferentiationToken hash (defaultTuple i) =
      hash (decimal 0) := by
  rw [h]
  rfl

/-- A pass whose token is taken changes nothing. -/
theorem createDefaultChannel_of_mem {core : Core} {i : Int}
    (h : core.channelDiffBuilder.buildDifferentiationToken hash (defaultTuple i) ∈ core.channels)
    (clock : Clock) (createDefaultObjects : Bool) :
    core.createDefaultChannel opt hash clock createDefaultObjects i = core := by
  have hfailed : core.createChannel opt hash clock i (defaultTuple i) = (core, .error) := by
    obtain ⟨hfree, _, _⟩ | ⟨_, heq⟩ := createChannel_cases opt hash clock core i (defaultTuple i)
    · exact absurd h hfree
    · exact heq
  rw [createDefaultChannel, hfailed]
  cases createDefaultObjects <;> rfl

/-- What the first pass leaves of the registry: channel 1 under its token. -/
structure First (hash : String → UInt32) (core : Core) : Prop where
  builder : core.channelDiffBuilder = .bound false false true
  linkers : core.channelIdToTokenLinkers = [(1, hash (decimal 0))]
  tokens : ∀ token, token ∈ core.channels ↔ token = hash (decimal 0)

theorem first_createDefaultChannel (h : opt.ShippedDifferentiation) (clock : Clock)
    (createDefaultObjects : Bool) :
    First hash ((new opt).createDefaultChannel opt hash clock createDefaultObjects 1) := by
  have hbuilder := new_channelDiffBuilder h
  have htoken : (new opt).channelDiffBuilder.buildDifferentiationToken hash (defaultTuple 1) =
      hash (decimal 0) := channelToken_defaultTuple hbuilder 1
  obtain ⟨_, _, heq⟩ | ⟨htaken, _⟩ :=
    createChannel_cases opt hash clock (new opt) 1 (defaultTuple 1)
  · rw [htoken] at heq
    have hcreated : First hash ((new opt).createChannel opt hash clock 1 (defaultTuple 1)).1 := by
      rw [heq]
      refine ⟨hbuilder, rfl, ?_⟩
      intro token
      simp only [createNewChannelLinker, setChannel, new, Finmap.mem_insert, Finmap.notMem_empty,
        or_false]
    rw [createDefaultChannel, heq]
    rw [heq] at hcreated
    simp only
    split
    · split
      · rename_i core'' status hc
        obtain ⟨rfl, _⟩ | ⟨token, channel, channel', _, _, hsel, _, rfl⟩ := onChannel_cases hc
        · exact hcreated
        · refine ⟨hcreated.builder, hcreated.linkers, ?_⟩
          intro token'
          rw [setChannel, Finmap.mem_insert, ← hcreated.tokens, or_iff_right_of_imp]
          rintro rfl
          exact Finmap.mem_of_lookup_eq_some hsel
      · exact hcreated
    · exact hcreated
  · exfalso
    rcases htaken with ht | hid
    · exact Finmap.notMem_empty ht
    · cases hid

/-- Whatever the number of channels, the loop leaves what its first pass did. -/
theorem newWith_shipped (h : opt.ShippedDifferentiation) (n : Nat) (createDefaultObjects : Bool)
    (clock : Nat → Clock) :
    newWith opt hash (n + 1 : Nat) true createDefaultObjects clock =
      (new opt).createDefaultChannel opt hash (clock 0) createDefaultObjects 1 := by
  have hfirst : First hash
      ((new opt).createDefaultChannel opt hash (clock 0) createDefaultObjects 1) :=
    first_createDefaultChannel h (clock 0) createDefaultObjects
  rw [newWith, if_pos rfl, Int.toNat_natCast, List.range_succ_eq_map, List.foldl_cons,
    List.foldl_map, Nat.cast_zero, zero_add]
  apply List.foldl_fixed'
  intro i
  apply createDefaultChannel_of_mem
  rw [channelToken_defaultTuple hfirst.builder]
  exact (hfirst.tokens _).mpr rfl

/-! ## When the constructor builds what it should -/

theorem First.hasDefaultChannels_iff {core : Core} (h : First hash core) (n : Nat) :
    core.HasDefaultChannels n ↔ n = 1 := by
  have hkeys : core.channels.keys = {hash (decimal 0)} := by
    ext token
    rw [Finmap.mem_keys, h.tokens, Finset.mem_singleton]
  have hcard : core.channels.keys.card = 1 := by
    rw [hkeys, Finset.card_singleton]
  constructor
  · intro hdefault
    exact hdefault.count.symm.trans hcard
  · rintro rfl
    refine ⟨hcard, ?_⟩
    intro channelId
    rw [h.linkers]
    simp only [AssocList.keys_cons, AssocList.keys_nil, List.mem_singleton]
    omega

/-- A request of workflow 1 with another context than the default channel has. -/
theorem First.not_servesWorkflows {core : Core} (h : First hash core)
    (hinj : Set.InjOn hash (Set.range core.channelDiffBuilder.message)) {n : Nat} (hn : 1 ≤ n) :
    ¬ core.ServesWorkflows hash n := by
  intro hserves
  obtain ⟨channel, hsel, -⟩ := hserves { workflowId := 1, operationContext := 1 } (le_refl 1)
    (by simpa using hn)
  have hmem := (h.tokens _).mp (Finmap.mem_of_lookup_eq_some hsel)
  rw [h.builder] at hinj
  have hdecimal : ∀ x : UInt32, decimal x ∈
      Set.range (ChannelHashingDifferentiation.bound false false true).message :=
    fun x => ⟨{ operationContext := x }, rfl⟩
  have htoken : core.channelToken hash
      ({ workflowId := 1, operationContext := 1 } : Context).channelTuple = hash (decimal 1) := by
    rw [channelToken, h.builder]
    rfl
  rw [htoken] at hmem
  have hone := decimal_inj.mp (hinj (hdecimal 1) (hdecimal 0) hmem)
  cases hone

theorem buildsDefaults_new (createDefaultObjects : Bool) :
    BuildsDefaults hash 0 createDefaultObjects (new opt) where
  channels := by
    refine ⟨rfl, ?_⟩
    intro channelId
    simp only [new, AssocList.keys_nil, List.not_mem_nil, Nat.cast_zero, false_iff]
    omega
  objects := by
    intro _ token channel hsel
    cases hsel
  requests := by
    intro context hlow hhigh
    simp only [Nat.cast_zero] at hhigh
    omega

/-- With the shipped classifiers the constructor has the channels it was asked for only up to one,
and serves all requests by the channel of their workflow only when it was asked for none. -/
theorem buildsDefaults_iff (h : opt.ShippedDifferentiation)
    (hinj : Set.InjOn hash (Set.range (new opt).channelDiffBuilder.message)) (n : Nat)
    (createDefaultObjects : Bool) (clock : Nat → Clock) :
    (BuildsDefaults hash n createDefaultObjects
      (newWith opt hash n true createDefaultObjects clock) ↔ n = 0) ∧
    ((newWith opt hash n true createDefaultObjects clock).HasDefaultChannels n ↔ n ≤ 1) := by
  cases n with
  | zero =>
    have hbuilds : BuildsDefaults hash 0 createDefaultObjects (new opt) :=
      buildsDefaults_new createDefaultObjects
    exact ⟨iff_of_true hbuilds rfl, iff_of_true hbuilds.channels (Nat.zero_le 1)⟩
  | succ n =>
    have hfirst : First hash
        ((new opt).createDefaultChannel opt hash (clock 0) createDefaultObjects 1) :=
      first_createDefaultChannel h (clock 0) createDefaultObjects
    rw [newWith_shipped h]
    constructor
    · refine iff_of_false ?_ (Nat.succ_ne_zero n)
      intro hbuilds
      rw [new_channelDiffBuilder h, ← hfirst.builder] at hinj
      exact hfirst.not_servesWorkflows hinj (Nat.succ_pos n) hbuilds.requests
    · rw [hfirst.hasDefaultChannels_iff]
      omega

theorem shippedDifferentiation_default : ({} : Options).ShippedDifferentiation := ⟨rfl, rfl, rfl⟩

theorem injOn_numeralHash :
    Set.InjOn numeralHash (Set.range (new {}).channelDiffBuilder.message) := by
  rintro _ ⟨d, rfl⟩ _ ⟨d', rfl⟩ heq
  have hcontext : numeralHash (decimal d.operationContext) =
      numeralHash (decimal d'.operationContext) := heq
  rw [numeralHash_decimal, numeralHash_decimal] at hcontext
  exact congrArg decimal hcontext

/-- One default channel is built. -/
theorem buildsDefaults_iff_one :
    (newWith {} numeralHash (1 : Nat) true true fun _ _ => 0).HasDefaultChannels 1 :=
  (buildsDefaults_iff shippedDifferentiation_default injOn_numeralHash 1 true
    fun _ _ => 0).2.mpr (le_refl 1)

/-- Asked for two channels, the constructor creates the first one only. -/
theorem second_default_channel_missing :
    (newWith {} numeralHash (2 : Nat) true true fun _ _ => 0).channelIdToTokenLinkers = [(1, 0)] ∧
    ¬ BuildsDefaults numeralHash 2 true
      (newWith {} numeralHash (2 : Nat) true true fun _ _ => 0) := by
  refine ⟨by decide, ?_⟩
  intro hbuilds
  have htwo := (hbuilds.channels.identifiers 2).mpr (by decide)
  revert htwo
  decide

end Core

end Paio
