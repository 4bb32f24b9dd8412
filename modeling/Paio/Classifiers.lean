import Paio.Core
import Paio.Library.Rebinding

/-!
# Paio.Classifiers

What the classifier flags are good for, and what becomes of them when they are redefined.

`set_classifiers` and `bind_builder` leave a bound builder, whatever it was before, so its messages
tell apart the classifiers that it was given and no others (`messages_separate_classifiers`).

`define_channel_differentiation` and `define_object_differentiation` make these two calls one
after the other. Each of the two takes the builder's lock, nothing holds it over both: another
call can come between them, and then the first call binds the function for the other call's flags.
`reconfiguration_converges` says that this is as far as it goes.
-/

namespace Paio

namespace ChannelHashingDifferentiation

theorem bound_bindBuilder (b : ChannelHashingDifferentiation) : b.bindBuilder.Bound := rfl

/-- After both calls, the messages of two tuples are the same exactly when the tuples agree on the
classifiers that were set. -/
theorem message_setClassifiers (b : ChannelHashingDifferentiation)
    (workflow operationType operationContext : Bool) (d d' : ChannelDifferentiationTuple) :
    ((b.setClassifiers workflow operationType operationContext).bindBuilder).message d =
        ((b.setClassifiers workflow operationType operationContext).bindBuilder).message d' ↔
      (workflow = true → d.workflowIdentifier = d'.workflowIdentifier) ∧
      (operationType = true → d.operationType = d'.operationType) ∧
      (operationContext = true → d.operationContext = d'.operationContext) :=
  message_eq_iff (bound_bindBuilder _)

end ChannelHashingDifferentiation

namespace ObjectHashingDifferentiation

theorem bound_bindBuilder (b : ObjectHashingDifferentiation) : b.bindBuilder.Bound := rfl

theorem message_setClassifiers (b : ObjectHashingDifferentiation)
    (operationType operationContext : Bool) (d d' : ObjectDifferentiationPair) :
    ((b.setClassifiers operationType operationContext).bindBuilder).message d =
        ((b.setClassifiers operationType operationContext).bindBuilder).message d' ↔
      (operationType = true → d.operationType = d'.operationType) ∧
      (operationContext = true → d.operationContext = d'.operationContext) :=
  message_eq_iff (bound_bindBuilder _)

end ObjectHashingDifferentiation

theorem messages_separate_classifiers :
    (∀ (b : ChannelHashingDifferentiation) (workflow operationType operationContext : Bool)
        (d d' : ChannelDifferentiationTuple),
      ((b.setClassifiers workflow operationType operationContext).bindBuilder).message d =
          ((b.setClassifiers workflow operationType operationContext).bindBuilder).message d' ↔
        (workflow = true → d.workflowIdentifier = d'.workflowIdentifier) ∧
        (operationType = true → d.operationType = d'.operationType) ∧
        (operationContext = true → d.operationContext = d'.operationContext)) ∧
    (∀ (b : ObjectHashingDifferentiation) (operationType operationContext : Bool)
        (d d' : ObjectDifferentiationPair),
      ((b.setClassifiers operationType operationContext).bindBuilder).message d =
          ((b.setClassifiers operationType operationContext).bindBuilder).message d' ↔
        (operationType = true → d.operationType = d'.operationType) ∧
        (operationContext = true → d.operationContext = d'.operationContext)) :=
  ⟨ChannelHashingDifferentiation.message_setClassifiers,
    ObjectHashingDifferentiation.message_setClassifiers⟩

/-! ## Redefining the classifiers -/

/-- The arguments of `define_channel_differentiation`. -/
structure ChannelClassifiers where
  workflow : Bool
  operationType : Bool
  operationContext : Bool
  deriving DecidableEq, Repr

/-- The arguments of `define_object_differentiation`. -/
structure ObjectClassifiers where
  operationType : Bool
  operationContext : Bool
  deriving DecidableEq, Repr

namespace Core

/-- The first step of `define_channel_differentiation`. -/
def setClassifiers (args : ChannelClassifiers) (core : Core) : Core :=
  { core with
    channelDiffBuilder :=
      core.channelDiffBuilder.setClassifiers args.workflow args.operationType
        args.operationContext }

/-- The second step of `define_channel_differentiation`. -/
def bindBuilder (core : Core) : Core :=
  { core with channelDiffBuilder := core.channelDiffBuilder.bindBuilder }

/-- A call that nothing comes between is its two steps. -/
theorem defineChannelDifferentiation_eq (args : ChannelClassifiers) (core : Core) :
    core.defineChannelDifferentiation args.workflow args.operationType args.operationContext =
      (core.setClassifiers args).bindBuilder := rfl

/-- The flags of the channel builder are the arguments. -/
def Uses (args : ChannelClassifiers) (core : Core) : Prop :=
  core.channelDiffBuilder.useWorkflow = args.workflow ∧
  core.channelDiffBuilder.useOperationType = args.operationType ∧
  core.channelDiffBuilder.useOperationContext = args.operationContext

theorem rebinding_laws :
    Rebinding.Laws setClassifiers bindBuilder Uses fun core => core.channelDiffBuilder.Bound where
  holds_write _ _ := ⟨rfl, rfl, rfl⟩
  holds_derive _ _ h := h
  derived_derive core := core.channelDiffBuilder.bound_bindBuilder

end Core

namespace ChannelDefault

/-- The first step of `define_object_differentiation`. -/
def setClassifiers (args : ObjectClassifiers) (ch : ChannelDefault) : ChannelDefault :=
  { ch with
    submissionQueue :=
      { ch.submissionQueue with
        diffBuilder :=
          ch.submissionQueue.diffBuilder.setClassifiers args.operationType args.operationContext } }

/-- The second step of `define_object_differentiation`. -/
def bindBuilder (ch : ChannelDefault) : ChannelDefault :=
  { ch with
    submissionQueue :=
      { ch.submissionQueue with diffBuilder := ch.submissionQueue.diffBuilder.bindBuilder } }

theorem defineObjectDifferentiation_eq (args : ObjectClassifiers) (ch : ChannelDefault) :
    ch.defineObjectDifferentiation args.operationType args.operationContext =
      (ch.setClassifiers args).bindBuilder := rfl

/-- The flags of the channel's object builder are the arguments. -/
def Uses (args : ObjectClassifiers) (ch : ChannelDefault) : Prop :=
  ch.submissionQueue.diffBuilder.useOperationType = args.operationType ∧
  ch.submissionQueue.diffBuilder.useOperationContext = args.operationContext

theorem rebinding_laws :
    Rebinding.Laws setClassifiers bindBuilder Uses fun ch => ch.submissionQueue.diffBuilder.Bound where
  holds_write _ _ := ⟨rfl, rfl⟩
  holds_derive _ _ h := h
  derived_derive ch := ch.submissionQueue.diffBuilder.bound_bindBuilder

end ChannelDefault

/-- When all calls have returned, the flags are the arguments of one of them, and the function is
the one for these flags. -/
theorem reconfiguration_converges {ι : Type} [DecidableEq ι] [Nonempty ι] :
    (∀ (args : ι → ChannelClassifiers) (core₀ : Core) (s : Rebinding.State ι Core),
      Rebinding.Reachable Core.setClassifiers Core.bindBuilder args core₀ s →
      (∀ i, s.phase i = .returned) →
      (∃ i, s.shared.Uses (args i)) ∧ s.shared.channelDiffBuilder.Bound) ∧
    (∀ (args : ι → ObjectClassifiers) (ch₀ : ChannelDefault) (s : Rebinding.State ι ChannelDefault),
      Rebinding.Reachable ChannelDefault.setClassifiers ChannelDefault.bindBuilder args ch₀ s →
      (∀ i, s.phase i = .returned) →
      (∃ i, s.shared.Uses (args i)) ∧ s.shared.submissionQueue.diffBuilder.Bound) := by
  constructor
  · intro args core₀ s h hall
    exact h.all_returned Core.rebinding_laws hall
  · intro args ch₀ s h hall
    exact h.all_returned ChannelDefault.rebinding_laws hall

/-- Two calls with opposite arguments, the first of which binds the function for the flags of the
second. -/
theorem reconfiguration_converges_crossing :
    ((∃ i : Bool, ((((Core.new {}).setClassifiers ⟨false, false, false⟩).setClassifiers
        ⟨true, true, true⟩).bindBuilder.bindBuilder).Uses ⟨i, i, i⟩) ∧
      ((((Core.new {}).setClassifiers ⟨false, false, false⟩).setClassifiers
        ⟨true, true, true⟩).bindBuilder.bindBuilder).channelDiffBuilder.Bound) ∧
    (∃ i : Bool, ((((ChannelDefault.new {} 1 fun _ => 0).setClassifiers
        ⟨false, false⟩).setClassifiers ⟨true, true⟩).bindBuilder.bindBuilder).Uses ⟨i, i⟩) ∧
      ((((ChannelDefault.new {} 1 fun _ => 0).setClassifiers ⟨false, false⟩).setClassifiers
        ⟨true, true⟩).bindBuilder.bindBuilder).submissionQueue.diffBuilder.Bound :=
  ⟨reconfiguration_converges.1 (fun i : Bool => ⟨i, i, i⟩) _ _ (.crossing _ _ _ _) fun _ => rfl,
    reconfiguration_converges.2 (fun i : Bool => ⟨i, i⟩) _ _ (.crossing _ _ _ _) fun _ => rfl⟩

end Paio
