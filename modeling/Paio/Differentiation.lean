import Paio.Basic
import Paio.Library.Decimal

/-!
# Paio.Differentiation

How requests are told apart. A builder has one flag for each classifier and a bound function that
turns the classifiers into a text; the differentiation token is the hash of that text. The hash
is a parameter: MurmurHash3 in the source, any function from texts to 32-bit tokens here.

`set_classifiers` writes the flags, `bind_builder` selects the function for them; a builder whose
function is the one for its flags is `Bound`. `message_eq_iff` says what the texts are good for:
under one bound builder, two requests have the same text exactly when they agree on every
selected classifier.
-/

namespace Paio

structure ChannelDifferentiationTuple where
  workflowIdentifier : UInt32 := 0
  operationType : UInt32 := 0
  operationContext : UInt32 := 0
  deriving DecidableEq, Repr

structure ObjectDifferentiationPair where
  operationType : UInt32 := 0
  operationContext : UInt32 := 0
  deriving DecidableEq, Repr

/-- `std::to_string` of a `uint32_t`. -/
def decimal (x : UInt32) : String := x.toNat.repr

theorem decimal_inj {x y : UInt32} : decimal x = decimal y ↔ x = y := by
  constructor
  · intro h
    exact UInt32.toNat_inj.mp (Decimal.repr_toList_inj (congrArg String.toList h))
  · rintro rfl; rfl

/-- A hash that reads a text as a decimal numeral, and so tells all single numerals apart. -/
def numeralHash (s : String) : UInt32 := UInt32.ofNat (Nat.ofDigitChars 10 s.toList 0)

@[simp] theorem numeralHash_decimal (x : UInt32) : numeralHash (decimal x) = x := by
  simp [numeralHash, decimal, Nat.toList_repr]

/-- A numeral, the separator and a text determine the numeral and the text. -/
theorem decimal_bar_inj {x y : UInt32} {s t : String} :
    decimal x ++ "|" ++ s = decimal y ++ "|" ++ t ↔ x = y ∧ s = t := by
  constructor
  · intro h
    have hl := congrArg String.toList h
    have hb : ("|" : String).toList = ['|'] := rfl
    simp only [String.toList_append, hb, List.append_assoc, List.cons_append, List.nil_append]
      at hl
    obtain ⟨hn, hs⟩ := Decimal.repr_sep_inj (by decide) hl
    exact ⟨UInt32.toNat_inj.mp hn, String.toList_inj.mp hs⟩
  · rintro ⟨rfl, rfl⟩; rfl

/-! ## Channels -/

/-- The token-building functions that `generate_builder` binds. -/
inductive ChannelBuilder where
  | workflowTypeContext
  | workflowType
  | workflowContext
  | workflow
  | typeContext
  | type
  | context
  | noDiff
  deriving DecidableEq, Repr

/-- The text that the bound function hashes. -/
def ChannelBuilder.message (b : ChannelBuilder) (d : ChannelDifferentiationTuple) : String :=
  match b with
  | .workflowTypeContext =>
    decimal d.workflowIdentifier ++ "|" ++ (decimal d.operationType ++ "|" ++
      decimal d.operationContext)
  | .workflowType => decimal d.workflowIdentifier ++ "|" ++ decimal d.operationType
  | .workflowContext => decimal d.workflowIdentifier ++ "|" ++ decimal d.operationContext
  | .workflow => decimal d.workflowIdentifier
  | .typeContext => decimal d.operationType ++ "|" ++ decimal d.operationContext
  | .type => decimal d.operationType
  | .context => decimal d.operationContext
  | .noDiff => "no_diff"

structure ChannelHashingDifferentiation where
  useWorkflow : Bool
  useOperationType : Bool
  useOperationContext : Bool
  funcBuildToken : ChannelBuilder
  deriving DecidableEq, Repr

namespace ChannelHashingDifferentiation

/-- The builder that `generate_builder` selects for the flags. -/
def generateBuilder (useWorkflow useOperationType useOperationContext : Bool) : ChannelBuilder :=
  if useWorkflow && useOperationType && useOperationContext then .workflowTypeContext
  else if useWorkflow && useOperationType then .workflowType
  else if useWorkflow && useOperationContext then .workflowContext
  else if useWorkflow then .workflow
  else if useOperationType && useOperationContext then .typeContext
  else if useOperationType then .type
  else if useOperationContext then .context
  else .noDiff

def setClassifiers (b : ChannelHashingDifferentiation)
    (workflow operationType operationContext : Bool) : ChannelHashingDifferentiation :=
  { b with
    useWorkflow := workflow
    useOperationType := operationType
    useOperationContext := operationContext }

def bindBuilder (b : ChannelHashingDifferentiation) : ChannelHashingDifferentiation :=
  { b with
    funcBuildToken := generateBuilder b.useWorkflow b.useOperationType b.useOperationContext }

/-- A builder with given classifiers and the function for them. -/
def bound (workflow operationType operationContext : Bool) : ChannelHashingDifferentiation where
  useWorkflow := workflow
  useOperationType := operationType
  useOperationContext := operationContext
  funcBuildToken := generateBuilder workflow operationType operationContext

def Bound (b : ChannelHashingDifferentiation) : Prop :=
  b.funcBuildToken = generateBuilder b.useWorkflow b.useOperationType b.useOperationContext

def message (b : ChannelHashingDifferentiation) (d : ChannelDifferentiationTuple) : String :=
  b.funcBuildToken.message d

def buildDifferentiationToken (hash : String → UInt32) (b : ChannelHashingDifferentiation)
    (d : ChannelDifferentiationTuple) : UInt32 :=
  hash (b.message d)

/-- Two tuples agree on every classifier that the builder selects. -/
def Agree (b : ChannelHashingDifferentiation) (d d' : ChannelDifferentiationTuple) : Prop :=
  (b.useWorkflow = true → d.workflowIdentifier = d'.workflowIdentifier) ∧
  (b.useOperationType = true → d.operationType = d'.operationType) ∧
  (b.useOperationContext = true → d.operationContext = d'.operationContext)

instance (b : ChannelHashingDifferentiation) (d d' : ChannelDifferentiationTuple) :
    Decidable (b.Agree d d') :=
  inferInstanceAs (Decidable ((_ → _) ∧ (_ → _) ∧ (_ → _)))

theorem message_eq_iff {b : ChannelHashingDifferentiation} (hb : b.Bound)
    {d d' : ChannelDifferentiationTuple} : b.message d = b.message d' ↔ b.Agree d d' := by
  obtain ⟨w, t, c, f⟩ := b
  simp only [Bound] at hb
  subst hb
  cases w <;> cases t <;> cases c <;>
    simp [message, Agree, generateBuilder, ChannelBuilder.message, decimal_inj, decimal_bar_inj]

theorem buildDifferentiationToken_congr {hash : String → UInt32}
    {b : ChannelHashingDifferentiation} (hb : b.Bound) {d d' : ChannelDifferentiationTuple}
    (h : b.Agree d d') :
    b.buildDifferentiationToken hash d = b.buildDifferentiationToken hash d' :=
  congrArg hash ((message_eq_iff hb).mpr h)

end ChannelHashingDifferentiation

/-! ## Enforcement objects -/

inductive ObjectBuilder where
  | typeContext
  | type
  | context
  | noDiff
  deriving DecidableEq, Repr

def ObjectBuilder.message (b : ObjectBuilder) (d : ObjectDifferentiationPair) : String :=
  match b with
  | .typeContext => decimal d.operationType ++ "|" ++ decimal d.operationContext
  | .type => decimal d.operationType
  | .context => decimal d.operationContext
  | .noDiff => "no_diff"

structure ObjectHashingDifferentiation where
  useOperationType : Bool
  useOperationContext : Bool
  funcBuildToken : ObjectBuilder
  deriving DecidableEq, Repr

namespace ObjectHashingDifferentiation

def generateBuilder (useOperationType useOperationContext : Bool) : ObjectBuilder :=
  if useOperationType && useOperationContext then .typeContext
  else if useOperationType then .type
  else if useOperationContext then .context
  else .noDiff

def setClassifiers (b : ObjectHashingDifferentiation) (operationType operationContext : Bool) :
    ObjectHashingDifferentiation :=
  { b with
    useOperationType := operationType
    useOperationContext := operationContext }

def bindBuilder (b : ObjectHashingDifferentiation) : ObjectHashingDifferentiation :=
  { b with funcBuildToken := generateBuilder b.useOperationType b.useOperationContext }

def bound (operationType operationContext : Bool) : ObjectHashingDifferentiation where
  useOperationType := operationType
  useOperationContext := operationContext
  funcBuildToken := generateBuilder operationType operationContext

def Bound (b : ObjectHashingDifferentiation) : Prop :=
  b.funcBuildToken = generateBuilder b.useOperationType b.useOperationContext

def message (b : ObjectHashingDifferentiation) (d : ObjectDifferentiationPair) : String :=
  b.funcBuildToken.message d

def buildDifferentiationToken (hash : String → UInt32) (b : ObjectHashingDifferentiation)
    (d : ObjectDifferentiationPair) : UInt32 :=
  hash (b.message d)

def Agree (b : ObjectHashingDifferentiation) (d d' : ObjectDifferentiationPair) : Prop :=
  (b.useOperationType = true → d.operationType = d'.operationType) ∧
  (b.useOperationContext = true → d.operationContext = d'.operationContext)

theorem message_eq_iff {b : ObjectHashingDifferentiation} (hb : b.Bound)
    {d d' : ObjectDifferentiationPair} : b.message d = b.message d' ↔ b.Agree d d' := by
  obtain ⟨t, c, f⟩ := b
  simp only [Bound] at hb
  subst hb
  cases t <;> cases c <;>
    simp [message, Agree, generateBuilder, ObjectBuilder.message, decimal_inj, decimal_bar_inj]

theorem buildDifferentiationToken_congr {hash : String → UInt32}
    {b : ObjectHashingDifferentiation} (hb : b.Bound) {d d' : ObjectDifferentiationPair}
    (h : b.Agree d d') :
    b.buildDifferentiationToken hash d = b.buildDifferentiationToken hash d' :=
  congrArg hash ((message_eq_iff hb).mpr h)

end ObjectHashingDifferentiation

end Paio
