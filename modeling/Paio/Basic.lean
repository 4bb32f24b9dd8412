import Mathlib.Data.Finmap

/-!
# Paio.Basic

The vocabulary of the model: the statuses that calls return, the ways in which a call fails to
come back, the conversions between machine integers, the compile-time options and the
classifiers that a request carries.

* `Fault`: a call that never comes back in the model. `outOfBounds` is an access to a vector
  element that does not exist (undefined behaviour of the source), `outOfFuel` a loop that was
  still running when the fuel of the model ran out.
* `Completion`: a call that comes back, with a status or with an exception.
* `Clock`: the readings of `system_clock::now`, in microseconds, in the order in which one call
  makes them.
-/

namespace Paio

inductive Fault where
  | outOfBounds
  | outOfFuel
  deriving DecidableEq, Repr

/-- The status codes of `PStatus`. -/
inductive PStatus where
  | ok
  | notFound
  | notSupported
  | error
  | enforced
  | noStatus
  deriving DecidableEq, Repr

def PStatus.isOk (s : PStatus) : Bool := s = .ok

def PStatus.isError (s : PStatus) : Bool := s = .error

@[simp] theorem PStatus.isOk_iff {s : PStatus} : s.isOk = true ↔ s = .ok := by
  simp [PStatus.isOk]

inductive Completion where
  | returned (status : PStatus)
  | threw (what : String)
  deriving DecidableEq, Repr

abbrev Clock := Nat → Int

/-! ## Conversions -/

/-- `long` or `int` to `uint32_t`. -/
def toUInt32 (x : Int) : UInt32 := UInt32.ofInt x

theorem toUInt32_natCast (n : Nat) : toUInt32 n = UInt32.ofNat n := by
  apply UInt32.toNat_inj.mp
  rw [toUInt32, UInt32.ofInt, UInt32.toNat_ofNat', UInt32.toNat_ofNat']
  omega

/-- `long` or `size_t` to `int`: two's complement on 32 bits. -/
def toInt32 (x : Int) : Int := x.bmod (2 ^ 32)

theorem toInt32_natCast {n : Nat} (h : n < 2 ^ 31) : toInt32 n = n := by
  unfold toInt32
  rw [Int.bmod_eq_of_le] <;> omega

/-- `uint64_t` to `long`: two's complement on 64 bits. -/
def toLong (x : UInt64) : Int := x.toInt64.toInt

/-- The value with which the registries answer that an identifier has no token,
`static_cast<diff_token_t> (-1)`. -/
def noToken : UInt32 := toUInt32 (-1)

/-- `std::unordered_map`: a finite map whose iteration order is not part of its value. -/
abbrev UnorderedMap (κ ν : Type) := Finmap fun _ : κ => ν

/-! ## Options and classifiers -/

inductive ChannelMode where
  | fastPath
  | queueing
  deriving DecidableEq, Repr

inductive EnforcementObjectType where
  | drl
  | noop
  deriving DecidableEq, Repr

/-- `static_cast<EnforcementObjectType>` of a `long`: the value is first reduced to an `int`;
`none` is a value that names no enumerator. -/
def EnforcementObjectType.ofLong (x : Int) : Option EnforcementObjectType :=
  if toInt32 x = 1 then some .drl else if toInt32 x = 0 then some .noop else none

inductive ContextType where
  | paioGeneral
  | posix
  | posixMeta
  | lsmKvsSimple
  | lsmKvsDetailed
  | kvs
  deriving DecidableEq, Repr

inductive StatisticMetric where
  | counter
  | throughput
  deriving DecidableEq, Repr

inductive ClassifierType where
  | operationType
  | operationContext
  deriving DecidableEq, Repr

/-- The compile-time options of `options.hpp` that the modelled code reads. The defaults are the
values the source ships with. -/
structure Options where
  channelMode : ChannelMode := .fastPath
  defineDefaultObjectDifferentiationOnCreateChannel : Bool := true
  channelDifferentiationWorkflow : Bool := false
  channelDifferentiationOperationType : Bool := false
  channelDifferentiationOperationContext : Bool := true
  objectDifferentiationOperationType : Bool := false
  objectDifferentiationOperationContext : Bool := false
  channelStatisticCollection : Bool := true
  objectStatisticCollection : Bool := false
  statisticMetric : StatisticMetric := .throughput
  statisticClassifier : ClassifierType := .operationContext
  contextType : ContextType := .paioGeneral
  deriving DecidableEq, Repr

/-- The classifiers of a request: `long` workflow, `int` type, context and operation count. -/
structure Context where
  workflowId : Int := -1
  operationType : Int := 0
  operationContext : Int := 0
  operationSize : UInt64 := 0
  totalOperations : Int := 0
  deriving DecidableEq, Repr

/-- `PAIO_GENERAL::no_op`. -/
def noOp : Int := 0

end Paio
