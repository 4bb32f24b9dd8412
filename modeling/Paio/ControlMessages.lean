import Paio.EnforcementRules
import Paio.Library.FramedStream
import Paio.Library.StructLayout

/-!
# Paio.ControlMessages

The messages of the control plane as they stand in the socket: a `ControlOperation` and, for most
operations, one structure. The structures have the layout of a 64-bit little-endian machine, with
the padding written out as members of their own.

A payload is read into a structure that has its default values. When fewer bytes arrive than the
structure has, the rest keeps these values (`readInto`); bytes past its end are written out of its
bounds.
-/

namespace Paio

open StructLayout

/-! ## Members -/

theorem ofNat_uint32 (x : UInt32) : UInt32.ofNat (x.toNat % 256 ^ 4) = x := by
  have hlt : x.toNat < 256 ^ 4 := x.toNat_lt
  rw [Nat.mod_eq_of_lt hlt, UInt32.ofNat_toNat]

theorem ofNat_uint64 (x : UInt64) : UInt64.ofNat (x.toNat % 256 ^ 8) = x := by
  have hlt : x.toNat < 256 ^ 8 := x.toNat_lt
  rw [Nat.mod_eq_of_lt hlt, UInt64.ofNat_toNat]

/-! ## Operations -/

inductive ControlPlaneOperationType where
  | stageHandshake
  | markStageReady
  | collectStats
  | collectDetailedStats
  | createHskRule
  | createDifRule
  | createEnfRule
  | execHskRules
  | removeRule
  deriving DecidableEq, Repr

/-- `none` is a value that names no enumerator. -/
def ControlPlaneOperationType.ofInt : Int → Option ControlPlaneOperationType
  | 0 => some .stageHandshake
  | 1 => some .markStageReady
  | 2 => some .collectStats
  | 3 => some .collectDetailedStats
  | 4 => some .createHskRule
  | 5 => some .createDifRule
  | 6 => some .createEnfRule
  | 7 => some .execHskRules
  | 8 => some .removeRule
  | _ => none

inductive ControlPlaneOperationSubtype where
  | hskCreateChannel
  | hskCreateObject
  | collectStatsRocksdb
  | collectStatsTensorflow
  | collectStatsGlobal
  | collectStatsMetadataData
  | collectStatsMds
  | noOp
  deriving DecidableEq, Repr

def ControlPlaneOperationSubtype.ofInt : Int → Option ControlPlaneOperationSubtype
  | 1 => some .hskCreateChannel
  | 2 => some .hskCreateObject
  | 3 => some .collectStatsRocksdb
  | 4 => some .collectStatsTensorflow
  | 5 => some .collectStatsGlobal
  | 6 => some .collectStatsMetadataData
  | 7 => some .collectStatsMds
  | 0 => some .noOp
  | _ => none

/-- What the control plane asks for; all members are `int`. -/
structure ControlOperation where
  operationId : Int := 0
  operationType : Int := 0
  operationSubtype : Int := 0
  size : Int := 0
  deriving DecidableEq, Repr

namespace ControlOperation

def layout : Layout ControlOperation where
  sizes := [4, 4, 4, 4]
  members o := [o.operationId, o.operationType, o.operationSubtype, o.size].map (unsigned 32)
  ofMembers m :=
    { operationId := signed 32 (m.getD 0 0)
      operationType := signed 32 (m.getD 1 0)
      operationSubtype := signed 32 (m.getD 2 0)
      size := signed 32 (m.getD 3 0) }
  fits o := IsSigned 32 o.operationId ∧ IsSigned 32 o.operationType ∧
    IsSigned 32 o.operationSubtype ∧ IsSigned 32 o.size
  length_members _ := rfl
  ofMembers_members := by
    rintro ⟨operationId, operationType, operationSubtype, size⟩ ⟨hid, htype, hsubtype, hsize⟩
    rw [mk.injEq]
    exact ⟨signed_int hid, signed_int htype, signed_int hsubtype, signed_int hsize⟩

def type (o : ControlOperation) : Option ControlPlaneOperationType :=
  ControlPlaneOperationType.ofInt o.operationType

def subtype (o : ControlOperation) : Option ControlPlaneOperationSubtype :=
  ControlPlaneOperationSubtype.ofInt o.operationSubtype

end ControlOperation

/-! ## Payloads -/

structure StageReadyRaw where
  markStage : Bool := false
  deriving DecidableEq, Repr

def StageReadyRaw.layout : Layout StageReadyRaw where
  sizes := [1]
  members r := [r.markStage.toNat]
  ofMembers m := { markStage := m.getD 0 0 ≠ 0 }
  fits _ := True
  length_members _ := rfl
  ofMembers_members r _ := by cases r with | mk markStage => cases markStage <;> rfl

structure CollectStatisticsMetadata where
  channelId : Int := -1
  numberOfChannels : Int := 0
  deriving DecidableEq, Repr

namespace CollectStatisticsMetadata

def layout : Layout CollectStatisticsMetadata where
  sizes := [8, 4, 4]
  members r := [unsigned 64 r.channelId, unsigned 32 r.numberOfChannels, 0]
  ofMembers m :=
    { channelId := signed 64 (m.getD 0 0)
      numberOfChannels := signed 32 (m.getD 1 0) }
  fits r := IsSigned 64 r.channelId ∧ IsSigned 32 r.numberOfChannels
  length_members _ := rfl
  ofMembers_members := by
    rintro ⟨channelId, numberOfChannels⟩ ⟨hchannel, hnumber⟩
    rw [mk.injEq]
    exact ⟨signed_long hchannel, signed_int hnumber⟩

end CollectStatisticsMetadata

/-- The rule of a channel. The member `m_rule_type`, `1` by default, is not read. -/
structure HousekeepingCreateChannelRaw where
  ruleId : UInt64 := 0
  channelId : Int := -1
  contextDefinition : Int := 0
  workflowId : UInt32 := 0
  operationType : UInt32 := 0
  operationContext : UInt32 := 0
  deriving DecidableEq, Repr

namespace HousekeepingCreateChannelRaw

def layout : Layout HousekeepingCreateChannelRaw where
  sizes := [8, 4, 4, 8, 4, 4, 4, 4]
  members r := [r.ruleId.toNat, 1, 0, unsigned 64 r.channelId, unsigned 32 r.contextDefinition,
    r.workflowId.toNat, r.operationType.toNat, r.operationContext.toNat]
  ofMembers m :=
    { ruleId := UInt64.ofNat (m.getD 0 0)
      channelId := signed 64 (m.getD 3 0)
      contextDefinition := signed 32 (m.getD 4 0)
      workflowId := UInt32.ofNat (m.getD 5 0)
      operationType := UInt32.ofNat (m.getD 6 0)
      operationContext := UInt32.ofNat (m.getD 7 0) }
  fits r := IsSigned 64 r.channelId ∧ IsSigned 32 r.contextDefinition
  length_members _ := rfl
  ofMembers_members := by
    rintro ⟨ruleId, channelId, contextDefinition, workflowId, operationType, operationContext⟩
      ⟨hchannel, hcontext⟩
    rw [mk.injEq]
    exact ⟨ofNat_uint64 ruleId, signed_long hchannel, signed_int hcontext, ofNat_uint32 workflowId,
      ofNat_uint32 operationType, ofNat_uint32 operationContext⟩

/-- The rule that `create_housekeeping_rule` makes of the structure. -/
def rule (r : HousekeepingCreateChannelRaw) : HousekeepingRule where
  ruleId := r.ruleId
  ruleType := .createChannel
  channelId := r.channelId
  enforcementObjectId := -1
  properties := [r.contextDefinition, r.workflowId.toNat, r.operationType.toNat,
    r.operationContext.toNat]

end HousekeepingCreateChannelRaw

/-- The rule of an object. The member `m_rule_type`, `2` by default, is not read. -/
structure HousekeepingCreateObjectRaw where
  ruleId : Int := 0
  channelId : Int := -1
  enforcementObjectId : Int := -1
  contextDefinition : Int := 0
  operationType : UInt32 := 0
  operationContext : UInt32 := 0
  enforcementObjectType : Int := 0
  propertyFirst : Int := 0
  propertySecond : Int := 0
  deriving DecidableEq, Repr

namespace HousekeepingCreateObjectRaw

def layout : Layout HousekeepingCreateObjectRaw where
  sizes := [8, 4, 4, 8, 8, 4, 4, 4, 4, 8, 8, 8]
  members r := [unsigned 64 r.ruleId, 2, 0, unsigned 64 r.channelId,
    unsigned 64 r.enforcementObjectId, unsigned 32 r.contextDefinition, r.operationType.toNat,
    r.operationContext.toNat, 0, unsigned 64 r.enforcementObjectType, unsigned 64 r.propertyFirst,
    unsigned 64 r.propertySecond]
  ofMembers m :=
    { ruleId := signed 64 (m.getD 0 0)
      channelId := signed 64 (m.getD 3 0)
      enforcementObjectId := signed 64 (m.getD 4 0)
      contextDefinition := signed 32 (m.getD 5 0)
      operationType := UInt32.ofNat (m.getD 6 0)
      operationContext := UInt32.ofNat (m.getD 7 0)
      enforcementObjectType := signed 64 (m.getD 9 0)
      propertyFirst := signed 64 (m.getD 10 0)
      propertySecond := signed 64 (m.getD 11 0) }
  fits r := IsSigned 64 r.ruleId ∧ IsSigned 64 r.channelId ∧ IsSigned 64 r.enforcementObjectId ∧
    IsSigned 32 r.contextDefinition ∧ IsSigned 64 r.enforcementObjectType ∧
    IsSigned 64 r.propertyFirst ∧ IsSigned 64 r.propertySecond
  length_members _ := rfl
  ofMembers_members := by
    rintro ⟨ruleId, channelId, objectId, contextDefinition, operationType, operationContext, type,
      first, second⟩ ⟨hrule, hchannel, hobject, hcontext, htype, hfirst, hsecond⟩
    rw [mk.injEq]
    exact ⟨signed_long hrule, signed_long hchannel, signed_long hobject, signed_int hcontext,
      ofNat_uint32 operationType, ofNat_uint32 operationContext, signed_long htype,
      signed_long hfirst, signed_long hsecond⟩

def rule (r : HousekeepingCreateObjectRaw) : HousekeepingRule where
  ruleId := UInt64.ofInt r.ruleId
  ruleType := .createObject
  channelId := r.channelId
  enforcementObjectId := r.enforcementObjectId
  properties := [r.contextDefinition, r.operationType.toNat, r.operationContext.toNat,
    r.enforcementObjectType, r.propertyFirst, r.propertySecond]

end HousekeepingCreateObjectRaw

namespace EnforcementRuleRaw

def layout : Layout EnforcementRuleRaw where
  sizes := [8, 8, 8, 4, 4, 8, 8, 8]
  members r := [unsigned 64 r.ruleId, unsigned 64 r.channelId, unsigned 64 r.enforcementObjectId,
    unsigned 32 r.enforcementOperation, 0, unsigned 64 r.propertyFirst,
    unsigned 64 r.propertySecond, unsigned 64 r.propertyThird]
  ofMembers m :=
    { ruleId := signed 64 (m.getD 0 0)
      channelId := signed 64 (m.getD 1 0)
      enforcementObjectId := signed 64 (m.getD 2 0)
      enforcementOperation := signed 32 (m.getD 3 0)
      propertyFirst := signed 64 (m.getD 5 0)
      propertySecond := signed 64 (m.getD 6 0)
      propertyThird := signed 64 (m.getD 7 0) }
  fits r := IsSigned 64 r.ruleId ∧ IsSigned 64 r.channelId ∧ IsSigned 64 r.enforcementObjectId ∧
    IsSigned 32 r.enforcementOperation ∧ IsSigned 64 r.propertyFirst ∧
    IsSigned 64 r.propertySecond ∧ IsSigned 64 r.propertyThird
  length_members _ := rfl
  ofMembers_members := by
    rintro ⟨ruleId, channelId, objectId, operation, first, second, third⟩
      ⟨hrule, hchannel, hobject, hoperation, hfirst, hsecond, hthird⟩
    rw [mk.injEq]
    exact ⟨signed_long hrule, signed_long hchannel, signed_long hobject, signed_int hoperation,
      signed_long hfirst, signed_long hsecond, signed_long hthird⟩

end EnforcementRuleRaw

/-- `sizeof (StageHandshakeRaw)`: an address of 100 bytes and an `int`. -/
def stageHandshakeRawSize : Nat := 104

/-- `sizeof (DifferentiationRuleRaw)`. -/
def differentiationRuleRawSize : Nat := 48

/-- A structure with default values into which bytes were read. -/
def readInto {α : Type} (L : Layout α) (initial : α) (received : List UInt8) : Except Fault α :=
  if received.length ≤ L.size then .ok (L.decode (overlay received (L.encode initial)))
  else .error .outOfBounds

/-! ## Messages -/

/-- A header with what follows it. -/
abbrev Message := FramedStream.Frame UInt8

namespace ControlOperation

/-- The size of the structure that goes with the operation, `0` for operations without one. -/
def structureSize (o : ControlOperation) : Nat :=
  match o.type with
  | some .stageHandshake => stageHandshakeRawSize
  | some .markStageReady => StageReadyRaw.layout.size
  | some .collectStats => CollectStatisticsMetadata.layout.size
  | some .createHskRule =>
    match o.subtype with
    | some .hskCreateChannel => HousekeepingCreateChannelRaw.layout.size
    | some .hskCreateObject => HousekeepingCreateObjectRaw.layout.size
    | _ => 0
  | some .createDifRule => differentiationRuleRawSize
  | some .createEnfRule => EnforcementRuleRaw.layout.size
  | some .collectDetailedStats | some .execHskRules | some .removeRule | none => 0

/-- The bytes that the handler of the operation asks for, if it reads at all. A negative size is
more than a read can transfer: the call fails and nothing is read. -/
def payloadCount (o : ControlOperation) : Option Nat :=
  match o.type with
  | some .markStageReady | some .collectStats | some .createEnfRule => requested
  | some .createHskRule =>
    match o.subtype with
    | some .hskCreateChannel | some .hskCreateObject => requested
    | _ => none
  | _ => none
where
  requested : Option Nat := if 0 ≤ o.size then some o.size.toNat else none

end ControlOperation

namespace Message

def operation (m : Message) : ControlOperation := ControlOperation.layout.decode m.header

/-- A whole header, whose size is that of the operation's structure, and the structure. -/
structure WellFormed (m : Message) : Prop where
  header : m.header.length = ControlOperation.layout.size
  size : m.operation.size = m.operation.structureSize
  payload : m.payload.length = m.operation.structureSize

/-- The message of an operation. -/
def ofOperation (o : ControlOperation) (payload : List UInt8) : Message where
  header := ControlOperation.layout.encode o
  payload := payload

/-- The operation is read back from the header. -/
theorem operation_ofOperation {o : ControlOperation} (h : ControlOperation.layout.fits o)
    (payload : List UInt8) : (ofOperation o payload).operation = o :=
  ControlOperation.layout.decode_encode h

end Message

end Paio
