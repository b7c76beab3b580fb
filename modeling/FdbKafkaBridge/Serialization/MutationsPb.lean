import FdbKafkaBridge.Python

/-!
# The messages of `mutations.proto`

Each message type has its fields, the wire fields it serializes to (ascending by number, defaults
left out, submessages written when present), and the step that merges one parsed field into it. A
field with an unknown number or another wire type is skipped, as in the proto3 parsers.
-/

namespace FdbKafkaBridge.Serialization

open Protobuf

/-- `google.protobuf.Timestamp`. -/
structure Timestamp where
  seconds : ℤ
  nanos : ℤ
  deriving DecidableEq, Repr

structure FDBVersionIndex where
  fdbVersion : ℕ
  sequenceNo : ℕ
  deriving DecidableEq, Repr

/-- The message `VersionEnd`. -/
structure VersionEndMessage where
  fdbVersion : ℕ
  totalMutations : ℕ
  bridgeTimestamp : Option Timestamp
  deriving DecidableEq, Repr

structure FDBSingleKeyMutation where
  key : Bytes
  value : Bytes
  /-- An open enum: any `int32` parses. -/
  mutationType : ℤ
  deriving DecidableEq, Repr

structure FDBClearRange where
  beginKey : Bytes
  endKey : Bytes
  deriving DecidableEq, Repr

/-- The oneof `mutation` of `FDBMutation`. -/
inductive MutationArm
  | singleKeyMutation (m : FDBSingleKeyMutation)
  | clearRange (m : FDBClearRange)
  deriving DecidableEq, Repr

structure FDBMutation where
  versionIndex : Option FDBVersionIndex
  mutation : Option MutationArm
  deriving DecidableEq, Repr

structure FDBMutationBatch where
  mutations : List FDBMutation
  deriving DecidableEq, Repr

/-- The oneof `record` of `FDBMutationRecord`. -/
inductive RecordArm
  | mutation (m : FDBMutation)
  | versionEnd (m : VersionEndMessage)
  | batch (m : FDBMutationBatch)
  deriving DecidableEq, Repr

structure FDBMutationRecord where
  streamName : List Char
  bridgeTimestamp : Option Timestamp
  record : Option RecordArm
  deriving DecidableEq, Repr

/-! ## Default messages -/

def Timestamp.empty : Timestamp := ⟨0, 0⟩
def FDBVersionIndex.empty : FDBVersionIndex := ⟨0, 0⟩
def VersionEndMessage.empty : VersionEndMessage := ⟨0, 0, none⟩
def FDBSingleKeyMutation.empty : FDBSingleKeyMutation := ⟨[], [], 0⟩
def FDBClearRange.empty : FDBClearRange := ⟨[], []⟩
def FDBMutation.empty : FDBMutation := ⟨none, none⟩
def FDBMutationBatch.empty : FDBMutationBatch := ⟨[]⟩
def FDBMutationRecord.empty : FDBMutationRecord := ⟨[], none, none⟩

/-! ## `SerializeToString` -/

/-- An optional submessage field. -/
def optionalField {μ : Type} (number : ℕ) (m : Option μ) (serialize : μ → Bytes) : List Field :=
  match m with
  | none => []
  | some m => messageField number (serialize m)

def Timestamp.fields (m : Timestamp) : List Field :=
  intField 1 m.seconds ++ intField 2 m.nanos

def Timestamp.serialize (m : Timestamp) : Bytes := encodeFields m.fields

def FDBVersionIndex.fields (m : FDBVersionIndex) : List Field :=
  uintField 1 m.fdbVersion ++ uintField 2 m.sequenceNo

def FDBVersionIndex.serialize (m : FDBVersionIndex) : Bytes := encodeFields m.fields

def VersionEndMessage.fields (m : VersionEndMessage) : List Field :=
  uintField 1 m.fdbVersion ++ uintField 2 m.totalMutations ++
    optionalField 3 m.bridgeTimestamp Timestamp.serialize

def VersionEndMessage.serialize (m : VersionEndMessage) : Bytes := encodeFields m.fields

def FDBSingleKeyMutation.fields (m : FDBSingleKeyMutation) : List Field :=
  bytesField 1 m.key ++ bytesField 2 m.value ++ intField 3 m.mutationType

def FDBSingleKeyMutation.serialize (m : FDBSingleKeyMutation) : Bytes := encodeFields m.fields

def FDBClearRange.fields (m : FDBClearRange) : List Field :=
  bytesField 1 m.beginKey ++ bytesField 2 m.endKey

def FDBClearRange.serialize (m : FDBClearRange) : Bytes := encodeFields m.fields

def MutationArm.fields : MutationArm → List Field
  | .singleKeyMutation m => messageField 2 m.serialize
  | .clearRange m => messageField 3 m.serialize

def FDBMutation.fields (m : FDBMutation) : List Field :=
  optionalField 1 m.versionIndex FDBVersionIndex.serialize ++
    match m.mutation with
    | none => []
    | some arm => arm.fields

def FDBMutation.serialize (m : FDBMutation) : Bytes := encodeFields m.fields

def FDBMutationBatch.fields (m : FDBMutationBatch) : List Field :=
  m.mutations.flatMap fun mutation => messageField 1 mutation.serialize

def FDBMutationBatch.serialize (m : FDBMutationBatch) : Bytes := encodeFields m.fields

def RecordArm.fields : RecordArm → List Field
  | .mutation m => messageField 3 m.serialize
  | .versionEnd m => messageField 4 m.serialize
  | .batch m => messageField 5 m.serialize

def FDBMutationRecord.fields (m : FDBMutationRecord) : List Field :=
  bytesField 1 (encodeUtf8 m.streamName) ++
    optionalField 2 m.bridgeTimestamp Timestamp.serialize ++
    match m.record with
    | none => []
    | some arm => arm.fields

/-- `FDBMutationRecord.SerializeToString()`. -/
def FDBMutationRecord.serializeToString (m : FDBMutationRecord) : Bytes := encodeFields m.fields

/-! ## `ParseFromString`

A submessage field that is set already is merged; an arm of a oneof replaces another arm and is
merged into itself. -/

def Timestamp.step (m : Timestamp) : Field → Option Timestamp
  | ⟨1, .varint n⟩ => some { m with seconds := toInt64 n }
  | ⟨2, .varint n⟩ => some { m with nanos := toInt32 n }
  | _ => some m

def FDBVersionIndex.step (m : FDBVersionIndex) : Field → Option FDBVersionIndex
  | ⟨1, .varint n⟩ => some { m with fdbVersion := n }
  | ⟨2, .varint n⟩ => some { m with sequenceNo := toUInt32 n }
  | _ => some m

def VersionEndMessage.step (m : VersionEndMessage) : Field → Option VersionEndMessage
  | ⟨1, .varint n⟩ => some { m with fdbVersion := n }
  | ⟨2, .varint n⟩ => some { m with totalMutations := toUInt32 n }
  | ⟨3, .len payload⟩ =>
    (merge Timestamp.step (m.bridgeTimestamp.getD Timestamp.empty) payload).map fun t =>
      { m with bridgeTimestamp := some t }
  | _ => some m

def FDBSingleKeyMutation.step (m : FDBSingleKeyMutation) : Field → Option FDBSingleKeyMutation
  | ⟨1, .len payload⟩ => some { m with key := payload }
  | ⟨2, .len payload⟩ => some { m with value := payload }
  | ⟨3, .varint n⟩ => some { m with mutationType := toInt32 n }
  | _ => some m

def FDBClearRange.step (m : FDBClearRange) : Field → Option FDBClearRange
  | ⟨1, .len payload⟩ => some { m with beginKey := payload }
  | ⟨2, .len payload⟩ => some { m with endKey := payload }
  | _ => some m

/-- The message that a `single_key_mutation` field is merged into. -/
def singleKeyInit : Option MutationArm → FDBSingleKeyMutation
  | some (.singleKeyMutation m) => m
  | _ => .empty

/-- The message that a `clear_range` field is merged into. -/
def clearRangeInit : Option MutationArm → FDBClearRange
  | some (.clearRange m) => m
  | _ => .empty

def FDBMutation.step (m : FDBMutation) : Field → Option FDBMutation
  | ⟨1, .len payload⟩ =>
    (merge FDBVersionIndex.step (m.versionIndex.getD .empty) payload).map fun v =>
      { m with versionIndex := some v }
  | ⟨2, .len payload⟩ =>
    (merge FDBSingleKeyMutation.step (singleKeyInit m.mutation) payload).map fun s =>
      { m with mutation := some (.singleKeyMutation s) }
  | ⟨3, .len payload⟩ =>
    (merge FDBClearRange.step (clearRangeInit m.mutation) payload).map fun c =>
      { m with mutation := some (.clearRange c) }
  | _ => some m

def FDBMutationBatch.step (m : FDBMutationBatch) : Field → Option FDBMutationBatch
  | ⟨1, .len payload⟩ =>
    (merge FDBMutation.step .empty payload).map fun mutation =>
      { mutations := m.mutations ++ [mutation] }
  | _ => some m

/-- The message that a `mutation` field is merged into. -/
def mutationInit : Option RecordArm → FDBMutation
  | some (.mutation m) => m
  | _ => .empty

/-- The message that a `version_end` field is merged into. -/
def versionEndInit : Option RecordArm → VersionEndMessage
  | some (.versionEnd m) => m
  | _ => .empty

/-- The message that a `batch` field is merged into. -/
def batchInit : Option RecordArm → FDBMutationBatch
  | some (.batch m) => m
  | _ => .empty

def FDBMutationRecord.step (m : FDBMutationRecord) : Field → Option FDBMutationRecord
  | ⟨1, .len payload⟩ => (decodeUtf8 payload).map fun name => { m with streamName := name }
  | ⟨2, .len payload⟩ =>
    (merge Timestamp.step (m.bridgeTimestamp.getD .empty) payload).map fun t =>
      { m with bridgeTimestamp := some t }
  | ⟨3, .len payload⟩ =>
    (merge FDBMutation.step (mutationInit m.record) payload).map fun a =>
      { m with record := some (.mutation a) }
  | ⟨4, .len payload⟩ =>
    (merge VersionEndMessage.step (versionEndInit m.record) payload).map fun a =>
      { m with record := some (.versionEnd a) }
  | ⟨5, .len payload⟩ =>
    (merge FDBMutationBatch.step (batchInit m.record) payload).map fun a =>
      { m with record := some (.batch a) }
  | _ => some m

/-- `FDBMutationRecord.FromString(data)`, or nothing for a `DecodeError`. -/
def FDBMutationRecord.parseFromString (data : Bytes) : Option FDBMutationRecord :=
  merge FDBMutationRecord.step .empty data

end FdbKafkaBridge.Serialization
