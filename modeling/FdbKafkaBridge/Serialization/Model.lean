import FdbKafkaBridge.Serialization.Errors

/-!
# Inputs and output values

`serialization/model.py`: the range limits, native mutations as the serializer is given them, and
the immutable values that the deserializer returns.
-/

namespace FdbKafkaBridge.Serialization

open Protobuf (Bytes)

/-- `MutationType.CLEAR_RANGE`, the only declared type code that is treated specially. -/
def clearRangeCode : ℕ := 1

/-- Native `uint8_t`. -/
def maxTypeCode : ℕ := 255

/-- Native `int64_t` commit version. -/
def maxVersion : ℕ := 2 ^ 63 - 1

/-- Proto `uint32`. -/
def maxSequenceNo : ℕ := 2 ^ 32 - 1

/-- Proto `uint32`. -/
def maxTotalMutations : ℕ := 2 ^ 32 - 1

/-- 9999-12-31T23:59:59.999999999Z. -/
def maxBridgeTimestampNs : ℕ := 253402300799999999999

/-- A valid native mutation as FDB CDC delivers it: a type code of one byte, the key (or begin
key) and the value (or end key). -/
structure NativeMutation where
  type : Fin 256
  param1 : Bytes
  param2 : Bytes
  deriving DecidableEq, Repr

/-- Whatever a caller passes for a native mutation: an object whose attributes may be missing or
have any type. -/
structure PyMutation where
  typeName : String
  type : Option PyVal
  param1 : Option PyVal
  param2 : Option PyVal
  deriving DecidableEq, Repr

/-- A native mutation as the FDB binding hands it over. -/
def NativeMutation.toPy (m : NativeMutation) : PyMutation :=
  { typeName := "CdcMutation"
    type := some (.int m.type.val)
    param1 := some (.bytes m.param1)
    param2 := some (.bytes m.param2) }

/-- `p` is a valid native mutation with the content of `m`. Its type code may be a member of an `int`
subclass, such as `MutationType`. -/
structure PyMutation.Represents (p : PyMutation) (m : NativeMutation) : Prop where
  type : p.type = some (.int m.type.val) ∨ ∃ name, p.type = some (.intSubclass name m.type.val)
  param1 : p.param1 = some (.bytes m.param1)
  param2 : p.param2 = some (.bytes m.param2)

/-- The `mutations` argument: an iterable, with the elements it yields, or anything else. -/
inductive PyIterable
  | items (ms : List PyMutation)
  | notIterable (typeName : String)
  deriving DecidableEq, Repr

/-- Identity of a mutation on the wire. -/
structure VersionIndex where
  fdbVersion : ℕ
  sequenceNo : ℕ
  deriving DecidableEq, Repr

/-- A native mutation tagged with its version index. -/
structure Mutation where
  type : ℕ
  param1 : Bytes
  param2 : Bytes
  versionIndex : VersionIndex
  deriving DecidableEq, Repr

/-- The body of a deserialized record: `Mutation | MutationBatch | VersionEnd`. -/
inductive RecordBody
  | mutation (m : Mutation)
  | mutationBatch (mutations : List Mutation)
  | versionEnd (fdbVersion totalMutations : ℕ) (bridgeTimestampNs : Option ℤ)
  deriving DecidableEq, Repr

/-- One deserialized record. -/
structure Record where
  streamName : PyStr
  bridgeTimestampNs : Option ℤ
  body : RecordBody
  deriving DecidableEq, Repr

/-- `VersionIndex` as an f-string shows it. -/
def VersionIndex.repr (v : VersionIndex) : String :=
  "VersionIndex(fdb_version=" ++ toString v.fdbVersion ++ ", sequence_no=" ++
    toString v.sequenceNo ++ ")"

/-- The checked values `(type, param1, param2)` of a native mutation. -/
def NativeMutation.parts (m : NativeMutation) : ℕ × Bytes × Bytes := (m.type, m.param1, m.param2)

/-- The mutation `m` at version index `(fdbVersion, sequenceNo)`. -/
def NativeMutation.tagged (m : NativeMutation) (fdbVersion sequenceNo : ℕ) : Mutation :=
  ⟨m.type, m.param1, m.param2, ⟨fdbVersion, sequenceNo⟩⟩

/-- The mutations `ms` at consecutive version indexes from `(fdbVersion, first)` on. -/
def taggedFrom (fdbVersion : ℕ) : ℕ → List NativeMutation → List Mutation
  | _, [] => []
  | first, m :: ms => m.tagged fdbVersion first :: taggedFrom fdbVersion (first + 1) ms

theorem NativeMutation.toPy_represents (m : NativeMutation) : m.toPy.Represents m :=
  ⟨.inl rfl, rfl, rfl⟩

@[simp] theorem length_taggedFrom (fdbVersion first : ℕ) (ms : List NativeMutation) :
    (taggedFrom fdbVersion first ms).length = ms.length := by
  induction ms generalizing first with
  | nil => rfl
  | cons m ms ih => simp [taggedFrom, ih]

theorem taggedFrom_append (fdbVersion first : ℕ) (ms ms' : List NativeMutation) :
    taggedFrom fdbVersion first (ms ++ ms') =
      taggedFrom fdbVersion first ms ++ taggedFrom fdbVersion (first + ms.length) ms' := by
  induction ms generalizing first with
  | nil => rfl
  | cons m ms ih => simp [taggedFrom, ih, Nat.add_assoc, Nat.add_comm 1]

theorem take_taggedFrom (fdbVersion first b : ℕ) (ms : List NativeMutation) :
    (taggedFrom fdbVersion first ms).take b = taggedFrom fdbVersion first (ms.take b) := by
  induction ms generalizing first b with
  | nil => simp [taggedFrom]
  | cons m ms ih =>
    cases b with
    | zero => rfl
    | succ b => simp [taggedFrom, ih]

theorem drop_taggedFrom (fdbVersion first a : ℕ) (ms : List NativeMutation) :
    (taggedFrom fdbVersion first ms).drop a = taggedFrom fdbVersion (first + a) (ms.drop a) := by
  induction ms generalizing first a with
  | nil => simp [taggedFrom]
  | cons m ms ih =>
    cases a with
    | zero => rfl
    | succ a => simp [taggedFrom, ih, Nat.add_assoc, Nat.add_comm 1]

theorem getElem?_taggedFrom (fdbVersion first i : ℕ) (ms : List NativeMutation) :
    (taggedFrom fdbVersion first ms)[i]? = ms[i]?.map (·.tagged fdbVersion (first + i)) := by
  induction ms generalizing first i with
  | nil => rfl
  | cons m ms ih =>
    cases i with
    | zero => rfl
    | succ i => simp [taggedFrom, ih, Nat.add_assoc, Nat.add_comm 1]

end FdbKafkaBridge.Serialization
