import FdbKafkaBridge.Serialization.Checks
import FdbKafkaBridge.Serialization.MutationsPb

/-!
# `FDBMutationRecord` bytes to immutable output values

`serialization/deserializer.py`.
-/

namespace FdbKafkaBridge.Serialization

/-- The wire field is `uint64` but a native commit version is `int64_t`. -/
def checkVersion (fdbVersion : ℕ) (index : Option ℕ) : Except SerializationError Unit :=
  if fdbVersion > maxVersion then
    .error (.recordDecode ("fdb_version " ++ toString fdbVersion ++
      Checks.atIndex index "batch position" ++ " exceeds " ++ toString maxVersion)
      .versionOutOfRange index)
  else .ok ()

/-- `_mutation`: the checked mutation of one message, at batch position `index`. -/
def mutationOf (message : FDBMutation) (index : Option ℕ) : Except SerializationError Mutation := do
  match message.versionIndex with
  | none =>
    throw (.recordDecode ("mutation" ++ Checks.atIndex index "batch position" ++
      " has no version index") .missingVersionIndex index)
  | some v =>
    let versionIndex : VersionIndex := ⟨v.fdbVersion, v.sequenceNo⟩
    checkVersion versionIndex.fdbVersion index
    match message.mutation with
    | none =>
      throw (.recordDecode ("mutation" ++ Checks.atIndex index "batch position" ++ " " ++
        versionIndex.repr ++ " has no mutation arm") .noMutationArm index)
    | some (.clearRange clear) =>
      -- the arm has no type field, so the type code is synthesised
      return ⟨clearRangeCode, clear.beginKey, clear.endKey, versionIndex⟩
    | some (.singleKeyMutation single) =>
      let typeCode := single.mutationType
      if ¬ (0 ≤ typeCode ∧ typeCode ≤ maxTypeCode) then
        throw (.recordDecode ("mutation" ++ Checks.atIndex index "batch position" ++ " " ++
          versionIndex.repr ++ " has type code " ++ toString typeCode ++ ", outside 0.." ++
          toString maxTypeCode) .typeCodeOutOfRange index)
      return ⟨typeCode.toNat, single.key, single.value, versionIndex⟩

/-- The first pass of `_batch`: every element's own checks, from position `i` on. -/
def mutationsFrom : ℕ → List FDBMutation → Except SerializationError (List Mutation)
  | _, [] => .ok []
  | i, message :: rest => do
    let m ← mutationOf message (some i)
    let ms ← mutationsFrom (i + 1) rest
    return m :: ms

/-- The second pass of `_batch`: element `i` continues the run that starts at `first`. -/
def checkRun (first : VersionIndex) : ℕ → List Mutation → Except SerializationError Unit
  | _, [] => .ok ()
  | i, m :: rest => do
    if m.versionIndex ≠ ⟨first.fdbVersion, first.sequenceNo + i⟩ then
      throw (.recordDecode ("batch position " ++ toString i ++ " has " ++ m.versionIndex.repr ++
        "; the batch starts at " ++ first.repr) .inconsistentBatch (some i))
    checkRun first (i + 1) rest

/-- `_batch`. -/
def batchOf (message : FDBMutationBatch) : Except SerializationError (List Mutation) := do
  let mutations ← mutationsFrom 0 message.mutations
  match mutations with
  | [] => throw (.recordDecode "batch has zero mutations" .emptyBatch none)
  | m :: _ =>
    checkRun m.versionIndex 0 mutations
    return mutations

/-- `_bridge_timestamp_ns`: the two fields as they are, never range-checked. -/
def timestampNs (timestamp : Option Timestamp) : Option ℤ :=
  timestamp.map fun t => t.seconds * 10 ^ 9 + t.nanos

/-- `_body`. -/
def bodyOf (message : FDBMutationRecord) : Except SerializationError RecordBody := do
  match message.record with
  | none => throw (.recordDecode "record has no record body" .noRecordArm none)
  | some (.batch batch) => return .mutationBatch (← batchOf batch)
  | some (.versionEnd versionEnd) =>
    checkVersion versionEnd.fdbVersion none
    return .versionEnd versionEnd.fdbVersion versionEnd.totalMutations
      (timestampNs versionEnd.bridgeTimestamp)
  | some (.mutation mutation) => return .mutation (← mutationOf mutation none)

/-- The `Record` of a parsed message. -/
def recordOf (message : FDBMutationRecord) : Except SerializationError Record := do
  let body ← bodyOf message
  return { streamName := PyStr.ofChars message.streamName
           bridgeTimestampNs := timestampNs message.bridgeTimestamp
           body := body }

/-- Parse one Kafka record value. -/
def deserializeRecord (data : PyVal) : Except SerializationError Record :=
  match data with
  | .bytes bytes =>
    match FDBMutationRecord.parseFromString bytes with
    | none =>
      .error (.recordDecode (toString bytes.length ++
        " bytes are not a parseable FDBMutationRecord") .malformedWire none)
    | some message => recordOf message
  | _ => .error (.inputType ("data must be bytes, got " ++ data.typeName) "data" none)

end FdbKafkaBridge.Serialization
