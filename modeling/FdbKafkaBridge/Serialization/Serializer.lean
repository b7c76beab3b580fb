import FdbKafkaBridge.Serialization.Checks
import FdbKafkaBridge.Serialization.Wire

/-!
# Native CDC mutations to `FDBMutationRecord` bytes

`serialization/serializer.py`.
-/

namespace FdbKafkaBridge.Serialization

open Protobuf (Bytes)

/-- Serialize one native mutation as one record. -/
def serializeMutation (mutation : PyMutation) (fdbVersion sequenceNo streamName
    bridgeTimestampNs : PyVal) : Except SerializationError Bytes := do
  let fdbVersion ← Checks.fdbVersion fdbVersion
  let sequenceNo ← Checks.sequenceNo sequenceNo "sequence_no"
  let (streamName, bridgeTimestampNs) ← Checks.envelope streamName bridgeTimestampNs
  let native ← Checks.native mutation none
  return Wire.record streamName bridgeTimestampNs
    (some (.mutation (Wire.mutationMessage native fdbVersion sequenceNo)))

/-- Serialize a contiguous slice of one version group as one batch record. Mutation `i` gets version
index `(fdbVersion, firstSequenceNo + i)`. -/
def serializeBatch (mutations : PyIterable) (fdbVersion firstSequenceNo streamName
    bridgeTimestampNs : PyVal) : Except SerializationError Bytes := do
  let fdbVersion ← Checks.fdbVersion fdbVersion
  let firstSequenceNo ← Checks.sequenceNo firstSequenceNo "first_sequence_no"
  let (streamName, bridgeTimestampNs) ← Checks.envelope streamName bridgeTimestampNs
  let natives ← Checks.natives mutations firstSequenceNo
  -- an empty batch carries no version, so a reader cannot tell which group it belongs to
  if natives = [] then
    throw (.inputValue "mutations must yield at least one native mutation" "mutations" none)
  return Wire.record streamName bridgeTimestampNs
    (some (.batch ⟨Wire.mutationMessages fdbVersion firstSequenceNo natives⟩))

/-- Serialize the version end that closes the group at `fdbVersion`. -/
def serializeVersionEnd (fdbVersion totalMutations streamName bridgeTimestampNs : PyVal) :
    Except SerializationError Bytes := do
  let fdbVersion ← Checks.fdbVersion fdbVersion
  let totalMutations ← Checks.totalMutations totalMutations
  let (streamName, bridgeTimestampNs) ← Checks.envelope streamName bridgeTimestampNs
  let timestamp := Wire.timestamp bridgeTimestampNs
  return Wire.record streamName bridgeTimestampNs
    (some (.versionEnd ⟨fdbVersion, totalMutations, some timestamp⟩))

end FdbKafkaBridge.Serialization
