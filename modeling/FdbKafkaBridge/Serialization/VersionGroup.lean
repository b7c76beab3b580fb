import FdbKafkaBridge.Serialization.Serializer

/-!
# A whole version group as its ordered record sequence

`serialization/version_group.py`. The slicing loop decides where records end from computed sizes;
the records themselves are built afterwards from the list of slices.
-/

namespace FdbKafkaBridge.Serialization

open Protobuf (Bytes)

/-- `_varint_bytes`: `max(1, (value.bit_length() + 6) // 7)`. -/
def varintBytes (value : ℕ) : ℕ := max 1 ((value.size + 6) / 7)

/-- `_tag_bytes` of the field with this number: the varint of `field_number << 3 | wire_type`. -/
def tagBytes (number : ℕ) : ℕ := varintBytes (number * 8)

/-- The tag of `FDBMutationRecord.batch`. -/
def batchTagBytes : ℕ := tagBytes 5

/-- The tag of `FDBMutationBatch.mutations`. -/
def mutationsTagBytes : ℕ := tagBytes 1

/-- Size of a length-delimited field: tag, length varint, payload. -/
def framedBytes (tagBytes payloadBytes : ℕ) : ℕ :=
  tagBytes + varintBytes payloadBytes + payloadBytes

/-- The variables of the slicing loop. -/
structure SliceState where
  slices : List (ℕ × ℕ)
  start : ℕ
  batchBytes : ℕ
  deriving DecidableEq, Repr

/-- The error of a mutation that fits no record even alone. -/
def tooLargeAlone (i fdbVersion alone : ℕ) (maxRecordBytes : ℤ) : SerializationError :=
  .recordTooLarge ("mutation at position " ++ toString i ++ " of version " ++ toString fdbVersion ++
    " needs a " ++ toString alone ++ "-byte record; max_record_bytes is " ++
    toString maxRecordBytes) (some i) alone maxRecordBytes

/-- The check of a mutation that starts a slice. -/
def checkAlone (i fdbVersion alone : ℕ) (maxRecordBytes : ℤ) : Except SerializationError Unit :=
  if (alone : ℤ) > maxRecordBytes then .error (tooLargeAlone i fdbVersion alone maxRecordBytes)
  else .ok ()

/-- Closes the open slice when a record of `grown` bytes would be over the budget. -/
def closeSlice (maxRecordBytes : ℤ) (grown i : ℕ) (s : SliceState) : SliceState :=
  if s.batchBytes ≠ 0 ∧ (grown : ℤ) > maxRecordBytes then
    { slices := s.slices ++ [(s.start, i)], start := i, batchBytes := 0 }
  else s

/-- One iteration of the slicing loop, at position `i`. -/
def sliceStep (fdbVersion envelopeBytes : ℕ) (maxRecordBytes : ℤ) (i : ℕ) (message : FDBMutation)
    (s : SliceState) : Except SerializationError SliceState := do
  let mutationBytes := framedBytes mutationsTagBytes message.serialize.length
  let grown := envelopeBytes + framedBytes batchTagBytes (s.batchBytes + mutationBytes)
  let s := closeSlice maxRecordBytes grown i s
  let alone := envelopeBytes + framedBytes batchTagBytes mutationBytes
  (if s.batchBytes = 0 then checkAlone i fdbVersion alone maxRecordBytes else .ok ())
  return { s with batchBytes := s.batchBytes + mutationBytes }

/-- The slicing loop over the messages from position `i` on. -/
def sliceLoop (fdbVersion envelopeBytes : ℕ) (maxRecordBytes : ℤ) :
    ℕ → List FDBMutation → SliceState → Except SerializationError SliceState
  | _, [], s => .ok s
  | i, message :: rest, s => do
    let s ← sliceStep fdbVersion envelopeBytes maxRecordBytes i message s
    sliceLoop fdbVersion envelopeBytes maxRecordBytes (i + 1) rest s

/-- All slices `(a, b)` of the messages: those the loop closed, and the one still open at the end
unless there are no messages. -/
def slicesOf (fdbVersion envelopeBytes : ℕ) (maxRecordBytes : ℤ) (messages : List FDBMutation) :
    Except SerializationError (List (ℕ × ℕ)) := do
  let s ← sliceLoop fdbVersion envelopeBytes maxRecordBytes 0 messages ⟨[], 0, 0⟩
  return if messages = [] then s.slices else s.slices ++ [(s.start, messages.length)]

/-- `messages[a:b]`. -/
def sliceMessages (messages : List FDBMutation) (slice : ℕ × ℕ) : List FDBMutation :=
  (messages.take slice.2).drop slice.1

/-- Serialize a whole version group as batch records plus its version end. A slice closes only when
the next mutation would push its record over `maxRecordBytes`. -/
def serializeVersionGroup (mutations : PyIterable) (fdbVersion maxRecordBytes streamName
    bridgeTimestampNs : PyVal) : Except SerializationError (List Bytes) := do
  let version ← Checks.fdbVersion fdbVersion
  let budget ← Checks.maxRecordBytes maxRecordBytes
  let (name, timestampNs) ← Checks.envelope streamName bridgeTimestampNs
  let natives ← Checks.natives mutations 0
  let messages := Wire.mutationMessages version 0 natives
  let envelopeBytes := (Wire.record name timestampNs none).length
  let slices ← slicesOf version envelopeBytes budget messages
  let versionEnd ← serializeVersionEnd fdbVersion (.int messages.length) streamName
    bridgeTimestampNs
  if (versionEnd.length : ℤ) > budget then
    throw (.recordTooLarge ("version end of version " ++ toString version ++ " needs a " ++
      toString versionEnd.length ++ "-byte record; max_record_bytes is " ++ toString budget)
      none versionEnd.length budget)
  let records := slices.map fun slice =>
    Wire.record name timestampNs (some (.batch ⟨sliceMessages messages slice⟩))
  return records ++ [versionEnd]

end FdbKafkaBridge.Serialization
