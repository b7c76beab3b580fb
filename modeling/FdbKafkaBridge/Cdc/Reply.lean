import FdbKafkaBridge.Native
import FdbKafkaBridge.Serialization.VersionGroup

/-!
# The records of one native reply

The part of `FDBMutationListener.poll_records` between the native reply and the records: each
version group in order, then a version end for the watermark when it is past the last group.
-/

namespace FdbKafkaBridge

open Protobuf (Bytes)
open Serialization

/-- The loop over the version groups, with what has been serialized and the version of the last
group so far. -/
def serializeGroups (streamName : PyStr) (maxRecordBytes : ℤ) (timestampNs : PyVal) :
    List CdcVersionGroup → List Bytes × ℤ → Except SerializationError (List Bytes × ℤ)
  | [], acc => .ok acc
  | group :: rest, acc => do
    let records ← serializeVersionGroup group.mutations (.int group.version) (.int maxRecordBytes)
      (.str streamName) timestampNs
    serializeGroups streamName maxRecordBytes timestampNs rest
      (acc.1 ++ records, group.version)

/-- The version end of a watermark past the last group. -/
def serializeWatermark (streamName : PyStr) (maxRecordBytes : ℤ) (timestampNs : PyVal)
    (watermark : ℤ) : Except SerializationError Bytes := do
  let record ← serializeVersionEnd (.int watermark) (.int 0) (.str streamName) timestampNs
  if (record.length : ℤ) > maxRecordBytes then
    throw (.recordTooLarge ("watermark version end of version " ++ toString watermark ++
      " needs a " ++ toString record.length ++ "-byte record; max_record_bytes is " ++
      toString maxRecordBytes) none record.length maxRecordBytes)
  return record

/-- The serialized records of a reply. -/
def serializeReply (streamName : PyStr) (maxRecordBytes : ℤ) (timestampNs : PyVal)
    (reply : CdcReply) : Except SerializationError (List Bytes) := do
  let groups := reply.mutations.getD []
  let (serialized, lastGroupVersion) ←
    serializeGroups streamName maxRecordBytes timestampNs groups ([], -1)
  let watermark := reply.lastConsumedVersion.getD (-1)
  if watermark ≥ 0 ∧ watermark > lastGroupVersion then do
    let record ← serializeWatermark streamName maxRecordBytes timestampNs watermark
    return serialized ++ [record]
  else return serialized

/-- `[FDBMutationRecord.FromString(data) for data in serialized]`. -/
def parseRecords : List Bytes → Except PyExc (List FDBMutationRecord)
  | [] => .ok []
  | data :: rest => do
    match FDBMutationRecord.parseFromString data with
    | none => throw ⟨.other "DecodeError" none, "Error parsing message"⟩
    | some record =>
      let records ← parseRecords rest
      return record :: records

/-- The records that `poll_records` makes of a reply. -/
def recordsOfReply (streamName : PyStr) (maxRecordBytes : ℤ) (timestampNs : PyVal)
    (reply : CdcReply) : Except PyExc (List FDBMutationRecord) :=
  match serializeReply streamName maxRecordBytes timestampNs reply with
  | .error e => .error (.serialization e)
  | .ok serialized => parseRecords serialized

/-- The bytes that `produce` hands to the native producer. -/
def payloads (records : List FDBMutationRecord) : List Bytes :=
  records.map FDBMutationRecord.serializeToString

end FdbKafkaBridge
