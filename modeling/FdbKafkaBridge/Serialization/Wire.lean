import FdbKafkaBridge.Serialization.Model
import FdbKafkaBridge.Serialization.MutationsPb

/-!
# Protobuf messages built from checked inputs

`serialization/_wire.py`. Nothing here validates: every argument has passed `Checks`.
-/

namespace FdbKafkaBridge.Serialization.Wire

open Protobuf (Bytes)

/-- The exact `Timestamp` of integer ns since the Unix epoch. -/
def timestamp (bridgeTimestampNs : ℕ) : Timestamp :=
  ⟨(bridgeTimestampNs / 10 ^ 9 : ℕ), (bridgeTimestampNs % 10 ^ 9 : ℕ)⟩

/-- An `FDBMutationRecord`'s bytes: the envelope plus the `body` oneof, if any. -/
def record (streamName : List Char) (bridgeTimestampNs : ℕ) (body : Option RecordArm) : Bytes :=
  FDBMutationRecord.serializeToString
    { streamName := streamName
      bridgeTimestamp := some (timestamp bridgeTimestampNs)
      record := body }

/-- One mutation at version index `(fdbVersion, sequenceNo)`. -/
def mutationMessage (native : ℕ × Bytes × Bytes) (fdbVersion sequenceNo : ℕ) : FDBMutation :=
  let (typeCode, param1, param2) := native
  let versionIndex : FDBVersionIndex := ⟨fdbVersion, sequenceNo⟩
  if typeCode = clearRangeCode then
    { versionIndex := some versionIndex
      mutation := some (.clearRange ⟨param1, param2⟩) }
  else
    { versionIndex := some versionIndex
      mutation := some (.singleKeyMutation ⟨param1, param2, typeCode⟩) }

/-- Mutation `i` at version index `(fdbVersion, firstSequenceNo + i)`. -/
def mutationMessages (fdbVersion : ℕ) : ℕ → List (ℕ × Bytes × Bytes) → List FDBMutation
  | _, [] => []
  | firstSequenceNo, native :: rest =>
    mutationMessage native fdbVersion firstSequenceNo ::
      mutationMessages fdbVersion (firstSequenceNo + 1) rest

theorem mutationMessage_clearRange {m : NativeMutation} (h : m.type.val = clearRangeCode)
    (fdbVersion sequenceNo : ℕ) :
    mutationMessage m.parts fdbVersion sequenceNo =
      ⟨some ⟨fdbVersion, sequenceNo⟩, some (.clearRange ⟨m.param1, m.param2⟩)⟩ :=
  if_pos h

theorem mutationMessage_singleKey {m : NativeMutation} (h : m.type.val ≠ clearRangeCode)
    (fdbVersion sequenceNo : ℕ) :
    mutationMessage m.parts fdbVersion sequenceNo =
      ⟨some ⟨fdbVersion, sequenceNo⟩,
        some (.singleKeyMutation ⟨m.param1, m.param2, m.type.val⟩)⟩ :=
  if_neg h

@[simp] theorem length_mutationMessages (fdbVersion first : ℕ) (natives : List (ℕ × Bytes × Bytes)) :
    (mutationMessages fdbVersion first natives).length = natives.length := by
  induction natives generalizing first with
  | nil => rfl
  | cons n ns ih => simp [mutationMessages, ih]

theorem take_mutationMessages (fdbVersion first b : ℕ) (natives : List (ℕ × Bytes × Bytes)) :
    (mutationMessages fdbVersion first natives).take b =
      mutationMessages fdbVersion first (natives.take b) := by
  induction natives generalizing first b with
  | nil => simp [mutationMessages]
  | cons n ns ih =>
    cases b with
    | zero => rfl
    | succ b => simp [mutationMessages, ih]

theorem drop_mutationMessages (fdbVersion first a : ℕ) (natives : List (ℕ × Bytes × Bytes)) :
    (mutationMessages fdbVersion first natives).drop a =
      mutationMessages fdbVersion (first + a) (natives.drop a) := by
  induction natives generalizing first a with
  | nil => simp [mutationMessages]
  | cons n ns ih =>
    cases a with
    | zero => rfl
    | succ a => simp [mutationMessages, ih, Nat.add_assoc, Nat.add_comm 1]

theorem getElem?_mutationMessages (fdbVersion first i : ℕ) (natives : List (ℕ × Bytes × Bytes)) :
    (mutationMessages fdbVersion first natives)[i]? =
      natives[i]?.map fun native => mutationMessage native fdbVersion (first + i) := by
  induction natives generalizing first i with
  | nil => rfl
  | cons n ns ih =>
    cases i with
    | zero => rfl
    | succ i => simp [mutationMessages, ih, Nat.add_assoc, Nat.add_comm 1]

end FdbKafkaBridge.Serialization.Wire
