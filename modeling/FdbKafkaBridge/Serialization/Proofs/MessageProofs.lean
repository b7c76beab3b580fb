import FdbKafkaBridge.Serialization.MutationsPb

/-!
# Parsing undoes serializing, message by message

A message is `Valid` when its scalars lie in the ranges that the wire types keep. Every valid
message is read back from the bytes it serializes to.
-/

namespace FdbKafkaBridge.Serialization

open Protobuf

/-- Validity of an optional part. -/
def OptionValid {μ : Type} (p : μ → Prop) (m : Option μ) : Prop := ∀ x, m = some x → p x

structure Timestamp.Valid (m : Timestamp) : Prop where
  seconds_nonneg : 0 ≤ m.seconds
  seconds_lt : m.seconds < 2 ^ 63
  nanos_nonneg : 0 ≤ m.nanos
  nanos_lt : m.nanos < 2 ^ 31

structure FDBVersionIndex.Valid (m : FDBVersionIndex) : Prop where
  fdbVersion_lt : m.fdbVersion < 2 ^ 64
  sequenceNo_lt : m.sequenceNo < 2 ^ 32

structure VersionEndMessage.Valid (m : VersionEndMessage) : Prop where
  fdbVersion_lt : m.fdbVersion < 2 ^ 64
  totalMutations_lt : m.totalMutations < 2 ^ 32
  bridgeTimestamp : OptionValid Timestamp.Valid m.bridgeTimestamp

structure FDBSingleKeyMutation.Valid (m : FDBSingleKeyMutation) : Prop where
  mutationType_nonneg : 0 ≤ m.mutationType
  mutationType_lt : m.mutationType < 2 ^ 31

def MutationArm.Valid : MutationArm → Prop
  | .singleKeyMutation m => m.Valid
  | .clearRange _ => True

structure FDBMutation.Valid (m : FDBMutation) : Prop where
  versionIndex : OptionValid FDBVersionIndex.Valid m.versionIndex
  mutation : OptionValid MutationArm.Valid m.mutation

def FDBMutationBatch.Valid (m : FDBMutationBatch) : Prop := ∀ x ∈ m.mutations, x.Valid

def RecordArm.Valid : RecordArm → Prop
  | .mutation m => m.Valid
  | .versionEnd m => m.Valid
  | .batch m => m.Valid

structure FDBMutationRecord.Valid (m : FDBMutationRecord) : Prop where
  bridgeTimestamp : OptionValid Timestamp.Valid m.bridgeTimestamp
  record : OptionValid RecordArm.Valid m.record

/-! ## The fields of every message are legal -/

theorem allValid_optionalField {μ : Type} {number : ℕ} (m : Option μ) (serialize : μ → Bytes)
    (h0 : 0 < number) (h1 : number < 2 ^ 29) : AllValid (optionalField number m serialize) := by
  cases m with
  | none => exact allValid_nil
  | some m => exact allValid_messageField h0 h1

theorem Timestamp.allValid_fields (m : Timestamp) : AllValid m.fields :=
  AllValid.append (allValid_intField (by decide) (by decide))
    (allValid_intField (by decide) (by decide))

theorem FDBVersionIndex.allValid_fields {m : FDBVersionIndex} (h : m.Valid) : AllValid m.fields := by
  have h2 := h.sequenceNo_lt
  exact AllValid.append (allValid_uintField (by decide) (by decide) h.fdbVersion_lt)
    (allValid_uintField (by decide) (by decide) (by omega))

theorem VersionEndMessage.allValid_fields {m : VersionEndMessage} (h : m.Valid) :
    AllValid m.fields := by
  have h2 := h.totalMutations_lt
  refine AllValid.append (AllValid.append ?_ ?_) (allValid_optionalField _ _ (by decide) (by decide))
  · exact allValid_uintField (by decide) (by decide) h.fdbVersion_lt
  · exact allValid_uintField (by decide) (by decide) (by omega)

theorem FDBSingleKeyMutation.allValid_fields (m : FDBSingleKeyMutation) : AllValid m.fields :=
  AllValid.append
    (AllValid.append (allValid_bytesField (by decide) (by decide))
      (allValid_bytesField (by decide) (by decide)))
    (allValid_intField (by decide) (by decide))

theorem FDBClearRange.allValid_fields (m : FDBClearRange) : AllValid m.fields :=
  AllValid.append (allValid_bytesField (by decide) (by decide))
    (allValid_bytesField (by decide) (by decide))

theorem MutationArm.allValid_fields (m : MutationArm) : AllValid m.fields := by
  cases m <;> exact allValid_messageField (by decide) (by decide)

theorem FDBMutation.allValid_fields (m : FDBMutation) : AllValid m.fields := by
  refine AllValid.append (allValid_optionalField _ _ (by decide) (by decide)) ?_
  cases m.mutation with
  | none => exact allValid_nil
  | some arm => exact arm.allValid_fields

theorem FDBMutationBatch.allValid_fields (m : FDBMutationBatch) : AllValid m.fields := by
  intro f hf
  obtain ⟨x, -, hx⟩ := List.mem_flatMap.1 hf
  exact allValid_messageField (by decide) (by decide) f hx

theorem RecordArm.allValid_fields (m : RecordArm) : AllValid m.fields := by
  cases m <;> exact allValid_messageField (by decide) (by decide)

theorem FDBMutationRecord.allValid_fields (m : FDBMutationRecord) : AllValid m.fields := by
  refine AllValid.append (AllValid.append (allValid_bytesField (by decide) (by decide))
    (allValid_optionalField _ _ (by decide) (by decide))) ?_
  cases m.record with
  | none => exact allValid_nil
  | some arm => exact arm.allValid_fields

/-! ## Round trips -/

theorem Timestamp.merge_serialize {m : Timestamp} (h : m.Valid) :
    merge Timestamp.step .empty m.serialize = some m := by
  obtain ⟨seconds, nanos⟩ := m
  obtain ⟨hs0, hs, hn0, hn⟩ := h
  rw [serialize, merge_encodeFields _ _ (allValid_fields _), fields,
    foldlM_fields_append (q := ⟨seconds, 0⟩)]
  · refine foldlM_uintField (fun _ => ?_) (fun h => ?_)
    · show some (Timestamp.mk seconds (toInt32 (nanos % 2 ^ 64).toNat)) = _
      rw [toInt32_of_lt hn0 hn]
    · have : nanos = 0 := by simp only at hn0 hn h; omega
      rw [this]
  · refine foldlM_uintField (fun _ => ?_) (fun h => ?_)
    · show some (Timestamp.mk (toInt64 (seconds % 2 ^ 64).toNat) 0) = _
      rw [toInt64_of_lt hs0 hs]
    · have : seconds = 0 := by simp only at hs0 hs h; omega
      rw [this]
      rfl

theorem FDBVersionIndex.merge_serialize {m : FDBVersionIndex} (h : m.Valid) :
    merge FDBVersionIndex.step .empty m.serialize = some m := by
  rw [serialize, merge_encodeFields _ _ (allValid_fields h), fields,
    foldlM_fields_append (q := ⟨m.fdbVersion, 0⟩)]
  · refine foldlM_uintField (fun _ => ?_) (fun h0 => ?_)
    · show some (FDBVersionIndex.mk m.fdbVersion (toUInt32 m.sequenceNo)) = _
      rw [toUInt32_of_lt h.sequenceNo_lt]
    · rw [← h0]
  · refine foldlM_uintField (fun _ => rfl) (fun h0 => ?_)
    rw [h0]
    rfl

theorem VersionEndMessage.merge_serialize {m : VersionEndMessage} (h : m.Valid) :
    merge VersionEndMessage.step .empty m.serialize = some m := by
  obtain ⟨fdbVersion, totalMutations, bridgeTimestamp⟩ := m
  have hfields := allValid_fields h
  rw [serialize, merge_encodeFields _ _ hfields, fields, List.append_assoc,
    foldlM_fields_append (q := ⟨fdbVersion, 0, none⟩),
    foldlM_fields_append (q := ⟨fdbVersion, totalMutations, none⟩)]
  · cases bridgeTimestamp with
    | none => rfl
    | some t =>
      refine foldlM_messageField ?_
      have ht := Timestamp.merge_serialize (h.bridgeTimestamp t rfl)
      simp [step, ht]
  · refine foldlM_uintField (fun _ => ?_) (fun h0 => ?_)
    · show some (VersionEndMessage.mk fdbVersion (toUInt32 totalMutations) none) = _
      rw [toUInt32_of_lt h.totalMutations_lt]
    · rw [show totalMutations = 0 from h0]
  · refine foldlM_uintField (fun _ => rfl) (fun h0 => ?_)
    rw [show fdbVersion = 0 from h0]
    rfl

theorem FDBSingleKeyMutation.merge_serialize {m : FDBSingleKeyMutation} (h : m.Valid) :
    merge FDBSingleKeyMutation.step .empty m.serialize = some m := by
  obtain ⟨key, value, mutationType⟩ := m
  obtain ⟨hm0, hm⟩ := h
  rw [serialize, merge_encodeFields _ _ (allValid_fields _), fields, List.append_assoc,
    foldlM_fields_append (q := ⟨key, [], 0⟩), foldlM_fields_append (q := ⟨key, value, 0⟩)]
  · refine foldlM_uintField (fun _ => ?_) (fun h => ?_)
    · show some (FDBSingleKeyMutation.mk key value (toInt32 (mutationType % 2 ^ 64).toNat)) = _
      rw [toInt32_of_lt hm0 hm]
    · have : mutationType = 0 := by simp only at hm0 hm h; omega
      rw [this]
  · refine foldlM_bytesField rfl (fun h0 => ?_)
    rw [show value = [] from h0]
  · refine foldlM_bytesField rfl (fun h0 => ?_)
    rw [show key = [] from h0]
    rfl

theorem FDBClearRange.merge_serialize (m : FDBClearRange) :
    merge FDBClearRange.step .empty m.serialize = some m := by
  rw [serialize, merge_encodeFields _ _ (allValid_fields _), fields,
    foldlM_fields_append (q := ⟨m.beginKey, []⟩)]
  · refine foldlM_bytesField rfl (fun h0 => ?_)
    rw [← h0]
  · refine foldlM_bytesField rfl (fun h0 => ?_)
    rw [h0]
    rfl

theorem FDBMutation.merge_serialize {m : FDBMutation} (h : m.Valid) :
    merge FDBMutation.step .empty m.serialize = some m := by
  obtain ⟨versionIndex, mutation⟩ := m
  rw [serialize, merge_encodeFields _ _ (allValid_fields _), fields,
    foldlM_fields_append (q := ⟨versionIndex, none⟩)]
  · cases mutation with
    | none => rfl
    | some arm =>
      have harm := h.mutation arm rfl
      cases arm with
      | singleKeyMutation s =>
        refine foldlM_messageField ?_
        simp [step, singleKeyInit, FDBSingleKeyMutation.merge_serialize harm]
      | clearRange c =>
        refine foldlM_messageField ?_
        simp [step, clearRangeInit, FDBClearRange.merge_serialize]
  · cases versionIndex with
    | none => rfl
    | some v =>
      refine foldlM_messageField ?_
      simp [step, empty, FDBVersionIndex.merge_serialize (h.versionIndex v rfl)]

/-- The elements of a batch are appended one by one. -/
theorem FDBMutationBatch.foldlM_fields {ms : List FDBMutation} (h : ∀ x ∈ ms, x.Valid)
    (done : List FDBMutation) :
    (FDBMutationBatch.fields ⟨ms⟩).foldlM FDBMutationBatch.step ⟨done⟩ = some ⟨done ++ ms⟩ := by
  induction ms generalizing done with
  | nil => simp [fields]
  | cons x ms ih =>
    have hx := FDBMutation.merge_serialize (h x List.mem_cons_self)
    have hms := ih (fun y hy => h y (List.mem_cons_of_mem x hy)) (done ++ [x])
    rw [fields, List.flatMap_cons, foldlM_fields_append (q := ⟨done ++ [x]⟩)]
    · rw [fields] at hms
      rw [hms, List.append_assoc]
      rfl
    · refine foldlM_messageField ?_
      simp [step, hx]

theorem FDBMutationBatch.merge_serialize {m : FDBMutationBatch} (h : m.Valid) :
    merge FDBMutationBatch.step .empty m.serialize = some m := by
  rw [serialize, merge_encodeFields _ _ (allValid_fields _)]
  exact foldlM_fields h []

/-- `FromString` undoes `SerializeToString`. -/
theorem FDBMutationRecord.parseFromString_serializeToString {m : FDBMutationRecord}
    (h : m.Valid) : parseFromString m.serializeToString = some m := by
  obtain ⟨streamName, bridgeTimestamp, record⟩ := m
  rw [parseFromString, serializeToString, merge_encodeFields _ _ (allValid_fields _), fields,
    List.append_assoc, foldlM_fields_append (q := ⟨streamName, none, none⟩),
    foldlM_fields_append (q := ⟨streamName, bridgeTimestamp, none⟩)]
  · cases record with
    | none => rfl
    | some arm =>
      have harm := h.record arm rfl
      cases arm with
      | mutation a =>
        refine foldlM_messageField ?_
        simp [step, mutationInit, FDBMutation.merge_serialize harm]
      | versionEnd a =>
        refine foldlM_messageField ?_
        simp [step, versionEndInit, VersionEndMessage.merge_serialize harm]
      | batch a =>
        refine foldlM_messageField ?_
        simp [step, batchInit, FDBMutationBatch.merge_serialize harm]
  · cases bridgeTimestamp with
    | none => rfl
    | some t =>
      refine foldlM_messageField ?_
      simp [step, Timestamp.merge_serialize (h.bridgeTimestamp t rfl)]
  · refine foldlM_bytesField ?_ (fun h0 => ?_)
    · simp [step, decodeUtf8_encodeUtf8, empty]
    · have hdec := decodeUtf8_encodeUtf8 streamName
      rw [show encodeUtf8 streamName = [] from h0] at hdec
      have : streamName = [] := by simpa [decodeUtf8] using hdec.symm
      rw [this]
      rfl

end FdbKafkaBridge.Serialization
