import FdbKafkaBridge.Serialization.Proofs.CheckProofs
import FdbKafkaBridge.Serialization.Deserializer
import FdbKafkaBridge.Serialization.Proofs.MessageProofs
import FdbKafkaBridge.Serialization.VersionGroup

/-!
# Truncated records are rejected

The body is the last top-level field of a record. A record that is cut off within a field does not
parse, and one that is cut off between two fields has lost its body.
-/

namespace FdbKafkaBridge.Serialization

open Protobuf

/-! ## Envelopes -/

/-- A field of the record that is not one of the arms of `record`. -/
def IsEnvelopeField (f : Field) : Prop := f.number = 1 ∨ f.number = 2

theorem FDBMutationRecord.step_envelope {m m' : FDBMutationRecord} {f : Field}
    (hf : IsEnvelopeField f) (h : FDBMutationRecord.step m f = some m') :
    m'.record = m.record := by
  obtain ⟨number, value⟩ := f
  rcases hf with hnumber | hnumber
  · simp only at hnumber
    subst hnumber
    cases value with
    | len payload =>
      obtain ⟨name, -, rfl⟩ := Option.map_eq_some_iff.1 h
      rfl
    | _ =>
      cases h
      rfl
  · simp only at hnumber
    subst hnumber
    cases value with
    | len payload =>
      obtain ⟨t, -, rfl⟩ := Option.map_eq_some_iff.1 h
      rfl
    | _ =>
      cases h
      rfl

theorem FDBMutationRecord.foldlM_envelope {fs : List Field} {m m' : FDBMutationRecord}
    (hfs : ∀ f ∈ fs, IsEnvelopeField f) (h : fs.foldlM FDBMutationRecord.step m = some m') :
    m'.record = m.record := by
  induction fs generalizing m with
  | nil =>
    cases h
    rfl
  | cons f fs ih =>
    rw [List.foldlM_cons] at h
    obtain ⟨m₁, hm₁, h⟩ := Option.bind_eq_some_iff.1 h
    have hrest := ih (fun g hg => hfs g (List.mem_cons_of_mem f hg)) h
    rw [hrest, step_envelope (hfs f List.mem_cons_self) hm₁]

/-- The fields before the body. -/
def envelopeFields (name : List Char) (ts : ℕ) : List Field :=
  bytesField 1 (encodeUtf8 name) ++ messageField 2 (Wire.timestamp ts).serialize

theorem envelopeFields_isEnvelope (name : List Char) (ts : ℕ) :
    ∀ f ∈ envelopeFields name ts, IsEnvelopeField f := by
  intro f hf
  rcases List.mem_append.1 hf with hf | hf
  · unfold bytesField at hf
    split at hf
    · cases hf
    · rw [List.mem_singleton.1 hf]
      exact .inl rfl
  · rw [List.mem_singleton.1 hf]
    exact .inr rfl

theorem RecordArm.fields_eq (arm : RecordArm) : ∃ f, arm.fields = [f] := by
  cases arm <;> exact ⟨_, rfl⟩

/-- All fields of a record: the envelope, then the body in one last field. -/
theorem fields_record (name : List Char) (ts : ℕ) (body : RecordArm) :
    ∃ f, FDBMutationRecord.fields ⟨name, some (Wire.timestamp ts), some body⟩ =
      envelopeFields name ts ++ [f] := by
  obtain ⟨f, hf⟩ := body.fields_eq
  refine ⟨f, ?_⟩
  rw [← hf]
  rfl

/-- Without its last element, a prefix of `xs ++ [x]` is a prefix of `xs`. -/
theorem prefix_of_prefix_concat {α : Type} {xs gs : List α} {x : α} (h : gs <+: xs ++ [x])
    (hne : gs ≠ xs ++ [x]) : gs <+: xs := by
  rcases List.prefix_concat_iff.1 h with heq | hprefix
  · exact absurd heq hne
  · exact hprefix

theorem recordOf_none {message : FDBMutationRecord} (h : message.record = none) :
    recordOf message = .error (.recordDecode "record has no record body" .noRecordArm none) := by
  simp only [recordOf, bodyOf, h]
  rfl

/-- What is left of a record after a cut does not parse, or has no body. -/
theorem deserializeRecord_truncated_record (name : List Char) (ts : ℕ) (body : RecordArm)
    {data : Bytes} (hp : data <+: Wire.record name ts (some body))
    (hne : data ≠ Wire.record name ts (some body)) :
    ∃ message reason,
      deserializeRecord (.bytes data) = .error (.recordDecode message reason none) := by
  obtain ⟨f, hfields⟩ := fields_record name ts body
  have hvalid := FDBMutationRecord.allValid_fields ⟨name, some (Wire.timestamp ts), some body⟩
  simp only [deserializeRecord]
  rcases parse_truncated hvalid hp hne with hnone | ⟨gs, hgs, hgsne, hparse⟩
  · have hparsed : FDBMutationRecord.parseFromString data = none := by
      rw [FDBMutationRecord.parseFromString, merge, hnone]
      rfl
    rw [hparsed]
    exact ⟨_, _, rfl⟩
  · rw [hfields] at hgs hgsne
    have henvelope : ∀ g ∈ gs, IsEnvelopeField g := by
      intro g hg
      exact envelopeFields_isEnvelope name ts g ((prefix_of_prefix_concat hgs hgsne).subset hg)
    cases hparsed : FDBMutationRecord.parseFromString data with
    | none => exact ⟨_, _, rfl⟩
    | some message =>
      rw [FDBMutationRecord.parseFromString, merge, hparse] at hparsed
      have hrecord : message.record = none :=
        FDBMutationRecord.foldlM_envelope henvelope hparsed
      exact ⟨_, _, recordOf_none hrecord⟩

/-! ## The serialize functions -/

/-- The records that the serialize functions return. -/
inductive Produced : Bytes → Prop
  | mutation {mutation : PyMutation} {fdbVersion sequenceNo streamName bridgeTimestampNs : PyVal}
      {data : Bytes} (h : serializeMutation mutation fdbVersion sequenceNo streamName
        bridgeTimestampNs = .ok data) : Produced data
  | batch {mutations : PyIterable} {fdbVersion firstSequenceNo streamName bridgeTimestampNs : PyVal}
      {data : Bytes} (h : serializeBatch mutations fdbVersion firstSequenceNo streamName
        bridgeTimestampNs = .ok data) : Produced data
  | versionEnd {fdbVersion totalMutations streamName bridgeTimestampNs : PyVal} {data : Bytes}
      (h : serializeVersionEnd fdbVersion totalMutations streamName bridgeTimestampNs = .ok data) :
      Produced data
  | versionGroup {mutations : PyIterable}
      {fdbVersion maxRecordBytes streamName bridgeTimestampNs : PyVal} {records : List Bytes}
      {data : Bytes} (h : serializeVersionGroup mutations fdbVersion maxRecordBytes streamName
        bridgeTimestampNs = .ok records) (hmem : data ∈ records) : Produced data

theorem record_of_serializeVersionEnd {fdbVersion totalMutations streamName timestamp : PyVal}
    {data : Bytes}
    (h : serializeVersionEnd fdbVersion totalMutations streamName timestamp = .ok data) :
    ∃ name ts body, data = Wire.record name ts (some body) := by
  obtain ⟨version, -, h⟩ := bind_eq_ok.1 h
  obtain ⟨total, -, h⟩ := bind_eq_ok.1 h
  obtain ⟨⟨name, ts⟩, -, h⟩ := bind_eq_ok.1 h
  cases h
  exact ⟨_, _, _, rfl⟩

theorem Produced.record {data : Bytes} (h : Produced data) :
    ∃ name ts body, data = Wire.record name ts (some body) := by
  cases h with
  | mutation h =>
    obtain ⟨version, -, h⟩ := bind_eq_ok.1 h
    obtain ⟨sequenceNo, -, h⟩ := bind_eq_ok.1 h
    obtain ⟨⟨name, ts⟩, -, h⟩ := bind_eq_ok.1 h
    obtain ⟨native, -, h⟩ := bind_eq_ok.1 h
    cases h
    exact ⟨_, _, _, rfl⟩
  | batch h =>
    obtain ⟨version, -, h⟩ := bind_eq_ok.1 h
    obtain ⟨sequenceNo, -, h⟩ := bind_eq_ok.1 h
    obtain ⟨⟨name, ts⟩, -, h⟩ := bind_eq_ok.1 h
    obtain ⟨natives, -, h⟩ := bind_eq_ok.1 h
    split at h
    · cases h
    · cases h
      exact ⟨_, _, _, rfl⟩
  | versionEnd h => exact record_of_serializeVersionEnd h
  | versionGroup h hmem =>
    obtain ⟨version, -, h⟩ := bind_eq_ok.1 h
    obtain ⟨budget, -, h⟩ := bind_eq_ok.1 h
    obtain ⟨⟨name, ts⟩, -, h⟩ := bind_eq_ok.1 h
    obtain ⟨natives, -, h⟩ := bind_eq_ok.1 h
    obtain ⟨slices, -, h⟩ := bind_eq_ok.1 h
    obtain ⟨versionEnd, hend, h⟩ := bind_eq_ok.1 h
    split at h
    · cases h
    · cases h
      rcases List.mem_append.1 hmem with hbatch | hlast
      · obtain ⟨slice, -, rfl⟩ := List.mem_map.1 hbatch
        exact ⟨_, _, _, rfl⟩
      · rw [List.mem_singleton.1 hlast]
        exact record_of_serializeVersionEnd hend

/-- No proper prefix of a record is read as a record. -/
theorem deserializeRecord_truncated {data : Bytes} (h : Produced data) {k : ℕ}
    (hk : k < data.length) : ∃ message reason,
      deserializeRecord (.bytes (data.take k)) = .error (.recordDecode message reason none) := by
  obtain ⟨name, ts, body, rfl⟩ := h.record
  refine deserializeRecord_truncated_record name ts body (List.take_prefix k _) fun heq => ?_
  have hlength := congrArg List.length heq
  rw [List.length_take] at hlength
  omega

/-- The envelope of a version end without its body. -/
theorem deserializeRecord_truncated_five : ∃ message reason,
    deserializeRecord (.bytes [10, 1, 115, 18, 0]) = .error (.recordDecode message reason none) :=
  @deserializeRecord_truncated [10, 1, 115, 18, 0, 34, 6, 8, 5, 16, 2, 26, 0]
    (@Produced.versionEnd (.int 5) (.int 2) (.str (PyStr.ofChars [ 's'])) (.int 0) _
      (by decide +kernel)) 5 (by decide)

end FdbKafkaBridge.Serialization
