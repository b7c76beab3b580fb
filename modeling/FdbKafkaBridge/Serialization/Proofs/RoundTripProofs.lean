import FdbKafkaBridge.Serialization.Deserializer
import FdbKafkaBridge.Serialization.Serializer
import FdbKafkaBridge.Serialization.Proofs.CheckProofs
import FdbKafkaBridge.Serialization.Proofs.MessageProofs

/-!
# The deserializer reads back what the serializer wrote

The messages of `Wire` are valid, so their bytes parse to the same message, and the checks of the
deserializer accept that message. The clear range arm and the timestamp are the two places where
the output value is not stored as such: the type code comes from the arm, and the nanoseconds from
the two fields that `divmod` gave.
-/

namespace FdbKafkaBridge.Serialization

open Protobuf (Bytes)

/-! ## The messages are valid -/

theorem Wire.timestamp_valid {ts : ℕ} (h : ts ≤ maxBridgeTimestampNs) : (timestamp ts).Valid := by
  have hmax : maxBridgeTimestampNs = 253402300799999999999 := rfl
  have hdiv : ts / 10 ^ 9 ≤ 253402300799 := by omega
  have hmod : ts % 10 ^ 9 < 10 ^ 9 := Nat.mod_lt _ (by decide)
  constructor <;> simp only [timestamp] <;> omega

/-- The two fields of the timestamp give the nanoseconds back. -/
theorem timestampNs_timestamp (ts : ℕ) : timestampNs (some (Wire.timestamp ts)) = some (ts : ℤ) := by
  have hdivmod : ((ts / 10 ^ 9 : ℕ) : ℤ) * 10 ^ 9 + ((ts % 10 ^ 9 : ℕ) : ℤ) = ts := by
    have := Nat.div_add_mod ts (10 ^ 9)
    omega
  simp only [timestampNs, Wire.timestamp, Option.map_some, hdivmod]

theorem Wire.mutationMessage_valid (m : NativeMutation) {version sequenceNo : ℕ}
    (hv : version ≤ maxVersion) (hs : sequenceNo ≤ maxSequenceNo) :
    (mutationMessage m.parts version sequenceNo).Valid := by
  have hversion : FDBVersionIndex.Valid ⟨version, sequenceNo⟩ := by
    simp only [maxVersion, maxSequenceNo] at hv hs
    exact ⟨by simp only; omega, by simp only; omega⟩
  have htype := m.type.isLt
  by_cases hclear : m.type.val = clearRangeCode
  · rw [mutationMessage_clearRange hclear]
    refine ⟨?_, ?_⟩
    · rintro x ⟨⟩
      exact hversion
    · rintro x ⟨⟩
      trivial
  · rw [mutationMessage_singleKey hclear]
    refine ⟨?_, ?_⟩
    · rintro x ⟨⟩
      exact hversion
    · rintro x ⟨⟩
      exact ⟨by simp only; omega, by simp only; omega⟩

theorem Wire.mutationMessages_valid {version : ℕ} (hv : version ≤ maxVersion)
    (ms : List NativeMutation) :
    ∀ {first : ℕ}, first + ms.length ≤ maxSequenceNo + 1 →
      ∀ x ∈ mutationMessages version first (ms.map NativeMutation.parts), x.Valid := by
  induction ms with
  | nil => exact fun _ x hx => nomatch hx
  | cons m ms ih =>
    intro first hlen x hx
    rw [List.length_cons] at hlen
    rw [List.map_cons, mutationMessages, List.mem_cons] at hx
    rcases hx with rfl | hx
    · exact mutationMessage_valid m hv (by omega)
    · exact ih (by omega) x hx

/-- The bytes of a record parse to the message they were made from. -/
theorem parseFromString_record {name : List Char} {ts : ℕ} {body : RecordArm}
    (hts : ts ≤ maxBridgeTimestampNs) (hbody : body.Valid) :
    FDBMutationRecord.parseFromString (Wire.record name ts (some body)) =
      some ⟨name, some (Wire.timestamp ts), some body⟩ := by
  refine FDBMutationRecord.parseFromString_serializeToString ⟨?_, ?_⟩
  · rintro x ⟨⟩
    exact Wire.timestamp_valid hts
  · rintro x ⟨⟩
    exact hbody

/-! ## The deserializer accepts them -/

theorem checkVersion_ok {version : ℕ} (h : version ≤ maxVersion) (index : Option ℕ) :
    checkVersion version index = .ok () := by
  rw [checkVersion, if_neg (by omega)]

theorem mutationOf_mutationMessage (m : NativeMutation) {version : ℕ} (sequenceNo : ℕ)
    (hv : version ≤ maxVersion) (index : Option ℕ) :
    mutationOf (Wire.mutationMessage m.parts version sequenceNo) index =
      .ok (m.tagged version sequenceNo) := by
  by_cases hclear : m.type.val = clearRangeCode
  · simp only [Wire.mutationMessage_clearRange hclear, mutationOf]
    rw [checkVersion_ok hv]
    simp only [NativeMutation.tagged, hclear]
    rfl
  · have hrange : (0 : ℤ) ≤ m.type.val ∧ (m.type.val : ℤ) ≤ maxTypeCode := by
      have hlt := m.type.isLt
      simp only [maxTypeCode]
      omega
    simp only [Wire.mutationMessage_singleKey hclear, mutationOf]
    rw [checkVersion_ok hv, if_neg (not_not.2 hrange)]
    rfl

theorem mutationsFrom_mutationMessages {version : ℕ} (hv : version ≤ maxVersion)
    (ms : List NativeMutation) (first i : ℕ) :
    mutationsFrom i (Wire.mutationMessages version first (ms.map NativeMutation.parts)) =
      .ok (taggedFrom version first ms) := by
  induction ms generalizing first i with
  | nil => rfl
  | cons m ms ih =>
    rw [List.map_cons, Wire.mutationMessages, mutationsFrom, mutationOf_mutationMessage m first hv,
      ih]
    rfl

/-- Consecutive version indexes pass the second pass of `batchOf`. -/
theorem checkRun_taggedFrom (version first : ℕ) (ms : List NativeMutation) (i : ℕ) :
    checkRun ⟨version, first⟩ i (taggedFrom version (first + i) ms) = .ok () := by
  induction ms generalizing i with
  | nil => rfl
  | cons m ms ih =>
    have hindex : (m.tagged version (first + i)).versionIndex = ⟨version, first + i⟩ := rfl
    rw [taggedFrom, checkRun, if_neg (fun hne => hne hindex), Nat.add_assoc]
    exact ih (i + 1)

theorem batchOf_mutationMessages {version : ℕ} (hv : version ≤ maxVersion) (first : ℕ)
    {ms : List NativeMutation} (hne : ms ≠ []) :
    batchOf ⟨Wire.mutationMessages version first (ms.map NativeMutation.parts)⟩ =
      .ok (taggedFrom version first ms) := by
  obtain ⟨m, ms, rfl⟩ := List.exists_cons_of_ne_nil hne
  have hrun := checkRun_taggedFrom version first (m :: ms) 0
  rw [batchOf, mutationsFrom_mutationMessages hv]
  show (checkRun ⟨version, first⟩ 0 (taggedFrom version first (m :: ms))).bind _ = _
  rw [Nat.add_zero] at hrun
  rw [hrun]
  rfl

/-! ## Record by record -/

section Envelope

variable (e : Envelope) {version : ℕ}

/-- The deserialized record when its body has been accepted. -/
theorem deserializeRecord_record {body : RecordArm} {output : RecordBody} (hvalid : body.Valid)
    (hbody : bodyOf ⟨e.name, some (Wire.timestamp e.timestampNs), some body⟩ = .ok output) :
    deserializeRecord (.bytes (Wire.record e.name e.timestampNs (some body))) =
      .ok ⟨e.streamName, some (e.timestampNs : ℤ), output⟩ := by
  simp only [deserializeRecord, parseFromString_record e.timestampNs_le hvalid, recordOf, hbody,
    timestampNs_timestamp, e.streamName_eq]
  rfl

theorem deserializeRecord_mutation (m : NativeMutation) {sequenceNo : ℕ}
    (hv : version ≤ maxVersion) (hs : sequenceNo ≤ maxSequenceNo) :
    deserializeRecord (.bytes (Wire.record e.name e.timestampNs
        (some (.mutation (Wire.mutationMessage m.parts version sequenceNo))))) =
      .ok ⟨e.streamName, some (e.timestampNs : ℤ), .mutation (m.tagged version sequenceNo)⟩ := by
  refine deserializeRecord_record e (Wire.mutationMessage_valid m hv hs) ?_
  simp only [bodyOf, mutationOf_mutationMessage m sequenceNo hv]
  rfl

theorem deserializeRecord_batch {first : ℕ} {ms : List NativeMutation}
    (hv : version ≤ maxVersion) (hne : ms ≠ []) (hlen : first + ms.length ≤ maxSequenceNo + 1) :
    deserializeRecord (.bytes (Wire.record e.name e.timestampNs
        (some (.batch ⟨Wire.mutationMessages version first (ms.map NativeMutation.parts)⟩)))) =
      .ok ⟨e.streamName, some (e.timestampNs : ℤ),
        .mutationBatch (taggedFrom version first ms)⟩ := by
  refine deserializeRecord_record e (Wire.mutationMessages_valid hv ms hlen) ?_
  simp only [bodyOf, batchOf_mutationMessages hv first hne]
  rfl

theorem versionEnd_valid {total : ℕ} (hv : version ≤ maxVersion)
    (htotal : total ≤ maxTotalMutations) :
    (RecordArm.versionEnd ⟨version, total, some (Wire.timestamp e.timestampNs)⟩).Valid := by
  refine ⟨?_, ?_, ?_⟩
  · simp only [maxVersion] at hv
    simp only
    omega
  · simp only [maxTotalMutations] at htotal
    simp only
    omega
  · rintro x ⟨⟩
    exact Wire.timestamp_valid e.timestampNs_le

theorem deserializeRecord_versionEnd {total : ℕ} (hv : version ≤ maxVersion)
    (htotal : total ≤ maxTotalMutations) :
    deserializeRecord (.bytes (Wire.record e.name e.timestampNs
        (some (.versionEnd ⟨version, total, some (Wire.timestamp e.timestampNs)⟩)))) =
      .ok ⟨e.streamName, some (e.timestampNs : ℤ),
        .versionEnd version total (some (e.timestampNs : ℤ))⟩ := by
  refine deserializeRecord_record e (versionEnd_valid e hv htotal) ?_
  simp only [bodyOf, checkVersion_ok hv, timestampNs_timestamp]
  rfl

/-! ## The serialize functions on valid input -/

theorem serializeMutation_ok {p : PyMutation} {m : NativeMutation} (hp : p.Represents m)
    {sequenceNo : ℕ} (hv : version ≤ maxVersion) (hs : sequenceNo ≤ maxSequenceNo) :
    serializeMutation p (.int version) (.int sequenceNo) (.str e.streamName)
        (.int e.timestampNs) =
      .ok (Wire.record e.name e.timestampNs
        (some (.mutation (Wire.mutationMessage m.parts version sequenceNo)))) := by
  rw [serializeMutation, Checks.fdbVersion_ok hv, Checks.sequenceNo_ok _ hs,
    Checks.envelope_ok e, Checks.native_ok hp]
  rfl

theorem serializeBatch_ok {ps : List PyMutation} {ms : List NativeMutation}
    (hps : List.Forall₂ PyMutation.Represents ps ms) {first : ℕ} (hv : version ≤ maxVersion)
    (hms : ms ≠ []) (hlen : first + ms.length ≤ maxSequenceNo + 1) :
    serializeBatch (.items ps) (.int version) (.int first) (.str e.streamName)
        (.int e.timestampNs) =
      .ok (Wire.record e.name e.timestampNs
        (some (.batch ⟨Wire.mutationMessages version first (ms.map NativeMutation.parts)⟩))) := by
  have hpos : 0 < ms.length := List.length_pos_iff.2 hms
  have hparts : ms.map NativeMutation.parts ≠ [] := by simpa using hms
  rw [serializeBatch, Checks.fdbVersion_ok hv, Checks.sequenceNo_ok _ (by omega),
    Checks.envelope_ok e]
  show (Checks.natives (.items ps) first).bind _ = _
  rw [Checks.natives_ok hps hlen]
  show (if _ then _ else _) = _
  rw [if_neg hparts]
  rfl

theorem serializeVersionEnd_ok {total : ℕ} (hv : version ≤ maxVersion)
    (htotal : total ≤ maxTotalMutations) :
    serializeVersionEnd (.int version) (.int total) (.str e.streamName) (.int e.timestampNs) =
      .ok (Wire.record e.name e.timestampNs
        (some (.versionEnd ⟨version, total, some (Wire.timestamp e.timestampNs)⟩))) := by
  rw [serializeVersionEnd, Checks.fdbVersion_ok hv, Checks.totalMutations_ok htotal,
    Checks.envelope_ok e]
  rfl

end Envelope

/-- Every valid input of the three serialize functions is accepted, and its bytes deserialize to
exactly that input. -/
theorem deserializeRecord_serialize {streamName : PyStr} {fdbVersion bridgeTimestampNs : ℕ}
    (hne : streamName ≠ []) (hutf8 : streamName.encode?.isSome)
    (hv : fdbVersion ≤ maxVersion) (hts : bridgeTimestampNs ≤ maxBridgeTimestampNs) :
    (∀ (p : PyMutation) (m : NativeMutation) (sequenceNo : ℕ), p.Represents m →
      sequenceNo ≤ maxSequenceNo →
      ∃ data, serializeMutation p (.int fdbVersion) (.int sequenceNo) (.str streamName)
          (.int bridgeTimestampNs) = .ok data ∧
        deserializeRecord (.bytes data) =
          .ok ⟨streamName, some (bridgeTimestampNs : ℤ),
            .mutation ⟨m.type, m.param1, m.param2, ⟨fdbVersion, sequenceNo⟩⟩⟩) ∧
    (∀ (ps : List PyMutation) (ms : List NativeMutation) (firstSequenceNo : ℕ),
      List.Forall₂ PyMutation.Represents ps ms → ms ≠ [] →
      firstSequenceNo + (ms.length - 1) ≤ maxSequenceNo →
      ∃ data mutations, serializeBatch (.items ps) (.int fdbVersion) (.int firstSequenceNo)
          (.str streamName) (.int bridgeTimestampNs) = .ok data ∧
        deserializeRecord (.bytes data) =
          .ok ⟨streamName, some (bridgeTimestampNs : ℤ), .mutationBatch mutations⟩ ∧
        ∀ i : ℕ, mutations[i]? = (ms[i]?.map fun m =>
          (⟨m.type, m.param1, m.param2, ⟨fdbVersion, firstSequenceNo + i⟩⟩ : Mutation))) ∧
    (∀ totalMutations : ℕ, totalMutations ≤ maxTotalMutations →
      ∃ data, serializeVersionEnd (.int fdbVersion) (.int totalMutations) (.str streamName)
          (.int bridgeTimestampNs) = .ok data ∧
        deserializeRecord (.bytes data) =
          .ok ⟨streamName, some (bridgeTimestampNs : ℤ),
            .versionEnd fdbVersion totalMutations (some (bridgeTimestampNs : ℤ))⟩) := by
  obtain ⟨name, hname⟩ : ∃ name, streamName.chars? = some name := by
    obtain ⟨b, hb⟩ := Option.isSome_iff_exists.1 hutf8
    obtain ⟨name, hname, -⟩ := Option.map_eq_some_iff.1 hb
    exact ⟨name, hname⟩
  let e : Envelope := ⟨streamName, name, bridgeTimestampNs, hne, hname, hts⟩
  refine ⟨?_, ?_, ?_⟩
  · intro p m sequenceNo hp hs
    exact ⟨_, serializeMutation_ok e hp hv hs, deserializeRecord_mutation e m hv hs⟩
  · intro ps ms first hps hms hlen
    have hpos : 0 < ms.length := List.length_pos_iff.2 hms
    have hlast : first + ms.length ≤ maxSequenceNo + 1 := by omega
    refine ⟨_, taggedFrom fdbVersion first ms, serializeBatch_ok e hps hv hms hlast,
      deserializeRecord_batch e hv hms hlast, ?_⟩
    intro i
    rw [getElem?_taggedFrom]
    rfl
  · intro total htotal
    exact ⟨_, serializeVersionEnd_ok e hv htotal, deserializeRecord_versionEnd e hv htotal⟩

/-- A clear range with empty keys at version index `(0, 0)` and timestamp `0`. -/
theorem deserializeRecord_serialize_zero :
    ∃ data, serializeMutation (NativeMutation.toPy ⟨1, [], []⟩) (.int 0) (.int 0)
        (.str (PyStr.ofChars [ 's'])) (.int 0) = .ok data ∧
      deserializeRecord (.bytes data) =
        .ok ⟨PyStr.ofChars [ 's'], some 0, .mutation ⟨1, [], [], ⟨0, 0⟩⟩⟩ :=
  (@deserializeRecord_serialize (PyStr.ofChars [ 's']) 0 0 (by decide) (by decide) (by decide)
    (by decide)).1 _ _ 0 (NativeMutation.toPy_represents ⟨1, [], []⟩) (by decide)

end FdbKafkaBridge.Serialization
