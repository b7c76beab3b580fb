import FdbKafkaBridge.Serialization.VersionGroup
import Mathlib.Data.Nat.Size
import FdbKafkaBridge.Serialization.Proofs.RoundTripProofs
import FdbKafkaBridge.Slicing.Partition

/-!
# Slicing a version group

The slicing loop works with computed sizes. `length_record_batch` says that these are the lengths of
the records built afterwards, and `SliceInvariant` what the loop knows after each position: the
closed slices and the open one follow each other from position 0, and each fits the budget.
-/

namespace FdbKafkaBridge.Serialization

open Protobuf Slicing

/-! ## Computed sizes are the lengths -/

theorem varintBytes_eq (n : ℕ) : varintBytes n = varintSize n := by
  rcases Nat.eq_zero_or_pos n with rfl | hn
  · rfl
  · have hsize : n.size = n.log2 + 1 := by
      apply le_antisymm
      · rw [Nat.size_le]
        exact Nat.lt_log2_self
      · exact Nat.lt_size.2 (Nat.log2_self_le hn.ne')
    simp only [varintBytes, varintSize, hsize]
    omega

theorem framedBytes_eq (t n : ℕ) : framedBytes t n = framedSize t n := by
  rw [framedBytes, framedSize, varintBytes_eq]

theorem framedBytes_pos {t : ℕ} (ht : 0 < t) (n : ℕ) : 0 < framedBytes t n := by
  rw [framedBytes]
  omega

/-- The payload of a batch as the loop computes it: the sum of its framed mutations. -/
def payloadBytes (messages : List FDBMutation) : ℕ :=
  (messages.map fun message => framedBytes mutationsTagBytes message.serialize.length).sum

/-- The size of a batch record as the loop computes it. -/
def batchRecordBytes (envelopeBytes : ℕ) (messages : List FDBMutation) : ℕ :=
  envelopeBytes + framedBytes batchTagBytes (payloadBytes messages)

@[simp] theorem payloadBytes_nil : payloadBytes [] = 0 := rfl

theorem payloadBytes_concat (messages : List FDBMutation) (message : FDBMutation) :
    payloadBytes (messages ++ [message]) =
      payloadBytes messages + framedBytes mutationsTagBytes message.serialize.length := by
  simp [payloadBytes]

theorem payloadBytes_eq_zero {messages : List FDBMutation} :
    payloadBytes messages = 0 ↔ messages = [] := by
  cases messages with
  | nil => simp
  | cons message messages =>
    have htag : 0 < mutationsTagBytes := by decide
    have hpos := framedBytes_pos htag message.serialize.length
    simp only [payloadBytes, List.map_cons, List.sum_cons, reduceCtorEq, iff_false]
    omega

theorem length_serialize_batch (messages : List FDBMutation) :
    (FDBMutationBatch.serialize ⟨messages⟩).length = payloadBytes messages := by
  induction messages with
  | nil => rfl
  | cons message messages ih =>
    have htag : varintSize (tagValue 1 2) = mutationsTagBytes := by decide
    rw [FDBMutationBatch.serialize, FDBMutationBatch.fields, List.flatMap_cons,
      length_encodeFields_append, length_encode_messageField, htag, ← framedBytes_eq]
    rw [FDBMutationBatch.serialize, FDBMutationBatch.fields] at ih
    rw [ih]
    rfl

theorem length_record_batch (name : List Char) (ts : ℕ) (messages : List FDBMutation) :
    (Wire.record name ts (some (.batch ⟨messages⟩))).length =
      batchRecordBytes (Wire.record name ts none).length messages := by
  have htag : varintSize (tagValue 5 2) = batchTagBytes := by decide
  simp only [Wire.record, FDBMutationRecord.serializeToString, FDBMutationRecord.fields,
    RecordArm.fields]
  rw [List.append_nil, length_encodeFields_append, length_encode_messageField,
    length_serialize_batch, htag, ← framedBytes_eq]
  rfl

/-! ## The slicing loop -/

theorem sliceMessages_self (messages : List FDBMutation) (i : ℕ) :
    sliceMessages messages (i, i) = [] := by
  simp [sliceMessages]

theorem sliceMessages_concat {messages : List FDBMutation} {message : FDBMutation} {a i : ℕ}
    (hi : messages[i]? = some message) (ha : a ≤ i) :
    sliceMessages messages (a, i + 1) = sliceMessages messages (a, i) ++ [message] := by
  have hlen : i < messages.length := (List.getElem?_eq_some_iff.1 hi).1
  simp only [sliceMessages]
  rw [List.take_add_one, hi, List.drop_append_of_le_length]
  · rfl
  · rw [List.length_take]
    omega

theorem sliceMessages_ne_nil {messages : List FDBMutation} {a b : ℕ} (h : a < b)
    (hb : b ≤ messages.length) : sliceMessages messages (a, b) ≠ [] := by
  apply List.ne_nil_of_length_pos
  simp only [sliceMessages, List.length_drop, List.length_take]
  omega

section Loop

variable {fdbVersion envelopeBytes : ℕ} {maxRecordBytes : ℤ} {messages : List FDBMutation}

theorem closeSlice_cases (grown i : ℕ) (s : SliceState) :
    (s.batchBytes ≠ 0 ∧ (grown : ℤ) ≤ maxRecordBytes ∧ closeSlice maxRecordBytes grown i s = s) ∨
    (s.batchBytes = 0 ∧ closeSlice maxRecordBytes grown i s = s) ∨
    (s.batchBytes ≠ 0 ∧ maxRecordBytes < grown ∧
      closeSlice maxRecordBytes grown i s = ⟨s.slices ++ [(s.start, i)], i, 0⟩) := by
  by_cases hzero : s.batchBytes = 0
  · exact .inr (.inl ⟨hzero, if_neg fun hc => hc.1 hzero⟩)
  · by_cases hgrown : (grown : ℤ) > maxRecordBytes
    · exact .inr (.inr ⟨hzero, hgrown, if_pos ⟨hzero, hgrown⟩⟩)
    · exact .inl ⟨hzero, not_lt.1 hgrown, if_neg fun hc => hgrown hc.2⟩

theorem le_of_checkAlone_ok {i alone : ℕ}
    (h : checkAlone i fdbVersion alone maxRecordBytes = .ok ()) : (alone : ℤ) ≤ maxRecordBytes := by
  by_contra hbig
  rw [checkAlone, if_pos (not_le.1 hbig)] at h
  cases h

/-- The three ways through an iteration: the open slice grows, the first slice starts, or the open
slice is closed and the next one starts. -/
theorem sliceStep_ok {i : ℕ} {message : FDBMutation} {s s' : SliceState}
    (h : sliceStep fdbVersion envelopeBytes maxRecordBytes i message s = .ok s') :
    let mutationBytes := framedBytes mutationsTagBytes message.serialize.length
    let recordBytes := fun payload => envelopeBytes + framedBytes batchTagBytes payload
    (s.batchBytes ≠ 0 ∧ (recordBytes (s.batchBytes + mutationBytes) : ℤ) ≤ maxRecordBytes ∧
      s' = { s with batchBytes := s.batchBytes + mutationBytes }) ∨
    (s.batchBytes = 0 ∧ (recordBytes mutationBytes : ℤ) ≤ maxRecordBytes ∧
      s' = { s with batchBytes := mutationBytes }) ∨
    (s.batchBytes ≠ 0 ∧ maxRecordBytes < (recordBytes (s.batchBytes + mutationBytes) : ℤ) ∧
      (recordBytes mutationBytes : ℤ) ≤ maxRecordBytes ∧
      s' = ⟨s.slices ++ [(s.start, i)], i, mutationBytes⟩) := by
  intro mutationBytes recordBytes
  obtain ⟨_, halone, h⟩ := bind_eq_ok.1 h
  cases h
  rcases closeSlice_cases (recordBytes (s.batchBytes + mutationBytes)) i s with
    ⟨hzero, hfits, hs⟩ | ⟨hzero, hs⟩ | ⟨hzero, hover, hs⟩
  · refine .inl ⟨hzero, hfits, ?_⟩
    rw [hs]
  · rw [hs, if_pos hzero] at halone
    refine .inr (.inl ⟨hzero, le_of_checkAlone_ok halone, ?_⟩)
    rw [hs, hzero, Nat.zero_add]
  · rw [hs, if_pos rfl] at halone
    refine .inr (.inr ⟨hzero, hover, le_of_checkAlone_ok halone, ?_⟩)
    rw [hs, Nat.zero_add]

/-- What the loop knows before position `i`. -/
structure SliceInvariant (envelopeBytes : ℕ) (maxRecordBytes : ℤ) (messages : List FDBMutation)
    (i : ℕ) (s : SliceState) : Prop where
  contiguous : Contiguous 0 s.slices s.start
  start_le : s.start ≤ i
  start_lt : 0 < i → s.start < i
  batchBytes : s.batchBytes = payloadBytes (sliceMessages messages (s.start, i))
  fits : ∀ slice ∈ s.slices,
    (batchRecordBytes envelopeBytes (sliceMessages messages slice) : ℤ) ≤ maxRecordBytes
  open_fits : 0 < i →
    (batchRecordBytes envelopeBytes (sliceMessages messages (s.start, i)) : ℤ) ≤ maxRecordBytes

theorem SliceInvariant.init :
    SliceInvariant envelopeBytes maxRecordBytes messages 0 ⟨[], 0, 0⟩ where
  contiguous := rfl
  start_le := le_rfl
  start_lt := fun h => absurd h (by decide)
  batchBytes := by rw [sliceMessages_self, payloadBytes_nil]
  fits := fun _ h => nomatch h
  open_fits := fun h => absurd h (by decide)

theorem SliceInvariant.step {i : ℕ} {message : FDBMutation} {s s' : SliceState}
    (hinv : SliceInvariant envelopeBytes maxRecordBytes messages i s)
    (hi : messages[i]? = some message)
    (h : sliceStep fdbVersion envelopeBytes maxRecordBytes i message s = .ok s') :
    SliceInvariant envelopeBytes maxRecordBytes messages (i + 1) s' := by
  have hlen : i < messages.length := (List.getElem?_eq_some_iff.1 hi).1
  have hgrow : payloadBytes (sliceMessages messages (s.start, i + 1)) =
      s.batchBytes + framedBytes mutationsTagBytes message.serialize.length := by
    rw [sliceMessages_concat hi hinv.start_le, payloadBytes_concat, ← hinv.batchBytes]
  have halone : sliceMessages messages (i, i + 1) = [message] := by
    rw [sliceMessages_concat hi le_rfl, sliceMessages_self]
    rfl
  have hpayload : payloadBytes [message] =
      framedBytes mutationsTagBytes message.serialize.length := by
    simp [payloadBytes]
  rcases sliceStep_ok h with ⟨-, hfits, rfl⟩ | ⟨hzero, hfits, rfl⟩ | ⟨hzero, -, hfits, rfl⟩
  · refine ⟨hinv.contiguous, ?_, ?_, hgrow.symm, hinv.fits, ?_⟩
    · exact hinv.start_le.trans (Nat.le_succ i)
    · exact fun _ => Nat.lt_succ_of_le hinv.start_le
    · intro _
      rw [batchRecordBytes, hgrow]
      exact hfits
  · -- nothing is open, so nothing came before this position
    have hi0 : i = 0 := by
      by_contra hne
      have hopen := sliceMessages_ne_nil (hinv.start_lt (Nat.pos_of_ne_zero hne)) hlen.le
      rw [hinv.batchBytes, payloadBytes_eq_zero] at hzero
      exact hopen hzero
    have hstart : s.start = i := by
      have := hinv.start_le
      omega
    refine ⟨hinv.contiguous, ?_, ?_, ?_, hinv.fits, ?_⟩
    · exact hinv.start_le.trans (Nat.le_succ i)
    · exact fun _ => Nat.lt_succ_of_le hinv.start_le
    · simp only [hstart, halone, hpayload]
    · intro _
      simp only [hstart, halone, batchRecordBytes, hpayload]
      exact hfits
  · have hi0 : 0 < i := by
      by_contra hne
      have hstart : s.start = i := by
        have := hinv.start_le
        omega
      rw [hinv.batchBytes, hstart, sliceMessages_self] at hzero
      exact hzero rfl
    refine ⟨hinv.contiguous.concat (hinv.start_lt hi0), Nat.le_succ i,
      fun _ => Nat.lt_succ_self i, ?_, ?_, ?_⟩
    · rw [halone, hpayload]
    · intro slice hslice
      rcases List.mem_append.1 hslice with hclosed | hnew
      · exact hinv.fits slice hclosed
      · rw [List.mem_singleton] at hnew
        rw [hnew]
        exact hinv.open_fits hi0
    · intro _
      rw [halone, batchRecordBytes, hpayload]
      exact hfits

/-- What every iteration preserves holds at the end of the loop. -/
theorem sliceLoop_induction {J : ℕ → SliceState → Prop}
    (hstep : ∀ i message s s', messages[i]? = some message → J i s →
      sliceStep fdbVersion envelopeBytes maxRecordBytes i message s = .ok s' → J (i + 1) s')
    (rest : List FDBMutation) :
    ∀ (done : List FDBMutation) {s s' : SliceState}, messages = done ++ rest → J done.length s →
      sliceLoop fdbVersion envelopeBytes maxRecordBytes done.length rest s = .ok s' →
      J messages.length s' := by
  induction rest with
  | nil =>
    intro done s s' hsplit hJ h
    cases h
    rwa [hsplit, List.append_nil]
  | cons message rest ih =>
    intro done s s' hsplit hJ h
    obtain ⟨s₁, hs₁, h⟩ := bind_eq_ok.1 h
    have hJ₁ := hstep done.length message s s₁ (by simp [hsplit]) hJ hs₁
    have hlength : done.length + 1 = (done ++ [message]).length := by simp
    rw [hlength] at hJ₁ h
    exact ih (done ++ [message]) (by simp [hsplit]) hJ₁ h

theorem SliceInvariant.run {s : SliceState}
    (h : sliceLoop fdbVersion envelopeBytes maxRecordBytes 0 messages ⟨[], 0, 0⟩ = .ok s) :
    SliceInvariant envelopeBytes maxRecordBytes messages messages.length s :=
  sliceLoop_induction (fun _ _ _ _ hi hinv hs => hinv.step hi hs) messages [] rfl
    SliceInvariant.init h

/-- The slices cover all positions, each exactly once and in order, and each fits the budget. -/
theorem slicesOf_ok {slices : List (ℕ × ℕ)}
    (h : slicesOf fdbVersion envelopeBytes maxRecordBytes messages = .ok slices) :
    Contiguous 0 slices messages.length ∧ ∀ slice ∈ slices,
      (batchRecordBytes envelopeBytes (sliceMessages messages slice) : ℤ) ≤ maxRecordBytes := by
  obtain ⟨s, hloop, h⟩ := bind_eq_ok.1 h
  have hinv : SliceInvariant envelopeBytes maxRecordBytes messages messages.length s :=
    SliceInvariant.run hloop
  cases h
  by_cases hempty : messages = []
  · rw [if_pos hempty]
    have hstart : s.start = messages.length := by
      have := hinv.start_le
      simp only [hempty, List.length_nil] at this ⊢
      omega
    exact ⟨hstart ▸ hinv.contiguous, hinv.fits⟩
  · have hpos : 0 < messages.length := List.length_pos_iff.2 hempty
    rw [if_neg hempty]
    refine ⟨hinv.contiguous.concat (hinv.start_lt hpos), ?_⟩
    intro slice hslice
    rcases List.mem_append.1 hslice with hclosed | hlast
    · exact hinv.fits slice hclosed
    · rw [List.mem_singleton] at hlast
      rw [hlast]
      exact hinv.open_fits hpos

end Loop

/-! ## The records of a group -/

section Records

variable (e : Envelope) (version : ℕ) (ms : List NativeMutation)

/-- The batch record of a slice of the group. -/
def batchRecord (slice : ℕ × ℕ) : Bytes :=
  Wire.record e.name e.timestampNs (some (.batch
    ⟨Wire.mutationMessages version slice.1
      (((ms.take slice.2).drop slice.1).map NativeMutation.parts)⟩))

/-- The record that closes a group of `total` mutations. -/
def versionEndRecord (total : ℕ) : Bytes :=
  Wire.record e.name e.timestampNs
    (some (.versionEnd ⟨version, total, some (Wire.timestamp e.timestampNs)⟩))

theorem sliceMessages_mutationMessages (slice : ℕ × ℕ) :
    sliceMessages (Wire.mutationMessages version 0 (ms.map NativeMutation.parts)) slice =
      Wire.mutationMessages version slice.1
        (((ms.take slice.2).drop slice.1).map NativeMutation.parts) := by
  rw [sliceMessages, Wire.take_mutationMessages, Wire.drop_mutationMessages, Nat.zero_add,
    List.map_drop, List.map_take]

/-- What a call that returns was given and what it returns. -/
structure GroupRecords (budget : ℤ) (slices : List (ℕ × ℕ)) (records : List Bytes) : Prop where
  version_le : version ≤ maxVersion
  length_le : ms.length ≤ maxTotalMutations
  contiguous : Contiguous 0 slices ms.length
  records_eq : records =
    slices.map (batchRecord e version ms) ++ [versionEndRecord e version ms.length]
  fits : ∀ record ∈ records, (record.length : ℤ) ≤ budget

end Records

theorem of_serializeVersionEnd_ok {fdbVersion totalMutations streamName timestamp : PyVal}
    {record : Bytes}
    (h : serializeVersionEnd fdbVersion totalMutations streamName timestamp = .ok record) :
    ∃ (e : Envelope) (version total : ℕ), fdbVersion = .int version ∧ version ≤ maxVersion ∧
      Checks.totalMutations totalMutations = .ok total ∧ streamName = .str e.streamName ∧
      timestamp = .int e.timestampNs ∧ record = versionEndRecord e version total := by
  obtain ⟨version, hversion, h⟩ := bind_eq_ok.1 h
  obtain ⟨total, htotal, h⟩ := bind_eq_ok.1 h
  obtain ⟨r, henvelope, h⟩ := bind_eq_ok.1 h
  obtain ⟨rfl, hv⟩ := Checks.of_fdbVersion_ok hversion
  obtain ⟨e, hstream, hts, rfl⟩ := Checks.of_envelope_ok henvelope
  cases h
  exact ⟨e, version, total, rfl, hv, htotal, hstream, hts, rfl⟩

theorem serializeVersionGroup_ok {ps : List PyMutation} {ms : List NativeMutation}
    (hps : List.Forall₂ PyMutation.Represents ps ms)
    {fdbVersion maxRecordBytes streamName timestamp : PyVal} {records : List Bytes}
    (h : serializeVersionGroup (.items ps) fdbVersion maxRecordBytes streamName timestamp =
      .ok records) :
    ∃ (e : Envelope) (version : ℕ) (budget : ℤ) (slices : List (ℕ × ℕ)),
      fdbVersion = .int version ∧ maxRecordBytes = .int budget ∧ streamName = .str e.streamName ∧
      timestamp = .int e.timestampNs ∧ GroupRecords e version ms budget slices records ∧
      slicesOf version (Wire.record e.name e.timestampNs none).length budget
        (Wire.mutationMessages version 0 (ms.map NativeMutation.parts)) = .ok slices := by
  obtain ⟨version, hversion, h⟩ := bind_eq_ok.1 h
  obtain ⟨budget, hbudget, h⟩ := bind_eq_ok.1 h
  obtain ⟨r, henvelope, h⟩ := bind_eq_ok.1 h
  obtain ⟨natives, hnatives, h⟩ := bind_eq_ok.1 h
  obtain ⟨slices, hslices, h⟩ := bind_eq_ok.1 h
  obtain ⟨versionEnd, hend, h⟩ := bind_eq_ok.1 h
  obtain ⟨rfl, hv⟩ := Checks.of_fdbVersion_ok hversion
  obtain rfl := Checks.of_maxRecordBytes_ok hbudget
  obtain ⟨e, rfl, rfl, rfl⟩ := Checks.of_envelope_ok henvelope
  -- an accepted list is the checked parts of its mutations
  have hlength : ms.length ≤ maxSequenceNo + 1 := by
    by_cases hne : ps = []
    · rw [← hps.length_eq, hne]
      exact Nat.zero_le _
    · have hle := Checks.length_le_of_natives_ok hnatives hne
      rw [hps.length_eq] at hle
      omega
  have hparts : natives = ms.map NativeMutation.parts := by
    have hok := @Checks.natives_ok ps ms hps 0 (by omega)
    rw [hok] at hnatives
    cases hnatives
    rfl
  subst hparts
  have hmessages : (Wire.mutationMessages version 0 (ms.map NativeMutation.parts)).length =
      ms.length := by simp
  rw [hmessages] at hend
  obtain ⟨-, -, total, -, -, htotal, -⟩ := of_serializeVersionEnd_ok hend
  obtain ⟨-, hle⟩ := Checks.of_totalMutations_ok htotal
  rw [serializeVersionEnd_ok e hv hle] at hend
  cases hend
  obtain ⟨hcontiguous, hfits⟩ := slicesOf_ok hslices
  rw [hmessages] at hcontiguous
  by_cases hbig : ((versionEndRecord e version ms.length).length : ℤ) > budget
  · rw [versionEndRecord] at hbig
    rw [if_pos hbig] at h
    cases h
  · rw [versionEndRecord] at hbig
    rw [if_neg hbig] at h
    cases h
    refine ⟨e, version, budget, slices, rfl, rfl, rfl, rfl, ⟨hv, hle, hcontiguous, ?_, ?_⟩, hslices⟩
    · rw [versionEndRecord]
      congr 1
      refine List.map_congr_left fun slice _ => ?_
      rw [batchRecord, sliceMessages_mutationMessages]
    · intro record hrecord
      rcases List.mem_append.1 hrecord with hbatch | hlast
      · obtain ⟨slice, hslice, rfl⟩ := List.mem_map.1 hbatch
        rw [length_record_batch]
        exact hfits slice hslice
      · rw [List.mem_singleton] at hlast
        rw [hlast]
        exact not_lt.1 hbig

/-- A call that returns was given native mutations only. -/
theorem represents_of_serializeVersionGroup_ok {mutations : PyIterable}
    {fdbVersion maxRecordBytes streamName timestamp : PyVal} {records : List Bytes}
    (h : serializeVersionGroup mutations fdbVersion maxRecordBytes streamName timestamp =
      .ok records) :
    ∃ ps ms, mutations = .items ps ∧ List.Forall₂ PyMutation.Represents ps ms := by
  obtain ⟨version, -, h⟩ := bind_eq_ok.1 h
  obtain ⟨budget, -, h⟩ := bind_eq_ok.1 h
  obtain ⟨r, -, h⟩ := bind_eq_ok.1 h
  obtain ⟨natives, hnatives, -⟩ := bind_eq_ok.1 h
  obtain ⟨ps, ms, rfl, hms, -⟩ := Checks.of_natives_ok hnatives
  exact ⟨ps, ms, rfl, hms⟩

theorem length_slice {α : Type} {xs : List α} {a b : ℕ} (hlt : a < b) (hb : b ≤ xs.length) :
    ((xs.take b).drop a).length = b - a := by
  rw [List.length_drop, List.length_take]
  omega

/-- `serializeBatch` of a slice of the group makes its batch record. -/
theorem serializeBatch_slice (e : Envelope) {version : ℕ} {ps : List PyMutation}
    {ms : List NativeMutation} (hps : List.Forall₂ PyMutation.Represents ps ms) {a b : ℕ}
    (hv : version ≤ maxVersion) (hlen : ms.length ≤ maxTotalMutations) (hlt : a < b)
    (hb : b ≤ ms.length) :
    serializeBatch (.items ((ps.take b).drop a)) (.int version) (.int a) (.str e.streamName)
      (.int e.timestampNs) = .ok (batchRecord e version ms (a, b)) := by
  have hlength := length_slice hlt hb
  have hmax : maxTotalMutations = maxSequenceNo := rfl
  have hne : (ms.take b).drop a ≠ [] := by
    apply List.ne_nil_of_length_pos
    omega
  have hlast : a + ((ms.take b).drop a).length ≤ maxSequenceNo + 1 := by omega
  exact serializeBatch_ok e (List.forall₂_drop _ (List.forall₂_take _ hps)) hv hne hlast

/-- Every batch record of a group deserializes to its slice. -/
theorem deserializeRecord_batchRecord (e : Envelope) {version : ℕ} {ms : List NativeMutation}
    {slice : ℕ × ℕ} (hv : version ≤ maxVersion) (hlen : ms.length ≤ maxTotalMutations)
    (hlt : slice.1 < slice.2) (hle : slice.2 ≤ ms.length) :
    deserializeRecord (.bytes (batchRecord e version ms slice)) =
      .ok ⟨e.streamName, some (e.timestampNs : ℤ),
        .mutationBatch (((taggedFrom version 0 ms).take slice.2).drop slice.1)⟩ := by
  have hlength := length_slice hlt hle
  have hne : (ms.take slice.2).drop slice.1 ≠ [] := by
    apply List.ne_nil_of_length_pos
    omega
  have hmax : maxTotalMutations = maxSequenceNo := rfl
  rw [batchRecord, deserializeRecord_batch e hv hne (by omega), take_taggedFrom, drop_taggedFrom,
    Nat.zero_add]

/-- A group is returned as batch records and one version end. The batches are what
`serializeBatch` makes of consecutive slices of the group, every record fits the budget, and
together the records give back all mutations of the group in order. -/
theorem serializeVersionGroup_faithful {ps : List PyMutation} {ms : List NativeMutation}
    {fdbVersion bridgeTimestampNs : ℕ} {streamName : PyStr} {maxRecordBytes : ℤ}
    {records : List Bytes} (hps : List.Forall₂ PyMutation.Represents ps ms)
    (h : serializeVersionGroup (.items ps) (.int fdbVersion) (.int maxRecordBytes)
      (.str streamName) (.int bridgeTimestampNs) = .ok records) :
    ∃ (batches : List Bytes) (versionEnd : Bytes) (cut : ℕ → ℕ) (groups : List (List Mutation)),
      records = batches ++ [versionEnd] ∧
      (batches = [] ↔ ms = []) ∧
      (∀ record ∈ records, (record.length : ℤ) ≤ maxRecordBytes) ∧
      cut 0 = 0 ∧ cut batches.length = ms.length ∧
      (∀ j, (hj : j < batches.length) → cut j < cut (j + 1) ∧
        serializeBatch (.items ((ps.take (cut (j + 1))).drop (cut j))) (.int fdbVersion)
          (.int (cut j)) (.str streamName) (.int bridgeTimestampNs) = .ok batches[j]) ∧
      serializeVersionEnd (.int fdbVersion) (.int ms.length) (.str streamName)
        (.int bridgeTimestampNs) = .ok versionEnd ∧
      List.Forall₂ (fun data group => deserializeRecord (.bytes data) =
        .ok ⟨streamName, some (bridgeTimestampNs : ℤ), .mutationBatch group⟩) batches groups ∧
      groups.flatten = taggedFrom fdbVersion 0 ms ∧
      deserializeRecord (.bytes versionEnd) = .ok ⟨streamName, some (bridgeTimestampNs : ℤ),
        .versionEnd fdbVersion ms.length (some (bridgeTimestampNs : ℤ))⟩ := by
  obtain ⟨e, version, budget, slices, hversion, hbudget, hstream, hts, hrecords, -⟩ :=
    serializeVersionGroup_ok hps h
  cases hbudget
  obtain rfl : fdbVersion = version := by
    have : (fdbVersion : ℤ) = version := PyVal.int.inj hversion
    omega
  obtain rfl : bridgeTimestampNs = e.timestampNs := by
    have : (bridgeTimestampNs : ℤ) = e.timestampNs := PyVal.int.inj hts
    omega
  obtain rfl : streamName = e.streamName := PyVal.str.inj hstream
  obtain ⟨hv, hlen, hcontiguous, hrecordsEq, hfits⟩ := hrecords
  obtain ⟨cut, hcut0, hcutn, hcut⟩ := hcontiguous.cutPoints
  have hmem := hcontiguous.mem
  have hmax : maxTotalMutations = maxSequenceNo := rfl
  refine ⟨slices.map (batchRecord e fdbVersion ms), versionEndRecord e fdbVersion ms.length, cut,
    slices.map fun slice => ((taggedFrom fdbVersion 0 ms).take slice.2).drop slice.1,
    hrecordsEq, ?_, hfits, hcut0, ?_, ?_, serializeVersionEnd_ok e hv hlen, ?_, ?_,
    deserializeRecord_versionEnd e hv hlen⟩
  · rw [List.map_eq_nil_iff]
    constructor
    · rintro rfl
      exact List.length_eq_zero_iff.1 hcontiguous.symm
    · rintro rfl
      cases slices with
      | nil => rfl
      | cons slice slices =>
        have := hmem slice List.mem_cons_self
        simp only [List.length_nil] at this
        omega
  · rw [List.length_map]
    exact hcutn
  · intro j hj
    rw [List.length_map] at hj
    obtain ⟨hlt, hslice⟩ := hcut j hj
    have hle : cut (j + 1) ≤ ms.length := by
      have := (hmem _ (List.getElem_mem hj)).2
      rwa [hslice] at this
    refine ⟨hlt, ?_⟩
    rw [List.getElem_map, hslice]
    exact serializeBatch_slice e hps hv hlen hlt hle
  · rw [List.forall₂_map_left_iff, List.forall₂_map_right_iff, List.forall₂_same]
    intro slice hslice
    obtain ⟨hlt, hle⟩ := hmem slice hslice
    exact deserializeRecord_batchRecord e hv hlen hlt hle
  · rw [hcontiguous.flatten, List.drop_zero]
    apply List.take_of_length_le
    rw [length_taggedFrom]

/-- Two mutations under a budget that holds one at a time. -/
theorem serializeVersionGroup_faithful_two :
    ∃ (batches : List Bytes) (versionEnd : Bytes) (groups : List (List Mutation)),
      ([[10, 1, 115, 18, 0, 42, 11, 10, 9, 10, 2, 8, 5, 18, 3, 10, 1, 1],
        [10, 1, 115, 18, 0, 42, 16, 10, 14, 10, 4, 8, 5, 16, 1, 26, 6, 10, 1, 2, 18, 1, 3],
        [10, 1, 115, 18, 0, 34, 6, 8, 5, 16, 2, 26, 0]] : List Bytes) = batches ++ [versionEnd] ∧
      groups.flatten = taggedFrom 5 0 [⟨0, [1], []⟩, ⟨1, [2], [3]⟩] := by
  have hps : List.Forall₂ PyMutation.Represents
      [NativeMutation.toPy ⟨0, [1], []⟩, NativeMutation.toPy ⟨1, [2], [3]⟩]
      [⟨0, [1], []⟩, ⟨1, [2], [3]⟩] :=
    .cons (NativeMutation.toPy_represents _) (.cons (NativeMutation.toPy_represents _) .nil)
  obtain ⟨batches, versionEnd, -, groups, heq, -, -, -, -, -, -, -, hflatten, -⟩ :=
    @serializeVersionGroup_faithful _ _ 5 0 (PyStr.ofChars [ 's']) 23
      [[10, 1, 115, 18, 0, 42, 11, 10, 9, 10, 2, 8, 5, 18, 3, 10, 1, 1],
        [10, 1, 115, 18, 0, 42, 16, 10, 14, 10, 4, 8, 5, 16, 1, 26, 6, 10, 1, 2, 18, 1, 3],
        [10, 1, 115, 18, 0, 34, 6, 8, 5, 16, 2, 26, 0]] hps (by decide +kernel)
  exact ⟨batches, versionEnd, groups, heq, hflatten⟩

end FdbKafkaBridge.Serialization
