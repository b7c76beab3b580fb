import FdbKafkaBridge.Relational.Outcome
import FdbKafkaBridge.Serialization.Proofs.VersionGroupProofs

/-!
# Outcomes do not depend on keys, values or stream names

Two calls whose arguments agree but for the contents of the secret ones: their checks raise the same
errors, and their messages, and hence the slices and the records, have the same lengths.
-/

namespace FdbKafkaBridge.Serialization

open Protobuf Relational

/-! ## Arguments that agree -/

/-- Values of the same Python type and of the same length, if they have a length. -/
inductive SameShape : PyVal → PyVal → Prop
  | none : SameShape .none .none
  | bool (a b : Bool) : SameShape (.bool a) (.bool b)
  | int (i j : ℤ) : SameShape (.int i) (.int j)
  | intSubclass (typeName : String) (i j : ℤ) :
    SameShape (.intSubclass typeName i) (.intSubclass typeName j)
  | str {s t : PyStr} (h : s.length = t.length) : SameShape (.str s) (.str t)
  | bytes {a b : Bytes} (h : a.length = b.length) : SameShape (.bytes a) (.bytes b)
  | other (typeName : String) : SameShape (.other typeName) (.other typeName)

/-- Stream names may also be told apart by their length in UTF-8, or by having none. -/
structure SameName (name name' : PyVal) : Prop where
  shape : SameShape name name'
  utf8 : ∀ s t, name = .str s → name' = .str t →
    s.encode?.map List.length = t.encode?.map List.length

/-- Native mutations that agree but for the contents of their parameters. -/
structure SameMutation (m m' : PyMutation) : Prop where
  typeName : m.typeName = m'.typeName
  type : m.type = m'.type
  param1 : Option.Rel SameShape m.param1 m'.param1
  param2 : Option.Rel SameShape m.param2 m'.param2

inductive SameMutations : PyIterable → PyIterable → Prop
  | items {ms ms' : List PyMutation} (h : List.Forall₂ SameMutation ms ms') :
    SameMutations (.items ms) (.items ms')
  | notIterable (typeName : String) : SameMutations (.notIterable typeName) (.notIterable typeName)

def SameLength (a b : Bytes) : Prop := a.length = b.length

theorem SameShape.typeName_eq {v v' : PyVal} (h : SameShape v v') : v.typeName = v'.typeName := by
  cases h <;> rfl

/-! ## The checks -/

namespace Checks

theorem streamName_alike {name name' : PyVal} (h : SameName name name') :
    Alike (fun s t => SameLength (encodeUtf8 s) (encodeUtf8 t)) (streamName name)
      (streamName name') := by
  obtain ⟨hshape, hutf8⟩ := h
  cases hshape with
  | @str s t hlength =>
    have hsame := hutf8 s t rfl rfl
    unfold streamName
    by_cases hs : s = []
    · have ht : t = [] := by
        rw [hs] at hlength
        exact List.length_eq_zero_iff.1 hlength.symm
      rw [hs, ht]
      exact .error _
    · have ht : t ≠ [] := by
        rintro rfl
        exact hs (List.length_eq_zero_iff.1 hlength)
      simp only [List.isEmpty_iff, if_neg hs, if_neg ht]
      simp only [PyStr.encode?] at hsame
      cases hchars : s.chars? with
      | none =>
        cases hchars' : t.chars? with
        | none =>
          rw [hlength]
          exact .error _
        | some cs' =>
          rw [hchars, hchars'] at hsame
          cases hsame
      | some cs =>
        cases hchars' : t.chars? with
        | none =>
          rw [hchars, hchars'] at hsame
          cases hsame
        | some cs' =>
          rw [hchars, hchars'] at hsame
          exact .ok (Option.some.inj hsame)
  | none => exact .error _
  | bool a b => exact .error _
  | int i j => exact .error _
  | intSubclass typeName i j => exact .error _
  | bytes hlength => exact .error _
  | other typeName => exact .error _

/-- Checked stream names of the same length in UTF-8, with the same timestamp. -/
def SameEnvelope (a b : List Char × ℕ) : Prop :=
  SameLength (encodeUtf8 a.1) (encodeUtf8 b.1) ∧ a.2 = b.2

theorem envelope_alike {name name' : PyVal} (h : SameName name name') (timestampNs : PyVal) :
    Alike SameEnvelope (envelope name timestampNs) (envelope name' timestampNs) := by
  refine (streamName_alike h).bind fun cs cs' hcs => ?_
  have hts := Alike.refl (fun _ => rfl) (bridgeTimestampNs timestampNs)
  refine hts.bind fun ts ts' hts => ?_
  exact .ok ⟨hcs, hts⟩

theorem param_alike {v v' : PyVal} (h : SameShape v v') (field : String) (index : Option ℕ) :
    Alike SameLength (param v field index) (param v' field index) := by
  cases h with
  | bytes hlength => exact .ok hlength
  | none => exact .error _
  | bool a b => exact .error _
  | int i j => exact .error _
  | intSubclass typeName i j => exact .error _
  | str hlength => exact .error _
  | other typeName => exact .error _

theorem getAttribute_alike {R : PyVal → PyVal → Prop} {m m' : PyMutation}
    (h : m.typeName = m'.typeName) {v v' : Option PyVal} (hv : Option.Rel R v v') (field : String)
    (index : Option ℕ) :
    Alike R (getAttribute m v field index) (getAttribute m' v' field index) := by
  cases hv with
  | some hv => exact .ok hv
  | none =>
    unfold getAttribute
    simp only
    rw [h]
    exact .error _

/-- The checked parts of native mutations that agree. -/
def SameParts (a b : ℕ × Bytes × Bytes) : Prop :=
  a.1 = b.1 ∧ SameLength a.2.1 b.2.1 ∧ SameLength a.2.2 b.2.2

theorem native_alike {m m' : PyMutation} (h : SameMutation m m') (index : Option ℕ) :
    Alike SameParts (native m index) (native m' index) := by
  have htype : Option.Rel Eq m.type m'.type := by
    rw [h.type]
    cases m'.type with
    | none => exact .none
    | some v => exact .some rfl
  refine (getAttribute_alike h.typeName htype "type" index).bind fun v v' hv => ?_
  subst hv
  have hcode := Alike.refl (fun _ => rfl) (typeCode v index)
  refine hcode.bind fun code code' hcode => ?_
  refine (getAttribute_alike h.typeName h.param1 "param1" index).bind fun v₁ v₁' hv₁ => ?_
  refine (param_alike hv₁ "param1" index).bind fun p₁ p₁' hp₁ => ?_
  refine (getAttribute_alike h.typeName h.param2 "param2" index).bind fun v₂ v₂' hv₂ => ?_
  refine (param_alike hv₂ "param2" index).bind fun p₂ p₂' hp₂ => ?_
  exact .ok ⟨hcode, hp₁, hp₂⟩

theorem nativesFrom_alike {ms ms' : List PyMutation} (h : List.Forall₂ SameMutation ms ms')
    (firstSequenceNo index : ℕ) :
    Alike (List.Forall₂ SameParts) (nativesFrom firstSequenceNo index ms)
      (nativesFrom firstSequenceNo index ms') := by
  induction h generalizing index with
  | nil => exact .ok .nil
  | cons hm _ ih =>
    have hposition := Alike.refl (R := Eq) (fun _ => rfl)
      (assignedSequenceNo (firstSequenceNo + index) index)
    refine hposition.bind fun _ _ _ => ?_
    refine (native_alike hm (some index)).bind fun parts parts' hparts => ?_
    refine (ih (index + 1)).bind fun others others' hothers => ?_
    exact .ok (.cons hparts hothers)

theorem natives_alike {ms ms' : PyIterable} (h : SameMutations ms ms') (firstSequenceNo : ℕ) :
    Alike (List.Forall₂ SameParts) (natives ms firstSequenceNo) (natives ms' firstSequenceNo) := by
  cases h with
  | items h => exact nativesFrom_alike h firstSequenceNo 0
  | notIterable typeName => exact .error _

end Checks

open Checks (SameEnvelope SameParts)

/-! ## Lengths of messages -/

theorem length_bytesField {a b : Bytes} (h : SameLength a b) (number : ℕ) :
    (encodeFields (bytesField number a)).length = (encodeFields (bytesField number b)).length := by
  unfold SameLength at h
  by_cases ha : a = []
  · have hb : b = [] := by
      rw [ha] at h
      exact List.length_eq_zero_iff.1 h.symm
    rw [ha, hb]
  · have hb : b ≠ [] := by
      rintro rfl
      exact ha (List.length_eq_zero_iff.1 h)
    have hmessage : ∀ payload, payload ≠ [] → bytesField number payload =
        messageField number payload := fun payload hne => if_neg hne
    rw [hmessage a ha, hmessage b hb, length_encode_messageField, length_encode_messageField, h]

theorem length_mutationMessage {native native' : ℕ × Bytes × Bytes} (h : SameParts native native')
    (fdbVersion sequenceNo : ℕ) :
    (Wire.mutationMessage native fdbVersion sequenceNo).serialize.length =
      (Wire.mutationMessage native' fdbVersion sequenceNo).serialize.length := by
  obtain ⟨code, param1, param2⟩ := native
  obtain ⟨code', param1', param2'⟩ := native'
  obtain ⟨hcode, h₁, h₂⟩ := h
  obtain rfl : code = code' := hcode
  have h₁ := length_bytesField h₁ 1
  have h₂ := length_bytesField h₂ 2
  by_cases hclear : code = clearRangeCode
  · simp only [Wire.mutationMessage, if_pos hclear, FDBMutation.serialize, FDBMutation.fields,
      MutationArm.fields, FDBClearRange.serialize, FDBClearRange.fields,
      length_encodeFields_append, length_encode_messageField, h₁, h₂]
  · simp only [Wire.mutationMessage, if_neg hclear, FDBMutation.serialize, FDBMutation.fields,
      MutationArm.fields, FDBSingleKeyMutation.serialize, FDBSingleKeyMutation.fields,
      length_encodeFields_append, length_encode_messageField, h₁, h₂]

/-- Messages of the same length. -/
def SameSize (m m' : FDBMutation) : Prop := m.serialize.length = m'.serialize.length

theorem mutationMessages_sameSize {natives natives' : List (ℕ × Bytes × Bytes)}
    (h : List.Forall₂ SameParts natives natives') (fdbVersion first : ℕ) :
    List.Forall₂ SameSize (Wire.mutationMessages fdbVersion first natives)
      (Wire.mutationMessages fdbVersion first natives') := by
  induction h generalizing first with
  | nil => exact .nil
  | cons hparts _ ih => exact .cons (length_mutationMessage hparts _ _) (ih (first + 1))

theorem payloadBytes_congr {messages messages' : List FDBMutation}
    (h : List.Forall₂ SameSize messages messages') :
    payloadBytes messages = payloadBytes messages' := by
  have hmap : messages.map (fun message => framedBytes mutationsTagBytes message.serialize.length) =
      messages'.map fun message => framedBytes mutationsTagBytes message.serialize.length := by
    induction h with
    | nil => rfl
    | cons hsize _ ih =>
      rw [SameSize] at hsize
      rw [List.map_cons, List.map_cons, ih, hsize]
  rw [payloadBytes, payloadBytes, hmap]

def bodySize : Option RecordArm → ℕ
  | none => 0
  | some arm => (encodeFields arm.fields).length

theorem length_record (name : List Char) (timestampNs : ℕ) (body : Option RecordArm) :
    (Wire.record name timestampNs body).length =
      (encodeFields (bytesField 1 (encodeUtf8 name))).length +
        (encodeFields (optionalField 2 (some (Wire.timestamp timestampNs))
          Timestamp.serialize)).length + bodySize body := by
  rw [Wire.record, FDBMutationRecord.serializeToString, FDBMutationRecord.fields,
    length_encodeFields_append, length_encodeFields_append]
  cases body <;> rfl

theorem record_sameLength {a b : List Char × ℕ} (h : SameEnvelope a b)
    {body body' : Option RecordArm} (hbody : bodySize body = bodySize body') :
    SameLength (Wire.record a.1 a.2 body) (Wire.record b.1 b.2 body') := by
  obtain ⟨hname, hts⟩ := h
  rw [SameLength, length_record, length_record, length_bytesField hname, hts, hbody]

theorem bodySize_mutation {native native' : ℕ × Bytes × Bytes} (h : SameParts native native')
    (fdbVersion sequenceNo : ℕ) :
    bodySize (some (.mutation (Wire.mutationMessage native fdbVersion sequenceNo))) =
      bodySize (some (.mutation (Wire.mutationMessage native' fdbVersion sequenceNo))) := by
  rw [bodySize, bodySize, RecordArm.fields, RecordArm.fields, length_encode_messageField,
    length_encode_messageField, length_mutationMessage h]

theorem bodySize_batch {messages messages' : List FDBMutation}
    (h : List.Forall₂ SameSize messages messages') :
    bodySize (some (.batch ⟨messages⟩)) = bodySize (some (.batch ⟨messages'⟩)) := by
  rw [bodySize, bodySize, RecordArm.fields, RecordArm.fields, length_encode_messageField,
    length_encode_messageField, length_serialize_batch, length_serialize_batch,
    payloadBytes_congr h]

/-! ## The slicing loop -/

theorem sliceLoop_congr {messages messages' : List FDBMutation}
    (h : List.Forall₂ SameSize messages messages') (fdbVersion envelopeBytes : ℕ)
    (maxRecordBytes : ℤ) (i : ℕ) (s : SliceState) :
    sliceLoop fdbVersion envelopeBytes maxRecordBytes i messages s =
      sliceLoop fdbVersion envelopeBytes maxRecordBytes i messages' s := by
  induction h generalizing i s with
  | nil => rfl
  | @cons message message' rest rest' hsize _ ih =>
    have hstep : sliceStep fdbVersion envelopeBytes maxRecordBytes i message s =
        sliceStep fdbVersion envelopeBytes maxRecordBytes i message' s := by
      unfold sliceStep
      rw [hsize]
    rw [sliceLoop, sliceLoop, hstep]
    congr 1
    funext s'
    exact ih (i + 1) s'

theorem slicesOf_congr {messages messages' : List FDBMutation}
    (h : List.Forall₂ SameSize messages messages') (fdbVersion envelopeBytes : ℕ)
    (maxRecordBytes : ℤ) :
    slicesOf fdbVersion envelopeBytes maxRecordBytes messages =
      slicesOf fdbVersion envelopeBytes maxRecordBytes messages' := by
  have hnil : messages = [] ↔ messages' = [] := by
    rw [← List.length_eq_zero_iff, ← List.length_eq_zero_iff, h.length_eq]
  unfold slicesOf
  rw [sliceLoop_congr h, h.length_eq]
  simp only [hnil]

/-! ## The four functions -/

section Functions

variable {name name' : PyVal}

theorem serializeMutation_alike (hname : SameName name name') {m m' : PyMutation} (hm : SameMutation m m')
    (fdbVersion sequenceNo bridgeTimestampNs : PyVal) :
    Alike SameLength (serializeMutation m fdbVersion sequenceNo name bridgeTimestampNs)
      (serializeMutation m' fdbVersion sequenceNo name' bridgeTimestampNs) := by
  have hversion := Alike.refl (R := Eq) (fun _ => rfl) (Checks.fdbVersion fdbVersion)
  refine hversion.bind fun version version' hversion => ?_
  subst hversion
  have hsequence := Alike.refl (R := Eq) (fun _ => rfl) (Checks.sequenceNo sequenceNo "sequence_no")
  refine hsequence.bind fun sequence sequence' hsequence => ?_
  subst hsequence
  refine (Checks.envelope_alike hname bridgeTimestampNs).bind fun e e' he => ?_
  refine (Checks.native_alike hm none).bind fun native native' hnative => ?_
  exact .ok (record_sameLength he (bodySize_mutation hnative version sequence))

theorem serializeBatch_alike (hname : SameName name name') {ms ms' : PyIterable} (hms : SameMutations ms ms')
    (fdbVersion firstSequenceNo bridgeTimestampNs : PyVal) :
    Alike SameLength (serializeBatch ms fdbVersion firstSequenceNo name bridgeTimestampNs)
      (serializeBatch ms' fdbVersion firstSequenceNo name' bridgeTimestampNs) := by
  have hversion := Alike.refl (R := Eq) (fun _ => rfl) (Checks.fdbVersion fdbVersion)
  refine hversion.bind fun version version' hversion => ?_
  subst hversion
  have hfirst := Alike.refl (R := Eq) (fun _ => rfl)
    (Checks.sequenceNo firstSequenceNo "first_sequence_no")
  refine hfirst.bind fun first first' hfirst => ?_
  subst hfirst
  refine (Checks.envelope_alike hname bridgeTimestampNs).bind fun e e' he => ?_
  refine (Checks.natives_alike hms first).bind fun natives natives' hnatives => ?_
  have hnil : natives = [] ↔ natives' = [] := by
    rw [← List.length_eq_zero_iff, ← List.length_eq_zero_iff, hnatives.length_eq]
  have hmessages := mutationMessages_sameSize hnatives version first
  by_cases hempty : natives = []
  · rw [if_pos hempty, if_pos (hnil.1 hempty)]
    exact .error _
  · rw [if_neg hempty, if_neg fun h => hempty (hnil.2 h)]
    exact .ok (record_sameLength he (bodySize_batch hmessages))

theorem serializeVersionEnd_alike (hname : SameName name name')
    (fdbVersion totalMutations bridgeTimestampNs : PyVal) :
    Alike SameLength (serializeVersionEnd fdbVersion totalMutations name bridgeTimestampNs)
      (serializeVersionEnd fdbVersion totalMutations name' bridgeTimestampNs) := by
  have hversion := Alike.refl (R := Eq) (fun _ => rfl) (Checks.fdbVersion fdbVersion)
  refine hversion.bind fun version version' hversion => ?_
  subst hversion
  have htotal := Alike.refl (R := Eq) (fun _ => rfl) (Checks.totalMutations totalMutations)
  refine htotal.bind fun total total' htotal => ?_
  subst htotal
  refine (Checks.envelope_alike hname bridgeTimestampNs).bind fun e e' he => ?_
  refine .ok (record_sameLength he ?_)
  rw [he.2]

theorem serializeVersionGroup_alike (hname : SameName name name') {ms ms' : PyIterable} (hms : SameMutations ms ms')
    (fdbVersion maxRecordBytes bridgeTimestampNs : PyVal) :
    Alike (List.Forall₂ SameLength)
      (serializeVersionGroup ms fdbVersion maxRecordBytes name bridgeTimestampNs)
      (serializeVersionGroup ms' fdbVersion maxRecordBytes name' bridgeTimestampNs) := by
  have hversion := Alike.refl (R := Eq) (fun _ => rfl) (Checks.fdbVersion fdbVersion)
  refine hversion.bind fun version version' hversion => ?_
  subst hversion
  have hbudget := Alike.refl (R := Eq) (fun _ => rfl) (Checks.maxRecordBytes maxRecordBytes)
  refine hbudget.bind fun budget budget' hbudget => ?_
  subst hbudget
  refine (Checks.envelope_alike hname bridgeTimestampNs).bind fun e e' he => ?_
  refine (Checks.natives_alike hms 0).bind fun natives natives' hnatives => ?_
  have hmessages := mutationMessages_sameSize hnatives version 0
  have henvelope : (Wire.record e.1 e.2 none).length = (Wire.record e'.1 e'.2 none).length :=
    record_sameLength he rfl
  have hslices := Alike.refl (R := Eq) (fun _ => rfl)
    (slicesOf version (Wire.record e.1 e.2 none).length budget
      (Wire.mutationMessages version 0 natives))
  simp only [← henvelope, ← slicesOf_congr hmessages, ← hmessages.length_eq]
  refine hslices.bind fun slices slices' hslices => ?_
  subst hslices
  have hend := serializeVersionEnd_alike hname fdbVersion
    (.int (Wire.mutationMessages version 0 natives).length) bridgeTimestampNs
  refine hend.bind fun data data' hdata => ?_
  have hlength : data.length = data'.length := hdata
  by_cases hbig : (data'.length : ℤ) > budget
  · rw [hlength, if_pos hbig, if_pos hbig]
    exact .error _
  · rw [hlength, if_neg hbig, if_neg hbig]
    refine .ok (List.rel_append ?_ (.cons hdata .nil))
    rw [List.forall₂_map_left_iff, List.forall₂_map_right_iff, List.forall₂_same]
    intro slice _
    have hslice := List.forall₂_drop slice.1 (List.forall₂_take slice.2 hmessages)
    exact record_sameLength he (bodySize_batch hslice)

end Functions

/-- What the calls return or raise does not depend on the contents of keys, values and stream names:
both return as many records with pairwise the same lengths, or both raise the same error. -/
theorem serialize_alike {name name' : PyVal} (hname : SameName name name') {m m' : PyMutation}
    (hm : SameMutation m m') {ms ms' : PyIterable} (hms : SameMutations ms ms')
    (fdbVersion sequenceNo totalMutations maxRecordBytes bridgeTimestampNs : PyVal) :
    Alike SameLength (serializeMutation m fdbVersion sequenceNo name bridgeTimestampNs)
      (serializeMutation m' fdbVersion sequenceNo name' bridgeTimestampNs) ∧
    Alike SameLength (serializeBatch ms fdbVersion sequenceNo name bridgeTimestampNs)
      (serializeBatch ms' fdbVersion sequenceNo name' bridgeTimestampNs) ∧
    Alike SameLength (serializeVersionEnd fdbVersion totalMutations name bridgeTimestampNs)
      (serializeVersionEnd fdbVersion totalMutations name' bridgeTimestampNs) ∧
    Alike (List.Forall₂ SameLength)
      (serializeVersionGroup ms fdbVersion maxRecordBytes name bridgeTimestampNs)
      (serializeVersionGroup ms' fdbVersion maxRecordBytes name' bridgeTimestampNs) :=
  ⟨serializeMutation_alike hname hm _ _ _, serializeBatch_alike hname hms _ _ _,
    serializeVersionEnd_alike hname _ _ _, serializeVersionGroup_alike hname hms _ _ _⟩

/-- Two keys of one byte in two streams, under a budget that holds no mutation. -/
theorem serialize_alike_two :
    let group := fun (key : UInt8) (name : Char) => serializeVersionGroup
      (.items [NativeMutation.toPy ⟨0, [key], []⟩]) (.int 5) (.int 8) (.str (PyStr.ofChars [name]))
      (.int 0)
    ∃ e, group 1 's' = .error e ∧ group 2 't' = .error e := by
  intro group
  have hname : SameName (.str (PyStr.ofChars [ 's'])) (.str (PyStr.ofChars [ 't'])) := by
    refine ⟨.str rfl, ?_⟩
    intro s t hs ht
    cases hs
    cases ht
    rfl
  have hm : SameMutation (NativeMutation.toPy ⟨0, [1], []⟩) (NativeMutation.toPy ⟨0, [2], []⟩) :=
    ⟨rfl, rfl, .some (.bytes rfl), .some (.bytes rfl)⟩
  obtain ⟨-, -, -, hgroup⟩ := serialize_alike hname hm (.items (.cons hm .nil)) (.int 5) (.int 0)
    (.int 0) (.int 8) (.int 0)
  have hfirst : group 1 's' = .error (.recordTooLarge
      "mutation at position 0 of version 5 needs a 18-byte record; max_record_bytes is 8" (some 0) 18
      8) := by
    decide +kernel
  refine ⟨_, hfirst, ?_⟩
  change Alike _ (group 1 's') (group 2 't') at hgroup
  rw [hfirst] at hgroup
  generalize group 2 't' = second at hgroup
  cases hgroup
  rfl

end FdbKafkaBridge.Serialization
