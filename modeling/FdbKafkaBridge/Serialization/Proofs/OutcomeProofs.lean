import FdbKafkaBridge.Serialization.Proofs.SlicingProofs
import FdbKafkaBridge.Slicing.Elements

/-!
# When a version group can be serialized

Whether a call fails depends on each element by itself: on its checks, and on the size of the record
that would hold it alone. The loop looks at that size only where a slice starts, but a mutation that
is too large alone is also too large in any open slice, so a slice always starts at it.
-/

namespace FdbKafkaBridge.Serialization

open Protobuf Slicing

/-! ## The elements -/

/-- Element `i` of a group is a native mutation, and `i` is a position. -/
def Admissible (i : ℕ) (p : PyMutation) : Prop := (∃ m, p.Represents m) ∧ i ≤ maxSequenceNo

/-- The call returned a record within the budget. -/
def Fits (budget : ℤ) (result : Except SerializationError Bytes) : Prop :=
  ∃ data, result = .ok data ∧ (data.length : ℤ) ≤ budget

namespace Checks

/-- The first element that is not admissible is reported at its position. -/
theorem nativesFrom_firstFailing {ps : List PyMutation} :
    ∀ {start i : ℕ} {p : PyMutation}, FirstFailing (fun j => Admissible (start + j)) ps i p →
      ∃ e, nativesFrom 0 start ps = .error e ∧ e.IsInputAt (start + i) := by
  induction ps with
  | nil => exact fun h => nomatch h.element
  | cons q ps ih =>
    intro start i p h
    have hhead : ¬ Admissible start q →
        ∃ e, nativesFrom 0 start (q :: ps) = .error e ∧ e.IsInputAt start := by
      intro hq
      cases hposition : assignedSequenceNo (0 + start) start with
      | error e =>
        refine ⟨e, ?_, isInputAt_of_assignedSequenceNo_error hposition⟩
        exact bind_eq_error.2 (.inl hposition)
      | ok position =>
        have hle := of_assignedSequenceNo_ok hposition
        rw [Nat.zero_add] at hle
        cases hnative : native q (some start) with
        | ok parts =>
          obtain ⟨m, hm, -⟩ := of_native_ok hnative
          exact absurd ⟨⟨m, hm⟩, hle⟩ hq
        | error e =>
          refine ⟨e, ?_, isInputAt_of_native_error hnative⟩
          exact bind_eq_error.2 (.inr ⟨position, hposition, bind_eq_error.2 (.inl hnative)⟩)
    cases i with
    | zero =>
      obtain rfl : q = p := Option.some.inj h.element
      exact hhead h.fails
    | succ i =>
      obtain ⟨⟨m, hm⟩, hle⟩ : Admissible start q := h.before 0 (Nat.succ_pos i) q rfl
      have hshift : ∀ j, start + (j + 1) = start + 1 + j := fun j => by omega
      have htail : FirstFailing (fun j => Admissible (start + 1 + j)) ps i p := by
        refine ⟨h.element, ?_, fun j hj q' hq' => ?_⟩
        · rw [← hshift]
          exact h.fails
        · rw [← hshift]
          exact h.before (j + 1) (Nat.succ_lt_succ hj) q' hq'
      obtain ⟨e, he, hat⟩ := ih htail
      refine ⟨e, ?_, by rwa [Nat.add_assoc, Nat.add_comm 1 i] at hat⟩
      rw [nativesFrom, assignedSequenceNo_ok start (by omega), native_ok hm, he]
      rfl

/-- Admissible elements are native mutations, at most one for each position. -/
theorem represents_of_admissible {ps : List PyMutation} :
    ∀ {start : ℕ}, EveryElement (fun j => Admissible (start + j)) ps →
      ∃ ms, List.Forall₂ PyMutation.Represents ps ms ∧
        (ps ≠ [] → start + ps.length ≤ maxSequenceNo + 1) := by
  induction ps with
  | nil => exact fun _ => ⟨[], .nil, fun h => absurd rfl h⟩
  | cons q ps ih =>
    intro start h
    obtain ⟨⟨m, hm⟩, hle⟩ : Admissible start q := h 0 q rfl
    have htail : EveryElement (fun j => Admissible (start + 1 + j)) ps := by
      intro i p hp
      have := h (i + 1) p hp
      rwa [Nat.add_comm i 1, ← Nat.add_assoc] at this
    obtain ⟨ms, hms, hlen⟩ := ih htail
    refine ⟨m :: ms, .cons hm hms, fun _ => ?_⟩
    rw [List.length_cons]
    rcases eq_or_ne ps [] with rfl | hne
    · simp only [List.length_nil]
      omega
    · have := hlen hne
      omega

end Checks

/-! ## The slicing loop -/

section Loop

variable {fdbVersion envelopeBytes : ℕ} {maxRecordBytes : ℤ} {message : FDBMutation}

theorem batchRecordBytes_singleton (envelopeBytes : ℕ) (message : FDBMutation) :
    batchRecordBytes envelopeBytes [message] = envelopeBytes +
      framedBytes batchTagBytes (framedBytes mutationsTagBytes message.serialize.length) := by
  simp [batchRecordBytes, payloadBytes]

/-- An iteration fails exactly when the mutation is too large alone, whatever the open slice. -/
theorem sliceStep_of_fits
    (h : (batchRecordBytes envelopeBytes [message] : ℤ) ≤ maxRecordBytes) (i : ℕ) (s : SliceState) :
    ∃ s', sliceStep fdbVersion envelopeBytes maxRecordBytes i message s = .ok s' := by
  rw [batchRecordBytes_singleton] at h
  unfold sliceStep
  simp only
  split
  · rw [checkAlone, if_neg (not_lt.2 h)]
    exact ⟨_, rfl⟩
  · exact ⟨_, rfl⟩

theorem sliceStep_of_tooLarge
    (h : maxRecordBytes < (batchRecordBytes envelopeBytes [message] : ℤ)) (i : ℕ)
    (s : SliceState) :
    sliceStep fdbVersion envelopeBytes maxRecordBytes i message s =
      .error (tooLargeAlone i fdbVersion (batchRecordBytes envelopeBytes [message])
        maxRecordBytes) := by
  rw [batchRecordBytes_singleton] at h ⊢
  -- with it the open slice would be even larger, so it is closed
  have hgrown : maxRecordBytes < ((envelopeBytes + framedBytes batchTagBytes (s.batchBytes +
      framedBytes mutationsTagBytes message.serialize.length) : ℕ) : ℤ) := by
    have hle := framedBytes_mono batchTagBytes (Nat.le_add_left
      (framedBytes mutationsTagBytes message.serialize.length) s.batchBytes)
    push_cast at h ⊢
    omega
  unfold sliceStep
  simp only
  have hclosed : (closeSlice maxRecordBytes (envelopeBytes + framedBytes batchTagBytes
      (s.batchBytes + framedBytes mutationsTagBytes message.serialize.length)) i s).batchBytes =
      0 := by
    unfold closeSlice
    split
    · rfl
    · rename_i hopen
      by_contra hne
      exact hopen ⟨hne, hgrown⟩
  rw [if_pos hclosed, checkAlone, if_pos h]
  rfl

theorem sliceLoop_of_fits {messages : List FDBMutation}
    (h : ∀ message ∈ messages,
      (batchRecordBytes envelopeBytes [message] : ℤ) ≤ maxRecordBytes) (i : ℕ) (s : SliceState) :
    ∃ s', sliceLoop fdbVersion envelopeBytes maxRecordBytes i messages s = .ok s' := by
  induction messages generalizing i s with
  | nil => exact ⟨s, rfl⟩
  | cons message messages ih =>
    obtain ⟨s₁, hs₁⟩ := @sliceStep_of_fits fdbVersion _ _ _ (h message List.mem_cons_self) i s
    obtain ⟨s', hs'⟩ := ih (fun x hx => h x (List.mem_cons_of_mem message hx)) (i + 1) s₁
    exact ⟨s', bind_eq_ok.2 ⟨s₁, hs₁, hs'⟩⟩

theorem sliceLoop_of_tooLarge {messages : List FDBMutation} {k : ℕ}
    (hk : messages[k]? = some message)
    (htooLarge : maxRecordBytes < (batchRecordBytes envelopeBytes [message] : ℤ))
    (hbefore : ∀ j < k, ∀ x, messages[j]? = some x →
      (batchRecordBytes envelopeBytes [x] : ℤ) ≤ maxRecordBytes) (i : ℕ) (s : SliceState) :
    sliceLoop fdbVersion envelopeBytes maxRecordBytes i messages s =
      .error (tooLargeAlone (i + k) fdbVersion (batchRecordBytes envelopeBytes [message])
        maxRecordBytes) := by
  induction messages generalizing i s k with
  | nil => cases hk
  | cons x messages ih =>
    cases k with
    | zero =>
      obtain rfl : x = message := Option.some.inj hk
      exact bind_eq_error.2 (.inl (sliceStep_of_tooLarge htooLarge i s))
    | succ k =>
      obtain ⟨s₁, hs₁⟩ := @sliceStep_of_fits fdbVersion _ _ _ (hbefore 0 (Nat.succ_pos k) x rfl) i s
      have hrest := ih hk (fun j hj => hbefore (j + 1) (Nat.succ_lt_succ hj)) (i + 1) s₁
      rw [show i + (k + 1) = i + 1 + k by omega]
      exact bind_eq_error.2 (.inr ⟨s₁, hs₁, hrest⟩)

end Loop

/-! ## The outcome of a call -/

section Outcome

variable {ps : List PyMutation} {fdbVersion maxRecordBytes streamName bridgeTimestampNs : PyVal}
  {version : ℕ} {budget : ℤ} {e : Envelope}

/-- The end of a call, with the batch records and the result of serializing the version end. -/
def finishGroup (budget : ℤ) (version : ℕ) (records : List Bytes)
    (versionEnd : Except SerializationError Bytes) : Except SerializationError (List Bytes) := do
  let versionEnd ← versionEnd
  if (versionEnd.length : ℤ) > budget then
    throw (.recordTooLarge ("version end of version " ++ toString version ++ " needs a " ++
      toString versionEnd.length ++ "-byte record; max_record_bytes is " ++ toString budget)
      none versionEnd.length budget)
  return records ++ [versionEnd]

/-- A call whose keywords pass goes on with the elements. -/
theorem serializeVersionGroup_eq (hversion : Checks.fdbVersion fdbVersion = .ok version)
    (hbudget : Checks.maxRecordBytes maxRecordBytes = .ok budget)
    (henvelope : Checks.envelope streamName bridgeTimestampNs = .ok (e.name, e.timestampNs)) :
    serializeVersionGroup (.items ps) fdbVersion maxRecordBytes streamName bridgeTimestampNs =
      (Checks.natives (.items ps) 0 >>= fun natives =>
        slicesOf version (Wire.record e.name e.timestampNs none).length budget
            (Wire.mutationMessages version 0 natives) >>= fun slices =>
          finishGroup budget version
            (slices.map fun slice => Wire.record e.name e.timestampNs
              (some (.batch ⟨sliceMessages (Wire.mutationMessages version 0 natives) slice⟩)))
            (serializeVersionEnd fdbVersion
              (.int (Wire.mutationMessages version 0 natives).length) streamName
              bridgeTimestampNs)) := by
  rw [serializeVersionGroup, hversion, hbudget, henvelope]
  rfl

/-- The error of a version end that does not fit. -/
def versionEndTooLarge (version length : ℕ) (budget : ℤ) : SerializationError :=
  .recordTooLarge ("version end of version " ++ toString version ++ " needs a " ++
    toString length ++ "-byte record; max_record_bytes is " ++ toString budget) none length budget

theorem finishGroup_ok (records : List Bytes) (data : Bytes) :
    finishGroup budget version records (.ok data) =
      if (data.length : ℤ) > budget then .error (versionEndTooLarge version data.length budget)
      else .ok (records ++ [data]) := by
  show (if _ then _ else _) = _
  split <;> rfl

theorem finishGroup_of_fits {records : List Bytes} {versionEnd : Except SerializationError Bytes}
    (h : Fits budget versionEnd) : ∃ all, finishGroup budget version records versionEnd = .ok all := by
  obtain ⟨data, rfl, hle⟩ := h
  rw [finishGroup_ok, if_neg (not_lt.2 hle)]
  exact ⟨_, rfl⟩

theorem fits_of_finishGroup {records all : List Bytes}
    {versionEnd : Except SerializationError Bytes}
    (h : finishGroup budget version records versionEnd = .ok all) : Fits budget versionEnd := by
  cases versionEnd with
  | error e => cases h
  | ok data =>
    rw [finishGroup_ok] at h
    split at h
    · cases h
    · rename_i hle
      exact ⟨data, rfl, not_lt.1 hle⟩

/-- The record that holds one element alone is as long as the loop computes. -/
theorem serializeBatch_alone {p : PyMutation} {m : NativeMutation} (hp : p.Represents m) {i : ℕ}
    (hv : version ≤ maxVersion) (hi : i ≤ maxSequenceNo) :
    ∃ data, serializeBatch (.items [p]) (.int version) (.int i) (.str e.streamName)
        (.int e.timestampNs) = .ok data ∧
      data.length = batchRecordBytes (Wire.record e.name e.timestampNs none).length
        [Wire.mutationMessage m.parts version i] := by
  have hlast : i + [m].length ≤ maxSequenceNo + 1 := Nat.succ_le_succ hi
  refine ⟨_, serializeBatch_ok e (.cons hp .nil) hv (List.cons_ne_nil m []) hlast, ?_⟩
  exact length_record_batch _ _ _

/-- The messages of admissible elements, and what `natives` and `serializeBatch` make of them. -/
structure Checked (e : Envelope) (version : ℕ) (ps : List PyMutation)
    (messages : List FDBMutation) (natives : List (ℕ × Bytes × Bytes)) : Prop where
  natives_ok : Checks.natives (.items ps) 0 = .ok natives
  messages_eq : Wire.mutationMessages version 0 natives = messages
  length_eq : messages.length = ps.length
  element : ∀ (i : ℕ) p, ps[i]? = some p → ∃ message data, messages[i]? = some message ∧
    serializeBatch (.items [p]) (.int version) (.int i) (.str e.streamName)
      (.int e.timestampNs) = .ok data ∧
    data.length = batchRecordBytes (Wire.record e.name e.timestampNs none).length [message]

theorem checked_of_admissible (hv : version ≤ maxVersion) (h : EveryElement Admissible ps) :
    ∃ messages natives, Checked e version ps messages natives := by
  have hshift : EveryElement (fun j => Admissible (0 + j)) ps := by
    intro i p hp
    rw [Nat.zero_add]
    exact h i p hp
  obtain ⟨ms, hms, hlen⟩ := Checks.represents_of_admissible hshift
  have hlength : 0 + ms.length ≤ maxSequenceNo + 1 := by
    rcases eq_or_ne ps [] with hnil | hne
    · rw [← hms.length_eq, hnil]
      exact Nat.zero_le _
    · rw [← hms.length_eq]
      exact hlen hne
  refine ⟨_, _, Checks.natives_ok hms hlength, rfl, ?_, ?_⟩
  · rw [Wire.length_mutationMessages, List.length_map, hms.length_eq]
  · intro i p hp
    obtain ⟨m, hm, hpm⟩ := getElem?_of_forall₂ hms hp
    obtain ⟨data, hdata, hsize⟩ := @serializeBatch_alone version e p m hpm i hv (h i p hp).2
    refine ⟨_, data, ?_, hdata, hsize⟩
    rw [Wire.getElem?_mutationMessages, List.getElem?_map, hm, Nat.zero_add]
    rfl

section Checked

variable {messages : List FDBMutation} {natives : List (ℕ × Bytes × Bytes)}

theorem Checked.fits_iff (h : Checked e version ps messages natives) {i : ℕ} {p : PyMutation}
    {message : FDBMutation} (hp : ps[i]? = some p) (hi : messages[i]? = some message) :
    Fits budget (serializeBatch (.items [p]) (.int version) (.int i) (.str e.streamName)
        (.int e.timestampNs)) ↔
      (batchRecordBytes (Wire.record e.name e.timestampNs none).length [message] : ℤ) ≤ budget := by
  obtain ⟨message', data, hi', hdata, hsize⟩ := h.element i p hp
  obtain rfl : message' = message := Option.some.inj (hi'.symm.trans hi)
  rw [← hsize]
  constructor
  · rintro ⟨data', hdata', hle⟩
    rw [hdata] at hdata'
    cases hdata'
    exact hle
  · exact fun hle => ⟨data, hdata, hle⟩

theorem Checked.element_of_message (h : Checked e version ps messages natives) {i : ℕ}
    {message : FDBMutation} (hi : messages[i]? = some message) : ∃ p, ps[i]? = some p := by
  have hlt : i < ps.length := by
    rw [← h.length_eq]
    exact (List.getElem?_eq_some_iff.1 hi).1
  exact ⟨ps[i], List.getElem?_eq_getElem hlt⟩

/-- With a first mutation that is too large alone, there are no slices. -/
theorem Checked.slicesOf_tooLarge (h : Checked e version ps messages natives) {i : ℕ}
    {p : PyMutation}
    (hfirst : FirstFailing (fun i p => Fits budget (serializeBatch (.items [p]) (.int version)
      (.int i) (.str e.streamName) (.int e.timestampNs))) ps i p) :
    ∃ data, serializeBatch (.items [p]) (.int version) (.int i) (.str e.streamName)
        (.int e.timestampNs) = .ok data ∧
      slicesOf version (Wire.record e.name e.timestampNs none).length budget messages =
        .error (tooLargeAlone i version data.length budget) := by
  obtain ⟨message, data, hi, hdata, hsize⟩ := h.element i p hfirst.element
  refine ⟨data, hdata, ?_⟩
  have htooLarge : budget <
      (batchRecordBytes (Wire.record e.name e.timestampNs none).length [message] : ℤ) :=
    not_le.1 fun hle => hfirst.fails ((h.fits_iff hfirst.element hi).2 hle)
  have hbefore : ∀ j < i, ∀ x, messages[j]? = some x →
      (batchRecordBytes (Wire.record e.name e.timestampNs none).length [x] : ℤ) ≤ budget := by
    intro j hj x hx
    obtain ⟨q, hq⟩ := h.element_of_message hx
    exact (h.fits_iff hq hx).1 (hfirst.before j hj q hq)
  have hloop := @sliceLoop_of_tooLarge version _ _ _ _ _ hi htooLarge hbefore 0 ⟨[], 0, 0⟩
  rw [Nat.zero_add, ← hsize] at hloop
  exact bind_eq_error.2 (.inl hloop)

theorem Checked.slicesOf_fits (h : Checked e version ps messages natives)
    (hall : EveryElement (fun i p => Fits budget (serializeBatch (.items [p]) (.int version)
      (.int i) (.str e.streamName) (.int e.timestampNs))) ps) :
    ∃ slices, slicesOf version (Wire.record e.name e.timestampNs none).length budget messages =
      .ok slices := by
  have hfits : ∀ message ∈ messages,
      (batchRecordBytes (Wire.record e.name e.timestampNs none).length [message] : ℤ) ≤ budget := by
    intro message hmem
    obtain ⟨i, hi⟩ := List.mem_iff_getElem?.1 hmem
    obtain ⟨p, hp⟩ := h.element_of_message hi
    exact (h.fits_iff hp hi).1 (hall i p hp)
  obtain ⟨s, hs⟩ := @sliceLoop_of_fits version _ _ _ hfits 0 ⟨[], 0, 0⟩
  exact ⟨_, bind_eq_ok.2 ⟨s, hs, rfl⟩⟩

end Checked

/-- Whether a call whose keywords pass returns, and what it raises, is decided by the elements one
by one and by the version end. -/
theorem serializeVersionGroup_outcome {checked : List Char × ℕ}
    (hversion : Checks.fdbVersion fdbVersion = .ok version)
    (hbudget : Checks.maxRecordBytes maxRecordBytes = .ok budget)
    (henvelope : Checks.envelope streamName bridgeTimestampNs = .ok checked) :
    let result := serializeVersionGroup (.items ps) fdbVersion maxRecordBytes streamName
      bridgeTimestampNs
    let alone := fun (i : ℕ) (p : PyMutation) =>
      serializeBatch (.items [p]) fdbVersion (.int i) streamName bridgeTimestampNs
    let fitsAlone := fun (i : ℕ) (p : PyMutation) => Fits budget (alone i p)
    let versionEnd := serializeVersionEnd fdbVersion (.int ps.length) streamName bridgeTimestampNs
    ((∃ records, result = .ok records) ↔ EveryElement Admissible ps ∧
      ps.length ≤ maxTotalMutations ∧ EveryElement fitsAlone ps ∧ Fits budget versionEnd) ∧
    (∀ i p, FirstFailing Admissible ps i p → ∃ e, result = .error e ∧ e.IsInputAt i) ∧
    (EveryElement Admissible ps →
      (∀ i p, FirstFailing fitsAlone ps i p → ∃ message data, alone i p = .ok data ∧
        result = .error (.recordTooLarge message (some i) data.length budget)) ∧
      (EveryElement fitsAlone ps → ps.length ≤ maxTotalMutations → ¬ Fits budget versionEnd →
        ∃ message data, versionEnd = .ok data ∧
          result = .error (.recordTooLarge message none data.length budget))) := by
  intro result alone fitsAlone versionEnd
  obtain ⟨rfl, hv⟩ := Checks.of_fdbVersion_ok hversion
  obtain ⟨e, rfl, rfl, rfl⟩ := Checks.of_envelope_ok henvelope
  have hresult := @serializeVersionGroup_eq ps _ _ _ _ version budget e hversion hbudget henvelope
  have hinadmissible : ∀ i p, FirstFailing Admissible ps i p →
      ∃ e, result = .error e ∧ e.IsInputAt i := by
    intro i p hfirst
    have hshift : FirstFailing (fun j => Admissible (0 + j)) ps i p := by
      simpa only [Nat.zero_add] using hfirst
    obtain ⟨err, herr, hat⟩ := Checks.nativesFrom_firstFailing hshift
    rw [Nat.zero_add] at hat
    refine ⟨err, hresult.trans ?_, hat⟩
    exact bind_eq_error.2 (.inl herr)
  have htooLarge : EveryElement Admissible ps → ∀ i p, FirstFailing fitsAlone ps i p →
      ∃ message data, alone i p = .ok data ∧
        result = .error (.recordTooLarge message (some i) data.length budget) := by
    intro hall i p hfirst
    obtain ⟨messages, natives, hchecked⟩ := @checked_of_admissible ps version e hv hall
    obtain ⟨data, hdata, hslices⟩ := hchecked.slicesOf_tooLarge hfirst
    have herror : result = .error (tooLargeAlone i version data.length budget) := by
      refine hresult.trans (bind_eq_error.2 (.inr ⟨natives, hchecked.natives_ok, ?_⟩))
      rw [hchecked.messages_eq]
      exact bind_eq_error.2 (.inl hslices)
    exact ⟨_, data, hdata, herror⟩
  -- with nothing wrong in the elements, the version end decides
  have hend : EveryElement Admissible ps → EveryElement fitsAlone ps →
      ∃ records, result = finishGroup budget version records versionEnd := by
    intro hall hfits
    obtain ⟨messages, natives, hchecked⟩ := @checked_of_admissible ps version e hv hall
    obtain ⟨slices, hslices⟩ := hchecked.slicesOf_fits hfits
    rw [← hchecked.messages_eq] at hslices
    have hlength : (Wire.mutationMessages version 0 natives).length = ps.length := by
      rw [hchecked.messages_eq, hchecked.length_eq]
    refine ⟨slices.map fun slice => Wire.record e.name e.timestampNs
      (some (.batch ⟨sliceMessages (Wire.mutationMessages version 0 natives) slice⟩)), ?_⟩
    refine hresult.trans ?_
    rw [hchecked.natives_ok]
    show (slicesOf version _ budget (Wire.mutationMessages version 0 natives) >>= fun slices =>
      finishGroup budget version _ _) = _
    rw [hslices, hlength]
    rfl
  refine ⟨⟨?_, ?_⟩, hinadmissible, fun hall => ⟨htooLarge hall, ?_⟩⟩
  · rintro ⟨records, hok⟩
    rcases everyElement_or_firstFailing Admissible ps with hall | ⟨i, p, hfirst⟩
    · rcases everyElement_or_firstFailing fitsAlone ps with hfits | ⟨i, p, hfirst⟩
      · obtain ⟨batches, heq⟩ := hend hall hfits
        have hversionEnd := fits_of_finishGroup (heq.symm.trans hok)
        have ⟨data, hdata, _⟩ := hversionEnd
        obtain ⟨-, -, total, -, -, htotal, -⟩ := of_serializeVersionEnd_ok hdata
        exact ⟨hall, (Checks.of_totalMutations_ok htotal).2, hfits, hversionEnd⟩
      · obtain ⟨message, data, -, herror⟩ := htooLarge hall i p hfirst
        rw [hok] at herror
        cases herror
    · obtain ⟨err, herror, -⟩ := hinadmissible i p hfirst
      rw [hok] at herror
      cases herror
  · rintro ⟨hall, -, hfits, hversionEnd⟩
    obtain ⟨batches, heq⟩ := hend hall hfits
    rw [heq]
    exact finishGroup_of_fits hversionEnd
  · intro hfits hlen hbig
    obtain ⟨batches, heq⟩ := hend hall hfits
    have hdata : versionEnd = .ok (versionEndRecord e version ps.length) :=
      serializeVersionEnd_ok e hv hlen
    have hover : budget < (versionEndRecord e version ps.length).length :=
      not_le.1 fun hle => hbig ⟨_, hdata, hle⟩
    have herror : result =
        .error (versionEndTooLarge version (versionEndRecord e version ps.length).length budget) := by
      rw [heq, hdata, finishGroup_ok, if_pos hover]
    exact ⟨_, _, hdata, herror⟩

/-- The third of three mutations is too large alone; the first two would share a record. -/
theorem serializeVersionGroup_outcome_three :
    ∃ message data, serializeBatch (.items [NativeMutation.toPy ⟨0, [1, 2, 3, 4, 5, 6, 7, 8], []⟩])
        (.int 5) (.int (2 : ℕ)) (.str (PyStr.ofChars [ 's'])) (.int 0) = .ok data ∧
      serializeVersionGroup (.items [NativeMutation.toPy ⟨0, [], []⟩, NativeMutation.toPy ⟨0, [], []⟩,
          NativeMutation.toPy ⟨0, [1, 2, 3, 4, 5, 6, 7, 8], []⟩]) (.int 5) (.int 26)
          (.str (PyStr.ofChars [ 's'])) (.int 0) =
        .error (.recordTooLarge message (some 2) data.length 26) := by
  have hadmissible : EveryElement Admissible [NativeMutation.toPy ⟨0, [], []⟩,
      NativeMutation.toPy ⟨0, [], []⟩, NativeMutation.toPy ⟨0, [1, 2, 3, 4, 5, 6, 7, 8], []⟩] := by
    intro i p hp
    have hlt : i < 3 := (List.getElem?_eq_some_iff.1 hp).1
    have hle : i ≤ maxSequenceNo := le_trans hlt.le (by decide)
    interval_cases i <;> cases hp <;> exact ⟨⟨_, NativeMutation.toPy_represents _⟩, hle⟩
  have hfirst : FirstFailing (fun i p => Fits 26 (serializeBatch (.items [p]) (.int 5) (.int i)
      (.str (PyStr.ofChars [ 's'])) (.int 0))) [NativeMutation.toPy ⟨0, [], []⟩,
      NativeMutation.toPy ⟨0, [], []⟩, NativeMutation.toPy ⟨0, [1, 2, 3, 4, 5, 6, 7, 8], []⟩] 2
      (NativeMutation.toPy ⟨0, [1, 2, 3, 4, 5, 6, 7, 8], []⟩) := by
    refine ⟨rfl, ?_, ?_⟩
    · rintro ⟨data, hdata, hle⟩
      have hlong : serializeBatch (.items [NativeMutation.toPy ⟨0, [1, 2, 3, 4, 5, 6, 7, 8], []⟩])
          (.int 5) (.int (2 : ℕ)) (.str (PyStr.ofChars [ 's'])) (.int 0) =
          .ok [10, 1, 115, 18, 0, 42, 20, 10, 18, 10, 4, 8, 5, 16, 2, 18, 10, 10, 8, 1, 2, 3, 4, 5,
            6, 7, 8] := by decide +kernel
      rw [hlong] at hdata
      cases hdata
      revert hle
      decide
    · intro j hj q hq
      interval_cases j
      · cases hq
        exact ⟨[10, 1, 115, 18, 0, 42, 8, 10, 6, 10, 2, 8, 5, 18, 0], by decide +kernel, by decide⟩
      · cases hq
        exact ⟨[10, 1, 115, 18, 0, 42, 10, 10, 8, 10, 4, 8, 5, 16, 1, 18, 0], by decide +kernel,
          by decide⟩
  exact ((@serializeVersionGroup_outcome _ (.int 5) (.int 26) (.str (PyStr.ofChars [ 's'])) (.int 0)
    5 26 ([ 's'], 0) rfl rfl rfl).2.2 hadmissible).1 2 _ hfirst

end Outcome

end FdbKafkaBridge.Serialization
