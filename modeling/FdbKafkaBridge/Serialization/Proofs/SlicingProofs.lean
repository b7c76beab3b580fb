import FdbKafkaBridge.Serialization.Proofs.VersionGroupProofs

/-!
# The sizes are exact, and the slices are greedy

The computed size of a batch record is its length. It grows with the slice, since the varint of a
length never gets shorter when the length grows. So the loop, which closes a slice only when the next
mutation does not fit any more, makes as few records as any way of slicing the group.
-/

namespace FdbKafkaBridge.Serialization

open Protobuf Slicing

/-! ## Sizes grow with the slice -/

theorem framedBytes_mono (t : ℕ) : Monotone (framedBytes t) := by
  intro m n h
  rw [framedBytes_eq, framedBytes_eq]
  exact (framedSize_strictMono t).monotone h

theorem batchRecordBytes_mono (envelopeBytes : ℕ) {messages messages' : List FDBMutation}
    (h : List.Sublist messages messages') :
    batchRecordBytes envelopeBytes messages ≤ batchRecordBytes envelopeBytes messages' := by
  have hpayload : payloadBytes messages ≤ payloadBytes messages' :=
    (h.map _).sum_le_sum fun _ _ => Nat.zero_le _
  exact Nat.add_le_add_left (framedBytes_mono batchTagBytes hpayload) envelopeBytes

theorem sliceMessages_sublist (messages : List FDBMutation) {a a' b b' : ℕ} (ha : a ≤ a')
    (hb : b' ≤ b) :
    List.Sublist (sliceMessages messages (a', b')) (sliceMessages messages (a, b)) := by
  have htake : List.Sublist (messages.take b') (messages.take b) :=
    List.take_sublist_take_left hb
  exact (htake.drop a').trans (List.drop_sublist_drop_left _ ha)

/-! ## The loop is greedy -/

section Loop

variable {fdbVersion envelopeBytes : ℕ} {maxRecordBytes : ℤ} {messages : List FDBMutation}

/-- No closed slice could also have held the mutation after it. -/
def Overfull (envelopeBytes : ℕ) (maxRecordBytes : ℤ) (messages : List FDBMutation)
    (s : SliceState) : Prop :=
  ∀ slice ∈ s.slices, maxRecordBytes <
    (batchRecordBytes envelopeBytes (sliceMessages messages (slice.1, slice.2 + 1)) : ℤ)

theorem Overfull.step {i : ℕ} {message : FDBMutation} {s s' : SliceState}
    (hinv : SliceInvariant envelopeBytes maxRecordBytes messages i s)
    (hover : Overfull envelopeBytes maxRecordBytes messages s)
    (hi : messages[i]? = some message)
    (h : sliceStep fdbVersion envelopeBytes maxRecordBytes i message s = .ok s') :
    Overfull envelopeBytes maxRecordBytes messages s' := by
  rcases sliceStep_ok h with ⟨-, -, rfl⟩ | ⟨-, -, rfl⟩ | ⟨-, hgrown, -, rfl⟩
  · exact hover
  · exact hover
  · -- the slice that was closed is the open one of before
    have hgrow : payloadBytes (sliceMessages messages (s.start, i + 1)) =
        s.batchBytes + framedBytes mutationsTagBytes message.serialize.length := by
      rw [sliceMessages_concat hi hinv.start_le, payloadBytes_concat, ← hinv.batchBytes]
    intro slice hslice
    rcases List.mem_append.1 hslice with hclosed | hnew
    · exact hover slice hclosed
    · rw [List.mem_singleton] at hnew
      rw [hnew, batchRecordBytes, hgrow]
      exact hgrown

theorem slicesOf_greedy {slices : List (ℕ × ℕ)}
    (h : slicesOf fdbVersion envelopeBytes maxRecordBytes messages = .ok slices) :
    ∀ slice ∈ slices, slice.2 < messages.length → maxRecordBytes <
      (batchRecordBytes envelopeBytes (sliceMessages messages (slice.1, slice.2 + 1)) : ℤ) := by
  obtain ⟨s, hloop, h⟩ := bind_eq_ok.1 h
  have hover : SliceInvariant envelopeBytes maxRecordBytes messages messages.length s ∧
      Overfull envelopeBytes maxRecordBytes messages s :=
    sliceLoop_induction
      (J := fun i s => SliceInvariant envelopeBytes maxRecordBytes messages i s ∧
        Overfull envelopeBytes maxRecordBytes messages s)
      (fun _ _ _ _ hi hJ hs => ⟨hJ.1.step hi hs, Overfull.step hJ.1 hJ.2 hi hs⟩)
      messages [] rfl ⟨SliceInvariant.init, fun _ hmem => nomatch hmem⟩ hloop
  cases h
  intro slice hslice hlt
  by_cases hempty : messages = []
  · rw [if_pos hempty] at hslice
    exact hover.2 slice hslice
  · rw [if_neg hempty] at hslice
    rcases List.mem_append.1 hslice with hclosed | hlast
    · exact hover.2 slice hclosed
    · rw [List.mem_singleton] at hlast
      rw [hlast] at hlt
      exact absurd hlt (lt_irrefl _)

end Loop

/-! ## The computed sizes are the sizes -/

/-- `serializeBatch` of the mutations of a slice, at their positions in the group. -/
def serializeSlice (ps : List PyMutation) (fdbVersion streamName bridgeTimestampNs : PyVal)
    (slice : ℕ × ℕ) : Except SerializationError Bytes :=
  serializeBatch (.items ((ps.take slice.2).drop slice.1)) fdbVersion (.int slice.1) streamName
    bridgeTimestampNs

/-- The iterations before position `i` leave the open slice in `batchBytes`. -/
theorem SliceInvariant.before {fdbVersion envelopeBytes : ℕ} {maxRecordBytes : ℤ}
    {messages : List FDBMutation} {i : ℕ} {s : SliceState} (hi : i ≤ messages.length)
    (h : sliceLoop fdbVersion envelopeBytes maxRecordBytes 0 (messages.take i) ⟨[], 0, 0⟩ = .ok s) :
    s.start ≤ i ∧ s.batchBytes = payloadBytes (sliceMessages messages (s.start, i)) := by
  have hinv := SliceInvariant.run h
  have hlength : (messages.take i).length = i := by
    rw [List.length_take]
    omega
  have hstart := hinv.start_le
  have hbytes := hinv.batchBytes
  rw [hlength] at hstart hbytes
  refine ⟨hstart, ?_⟩
  rw [hbytes, sliceMessages, sliceMessages, List.take_take, Nat.min_self]

/-- Every batch record is full: with the next mutation it would be over the budget. And any
partition of the group into slices that fit has at least as many of them. -/
theorem serializeVersionGroup_greedy {ps : List PyMutation}
    {fdbVersion streamName bridgeTimestampNs : PyVal} {maxRecordBytes : ℤ} {records : List Bytes}
    (h : serializeVersionGroup (.items ps) fdbVersion (.int maxRecordBytes) streamName
      bridgeTimestampNs = .ok records) :
    ∃ (slices : List (ℕ × ℕ)) (batches : List Bytes) (versionEnd : Bytes),
      records = batches ++ [versionEnd] ∧
      serializeVersionEnd fdbVersion (.int ps.length) streamName bridgeTimestampNs =
        .ok versionEnd ∧
      Contiguous 0 slices ps.length ∧
      List.Forall₂ (fun slice data => serializeSlice ps fdbVersion streamName bridgeTimestampNs
        slice = .ok data ∧ (data.length : ℤ) ≤ maxRecordBytes) slices batches ∧
      (∀ slice ∈ slices, slice.2 < ps.length → ∃ data,
        serializeSlice ps fdbVersion streamName bridgeTimestampNs (slice.1, slice.2 + 1) =
          .ok data ∧ maxRecordBytes < data.length) ∧
      ∀ partition : List (ℕ × ℕ), Contiguous 0 partition ps.length →
        (∀ slice ∈ partition, ∃ data, serializeSlice ps fdbVersion streamName bridgeTimestampNs
          slice = .ok data ∧ (data.length : ℤ) ≤ maxRecordBytes) →
        batches.length ≤ partition.length := by
  obtain ⟨_, ms, hitems, hps⟩ := represents_of_serializeVersionGroup_ok h
  cases hitems
  obtain ⟨e, version, budget, slices, rfl, hbudget, rfl, rfl, hrecords, hslices⟩ :=
    serializeVersionGroup_ok hps h
  cases hbudget
  obtain ⟨hv, hlen, hcontiguous, hrecordsEq, hfits⟩ := hrecords
  have hlength : (Wire.mutationMessages version 0 (ms.map NativeMutation.parts)).length =
      ms.length := by simp
  have hgreedy := slicesOf_greedy hslices
  rw [hlength] at hgreedy
  -- the record of any slice, and its length as the loop computes it
  have hslice : ∀ a b, a < b → b ≤ ms.length →
      serializeSlice ps (.int version) (.str e.streamName) (.int e.timestampNs) (a, b) =
        .ok (batchRecord e version ms (a, b)) :=
    fun a b hlt hb => serializeBatch_slice e hps hv hlen hlt hb
  have hsize : ∀ slice, (batchRecord e version ms slice).length =
      batchRecordBytes (Wire.record e.name e.timestampNs none).length
        (sliceMessages (Wire.mutationMessages version 0 (ms.map NativeMutation.parts)) slice) := by
    intro slice
    rw [batchRecord, length_record_batch, sliceMessages_mutationMessages]
  rw [hps.length_eq]
  refine ⟨slices, slices.map (batchRecord e version ms), versionEndRecord e version ms.length,
    hrecordsEq, serializeVersionEnd_ok e hv hlen, hcontiguous, ?_, ?_, ?_⟩
  · rw [List.forall₂_map_right_iff, List.forall₂_same]
    intro slice hmem
    obtain ⟨hlt, hb⟩ := hcontiguous.mem slice hmem
    refine ⟨hslice slice.1 slice.2 hlt hb, hfits _ ?_⟩
    rw [hrecordsEq]
    exact List.mem_append_left _ (List.mem_map_of_mem hmem)
  · intro slice hmem hlt
    obtain ⟨hab, -⟩ := hcontiguous.mem slice hmem
    refine ⟨_, hslice slice.1 (slice.2 + 1) (by omega) hlt, ?_⟩
    rw [hsize]
    exact hgreedy slice hmem hlt
  · intro partition hpartition hall
    let fits : ℕ → ℕ → Prop := fun a b =>
      (batchRecordBytes (Wire.record e.name e.timestampNs none).length
        (sliceMessages (Wire.mutationMessages version 0 (ms.map NativeMutation.parts)) (a, b)) : ℤ)
          ≤ maxRecordBytes
    have hslicesGreedy : Greedy fits ms.length slices :=
      fun slice hmem hlt => not_le.2 (hgreedy slice hmem hlt)
    have hmono : ∀ a a' b b', a ≤ a' → b' ≤ b → fits a b → fits a' b' := by
      intro a a' b b' ha hb hab
      have hle := batchRecordBytes_mono (Wire.record e.name e.timestampNs none).length
        (sliceMessages_sublist (Wire.mutationMessages version 0 (ms.map NativeMutation.parts)) ha hb)
      exact (Int.ofNat_le.2 hle).trans hab
    have hpartitionFits : ∀ slice ∈ partition, fits slice.1 slice.2 := by
      intro slice hmem
      obtain ⟨data, hdata, hle⟩ := hall slice hmem
      obtain ⟨hlt, hb⟩ := hpartition.mem slice hmem
      rw [hslice slice.1 slice.2 hlt hb] at hdata
      cases hdata
      rwa [hsize] at hle
    rw [List.length_map]
    exact hslicesGreedy.length_le hmono hpartitionFits le_rfl hcontiguous hpartition

/-- Two mutations under a budget that holds one at a time: no partition has fewer than two. -/
theorem serializeVersionGroup_greedy_two :
    ∃ (batches : List Bytes) (versionEnd : Bytes),
      ([[10, 1, 115, 18, 0, 42, 11, 10, 9, 10, 2, 8, 5, 18, 3, 10, 1, 1],
        [10, 1, 115, 18, 0, 42, 16, 10, 14, 10, 4, 8, 5, 16, 1, 26, 6, 10, 1, 2, 18, 1, 3],
        [10, 1, 115, 18, 0, 34, 6, 8, 5, 16, 2, 26, 0]] : List Bytes) = batches ++ [versionEnd] ∧
      ∀ partition : List (ℕ × ℕ), Contiguous 0 partition 2 →
        (∀ slice ∈ partition, ∃ data,
          serializeSlice [NativeMutation.toPy ⟨0, [1], []⟩, NativeMutation.toPy ⟨1, [2], [3]⟩]
            (.int 5) (.str (PyStr.ofChars [ 's'])) (.int 0) slice = .ok data ∧
          (data.length : ℤ) ≤ 23) →
        batches.length ≤ partition.length := by
  obtain ⟨slices, batches, versionEnd, heq, -, -, -, -, hminimal⟩ :=
    @serializeVersionGroup_greedy
      [NativeMutation.toPy ⟨0, [1], []⟩, NativeMutation.toPy ⟨1, [2], [3]⟩] (.int 5)
      (.str (PyStr.ofChars [ 's'])) (.int 0) 23
      [[10, 1, 115, 18, 0, 42, 11, 10, 9, 10, 2, 8, 5, 18, 3, 10, 1, 1],
        [10, 1, 115, 18, 0, 42, 16, 10, 14, 10, 4, 8, 5, 16, 1, 26, 6, 10, 1, 2, 18, 1, 3],
        [10, 1, 115, 18, 0, 34, 6, 8, 5, 16, 2, 26, 0]] (by decide +kernel)
  exact ⟨batches, versionEnd, heq, hminimal⟩

end FdbKafkaBridge.Serialization
