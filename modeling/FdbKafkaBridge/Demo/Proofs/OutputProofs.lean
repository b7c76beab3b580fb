import FdbKafkaBridge.Demo.Proofs.VerifyProofs

/-!
# Correct outputs of every size

What is checked does not depend on the order of the records. For every number of operations there is
a correct output, so above 10 ^ 8 operations a correct output is rejected: the index in a key has
eight digits or more, and the verifier reads eight of them.
-/

namespace FdbKafkaBridge.Demo

open Protobuf (Bytes)
open Serialization

variable {keyPrefix : Bytes} {count : ℤ} {ms ms' : List FDBMutation} {ends ends' : List (ℕ × ℕ)}

/-! ## The order of the records -/

theorem Passes.perm (h : Passes keyPrefix count ms ends) (hms : ms.Perm ms')
    (hends : ends.Perm ends') : Passes keyPrefix count ms' ends' where
  coordinates := (hms.map _).nodup_iff.1 h.coordinates
  indices := (hms.map _).nodup_iff.1 h.indices
  operations m hm := h.operations m (hms.mem_iff.2 hm)
  endedOnce := (hends.map _).nodup_iff.1 h.endedOnce

theorem Reconciles.perm (h : Reconciles ms ends) (hms : ms.Perm ms') (hends : ends.Perm ends') :
    Reconciles ms' ends' where
  coordinates := (hms.map _).nodup_iff.1 h.coordinates
  ended m hm := by
    obtain ⟨total, htotal⟩ := h.ended m (hms.mem_iff.2 hm)
    exact ⟨total, hends.mem_iff.1 htotal⟩
  endedOnce := (hends.map _).nodup_iff.1 h.endedOnce
  exact version total hend n := by
    rw [← h.exact version total (hends.mem_iff.2 hend) n]
    exact (hms.map coordinate).mem_iff.symm

theorem Accepts.perm {records records' : List FDBMutationRecord} (hperm : records.Perm records')
    (h : Accepts records keyPrefix count) : Accepts records' keyPrefix count := by
  have hms : (mutationsOf records).Perm (mutationsOf records') := hperm.flatMap_right _
  have hends : (versionEndsOf records).Perm (versionEndsOf records') := hperm.flatMap_right _
  rw [accepts_iff] at h ⊢
  obtain ⟨hpasses, hlength, hreconciles, hsum⟩ := h
  refine ⟨hpasses.perm hms hends, ?_, hreconciles.perm hms hends, ?_⟩
  · rw [← hms.length_eq]
    exact hlength
  · rw [← (hends.map Prod.snd).sum_eq]
    exact hsum

/-! ## A correct output -/

/-- A mutation that is emitted as expected, with zeros for the stamp. -/
def emitted (keyPrefix : Bytes) (index : ℕ) : FDBMutation :=
  let e := expectedMutation keyPrefix index
  { versionIndex := some ⟨index, 0⟩
    mutation := some (if e.typeCode = clearRangeTypeCode then .clearRange ⟨e.param1, e.param2⟩
      else .singleKeyMutation ⟨e.param1, e.param2, e.typeCode⟩) }

/-- Every operation in a version of its own. -/
def separateVersions (keyPrefix : Bytes) (n : ℕ) : List FDBMutationRecord :=
  (List.range n).flatMap fun index =>
    [{ FDBMutationRecord.empty with record := some (.mutation (emitted keyPrefix index)) },
      { FDBMutationRecord.empty with record := some (.versionEnd ⟨index, 1, none⟩) }]

theorem matches_self (e : ExpectedMutation) :
    e.matches e.typeCode e.param1 e.param2 = true := by
  obtain ⟨typeCode, param1, param2, stamp⟩ := e
  rcases stamp with _ | ⟨param, offset⟩
  · simp [ExpectedMutation.matches]
  · cases param with
    | param1 => simp [ExpectedMutation.matches, stampMatches]
    | param2 => simp [ExpectedMutation.matches, stampMatches]

theorem emitted_isExpected (keyPrefix : Bytes) (index : ℕ) :
    IsExpected keyPrefix index (emitted keyPrefix index) := by
  have hnative : nativeOf (emitted keyPrefix index) =
      ((expectedMutation keyPrefix index).typeCode, (expectedMutation keyPrefix index).param1,
        (expectedMutation keyPrefix index).param2) := by
    by_cases hclear : (expectedMutation keyPrefix index).typeCode = clearRangeTypeCode
    · simp [nativeOf, emitted, hclear]
    · simp [nativeOf, emitted, hclear]
  rw [IsExpected, hnative]
  exact matches_self _

theorem coordinate_emitted (keyPrefix : Bytes) (index : ℕ) :
    coordinate (emitted keyPrefix index) = (index, 0) := rfl

theorem mutationsOf_separateVersions (keyPrefix : Bytes) (n : ℕ) :
    mutationsOf (separateVersions keyPrefix n) = (List.range n).map (emitted keyPrefix) := by
  rw [mutationsOf, separateVersions, List.flatMap_assoc, List.map_eq_flatMap]
  rfl

theorem versionEndsOf_separateVersions (keyPrefix : Bytes) (n : ℕ) :
    versionEndsOf (separateVersions keyPrefix n) = (List.range n).map fun index => (index, 1) := by
  rw [versionEndsOf, separateVersions, List.flatMap_assoc, List.map_eq_flatMap]
  rfl

theorem separateVersions_isCorrectOutput (keyPrefix : Bytes) (n : ℕ) :
    IsCorrectOutput (separateVersions keyPrefix n) keyPrefix n := by
  have hlength : (mutationsOf (separateVersions keyPrefix n)).length = n := by
    simp [mutationsOf_separateVersions]
  have hget : ∀ j : Fin (mutationsOf (separateVersions keyPrefix n)).length,
      (mutationsOf (separateVersions keyPrefix n))[j] = emitted keyPrefix j := by
    intro j
    simp [mutationsOf_separateVersions]
  refine ⟨⟨(finCongr hlength).trans (operationsEquiv n).symm, ?_⟩, ?_, ?_⟩
  · intro j
    rw [hget]
    exact emitted_isExpected keyPrefix j
  · rw [mutationsOf_separateVersions, versionEndsOf_separateVersions]
    have hcoordinates : ((List.range n).map (emitted keyPrefix)).map coordinate =
        (List.range n).map fun index => (index, 0) := by
      rw [List.map_map]
      rfl
    refine ⟨?_, ?_, ?_, ?_⟩
    · rw [hcoordinates]
      exact List.nodup_range.map fun i j h => congrArg Prod.fst h
    · intro m hm
      obtain ⟨index, hindex, rfl⟩ := List.mem_map.1 hm
      exact ⟨1, List.mem_map.2 ⟨index, hindex, rfl⟩⟩
    · rw [List.map_map]
      exact List.nodup_range.map fun i j h => h
    · intro version total hend k
      obtain ⟨index, hindex, heq⟩ := List.mem_map.1 hend
      cases heq
      rw [hcoordinates, List.mem_map]
      constructor
      · rintro ⟨index', -, heq⟩
        cases heq
        exact Nat.one_pos
      · intro hk
        obtain rfl : k = 0 := by omega
        exact ⟨_, hindex, rfl⟩
  · rw [versionEndsOf_separateVersions, List.map_map]
    simp [Function.comp_def]

/-! ## Which outputs are accepted -/

/-- The verifier returns for exactly the correct outputs if and only if there are at most 10 ^ 8
operations. Above, it returns for nothing. -/
theorem verifyWorkload_exact (keyPrefix : Bytes) (count : ℤ) :
    ((∀ records, Accepts records keyPrefix count ↔ IsCorrectOutput records keyPrefix count) ↔
      count ≤ 10 ^ 8) ∧
    (∀ records, (Accepts records keyPrefix count ↔ IsCorrectOutput records keyPrefix count) ↔
      (count ≤ 10 ^ 8 ∨ ¬ IsCorrectOutput records keyPrefix count)) ∧
    ∀ records records', records.Perm records' →
      (Accepts records keyPrefix count ↔ Accepts records' keyPrefix count) := by
  have hpoint : ∀ records, (Accepts records keyPrefix count ↔
      IsCorrectOutput records keyPrefix count) ↔
        (count ≤ 10 ^ 8 ∨ ¬ IsCorrectOutput records keyPrefix count) := by
    intro records
    rw [accepts_iff_isCorrectOutput]
    tauto
  refine ⟨?_, hpoint, ?_⟩
  · constructor
    · intro hall
      by_contra hlarge
      obtain ⟨n, rfl⟩ : ∃ n : ℕ, count = n := Int.eq_ofNat_of_zero_le (by omega)
      have hcorrect := separateVersions_isCorrectOutput keyPrefix n
      have haccepts := (hall _).2 hcorrect
      exact hlarge (accepts_iff_isCorrectOutput.1 haccepts).2
    · intro hsmall records
      exact (hpoint records).2 (.inl hsmall)
  · intro records records' hperm
    exact ⟨Accepts.perm hperm, Accepts.perm hperm.symm⟩

/-- One operation more than there are keys with eight digits. -/
theorem verifyWorkload_rejects :
    ¬ (Accepts (separateVersions (ascii "demo/") (10 ^ 8 + 1)) (ascii "demo/") ((10 ^ 8 + 1 : ℕ) : ℤ) ↔
      IsCorrectOutput (separateVersions (ascii "demo/") (10 ^ 8 + 1)) (ascii "demo/")
        ((10 ^ 8 + 1 : ℕ) : ℤ)) := by
  intro hiff
  have haccepts := hiff.2 (separateVersions_isCorrectOutput (ascii "demo/") (10 ^ 8 + 1))
  have hsmall := (accepts_iff_isCorrectOutput.1 haccepts).2
  norm_num at hsmall

end FdbKafkaBridge.Demo
