import FdbKafkaBridge.Serialization.Proofs.RoundTripProofs
import FdbKafkaBridge.Slicing.Elements

/-!
# What the deserializer accepts

`WellFormed` says which parsed records are accepted; the two passes over a batch report the first
element that fails its own checks, or else the first one that leaves the contiguous run. Whatever is
accepted satisfies the checks of the serializer.
-/

namespace FdbKafkaBridge.Serialization

open Protobuf Slicing

/-! ## Well-formed messages -/

structure MutationOk (message : FDBMutation) : Prop where
  versionIndex : ∃ v, message.versionIndex = some v ∧ v.fdbVersion ≤ maxVersion
  arm : message.mutation ≠ none
  typeCode : ∀ single, message.mutation = some (.singleKeyMutation single) →
    0 ≤ single.mutationType ∧ single.mutationType ≤ maxTypeCode

/-- Element `i` of a batch that starts at `first`, in one contiguous run. -/
def InRun (first : FDBVersionIndex) (i : ℕ) (message : FDBMutation) : Prop :=
  message.versionIndex = some ⟨first.fdbVersion, first.sequenceNo + i⟩

/-- The version index that a batch starts at. -/
def firstIndex (messages : List FDBMutation) : Option FDBVersionIndex :=
  messages.head?.bind fun message => message.versionIndex

structure BatchOk (messages : List FDBMutation) : Prop where
  nonempty : messages ≠ []
  elements : EveryElement (fun _ => MutationOk) messages
  run : ∀ first, firstIndex messages = some first → EveryElement (InRun first) messages

def WellFormed (message : FDBMutationRecord) : Prop :=
  match message.record with
  | none => False
  | some (.mutation m) => MutationOk m
  | some (.versionEnd m) => m.fdbVersion ≤ maxVersion
  | some (.batch m) => BatchOk m.mutations

/-- What is wrong with a batch, and where. -/
inductive BatchFault (messages : List FDBMutation) : Option ℕ → Prop
  | empty (h : messages = []) : BatchFault messages none
  | element {i : ℕ} {message : FDBMutation}
      (h : FirstFailing (fun _ => MutationOk) messages i message) : BatchFault messages (some i)
  | run {first : FDBVersionIndex} {i : ℕ} {message : FDBMutation}
      (hall : EveryElement (fun _ => MutationOk) messages) (hfirst : firstIndex messages = some first)
      (h : FirstFailing (InRun first) messages i message) : BatchFault messages (some i)

/-- The index that is reported for a record that is not well formed. -/
def FaultIndex (message : FDBMutationRecord) (index : Option ℕ) : Prop :=
  match message.record with
  | some (.batch m) => BatchFault m.mutations index
  | _ => index = none

/-! ## One mutation -/

/-- The output value `m` was read from `message`. -/
structure Decoded (message : FDBMutation) (m : Mutation) : Prop where
  versionIndex : message.versionIndex =
    some ⟨m.versionIndex.fdbVersion, m.versionIndex.sequenceNo⟩
  version_le : m.versionIndex.fdbVersion ≤ maxVersion
  type_le : m.type ≤ maxTypeCode

theorem mutationOf_ok {message : FDBMutation} (h : MutationOk message) (index : Option ℕ) :
    ∃ m, mutationOf message index = .ok m := by
  obtain ⟨versionIndex, mutation⟩ := message
  obtain ⟨v, hv, hle⟩ := h.versionIndex
  obtain rfl : versionIndex = some v := hv
  obtain ⟨arm, harm⟩ := Option.ne_none_iff_exists'.1 h.arm
  obtain rfl : mutation = some arm := harm
  cases arm with
  | clearRange clear =>
    simp only [mutationOf, checkVersion_ok hle index]
    exact ⟨_, rfl⟩
  | singleKeyMutation single =>
    have hcode := h.typeCode single rfl
    simp only [mutationOf, checkVersion_ok hle index, if_neg (not_not.2 hcode)]
    exact ⟨_, rfl⟩

theorem le_of_checkVersion_ok {version : ℕ} {index : Option ℕ}
    (h : checkVersion version index = .ok ()) : version ≤ maxVersion := by
  unfold checkVersion at h
  split at h
  · cases h
  · rename_i hle
    exact not_lt.1 hle

theorem of_mutationOf_ok {message : FDBMutation} {index : Option ℕ} {m : Mutation}
    (h : mutationOf message index = .ok m) : MutationOk message ∧ Decoded message m := by
  obtain ⟨versionIndex, mutation⟩ := message
  cases versionIndex with
  | none => cases h
  | some v =>
    obtain ⟨_, hcheck, h⟩ := bind_eq_ok.1 h
    have hle : v.fdbVersion ≤ maxVersion := le_of_checkVersion_ok hcheck
    cases mutation with
    | none => cases h
    | some arm =>
      cases arm with
      | clearRange clear =>
        cases h
        exact ⟨⟨⟨v, rfl, hle⟩, by simp, fun _ h => by cases h⟩, ⟨rfl, hle, by simp [clearRangeCode,
          maxTypeCode]⟩⟩
      | singleKeyMutation single =>
        simp only at h
        split at h
        · cases h
        · rename_i hcode
          cases h
          refine ⟨⟨⟨v, rfl, hle⟩, by simp, fun _ h => ?_⟩, ⟨rfl, hle, ?_⟩⟩
          · cases h
            exact not_not.1 hcode
          · have := not_not.1 hcode
            simp only
            omega

theorem isDecodeAt_of_checkVersion_error {version : ℕ} {index : Option ℕ} {e : SerializationError}
    (h : checkVersion version index = .error e) : e.IsDecodeAt index := by
  unfold checkVersion at h
  split at h
  · cases h
    exact ⟨_, _, rfl⟩
  · cases h

theorem isDecodeAt_of_mutationOf_error {message : FDBMutation} {index : Option ℕ}
    {e : SerializationError} (h : mutationOf message index = .error e) : e.IsDecodeAt index := by
  obtain ⟨versionIndex, mutation⟩ := message
  cases versionIndex with
  | none =>
    cases h
    exact ⟨_, _, rfl⟩
  | some v =>
    rcases bind_eq_error.1 h with hcheck | ⟨_, -, h⟩
    · exact isDecodeAt_of_checkVersion_error hcheck
    cases mutation with
    | none =>
      cases h
      exact ⟨_, _, rfl⟩
    | some arm =>
      cases arm with
      | clearRange clear => cases h
      | singleKeyMutation single =>
        simp only at h
        split at h
        · cases h
          exact ⟨_, _, rfl⟩
        · cases h

theorem mutationOf_error {message : FDBMutation} (h : ¬ MutationOk message) (index : Option ℕ) :
    ∃ e, mutationOf message index = .error e ∧ e.IsDecodeAt index := by
  cases hresult : mutationOf message index with
  | error e => exact ⟨e, rfl, isDecodeAt_of_mutationOf_error hresult⟩
  | ok m => exact absurd (of_mutationOf_ok hresult).1 h

/-! ## Batches -/

/-- The first pass returns one value for each element. -/
theorem mutationsFrom_ok {messages : List FDBMutation}
    (h : EveryElement (fun _ => MutationOk) messages) (i : ℕ) :
    ∃ ms, mutationsFrom i messages = .ok ms ∧ List.Forall₂ Decoded messages ms := by
  induction messages generalizing i with
  | nil => exact ⟨[], rfl, .nil⟩
  | cons message messages ih =>
    obtain ⟨hmessage, hrest⟩ := everyElement_cons.1 h
    obtain ⟨m, hm⟩ := mutationOf_ok hmessage (some i)
    obtain ⟨ms, hms, hdecoded⟩ := ih hrest (i + 1)
    refine ⟨m :: ms, ?_, .cons (of_mutationOf_ok hm).2 hdecoded⟩
    rw [mutationsFrom, hm, hms]
    rfl

/-- Or it fails at the first element that fails its own checks. -/
theorem mutationsFrom_error {messages : List FDBMutation} {k : ℕ} {message : FDBMutation}
    (h : FirstFailing (fun _ => MutationOk) messages k message) (i : ℕ) :
    ∃ e, mutationsFrom i messages = .error e ∧ e.IsDecodeAt (some (i + k)) := by
  induction messages generalizing i k with
  | nil => exact nomatch h.element
  | cons x messages ih =>
    cases k with
    | zero =>
      obtain rfl : x = message := Option.some.inj h.element
      obtain ⟨e, he, hat⟩ := mutationOf_error h.fails (some i)
      exact ⟨e, bind_eq_error.2 (.inl he), hat⟩
    | succ k =>
      obtain ⟨m, hm⟩ := mutationOf_ok (h.before 0 (Nat.succ_pos k) x rfl) (some i)
      have hrest : FirstFailing (fun _ => MutationOk) messages k message :=
        ⟨h.element, h.fails, fun j hj => h.before (j + 1) (Nat.succ_lt_succ hj)⟩
      obtain ⟨e, he, hat⟩ := ih hrest (i + 1)
      rw [Nat.add_assoc, Nat.add_comm 1 k] at hat
      exact ⟨e, bind_eq_error.2 (.inr ⟨m, hm, bind_eq_error.2 (.inl he)⟩), hat⟩

/-- The value of an element in the run has the version index that the second pass expects. -/
theorem Decoded.inRun_iff {message : FDBMutation} {m : Mutation} (h : Decoded message m)
    (first : VersionIndex) (i : ℕ) :
    InRun ⟨first.fdbVersion, first.sequenceNo⟩ i message ↔
      m.versionIndex = ⟨first.fdbVersion, first.sequenceNo + i⟩ := by
  rw [InRun, h.versionIndex]
  cases m.versionIndex with
  | mk fdbVersion sequenceNo => simp

theorem checkRun_ok {messages : List FDBMutation} {ms : List Mutation}
    (hdecoded : List.Forall₂ Decoded messages ms) (first : VersionIndex) (i : ℕ)
    (h : EveryElement (fun k => InRun ⟨first.fdbVersion, first.sequenceNo⟩ (i + k)) messages) :
    checkRun first i ms = .ok () := by
  induction hdecoded generalizing i with
  | nil => rfl
  | @cons message m messages ms hm _ ih =>
    obtain ⟨hhead, hrest⟩ := everyElement_cons.1 h
    have hindex := (hm.inRun_iff first i).1 hhead
    have hshift : ∀ k, i + (k + 1) = i + 1 + k := fun k => by omega
    rw [checkRun, if_neg (not_not.2 hindex)]
    refine ih (i + 1) ?_
    intro k y hy
    rw [← hshift]
    exact hrest k y hy

theorem checkRun_error {messages : List FDBMutation} {ms : List Mutation}
    (hdecoded : List.Forall₂ Decoded messages ms) (first : VersionIndex) (i : ℕ) {k : ℕ}
    {message : FDBMutation}
    (h : FirstFailing (fun k => InRun ⟨first.fdbVersion, first.sequenceNo⟩ (i + k)) messages k
      message) :
    ∃ e, checkRun first i ms = .error e ∧ e.IsDecodeAt (some (i + k)) := by
  induction hdecoded generalizing i k with
  | nil => exact nomatch h.element
  | @cons x m messages ms hm _ ih =>
    cases k with
    | zero =>
      obtain rfl : x = message := Option.some.inj h.element
      have hne : m.versionIndex ≠ ⟨first.fdbVersion, first.sequenceNo + i⟩ :=
        fun heq => h.fails ((hm.inRun_iff first i).2 heq)
      rw [checkRun, if_pos hne]
      exact ⟨_, rfl, _, _, rfl⟩
    | succ k =>
      have hindex := (hm.inRun_iff first i).1 (h.before 0 (Nat.succ_pos k) x rfl)
      have hshift : ∀ k, i + (k + 1) = i + 1 + k := fun k => by omega
      have hrest : FirstFailing
          (fun k => InRun ⟨first.fdbVersion, first.sequenceNo⟩ (i + 1 + k)) messages k message := by
        refine ⟨h.element, ?_, fun j hj y hy => ?_⟩
        · rw [← hshift]
          exact h.fails
        · rw [← hshift]
          exact h.before (j + 1) (Nat.succ_lt_succ hj) y hy
      rw [checkRun, if_neg (not_not.2 hindex), hshift k]
      exact ih (i + 1) hrest

/-- The run starts at the value of the first element. -/
theorem firstIndex_eq {messages : List FDBMutation} {m : Mutation} {ms : List Mutation}
    (hdecoded : List.Forall₂ Decoded messages (m :: ms)) :
    firstIndex messages = some ⟨m.versionIndex.fdbVersion, m.versionIndex.sequenceNo⟩ := by
  cases hdecoded with
  | cons hm _ => exact hm.versionIndex

theorem batchOf_ok {messages : List FDBMutation} (h : BatchOk messages) :
    ∃ ms, batchOf ⟨messages⟩ = .ok ms := by
  obtain ⟨ms, hms, hdecoded⟩ := mutationsFrom_ok h.elements 0
  cases ms with
  | nil => exact absurd (List.forall₂_nil_right_iff.1 hdecoded) h.nonempty
  | cons m ms =>
    have hrun : checkRun m.versionIndex 0 (m :: ms) = .ok () := by
      refine checkRun_ok hdecoded m.versionIndex 0 ?_
      intro k x hx
      rw [Nat.zero_add]
      exact h.run _ (firstIndex_eq hdecoded) k x hx
    exact ⟨m :: ms, bind_eq_ok.2 ⟨_, hms, bind_eq_ok.2 ⟨_, hrun, rfl⟩⟩⟩

theorem batchOf_error {messages : List FDBMutation} (h : ¬ BatchOk messages) :
    ∃ e index, batchOf ⟨messages⟩ = .error e ∧ BatchFault messages index ∧ e.IsDecodeAt index := by
  rcases everyElement_or_firstFailing (fun _ => MutationOk) messages with
    helements | ⟨k, message, hfirst⟩
  · obtain ⟨ms, hms, hdecoded⟩ := mutationsFrom_ok helements 0
    cases ms with
    | nil =>
      have hnil : messages = [] := List.forall₂_nil_right_iff.1 hdecoded
      have herror : batchOf ⟨messages⟩ =
          .error (.recordDecode "batch has zero mutations" .emptyBatch none) := by
        rw [batchOf, hms]
        rfl
      exact ⟨_, none, herror, .empty hnil, _, _, rfl⟩
    | cons m ms =>
      have hindex := firstIndex_eq hdecoded
      rcases everyElement_or_firstFailing
          (InRun ⟨m.versionIndex.fdbVersion, m.versionIndex.sequenceNo⟩) messages with
        hrun | ⟨k, message, hfirst⟩
      · refine absurd ⟨?_, helements, ?_⟩ h
        · rintro rfl
          cases hdecoded
        · intro first heq
          obtain rfl := Option.some.inj (hindex.symm.trans heq)
          exact hrun
      · have hshifted : FirstFailing (fun k =>
            InRun ⟨m.versionIndex.fdbVersion, m.versionIndex.sequenceNo⟩ (0 + k)) messages k
              message := by
          simp only [Nat.zero_add]
          exact hfirst
        obtain ⟨e, he, hat⟩ := checkRun_error hdecoded m.versionIndex 0 hshifted
        rw [Nat.zero_add] at hat
        exact ⟨e, some k, bind_eq_error.2 (.inr ⟨_, hms, bind_eq_error.2 (.inl he)⟩),
          .run helements hindex hfirst, hat⟩
  · obtain ⟨e, he, hat⟩ := mutationsFrom_error hfirst 0
    rw [Nat.zero_add] at hat
    exact ⟨e, some k, bind_eq_error.2 (.inl he), .element hfirst, hat⟩

/-- What an accepted batch returns was read element by element, and its indexes are one run. -/
theorem of_batchOf_ok {messages : List FDBMutation} {ms : List Mutation}
    (h : batchOf ⟨messages⟩ = .ok ms) :
    BatchOk messages ∧ List.Forall₂ Decoded messages ms := by
  by_cases hok : BatchOk messages
  · obtain ⟨ms', hms', hdecoded⟩ := mutationsFrom_ok hok.elements 0
    obtain ⟨ms'', hms'', h⟩ := bind_eq_ok.1 h
    obtain rfl : ms' = ms'' := Except.ok.inj (hms'.symm.trans hms'')
    cases ms' with
    | nil => cases h
    | cons m ms' =>
      obtain ⟨_, -, h⟩ := bind_eq_ok.1 h
      cases h
      exact ⟨hok, hdecoded⟩
  · obtain ⟨e, index, he, -, -⟩ := batchOf_error hok
    exact nomatch he.symm.trans h

/-! ## Records -/

theorem recordOf_eq_ok {message : FDBMutationRecord} {record : Record} :
    recordOf message = .ok record ↔ ∃ body, bodyOf message = .ok body ∧
      record = ⟨PyStr.ofChars message.streamName, timestampNs message.bridgeTimestamp, body⟩ := by
  constructor
  · intro h
    obtain ⟨body, hbody, h⟩ := bind_eq_ok.1 h
    cases h
    exact ⟨body, hbody, rfl⟩
  · rintro ⟨body, hbody, rfl⟩
    exact bind_eq_ok.2 ⟨body, hbody, rfl⟩

theorem bodyOf_ok {message : FDBMutationRecord} (h : WellFormed message) :
    ∃ body, bodyOf message = .ok body := by
  obtain ⟨name, timestamp, arm⟩ := message
  cases arm with
  | none => exact h.elim
  | some arm =>
    cases arm with
    | mutation m =>
      obtain ⟨output, houtput⟩ := mutationOf_ok h none
      exact ⟨.mutation output, bind_eq_ok.2 ⟨_, houtput, rfl⟩⟩
    | versionEnd m => exact ⟨_, bind_eq_ok.2 ⟨_, checkVersion_ok h none, rfl⟩⟩
    | batch m =>
      obtain ⟨ms, hms⟩ := batchOf_ok h
      exact ⟨.mutationBatch ms, bind_eq_ok.2 ⟨_, hms, rfl⟩⟩

theorem bodyOf_error {message : FDBMutationRecord} (h : ¬ WellFormed message) :
    ∃ e index, bodyOf message = .error e ∧ FaultIndex message index ∧ e.IsDecodeAt index := by
  obtain ⟨name, timestamp, arm⟩ := message
  cases arm with
  | none => exact ⟨_, none, rfl, rfl, _, _, rfl⟩
  | some arm =>
    cases arm with
    | mutation m =>
      obtain ⟨e, he, hat⟩ := mutationOf_error h none
      exact ⟨e, none, bind_eq_error.2 (.inl he), rfl, hat⟩
    | versionEnd m =>
      have hcheck : checkVersion m.fdbVersion none = _ := if_pos (not_le.1 h)
      exact ⟨_, none, bind_eq_error.2 (.inl hcheck), rfl, _, _, rfl⟩
    | batch m =>
      obtain ⟨e, index, he, hfault, hat⟩ := batchOf_error h
      exact ⟨e, index, bind_eq_error.2 (.inl he), hfault, hat⟩

theorem wellFormed_of_bodyOf_ok {message : FDBMutationRecord} {body : RecordBody}
    (h : bodyOf message = .ok body) : WellFormed message := by
  by_contra hill
  obtain ⟨e, index, he, -, -⟩ := bodyOf_error hill
  exact nomatch he.symm.trans h

/-! ## Parsed sequence numbers are `uint32` -/

def FDBMutation.Bounded (m : FDBMutation) : Prop :=
  ∀ v, m.versionIndex = some v → v.sequenceNo ≤ maxSequenceNo

def RecordArm.Bounded : RecordArm → Prop
  | .mutation m => m.Bounded
  | .versionEnd _ => True
  | .batch m => ∀ x ∈ m.mutations, x.Bounded

def FDBMutationRecord.Bounded (m : FDBMutationRecord) : Prop :=
  ∀ arm, m.record = some arm → arm.Bounded

theorem FDBVersionIndex.step_bounded {m m' : FDBVersionIndex} {f : Protobuf.Field}
    (h : m.sequenceNo ≤ maxSequenceNo) (hstep : m.step f = some m') :
    m'.sequenceNo ≤ maxSequenceNo := by
  unfold FDBVersionIndex.step at hstep
  split at hstep
  · cases hstep
    exact h
  · rename_i n
    cases hstep
    have hlt : n % 2 ^ 32 < 2 ^ 32 := Nat.mod_lt n (by decide)
    simp only [toUInt32, maxSequenceNo]
    omega
  · cases hstep
    exact h

theorem FDBMutation.step_bounded {m m' : FDBMutation} {f : Protobuf.Field} (h : m.Bounded)
    (hstep : m.step f = some m') : m'.Bounded := by
  unfold FDBMutation.step at hstep
  split at hstep
  · obtain ⟨v, hmerge, rfl⟩ := Option.map_eq_some_iff.1 hstep
    have hinit : (m.versionIndex.getD .empty).sequenceNo ≤ maxSequenceNo := by
      cases hv : m.versionIndex with
      | none => exact Nat.zero_le _
      | some v => exact h v hv
    rintro v' ⟨⟩
    exact Protobuf.merge_induction (fun m f m' => FDBVersionIndex.step_bounded) hinit hmerge
  · obtain ⟨s, -, rfl⟩ := Option.map_eq_some_iff.1 hstep
    exact h
  · obtain ⟨c, -, rfl⟩ := Option.map_eq_some_iff.1 hstep
    exact h
  · cases hstep
    exact h

theorem FDBMutation.empty_bounded : FDBMutation.empty.Bounded := fun _ h => nomatch h

theorem FDBMutation.merge_bounded {m m' : FDBMutation} {payload : Bytes} (h : m.Bounded)
    (hmerge : merge FDBMutation.step m payload = some m') : m'.Bounded :=
  Protobuf.merge_induction (fun _ _ _ => FDBMutation.step_bounded) h hmerge

theorem FDBMutationBatch.step_bounded {m m' : FDBMutationBatch} {f : Protobuf.Field}
    (h : ∀ x ∈ m.mutations, x.Bounded) (hstep : m.step f = some m') :
    ∀ x ∈ m'.mutations, x.Bounded := by
  unfold FDBMutationBatch.step at hstep
  split at hstep
  · obtain ⟨a, hmerge, rfl⟩ := Option.map_eq_some_iff.1 hstep
    intro x hx
    rcases List.mem_append.1 hx with hx | hx
    · exact h x hx
    · obtain rfl := List.mem_singleton.1 hx
      exact FDBMutation.merge_bounded FDBMutation.empty_bounded hmerge
  · cases hstep
    exact h

theorem FDBMutationRecord.step_bounded {m m' : FDBMutationRecord} {f : Protobuf.Field}
    (h : m.Bounded) (hstep : m.step f = some m') : m'.Bounded := by
  unfold FDBMutationRecord.step at hstep
  split at hstep
  · obtain ⟨name, -, rfl⟩ := Option.map_eq_some_iff.1 hstep
    exact h
  · obtain ⟨t, -, rfl⟩ := Option.map_eq_some_iff.1 hstep
    exact h
  · obtain ⟨a, hmerge, rfl⟩ := Option.map_eq_some_iff.1 hstep
    have hinit : (mutationInit m.record).Bounded := by
      unfold mutationInit
      split
      · rename_i a ha
        exact h _ ha
      · exact FDBMutation.empty_bounded
    rintro arm ⟨⟩
    exact FDBMutation.merge_bounded hinit hmerge
  · obtain ⟨a, -, rfl⟩ := Option.map_eq_some_iff.1 hstep
    rintro arm ⟨⟩
    trivial
  · obtain ⟨a, hmerge, rfl⟩ := Option.map_eq_some_iff.1 hstep
    have hinit : ∀ x ∈ (batchInit m.record).mutations, x.Bounded := by
      unfold batchInit
      split
      · rename_i a ha
        exact h _ ha
      · exact fun x hx => nomatch hx
    rintro arm ⟨⟩
    exact Protobuf.merge_induction (P := fun b => ∀ x ∈ b.mutations, x.Bounded)
      (fun _ _ _ => FDBMutationBatch.step_bounded) hinit hmerge
  · cases hstep
    exact h

theorem FDBMutationRecord.empty_bounded : FDBMutationRecord.empty.Bounded := by
  intro arm h
  cases h

theorem FDBMutationRecord.parseFromString_bounded {data : Bytes} {message : FDBMutationRecord}
    (h : FDBMutationRecord.parseFromString data = some message) : message.Bounded :=
  Protobuf.merge_induction (fun _ _ _ => FDBMutationRecord.step_bounded)
    FDBMutationRecord.empty_bounded h

/-! ## Accepted values are valid input -/

/-- A returned mutation as an argument of the serializer. -/
def Mutation.toPy (m : Mutation) : PyMutation :=
  { typeName := "Mutation"
    type := some (.int m.type)
    param1 := some (.bytes m.param1)
    param2 := some (.bytes m.param2) }

theorem Decoded.tagged {message : FDBMutation} {m : Mutation} (h : Decoded message m) :
    ∃ native : NativeMutation, m.toPy.Represents native ∧
      m = native.tagged m.versionIndex.fdbVersion m.versionIndex.sequenceNo := by
  have hlt : m.type < 256 := by
    have hle := h.type_le
    simp only [maxTypeCode] at hle
    omega
  exact ⟨⟨⟨m.type, hlt⟩, m.param1, m.param2⟩, ⟨.inl rfl, rfl, rfl⟩, rfl⟩

/-- The values of a run are native mutations at consecutive version indexes. -/
theorem taggedFrom_of_run {messages : List FDBMutation} {ms : List Mutation}
    (hdecoded : List.Forall₂ Decoded messages ms) (first : VersionIndex) (i : ℕ)
    (h : EveryElement (fun k => InRun ⟨first.fdbVersion, first.sequenceNo⟩ (i + k)) messages) :
    ∃ natives : List NativeMutation,
      List.Forall₂ PyMutation.Represents (ms.map Mutation.toPy) natives ∧
      ms = taggedFrom first.fdbVersion (first.sequenceNo + i) natives := by
  induction hdecoded generalizing i with
  | nil => exact ⟨[], .nil, rfl⟩
  | @cons message m messages ms hm _ ih =>
    obtain ⟨hhead, hrest⟩ := everyElement_cons.1 h
    have hshift : ∀ k, i + (k + 1) = i + 1 + k := fun k => by omega
    obtain ⟨natives, hrepresents, htagged⟩ := ih (i + 1) (by
      intro k y hy
      rw [← hshift]
      exact hrest k y hy)
    obtain ⟨native, hnative, hm'⟩ := hm.tagged
    have hindex := (hm.inRun_iff first i).1 hhead
    refine ⟨native :: natives, .cons hnative hrepresents, ?_⟩
    rw [hindex] at hm'
    rw [taggedFrom, ← hm', Nat.add_assoc, ← htagged]

/-- The last position of a run is a `uint32` too. -/
theorem length_le_of_run {messages : List FDBMutation} {first : FDBVersionIndex}
    (hbounded : ∀ x ∈ messages, x.Bounded) (h : EveryElement (InRun first) messages)
    (hne : messages ≠ []) : first.sequenceNo + messages.length ≤ maxSequenceNo + 1 := by
  have hpos : 0 < messages.length := List.length_pos_iff.2 hne
  have hlt : messages.length - 1 < messages.length := Nat.sub_lt hpos Nat.one_pos
  have helement := List.getElem?_eq_getElem hlt
  have hlast : first.sequenceNo + (messages.length - 1) ≤ maxSequenceNo :=
    hbounded _ (List.getElem_mem hlt) _ (h _ _ helement)
  omega

section Reencode

variable (e : Envelope)

theorem serializeMutation_reencodes {message : FDBMutation} {m : Mutation}
    (hbounded : message.Bounded) (h : Decoded message m) :
    ∃ data, serializeMutation m.toPy (.int m.versionIndex.fdbVersion)
        (.int m.versionIndex.sequenceNo) (.str e.streamName) (.int e.timestampNs) = .ok data ∧
      deserializeRecord (.bytes data) =
        .ok ⟨e.streamName, some (e.timestampNs : ℤ), .mutation m⟩ := by
  obtain ⟨native, hrepresents, htagged⟩ := h.tagged
  have hs : m.versionIndex.sequenceNo ≤ maxSequenceNo := hbounded _ h.versionIndex
  refine ⟨_, serializeMutation_ok e hrepresents h.version_le hs, ?_⟩
  rw [deserializeRecord_mutation e native h.version_le hs, ← htagged]

theorem serializeBatch_reencodes {messages : List FDBMutation} {ms : List Mutation}
    (hbounded : ∀ x ∈ messages, x.Bounded) (hok : BatchOk messages)
    (h : List.Forall₂ Decoded messages ms) :
    ∃ first rest, ms = first :: rest ∧
      ∃ data, serializeBatch (.items (ms.map Mutation.toPy)) (.int first.versionIndex.fdbVersion)
          (.int first.versionIndex.sequenceNo) (.str e.streamName) (.int e.timestampNs) =
            .ok data ∧
        deserializeRecord (.bytes data) =
          .ok ⟨e.streamName, some (e.timestampNs : ℤ), .mutationBatch ms⟩ := by
  cases ms with
  | nil => exact absurd (List.forall₂_nil_right_iff.1 h) hok.nonempty
  | cons m ms =>
    have hrun := hok.run _ (firstIndex_eq h)
    obtain ⟨natives, hrepresents, htagged⟩ := taggedFrom_of_run h m.versionIndex 0 (by
      simp only [Nat.zero_add]
      exact hrun)
    rw [Nat.add_zero] at htagged
    have hv : m.versionIndex.fdbVersion ≤ maxVersion := by
      cases h with
      | cons hm _ => exact hm.version_le
    have hlength : messages.length = natives.length := by
      rw [h.length_eq, htagged, length_taggedFrom]
    have hne : natives ≠ [] := by
      rintro rfl
      cases hrepresents
    have hlast := length_le_of_run hbounded hrun hok.nonempty
    rw [hlength] at hlast
    refine ⟨m, ms, rfl, _, serializeBatch_ok e hrepresents hv hne hlast, ?_⟩
    rw [deserializeRecord_batch e hv hne hlast, ← htagged]

end Reencode

/-- A record that parses is accepted exactly when it is well formed. A record that is not is
reported at the first offending element of a batch, and a mutation or batch that is can be
serialized again under any valid envelope, to bytes that decode to the same values. -/
theorem deserializeRecord_accepts {data : Bytes} {message : FDBMutationRecord}
    (hparse : FDBMutationRecord.parseFromString data = some message) :
    ((∃ record, deserializeRecord (.bytes data) = .ok record) ↔ WellFormed message) ∧
    (¬ WellFormed message → ∃ text reason index,
      deserializeRecord (.bytes data) = .error (.recordDecode text reason index) ∧
        FaultIndex message index) ∧
    ∀ record, deserializeRecord (.bytes data) = .ok record →
      ∀ (streamName : PyStr) (bridgeTimestampNs : ℕ), streamName ≠ [] →
        streamName.encode?.isSome → bridgeTimestampNs ≤ maxBridgeTimestampNs →
        (∀ m, record.body = .mutation m →
          ∃ data', serializeMutation m.toPy (.int m.versionIndex.fdbVersion)
              (.int m.versionIndex.sequenceNo) (.str streamName) (.int bridgeTimestampNs) =
                .ok data' ∧
            deserializeRecord (.bytes data') =
              .ok ⟨streamName, some (bridgeTimestampNs : ℤ), .mutation m⟩) ∧
        (∀ ms, record.body = .mutationBatch ms →
          ∃ first rest, ms = first :: rest ∧
            ∃ data', serializeBatch (.items (ms.map Mutation.toPy))
                (.int first.versionIndex.fdbVersion) (.int first.versionIndex.sequenceNo)
                (.str streamName) (.int bridgeTimestampNs) = .ok data' ∧
              deserializeRecord (.bytes data') =
                .ok ⟨streamName, some (bridgeTimestampNs : ℤ), .mutationBatch ms⟩) := by
  have hrecord : deserializeRecord (.bytes data) = recordOf message := by
    simp only [deserializeRecord, hparse]
  have hbounded := FDBMutationRecord.parseFromString_bounded hparse
  rw [hrecord]
  refine ⟨⟨?_, ?_⟩, ?_, ?_⟩
  · rintro ⟨record, h⟩
    obtain ⟨body, hbody, -⟩ := recordOf_eq_ok.1 h
    exact wellFormed_of_bodyOf_ok hbody
  · intro h
    obtain ⟨body, hbody⟩ := bodyOf_ok h
    exact ⟨_, recordOf_eq_ok.2 ⟨body, hbody, rfl⟩⟩
  · intro h
    obtain ⟨e, index, he, hfault, text, reason, rfl⟩ := bodyOf_error h
    exact ⟨text, reason, index, bind_eq_error.2 (.inl he), hfault⟩
  · intro record h streamName ts hne hutf8 hts
    obtain ⟨name, hname⟩ : ∃ name, streamName.chars? = some name := by
      obtain ⟨b, hb⟩ := Option.isSome_iff_exists.1 hutf8
      obtain ⟨name, hname, -⟩ := Option.map_eq_some_iff.1 hb
      exact ⟨name, hname⟩
    let e : Envelope := ⟨streamName, name, ts, hne, hname, hts⟩
    obtain ⟨body, hbody, rfl⟩ := recordOf_eq_ok.1 h
    obtain ⟨streamName', timestamp, arm⟩ := message
    cases arm with
    | none => cases hbody
    | some arm =>
      have harm := hbounded arm rfl
      cases arm with
      | mutation message =>
        obtain ⟨output, houtput, hbody⟩ := bind_eq_ok.1 hbody
        cases hbody
        constructor
        · rintro m ⟨⟩
          exact serializeMutation_reencodes e harm (of_mutationOf_ok houtput).2
        · rintro ms ⟨⟩
      | versionEnd message =>
        obtain ⟨_, -, hbody⟩ := bind_eq_ok.1 hbody
        cases hbody
        constructor
        · rintro m ⟨⟩
        · rintro ms ⟨⟩
      | batch message =>
        obtain ⟨output, houtput, hbody⟩ := bind_eq_ok.1 hbody
        cases hbody
        obtain ⟨hok, hdecoded⟩ := of_batchOf_ok houtput
        constructor
        · rintro m ⟨⟩
        · rintro ms ⟨⟩
          exact serializeBatch_reencodes e harm hok hdecoded

/-- A clear range of empty keys at version index `(0, 0)`, in a record without an envelope. -/
theorem deserializeRecord_accepts_clearRange :
    ∃ record, deserializeRecord (.bytes [26, 4, 10, 0, 26, 0]) = .ok record :=
  (@deserializeRecord_accepts [26, 4, 10, 0, 26, 0]
    ⟨[], none, some (.mutation ⟨some ⟨0, 0⟩, some (.clearRange ⟨[], []⟩)⟩)⟩
    (by decide)).1.2 ⟨⟨⟨0, 0⟩, rfl, by decide⟩, by decide, fun _ h => by cases h⟩

end FdbKafkaBridge.Serialization
