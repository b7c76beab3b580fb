import FdbKafkaBridge.Demo.Workload

/-!
# What a correct run of the demo leaves in the topic

Every operation of the workload has one mutation, every mutation a coordinate of its own, and every
version one end, which accounts for the coordinates at that version.
-/

namespace FdbKafkaBridge.Demo

open Protobuf (Bytes)
open Serialization

def mutationsOfRecord (rec : FDBMutationRecord) : List FDBMutation :=
  match rec.record with
  | some (.batch batch) => batch.mutations
  | some (.mutation m) => [m]
  | _ => []

/-- The version and the total of a version end. -/
def versionEndsOfRecord (rec : FDBMutationRecord) : List (ℕ × ℕ) :=
  match rec.record with
  | some (.versionEnd ve) => [(ve.fdbVersion, ve.totalMutations)]
  | _ => []

def mutationsOf (records : List FDBMutationRecord) : List FDBMutation :=
  records.flatMap mutationsOfRecord

def versionEndsOf (records : List FDBMutationRecord) : List (ℕ × ℕ) :=
  records.flatMap versionEndsOfRecord

/-- The version and the sequence number of a mutation. -/
def coordinate (m : FDBMutation) : ℕ × ℕ :=
  ((versionIndexOf m).fdbVersion, (versionIndexOf m).sequenceNo)

def IsExpected (keyPrefix : Bytes) (index : ℕ) (m : FDBMutation) : Prop :=
  (expectedMutation keyPrefix index).matches (nativeOf m).1 (nativeOf m).2.1 (nativeOf m).2.2 = true

/-- The versions that end are the versions of the mutations, each ends once, and its end gives the
sequence numbers at it. -/
structure Reconciles (ms : List FDBMutation) (ends : List (ℕ × ℕ)) : Prop where
  coordinates : (ms.map coordinate).Nodup
  ended : ∀ m ∈ ms, ∃ total, ((coordinate m).1, total) ∈ ends
  endedOnce : (ends.map Prod.fst).Nodup
  exact : ∀ version total, (version, total) ∈ ends →
    ∀ n, (version, n) ∈ ms.map coordinate ↔ n < total

/-- The records are those of `count` operations. -/
structure IsCorrectOutput (records : List FDBMutationRecord) (keyPrefix : Bytes) (count : ℤ) :
    Prop where
  bijection : ∃ index : Fin (mutationsOf records).length ≃ {i : ℕ // (i : ℤ) < count},
    ∀ j, IsExpected keyPrefix (index j) (mutationsOf records)[j]
  reconciles : Reconciles (mutationsOf records) (versionEndsOf records)
  total : (((versionEndsOf records).map Prod.snd).sum : ℤ) = count

/-- The verifier returns. -/
def Accepts (records : List FDBMutationRecord) (keyPrefix : Bytes) (count : ℤ) : Prop :=
  ∃ counts, verifyWorkload records keyPrefix count = .ok counts

end FdbKafkaBridge.Demo
