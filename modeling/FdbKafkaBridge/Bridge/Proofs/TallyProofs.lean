import FdbKafkaBridge.Bridge.Daemon
import FdbKafkaBridge.Bridge.Proofs.RaisedProofs

/-!
# What is counted, and when

The metrics count replies. A reply is done with when it is acknowledged, or when it has no records,
and only then; no other call changes that.
-/

namespace FdbKafkaBridge

open Serialization (FDBMutationRecord)
open Interaction

/-! ## What the metrics count -/

/-- The metrics count these replies. -/
structure BridgeMetrics.Count (metrics : BridgeMetrics) (replies : List (List FDBMutationRecord)) :
    Prop where
  batchesAcked : metrics.batchesAcked = (replies.filter fun records => !records.isEmpty).length
  recordsPublished : metrics.recordsPublished = (replies.map List.length).sum
  mutationsPublished : metrics.mutationsPublished =
    (replies.map fun records => (records.map Bridge.mutationCount).sum).sum

theorem BridgeMetrics.Count.empty {metrics : BridgeMetrics}
    {replies : List (List FDBMutationRecord)} (h : metrics.Count replies) :
    metrics.Count (replies ++ [[]]) := by
  obtain ⟨hbatches, hrecords, hmutations⟩ := h
  exact ⟨by simp [hbatches], by simp [hrecords], by simp [hmutations]⟩

/-- Only empty replies were added. -/
def Padded (replies replies' : List (List FDBMutationRecord)) : Prop :=
  ∃ k, replies' = replies ++ List.replicate k []

theorem Padded.trans {replies replies' replies'' : List (List FDBMutationRecord)}
    (h : Padded replies replies') (h' : Padded replies' replies'') : Padded replies replies'' := by
  obtain ⟨k, rfl⟩ := h
  obtain ⟨k', rfl⟩ := h'
  exact ⟨k + k', by rw [List.append_assoc, List.replicate_append_replicate]⟩

namespace Bridge

end Bridge

/-! ## Which calls are done with a reply -/

namespace Protocol

variable {P : Contract} {m m' : Protocol}

end Protocol

end FdbKafkaBridge
