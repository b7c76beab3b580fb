import FdbKafkaBridge.Cdc.Reply
import FdbKafkaBridge.ReplayLog.Segment
import FdbKafkaBridge.Serialization.Deserializer

/-!
# Kafka records as entries of a log

What a reader of the topic sees: each record value deserializes to mutations at their version
indexes, or to a version end. A native reply is described by its version groups and its watermark,
and `replyEntries` is what its records are meant to say.
-/

namespace FdbKafkaBridge

open Protobuf (Bytes)
open Serialization ReplayLog

/-- The value of a mutation in the stream: type code, key and value. -/
abbrev MutationValue : Type := ℕ × Bytes × Bytes

abbrev LogEntry : Type := Entry MutationValue

namespace Serialization

def Mutation.item (m : Mutation) : Item MutationValue :=
  ⟨m.versionIndex.fdbVersion, m.versionIndex.sequenceNo, (m.type, m.param1, m.param2)⟩

def RecordBody.entries : RecordBody → List LogEntry
  | .mutation m => [.item m.item]
  | .mutationBatch ms => ms.map fun m => .item m.item
  | .versionEnd fdbVersion totalMutations _ => [.closed fdbVersion totalMutations]

end Serialization

/-- The entries of one record value; none if it cannot be deserialized. -/
def recordEntries (data : Bytes) : List LogEntry :=
  match deserializeRecord (.bytes data) with
  | .ok record => record.body.entries
  | .error _ => []

def logEntries (log : List Bytes) : List LogEntry := log.flatMap recordEntries

@[simp] theorem logEntries_nil : logEntries [] = [] := rfl

@[simp] theorem logEntries_append (log log' : List Bytes) :
    logEntries (log ++ log') = logEntries log ++ logEntries log' :=
  List.flatMap_append

/-! ## Native replies -/

/-- The content of a version group: its version and its mutations. -/
abbrev Group : Type := ℤ × List NativeMutation

/-- The reply delivers these groups and this watermark. -/
structure CdcReply.Delivers (reply : CdcReply) (groups : List Group) (watermark : ℤ) : Prop where
  groups : List.Forall₂ (fun (g : CdcVersionGroup) (h : Group) => g.version = h.1 ∧
    ∃ ps, g.mutations = .items ps ∧ List.Forall₂ PyMutation.Represents ps h.2)
    (reply.mutations.getD []) groups
  watermark : reply.lastConsumedVersion.getD (-1) = watermark

/-- The mutations of a group in order, then its version end. -/
def groupLog (group : Group) : List LogEntry :=
  (itemsFrom group.1.toNat 0 (group.2.map NativeMutation.parts)).map .item ++
    [.closed group.1.toNat group.2.length]

/-- The version of the last group. -/
def lastVersion (groups : List Group) : ℤ := (groups.getLast?.map Prod.fst).getD (-1)

/-- The version end of a watermark past the last group. -/
def watermarkLog (groups : List Group) (watermark : ℤ) : List LogEntry :=
  if 0 ≤ watermark ∧ lastVersion groups < watermark then [.closed watermark.toNat 0] else []

def replyEntries (groups : List Group) (watermark : ℤ) : List LogEntry :=
  groups.flatMap groupLog ++ watermarkLog groups watermark

/-- Replies after `start`, each with what it delivers: groups in the order of their versions, none at
or below the watermark before, none above their own, and every watermark ahead of the one before. -/
inductive Advancing : ℤ → List (List Group × ℤ) → Prop
  | nil (start : ℤ) : Advancing start []
  | cons {start watermark : ℤ} {groups : List Group} {rest : List (List Group × ℤ)}
      (hahead : start < watermark) (hsorted : groups.Pairwise fun g h => g.1 < h.1)
      (hbounds : ∀ g ∈ groups, start < g.1 ∧ g.1 ≤ watermark) (hrest : Advancing watermark rest) :
      Advancing start ((groups, watermark) :: rest)

/-- The versions of the version ends in a log. -/
def closedVersions (log : List LogEntry) : List ℕ :=
  log.filterMap fun
    | .item _ => none
    | .closed version _ => some version

end FdbKafkaBridge
