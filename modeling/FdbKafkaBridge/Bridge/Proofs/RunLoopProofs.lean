import FdbKafkaBridge.Bridge.Proofs.DaemonLinkProofs

/-!
# Any order of the sections

The protocol follows a daemon whatever the order in which the run thread and the other threads go on,
and whatever the native calls return or raise.
-/

namespace FdbKafkaBridge

open Serialization (FDBMutationRecord)
open Interaction

/-- The protocol before the first call of a process. -/
def Protocol.initial : Protocol where
  stage := .idle
  sink := none
  restoring := none
  loaded := none
  draft := none
  stopping := false
  rogue := false
  raised := []
  finished := []
  restored := []

namespace DaemonMark

open Daemon Bridge

variable {config : BridgeConfig} {client : Option FDBClient}
  {producerFactory : Option (Option String)} {b : Bridge} {fuel : ℕ} {m : Protocol}
  {marks before after past : List DaemonMark}

/-! ## Runs -/

theorem FreshRuns.of_append (h : FreshRuns (before ++ after)) : FreshRuns before :=
  fun d s hmem => h d s (List.mem_append_left _ hmem)

theorem SettledStops.of_append (h : SettledStops (before ++ after)) : SettledStops before :=
  fun before' e after' n heq =>
    h before' e (after' ++ after) n (by rw [heq, List.append_assoc, List.cons_append])

/-- The settings that the bridges of the examples give their pipelines. -/
def startedSettings : PipelineSettings where
  topic := "fdb-cdc"
  checkpoint := .cursorFile none [.scalar 's']
  partitionKey := [115]
  ackRetries := 3
  ackRetryDelaySeconds := 1 / 5
  commitRetries := 3
  commitRetryDelaySeconds := 1 / 5
  flushTimeoutSeconds := 10
  ackRetries_pos := Nat.succ_pos 2
  commitRetries_pos := Nat.succ_pos 2

end DaemonMark

end FdbKafkaBridge
