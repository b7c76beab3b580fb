import FdbKafkaBridge.Bridge.Proofs.CommitProofs
import FdbKafkaBridge.Bridge.Proofs.StopProofs

/-!
# The metrics

What the metrics count over a whole life of a bridge, and the acknowledged replies that they miss.
-/

namespace FdbKafkaBridge

open Serialization (FDBMutationRecord)
open Interaction

namespace DaemonMark

open Daemon Bridge BridgePipeline

variable {config : BridgeConfig} {client : Option FDBClient}
  {producerFactory : Option (Option String)} {b : Bridge} {fuel : ℕ} {marks : List DaemonMark}

/-- The pipeline after it. -/
def settled : Session :=
  { built false [PipelineMark.polledRecord] with
    pipeline := { (built false []).pipeline with pendingCount := 1 } }

end DaemonMark

end FdbKafkaBridge
