import FdbKafkaBridge.Interaction.Calls
import FdbKafkaBridge.Kafka.Proofs.MethodProofs

/-!
# Sequences of calls on a `MutationProducer`

The methods of the wrapper as its callers may call them, in any order, and what the marks of such a
run show: how far the native producer is in its transactions, and the flags of the wrapper.
-/

namespace FdbKafkaBridge

open Serialization (FDBMutationRecord)
open Protobuf (Bytes)
open Interaction

/-- A method of the wrapper with its arguments. -/
inductive ProducerMethod
  | initTransactions
  | beginTransaction
  | produce (topic : String) (record : FDBMutationRecord) (key : Option Bytes)
  | flush (timeout : ℚ)
  | flushOrRaise (timeout : ℚ)
  | commitTransaction
  | abortTransaction
  | markFatal
  | length
  | close (timeout : ℚ)

def ProducerMethod.isClose : ProducerMethod → Bool
  | .close _ => true
  | _ => false

/-- A method and the end of it. The counts that `flush` and `length` return are dropped. -/
def MutationProducer.perform : ProducerMethod → Py MutationProducer Unit
  | .initTransactions => initTransactions
  | .beginTransaction => beginTransaction
  | .produce topic record key => produce topic record key
  | .flush timeout => do let _ ← flush timeout
  | .flushOrRaise timeout => flushOrRaise timeout
  | .commitTransaction => commitTransaction
  | .abortTransaction => abortTransaction
  | .markFatal => markFatal
  | .length => do let _ ← length
  | .close timeout => close timeout

abbrev ProducerMark := Mark Response ProducerMethod PyExc MutationProducer Unit

namespace ProducerMark

/-! ## What the native calls show -/

/-- Whether a native `init_transactions` has succeeded. -/
def initializedStep (done : Bool) : ProducerMark → Bool
  | .event ⟨.kafka (.initTransactions ..), r⟩ => done || r.result.isOk
  | _ => done

def initialized (marks : List ProducerMark) : Bool := marks.foldl initializedStep false

/-- Whether a transaction was begun and neither a commit nor an abort has returned normally since. -/
def unresolvedStep (unresolved : Bool) : ProducerMark → Bool
  | .event ⟨.kafka (.beginTransaction _), r⟩ => unresolved || r.result.isOk
  | .event ⟨.kafka (.commitTransaction ..), r⟩ => unresolved && !r.result.isOk
  | .event ⟨.kafka (.abortTransaction ..), r⟩ => unresolved && !r.result.isOk
  | _ => unresolved

def unresolved (marks : List ProducerMark) : Bool := marks.foldl unresolvedStep false

/-! ## The flags of the wrapper -/

/-- `_fatal`: as of the last start or end of a method, or set by a callback since. -/
def fatalStep (fatal : Bool) : ProducerMark → Bool
  | .start _ p => p.fatal
  | .event e => fatal || e.response.callbacks.any Callback.isFatal
  | .finish _ _ p => p.fatal

def fatalNow (marks : List ProducerMark) : Bool := marks.foldl fatalStep false

/-- Neither flag that was set before has been reset. -/
def Persists (marks : List ProducerMark) (p : MutationProducer) : Prop :=
  ∀ p' ∈ states marks, (p'.fatal = true → p.fatal = true) ∧ (p'.closed = true → p.closed = true)

/-- `close` has returned or raised. -/
def CloseEnded (marks : List ProducerMark) : Prop :=
  ∃ timeout r p, Mark.finish (.close timeout) r p ∈ marks

/-- The native calls that run callbacks. -/
def servesCallbacks : Call → Bool
  | .kafka (.poll _) => true
  | .kafka (.flush ..) => true
  | .kafka (.commitTransaction ..) => true
  | .kafka (.abortTransaction ..) => true
  | _ => false

/-- Callbacks have run only where librdkafka runs them. -/
def Served (marks : List ProducerMark) : Prop :=
  ∀ e ∈ events marks, e.response.callbacks ≠ [] → servesCallbacks e.call = true

/-! ## What is legal -/

/-- The order of the transaction calls. -/
def LegalCall (transactional : Bool) (marks : List ProducerMark) : Call → Prop
  | .kafka (.initTransactions ..) => initialized marks = false
  | .kafka (.beginTransaction _) => initialized marks = true ∧ unresolved marks = false
  | .kafka (.produce ..) => transactional = true → unresolved marks = true
  | .kafka (.commitTransaction ..) => unresolved marks = true
  | .kafka (.abortTransaction ..) => unresolved marks = true
  | _ => True

/-- A flag that is set stays set, nothing but `close` calls a fatal producer, `close` returns, and
nothing is called after it. -/
def LegalMark (transactional : Bool) (marks : List ProducerMark) : ProducerMark → Prop
  | .start _ p => Persists marks p
  | .event e =>
    LegalCall transactional marks e.call ∧
      (Served marks → fatalNow marks = true → (running marks).any ProducerMethod.isClose = true) ∧
      ¬ CloseEnded marks
  | .finish i r p =>
    Persists marks p ∧ (i.isClose = true → r = .ok () ∧ p.closed = true)

end ProducerMark

end FdbKafkaBridge
