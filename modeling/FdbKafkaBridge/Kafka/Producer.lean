import FdbKafkaBridge.Native
import FdbKafkaBridge.Serialization.MutationsPb

/-!
# `MutationProducer`

`kafka/producer.py`. The native producer and the closed flag are one field: `close` drops the native
producer in the same breath in which it marks the wrapper closed. The performance and durability
settings are not read back by anything and are left out, as are a user's own callbacks.
-/

namespace FdbKafkaBridge

open Serialization (FDBMutationRecord)
open Protobuf (Bytes)
open Interaction

structure MutationProducer where
  /-- The native producer, `none` once closed. -/
  producer : Option Handle
  deliveryErrors : List KafkaError
  transactional : Bool
  txnInitialized : Bool
  txnOpen : Bool
  fatalFlag : Bool
  deriving DecidableEq, Repr

namespace MutationProducer

/-- The native calls of the producer allow this long by default, in seconds. -/
def defaultTransactionTimeout : ℚ := 30

def defaultTimeout : ℚ := 10

def closed (p : MutationProducer) : Bool := p.producer.isNone

def fatal (p : MutationProducer) : Bool := p.fatalFlag

/-- `_error_cb` and the delivery callback of a message without a user callback. -/
def runCallback (p : MutationProducer) : Callback → MutationProducer
  | .error err => if err.fatal then { p with fatalFlag := true } else p
  | .delivery (some err) => { p with deliveryErrors := p.deliveryErrors ++ [err] }
  | .delivery none => p

instance : HasCallbacks MutationProducer where
  runCallbacks callbacks p := callbacks.foldl runCallback p

def setFatal (p : MutationProducer) : MutationProducer := { p with fatalFlag := true }

/-- The end of a transaction: it is not open any more and its delivery errors are cleared. -/
def endTransaction (p : MutationProducer) : MutationProducer :=
  { p with txnOpen := false, deliveryErrors := [] }

/-- `__init__`, for a `transactional_id` that is not empty or absent. -/
def new {σ : Type} [HasCallbacks σ] (transactionalId : Option String) :
    Py σ MutationProducer := do
  raiseIf (transactionalId = some "")
    (.valueError "transactional_id must be a non-empty string or None")
  let producer ← native (.kafka (.newProducer transactionalId))
  return { producer := some producer
           deliveryErrors := []
           transactional := transactionalId.isSome
           txnInitialized := false
           txnOpen := false
           fatalFlag := false }

/-- `_require_transactional`, which also gives the native producer. -/
def requireTransactional (method : String) : Py MutationProducer Handle := do
  let p ← get
  match p.producer with
  | none => throw (.runtimeError (method ++ " cannot proceed: producer is closed"))
  | some h =>
    raiseIf p.fatal (.runtimeError (method ++ " cannot proceed: producer is in a fatal error state"))
    raiseIf (!p.transactional) (.runtimeError (method ++ " requires a transactional_id"))
    raiseIf (method ≠ "init_transactions" && !p.txnInitialized)
      (.runtimeError (method ++ " requires init_transactions() to be called first"))
    return h

/-- `except KafkaException as exc`: a fatal one marks the producer fatal. -/
def markIfFatal (exc : PyExc) : Py MutationProducer Unit := do
  Proc.when (isFatalKafkaError exc) (modify setFatal)
  throw exc

def initTransactions : Py MutationProducer Unit := do
  let h ← requireTransactional "init_transactions"
  raiseIf (← get).txnInitialized
    (.runtimeError "init_transactions() has already been called")
  tryCatch (native (.kafka (.initTransactions h defaultTransactionTimeout))) markIfFatal
  modify fun p => { p with txnInitialized := true }

def beginTransaction : Py MutationProducer Unit := do
  let h ← requireTransactional "begin_transaction"
  raiseIf (← get).txnOpen (.runtimeError "A transaction is already open")
  tryCatch (native (.kafka (.beginTransaction h))) markIfFatal
  modify fun p => { p with txnOpen := true }

def commitTransaction : Py MutationProducer Unit := do
  let h ← requireTransactional "commit_transaction"
  raiseIf (!(← get).txnOpen)
    (.runtimeError "commit_transaction() called without an open transaction")
  tryCatch (native (.kafka (.commitTransaction h defaultTransactionTimeout))) markIfFatal
  modify endTransaction

def abortTransaction : Py MutationProducer Unit := do
  let h ← requireTransactional "abort_transaction"
  raiseIf (!(← get).txnOpen)
    (.runtimeError "abort_transaction() called without an open transaction")
  tryCatch (native (.kafka (.abortTransaction h defaultTransactionTimeout))) fun exc => do
    -- whatever the abort raised
    modify setFatal
    throw exc
  modify endTransaction

/-- `produce` without a user callback. -/
def produce (topic : String) (record : FDBMutationRecord) (key : Option Bytes) :
    Py MutationProducer Unit := do
  let p ← get
  match p.producer with
  | none => throw (.runtimeError "Producer is closed")
  | some h =>
    raiseIf p.fatal (.runtimeError "Producer is in a fatal error state")
    raiseIf (p.transactional && !p.txnOpen)
      (.runtimeError ("produce() in transactional mode requires an open transaction " ++
        "(call begin_transaction() first)"))
    match p.transactional, p.deliveryErrors with
    | false, err :: _ => throw (.kafka err)
    | _, _ =>
      let payload := record.serializeToString
      native (.kafka (.produce h topic payload key))
      native (.kafka (.poll h))

def flush (timeout : ℚ) : Py MutationProducer ℕ := do
  let p ← get
  match p.producer with
  | none => throw (.runtimeError "Producer is closed")
  | some h =>
    raiseIf p.fatal (.runtimeError "Producer is in a fatal error state")
    let remaining : ℕ ← native (.kafka (.flush h timeout))
    match (← get).deliveryErrors with
    | err :: _ => throw (.kafka err)
    | [] => return remaining

def flushOrRaise (timeout : ℚ) : Py MutationProducer Unit := do
  let remaining ← flush timeout
  raiseIf (remaining > 0) (.timeoutError (toString remaining ++
    " message(s) remained undelivered after " ++ toString timeout ++ "s flush timeout"))

def markFatal : Py MutationProducer Unit := modify setFatal

/-- The abort of an open transaction in `close`. -/
def closeTransaction (h : Handle) (timeout : ℚ) : Py MutationProducer Unit := do
  let p ← get
  Proc.when (p.transactional && p.txnOpen)
    (tryCatch
      (do
        native (.kafka (.abortTransaction h timeout))
        modify fun p => { p with txnOpen := false })
      fun _ => return)

/-- The flush in `close`: how many messages are undelivered, and whether the flush failed. The
count is `none` when even asking for it failed. -/
def closeFlush (h : Handle) (timeout : ℚ) : Py MutationProducer (Option ℕ × Bool) := do
  match ← (native (.kafka (.flush h timeout)) : Py MutationProducer ℕ).attempt with
  | .ok undelivered => return (some undelivered, false)
  | .error _ =>
    match ← (native (.kafka (.queueLength h)) : Py MutationProducer ℕ).attempt with
    | .ok undelivered => return (some undelivered, true)
    | .error _ => return (none, true)

/-- The purge in `close`. -/
def closePurge (h : Handle) (timeout : ℚ) : Py MutationProducer Unit :=
  tryCatch
    (do
      native (.kafka (.purge h))
      let _ ← native (.kafka (.flush h timeout)))
    fun _ => return

def close (timeout : ℚ) : Py MutationProducer Unit := do
  match (← get).producer with
  | none => return
  | some h =>
    closeTransaction h timeout
    let (undelivered, flushFailed) ← closeFlush h timeout
    Proc.when (undelivered.any (· > 0) || flushFailed) (closePurge h timeout)
    modify fun p => { p with producer := none }
    -- with its last reference gone the native producer is destroyed
    native (.kafka (.dropProducer h))

/-- `__len__`. -/
def length : Py MutationProducer ℕ := do
  let p ← get
  match p.producer with
  | none => throw (.runtimeError "Producer is closed")
  | some h =>
    raiseIf p.fatal (.runtimeError "Producer is in a fatal error state")
    native (.kafka (.queueLength h))

end MutationProducer

end FdbKafkaBridge
