import FdbKafkaBridge.Kafka.Producer

/-!
# `FDBClient`

`cdc/client.py`. Selecting the API version and opening the database is one native call. The parts
that only the tests and the demo use (removing and listing streams) are left out.
-/

namespace FdbKafkaBridge

open Protobuf (Bytes)
open Interaction

/-- Native FoundationDB error codes that are classified explicitly. -/
def fdbTransactionTooOld : ℤ := 1007

def fdbServerOverloaded : ℤ := 1211

def fdbClientInvalidOperation : ℤ := 2000

structure FDBClient where
  /-- Whether the database handle is open. -/
  db : Bool
  deriving DecidableEq, Repr

/-- The client, and the producer whose callbacks may run meanwhile. -/
structure ClientState where
  client : FDBClient
  producer : Option MutationProducer
  deriving DecidableEq, Repr

instance : HasCallbacks (Option MutationProducer) where
  runCallbacks callbacks p := p.map (HasCallbacks.runCallbacks callbacks)

instance : HasCallbacks ClientState where
  runCallbacks callbacks s := { s with producer := HasCallbacks.runCallbacks callbacks s.producer }

/-- `_raise_consume_failure`: the exception to raise in place of `exc`. -/
def consumeFailure (exc : PyExc) (action : String) : PyExc :=
  let message := "Failed to " ++ action ++ ": " ++ exc.message
  match exc.nativeErrorCode with
  | some code =>
    if code = fdbServerOverloaded then .cdc (.retryable (some code)) message
    else if code = fdbTransactionTooOld ∨ code = fdbClientInvalidOperation then
      .cdc (.terminal (some code)) message
    else exc
  | none => .cdc .base message

def containsText (text pattern : String) : Bool := (text.splitOn pattern).length > 1

/-- `_translate_cdc_runtime_error`: the exception to raise in place of `exc`. -/
def translateCdcRuntimeError (exc : PyExc) : PyExc :=
  let message := exc.message.toLower
  if containsText message "native cdc" &&
      (containsText message "does not support" || containsText message "requires api version") then
    .cdc .notSupported exc.message
  else exc

/-- `except RuntimeError as exc: _translate_cdc_runtime_error(exc)`. -/
def translateRuntimeError {α : Type} (exc : PyExc) : Py ClientState α :=
  throw (if exc.isRuntimeError then translateCdcRuntimeError exc else exc)

/-- `left < right` for byte strings. -/
def bytesLt : Bytes → Bytes → Bool
  | _, [] => false
  | [], _ :: _ => true
  | a :: left, b :: right => a < b || (a = b && bytesLt left right)

namespace FDBClient

def «open» : Py ClientState Unit := do
  Proc.when (!(← get).client.db) do
    native (.fdb .openDatabase)
    modify fun s => { s with client := { db := true } }

def close : Py ClientState Unit := modify fun s => { s with client := { db := false } }

def registerCdcStream (name beginKey endKey : Bytes) : Py ClientState Unit := do
  raiseIf (!bytesLt beginKey endKey)
    (.cdc .invalidRange "CDC range must satisfy begin_key < end_key")
  tryCatch
    (do
      «open»
      let _ ← native (.fdb (.registerCdcStream name beginKey endKey)))
    translateRuntimeError

def createCdcConsumer (name : Bytes) : Py ClientState Handle :=
  tryCatch
    (do
      «open»
      native (.fdb (.createCdcConsumer name)))
    translateRuntimeError

/-- A `stream_id` or version that a resumed cursor may have. -/
def cursorCoordinate (value : PyVal) (low high : ℤ) : Bool :=
  match value with
  | .int i => low ≤ i && i < high
  | _ => false

def resumeCdcConsumer (cursor : PyCursor) : Py ClientState Handle := do
  match cursor with
  | .object (some streamId) (some lastConsumedVersion) =>
    raiseIf (!cursorCoordinate streamId 0 (2 ^ 64))
      (.cdc .invalidCursor "cursor.stream_id must be a uint64 integer")
    raiseIf (!cursorCoordinate lastConsumedVersion (-2 ^ 63) (2 ^ 63))
      (.cdc .invalidCursor "cursor.last_consumed_version must be an int64 integer")
    tryCatch
      (do
        «open»
        native (.fdb (.resumeCdcConsumer cursor)))
      translateRuntimeError
  | _ =>
    throw (.cdc .invalidCursor "cursor must expose stream_id and last_consumed_version")

def getReadVersion : Py ClientState ℤ := do
  «open»
  native (.fdb .getReadVersion)

end FDBClient

end FdbKafkaBridge
