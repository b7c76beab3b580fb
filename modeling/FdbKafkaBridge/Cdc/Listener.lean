import FdbKafkaBridge.Cdc.Client
import FdbKafkaBridge.Cdc.Reply

/-!
# `FDBMutationListener`

`cdc/listener.py`. A listener permits one unacknowledged native reply at a time.
-/

namespace FdbKafkaBridge

open Protobuf (Bytes)
open Serialization (FDBMutationRecord)
open Interaction

def defaultMaxRecordBytes : ℤ := 1000000

def defaultResumeTimeoutSeconds : ℚ := 10

def defaultResumePollIntervalSeconds : ℚ := 1 / 20

structure FDBMutationListener where
  rawStreamName : Bytes
  streamName : PyStr
  keyRange : Option (Bytes × Bytes)
  initialCursor : Option PyCursor
  maxRecordBytes : ℤ
  resumeTimeoutSeconds : ℚ
  resumePollIntervalSeconds : ℚ
  /-- The native consumer. -/
  consumer : Option Handle
  isClosed : Bool
  awaitingAck : Bool
  deliveryFailed : Bool
  deriving DecidableEq, Repr

/-- A listener, its client, and the producer whose callbacks may run meanwhile. -/
structure ListenerState where
  listener : FDBMutationListener
  client : FDBClient
  producer : Option MutationProducer
  deriving DecidableEq, Repr

instance : HasCallbacks ListenerState where
  runCallbacks callbacks s := { s with producer := HasCallbacks.runCallbacks callbacks s.producer }

namespace ListenerState

def clientState (s : ListenerState) : ClientState := ⟨s.client, s.producer⟩

def setClientState (s : ListenerState) (c : ClientState) : ListenerState :=
  { s with client := c.client, producer := c.producer }

def setConsumer (consumer : Option Handle) (s : ListenerState) : ListenerState :=
  { s with listener := { s.listener with consumer := consumer } }

def setDeliveryFailed (failed : Bool) (s : ListenerState) : ListenerState :=
  { s with listener := { s.listener with deliveryFailed := failed } }

def setAwaitingAck (awaiting : Bool) (s : ListenerState) : ListenerState :=
  { s with listener := { s.listener with awaitingAck := awaiting } }

end ListenerState

namespace FDBMutationListener

open ListenerState

/-- `__init__` for a `str` stream name and numbers that pass its checks. -/
def new {σ : Type} (streamName : PyStr) (keyRange : Option (Bytes × Bytes))
    (cursor : Option PyCursor) (maxRecordBytes : ℤ) : Py σ FDBMutationListener :=
  match streamName.encode? with
  | none => throw (.valueError "surrogates not allowed")
  | some raw =>
    return { rawStreamName := raw
             streamName := streamName
             keyRange := keyRange
             initialCursor := cursor
             maxRecordBytes := maxRecordBytes
             resumeTimeoutSeconds := defaultResumeTimeoutSeconds
             resumePollIntervalSeconds := defaultResumePollIntervalSeconds
             consumer := none
             isClosed := false
             awaitingAck := false
             deliveryFailed := false }

def onClient {α : Type} (p : Py ClientState α) : Py ListenerState α :=
  Proc.zoom ListenerState.clientState ListenerState.setClientState p

def consumerClosed : PyExc := .cdc .consumerClosed "CDC consumer is closed."

/-- The version of a cursor that `resume_cdc_consumer` has accepted. -/
def cursorVersion : PyCursor → ℤ
  | .object _ (some (.int version)) => version
  | _ => 0

/-- The loop that waits for the cluster read version to reach `targetVersion`. The deadline is the
only bound on its length, so the number of iterations is a parameter. -/
def waitForReadVersion (targetVersion : ℤ) (deadline : ℚ) : ℕ → Py ListenerState Unit
  | 0 => Proc.hang
  | n + 1 => do
    let readVersion ← onClient FDBClient.getReadVersion
    if readVersion < targetVersion then
      let now : ℚ ← native (.host .monotonic)
      let remaining := deadline - now
      raiseIf (remaining ≤ 0) (.cdc .invalidCursor
        ("Timed out waiting for the cluster read version to reach resumed cursor version " ++
          toString targetVersion))
      native (.host (.sleep (min (← get).listener.resumePollIntervalSeconds remaining)))
      waitForReadVersion targetVersion deadline n
    else return

/-- `_reconcile_resumed_consumer`, with the consumer that `start` has just resumed. -/
def reconcileResumedConsumer (fuel : ℕ) (cursor : PyCursor) (consumer : Handle) :
    Py ListenerState Unit := do
  let now : ℚ ← native (.host .monotonic)
  let deadline := now + (← get).listener.resumeTimeoutSeconds
  waitForReadVersion (cursorVersion cursor) deadline fuel
  tryCatch (native (.fdb (.acknowledge consumer))) fun exc =>
    throw (consumeFailure exc "restore resumed CDC position")

/-- `except BaseException` of `start`: the consumer is dropped and closed. -/
def dropConsumer (consumer : Handle) (exc : PyExc) : Py ListenerState Unit := do
  modify (setConsumer none)
  native (.fdb (.closeConsumer consumer))
  throw exc

/-- The part of `start` that creates or resumes the consumer. -/
def startConsumer (fuel : ℕ) : Py ListenerState Unit := do
  let l := (← get).listener
  match l.initialCursor with
  | none =>
    let consumer ← onClient (FDBClient.createCdcConsumer l.rawStreamName)
    modify (setConsumer (some consumer))
  | some cursor =>
    let consumer ← onClient (FDBClient.resumeCdcConsumer cursor)
    modify (setConsumer (some consumer))
    tryCatch (reconcileResumedConsumer fuel cursor consumer) (dropConsumer consumer)

def start (fuel : ℕ) : Py ListenerState Unit := do
  let l := (← get).listener
  if l.consumer.isSome then return
  else do
    raiseIf l.isClosed (.cdc .consumerClosed "Cannot start a closed FDBMutationListener.")
    onClient FDBClient.open
    match l.keyRange with
    | some (beginKey, endKey) =>
      onClient (FDBClient.registerCdcStream l.rawStreamName beginKey endKey)
    | none => pure ()
    startConsumer fuel

/-- The `consumer` property: the active consumer, started on first access. -/
def getConsumer (fuel : ℕ) : Py ListenerState Handle := do
  raiseIf (← get).listener.isClosed consumerClosed
  Proc.when (← get).listener.consumer.isNone (start fuel)
  match (← get).listener.consumer with
  | some consumer => return consumer
  | none => throw ⟨.other "AttributeError" none, "'NoneType' object has no attribute"⟩

/-- `except Exception as exc` of a consume or acknowledge call. -/
def onConsumeFailure {α : Type} (action : String) (exc : PyExc) : Py ListenerState α := do
  if (← get).listener.isClosed then throw consumerClosed
  else throw (consumeFailure exc action)

def consumeBatch (fuel : ℕ) : Py ListenerState CdcReply := do
  let l := (← get).listener
  raiseIf l.deliveryFailed (.cdc .base ("The previous CDC reply could not be serialized; " ++
    "close and resume from the last persisted cursor."))
  raiseIf l.awaitingAck (.cdc .base ("The previous CDC reply must be durably processed and " ++
    "acknowledged before polling again."))
  tryCatch
    (do
      let consumer ← getConsumer fuel
      native (.fdb (.consume consumer)))
    (onConsumeFailure "consume CDC reply")

/-- The records of a reply, built with the flag set that only this success clears. -/
def deliver (reply : CdcReply) (timestampNs : PyVal) :
    Py ListenerState (List FDBMutationRecord) := do
  let l := (← get).listener
  match recordsOfReply l.streamName l.maxRecordBytes timestampNs reply with
  | .error exc => throw exc
  | .ok records =>
    modify (setDeliveryFailed false)
    modify (setAwaitingAck (!records.isEmpty))
    return records

def pollRecords (fuel : ℕ) (bridgeTimestampNs : Option PyVal) :
    Py ListenerState (List FDBMutationRecord) := do
  let batch ← consumeBatch fuel
  modify (setDeliveryFailed true)
  match bridgeTimestampNs with
  | some timestampNs => deliver batch timestampNs
  | none =>
    let timestampNs : ℕ ← native (.host .timeNs)
    deliver batch (.int timestampNs)

def acknowledge (fuel : ℕ) : Py ListenerState Unit := do
  let l := (← get).listener
  raiseIf l.isClosed consumerClosed
  raiseIf l.deliveryFailed
    (.cdc .base "Cannot acknowledge a CDC reply that was not completely serialized.")
  raiseIf (!l.awaitingAck)
    (.cdc .base "No delivered CDC reply is awaiting acknowledgement.")
  tryCatch
    (do
      let consumer ← getConsumer fuel
      native (.fdb (.acknowledge consumer)))
    (onConsumeFailure "acknowledge CDC position")
  modify (setAwaitingAck false)

def getPosition (fuel : ℕ) : Py ListenerState PyCursor := do
  let consumer ← getConsumer fuel
  native (.fdb (.getPosition consumer))

def close : Py ListenerState Unit := do
  let consumer := (← get).listener.consumer
  modify fun s => { s with listener := { s.listener with isClosed := true, consumer := none } }
  match consumer with
  | some consumer => native (.fdb (.closeConsumer consumer))
  | none => pure ()

end FDBMutationListener

end FdbKafkaBridge
