import FdbKafkaBridge.Bridge.CursorFile
import FdbKafkaBridge.Cdc.Listener

/-!
# `BridgePipeline`

`bridge/pipeline.py`. One `step` processes one CDC reply, or finishes a delivery already in
progress: three flags say where the last step stopped.
-/

namespace FdbKafkaBridge

open Protobuf (Bytes)
open Serialization (FDBMutationRecord)
open Interaction

def defaultAckRetries : ℕ := 3

def defaultCommitRetries : ℕ := 3

/-- `DEFAULT_ACK_RETRY_DELAY_SECONDS` and `DEFAULT_COMMIT_RETRY_DELAY_SECONDS`. -/
def defaultRetryDelaySeconds : ℚ := 1 / 5

/-- The checkpoint of a pipeline: a callback, or the cursor file of a bridge. -/
inductive Checkpoint
  | callback
  | cursorFile (path : Option String) (streamName : PyStr)
  deriving DecidableEq, Repr

/-- What a pipeline was constructed with; the constructor rejects a retry budget below 1. -/
structure PipelineSettings where
  topic : String
  checkpoint : Checkpoint
  partitionKey : Bytes
  ackRetries : ℕ
  ackRetryDelaySeconds : ℚ
  commitRetries : ℕ
  commitRetryDelaySeconds : ℚ
  flushTimeoutSeconds : ℚ
  ackRetries_pos : 0 < ackRetries
  commitRetries_pos : 0 < commitRetries
  deriving DecidableEq, Repr

structure BridgePipeline where
  settings : PipelineSettings
  pendingCount : ℕ
  /-- Kafka has the batch. The cursor is not yet acknowledged. -/
  deliveredUnacked : Bool
  /-- The checkpoint callback has run successfully for the current batch. -/
  checkpointed : Bool
  /-- `commit_transaction()` was retriable. Do not abort; retry the commit. -/
  commitOutstanding : Bool
  deriving DecidableEq, Repr

def BridgePipeline.new (settings : PipelineSettings) : BridgePipeline :=
  ⟨settings, 0, false, false, false⟩

/-- A pipeline with the objects that it is bound to. `counted` holds the records buffered by the
counting wrapper around the listener, when there is one. -/
structure Session where
  listener : FDBMutationListener
  client : FDBClient
  producer : MutationProducer
  pipeline : BridgePipeline
  counted : Option (List FDBMutationRecord)
  deriving DecidableEq, Repr

instance : HasCallbacks Session where
  runCallbacks callbacks s := { s with producer := HasCallbacks.runCallbacks callbacks s.producer }

namespace Session

def listenerState (s : Session) : ListenerState := ⟨s.listener, s.client, some s.producer⟩

def setListenerState (s : Session) (l : ListenerState) : Session :=
  { s with listener := l.listener, client := l.client, producer := l.producer.getD s.producer }

def onListener {α : Type} (p : Py ListenerState α) : Py Session α :=
  Proc.zoom listenerState setListenerState p

def onProducer {α : Type} (p : Py MutationProducer α) : Py Session α :=
  Proc.zoom Session.producer (fun s p => { s with producer := p }) p

def setPendingCount (n : ℕ) (s : Session) : Session :=
  { s with pipeline := { s.pipeline with pendingCount := n } }

def setDeliveredUnacked (b : Bool) (s : Session) : Session :=
  { s with pipeline := { s.pipeline with deliveredUnacked := b } }

def setCheckpointed (b : Bool) (s : Session) : Session :=
  { s with pipeline := { s.pipeline with checkpointed := b } }

def setCommitOutstanding (b : Bool) (s : Session) : Session :=
  { s with pipeline := { s.pipeline with commitOutstanding := b } }

def setCounted (records : List FDBMutationRecord) (s : Session) : Session :=
  { s with counted := s.counted.map fun _ => records }

end Session

namespace BridgePipeline

open Session

/-- `poll_records` of the listener or of the counting wrapper around it. -/
def pollRecords (fuel : ℕ) : Py Session (List FDBMutationRecord) := do
  let records ← onListener (FDBMutationListener.pollRecords fuel none)
  modify (setCounted records)
  return records

def runCheckpoint (cursor : PyCursor) : Py Session Unit := do
  match (← get).pipeline.settings.checkpoint with
  | .callback => native (.host (.checkpoint cursor))
  | .cursorFile path streamName => saveCursorToFile path cursor (some streamName)

/-- Enqueue every record under the same partition key. -/
def produceAll : List FDBMutationRecord → Py Session Unit
  | [] => pure ()
  | record :: rest => do
    let settings := (← get).pipeline.settings
    onProducer (MutationProducer.produce settings.topic record (some settings.partitionKey))
    produceAll rest

/-- What `_produce_and_flush` answers by closing the producer. -/
def isDeliveryFailure (exc : PyExc) : Bool :=
  exc.isKafkaException || exc.isBufferError || exc.isTimeoutError || exc.isRuntimeError

/-- Publish a non-transactional batch, or close the producer and raise. -/
def produceAndFlush (records : List FDBMutationRecord) : Py Session Unit := do
  tryCatch
    (do
      produceAll records
      let settings := (← get).pipeline.settings
      onProducer (MutationProducer.flushOrRaise settings.flushTimeoutSeconds))
    fun exc => do
      Proc.when (isDeliveryFailure exc)
        (onProducer (MutationProducer.close MutationProducer.defaultTimeout))
      throw exc
  modify (setDeliveredUnacked true)

/-- Abort the open transaction and raise `exc`; a fatal error is raised without an abort, and the
exception of a failed abort takes the place of `exc`. -/
def abortAndRaise (exc : PyExc) : Py Session Unit := do
  if isFatalKafkaError exc then
    onProducer MutationProducer.markFatal
    throw exc
  else
    onProducer MutationProducer.abortTransaction
    throw exc

/-- Open a transaction and enqueue the batch. -/
def beginAndProduce (records : List FDBMutationRecord) : Py Session Unit := do
  onProducer MutationProducer.beginTransaction
  tryCatch (produceAll records) fun exc =>
    if exc.isKafkaException || exc.isBufferError then abortAndRaise exc else throw exc
  modify (setCommitOutstanding true)

/-- The exception that a loop of attempts ends with. -/
def raiseLast {σ : Type} : Option PyExc → Py σ Unit
  | some exc => throw exc
  | none => throw ⟨.other "AssertionError" none, ""⟩

/-- The delay after a failed attempt, unless it was the last. -/
def pause {σ : Type} [HasCallbacks σ] (attemptsLeft : ℕ) (delay : ℚ) : Py σ Unit :=
  Proc.when (0 < attemptsLeft ∧ 0 < delay) (native (.host (.sleep delay)))

/-- The attempts of `_commit_with_retry` that are left. -/
def commitAttempts : ℕ → Option PyExc → Py Session Unit
  | 0, last => raiseLast last
  | n + 1, _ => do
    match ← (onProducer MutationProducer.commitTransaction).attempt with
    | .ok () => return
    | .error exc =>
      if exc.isRuntimeError then
        modify (setCommitOutstanding false)
        throw exc
      else if !exc.isKafkaException then throw exc
      else if isFatalKafkaError exc then
        modify (setCommitOutstanding false)
        onProducer MutationProducer.markFatal
        throw exc
      else if !isRetriableCommit exc then
        modify (setCommitOutstanding false)
        abortAndRaise exc
      else
        pause n (← get).pipeline.settings.commitRetryDelaySeconds
        commitAttempts n (some exc)

/-- Retry a retriable commit. Abort only when the transaction is dead. -/
def commitWithRetry : Py Session Unit := do
  commitAttempts (← get).pipeline.settings.commitRetries none

/-- The attempts of `_acknowledge_with_retry` that are left. -/
def ackAttempts (fuel : ℕ) : ℕ → Option PyExc → Py Session Unit
  | 0, last => raiseLast last
  | n + 1, _ => do
    match ← (onListener (FDBMutationListener.acknowledge fuel)).attempt with
    | .ok () => return
    | .error exc =>
      if !exc.isCdcRetryable then throw exc
      else
        pause n (← get).pipeline.settings.ackRetryDelaySeconds
        ackAttempts fuel n (some exc)

def acknowledgeWithRetry (fuel : ℕ) : Py Session Unit := do
  ackAttempts fuel (← get).pipeline.settings.ackRetries none

/-- Persist the position, unless that is done already, then acknowledge. -/
def checkpointAndAcknowledge (fuel : ℕ) : Py Session Unit := do
  Proc.when (!(← get).pipeline.checkpointed) do
    let cursor ← onListener (FDBMutationListener.getPosition fuel)
    runCheckpoint cursor
    modify (setCheckpointed true)
  acknowledgeWithRetry fuel
  modify (setCheckpointed false)

/-- Commit if needed, then checkpoint and acknowledge. -/
def finishDelivery (fuel : ℕ) : Py Session ℕ := do
  Proc.when (← get).pipeline.commitOutstanding do
    commitWithRetry
    modify (setCommitOutstanding false)
    modify (setDeliveredUnacked true)
  checkpointAndAcknowledge fuel
  modify (setDeliveredUnacked false)
  return (← get).pipeline.pendingCount

/-- Publish one batch, in the mode of the producer. -/
def publish (records : List FDBMutationRecord) : Py Session Unit := do
  if (← get).producer.transactional then beginAndProduce records
  else produceAndFlush records

/-- Process one CDC reply, or finish a delivery already in progress. -/
def step (fuel : ℕ) : Py Session ℕ := do
  let s ← get
  if s.pipeline.commitOutstanding || s.pipeline.deliveredUnacked then finishDelivery fuel
  else
    let records ← pollRecords fuel
    if records.isEmpty then return 0
    else
      publish records
      modify (setPendingCount records.length)
      finishDelivery fuel

end BridgePipeline

end FdbKafkaBridge
