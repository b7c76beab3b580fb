import FdbKafkaBridge.Bridge.Pipeline

/-!
# `Bridge`

`bridge/pipeline.py`: the daemon that builds the components from the configuration, runs the
pipeline until shutdown, rebuilds it from the last checkpoint, and stops. The step lock is not a
part of the state: what runs under the lock is one program, and whoever waits for the lock runs
before or after it. Thread interleavings are therefore sequences of these programs.
-/

namespace FdbKafkaBridge

open Protobuf (Bytes)
open Serialization (FDBMutationRecord)
open Interaction

/-- The part of `BridgeConfig` that the bridge reads. -/
structure BridgeConfig where
  streamName : PyStr
  beginKey : Bytes
  endKey : Bytes
  maxRecordBytes : ℤ
  cursorFile : Option String
  topic : String
  transactionalId : Option String
  flushTimeoutSeconds : ℚ
  backoffBaseSeconds : ℚ
  backoffMaxSeconds : ℚ
  shutdownTimeoutSeconds : ℚ
  deriving DecidableEq, Repr

structure BridgeMetrics where
  mutationsPublished : ℕ
  recordsPublished : ℕ
  batchesAcked : ℕ
  errorsRetried : ℕ
  deriving DecidableEq, Repr

structure Bridge where
  config : BridgeConfig
  /-- The transactional id of the producers that an injected `producer_factory` builds. -/
  producerFactory : Option (Option String)
  client : Option FDBClient
  listener : Option FDBMutationListener
  producer : Option MutationProducer
  pipeline : Option BridgePipeline
  /-- The buffer of the counting listener. -/
  countingListener : Option (List FDBMutationRecord)
  metrics : BridgeMetrics
  deriving DecidableEq, Repr

instance : HasCallbacks Bridge where
  runCallbacks callbacks b := { b with producer := HasCallbacks.runCallbacks callbacks b.producer }

namespace Bridge

/-- `__init__` with whatever components are injected. -/
def new (config : BridgeConfig) (client : Option FDBClient) (listener : Option FDBMutationListener)
    (producer : Option MutationProducer) (producerFactory : Option (Option String)) :
    Except PyExc Bridge :=
  if producer.any (·.transactional) ∧ producerFactory = none ∧ config.transactionalId = none then
    .error (.valueError ("An injected transactional producer needs producer_factory or " ++
      "kafka.transactional_id so rebuilds stay transactional"))
  else
    .ok { config := config
          producerFactory := producerFactory
          client := client
          listener := listener
          producer := producer
          pipeline := none
          countingListener := none
          metrics := ⟨0, 0, 0, 0⟩ }

/-! ## Building the components -/

def setClient (client : FDBClient) (b : Bridge) : Bridge := { b with client := some client }

def setListener (listener : Option FDBMutationListener) (b : Bridge) : Bridge :=
  { b with listener := listener }

def setProducer (producer : Option MutationProducer) (b : Bridge) : Bridge :=
  { b with producer := producer }

/-- Runs a method of a client that the bridge does not hold yet. -/
def onNewClient (p : Py ClientState Unit) : Py Bridge Unit :=
  Proc.zoom (fun b => ⟨⟨false⟩, b.producer⟩)
    (fun b s => { b with client := some s.client, producer := s.producer }) p

def onListener {α : Type} (listener : FDBMutationListener) (client : FDBClient)
    (p : Py ListenerState α) : Py Bridge α :=
  Proc.zoom (fun b => ⟨listener, client, b.producer⟩)
    (fun b s =>
      { b with listener := some s.listener, client := b.client.map fun _ => s.client,
               producer := s.producer }) p

def onProducer {α : Type} (producer : MutationProducer) (p : Py MutationProducer α) : Py Bridge α :=
  Proc.zoom (fun _ => producer) (fun b p => { b with producer := some p }) p

/-- `self._client`, opened when the bridge makes it. Should opening it fail it is not kept. -/
def buildClient : Py Bridge Unit := do
  Proc.when (← get).client.isNone do
    native (.fdb .openDatabase)
    modify (setClient ⟨true⟩)

/-- The listener of the configuration, from the cursor in the cursor file if there is one. -/
def buildListener (fuel : ℕ) : Py Bridge Unit := do
  let b ← get
  match b.listener, b.client with
  | none, some client =>
    let config := b.config
    let keyRange :=
      if config.beginKey ≠ [] ∨ config.endKey ≠ [] then some (config.beginKey, config.endKey)
      else none
    let cursor ← loadCursorFromFile config.cursorFile (some config.streamName)
    raiseIf (config.maxRecordBytes < 1) (.valueError "max_record_bytes must be positive")
    let listener ← FDBMutationListener.new config.streamName keyRange cursor config.maxRecordBytes
    modify (setListener (some listener))
    onListener listener client (FDBMutationListener.start fuel)
  | _, _ => pure ()

/-- `_producer_factory`. -/
def producerFromFactory : Py Bridge MutationProducer := do
  let b ← get
  MutationProducer.new (b.producerFactory.getD b.config.transactionalId)

def buildProducer : Py Bridge Unit := do
  Proc.when (← get).producer.isNone do
    let producer ← producerFromFactory
    modify (setProducer (some producer))
  -- every producer that gets here is new or injected, so it is not initialised
  match (← get).producer with
  | some producer =>
    Proc.when producer.transactional (onProducer producer MutationProducer.initTransactions)
  | none => pure ()

def discardListener : Py Bridge Unit := do
  let b ← get
  match b.listener with
  | some listener =>
    let _ ← (onListener listener (b.client.getD ⟨false⟩) FDBMutationListener.close).attempt
    modify (setListener none)
  | none => pure ()

def discardProducer : Py Bridge Unit := do
  let b ← get
  match b.producer with
  | some producer =>
    let _ ← (onProducer producer
      (MutationProducer.close b.config.shutdownTimeoutSeconds)).attempt
    modify (setProducer none)
  | none => pure ()

/-- Drop the pipeline, then close and unset the listener and the producer. -/
def discardListenerAndProducer : Py Bridge Unit := do
  modify fun b => { b with pipeline := none, countingListener := none }
  discardListener
  discardProducer

/-- The pipeline over the components that were built. -/
def bindPipeline : Py Bridge Unit := do
  let config := (← get).config
  modify fun b => { b with countingListener := some [] }
  match config.streamName.encode? with
  | none => throw (.valueError "surrogates not allowed")
  | some partitionKey =>
    raiseIf (config.flushTimeoutSeconds < 0)
      (.valueError "flush_timeout_seconds must be a non-negative number")
    raiseIf (config.flushTimeoutSeconds ≤ 0)
      (.valueError "flush_timeout_seconds must be positive")
    let settings : PipelineSettings :=
      { topic := config.topic
        checkpoint := .cursorFile config.cursorFile config.streamName
        partitionKey := partitionKey
        ackRetries := defaultAckRetries
        ackRetryDelaySeconds := defaultRetryDelaySeconds
        commitRetries := defaultCommitRetries
        commitRetryDelaySeconds := defaultRetryDelaySeconds
        flushTimeoutSeconds := config.flushTimeoutSeconds
        ackRetries_pos := by decide
        commitRetries_pos := by decide }
    modify fun b => { b with pipeline := some (BridgePipeline.new settings) }

/-- Create any missing client, listener and producer, then the pipeline. On failure the listener
and the producer are closed and unset. -/
def buildPipeline (fuel : ℕ) : Py Bridge Unit := do
  tryCatch
    (do
      buildClient
      buildListener fuel
      buildProducer)
    fun exc => do
      discardListenerAndProducer
      throw exc
  bindPipeline

def start (fuel : ℕ) : Py Bridge Unit := do
  if (← get).pipeline.isSome then return
  else
    raiseIf ((← get).config.streamName.isEmpty)
      (.valueError "Bridge requires a non-empty cdc.stream_name")
    buildPipeline fuel

/-- Rebuild from the last checkpoint. Does nothing while a commit is outstanding. -/
def rebuildPipeline (fuel : ℕ) : Py Bridge Unit := do
  if (← get).pipeline.any (·.commitOutstanding) then return
  else
    discardListenerAndProducer
    buildPipeline fuel

/-! ## Running -/

/-- The session of the pipeline, once all components are there. -/
def session? (b : Bridge) : Option Session :=
  match b.listener, b.client, b.producer, b.pipeline with
  | some listener, some client, some producer, some pipeline =>
    some ⟨listener, client, producer, pipeline, b.countingListener⟩
  | _, _, _, _ => none

def setSession (b : Bridge) (s : Session) : Bridge :=
  { b with listener := some s.listener, client := some s.client, producer := some s.producer,
           pipeline := some s.pipeline, countingListener := s.counted }

/-- `self._pipeline.step()`. -/
def step (fuel : ℕ) : Py Bridge ℕ := do
  match (← get).session? with
  | some s => Proc.zoom (fun _ => s) setSession (BridgePipeline.step fuel)
  | none => throw ⟨.other "AttributeError" none, "'NoneType' object has no attribute 'step'"⟩

/-- `pop_last_records` of the counting listener. -/
def popLastRecords : Py Bridge (List FDBMutationRecord) := do
  let records := (← get).countingListener.getD []
  modify fun b => { b with countingListener := b.countingListener.map fun _ => [] }
  return records

/-- The number of mutations in a record. -/
def mutationCount (record : FDBMutationRecord) : ℕ :=
  match record.record with
  | some (.batch batch) => batch.mutations.length
  | some (.mutation _) => 1
  | _ => 0

/-- The tally of one published batch. -/
def tally (published : ℕ) (records : List FDBMutationRecord) (b : Bridge) : Bridge :=
  { b with metrics :=
    { b.metrics with
      mutationsPublished := b.metrics.mutationsPublished + (records.map mutationCount).sum
      recordsPublished := b.metrics.recordsPublished +
        (if records.isEmpty then published else records.length)
      batchesAcked := b.metrics.batchesAcked + 1 } }

/-- Whether an exception left state that only a resume from the checkpoint clears. -/
def needsRebuild (b : Bridge) (exc : PyExc) : Bool :=
  match b.producer, b.listener, b.pipeline with
  | some producer, some listener, some pipeline =>
    if producer.closed || producer.fatal || listener.deliveryFailed then true
    else
      listener.awaitingAck && !pipeline.commitOutstanding &&
        (exc.isKafkaException || exc.isBufferError)
  | _, _, _ => true

/-- A bridge with the local variables of its `run` loop. -/
structure RunState where
  bridge : Bridge
  backoff : ℚ
  rebuildPending : Bool
  deriving DecidableEq, Repr

instance : HasCallbacks RunState where
  runCallbacks callbacks r := { r with bridge := HasCallbacks.runCallbacks callbacks r.bridge }

def onBridge {α : Type} (p : Py Bridge α) : Py RunState α :=
  Proc.zoom RunState.bridge (fun r b => { r with bridge := b }) p

def setBackoff (backoff : ℚ) (r : RunState) : RunState := { r with backoff := backoff }

def setRebuildPending (pending : Bool) (r : RunState) : RunState :=
  { r with rebuildPending := pending }

def requestShutdown {σ : Type} [HasCallbacks σ] : Py σ Unit := native (.host .shutdownSet)

/-- What precedes the step under the lock: `false` when shutdown has been requested. -/
def beforeStep (fuel : ℕ) : Py RunState Bool := do
  let shutdown : Bool ← native (.host .shutdownIsSet)
  if shutdown then return false
  else
    let r ← get
    -- the pipeline is missing only after a failed rebuild
    Proc.when (r.rebuildPending || r.bridge.pipeline.isNone) do
      onBridge (rebuildPipeline fuel)
      modify (setRebuildPending false)
    return true

/-- What runs under the step lock: the number of records published with the records, or nothing
when shutdown has been requested. -/
def lockedStep (fuel : ℕ) : Py RunState (Option (ℕ × List FDBMutationRecord)) := do
  let go ← beforeStep fuel
  if go then
    let published ← onBridge (step fuel)
    if published = 0 then return some (0, [])
    else
      let records ← onBridge popLastRecords
      return some (published, records)
  else return none

/-- `backoff` grows until the configured maximum. -/
def growBackoff (r : RunState) : RunState :=
  setBackoff (min (r.backoff * 3 / 2) r.bridge.config.backoffMaxSeconds) r

/-- `self._shutdown_requested.wait(timeout=backoff)`, and the next backoff. -/
def waitBackoff : Py RunState Unit := do
  native (.host (.shutdownWait (← get).backoff))
  modify growBackoff

/-- The rest of an iteration whose step returned. -/
def afterStep (published : ℕ) (records : List FDBMutationRecord) : Py RunState Unit := do
  if published = 0 then waitBackoff
  else
    modify fun r => setBackoff r.bridge.config.backoffBaseSeconds r
    modify fun r => { r with bridge := tally published records r.bridge }

/-- The exceptions that end the loop. -/
def endsRun (exc : PyExc) : Bool :=
  exc.isCdcTerminal || isFatalKafkaError exc || exc.isPermanent

def countRetry (r : RunState) : RunState :=
  { r with bridge :=
    { r.bridge with metrics :=
      { r.bridge.metrics with errorsRetried := r.bridge.metrics.errorsRetried + 1 } } }

/-- The part of the handlers that runs under the lock. -/
def noteError (exc : PyExc) (r : RunState) : RunState :=
  setRebuildPending (r.rebuildPending || needsRebuild r.bridge exc) r

/-- The `except` clauses of the loop. -/
def onStepError (exc : PyExc) : Py RunState Unit := do
  if endsRun exc then
    requestShutdown
    throw exc
  else
    modify countRetry
    modify (noteError exc)
    waitBackoff

/-- The loop of `run`, for at most as many iterations as the first parameter says. -/
def runLoop (fuel : ℕ) : ℕ → Py RunState Unit
  | 0 => Proc.hang
  | n + 1 => do
    let shutdown : Bool ← native (.host .shutdownIsSet)
    if shutdown then return
    else
      match ← (lockedStep fuel).attempt with
      | .ok none => return
      | .ok (some (published, records)) =>
        -- nothing in here raises what the handlers would catch
        afterStep published records
        runLoop fuel n
      | .error exc =>
        onStepError exc
        runLoop fuel n

def runState (b : Bridge) : RunState := ⟨b, b.config.backoffBaseSeconds, false⟩

def requireStarted : Py Bridge Unit := do
  let b ← get
  raiseIf (b.listener.isNone || b.producer.isNone || b.pipeline.isNone ||
    b.countingListener.isNone) (.runtimeError "Bridge must be started before calling run()")

def run (fuel iterations : ℕ) : Py Bridge Unit := do
  requireStarted
  Proc.zoom runState (fun _ r => r.bridge) (runLoop fuel iterations)

/-! ## Stopping -/

/-- The loop of `_finish_outstanding_commit`, which the deadline bounds. -/
def finishCommitLoop (fuel : ℕ) (deadline : ℚ) : ℕ → Py Bridge Unit
  | 0 => Proc.hang
  | n + 1 => do
    if (← get).pipeline.any (·.commitOutstanding) then
      let now : ℚ ← native (.host .monotonic)
      if now < deadline then
        match ← (step fuel).attempt with
        | .ok _ => finishCommitLoop fuel deadline n
        | .error _ => return
      else return
    else return

/-- Retry an outstanding transactional commit before the producer closes. -/
def finishOutstandingCommit (fuel iterations : ℕ) (timeout : ℚ) : Py Bridge Unit := do
  Proc.when (← get).pipeline.isSome do
    let now : ℚ ← native (.host .monotonic)
    finishCommitLoop fuel (now + timeout) iterations

/-- Runs the close of an object that the bridge has let go. -/
def closeObject {σ : Type} (object : σ) (p : Py σ Unit) : Py Bridge Unit :=
  Proc.zoom (fun _ => object) (fun b _ => b) p

/-- The closes of `stop`, of the objects that are there. -/
def closes (b : Bridge) : List (Py Bridge Unit) :=
  (b.producer.map fun producer =>
      closeObject producer (MutationProducer.close b.config.shutdownTimeoutSeconds)).toList ++
    (b.listener.map fun listener =>
      closeObject (ListenerState.mk listener (b.client.getD ⟨false⟩) none)
        FDBMutationListener.close).toList ++
    (b.client.map fun client =>
      closeObject (ClientState.mk client none) FDBClient.close).toList

def unsetHandles (b : Bridge) : Bridge :=
  { b with producer := none, listener := none, client := none, pipeline := none,
           countingListener := none }

/-- Every handle is unset and every close attempted; the first error is raised. -/
def closeHandles : Py Bridge Unit := do
  let b ← get
  modify unsetHandles
  Proc.runAll (closes b) none

/-- What `stop` does under the step lock. -/
def stopLocked (fuel iterations : ℕ) : Py Bridge Unit := do
  finishOutstandingCommit fuel iterations (← get).config.shutdownTimeoutSeconds
  closeHandles

/-- `stop`, for a caller that obtains the step lock. -/
def stop (fuel iterations : ℕ) : Py Bridge Unit := do
  requestShutdown
  stopLocked fuel iterations

/-- What `stop` does when it did not obtain the lock in time: a blocked `consume` raises once its
consumer is closed. -/
def unblockStep : Py Bridge Unit := do
  let b ← get
  match b.listener with
  | some listener =>
    let _ ← (onListener listener (b.client.getD ⟨false⟩) FDBMutationListener.close).attempt
  | none => return

end Bridge

end FdbKafkaBridge
