import FdbKafkaBridge.Bridge.Pipeline

/-!
# The delivery protocol

The order of native calls that the bridge keeps to, as an automaton over them. A reply goes through
the stages from `received` to `saved`, or is abandoned; the native producer is followed through its
transactions. `Protocol.next` refuses the calls that would lose, repeat or reorder a record, or that
would acknowledge too early.
-/

namespace FdbKafkaBridge

open Protobuf (Bytes)
open Serialization (FDBMutationRecord)
open Interaction

/-- What the calls are checked against. A `bound` protocol is that of a pipeline alone, which never
replaces its listener and producer. -/
structure Contract where
  streamName : PyStr
  maxRecordBytes : ℤ
  checkpoint : Checkpoint
  bound : Bool
  deriving DecidableEq, Repr

namespace Contract

/-- The records that a poll makes of a reply, unless it raises. -/
def render (P : Contract) (reply : CdcReply) (timestampNs : ℕ) : Option (List FDBMutationRecord) :=
  (recordsOfReply P.streamName P.maxRecordBytes (.int timestampNs) reply).toOption

def cursorPath (P : Contract) : Option String :=
  match P.checkpoint with
  | .callback => none
  | .cursorFile path _ => path

/-- The text that the cursor file is given for a position. -/
def textOf (P : Contract) (cursor : PyCursor) : Option JsonText :=
  match P.checkpoint with
  | .callback => none
  | .cursorFile _ streamName => (cursorText cursor (some streamName)).toOption

/-- The cursor that a cursor file of this content is read as. -/
def cursorOf (P : Contract) (text : JsonText) : Option PyCursor :=
  match P.checkpoint with
  | .callback => none
  | .cursorFile path streamName =>
    (cursorOfText (path.getD "") (some streamName) text).toOption

/-- The cursor that is read back once a position was saved. -/
def readBack (P : Contract) (cursor : PyCursor) : Option PyCursor :=
  (P.textOf cursor).bind P.cursorOf

end Contract

/-- What the calls show of the native producer. -/
structure Sink where
  handle : Handle
  transactional : Bool
  /-- A delivery error was reported. -/
  errored : Bool
  fatal : Bool
  txnOpen : Bool
  /-- The latest commit of the open transaction failed with a retriable error. -/
  commitPending : Bool
  /-- Records were enqueued outside a transaction that no flush has covered. -/
  dirty : Bool
  deriving DecidableEq, Repr

namespace Sink

def fresh (handle : Handle) (transactional : Bool) : Sink :=
  ⟨handle, transactional, false, false, false, false, false⟩

def hearOne (k : Sink) : Callback → Sink
  | .error err => if err.fatal then { k with fatal := true } else k
  | .delivery (some _) => { k with errored := true }
  | .delivery none => k

def hear (callbacks : List Callback) (k : Sink) : Sink := callbacks.foldl hearOne k

/-- An exception that marks the wrapper fatal. -/
def noteFatal (exc : PyExc) (k : Sink) : Sink :=
  if isFatalKafkaError exc then { k with fatal := true } else k

def endTransaction (k : Sink) : Sink :=
  { k with txnOpen := false, commitPending := false, errored := false }

/-- Nothing is left over from an earlier batch. -/
def clean (k : Sink) : Bool := !k.dirty && !k.txnOpen

/-- An ambiguous commit holds on to the transaction. -/
def held (k : Sink) : Bool := k.commitPending && !k.fatal

end Sink

/-- A polled reply: who consumed it, and the records that were made of it. -/
structure Batch where
  consumer : Handle
  reply : CdcReply
  records : List FDBMutationRecord
  deriving DecidableEq, Repr

/-- What is handed to the producer for a batch. -/
def Batch.values (b : Batch) : List Bytes := payloads b.records

inductive Stage
  | idle
  | received (consumer : Handle) (reply : CdcReply)
  /-- `done` has been handed to the producer, `todo` not yet. -/
  | sending (batch : Batch) (done todo : List Bytes)
  | delivered (batch : Batch)
  | positioned (batch : Batch) (cursor : PyCursor)
  | saved (batch : Batch) (cursor : PyCursor)
  /-- The consumer was closed, and this is the position it had. -/
  | orphaned (batch : Batch) (cursor : PyCursor)
  | abandoned (consumer : Handle)
  deriving DecidableEq, Repr

/-- The consumer of the reply in hand. -/
def Stage.consumer : Stage → Option Handle
  | .idle => none
  | .received h _ => some h
  | .sending b _ _ => some b.consumer
  | .delivered b => some b.consumer
  | .positioned b _ => some b.consumer
  | .saved b _ => some b.consumer
  | .orphaned _ _ => none
  | .abandoned h => some h

/-- Once its consumer is closed a reply cannot be acknowledged any more, but for a consumer that
resumes from its position. -/
def Stage.close : Stage → Stage
  | .positioned b cursor => .orphaned b cursor
  | .saved b cursor => .orphaned b cursor
  | stage => stage

/-- No reply is in hand that could be acknowledged. -/
def Stage.isDetached : Stage → Bool
  | .positioned _ _ => false
  | .saved _ _ => false
  | _ => true

/-- The batch is with Kafka, and the reply is not acknowledged yet. -/
def Stage.isDelivered : Stage → Bool
  | .delivered _ => true
  | .positioned _ _ => true
  | .saved _ _ => true
  | .orphaned _ _ => true
  | _ => false

structure Protocol where
  stage : Stage
  sink : Option Sink
  /-- The consumer that was resumed and has its position yet to be restored, and that position. -/
  restoring : Option (Handle × PyCursor)
  /-- The cursor that a listener may resume from. -/
  loaded : Option PyCursor
  /-- What the temporary file holds, once it is complete. -/
  draft : Option JsonText
  stopping : Bool
  /-- A native producer call raised what it is not documented to raise. -/
  rogue : Bool
  /-- What native calls have raised. -/
  raised : List PyExc
  /-- The records of each reply that is done with: it had none, or was acknowledged. -/
  finished : List (List FDBMutationRecord)
  /-- The records of each reply that was delivered and then acknowledged by a consumer that resumed
  from its position. -/
  restored : List (List FDBMutationRecord)
  deriving DecidableEq, Repr

/-- What `produce` and `poll` are documented to raise. -/
def documented (exc : PyExc) : Bool := exc.isKafkaException || exc.isBufferError

/-- After this exception of a commit the next step tries to commit again: it is retriable, or not
one that a commit is documented to raise. -/
def staysOutstanding (exc : PyExc) : Bool :=
  isRetriableCommit exc || (!exc.isKafkaException && !exc.isRuntimeError)

/-- A shutdown is requested, or seen to have been. -/
def noticesShutdown : Event Response → Bool
  | ⟨.host .shutdownSet, _⟩ => true
  | ⟨.host .shutdownIsSet, ⟨_, .ok set, _⟩⟩ => set
  | _ => false

namespace Protocol

/-- The exception of a response, if any. -/
def raisedBy {c : Call} (r : Response c) : List PyExc :=
  match r.result with
  | .ok _ => []
  | .error exc => [exc]

def hear {c : Call} (r : Response c) (m : Protocol) : Protocol :=
  { m with sink := m.sink.map (Sink.hear r.callbacks), raised := m.raised ++ raisedBy r }

def setStage (stage : Stage) (m : Protocol) : Protocol := { m with stage := stage }

def setSink (k : Sink) (m : Protocol) : Protocol := { m with sink := some k }

def setDraft (draft : Option JsonText) (m : Protocol) : Protocol := { m with draft := draft }

def setLoaded (loaded : Option PyCursor) (m : Protocol) : Protocol := { m with loaded := loaded }

def setRestoring (restoring : Option (Handle × PyCursor)) (m : Protocol) : Protocol :=
  { m with restoring := restoring }

def addFinished (records : List FDBMutationRecord) (m : Protocol) : Protocol :=
  { m with finished := m.finished ++ [records] }

def addRestored (records : List FDBMutationRecord) (m : Protocol) : Protocol :=
  { m with restored := m.restored ++ [records] }

def noteRogue (rogue : Bool) (m : Protocol) : Protocol := { m with rogue := m.rogue || rogue }

def noteStopping (m : Protocol) : Protocol := { m with stopping := true }

/-- A batch that is being sent will not be delivered any more. -/
def abandon (m : Protocol) : Protocol :=
  match m.stage with
  | .sending b _ _ => m.setStage (.abandoned b.consumer)
  | _ => m

def withSink (m : Protocol) (h : Handle) (f : Sink → Option Protocol) : Option Protocol :=
  match m.sink with
  | some k => if k.handle = h then f k else none
  | none => none

/-! ## Calls to FoundationDB -/

/-- A consumer is only made when no reply is in hand, or a bridge has let go of the producer. -/
def replaceable (P : Contract) (m : Protocol) : Bool :=
  m.stage = .idle || (!P.bound && m.sink.isNone && m.stage.isDetached)

def createResult (m : Protocol) (result : Except PyExc Handle) : Protocol :=
  match result with
  | .ok _ => (m.setRestoring none).setStage .idle
  | .error _ => m.setRestoring none

def onCreate (P : Contract) (m : Protocol) (result : Except PyExc Handle) : Option Protocol :=
  if m.replaceable P then some (m.createResult result) else none

def onResume (P : Contract) (m : Protocol) (cursor : PyCursor) (result : Except PyExc Handle) :
    Option Protocol :=
  if m.replaceable P ∧ m.loaded = some cursor then
    some (m.setRestoring (result.toOption.map fun h => (h, cursor)))
  else none

def consumeResult (m : Protocol) (h : Handle) (result : Except PyExc CdcReply) : Protocol :=
  match result with
  | .ok reply => (m.setRestoring none).setStage (.received h reply)
  | .error _ => m.setRestoring none

def onConsume (m : Protocol) (h : Handle) (result : Except PyExc CdcReply) : Option Protocol :=
  match m.stage with
  | .idle => if m.sink.all Sink.clean then some (m.consumeResult h result) else none
  | _ => none

/-- The end of a batch, when the acknowledgement succeeds. -/
def finish (m : Protocol) (b : Batch) (result : Except PyExc Unit) : Protocol :=
  match result with
  | .ok _ => (m.addFinished b.records).setStage .idle
  | .error _ => m

/-- The records of the reply that is acknowledged when the position `cursor` is restored. -/
def restores (P : Contract) (m : Protocol) (cursor : PyCursor) : Option (List FDBMutationRecord) :=
  match m.stage with
  | .orphaned b position => if P.readBack position = some cursor then some b.records else none
  | _ => none

def restoreResult (P : Contract) (m : Protocol) (cursor : PyCursor) (result : Except PyExc Unit) :
    Protocol :=
  match result, m.restores P cursor with
  | .ok _, some records => ((m.addRestored records).setRestoring none).setStage .idle
  | .ok _, none => (m.setRestoring none).setStage .idle
  | .error _, _ => m.setRestoring none

def onRestore (P : Contract) (m : Protocol) (h : Handle) (result : Except PyExc Unit) :
    Option Protocol :=
  match m.restoring with
  | some (h', cursor) => if h' = h then some (m.restoreResult P cursor result) else none
  | none => none

def onAcknowledge (P : Contract) (m : Protocol) (h : Handle) (result : Except PyExc Unit) :
    Option Protocol :=
  match m.stage with
  | .positioned b _ =>
    if P.checkpoint ≠ .callback ∧ b.consumer = h then some (m.finish b result) else none
  | .saved b _ => if b.consumer = h then some (m.finish b result) else none
  | _ => m.onRestore P h result

def onGetPosition (m : Protocol) (h : Handle) (result : Except PyExc PyCursor) :
    Option Protocol :=
  match m.stage, result with
  | .delivered b, .ok cursor =>
    if b.consumer = h then some (m.setStage (.positioned b cursor)) else none
  | .positioned b _, .ok cursor =>
    if b.consumer = h then some (m.setStage (.positioned b cursor)) else none
  | .delivered _, .error _ => some m
  | .positioned _ _, .error _ => some m
  | _, _ => none

/-- A pipeline alone does not close the consumer of a reply in hand. -/
def onCloseConsumer (P : Contract) (m : Protocol) : Option Protocol :=
  if P.bound ∧ m.stage ≠ .idle then none
  else some ((m.setRestoring none).setStage m.stage.close)

def onFdb (P : Contract) (m : Protocol) :
    (c : FdbCall) → Except PyExc (Call.fdb c).Value → Option Protocol
  | .createCdcConsumer _, result => m.onCreate P result
  | .resumeCdcConsumer cursor, result => m.onResume P cursor result
  | .consume h, result => m.onConsume h result
  | .acknowledge h, result => m.onAcknowledge P h result
  | .getPosition h, result => m.onGetPosition h result
  | .closeConsumer _, _ => m.onCloseConsumer P
  | .openDatabase, _ => some m
  | .registerCdcStream .., _ => some m
  | .getReadVersion, _ => some m

/-! ## Calls to Kafka -/

def onNewProducer (m : Protocol) (transactional : Bool) (result : Except PyExc Handle) :
    Option Protocol :=
  match m.stage, m.sink with
  | .idle, none =>
    match result with
    | .ok h => some (m.setSink (Sink.fresh h transactional))
    | .error _ => some m
  | _, _ => none

def onInit (m : Protocol) (k : Sink) (result : Except PyExc Unit) : Option Protocol :=
  match result with
  | .ok _ => some m
  | .error exc => some (m.setSink (k.noteFatal exc))

def beginResult (m : Protocol) (k : Sink) (result : Except PyExc Unit) : Protocol :=
  match result with
  | .ok _ => m.setSink { k with txnOpen := true, commitPending := false }
  | .error exc => (m.setSink (k.noteFatal exc)).noteRogue (!exc.isKafkaException)

def onBegin (m : Protocol) (k : Sink) (result : Except PyExc Unit) : Option Protocol :=
  match m.stage with
  | .sending _ [] _ =>
    if k.transactional ∧ k.txnOpen = false then some (m.beginResult k result) else none
  | _ => none

/-- A record has been handed to the producer, or could not be. -/
def produceResult (m : Protocol) (k : Sink) (b : Batch) (done : List Bytes) (v : Bytes)
    (todo : List Bytes) (result : Except PyExc Unit) : Protocol :=
  let m := m.setSink { k with dirty := !k.transactional }
  match result with
  | .ok _ => m.setStage (.sending b (done ++ [v]) todo)
  | .error exc => (m.noteRogue (!documented exc)).setStage (.abandoned b.consumer)

def onProduce (m : Protocol) (k : Sink) (value : Bytes) (result : Except PyExc Unit) :
    Option Protocol :=
  match m.stage with
  | .sending b done (v :: todo) =>
    if value = v ∧ (k.transactional → k.txnOpen) then
      some (m.produceResult k b done v todo result)
    else none
  | _ => none

def onPoll (m : Protocol) (result : Except PyExc Unit) : Protocol :=
  match result with
  | .ok _ => m
  | .error exc => m.abandon.noteRogue (!documented exc)

/-- The flush left nothing behind. -/
def flushed (result : Except PyExc ℕ) : Bool :=
  match result with
  | .ok n => n = 0
  | .error _ => false

/-- What a failed flush is documented to raise. -/
def flushRogue (result : Except PyExc ℕ) : Bool :=
  match result with
  | .ok _ => false
  | .error exc => !BridgePipeline.isDeliveryFailure exc

/-- A flush delivers a batch only if it leaves nothing behind, no delivery error was reported, and
the producer was not fatal when it was called. -/
def flushResult (m : Protocol) (k : Sink) (fatalBefore : Bool) (b : Batch) (todo : List Bytes)
    (result : Except PyExc ℕ) : Protocol :=
  if todo = [] ∧ flushed result ∧ k.errored = false ∧ fatalBefore = false then
    (m.setSink { k with dirty := false }).setStage (.delivered b)
  else (m.setStage (.abandoned b.consumer)).noteRogue (flushRogue result)

def onFlush (P : Contract) (m : Protocol) (k : Sink) (fatalBefore : Bool)
    (result : Except PyExc ℕ) : Option Protocol :=
  match m.stage with
  | .sending b _ todo =>
    if k.transactional then some m else some (m.flushResult k fatalBefore b todo result)
  | stage => if P.bound ∧ stage.isDelivered then none else some m

/-- A batch whose commit failed is abandoned unless the commit stays outstanding. -/
def commitResult (m : Protocol) (k : Sink) (b : Batch) (result : Except PyExc Unit) : Protocol :=
  match result with
  | .ok _ => (m.setSink k.endTransaction).setStage (.delivered b)
  | .error exc =>
    let m := (m.setSink { k.noteFatal exc with commitPending := isRetriableCommit exc }).noteRogue
      (!exc.isKafkaException)
    if staysOutstanding exc then m else m.setStage (.abandoned b.consumer)

/-- No commit is tried once the producer was seen to be fatal. -/
def onCommit (m : Protocol) (k : Sink) (fatalBefore : Bool) (result : Except PyExc Unit) :
    Option Protocol :=
  match m.stage with
  | .sending b _ [] =>
    if k.txnOpen ∧ fatalBefore = false then some (m.commitResult k b result) else none
  | _ => none

def abortResult (m : Protocol) (k : Sink) (result : Except PyExc Unit) : Protocol :=
  match result with
  | .ok _ => (m.setSink k.endTransaction).abandon
  | .error _ => (m.setSink { k with fatal := true }).abandon

def onAbort (m : Protocol) (k : Sink) (result : Except PyExc Unit) : Option Protocol :=
  if k.txnOpen ∧ (k.held = false ∨ m.stopping) then some (m.abortResult k result) else none

def onDrop (m : Protocol) (k : Sink) : Option Protocol :=
  if k.held = false ∨ m.stopping then some { m.abandon with sink := none } else none

def onKafka (P : Contract) (m : Protocol) (fatalBefore : Bool) :
    (c : KafkaCall) → Except PyExc (Call.kafka c).Value → Option Protocol
  | .newProducer transactionalId, result => m.onNewProducer transactionalId.isSome result
  | .initTransactions h _, result => m.withSink h fun k => m.onInit k result
  | .beginTransaction h, result => m.withSink h fun k => m.onBegin k result
  | .commitTransaction h _, result => m.withSink h fun k => m.onCommit k fatalBefore result
  | .abortTransaction h _, result => m.withSink h fun k => m.onAbort k result
  | .produce h _ value _, result => m.withSink h fun k => m.onProduce k value result
  | .poll h, result => m.withSink h fun _ => some (m.onPoll result)
  | .flush h _, result => m.withSink h fun k => m.onFlush P k fatalBefore result
  | .purge h, _ => m.withSink h fun _ => some m.abandon
  | .queueLength h, _ => m.withSink h fun _ => some m
  | .dropProducer h, _ => m.withSink h fun k => m.onDrop k

/-! ## Files, clocks and the rest -/

/-- A file operation on the temporary file, which is of no use once one of them has failed. -/
def onTemporary (P : Contract) (m : Protocol) (path : String) (result : Except PyExc Unit) :
    Option Protocol :=
  if P.cursorPath.map tmpPath = some path then
    match result with
    | .ok _ => some m
    | .error _ => some (m.setDraft none)
  else none

def onDump (P : Contract) (m : Protocol) (path : String) (text : JsonText)
    (result : Except PyExc Unit) : Option Protocol :=
  match m.stage with
  | .positioned _ cursor =>
    if P.cursorPath.map tmpPath = some path ∧ P.textOf cursor = some text then
      match result with
      | .ok _ => some (m.setDraft (some text))
      | .error _ => some (m.setDraft none)
    else none
  | _ => none

def onFile (P : Contract) (m : Protocol) :
    (c : FileCall) → Except PyExc (Call.file c).Value → Option Protocol
  | .pathExists path, result =>
    if P.cursorPath = some path then
      match result with
      | .ok true => some m
      | _ => some (m.setLoaded none)
    else none
  | .readJson path, result =>
    if P.cursorPath = some path then
      match result with
      | .ok text => some (m.setLoaded (P.cursorOf text))
      | .error _ => some (m.setLoaded none)
    else none
  | .openWrite path, _ =>
    if P.cursorPath.map tmpPath = some path then some (m.setDraft none) else none
  | .dumpJson path text, result => m.onDump P path text result
  | .flushFile path, result => m.onTemporary P path result
  | .fsyncFile path, result => m.onTemporary P path result
  | .closeFile path, result => m.onTemporary P path result
  | .replace source target, _ =>
    if P.cursorPath = some target ∧ source = tmpPath target ∧ m.draft.isSome then
      some (m.setDraft none)
    else none
  | .openParent _, _ => some m
  | .fsyncParent _, _ => some m
  | .closeParent _, _ => some m

/-- The time of a poll is read once, right before the records are made. -/
def timeResult (m : Protocol) (h : Handle) (reply : CdcReply)
    (rendered : Option (List FDBMutationRecord)) : Protocol :=
  match rendered with
  | none => m.setStage (.abandoned h)
  | some [] => (m.addFinished []).setStage .idle
  | some records => m.setStage (.sending ⟨h, reply, records⟩ [] (payloads records))

def onTime (P : Contract) (m : Protocol) (result : Except PyExc ℕ) : Option Protocol :=
  match m.stage, result with
  | .received h reply, .ok timestampNs =>
    some (m.timeResult h reply (P.render reply timestampNs))
  | _, _ => none

def onCheckpoint (P : Contract) (m : Protocol) (cursor : PyCursor) (result : Except PyExc Unit) :
    Option Protocol :=
  match m.stage with
  | .positioned b cursor' =>
    if P.checkpoint = .callback ∧ cursor' = cursor then
      match result with
      | .ok _ => some (m.setStage (.saved b cursor))
      | .error _ => some m
    else none
  | _ => none

def onHost (P : Contract) (m : Protocol) :
    (c : HostCall) → Except PyExc (Call.host c).Value → Option Protocol
  | .timeNs, result => m.onTime P result
  | .shutdownIsSet, result =>
    match result with
    | .ok true => some m.noteStopping
    | _ => some m
  | .shutdownSet, _ => some m.noteStopping
  | .checkpoint cursor, result => m.onCheckpoint P cursor result
  | .monotonic, _ => some m
  | .sleep _, _ => some m
  | .shutdownWait _, _ => some m

/-- The callbacks run before the call returns, so what the call shows comes after them. Only whether
the producer was fatal already is asked of the state before. -/
def next (P : Contract) (m : Protocol) : Event Response → Option Protocol
  | ⟨.fdb c, r⟩ => (m.hear r).onFdb P c r.result
  | ⟨.kafka c, r⟩ => (m.hear r).onKafka P (m.sink.any Sink.fatal) c r.result
  | ⟨.file c, r⟩ => (m.hear r).onFile P c r.result
  | ⟨.host c, r⟩ => (m.hear r).onHost P c r.result

/-- The protocol as a monitor. -/
abbrev monitor (P : Contract) : Monitor Response Protocol := ⟨next P⟩

end Protocol

end FdbKafkaBridge
