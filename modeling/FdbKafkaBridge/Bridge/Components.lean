import FdbKafkaBridge.Bridge.Bridge
import FdbKafkaBridge.Interaction.Calls

/-!
# The bridge over opaque components

How `Bridge` creates, starts, replaces and closes its components, whatever these do: client,
listener, producer and pipeline are objects here, and each call on one may return or raise.
-/

namespace FdbKafkaBridge

open Protobuf (Bytes)
open Interaction

/-! ## What `from_dict` accepts -/

/-- The characters that `str.strip` removes. -/
def isSpace (c : Char) : Bool :=
  let n := c.toNat
  (9 ≤ n && n ≤ 13) || (28 ≤ n && n ≤ 32) || n == 0x85 || n == 0xa0 || n == 0x1680 ||
    (0x2000 ≤ n && n ≤ 0x200a) || n == 0x2028 || n == 0x2029 || n == 0x202f || n == 0x205f ||
    n == 0x3000

/-- Something is left of the string by `strip`. -/
def PyStr.isBlank (s : PyStr) : Bool :=
  s.all fun p =>
    match p with
    | .scalar c => isSpace c
    | .surrogate _ => false

/-- The checks of `from_dict` on the settings that the bridge reads. -/
structure BridgeConfig.Accepted (config : BridgeConfig) : Prop where
  streamName : config.streamName.isBlank = false
  keys : config.beginKey = [] ↔ config.endKey = []
  keyOrder : config.beginKey ≠ [] → config.beginKey < config.endKey
  maxRecordBytes : 1 ≤ config.maxRecordBytes
  topic : config.topic.toList.all isSpace = false
  transactionalId : ∀ id, config.transactionalId = some id → id.toList.all isSpace = false
  flushTimeoutSeconds : 0 < config.flushTimeoutSeconds
  backoffBaseSeconds : 0 < config.backoffBaseSeconds
  backoffMaxSeconds : 0 < config.backoffMaxSeconds
  shutdownTimeoutSeconds : 0 < config.shutdownTimeoutSeconds

/-- The defaults of `from_dict`, for a dictionary that has nothing but a stream name. -/
def BridgeConfig.default (streamName : PyStr) : BridgeConfig where
  streamName := streamName
  beginKey := []
  endKey := []
  maxRecordBytes := 1000000
  cursorFile := none
  topic := "fdb-cdc"
  transactionalId := none
  flushTimeoutSeconds := 10
  backoffBaseSeconds := 1 / 10
  backoffMaxSeconds := 2
  shutdownTimeoutSeconds := 15

/-- Every default passes its own check. -/
theorem BridgeConfig.accepted_default {streamName : PyStr} (h : streamName.isBlank = false) :
    (BridgeConfig.default streamName).Accepted where
  streamName := h
  keys := Iff.rfl
  keyOrder h := absurd rfl h
  maxRecordBytes := by norm_num [BridgeConfig.default]
  topic := by
    show "fdb-cdc".toList.all isSpace = false
    decide
  transactionalId _ h := nomatch h
  flushTimeoutSeconds := by norm_num [BridgeConfig.default]
  backoffBaseSeconds := by norm_num [BridgeConfig.default]
  backoffMaxSeconds := by norm_num [BridgeConfig.default]
  shutdownTimeoutSeconds := by norm_num [BridgeConfig.default]

/-! ## Components -/

abbrev Object := ℕ

/-- A `BridgePipeline` with what it is bound to. -/
structure BoundPipeline where
  listener : Object
  producer : Object
  deriving DecidableEq, Repr

inductive PartCall
  | newClient
  | openClient (client : Object)
  | closeClient (client : Object)
  | loadCursor
  | newListener (client : Object)
  | startListener (listener : Object)
  | closeListener (listener : Object)
  | newProducer
  | isTransactional (producer : Object)
  | initTransactions (producer : Object)
  | closeProducer (producer : Object) (timeout : ℚ)
  | commitOutstanding (pipeline : BoundPipeline)
  | step (pipeline : BoundPipeline)
  | monotonic
  | shutdownSet
  deriving DecidableEq, Repr

/-- What a call returns. Reading an attribute or a clock, or setting an event, cannot raise. -/
@[reducible] def PartCall.Answer : PartCall → Type
  | .newClient => Except PyExc Object
  | .newListener _ => Except PyExc Object
  | .newProducer => Except PyExc Object
  | .isTransactional _ => Bool
  | .commitOutstanding _ => Bool
  | .monotonic => ℚ
  | .shutdownSet => Unit
  | _ => Except PyExc Unit

/-- The attributes of a `Bridge` that refer to components. -/
structure Parts where
  client : Option Object
  listener : Option Object
  producer : Option Object
  pipeline : Option BoundPipeline
  countingListener : Option Object
  deriving DecidableEq, Repr

/-- A method of the bridge, as a program that calls components. -/
abbrev PartsM (α : Type) : Type := Proc PartCall.Answer PyExc Parts α

namespace Parts

/-- `__init__` with whatever components are injected. -/
def new (client listener producer : Option Object) : Parts := ⟨client, listener, producer, none, none⟩

def setClient (client : Option Object) (s : Parts) : Parts := { s with client := client }

def setListener (listener : Option Object) (s : Parts) : Parts := { s with listener := listener }

def setProducer (producer : Option Object) (s : Parts) : Parts := { s with producer := producer }

def unset : Parts := ⟨none, none, none, none, none⟩

/-- A call, with what it raises as a value. -/
def ask (c : PartCall) : PartsM c.Answer := fun s => .call c fun r => .ret (.ok r, s)

/-- A call that raises what it raises. -/
def orRaise {α : Type} (p : PartsM (Except PyExc α)) : PartsM α := do
  match ← p with
  | .ok a => return a
  | .error exc => throw exc

/-! ## Building -/

def buildClient : PartsM Unit := do
  match (← get).client with
  | some _ => return
  | none =>
    let client : Object ← orRaise (ask .newClient)
    orRaise (ask (.openClient client))
    modify (setClient (some client))

/-- `FDBMutationListener(...)` encodes the stream name. It may raise for other reasons. -/
def newListener (config : BridgeConfig) (client : Object) : PartsM Object :=
  match config.streamName.encode? with
  | none => throw (.valueError "surrogates not allowed")
  | some _ => orRaise (ask (.newListener client))

def buildListener (config : BridgeConfig) : PartsM Unit := do
  let s ← get
  match s.listener, s.client with
  | none, some client =>
    orRaise (ask .loadCursor)
    let listener ← newListener config client
    modify (setListener (some listener))
    orRaise (ask (.startListener listener))
  | _, _ => return

def buildProducer : PartsM Unit := do
  match (← get).producer with
  | some _ => pure ()
  | none =>
    let producer : Object ← orRaise (ask .newProducer)
    modify (setProducer (some producer))
  match (← get).producer with
  | some producer =>
    let transactional : Bool ← ask (.isTransactional producer)
    Proc.when transactional (orRaise (ask (.initTransactions producer)))
  | none => return

def discardListener : PartsM Unit := do
  match (← get).listener with
  | some listener =>
    let _ ← ask (.closeListener listener)
    modify (setListener none)
  | none => return

def discardProducer (config : BridgeConfig) : PartsM Unit := do
  match (← get).producer with
  | some producer =>
    let _ ← ask (.closeProducer producer config.shutdownTimeoutSeconds)
    modify (setProducer none)
  | none => return

def discardListenerAndProducer (config : BridgeConfig) : PartsM Unit := do
  modify fun s => { s with pipeline := none, countingListener := none }
  discardListener
  discardProducer config

/-- The part of `_build_pipeline` after the `try`. -/
def bindPipeline (config : BridgeConfig) : PartsM Unit := do
  modify fun s => { s with countingListener := s.listener }
  match config.streamName.encode? with
  | none => throw (.valueError "surrogates not allowed")
  | some _ =>
    Proc.when (config.flushTimeoutSeconds < 0)
      (throw (.valueError "flush_timeout_seconds must be a non-negative number"))
    Proc.when (config.flushTimeoutSeconds ≤ 0)
      (throw (.valueError "flush_timeout_seconds must be positive"))
    modify fun s =>
      match s.listener, s.producer with
      | some listener, some producer => { s with pipeline := some ⟨listener, producer⟩ }
      | _, _ => s

def buildPipeline (config : BridgeConfig) : PartsM Unit := do
  tryCatch
    (do
      buildClient
      buildListener config
      buildProducer)
    fun exc => do
      discardListenerAndProducer config
      throw exc
  bindPipeline config

def start (config : BridgeConfig) : PartsM Unit := do
  if (← get).pipeline.isSome then return
  else
    Proc.when config.streamName.isEmpty
      (throw (.valueError "Bridge requires a non-empty cdc.stream_name"))
    buildPipeline config

/-- Whether the pipeline is set and has an outstanding commit. -/
def isOutstanding : PartsM Bool := do
  match (← get).pipeline with
  | some pipeline => ask (.commitOutstanding pipeline)
  | none => return false

def rebuildPipeline (config : BridgeConfig) : PartsM Unit := do
  let outstanding ← isOutstanding
  if outstanding then return
  else
    discardListenerAndProducer config
    buildPipeline config

/-! ## Stopping -/

/-- The loop of `_finish_outstanding_commit`, which the deadline bounds. -/
def finishCommitLoop (pipeline : BoundPipeline) (deadline : ℚ) : ℕ → PartsM Unit
  | 0 => Proc.hang
  | n + 1 => do
    let outstanding : Bool ← ask (.commitOutstanding pipeline)
    if outstanding then
      let now : ℚ ← ask .monotonic
      if now < deadline then
        match ← ask (.step pipeline) with
        | .ok _ => finishCommitLoop pipeline deadline n
        | .error _ => return
      else return
    else return

def finishOutstandingCommit (iterations : ℕ) (timeout : ℚ) : PartsM Unit := do
  match (← get).pipeline with
  | some pipeline =>
    let now : ℚ ← ask .monotonic
    finishCommitLoop pipeline (now + timeout) iterations
  | none => return

/-- The closes of `stop`, for the components that are there. -/
def closes (config : BridgeConfig) (s : Parts) : List (PartsM Unit) :=
  (s.producer.map fun p => orRaise (ask (.closeProducer p config.shutdownTimeoutSeconds))).toList ++
    (s.listener.map fun l => orRaise (ask (.closeListener l))).toList ++
    (s.client.map fun c => orRaise (ask (.closeClient c))).toList

/-- `stop`, for a caller that obtains the step lock. -/
def stop (config : BridgeConfig) (iterations : ℕ) : PartsM Unit := do
  ask .shutdownSet
  finishOutstandingCommit iterations config.shutdownTimeoutSeconds
  let s ← get
  modify fun _ => unset
  Proc.runAll (closes config s) none

end Parts

/-! ## Sequences of calls -/

inductive LifecycleMethod
  | start
  | rebuild
  | stop (iterations : ℕ)

def Parts.perform (config : BridgeConfig) : LifecycleMethod → PartsM Unit
  | .start => start config
  | .rebuild => rebuildPipeline config
  | .stop iterations => stop config iterations

abbrev PartsMark := Mark PartCall.Answer LifecycleMethod PyExc Parts Unit

namespace PartsMark

/-- The listeners that exist and on which `close` has not been called. -/
def liveListenersStep (live : List Object) : PartsMark → List Object
  | .event ⟨.newListener _, .ok listener⟩ => listener :: live
  | .event ⟨.closeListener listener, _⟩ => live.filter (· ≠ listener)
  | _ => live

def liveListeners (injected : Option Object) (marks : List PartsMark) : List Object :=
  marks.foldl liveListenersStep injected.toList

/-- The producers that exist and on which `close` has not been called. -/
def liveProducersStep (live : List Object) : PartsMark → List Object
  | .event ⟨.newProducer, .ok producer⟩ => producer :: live
  | .event ⟨.closeProducer producer _, _⟩ => live.filter (· ≠ producer)
  | _ => live

def liveProducers (injected : Option Object) (marks : List PartsMark) : List Object :=
  marks.foldl liveProducersStep injected.toList

/-- The answer of the pipeline in the method that runs, if it was asked for an outstanding commit. -/
def outstandingStep (outstanding : Bool) : PartsMark → Bool
  | .start .. => false
  | .event ⟨.commitOutstanding _, answer⟩ => answer
  | _ => outstanding

def outstanding (marks : List PartsMark) : Bool := marks.foldl outstandingStep false

/-- The pipeline is there, and so are the listener and the producer that it is bound to. -/
def AllSet (s : Parts) : Prop :=
  ∃ pipeline, s.pipeline = some pipeline ∧ s.listener = some pipeline.listener ∧
    s.producer = some pipeline.producer

def AllUnset (s : Parts) : Prop := s.pipeline = none ∧ s.listener = none ∧ s.producer = none

/-- How a method may end: built, left alone or given up. -/
def Outcome (marks : List PartsMark) (s : Parts) : LifecycleMethod → Except PyExc Unit → Prop
  | .start, .ok _ => AllSet s
  | .rebuild, .ok _ =>
    AllSet s ∧ (outstanding marks = true → ∃ past, opening marks = some (past, s))
  | .stop _, _ => AllUnset s
  | _, .error _ => AllUnset s

/-- A listener or a producer is constructed only when there is no other. Between the methods, those
that are there are those that are held. -/
def LifecycleMark (listener producer : Option Object) (marks : List PartsMark) :
    PartsMark → Prop
  | .start .. => True
  | .event e =>
    match e.call with
    | .newListener _ => liveListeners listener marks = []
    | .newProducer => liveProducers producer marks = []
    | _ => True
  | .finish i r s =>
    liveListeners listener marks = s.listener.toList ∧
      liveProducers producer marks = s.producer.toList ∧ Outcome marks s i r

end PartsMark

end FdbKafkaBridge
