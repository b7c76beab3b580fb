import FdbKafkaBridge.Bridge.Components
import FdbKafkaBridge.Bridge.Proofs.StepProofs

/-!
# Building and discarding keep to the protocol

A bridge that has no pipeline has let go of its listener and of its producer. It may build new ones
whatever became of the last reply, as long as that cannot be acknowledged any more but for a consumer
that resumes from its position.
-/

namespace FdbKafkaBridge

open Protobuf (Bytes)
open Serialization (FDBMutationRecord)
open Interaction

/-- What the calls of a bridge with this configuration are checked against. -/
def BridgeConfig.contract (config : BridgeConfig) : Contract :=
  ⟨config.streamName, config.maxRecordBytes, .cursorFile config.cursorFile config.streamName, false⟩

/-- No reply was finished in between, and the bridge was not told to stop. -/
structure Steady (m m' : Protocol) : Prop where
  stopping : m'.stopping = m.stopping
  finished : m'.finished = m.finished
  rogue : m.rogue = true → m'.rogue = true

theorem Steady.refl (m : Protocol) : Steady m m := ⟨rfl, rfl, id⟩

theorem Steady.trans {m m' m'' : Protocol} (h : Steady m m') (h' : Steady m' m'') :
    Steady m m'' :=
  ⟨h'.stopping.trans h.stopping, h'.finished.trans h.finished, fun hr => h'.rogue (h.rogue hr)⟩

/-- The producer that a bridge has, if any, agrees with the protocol. -/
def HeldSim (p : Option MutationProducer) (sink : Option Sink) : Prop :=
  match p with
  | some p => ProducerSim p sink
  | none => sink = none

namespace Bridge

variable {P : Contract} {b b' : Bridge} {m m' : Protocol}

/-! ## What is there -/

/-- The bridge has let go of everything but the client. -/
structure Unbuilt (b : Bridge) (m : Protocol) : Prop where
  listener : b.listener = none
  producer : b.producer = none
  pipeline : b.pipeline = none
  sink : m.sink = none
  detached : m.stage.isDetached = true

/-- Nothing but the handles differs. -/
structure SameOwner (b b' : Bridge) : Prop where
  config : b'.config = b.config
  producerFactory : b'.producerFactory = b.producerFactory
  metrics : b'.metrics = b.metrics

theorem SameOwner.refl (b : Bridge) : SameOwner b b := ⟨rfl, rfl, rfl⟩

theorem SameOwner.trans {b'' : Bridge} (h : SameOwner b b') (h' : SameOwner b' b'') :
    SameOwner b b'' :=
  ⟨h'.config.trans h.config, h'.producerFactory.trans h.producerFactory, h'.metrics.trans h.metrics⟩

/-- A listener that was just started. -/
structure Ready (config : BridgeConfig) (l : FDBMutationListener) : Prop where
  encodes : config.streamName.encode? ≠ none
  streamName : l.streamName = config.streamName
  maxRecordBytes : l.maxRecordBytes = config.maxRecordBytes
  consumer : l.consumer.isSome = true
  isClosed : l.isClosed = false
  awaitingAck : l.awaitingAck = false
  deliveryFailed : l.deliveryFailed = false

/-- The listener and the producer can be discarded. -/
structure Discardable (b : Bridge) (m : Protocol) : Prop where
  sim : HeldSim b.producer m.sink
  unheld : Unheld m ∨ m.stopping = true
  detached : (∀ l, b.listener = some l → l.consumer = none) → m.stage.isDetached = true

theorem Unbuilt.discardable (h : Unbuilt b m) : Discardable b m := by
  refine ⟨?_, .inl ?_, fun _ => h.detached⟩
  · rw [h.producer]
    exact h.sink
  · rw [Unheld, h.sink]
    rfl

theorem Unbuilt.replaceable (h : Unbuilt b m) (hbound : P.bound = false) :
    m.replaceable P = true :=
  Protocol.replaceable_iff.2 (.inr ⟨hbound, h.sink, h.detached⟩)

/-- A call that the protocol does not follow. -/
theorem Unbuilt.hear (h : Unbuilt b m) {c : Call} (r : Response c) :
    Unbuilt (HasCallbacks.runCallbacks r.callbacks b) (m.hear r) := by
  refine ⟨h.listener, ?_, h.pipeline, ?_, h.detached⟩
  · show HasCallbacks.runCallbacks r.callbacks b.producer = none
    rw [h.producer]
    rfl
  · rw [Protocol.hear_sink, h.sink]
    rfl

theorem Unbuilt.setLoaded (h : Unbuilt b m) (loaded : Option PyCursor) :
    Unbuilt b (m.setLoaded loaded) :=
  ⟨h.listener, h.producer, h.pipeline, h.sink, h.detached⟩

/-- A listener is there, and the producer is not. -/
structure Listening (config : BridgeConfig) (b : Bridge) (l : FDBMutationListener) (m : Protocol) :
    Prop where
  listener : b.listener = some l
  ready : Ready config l
  client : b.client.isSome = true
  producer : b.producer = none
  pipeline : b.pipeline = none
  sink : m.sink = none
  stage : m.stage = .idle

/-- What is left when building has failed. -/
structure Failed (b : Bridge) (m : Protocol) : Prop where
  pipeline : b.pipeline = none
  discardable : Discardable b m

theorem Unbuilt.failed (h : Unbuilt b m) : Failed b m := ⟨h.pipeline, h.discardable⟩

/-- The listener of the configuration before it is started. -/
def newListener (config : BridgeConfig) (raw : Bytes) (cursor : Option PyCursor) :
    FDBMutationListener where
  rawStreamName := raw
  streamName := config.streamName
  keyRange :=
    if config.beginKey ≠ [] ∨ config.endKey ≠ [] then some (config.beginKey, config.endKey) else none
  initialCursor := cursor
  maxRecordBytes := config.maxRecordBytes
  resumeTimeoutSeconds := defaultResumeTimeoutSeconds
  resumePollIntervalSeconds := defaultResumePollIntervalSeconds
  consumer := none
  isClosed := false
  awaitingAck := false
  deliveryFailed := false

/-- A producer that was just made, or initialised, or could not be. -/
structure NewProducer (p : MutationProducer) (m : Protocol) : Prop where
  sim : ProducerSim p m.sink
  txnOpen : p.txnOpen = false
  unheld : Unheld m
  clean : m.sink.all Sink.clean = true

/-- A producer is there as well, and all that is missing is the pipeline. -/
structure Equipped (config : BridgeConfig) (b : Bridge) (l : FDBMutationListener)
    (p : MutationProducer) (m : Protocol) : Prop where
  listener : b.listener = some l
  ready : Ready config l
  client : b.client.isSome = true
  producer : b.producer = some p
  new : NewProducer p m
  pipeline : b.pipeline = none
  stage : m.stage = .idle

theorem Listening.failed {config : BridgeConfig} {l : FDBMutationListener}
    (h : Listening config b l m) : Failed b m := by
  refine ⟨h.pipeline, ?_, .inl ?_, fun _ => ?_⟩
  · rw [h.producer]
    exact h.sink
  · rw [Unheld, h.sink]
    rfl
  · rw [h.stage]
    rfl

theorem Equipped.failed {config : BridgeConfig} {l : FDBMutationListener} {p : MutationProducer}
    (h : Equipped config b l p m) : Failed b m := by
  refine ⟨h.pipeline, ?_, .inl h.new.unheld, fun _ => ?_⟩
  · rw [h.producer]
    exact h.new.sim
  · rw [h.stage]
    rfl

theorem HeldSim.heard {p : Option MutationProducer} {p' : Option MutationProducer}
    (h : HeldSim p m.sink) (hmeanwhile : Meanwhile p m p' m') : HeldSim p' m'.sink := by
  cases p with
  | none =>
    obtain ⟨callbacks, rfl, hsink⟩ := hmeanwhile.heard
    have hnone : m.sink = none := h
    show m'.sink = none
    rw [hsink, hnone]
    rfl
  | some p =>
    obtain ⟨p₁, rfl, -, -, hsim⟩ := hmeanwhile.some
    exact hsim h

/-- The components of a bridge and the protocol say the same. -/
structure Running (P : Contract) (b : Bridge) (s : Session) (m : Protocol) : Prop where
  session : b.session? = some s
  linked : BridgePipeline.Linked P s m
  initialized : Initialized s.producer
  counted : s.counted.isSome = true

/-- A pipeline that was just built is idle. -/
structure Built (P : Contract) (b : Bridge) (s : Session) (m : Protocol) : Prop where
  running : Running P b s m
  idle : BridgePipeline.Idle s m

/-- A bridge between two methods: it has let go of everything, or its session is linked. -/
inductive Standing (P : Contract) (b : Bridge) (m : Protocol) : Prop
  | unbuilt (h : Unbuilt b m)
  | running (s : Session) (h : Running P b s m)

/-- How building a pipeline ends. -/
def PipelineBuilt (config : BridgeConfig) (b : Bridge) (m : Protocol) (r : Except PyExc Unit)
    (b' : Bridge) (m' : Protocol) : Prop :=
  SameOwner b b' ∧ Steady m m' ∧
    match r with
    | .ok _ => ∃ s, Built config.contract b' s m'
    | .error _ => Unbuilt b' m'

end Bridge

end FdbKafkaBridge
