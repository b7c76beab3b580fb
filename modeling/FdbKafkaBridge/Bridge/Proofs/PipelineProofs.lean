import FdbKafkaBridge.Bridge.Proofs.ListenerProofs
import FdbKafkaBridge.Bridge.Proofs.ProducerProofs

/-!
# The pipeline keeps to the protocol

Between two steps the flags of the pipeline and of its listener say which stage of the protocol has
been reached. `Linked` is that correspondence. One lemma for each part of `step` says how far the part
gets when it returns, and what it leaves when it raises.
-/

namespace FdbKafkaBridge

open Protobuf (Bytes)
open Serialization (FDBMutationRecord)
open Interaction

namespace Session

variable {μ α : Type} {M : Monitor Response μ} {s : Session} {m : μ}

end Session

/-! ## The producer between batches -/

/-- No transaction is open, unless the producer is of no use any more. -/
def TxnSettled (p : MutationProducer) : Prop :=
  p.txnOpen = true → p.producer = none ∨ p.fatalFlag = true

/-- `init_transactions` was called where it has to be. -/
def Initialized (p : MutationProducer) : Prop := p.transactional = true → p.txnInitialized = true

theorem settled_of_clean {p : MutationProducer} {sink : Option Sink} (hsim : ProducerSim p sink)
    (hclean : sink.all Sink.clean = true) : p.txnOpen = true → p.producer = none := by
  intro hopen
  cases sink with
  | none => exact hsim
  | some k =>
    have hk : k.clean = true := hclean
    rw [Sink.clean, hsim.txnOpen, hopen] at hk
    simp at hk

theorem TxnSettled.runCallbacks {p : MutationProducer} (h : TxnSettled p) (callbacks : List Callback) :
    TxnSettled (HasCallbacks.runCallbacks callbacks p) := by
  obtain ⟨hsame, hopen⟩ := sameProducer_runCallbacks p callbacks
  intro ho
  rcases h (hopen.symm.trans ho) with hclosed | hfatal
  · exact .inl (hsame.producer.trans hclosed)
  · right
    rw [fatal_runCallbacks, hfatal, Bool.true_or]

theorem Initialized.same {p p' : MutationProducer} (h : Initialized p) (hsame : SameProducer p p') :
    Initialized p' := by
  intro htrans
  rw [hsame.transactional] at htrans
  exact hsame.txnInitialized.trans (h htrans)

/-! ## Sending a batch -/

/-- The batch is the one in hand, and is not delivered. -/
def Undelivered (stage : Stage) (b : Batch) : Prop :=
  (∃ done todo, stage = .sending b done todo) ∨ stage = .abandoned b.consumer

theorem Undelivered.consumer {stage : Stage} {b : Batch} (h : Undelivered stage b) :
    stage.consumer = some b.consumer := by
  rcases h with ⟨done, todo, rfl⟩ | rfl <;> rfl

theorem Undelivered.isDetached {stage : Stage} {b : Batch} (h : Undelivered stage b) :
    stage.isDetached = true := by
  rcases h with ⟨done, todo, rfl⟩ | rfl <;> rfl

theorem Undelivered.abandon {m : Protocol} {b : Batch} (h : Undelivered m.stage b) :
    Undelivered m.abandon.stage b := by
  unfold Protocol.abandon
  rcases h with ⟨done, todo, hstage⟩ | hstage
  · rw [hstage]
    exact .inr rfl
  · rw [hstage]
    exact .inr hstage

namespace BridgePipeline

open Session

variable {P : Contract} {s : Session} {m : Protocol} {b : Batch}

theorem ProducerSim.setFatal {p : MutationProducer} (hsim : ProducerSim p m.sink)
    (hunheld : Unheld m) : ProducerSim p.setFatal m.sink := by
  cases hsink : m.sink with
  | none =>
    rw [hsink] at hsim
    exact hsim
  | some k =>
    rw [hsink] at hsim
    exact ⟨hsim.handle, hsim.transactional, fun _ => rfl, fun _ => hunheld.sink hsink, hsim.txnOpen,
      hsim.dirty, hsim.errored, hsim.ready_of_open⟩

/-- Only callbacks ran in between, and the reply in hand is where it was. -/
structure Waited (s : Session) (m : Protocol) (s' : Session) (m' : Protocol) : Prop where
  same : s' = { s with producer := s'.producer }
  meanwhile : Meanwhile (some s.producer) m (some s'.producer) m'
  stage : m'.stage = m.stage

theorem Waited.refl (s : Session) (m : Protocol) : Waited s m s m :=
  ⟨rfl, Meanwhile.refl _ m, rfl⟩

theorem Waited.hear (s : Session) (m : Protocol) {c : Call} (r : Response c) :
    Waited s m (HasCallbacks.runCallbacks r.callbacks s) (m.hear r) :=
  ⟨rfl, Meanwhile.hear (some s.producer) m r, rfl⟩

theorem Waited.trans {s' s'' : Session} {m' m'' : Protocol} (h : Waited s m s' m')
    (h' : Waited s' m' s'' m'') : Waited s m s'' m'' := by
  refine ⟨?_, h.meanwhile.trans h'.meanwhile, h'.stage.trans h.stage⟩
  rw [h'.same, h.same]

theorem Waited.txnOpen {s' : Session} {m' : Protocol} (h : Waited s m s' m') :
    s'.producer.txnOpen = s.producer.txnOpen := by
  obtain ⟨p₁, hp, -, hopen, -⟩ := h.meanwhile.some
  cases hp
  exact hopen

theorem Waited.setDraft {s' : Session} {m' : Protocol} (h : Waited s m s' m')
    (draft : Option JsonText) : Waited s m s' (m'.setDraft draft) :=
  ⟨h.same, h.meanwhile.and rfl (Protocol.setDraft_beside _ draft), h.stage⟩

/-- What `saveCursorToFile` may rely on when it writes the text of the position in hand. -/
structure Writing (P : Contract) (m : Protocol) (path : String) (text : JsonText) : Prop where
  path : P.cursorPath = some path
  stage : ∃ b cursor, m.stage = .positioned b cursor ∧ P.textOf cursor = some text

theorem Writing.waited {path : String} {text : JsonText} {s' : Session} {m' : Protocol}
    (h : Writing P m path text) (hw : Waited s m s' m') : Writing P m' path text := by
  obtain ⟨b, cursor, hstage, htext⟩ := h.stage
  exact ⟨h.path, b, cursor, hw.stage.trans hstage, htext⟩

theorem Writing.tmpPath {path : String} {text : JsonText} (h : Writing P m path text) :
    P.cursorPath.map FdbKafkaBridge.tmpPath = some (FdbKafkaBridge.tmpPath path) := by
  rw [h.path]
  rfl

/-- The reply in hand is acknowledged. -/
structure Acknowledged (s : Session) (m : Protocol) (b : Batch) (s' : Session) (m' : Protocol) :
    Prop where
  same : s' =
    { s with listener := { s.listener with awaitingAck := false }, producer := s'.producer }
  meanwhile : Meanwhile (some s.producer) (m.addFinished b.records) (some s'.producer) m'
  stage : m'.stage = .idle
  isClosed : s.listener.isClosed = false

theorem Acknowledged.after {s₁ s₂ : Session} {m₁ m₂ : Protocol} (hw : Waited s m s₁ m₁)
    (h : Acknowledged s₁ m₁ b s₂ m₂) : Acknowledged s m b s₂ m₂ := by
  have hlistener : s₁.listener = s.listener := by rw [hw.same]
  refine ⟨?_, (hw.meanwhile.addFinished b.records).trans h.meanwhile, h.stage, ?_⟩
  · rw [h.same, hw.same]
  · rw [← hlistener]
    exact h.isClosed

/-- The reply in hand may be acknowledged, unless the listener is closed. -/
def Ready (P : Contract) (s : Session) (m : Protocol) (b : Batch) : Prop :=
  s.listener.isClosed = false →
    FDBMutationListener.Ackable P m.stage b ∧ s.listener.consumer = some b.consumer

theorem Ready.waited {s' : Session} {m' : Protocol} (h : Ready P s m b) (hw : Waited s m s' m') :
    Ready P s' m' b := by
  intro hopen
  rw [hw.same] at hopen
  rw [hw.stage, hw.same]
  exact h hopen

/-- How far the delivered batch has got, as the flag of the pipeline has it. -/
def Reached (P : Contract) (checkpointed : Bool) (stage : Stage) (b : Batch) : Prop :=
  if checkpointed then FDBMutationListener.Ackable P stage b
  else FDBMutationListener.Positionable stage b

/-- The delivered batch waits for its checkpoint or its acknowledgement, unless the listener is
closed. -/
def Waiting (P : Contract) (s : Session) (m : Protocol) (b : Batch) : Prop :=
  s.listener.isClosed = false →
    Reached P s.pipeline.checkpointed m.stage b ∧ s.listener.consumer = some b.consumer

/-- The delivered batch is still in hand. -/
structure StillWaiting (P : Contract) (s : Session) (m : Protocol) (b : Batch) (s' : Session)
    (m' : Protocol) : Prop where
  same : s' = { s with producer := s'.producer, pipeline :=
    { s.pipeline with checkpointed := s'.pipeline.checkpointed } }
  meanwhile : Meanwhile (some s.producer) m (some s'.producer) m'
  waiting : Waiting P s' m' b
  closed : s.listener.isClosed = true → m'.stage = m.stage

theorem StillWaiting.after {s₁ s₂ : Session} {m₁ m₂ : Protocol} (h : StillWaiting P s m b s₁ m₁)
    (hw : Waited s₁ m₁ s₂ m₂) : StillWaiting P s m b s₂ m₂ := by
  have hpipeline : s₂.pipeline = s₁.pipeline := by rw [hw.same]
  have hlistener : s₂.listener = s₁.listener := by rw [hw.same]
  refine ⟨?_, h.meanwhile.trans hw.meanwhile, fun hopen => ?_, fun hclosed => ?_⟩
  · rw [hpipeline, hw.same, h.same]
  · rw [hlistener] at hopen ⊢
    rw [hpipeline, hw.stage]
    exact h.waiting hopen
  · exact hw.stage.trans (h.closed hclosed)

end BridgePipeline

end FdbKafkaBridge
