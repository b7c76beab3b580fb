import FdbKafkaBridge.Bridge.Proofs.PipelineProofs
import FdbKafkaBridge.Bridge.Proofs.RaisedProofs

/-!
# A step of the pipeline

Between two steps the pipeline is idle, stuck with a batch that it has given up, or holds on to a
batch whose commit or acknowledgement is outstanding. Its flags and those of the listener say which,
and `Linked` ties them to the stage of the protocol. One step leads from one such state to another.
-/

namespace FdbKafkaBridge

open Protobuf (Bytes)
open Serialization (FDBMutationRecord)
open Interaction

namespace BridgePipeline

open Session

variable {P : Contract} {s s' : Session} {m m' : Protocol} {b : Batch}

/-! ## Between two steps -/

/-- No delivery is in progress. -/
def Unflagged (pipeline : BridgePipeline) : Prop :=
  pipeline.commitOutstanding = false ∧ pipeline.deliveredUnacked = false ∧
    pipeline.checkpointed = false

/-- The batch that the pipeline holds on to. -/
structure Holding (s : Session) (b : Batch) : Prop where
  awaitingAck : s.listener.awaitingAck = true
  deliveryFailed : s.listener.deliveryFailed = false
  consumer : s.listener.isClosed = false → s.listener.consumer = some b.consumer
  pendingCount : s.pipeline.pendingCount = b.records.length
  counted : ∀ records, s.counted = some records → records = b.records
  nonempty : b.records ≠ []

structure Idle (s : Session) (m : Protocol) : Prop where
  unflagged : Unflagged s.pipeline
  awaitingAck : s.listener.awaitingAck = false
  deliveryFailed : s.listener.deliveryFailed = false
  stage : m.stage = .idle
  unheld : Unheld m
  clean : m.sink.all Sink.clean = true

/-- Every further poll will fail. -/
def Stuck (s : Session) : Prop :=
  Unflagged s.pipeline ∧ (s.listener.awaitingAck = true ∨ s.listener.deliveryFailed = true)

structure Parked (s : Session) (m : Protocol) : Prop where
  stuck : Stuck s
  detached : m.stage.isDetached = true
  unheld : Unheld m
  settled : m.rogue = false → Initialized s.producer → TxnSettled s.producer

structure Outstanding (s : Session) (m : Protocol) (b : Batch) : Prop where
  commitOutstanding : s.pipeline.commitOutstanding = true
  deliveredUnacked : s.pipeline.deliveredUnacked = false
  checkpointed : s.pipeline.checkpointed = false
  stage : m.stage = .sending b b.values []
  txnOpen : s.producer.txnOpen = true
  holding : Holding s b

structure Delivered (P : Contract) (s : Session) (m : Protocol) (b : Batch) : Prop where
  commitOutstanding : s.pipeline.commitOutstanding = false
  deliveredUnacked : s.pipeline.deliveredUnacked = true
  waiting : Waiting P s m b
  detached : s.listener.isClosed = true → m.stage.isDetached = true
  unheld : Unheld m
  clean : m.sink.all Sink.clean = true
  holding : Holding s b

/-- Where a step may stop. -/
inductive Standing (P : Contract) (s : Session) (m : Protocol) : Prop
  | idle (h : Idle s m)
  | parked (h : Parked s m)
  | outstanding (b : Batch) (h : Outstanding s m b)
  | delivered (b : Batch) (h : Delivered P s m b)

/-- The producer and the listener agree with the protocol. -/
structure Simulated (P : Contract) (s : Session) (m : Protocol) : Prop where
  sim : ProducerSim s.producer m.sink
  config : FDBMutationListener.Configured P s.listener m
  checkpoint : P.checkpoint = s.pipeline.settings.checkpoint

/-- The objects of the pipeline and the protocol say the same. -/
structure Linked (P : Contract) (s : Session) (m : Protocol) : Prop extends Simulated P s m where
  standing : Standing P s m

/-! ## What a step leaves alone -/

structure Static (s s' : Session) : Prop where
  settings : s'.pipeline.settings = s.pipeline.settings
  counted : s'.counted.isSome = s.counted.isSome
  isClosed : s'.listener.isClosed = s.listener.isClosed
  transactional : s'.producer.transactional = s.producer.transactional
  txnInitialized : s'.producer.txnInitialized = s.producer.txnInitialized

theorem Static.refl (s : Session) : Static s s := ⟨rfl, rfl, rfl, rfl, rfl⟩

theorem Static.trans {s'' : Session} (h : Static s s') (h' : Static s' s'') : Static s s'' where
  settings := h'.settings.trans h.settings
  counted := h'.counted.trans h.counted
  isClosed := h'.isClosed.trans h.isClosed
  transactional := h'.transactional.trans h.transactional
  txnInitialized := h'.txnInitialized.trans h.txnInitialized

/-- The records of a reply are finished by a step that returns their number, and the pipeline is idle
again. -/
def Tallied (s' : Session) (m : Protocol) (r : Except PyExc ℕ) (m' : Protocol) : Prop :=
  match r with
  | .ok n => Idle s' m' ∧ ∃ records : List FDBMutationRecord, n = records.length ∧
      Beside (m.addFinished records) m' ∧ ∀ counted, s'.counted = some counted → counted = records
  | .error _ => Beside m m'

/-- Why the pipeline is stuck after an exception: a reply could not be serialized, or Kafka refused
the batch. -/
def Accounted (exc : PyExc) (s' : Session) (m' : Protocol) : Prop :=
  Stuck s' → s'.listener.deliveryFailed = true ∨
    (m'.rogue = false → Initialized s'.producer →
      documented exc = true ∨ s'.producer.producer = none ∨ s'.producer.fatalFlag = true)

/-- What a step has done. -/
structure Stepped (s : Session) (m : Protocol) (r : Except PyExc ℕ) (s' : Session) (m' : Protocol) :
    Prop where
  static : Static s s'
  tallied : Tallied s' m r m'
  guard : ∀ exc, r = .error exc → guardError exc → exc ∈ m'.raised
  accounted : ¬ Stuck s → ∀ exc, r = .error exc → Accounted exc s' m'

/-! ## Carrying on -/

theorem Holding.congr (h : Holding s b) (hlistener : s'.listener = s.listener)
    (hcount : s'.pipeline.pendingCount = s.pipeline.pendingCount) (hcounted : s'.counted = s.counted) :
    Holding s' b := by
  obtain ⟨h₁, h₂, h₃, h₄, h₅, h₆⟩ := h
  rw [← hlistener] at h₁ h₂ h₃
  rw [← hcounted] at h₅
  exact ⟨h₁, h₂, h₃, hcount.trans h₄, h₅, h₆⟩

theorem configured_same {l l' : FDBMutationListener} (h : FDBMutationListener.Configured P l m)
    (hname : l'.streamName = l.streamName) (hbytes : l'.maxRecordBytes = l.maxRecordBytes)
    (hcursor : l'.initialCursor = l.initialCursor) (hloaded : m'.loaded = m.loaded)
    (hnone : l'.consumer = none → l'.isClosed = false → l.consumer = none ∧ l.isClosed = false) :
    FDBMutationListener.Configured P l' m' where
  streamName := h.streamName.trans hname.symm
  maxRecordBytes := h.maxRecordBytes.trans hbytes.symm
  loaded hconsumer hopen cursor hsome := by
    obtain ⟨hconsumer, hopen⟩ := hnone hconsumer hopen
    exact hloaded.trans (h.loaded hconsumer hopen cursor (hcursor.symm.trans hsome))

theorem configured_activated {l l' : FDBMutationListener}
    (h : FDBMutationListener.Configured P l m) (hl : FDBMutationListener.Activated l l')
    (hloaded : m'.loaded = m.loaded) : FDBMutationListener.Configured P l' m' := by
  have hsame : l' = { l with consumer := l'.consumer } := hl.same
  refine configured_same h ?_ ?_ ?_ hloaded fun hnone hopen => ⟨?_, ?_⟩
  · rw [hsame]
  · rw [hsame]
  · rw [hsame]
  · by_contra hsome
    rw [hl.kept (Option.isSome_iff_ne_none.2 hsome)] at hnone
    exact hsome hnone
  · rw [hsame] at hopen
    exact hopen

/-- What was agreed on still is, when the listener is the same. -/
theorem Simulated.same (h : Simulated P s m) (hsim : ProducerSim s'.producer m'.sink)
    (hbeside : Beside m m') (hlistener : s'.listener = s.listener)
    (hsettings : s'.pipeline.settings = s.pipeline.settings) : Simulated P s' m' := by
  refine ⟨hsim, ?_, h.checkpoint.trans (congrArg PipelineSettings.checkpoint hsettings.symm)⟩
  rw [hlistener]
  exact configured_same h.config rfl rfl rfl hbeside.loaded fun hnone hopen => ⟨hnone, hopen⟩

/-! ## Finishing a delivery -/

theorem guard_of_runtime {exc : PyExc} (h : exc.isRuntimeError = true → exc ∈ m.raised)
    (hguard : guardError exc) : exc ∈ m.raised := h (decide_eq_true hguard.1)

/-- Nothing but the producer and the flags of the pipeline has changed. -/
theorem static_of {s s' : Session} (hsame : SameProducer s.producer s'.producer)
    (hsettings : s'.pipeline.settings = s.pipeline.settings)
    (hlistener : s'.listener = s.listener) (hcounted : s'.counted = s.counted) : Static s s' :=
  ⟨hsettings, congrArg Option.isSome hcounted, congrArg FDBMutationListener.isClosed hlistener,
    hsame.transactional, hsame.txnInitialized⟩

theorem Stepped.after {r : Except PyExc ℕ} {s₁ : Session} {m₁ : Protocol} (hstatic : Static s s₁)
    (hbeside : Beside m m₁) (hunstuck : ¬ Stuck s₁) (h : Stepped s₁ m₁ r s' m') :
    Stepped s m r s' m' where
  static := hstatic.trans h.static
  tallied := by
    have htallied := h.tallied
    unfold Tallied at htallied ⊢
    cases r with
    | ok n =>
      obtain ⟨hidle, records, hn, hafter, hcounted⟩ := htallied
      refine ⟨hidle, records, hn, Beside.trans ?_ hafter, hcounted⟩
      exact ⟨hbeside.loaded, hbeside.stopping, congrArg (· ++ [records]) hbeside.finished,
        hbeside.raised, hbeside.rogue⟩
    | error exc => exact hbeside.trans htallied
  guard := h.guard
  accounted _ := h.accounted hunstuck

theorem Delivered.not_stuck (h : Delivered P s m b) : ¬ Stuck s := by
  rintro ⟨⟨-, hnot, -⟩, -⟩
  rw [h.deliveredUnacked] at hnot
  cases hnot

theorem Outstanding.not_stuck (h : Outstanding s m b) : ¬ Stuck s := by
  rintro ⟨⟨hnot, -⟩, -⟩
  rw [h.commitOutstanding] at hnot
  cases hnot

/-- What a poll of an idle pipeline may find. -/
structure Polled (s : Session) (m : Protocol) (records : List FDBMutationRecord) (s' : Session)
    (m' : Protocol) : Prop where
  pipeline : s'.pipeline = s.pipeline
  counted : s'.counted = s.counted.map fun _ => records
  reply : (records = [] ∧ m'.stage = .idle ∧
      Meanwhile (some s.producer) (m.addFinished []) (some s'.producer) m' ∧
      FDBMutationListener.Activated s.listener s'.listener) ∨
    (records ≠ [] ∧ Meanwhile (some s.producer) m (some s'.producer) m' ∧ ∃ h reply,
      m'.stage = .sending ⟨h, reply, records⟩ [] (payloads records) ∧
      s'.listener =
        { s.listener with consumer := some h, awaitingAck := true, deliveryFailed := false })

/-- A poll that raised found nothing, or a reply that cannot be serialized. -/
structure NotPolled (s : Session) (m : Protocol) (s' : Session) (m' : Protocol) : Prop where
  pipeline : s'.pipeline = s.pipeline
  counted : s'.counted = s.counted
  meanwhile : Meanwhile (some s.producer) m (some s'.producer) m'
  reply : (m'.stage = .idle ∧ FDBMutationListener.Activated s.listener s'.listener) ∨
    ∃ h, m'.stage = .abandoned h ∧
      s'.listener = { s.listener with consumer := some h, deliveryFailed := true }

/-- A poll that found nothing leaves the pipeline idle. -/
theorem Idle.again (h : Simulated P s m) (hi : Idle s m) {m₁ : Protocol}
    (hpipeline : s'.pipeline = s.pipeline) (hstage : m'.stage = .idle)
    (hmeanwhile : Meanwhile (some s.producer) m₁ (some s'.producer) m')
    (hsink : m₁.sink = m.sink) (hloaded : m₁.loaded = m.loaded)
    (hl : FDBMutationListener.Activated s.listener s'.listener) :
    Simulated P s' m' ∧ Idle s' m' := by
  obtain ⟨p₁, hp, -, -, hsim⟩ := hmeanwhile.some
  cases hp
  have hlistener : s'.listener = { s.listener with consumer := s'.listener.consumer } := hl.same
  have hunheld : Unheld m₁ := by
    rw [Unheld, hsink]
    exact hi.unheld
  refine ⟨⟨hsim ?_, ?_, ?_⟩, ?_, ?_, ?_, hstage, hmeanwhile.unheld hunheld, hmeanwhile.clean ?_⟩
  · rw [hsink]
    exact h.sim
  · exact configured_activated h.config hl (hmeanwhile.beside.loaded.trans hloaded)
  · rw [hpipeline]
    exact h.checkpoint
  · rw [hpipeline]
    exact hi.unflagged
  · rw [hlistener]
    exact hi.awaitingAck
  · rw [hlistener]
    exact hi.deliveryFailed
  · rw [hsink]
    exact hi.clean

theorem static_of_meanwhile {m₁ : Protocol} (hpipeline : s'.pipeline = s.pipeline)
    (hcounted : s'.counted.isSome = s.counted.isSome)
    (hclosed : s'.listener.isClosed = s.listener.isClosed)
    (hmeanwhile : Meanwhile (some s.producer) m₁ (some s'.producer) m') : Static s s' := by
  obtain ⟨p₁, hp, hsame, -⟩ := hmeanwhile.some
  cases hp
  exact ⟨by rw [hpipeline], hcounted, hclosed, hsame.transactional, hsame.txnInitialized⟩

theorem Idle.not_stuck (h : Idle s m) : ¬ Stuck s := by
  rintro ⟨-, hnot | hnot⟩
  · rw [h.awaitingAck] at hnot
    cases hnot
  · rw [h.deliveryFailed] at hnot
    cases hnot

theorem NotPolled.stepped (h : Simulated P s m) (hi : Idle s m) (hn : NotPolled s m s' m')
    {exc : PyExc} (hruntime : exc.isRuntimeError = true → exc ∈ m'.raised) :
    Linked P s' m' ∧ Stepped s m (.error exc) s' m' := by
  have hguard : ∀ e : PyExc, (.error exc : Except PyExc ℕ) = .error e → guardError e →
      e ∈ m'.raised := by
    rintro _ ⟨⟩
    exact guard_of_runtime hruntime
  rcases hn.reply with ⟨hstage, hl⟩ | ⟨handle, hstage, hl⟩
  · have hlistener : s'.listener = { s.listener with consumer := s'.listener.consumer } := hl.same
    have hstatic := static_of_meanwhile hn.pipeline (by rw [hn.counted]) (by rw [hlistener])
      hn.meanwhile
    obtain ⟨hsimulated, hidle⟩ := hi.again h hn.pipeline hstage hn.meanwhile rfl rfl hl
    refine ⟨⟨hsimulated, .idle hidle⟩, hstatic, hn.meanwhile.beside, hguard, ?_⟩
    rintro - _ - ⟨-, hstuck⟩
    rw [hlistener] at hstuck
    exact absurd ⟨hi.unflagged, hstuck⟩ hi.not_stuck
  · obtain ⟨p₁, hp, -, -, hsim⟩ := hn.meanwhile.some
    cases hp
    have hstatic := static_of_meanwhile hn.pipeline (by rw [hn.counted]) (by rw [hl]) hn.meanwhile
    have hfailed : s'.listener.deliveryFailed = true := by rw [hl]
    refine ⟨⟨⟨hsim h.sim, ?_, ?_⟩, .parked ⟨⟨?_, .inr hfailed⟩, ?_, hn.meanwhile.unheld hi.unheld,
      fun _ _ => ?_⟩⟩, hstatic, hn.meanwhile.beside, hguard, fun _ _ _ _ => .inl hfailed⟩
    · refine configured_same h.config ?_ ?_ ?_ hn.meanwhile.beside.loaded ?_
      · rw [hl]
      · rw [hl]
      · rw [hl]
      · rw [hl]
        exact fun hnone => absurd hnone (by simp)
    · rw [hn.pipeline]
      exact h.checkpoint
    · rw [hn.pipeline]
      exact hi.unflagged
    · rw [hstage]
      rfl
    · exact fun ho => .inl (settled_of_clean (hsim h.sim) (hn.meanwhile.clean hi.clean) ho)

/-- The records of a reply are about to be published. -/
structure Fresh (P : Contract) (s : Session) (m : Protocol) (b : Batch) : Prop where
  simulated : Simulated P s m
  unflagged : Unflagged s.pipeline
  stage : m.stage = .sending b [] (payloads b.records)
  awaitingAck : s.listener.awaitingAck = true
  deliveryFailed : s.listener.deliveryFailed = false
  consumer : s.listener.consumer = some b.consumer
  counted : ∀ records, s.counted = some records → records = b.records
  nonempty : b.records ≠ []
  unheld : Unheld m
  clean : m.sink.all Sink.clean = true

theorem Polled.fresh {records : List FDBMutationRecord} (h : Simulated P s m) (hi : Idle s m)
    (hp : Polled s m records s' m') (hne : records ≠ []) :
    ∃ b : Batch, b.records = records ∧ Fresh P s' m' b ∧ Static s s' ∧ Beside m m' := by
  rcases hp.reply with ⟨hnil, -⟩ | ⟨-, hmeanwhile, handle, reply, hstage, hl⟩
  · exact absurd hnil hne
  · have hclosed : s'.listener.isClosed = s.listener.isClosed := by rw [hl]
    have hstatic := static_of_meanwhile hp.pipeline (by rw [hp.counted, Option.isSome_map]) hclosed
      hmeanwhile
    obtain ⟨p₁, hsome, -, -, hsim⟩ := hmeanwhile.some
    cases hsome
    refine ⟨⟨handle, reply, records⟩, rfl, ⟨⟨hsim h.sim, ?_, ?_⟩, ?_, hstage, ?_, ?_, ?_, ?_, hne,
      hmeanwhile.unheld hi.unheld, hmeanwhile.clean hi.clean⟩, hstatic, hmeanwhile.beside⟩
    · refine configured_same h.config ?_ ?_ ?_ hmeanwhile.beside.loaded ?_
      · rw [hl]
      · rw [hl]
      · rw [hl]
      · rw [hl]
        exact fun hnone => absurd hnone (by simp)
    · rw [hp.pipeline]
      exact h.checkpoint
    · rw [hp.pipeline]
      exact hi.unflagged
    · rw [hl]
    · rw [hl]
    · rw [hl]
    · intro counted hcounted
      rw [hp.counted] at hcounted
      obtain ⟨-, -, rfl⟩ := Option.map_eq_some_iff.1 hcounted
      rfl

/-- The batch is with Kafka, as far as a step takes it. -/
theorem Fresh.published (h : Fresh P s m b) (hfollows : Follows s.producer m s'.producer m')
    (hunheld : Unheld m') (hpublished :
      (s' = setCommitOutstanding true { s with producer := s'.producer } ∧
          m'.stage = .sending b (payloads b.records) [] ∧ s'.producer.txnOpen = true) ∨
        (s' = setDeliveredUnacked true { s with producer := s'.producer } ∧
          m'.stage = .delivered b ∧ m'.sink.all Sink.clean = true)) :
    Simulated P (setPendingCount b.records.length s') m' ∧
      Static s (setPendingCount b.records.length s') ∧
      (Outstanding (setPendingCount b.records.length s') m' b ∨
        Delivered P (setPendingCount b.records.length s') m' b) := by
  have hlistener : s'.listener = s.listener := by
    rcases hpublished with ⟨hs', -⟩ | ⟨hs', -⟩
    · rw [hs']
      rfl
    · rw [hs']
      rfl
  have hcounted : s'.counted = s.counted := by
    rcases hpublished with ⟨hs', -⟩ | ⟨hs', -⟩
    · rw [hs']
      rfl
    · rw [hs']
      rfl
  have hsettings : s'.pipeline.settings = s.pipeline.settings := by
    rcases hpublished with ⟨hs', -⟩ | ⟨hs', -⟩
    · rw [hs']
      rfl
    · rw [hs']
      rfl
  have hholding : Holding (setPendingCount b.records.length s') b := by
    refine ⟨?_, ?_, fun _ => ?_, rfl, ?_, h.nonempty⟩
    · show s'.listener.awaitingAck = true
      rw [hlistener]
      exact h.awaitingAck
    · show s'.listener.deliveryFailed = false
      rw [hlistener]
      exact h.deliveryFailed
    · show s'.listener.consumer = _
      rw [hlistener]
      exact h.consumer
    · show ∀ records, s'.counted = some records → _
      rw [hcounted]
      exact h.counted
  refine ⟨h.simulated.same hfollows.sim hfollows.beside hlistener hsettings,
    static_of hfollows.same hsettings hlistener hcounted, ?_⟩
  obtain ⟨hcommit, hunacked, hcheckpointed⟩ := h.unflagged
  rcases hpublished with ⟨hs', hstage, hopen⟩ | ⟨hs', hstage, hclean⟩
  · left
    refine ⟨?_, ?_, ?_, hstage, hopen, hholding⟩
    · show s'.pipeline.commitOutstanding = true
      rw [hs']
      rfl
    · show s'.pipeline.deliveredUnacked = false
      rw [hs']
      exact hunacked
    · show s'.pipeline.checkpointed = false
      rw [hs']
      exact hcheckpointed
  · right
    have hfresh : s'.pipeline.checkpointed = false := by
      rw [hs']
      exact hcheckpointed
    refine ⟨?_, ?_, fun hopen => ⟨?_, hholding.consumer hopen⟩, fun _ => ?_, hunheld, hclean, hholding⟩
    · show s'.pipeline.commitOutstanding = false
      rw [hs']
      exact hcommit
    · show s'.pipeline.deliveredUnacked = true
      rw [hs']
      rfl
    · show Reached P s'.pipeline.checkpointed m'.stage b
      rw [hfresh, hstage]
      exact .inl rfl
    · rw [hstage]
      rfl

end BridgePipeline

end FdbKafkaBridge
