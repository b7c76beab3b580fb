import FdbKafkaBridge.Bridge.Proofs.BuildProofs
import FdbKafkaBridge.Bridge.Proofs.StopProofs

/-!
# A bridge keeps to the protocol

Between two methods a bridge has let go of everything, or its session is linked to the protocol.
Starting, rebuilding, stepping and stopping keep it so, whatever the native calls return or raise.
-/

namespace FdbKafkaBridge

open Serialization (FDBMutationRecord)
open Interaction

namespace Bridge

variable {P : Contract} {config : BridgeConfig} {b b' : Bridge} {s : Session} {m m' : Protocol}

/-! ## The session -/

/-- What a session consists of. -/
structure HasSession (b : Bridge) (s : Session) : Prop where
  listener : b.listener = some s.listener
  client : b.client = some s.client
  producer : b.producer = some s.producer
  pipeline : b.pipeline = some s.pipeline
  counted : b.countingListener = s.counted

theorem session?_eq_some : b.session? = some s ↔ HasSession b s := by
  unfold session?
  constructor
  · intro h
    split at h
    · rename_i hlistener hclient hproducer hpipeline
      cases h
      exact ⟨hlistener, hclient, hproducer, hpipeline, rfl⟩
    · cases h
  · rintro ⟨hlistener, hclient, hproducer, hpipeline, hcounted⟩
    rw [hlistener, hclient, hproducer, hpipeline, hcounted]

/-- The consumer of a reply in hand is there as long as the listener is open. -/
theorem detached_of_linked (h : BridgePipeline.Linked P s m) (hnone : s.listener.consumer = none) :
    m.stage.isDetached = true := by
  have hclosed : ∀ {batch : Batch}, BridgePipeline.Holding s batch → s.listener.isClosed = true := by
    intro batch hholding
    by_contra hopen
    have hconsumer := hholding.consumer (Bool.eq_false_iff.2 hopen)
    rw [hnone] at hconsumer
    cases hconsumer
  cases h.standing with
  | idle hidle =>
    rw [hidle.stage]
    rfl
  | parked hparked => exact hparked.detached
  | outstanding batch hout =>
    rw [hout.stage]
    rfl
  | delivered batch hdelivered => exact hdelivered.detached (hclosed hdelivered.holding)

theorem unheld_of_linked (h : BridgePipeline.Linked P s m)
    (hnone : s.pipeline.commitOutstanding = false) : Unheld m := by
  cases h.standing with
  | idle hidle => exact hidle.unheld
  | parked hparked => exact hparked.unheld
  | outstanding batch hout =>
    rw [hout.commitOutstanding] at hnone
    cases hnone
  | delivered batch hdelivered => exact hdelivered.unheld

theorem Running.discardable (h : Running P b s m)
    (hunheld : s.pipeline.commitOutstanding = false ∨ m.stopping = true) : Discardable b m := by
  have hsession := session?_eq_some.1 h.session
  refine ⟨?_, hunheld.imp (unheld_of_linked h.linked) id, fun hall => ?_⟩
  · rw [hsession.producer]
    exact h.linked.sim
  · exact detached_of_linked h.linked (hall _ hsession.listener)

/-! ## Starting and rebuilding -/

/-- A bridge without an outstanding commit can be discarded. -/
theorem Standing.discardable (h : Standing P b m)
    (hnone : b.pipeline.any (·.commitOutstanding) = false) : Discardable b m := by
  cases h with
  | unbuilt hunbuilt => exact hunbuilt.discardable
  | running s hrunning =>
    rw [(session?_eq_some.1 hrunning.session).pipeline] at hnone
    exact hrunning.discardable (.inl hnone)

end Bridge

/-! ## Looking at the clock and at the shutdown event -/

/-- The protocol has only heard callbacks, and perhaps of a shutdown. -/
structure Overheard (m : Protocol) (callbacks : List Callback) (m' : Protocol) : Prop where
  stage : m'.stage = m.stage
  sink : m'.sink = m.sink.map (Sink.hear callbacks)
  loaded : m'.loaded = m.loaded
  finished : m'.finished = m.finished
  rogue : m'.rogue = m.rogue
  stopping : m.stopping = true → m'.stopping = true

theorem Overheard.noteStopping {callbacks : List Callback} {m m' : Protocol}
    (h : Overheard m callbacks m') : Overheard m callbacks m'.noteStopping :=
  ⟨h.stage, h.sink, h.loaded, h.finished, h.rogue, fun _ => rfl⟩

section Looking

variable {σ : Type} [HasCallbacks σ] {P : Contract} {s : σ} {m : Protocol}

end Looking

namespace BridgePipeline

variable {P : Contract} {s : Session} {m m' : Protocol} {callbacks : List Callback}

/-- Callbacks between two steps leave the session linked. -/
theorem Linked.overheard (h : Linked P s m) (ho : Overheard m callbacks m') :
    Linked P { s with producer := HasCallbacks.runCallbacks callbacks s.producer } m' := by
  obtain ⟨hsame, hopen⟩ := sameProducer_runCallbacks s.producer callbacks
  have hsim := h.sim.runCallbacks callbacks
  rw [← ho.sink] at hsim
  have hunheld : Unheld m → Unheld m' := by
    intro hu
    rw [Unheld, ho.sink]
    cases hsink : m.sink with
    | none => rfl
    | some k => exact Sink.held_hear (hu.sink hsink) callbacks
  have hclean : m.sink.all Sink.clean = true → m'.sink.all Sink.clean = true := by
    intro hc
    rw [ho.sink]
    cases hsink : m.sink with
    | none => rfl
    | some k =>
      rw [hsink] at hc
      show Sink.clean (k.hear callbacks) = true
      rw [Sink.clean, (k.hear_kept callbacks).2.1, (k.hear_static callbacks).2.2]
      exact hc
  refine ⟨⟨hsim, configured_same h.config rfl rfl rfl ho.loaded fun hnone hnot => ⟨hnone, hnot⟩,
    h.checkpoint⟩, ?_⟩
  cases h.standing with
  | idle hidle =>
    exact .idle ⟨hidle.unflagged, hidle.awaitingAck, hidle.deliveryFailed, ho.stage.trans hidle.stage,
      hunheld hidle.unheld, hclean hidle.clean⟩
  | parked hparked =>
    refine .parked ⟨hparked.stuck, ?_, hunheld hparked.unheld, fun hrogue hinit => ?_⟩
    · rw [ho.stage]
      exact hparked.detached
    · refine (hparked.settled (ho.rogue.symm.trans hrogue) fun htrans => ?_).runCallbacks callbacks
      exact hsame.txnInitialized.symm.trans (hinit (hsame.transactional.trans htrans))
  | outstanding b hout =>
    exact .outstanding b ⟨hout.commitOutstanding, hout.deliveredUnacked, hout.checkpointed,
      ho.stage.trans hout.stage, hopen.trans hout.txnOpen, hout.holding.congr rfl rfl rfl⟩
  | delivered b hdelivered =>
    refine .delivered b ⟨hdelivered.commitOutstanding, hdelivered.deliveredUnacked, fun hnot => ?_,
      fun hclosed => ?_, hunheld hdelivered.unheld, hclean hdelivered.clean,
      hdelivered.holding.congr rfl rfl rfl⟩
    · obtain ⟨hreached, hconsumer⟩ := hdelivered.waiting hnot
      refine ⟨?_, hconsumer⟩
      rw [ho.stage]
      exact hreached
    · rw [ho.stage]
      exact hdelivered.detached hclosed

/-- Once the listener is closed, no reply is in hand that could be acknowledged. -/
theorem Linked.closed {p : MutationProducer} (client : FDBClient) (h : Linked P s m)
    (hmeanwhile : Meanwhile (some s.producer) m (some p) m') (hdetached : m'.stage.isDetached = true)
    (hstage : m'.stage = m.stage ∨ m'.stage = m.stage.close) :
    Linked P { s with listener := { s.listener with isClosed := true, consumer := none }, client := client,
                      producer := p } m' := by
  obtain ⟨p₁, hp, hsame, hopen, hsim⟩ := hmeanwhile.some
  cases hp
  have hkept : m.stage.close = m.stage → m'.stage = m.stage := fun hclose =>
    hstage.elim id fun heq => heq.trans hclose
  refine ⟨⟨hsim h.sim, configured_same h.config rfl rfl rfl hmeanwhile.beside.loaded
    fun _ hnot => (by cases hnot), h.checkpoint⟩, ?_⟩
  cases h.standing with
  | idle hidle =>
    refine .idle ⟨hidle.unflagged, hidle.awaitingAck, hidle.deliveryFailed, ?_,
      hmeanwhile.unheld hidle.unheld, hmeanwhile.clean hidle.clean⟩
    rw [hkept (by rw [hidle.stage]; rfl), hidle.stage]
  | parked hparked =>
    refine .parked ⟨hparked.stuck, hdetached, hmeanwhile.unheld hparked.unheld, fun hrogue hinit => ?_⟩
    have hinit₀ : Initialized s.producer := fun htrans =>
      hsame.txnInitialized.symm.trans (hinit (hsame.transactional.trans htrans))
    have hrogue₀ : m.rogue = false := by
      by_contra hnot
      rw [hmeanwhile.beside.rogue (Bool.not_eq_false _ ▸ hnot)] at hrogue
      cases hrogue
    obtain ⟨callbacks, hcallbacks, -⟩ := hmeanwhile.heard
    rw [Option.some.inj hcallbacks]
    exact (hparked.settled hrogue₀ hinit₀).runCallbacks callbacks
  | outstanding b hout =>
    obtain ⟨hawait, hfailed, -, hcount, hcounted, hnonempty⟩ := hout.holding
    refine .outstanding b ⟨hout.commitOutstanding, hout.deliveredUnacked, hout.checkpointed, ?_,
      hopen.trans hout.txnOpen, ⟨hawait, hfailed, fun hnot => (by cases hnot), hcount, hcounted, hnonempty⟩⟩
    rw [hkept (by rw [hout.stage]; rfl), hout.stage]
  | delivered b hdelivered =>
    obtain ⟨hawait, hfailed, -, hcount, hcounted, hnonempty⟩ := hdelivered.holding
    exact .delivered b ⟨hdelivered.commitOutstanding, hdelivered.deliveredUnacked,
      fun hnot => (by cases hnot), fun _ => hdetached, hmeanwhile.unheld hdelivered.unheld,
      hmeanwhile.clean hdelivered.clean,
      ⟨hawait, hfailed, fun hnot => (by cases hnot), hcount, hcounted, hnonempty⟩⟩

end BridgePipeline

namespace Bridge

variable {P : Contract} {config : BridgeConfig} {b b' : Bridge} {s : Session} {m m' : Protocol}
  {callbacks : List Callback}

theorem Running.overheard (h : Running P b s m) (ho : Overheard m callbacks m') :
    Running P (HasCallbacks.runCallbacks callbacks b)
      { s with producer := HasCallbacks.runCallbacks callbacks s.producer } m' := by
  obtain ⟨hlistener, hclient, hproducer, hpipeline, hcounted⟩ := session?_eq_some.1 h.session
  have hheard : (HasCallbacks.runCallbacks callbacks b).producer =
      some (HasCallbacks.runCallbacks callbacks s.producer) := by
    show HasCallbacks.runCallbacks callbacks b.producer = _
    rw [hproducer]
    rfl
  exact ⟨session?_eq_some.2 ⟨hlistener, hclient, hheard, hpipeline, hcounted⟩, h.linked.overheard ho,
    h.initialized.same (sameProducer_runCallbacks _ _).1, h.counted⟩

theorem Unbuilt.overheard (h : Unbuilt b m) (ho : Overheard m callbacks m') :
    Unbuilt (HasCallbacks.runCallbacks callbacks b) m' := by
  refine ⟨h.listener, ?_, h.pipeline, ?_, ?_⟩
  · show HasCallbacks.runCallbacks callbacks b.producer = none
    rw [h.producer]
    rfl
  · rw [ho.sink, h.sink]
    rfl
  · rw [ho.stage]
    exact h.detached

theorem Standing.overheard (h : Standing P b m) (ho : Overheard m callbacks m') :
    Standing P (HasCallbacks.runCallbacks callbacks b) m' := by
  cases h with
  | unbuilt hunbuilt => exact .unbuilt (hunbuilt.overheard ho)
  | running s hrunning => exact .running _ (hrunning.overheard ho)

/-- Only the handles matter. -/
theorem Standing.congr (h : Standing P b m) (hlistener : b'.listener = b.listener)
    (hclient : b'.client = b.client) (hproducer : b'.producer = b.producer)
    (hpipeline : b'.pipeline = b.pipeline) (hcounted : b'.countingListener = b.countingListener) :
    Standing P b' m := by
  cases h with
  | unbuilt h =>
    exact .unbuilt ⟨hlistener.trans h.listener, hproducer.trans h.producer,
      hpipeline.trans h.pipeline, h.sink, h.detached⟩
  | running s h =>
    obtain ⟨h₁, h₂, h₃, h₄, h₅⟩ := session?_eq_some.1 h.session
    exact .running s ⟨session?_eq_some.2 ⟨hlistener.trans h₁, hclient.trans h₂, hproducer.trans h₃,
      hpipeline.trans h₄, hcounted.trans h₅⟩, h.linked, h.initialized, h.counted⟩

/-! ## Flags -/

/-- Where no delivery is in progress, the listener can poll. -/
def Unstuck (b : Bridge) : Prop :=
  ∀ pipeline listener, b.pipeline = some pipeline → b.listener = some listener →
    BridgePipeline.Unflagged pipeline → listener.awaitingAck = false ∧ listener.deliveryFailed = false

theorem unstuck_of_unbuilt (h : b.pipeline = none) : b.Unstuck := by
  intro pipeline listener hpipeline
  rw [h] at hpipeline
  cases hpipeline

theorem unstuck_iff {s : Session} (h : b.session? = some s) :
    b.Unstuck ↔ ¬ BridgePipeline.Stuck s := by
  obtain ⟨hlistener, -, -, hpipeline, -⟩ := session?_eq_some.1 h
  constructor
  · rintro hunstuck ⟨hunflagged, hstuck⟩
    obtain ⟨hawaiting, hfailed⟩ := hunstuck _ _ hpipeline hlistener hunflagged
    rw [hawaiting, hfailed] at hstuck
    exact hstuck.elim Bool.false_ne_true Bool.false_ne_true
  · intro hnot pipeline listener hp hl hunflagged
    rw [hpipeline] at hp
    rw [hlistener] at hl
    cases hp
    cases hl
    by_contra hstuck
    rw [not_and_or, Bool.not_eq_false, Bool.not_eq_false] at hstuck
    exact hnot ⟨hunflagged, hstuck⟩

/-- The flags of a listener that say whether it can poll. -/
def pollFlags (listener : FDBMutationListener) : Bool × Bool :=
  (listener.awaitingAck, listener.deliveryFailed)

/-- The flags that tell whether the pipeline is stuck. -/
structure SameFlags (b b' : Bridge) : Prop where
  pipeline : b'.pipeline = b.pipeline
  listener : b'.listener.map pollFlags = b.listener.map pollFlags
  producer : ∃ callbacks : List Callback, b'.producer = HasCallbacks.runCallbacks callbacks b.producer

theorem sameFlags_runCallbacks (b : Bridge) (callbacks : List Callback) :
    SameFlags b (HasCallbacks.runCallbacks callbacks b) := ⟨rfl, rfl, callbacks, rfl⟩

theorem SameFlags.unstuck (h : SameFlags b b') (hu : b.Unstuck) : b'.Unstuck := by
  intro pipeline listener hpipeline hlistener hunflagged
  have hflags := h.listener
  rw [hlistener, Option.map_some] at hflags
  obtain ⟨listener₀, hlistener₀, hsame⟩ := Option.map_eq_some_iff.1 hflags.symm
  obtain ⟨hawaiting, hfailed⟩ := Prod.mk.inj hsame
  rw [← hawaiting, ← hfailed]
  exact hu pipeline listener₀ (h.pipeline.symm.trans hpipeline) hlistener₀ hunflagged

theorem needsRebuild_iff {p : MutationProducer} {l : FDBMutationListener} {pipeline : BridgePipeline}
    {exc : PyExc} (hp : b.producer = some p) (hl : b.listener = some l)
    (hpipeline : b.pipeline = some pipeline) :
    b.needsRebuild exc = true ↔ p.closed = true ∨ p.fatal = true ∨ l.deliveryFailed = true ∨
      (l.awaitingAck = true ∧ pipeline.commitOutstanding = false ∧ documented exc = true) := by
  unfold needsRebuild documented
  rw [hp, hl, hpipeline]
  simp only
  split
  · rename_i hany
    simp only [Bool.or_eq_true, or_assoc] at hany
    simp only [true_iff]
    rcases hany with h | h | h
    · exact .inl h
    · exact .inr (.inl h)
    · exact .inr (.inr (.inl h))
  · rename_i hnone
    simp only [Bool.or_eq_true, not_or] at hnone
    obtain ⟨⟨hclosed, hfatal⟩, hfailed⟩ := hnone
    simp only [hclosed, hfatal, hfailed, Bool.false_eq_true, false_or, Bool.and_eq_true,
      Bool.not_eq_true', and_assoc]

theorem SameFlags.needsRebuild (h : SameFlags b b') {exc : PyExc} (hb : b.needsRebuild exc = true) :
    b'.needsRebuild exc = true := by
  obtain ⟨hpipeline, hlistener, callbacks, hproducer⟩ := h
  cases hp : b.producer with
  | none =>
    rw [hp] at hproducer
    rw [Bridge.needsRebuild, show b'.producer = none from hproducer]
  | some p =>
    cases hl : b.listener with
    | none =>
      rw [hl, Option.map_none, Option.map_eq_none_iff] at hlistener
      unfold Bridge.needsRebuild
      rw [hlistener]
      split <;> first | rfl | contradiction
    | some l =>
      cases hk : b.pipeline with
      | none =>
        rw [hk] at hpipeline
        unfold Bridge.needsRebuild
        rw [hpipeline]
        split <;> first | rfl | contradiction
      | some pipeline =>
        rw [hl] at hlistener
        obtain ⟨l', hl', hsame⟩ := Option.map_eq_some_iff.1 hlistener
        obtain ⟨hawaiting, hfailed⟩ := Prod.mk.inj hsame
        rw [hp] at hproducer
        obtain ⟨hkept, -⟩ := sameProducer_runCallbacks p callbacks
        refine (needsRebuild_iff hproducer hl' (hpipeline.trans hk)).2 ?_
        rcases (needsRebuild_iff hp hl hk).1 hb with hclosed | hfatal | hdelivery | hawait
        · left
          rw [MutationProducer.closed, hkept.producer]
          exact hclosed
        · right
          left
          show (HasCallbacks.runCallbacks callbacks p).fatalFlag = true
          rw [fatal_runCallbacks, show p.fatalFlag = true from hfatal, Bool.true_or]
        · exact .inr (.inr (.inl (hfailed.trans hdelivery)))
        · exact .inr (.inr (.inr ⟨hawaiting.trans hawait.1, hawait.2⟩))

/-! ## Stopping -/

theorem SameOwner.overheard (h : SameOwner b b') (callbacks : List Callback) :
    SameOwner b (HasCallbacks.runCallbacks callbacks b') :=
  ⟨h.config, h.producerFactory, h.metrics⟩

end Bridge

end FdbKafkaBridge
