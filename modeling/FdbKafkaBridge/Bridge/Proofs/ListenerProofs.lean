import FdbKafkaBridge.Bridge.Proofs.SinkProofs
import FdbKafkaBridge.Cdc.Proofs.StartProofs

/-!
# The listener keeps to the protocol

Starting a listener, polling, acknowledging and closing make the calls that the protocol allows in
the stage that the flags of the listener stand for.
-/

namespace FdbKafkaBridge

open Protobuf (Bytes)
open Serialization (FDBMutationRecord)
open Interaction

/-! ## Starting -/

variable {P : Contract} {p₀ : Option MutationProducer} {m₀ : Protocol}

/-- Since `p₀` and `m₀` only callbacks ran, and a consumer may be made. -/
structure Resting (P : Contract) (p₀ : Option MutationProducer) (m₀ : Protocol)
    (p : Option MutationProducer) (m : Protocol) : Prop where
  meanwhile : Meanwhile p₀ m₀ p m
  replaceable : m.replaceable P = true
  idle : m₀.stage = .idle → m.stage = .idle

theorem Protocol.replaceable_idle {m : Protocol} (h : m.stage = .idle) :
    m.replaceable P = true := by
  rw [Protocol.replaceable, h]
  rfl

theorem Protocol.replaceable_congr {m m' : Protocol} (h : m.replaceable P = true)
    (hsink : m'.sink.isNone = m.sink.isNone) (hstage : m'.stage = m.stage) :
    m'.replaceable P = true := by
  unfold Protocol.replaceable at *
  rwa [hsink, hstage]

theorem Protocol.replaceable_iff {m : Protocol} : m.replaceable P = true ↔
    m.stage = .idle ∨ P.bound = false ∧ m.sink = none ∧ m.stage.isDetached = true := by
  simp [Protocol.replaceable, and_assoc]

theorem Resting.hear {p : Option MutationProducer} {m : Protocol} (h : Resting P p₀ m₀ p m)
    {c : Call} (r : Response c) :
    Resting P p₀ m₀ (HasCallbacks.runCallbacks r.callbacks p) (m.hear r) where
  meanwhile := h.meanwhile.trans (.hear p m r)
  replaceable := by
    refine Protocol.replaceable_congr h.replaceable ?_ rfl
    rw [Protocol.hear_sink]
    exact Option.isNone_map
  idle := h.idle

/-- The protocol changes otherwise, and is left with no reply or with the same. -/
theorem Resting.and {p : Option MutationProducer} {m m' : Protocol} (h : Resting P p₀ m₀ p m)
    (hsink : m'.sink = m.sink) (hbeside : Beside m m')
    (hstage : m'.stage = .idle ∨ m'.stage = m.stage) : Resting P p₀ m₀ p m' where
  meanwhile := h.meanwhile.and hsink hbeside
  replaceable := by
    rcases hstage with hstage | hstage
    · exact Protocol.replaceable_idle hstage
    · exact Protocol.replaceable_congr h.replaceable (by rw [hsink]) hstage
  idle hm₀ := hstage.elim id fun hstage => hstage.trans (h.idle hm₀)

/-- A lookup passes the protocol by. -/
theorem next_lookup {c : Call} (hc : c.isLookup = true) (m : Protocol) (r : Response c) :
    Protocol.next P m ⟨c, r⟩ = some (m.hear r) := by
  cases c with
  | fdb c => cases c <;> first | rfl | cases hc
  | kafka c => cases hc
  | file c => cases hc
  | host c => cases c <;> first | rfl | cases hc

/-- A listener is being started, and the consumer to be restored is known. -/
def Restoring (P : Contract) (p₀ : Option MutationProducer) (m₀ : Protocol)
    (restoring : Option Handle) (s : ListenerState) (m : Protocol) : Prop :=
  Resting P p₀ m₀ s.producer m ∧
    ∀ h, restoring = some h → ∃ cursor, m.restoring = some (h, cursor)

theorem Restoring.hear {restoring : Option Handle} {s : ListenerState} {m : Protocol}
    (h : Restoring P p₀ m₀ restoring s m) {c : Call} (r : Response c) :
    Resting P p₀ m₀ (HasCallbacks.runCallbacks r.callbacks s).producer (m.hear r) := h.1.hear r

namespace FDBMutationListener

variable {s : ListenerState} {m : Protocol}

/-! ## Polling -/

/-- What the protocol knows of the configuration of a listener. The cursor matters only until the
listener is started. -/
structure Configured (P : Contract) (l : FDBMutationListener) (m : Protocol) : Prop where
  streamName : P.streamName = l.streamName
  maxRecordBytes : P.maxRecordBytes = l.maxRecordBytes
  loaded : l.consumer = none → l.isClosed = false →
    ∀ cursor, l.initialCursor = some cursor → m.loaded = some cursor

/-- The reply in hand may be acknowledged. -/
def Ackable (P : Contract) (stage : Stage) (b : Batch) : Prop :=
  (∃ cursor, stage = .saved b cursor) ∨
    (P.checkpoint ≠ .callback ∧ ∃ cursor, stage = .positioned b cursor)

/-- The position may be asked for, and this is the batch that it belongs to. -/
def Positionable (stage : Stage) (b : Batch) : Prop :=
  stage = .delivered b ∨ ∃ cursor, stage = .positioned b cursor

/-- A listener that is closed leaves no reply that it could acknowledge. -/
theorem wp_close (hbound : P.bound = false)
    (hdetached : s.listener.consumer = none → m.stage.isDetached = true) :
    Proc.wp (Protocol.monitor P) close (fun _ s' m' =>
      Meanwhile s.producer m s'.producer m' ∧ m'.stage.isDetached = true ∧
        (m'.stage = m.stage ∨ m'.stage = m.stage.close) ∧
        s'.listener = { s.listener with isClosed := true, consumer := none }) s m := by
  unfold close
  rw [Proc.wp_get_bind]
  simp only
  rw [Proc.wp_modify_bind]
  cases hc : s.listener.consumer with
  | none => exact ⟨Meanwhile.refl _ _, hdetached hc, .inl rfl, rfl⟩
  | some consumer =>
    simp only
    rw [wp_native]
    intro r
    have hnext : Protocol.next P m ⟨.fdb (.closeConsumer consumer), r⟩ =
        some (((m.hear r).setRestoring none).setStage m.stage.close) := by
      refine if_neg ?_
      rw [hbound]
      rintro ⟨h, -⟩
      cases h
    refine ⟨_, hnext, ?_, Stage.isDetached_close _, .inr rfl, rfl⟩
    exact (Meanwhile.hear s.producer m r).and rfl ⟨rfl, rfl, rfl, List.Subset.refl _, id⟩

end FDBMutationListener

end FdbKafkaBridge
