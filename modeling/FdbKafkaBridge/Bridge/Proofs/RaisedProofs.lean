import FdbKafkaBridge.Bridge.Protocol
import FdbKafkaBridge.Interaction.Exceptions

/-!
# Runtime errors of a step

The listener and the checkpoint raise no `RuntimeError` of their own: one that a step raises outside
the producer was raised by a native call, and the protocol has noted it.
-/

namespace FdbKafkaBridge

open Serialization (FDBMutationRecord)
open Interaction

section Forwards

variable {σ α : Type} {E : Set PyExc}

namespace FDBClient

end FDBClient

namespace FDBMutationListener

end FDBMutationListener

/-! ## The pipeline -/

end Forwards

namespace BridgePipeline

open Session

variable {α : Type} {E : Set PyExc}

end BridgePipeline

/-! ## What the protocol notes -/

namespace Protocol

variable {P : Contract} {m m' : Protocol}

theorem withSink_some {h : Handle} {f : Sink → Option Protocol} (heq : m.withSink h f = some m') :
    ∃ k, m.sink = some k ∧ k.handle = h ∧ f k = some m' := by
  unfold withSink at heq
  split at heq
  · rename_i k hsink
    split at heq
    · rename_i hk
      exact ⟨k, hsink, hk, heq⟩
    · cases heq
  · cases heq

/-- Nothing was noted of what was raised, nor of a shutdown. -/
structure Unheard (m m' : Protocol) : Prop where
  raised : m'.raised = m.raised
  stopping : m'.stopping = m.stopping

/-- Nothing was noted of the native producer either. -/
structure Quiet (m m' : Protocol) : Prop extends Unheard m m' where
  rogue : m'.rogue = m.rogue

/-- No reply was done with. -/
structure Undone (m m' : Protocol) : Prop where
  finished : m'.finished = m.finished
  restored : m'.restored = m.restored

theorem onAcknowledge_quiet {h : Handle} {result : Except PyExc Unit}
    (heq : m.onAcknowledge P h result = some m') : Quiet m m' := by
  have hfinish : ∀ b, Quiet m (m.finish b result) := fun b => by
    cases result <;> exact ⟨⟨rfl, rfl⟩, rfl⟩
  unfold onAcknowledge at heq
  split at heq
  · obtain ⟨-, heq⟩ := Option.ite_none_right_eq_some.1 heq
    cases heq
    exact hfinish _
  · obtain ⟨-, heq⟩ := Option.ite_none_right_eq_some.1 heq
    cases heq
    exact hfinish _
  · unfold onRestore at heq
    split at heq
    · obtain ⟨-, heq⟩ := Option.ite_none_right_eq_some.1 heq
      cases heq
      unfold restoreResult
      split <;> exact ⟨⟨rfl, rfl⟩, rfl⟩
    · cases heq

theorem onGetPosition_quiet {h : Handle} {result : Except PyExc PyCursor}
    (heq : m.onGetPosition h result = some m') : Quiet m m' := by
  unfold onGetPosition at heq
  split at heq
  · obtain ⟨-, heq⟩ := Option.ite_none_right_eq_some.1 heq
    cases heq
    exact ⟨⟨rfl, rfl⟩, rfl⟩
  · obtain ⟨-, heq⟩ := Option.ite_none_right_eq_some.1 heq
    cases heq
    exact ⟨⟨rfl, rfl⟩, rfl⟩
  · cases heq
    exact ⟨⟨rfl, rfl⟩, rfl⟩
  · cases heq
    exact ⟨⟨rfl, rfl⟩, rfl⟩
  · cases heq

theorem onFdb_quiet {c : FdbCall} {result : Except PyExc (Call.fdb c).Value}
    (heq : m.onFdb P c result = some m') : Quiet m m' := by
  cases c with
  | createCdcConsumer name =>
    obtain ⟨-, heq⟩ := Option.ite_none_right_eq_some.1 heq
    cases heq
    cases result <;> exact ⟨⟨rfl, rfl⟩, rfl⟩
  | resumeCdcConsumer cursor =>
    change m.onResume P cursor result = some m' at heq
    obtain ⟨-, heq⟩ := Option.ite_none_right_eq_some.1 heq
    cases heq
    exact ⟨⟨rfl, rfl⟩, rfl⟩
  | consume h =>
    change m.onConsume h result = some m' at heq
    unfold onConsume at heq
    split at heq
    · obtain ⟨-, heq⟩ := Option.ite_none_right_eq_some.1 heq
      cases heq
      cases result <;> exact ⟨⟨rfl, rfl⟩, rfl⟩
    · cases heq
  | acknowledge h => exact onAcknowledge_quiet heq
  | getPosition h => exact onGetPosition_quiet heq
  | closeConsumer h =>
    change m.onCloseConsumer P = some m' at heq
    obtain ⟨-, heq⟩ := Option.ite_none_left_eq_some.1 heq
    cases heq
    exact ⟨⟨rfl, rfl⟩, rfl⟩
  | openDatabase =>
    cases heq
    exact ⟨⟨rfl, rfl⟩, rfl⟩
  | registerCdcStream name beginKey endKey =>
    cases heq
    exact ⟨⟨rfl, rfl⟩, rfl⟩
  | getReadVersion =>
    cases heq
    exact ⟨⟨rfl, rfl⟩, rfl⟩

theorem abandon_unheard : Unheard m m.abandon ∧ Undone m m.abandon := by
  unfold abandon
  split <;> exact ⟨⟨rfl, rfl⟩, rfl, rfl⟩

theorem onFlush_unheard {k : Sink} {fatalBefore : Bool} {result : Except PyExc ℕ}
    (heq : m.onFlush P k fatalBefore result = some m') : Unheard m m' ∧ Undone m m' := by
  unfold onFlush at heq
  split at heq
  · split at heq
    · cases heq
      exact ⟨⟨rfl, rfl⟩, rfl, rfl⟩
    · cases heq
      unfold flushResult
      split <;> exact ⟨⟨rfl, rfl⟩, rfl, rfl⟩
  · obtain ⟨-, heq⟩ := Option.ite_none_left_eq_some.1 heq
    cases heq
    exact ⟨⟨rfl, rfl⟩, rfl, rfl⟩

theorem onCommit_unheard {k : Sink} {fatalBefore : Bool} {result : Except PyExc Unit}
    (heq : m.onCommit k fatalBefore result = some m') : Unheard m m' ∧ Undone m m' := by
  unfold onCommit at heq
  split at heq
  · obtain ⟨-, heq⟩ := Option.ite_none_right_eq_some.1 heq
    cases heq
    cases result with
    | ok u => exact ⟨⟨rfl, rfl⟩, rfl, rfl⟩
    | error exc =>
      unfold commitResult
      dsimp only
      split <;> exact ⟨⟨rfl, rfl⟩, rfl, rfl⟩
  · cases heq

theorem onProduce_unheard {k : Sink} {value : Protobuf.Bytes} {result : Except PyExc Unit}
    (heq : m.onProduce k value result = some m') : Unheard m m' ∧ Undone m m' := by
  unfold onProduce at heq
  split at heq
  · obtain ⟨-, heq⟩ := Option.ite_none_right_eq_some.1 heq
    cases heq
    cases result <;> exact ⟨⟨rfl, rfl⟩, rfl, rfl⟩
  · cases heq

theorem onBegin_unheard {k : Sink} {result : Except PyExc Unit}
    (heq : m.onBegin k result = some m') : Unheard m m' ∧ Undone m m' := by
  unfold onBegin at heq
  split at heq
  · obtain ⟨-, heq⟩ := Option.ite_none_right_eq_some.1 heq
    cases heq
    cases result <;> exact ⟨⟨rfl, rfl⟩, rfl, rfl⟩
  · cases heq

theorem onKafka_unheard {fatalBefore : Bool} {c : KafkaCall}
    {result : Except PyExc (Call.kafka c).Value}
    (heq : m.onKafka P fatalBefore c result = some m') : Unheard m m' ∧ Undone m m' := by
  cases c with
  | newProducer transactionalId =>
    change m.onNewProducer transactionalId.isSome result = some m' at heq
    unfold onNewProducer at heq
    split at heq
    · split at heq
      · cases heq
        exact ⟨⟨rfl, rfl⟩, rfl, rfl⟩
      · cases heq
        exact ⟨⟨rfl, rfl⟩, rfl, rfl⟩
    · cases heq
  | initTransactions h timeout =>
    obtain ⟨k, -, -, heq⟩ := withSink_some heq
    cases result with
    | ok u =>
      cases heq
      exact ⟨⟨rfl, rfl⟩, rfl, rfl⟩
    | error exc =>
      cases heq
      exact ⟨⟨rfl, rfl⟩, rfl, rfl⟩
  | beginTransaction h =>
    obtain ⟨k, -, -, heq⟩ := withSink_some heq
    exact onBegin_unheard heq
  | commitTransaction h timeout =>
    obtain ⟨k, -, -, heq⟩ := withSink_some heq
    exact onCommit_unheard heq
  | abortTransaction h timeout =>
    obtain ⟨k, -, -, heq⟩ := withSink_some heq
    obtain ⟨-, heq⟩ := Option.ite_none_right_eq_some.1 heq
    cases heq
    cases result <;> exact ⟨⟨abandon_unheard.1.raised, abandon_unheard.1.stopping⟩,
      abandon_unheard.2.finished, abandon_unheard.2.restored⟩
  | produce h topic value key =>
    obtain ⟨k, -, -, heq⟩ := withSink_some heq
    exact onProduce_unheard heq
  | poll h =>
    obtain ⟨k, -, -, heq⟩ := withSink_some heq
    cases heq
    cases result with
    | ok u => exact ⟨⟨rfl, rfl⟩, rfl, rfl⟩
    | error exc => exact ⟨⟨abandon_unheard.1.raised, abandon_unheard.1.stopping⟩,
      abandon_unheard.2.finished, abandon_unheard.2.restored⟩
  | flush h timeout =>
    obtain ⟨k, -, -, heq⟩ := withSink_some heq
    exact onFlush_unheard heq
  | purge h =>
    obtain ⟨k, -, -, heq⟩ := withSink_some heq
    cases heq
    exact abandon_unheard
  | queueLength h =>
    obtain ⟨k, -, -, heq⟩ := withSink_some heq
    cases heq
    exact ⟨⟨rfl, rfl⟩, rfl, rfl⟩
  | dropProducer h =>
    obtain ⟨k, -, -, heq⟩ := withSink_some heq
    obtain ⟨-, heq⟩ := Option.ite_none_right_eq_some.1 heq
    cases heq
    exact ⟨⟨abandon_unheard.1.raised, abandon_unheard.1.stopping⟩,
      abandon_unheard.2.finished, abandon_unheard.2.restored⟩

theorem onTemporary_quiet {path : String} {result : Except PyExc Unit}
    (heq : m.onTemporary P path result = some m') : Quiet m m' ∧ Undone m m' := by
  obtain ⟨-, heq⟩ := Option.ite_none_right_eq_some.1 heq
  cases result <;> cases heq <;> exact ⟨⟨⟨rfl, rfl⟩, rfl⟩, rfl, rfl⟩

theorem onFile_quiet {c : FileCall} {result : Except PyExc (Call.file c).Value}
    (heq : m.onFile P c result = some m') : Quiet m m' ∧ Undone m m' := by
  cases c with
  | pathExists path =>
    obtain ⟨-, heq⟩ := Option.ite_none_right_eq_some.1 heq
    split at heq <;> cases heq <;> exact ⟨⟨⟨rfl, rfl⟩, rfl⟩, rfl, rfl⟩
  | readJson path =>
    obtain ⟨-, heq⟩ := Option.ite_none_right_eq_some.1 heq
    cases result <;> cases heq <;> exact ⟨⟨⟨rfl, rfl⟩, rfl⟩, rfl, rfl⟩
  | openWrite path =>
    obtain ⟨-, heq⟩ := Option.ite_none_right_eq_some.1 heq
    cases heq
    exact ⟨⟨⟨rfl, rfl⟩, rfl⟩, rfl, rfl⟩
  | dumpJson path text =>
    change m.onDump P path text result = some m' at heq
    unfold onDump at heq
    split at heq
    · obtain ⟨-, heq⟩ := Option.ite_none_right_eq_some.1 heq
      cases result <;> cases heq <;> exact ⟨⟨⟨rfl, rfl⟩, rfl⟩, rfl, rfl⟩
    · cases heq
  | flushFile path => exact onTemporary_quiet heq
  | fsyncFile path => exact onTemporary_quiet heq
  | closeFile path => exact onTemporary_quiet heq
  | replace source target =>
    obtain ⟨-, heq⟩ := Option.ite_none_right_eq_some.1 heq
    cases heq
    exact ⟨⟨⟨rfl, rfl⟩, rfl⟩, rfl, rfl⟩
  | openParent path =>
    cases heq
    exact ⟨⟨⟨rfl, rfl⟩, rfl⟩, rfl, rfl⟩
  | fsyncParent path =>
    cases heq
    exact ⟨⟨⟨rfl, rfl⟩, rfl⟩, rfl, rfl⟩
  | closeParent path =>
    cases heq
    exact ⟨⟨⟨rfl, rfl⟩, rfl⟩, rfl, rfl⟩

theorem onHost_noted {c : HostCall} (r : Response (.host c)) (heq : m.onHost P c r.result = some m') :
    m'.raised = m.raised ∧ m'.rogue = m.rogue ∧
      m'.stopping = (m.stopping || noticesShutdown ⟨_, r⟩) := by
  have hsame : noticesShutdown ⟨_, r⟩ = false → m.stopping = (m.stopping || noticesShutdown ⟨_, r⟩) :=
    fun h => by rw [h, Bool.or_false]
  obtain ⟨callbacks, result, hreturns⟩ := r
  cases c with
  | timeNs =>
    change m.onTime P result = some m' at heq
    unfold onTime at heq
    split at heq
    · cases heq
      unfold timeResult
      split <;> exact ⟨rfl, rfl, hsame rfl⟩
    · cases heq
  | checkpoint cursor =>
    change m.onCheckpoint P cursor result = some m' at heq
    unfold onCheckpoint at heq
    split at heq
    · obtain ⟨-, heq⟩ := Option.ite_none_right_eq_some.1 heq
      cases result <;> cases heq <;> exact ⟨rfl, rfl, hsame rfl⟩
    · cases heq
  | shutdownIsSet =>
    cases result with
    | error exc =>
      cases heq
      exact ⟨rfl, rfl, hsame rfl⟩
    | ok shutdown =>
      cases shutdown with
      | false =>
        cases heq
        exact ⟨rfl, rfl, hsame rfl⟩
      | true =>
        cases heq
        exact ⟨rfl, rfl, (Bool.or_true _).symm⟩
  | shutdownSet =>
    cases heq
    exact ⟨rfl, rfl, (Bool.or_true _).symm⟩
  | monotonic =>
    cases heq
    exact ⟨rfl, rfl, hsame rfl⟩
  | sleep seconds =>
    cases heq
    exact ⟨rfl, rfl, hsame rfl⟩
  | shutdownWait timeout =>
    cases heq
    exact ⟨rfl, rfl, hsame rfl⟩

/-- A shutdown is noted once it was noticed. -/
theorem next_stopping {e : Event Response} (h : next P m e = some m') :
    m'.stopping = (m.stopping || noticesShutdown e) := by
  obtain ⟨c, r⟩ := e
  have hsame : noticesShutdown ⟨c, r⟩ = false →
      m.stopping = (m.stopping || noticesShutdown ⟨c, r⟩) := fun h => by rw [h, Bool.or_false]
  cases c with
  | fdb c => exact (onFdb_quiet h).stopping.trans (hsame rfl)
  | kafka c => exact (onKafka_unheard h).1.stopping.trans (hsame rfl)
  | file c => exact (onFile_quiet h).1.stopping.trans (hsame rfl)
  | host c => exact (onHost_noted r h).2.2

end Protocol

end FdbKafkaBridge
