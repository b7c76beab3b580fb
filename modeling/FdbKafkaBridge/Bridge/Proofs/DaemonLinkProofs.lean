import FdbKafkaBridge.Bridge.Daemon
import FdbKafkaBridge.Bridge.Proofs.HistoryProofs
import FdbKafkaBridge.Bridge.Proofs.LinkProofs
import FdbKafkaBridge.Bridge.Proofs.TallyProofs
import FdbKafkaBridge.Interaction.Followed

/-!
# The daemon keeps to the protocol

The sections of the run thread, and what other threads do between them, keep the bridge linked to the
protocol. Wherever the pipeline is stuck a rebuild is due, and the metrics, once the step at hand is
tallied, count the replies that are done with.
-/

namespace FdbKafkaBridge

open Serialization (FDBMutationRecord)
open Interaction

namespace Bridge

/-! ## A section under the lock -/

variable {config : BridgeConfig} {r : RunState} {m : Protocol}

theorem Built.unstuck {P : Contract} {b : Bridge} {s : Session} (h : Built P b s m) : b.Unstuck :=
  (unstuck_iff h.running.session).2 h.idle.not_stuck

theorem PipelineBuilt.standing {b b' : Bridge} {m' : Protocol} {res : Except PyExc Unit}
    (h : PipelineBuilt config b m res b' m') : Standing config.contract b' m' ∧ b'.Unstuck := by
  obtain ⟨-, -, hres⟩ := h
  cases res with
  | ok u =>
    obtain ⟨s, hbuilt⟩ := hres
    exact ⟨.running s hbuilt.running, hbuilt.unstuck⟩
  | error exc => exact ⟨.unbuilt hres, unstuck_of_unbuilt hres.pipeline⟩

end Bridge

/-! ## Between the sections -/

theorem Session.CanStep.not_stuck {s : Session} (h : s.CanStep) : ¬ BridgePipeline.Stuck s := by
  rintro ⟨⟨hcommit, hunacked, -⟩, hawaiting | hfailed⟩
  · rcases h.awaitingAck hawaiting with hnot | hnot
    · rw [hcommit] at hnot
      cases hnot
    · rw [hunacked] at hnot
      cases hnot
  · rw [h.deliveryFailed] at hfailed
    cases hfailed

/-- The exception that is being handled. -/
def RunPhase.error? : RunPhase → Option PyExc
  | .failed exc => some exc
  | .note exc => some exc
  | _ => none

namespace Daemon

open Bridge

/-- The metrics once the step at hand is tallied. -/
def due (d : Daemon) : BridgeMetrics :=
  match d.phase with
  | .stepped published records =>
    if published = 0 then d.run.bridge.metrics else (tally published records d.run.bridge).metrics
  | _ => d.run.bridge.metrics

/-- The pipeline can go on, or a rebuild is due before the next step. -/
def Sound (phase : RunPhase) (r : RunState) : Prop :=
  r.rebuildPending = true ∨ r.bridge.Unstuck ∨
    ∃ exc, phase.error? = some exc ∧ r.bridge.needsRebuild exc = true

/-- What holds between the sections. `fresh` says that `run` was only called on a pipeline that can go
on, and `settled` that `stop` has acknowledged nothing. -/
structure Kept (config : BridgeConfig) (fresh settled : Prop) (d : Daemon) (m : Protocol) : Prop where
  same : d.run.bridge.config = config
  standing : Bridge.Standing config.contract d.run.bridge m
  sound : fresh → m.rogue = false → d.phase ≠ .ended → Sound d.phase d.run
  counted : settled → d.due.Count m.finished

variable {config : BridgeConfig} {fresh settled : Prop} {d d' : Daemon} {r r' : RunState}
  {phase : RunPhase} {m m' : Protocol}

/-- Nothing but the flags of the bridge matters for soundness. -/
theorem Sound.same (h : Sound phase r) (hpending : r'.rebuildPending = r.rebuildPending)
    (hflags : SameFlags r.bridge r'.bridge) : Sound phase r' := by
  rcases h with h | h | ⟨exc, hphase, hneeds⟩
  · exact .inl (hpending.trans h)
  · exact .inr (.inl (hflags.unstuck h))
  · exact .inr (.inr ⟨exc, hphase, hflags.needsRebuild hneeds⟩)

/-- The next phase is one without an exception. -/
theorem Sound.next {phase' : RunPhase} (h : Sound phase r) (hnone : phase.error? = none) :
    Sound phase' r := by
  rcases h with h | h | ⟨exc, hphase, -⟩
  · exact .inl h
  · exact .inr (.inl h)
  · rw [hnone] at hphase
    cases hphase

/-- Only callbacks have run. -/
theorem Kept.overheard {callbacks : List Callback} (h : Kept config fresh settled d m)
    (ho : Overheard m callbacks m') :
    Kept config fresh settled (HasCallbacks.runCallbacks callbacks d) m' := by
  refine ⟨h.same, h.standing.overheard ho, fun hfresh hrogue hphase => ?_, fun hsettled => ?_⟩
  · exact (h.sound hfresh (ho.rogue.symm.trans hrogue) hphase).same rfl
      (sameFlags_runCallbacks d.run.bridge callbacks)
  · rw [ho.finished]
    exact h.counted hsettled

/-- How the run thread may leave its loop: a shutdown was noticed, or an exception ends it. -/
def Leaves (d : Daemon) (res : Except PyExc Unit) (d' : Daemon) (m' : Protocol) : Prop :=
  d.phase ≠ .ended → d'.phase = .ended → (res = .ok () ∧ m'.stopping = true) ∨
    ∃ exc, res = .error exc ∧ endsRun exc = true

/-- A pipeline that was just built can step. -/
def Starts (d : Daemon) (res : Except PyExc Unit) (d' : Daemon) : Prop :=
  d.run.bridge.pipeline = none → res = .ok () →
    ∃ s, d'.run.bridge.session? = some s ∧ s.CanStep

/-! ## The sections -/

end Daemon

end FdbKafkaBridge
