import FdbKafkaBridge.Bridge.Daemon
import FdbKafkaBridge.Cdc.Proofs.StartProofs
import FdbKafkaBridge.Kafka.Proofs.MethodProofs

/-!
# Finishing a delivery

A delivery in progress is finished without polling or producing. When the step that finishes it
leaves the commit outstanding, an attempt of it has failed; when it returns, nothing is outstanding.
-/

namespace FdbKafkaBridge

open Serialization (FDBMutationRecord)
open Interaction

/-! ## The cursor file -/

section CursorFile

variable {σ μ : Type} [HasCallbacks σ] {M : Monitor Response μ} {I : σ → μ → Prop}

/-- Looking for a file and reading it. -/
def FileCall.isLoading : FileCall → Bool
  | .pathExists _ => true
  | .readJson _ => true
  | _ => false

theorem preserves_saveCursorToFile
    (hI : ∀ c : FileCall, c.isLoading = false → Survives M I (.file c))
    (path : Option String) (position : PyCursor) (streamName : Option PyStr) :
    Proc.Preserves M I (saveCursorToFile path position streamName : Py σ Unit) := by
  unfold saveCursorToFile
  split
  · exact Proc.preserves_pure _
  refine Proc.Preserves.ite (Proc.preserves_pure _) ?_
  split
  · exact Proc.preserves_throw _
  refine Proc.Preserves.bind ?_ fun _ => Proc.Preserves.bind (hI _ rfl).preserves fun _ => ?_
  · refine (hI _ rfl).preserves.bind fun _ => Proc.Preserves.tryFinally ?_ (hI _ rfl).preserves
    exact (hI _ rfl).preserves.bind fun _ => (hI _ rfl).preserves.bind fun _ => (hI _ rfl).preserves
  · refine Proc.Preserves.tryCatch ?_ fun exc => ?_
    · exact (hI _ rfl).preserves.bind fun _ =>
        Proc.Preserves.tryFinally (hI _ rfl).preserves (hI _ rfl).preserves
    · unfold tolerateUnsupported
      split
      · exact Proc.Preserves.ite (Proc.preserves_pure _) (Proc.preserves_throw _)
      · exact Proc.preserves_throw _

theorem preserves_loadCursorFromFile
    (hI : ∀ c : FileCall, c.isLoading = true → Survives M I (.file c))
    (path : Option String) (streamName : Option PyStr) :
    Proc.Preserves M I (loadCursorFromFile path streamName : Py σ (Option PyCursor)) := by
  unfold loadCursorFromFile
  split
  · exact Proc.preserves_pure _
  refine Proc.Preserves.ite (Proc.preserves_pure _) ?_
  refine (hI (.pathExists _) rfl).preserves.bind fun present => ?_
  refine Proc.Preserves.ite ?_ (Proc.preserves_pure _)
  refine (hI (.readJson _) rfl).preserves.bind fun text => ?_
  split
  · exact Proc.preserves_throw _
  · exact Proc.preserves_pure _

end CursorFile

/-! ## What starts nothing -/

/-- A call that finishes a delivery, and loads nothing. -/
def Call.isFinishing (c : Call) : Bool :=
  !c.isNewWork &&
    match c with
    | .file c => !c.isLoading
    | _ => true

/-- The program neither polls nor opens nor fills a transaction or a batch, nor loads a cursor. -/
abbrev StartsNothing {σ α : Type} (p : Py σ α) : Prop := Proc.CallsOnly Call.isFinishing p

section StartsNothing

variable {σ α : Type}

theorem survives_old [HasCallbacks σ] {c : Call} (hc : c.isFinishing = true) :
    Survives (Monitor.only Call.isFinishing) (fun (_ : σ) _ => True) c :=
  fun _ _ _ _ => ⟨(), if_pos hc, trivial⟩

theorem startsNothing_native [HasCallbacks σ] {c : Call} (hc : c.isFinishing = true) :
    StartsNothing (native c : Py σ c.Value) := (survives_old hc).preserves

theorem isFinishing_lookup {c : Call} (hc : c.isLookup = true) : c.isFinishing = true := by
  cases c with
  | fdb c => cases c <;> first | rfl | cases hc
  | kafka c => cases hc
  | file c => cases hc
  | host c => rfl

namespace FDBMutationListener

theorem startable_old (cursor : Option PyCursor) :
    Startable (Monitor.only Call.isFinishing) cursor (fun _ _ _ => True) (fun _ => True) where
  stable _ := ⟨fun _ hc => survives_old (isFinishing_lookup hc), fun _ _ _ _ => trivial⟩
  consumer _ _ _ _ _ := trivial
  create _ s m name h r :=
    let ⟨m', hnext, _⟩ := survives_old (c := .fdb (.createCdcConsumer name)) rfl s m h r
    ⟨m', hnext, trivial, fun _ _ => trivial⟩
  resume _ s m _ _ h r := survives_old rfl s m h r
  restore s m consumer h r :=
    let ⟨m', hnext, _⟩ := survives_old (c := .fdb (.acknowledge consumer)) rfl s m h r
    ⟨m', hnext, trivial, fun _ => trivial⟩
  close _ s m _ h r := survives_old rfl s m h r

theorem startsNothing_getConsumer (fuel : ℕ) : StartsNothing (getConsumer fuel) :=
  preserves_getConsumer startable_old fuel

theorem startsNothing_acknowledge (fuel : ℕ) : StartsNothing (acknowledge fuel) :=
  preserves_acknowledge startable_old (fun _ _ _ => trivial) fuel

theorem startsNothing_getPosition (fuel : ℕ) : StartsNothing (getPosition fuel) :=
  (startsNothing_getConsumer fuel).bind fun _ => startsNothing_native rfl

theorem startsNothing_close : StartsNothing FDBMutationListener.close := by
  refine Proc.preserves_get.bind fun s => ?_
  refine (Proc.preserves_modify fun _ _ _ => trivial).bind fun _ => ?_
  cases s.listener.consumer with
  | none => exact Proc.preserves_pure _
  | some consumer => exact startsNothing_native rfl

end FDBMutationListener

namespace MutationProducer

theorem startsNothing_requireTransactional (method : String) :
    StartsNothing (requireTransactional method) := by
  refine Proc.preserves_get.bind fun p => ?_
  cases p.producer with
  | none => exact Proc.preserves_throw _
  | some h =>
    refine (preserves_raiseIf _ _).bind fun _ => ?_
    refine (preserves_raiseIf _ _).bind fun _ => ?_
    exact (preserves_raiseIf _ _).bind fun _ => Proc.preserves_pure h

theorem startsNothing_markFatal : StartsNothing markFatal :=
  Proc.preserves_modify fun _ _ _ => trivial

theorem startsNothing_commitTransaction : StartsNothing commitTransaction := by
  refine (startsNothing_requireTransactional _).bind fun h => ?_
  refine Proc.preserves_get.bind fun p => ?_
  refine (preserves_raiseIf _ _).bind fun _ => ?_
  refine Proc.Preserves.bind ?_ fun _ => Proc.preserves_modify fun _ _ _ => trivial
  refine Proc.Preserves.tryCatch (startsNothing_native rfl) fun exc => ?_
  exact (Proc.Preserves.when startsNothing_markFatal _).bind fun _ => Proc.preserves_throw exc

theorem startsNothing_abortTransaction : StartsNothing abortTransaction := by
  refine (startsNothing_requireTransactional _).bind fun h => ?_
  refine Proc.preserves_get.bind fun p => ?_
  refine (preserves_raiseIf _ _).bind fun _ => ?_
  refine Proc.Preserves.bind ?_ fun _ => Proc.preserves_modify fun _ _ _ => trivial
  refine Proc.Preserves.tryCatch (startsNothing_native rfl) fun exc => ?_
  exact startsNothing_markFatal.bind fun _ => Proc.preserves_throw exc

theorem startsNothing_close (timeout : ℚ) : StartsNothing (close timeout) := by
  refine preserves_close_of (fun c hc => startsNothing_native ?_) (fun _ _ _ => trivial)
    (fun _ _ _ => trivial) timeout
  cases c <;> first | rfl | cases hc

end MutationProducer

end StartsNothing

/-! ## Finishing a delivery -/

namespace BridgePipeline

open Session

section Finishing

variable {μ : Type} {M : Monitor Response μ} {I : Session → μ → Prop} {fuel : ℕ}

/-- The invariant survives what happens between a commit and the end of a delivery. -/
structure Finishing (M : Monitor Response μ) (I : Session → μ → Prop) (fuel : ℕ) : Prop where
  position : Proc.Preserves M I (onListener (FDBMutationListener.getPosition fuel))
  acknowledge : Proc.Preserves M I (onListener (FDBMutationListener.acknowledge fuel))
  file : ∀ c : FileCall, c.isLoading = false → Survives M I (.file c)
  callback : ∀ cursor, Survives M I (.host (.checkpoint cursor))
  sleep : ∀ seconds, Survives M I (.host (.sleep seconds))
  checkpointed : ∀ b s m, I s m → I (setCheckpointed b s) m

theorem preserves_raiseLast (last : Option PyExc) :
    Proc.Preserves M I (raiseLast last : Py Session Unit) := by
  cases last with
  | none => exact Proc.preserves_throw _
  | some exc => exact Proc.preserves_throw exc

theorem Finishing.pause (h : Finishing M I fuel) (attemptsLeft : ℕ) (delay : ℚ) :
    Proc.Preserves M I (pause attemptsLeft delay : Py Session Unit) :=
  Proc.Preserves.when (h.sleep delay).preserves _

theorem Finishing.ackAttempts (h : Finishing M I fuel) (n : ℕ) (last : Option PyExc) :
    Proc.Preserves M I (ackAttempts fuel n last) := by
  induction n generalizing last with
  | zero => exact preserves_raiseLast last
  | succ n ih =>
    refine h.acknowledge.attempt.bind fun r => ?_
    cases r with
    | ok u => exact Proc.preserves_pure _
    | error exc =>
      refine Proc.Preserves.ite (Proc.preserves_throw exc) ?_
      refine Proc.preserves_get.bind fun s => ?_
      exact (h.pause n _).bind fun _ => ih (some exc)

theorem Finishing.runCheckpoint (h : Finishing M I fuel) (cursor : PyCursor) :
    Proc.Preserves M I (runCheckpoint cursor) := by
  refine Proc.preserves_get.bind fun s => ?_
  cases s.pipeline.settings.checkpoint with
  | callback => exact (h.callback cursor).preserves
  | cursorFile path streamName => exact preserves_saveCursorToFile h.file path cursor _

theorem Finishing.checkpointAndAcknowledge (h : Finishing M I fuel) :
    Proc.Preserves M I (checkpointAndAcknowledge fuel) := by
  refine Proc.preserves_get.bind fun s => ?_
  refine Proc.Preserves.bind (Proc.Preserves.when ?_ _) fun _ => ?_
  · refine h.position.bind fun cursor => ?_
    exact (h.runCheckpoint cursor).bind fun _ => Proc.preserves_modify (h.checkpointed true)
  · have hack : Proc.Preserves M I (acknowledgeWithRetry fuel) :=
      Proc.preserves_get.bind fun s => h.ackAttempts _ none
    exact hack.bind fun _ => Proc.preserves_modify (h.checkpointed false)

end Finishing

theorem startsNothing_onListener {α : Type} {p : Py ListenerState α} (h : StartsNothing p) :
    StartsNothing (onListener p) := Proc.CallsOnly.zoom h _ _

theorem startsNothing_onProducer {α : Type} {p : Py MutationProducer α} (h : StartsNothing p) :
    StartsNothing (onProducer p) := Proc.CallsOnly.zoom h _ _

theorem startsNothing_modify (f : Session → Session) :
    StartsNothing (modify f : Py Session PUnit) := Proc.preserves_modify fun _ _ _ => trivial

theorem finishing_old (fuel : ℕ) :
    Finishing (Monitor.only Call.isFinishing) (fun _ _ => True) fuel where
  position := startsNothing_onListener (FDBMutationListener.startsNothing_getPosition fuel)
  acknowledge := startsNothing_onListener (FDBMutationListener.startsNothing_acknowledge fuel)
  file c hc := survives_old (by rw [Call.isFinishing, hc]; rfl)
  callback _ := survives_old rfl
  sleep _ := survives_old rfl
  checkpointed _ _ _ _ := trivial

theorem startsNothing_abortAndRaise (exc : PyExc) : StartsNothing (abortAndRaise exc) := by
  unfold abortAndRaise
  refine Proc.Preserves.ite ?_ ?_
  · exact (startsNothing_onProducer MutationProducer.startsNothing_markFatal).bind fun _ =>
      Proc.preserves_throw exc
  · exact (startsNothing_onProducer MutationProducer.startsNothing_abortTransaction).bind fun _ =>
      Proc.preserves_throw exc

theorem startsNothing_commitAttempts (n : ℕ) (last : Option PyExc) :
    StartsNothing (commitAttempts n last) := by
  induction n generalizing last with
  | zero => exact preserves_raiseLast last
  | succ n ih =>
    have hcommit := startsNothing_onProducer MutationProducer.startsNothing_commitTransaction
    refine hcommit.attempt.bind fun r => ?_
    cases r with
    | ok u => exact Proc.preserves_pure _
    | error exc =>
      refine Proc.Preserves.ite ?_ (Proc.Preserves.ite ?_ (Proc.Preserves.ite ?_
        (Proc.Preserves.ite ?_ ?_)))
      · exact (startsNothing_modify _).bind fun _ => Proc.preserves_throw exc
      · exact Proc.preserves_throw exc
      · refine (startsNothing_modify _).bind fun _ => ?_
        exact (startsNothing_onProducer MutationProducer.startsNothing_markFatal).bind fun _ =>
          Proc.preserves_throw exc
      · exact (startsNothing_modify _).bind fun _ => startsNothing_abortAndRaise exc
      · refine Proc.preserves_get.bind fun s => ?_
        exact ((finishing_old 0).pause n _).bind fun _ => ih (some exc)

theorem startsNothing_finishDelivery (fuel : ℕ) : StartsNothing (finishDelivery fuel) := by
  have hcommit : StartsNothing commitWithRetry :=
    Proc.preserves_get.bind fun s => startsNothing_commitAttempts _ none
  refine Proc.preserves_get.bind fun s => ?_
  refine Proc.Preserves.bind (Proc.Preserves.when ?_ _) fun _ => ?_
  · exact hcommit.bind fun _ => (startsNothing_modify _).bind fun _ => startsNothing_modify _
  · refine (finishing_old fuel).checkpointAndAcknowledge.bind fun _ => ?_
    refine (startsNothing_modify _).bind fun _ => ?_
    exact Proc.preserves_get.bind fun s => Proc.preserves_pure _

/-- A step with an outstanding commit does not poll. -/
theorem step_eq_finishDelivery (fuel : ℕ) {s : Session}
    (h : s.pipeline.commitOutstanding = true) : step fuel s = finishDelivery fuel s := by
  show (if s.pipeline.commitOutstanding || s.pipeline.deliveredUnacked then finishDelivery fuel
    else _ : Py Session ℕ) s = _
  rw [if_pos]
  rw [h]
  rfl

end BridgePipeline

/-! ## Failed commits -/

/-- Notes whether a commit attempt has raised. -/
def noteFailedCommit : Monitor Response Bool where
  next failed e := some (failed || isFailedCommit e)

/-- What was noted stays so. -/
theorem preserves_failed {σ α : Type} (p : Py σ α) {P : Prop} :
    Proc.Preserves noteFailedCommit (fun _ failed => P → failed = true) p := by
  refine Proc.preserves_monitor (P := fun failed => P → failed = true) ?_ p
  intro failed e h
  refine ⟨_, rfl, fun hP => ?_⟩
  rw [h hP, Bool.true_or]

/-- The invariant is about the commit, and not broken by another failed attempt. -/
def IsAboutCommit (I : Session → Bool → Prop) : Prop :=
  ∀ s s' failed failed', s'.pipeline.commitOutstanding = s.pipeline.commitOutstanding →
    (failed = true → failed' = true) → I s failed → I s' failed'

open BridgePipeline Session

section AboutCommit

variable {I : Session → Bool → Prop}

theorem IsAboutCommit.zoomed (hI : IsAboutCommit I) {σ α : Type} (view : Session → σ)
    (put : Session → σ → Session)
    (hput : ∀ s t, (put s t).pipeline.commitOutstanding = s.pipeline.commitOutstanding)
    (p : Py σ α) : Proc.Preserves noteFailedCommit I (Proc.zoom view put p) := by
  intro s failed h
  rw [Proc.wp_zoom]
  refine Proc.wp_mono (preserves_failed p (P := failed = true) _ failed id) ?_
  exact fun _ t failed' hfailed => hI s _ failed failed' (hput s t) hfailed h

theorem IsAboutCommit.listener (hI : IsAboutCommit I) {α : Type} (p : Py ListenerState α) :
    Proc.Preserves noteFailedCommit I (onListener p) :=
  hI.zoomed listenerState setListenerState (fun _ _ => rfl) p

theorem IsAboutCommit.producer (hI : IsAboutCommit I) {α : Type} (p : Py MutationProducer α) :
    Proc.Preserves noteFailedCommit I (onProducer p) :=
  hI.zoomed Session.producer (fun s p => { s with producer := p }) (fun _ _ => rfl) p

end AboutCommit

namespace BridgePipeline

end BridgePipeline

end FdbKafkaBridge
