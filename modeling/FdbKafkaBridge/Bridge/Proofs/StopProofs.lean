import FdbKafkaBridge.Bridge.Proofs.FinishProofs

/-!
# `stop`

The runs of `stop` taken apart: what comes before the closes, with at most one step, and the closes.
-/

namespace FdbKafkaBridge

open Interaction

namespace Bridge

theorem session?_pipeline {b : Bridge} {s : Session} (h : b.session? = some s) :
    b.pipeline = some s.pipeline := by
  unfold session? at h
  split at h
  · rename_i hpipeline
    cases h
    exact hpipeline
  · cases h

theorem session?_isSome_iff {b : Bridge} :
    b.session?.isSome = true ↔ b.listener.isSome = true ∧ b.client.isSome = true ∧
      b.producer.isSome = true ∧ b.pipeline.isSome = true := by
  unfold session?
  constructor
  · intro h
    split at h
    · rename_i hlistener hclient hproducer hpipeline
      rw [hlistener, hclient, hproducer, hpipeline]
      exact ⟨rfl, rfl, rfl, rfl⟩
    · cases h
  · rintro ⟨hlistener, hclient, hproducer, hpipeline⟩
    obtain ⟨listener, hlistener⟩ := Option.isSome_iff_exists.1 hlistener
    obtain ⟨client, hclient⟩ := Option.isSome_iff_exists.1 hclient
    obtain ⟨producer, hproducer⟩ := Option.isSome_iff_exists.1 hproducer
    obtain ⟨pipeline, hpipeline⟩ := Option.isSome_iff_exists.1 hpipeline
    rw [hlistener, hclient, hproducer, hpipeline]
    rfl

theorem Bound.runCallbacks {b : Bridge} (h : b.Bound) (callbacks : List Callback) :
    (HasCallbacks.runCallbacks callbacks b).Bound := by
  intro hpipeline
  obtain ⟨hlistener, hclient, hproducer, -⟩ := session?_isSome_iff.1 (h hpipeline)
  refine session?_isSome_iff.2 ⟨hlistener, hclient, ?_, hpipeline⟩
  exact Option.isSome_map.trans hproducer

/-- A step of the bridge is one of its session. -/
theorem step_of_session (fuel : ℕ) {b : Bridge} {s : Session} (h : b.session? = some s) :
    step fuel b = Proc.zoom (fun _ => s) setSession (BridgePipeline.step fuel) b := by
  rw [step, Proc.get_bind, h]

theorem step_of_none (fuel : ℕ) {b : Bridge} (h : b.session? = none) :
    ∃ exc, step fuel b = .ret (.error exc, b) := by
  refine ⟨⟨.other "AttributeError" none, "'NoneType' object has no attribute 'step'"⟩, ?_⟩
  rw [step, Proc.get_bind, h]
  rfl

theorem session_outstanding {b : Bridge} {s : Session} (h : b.session? = some s) :
    s.pipeline.commitOutstanding = b.commitOutstanding := by
  rw [commitOutstanding, session?_pipeline h]
  rfl

/-- With a commit outstanding a step of the bridge does not poll. -/
theorem step_startsNothing (fuel : ℕ) {b : Bridge} (h : b.commitOutstanding = true) :
    Proc.wp (Monitor.only Call.isFinishing) (step fuel) (fun _ _ _ => True) b () := by
  cases hs : b.session? with
  | none =>
    obtain ⟨exc, hstep⟩ := step_of_none fuel hs
    unfold Proc.wp
    rw [hstep]
    trivial
  | some s =>
    have hout : s.pipeline.commitOutstanding = true := (session_outstanding hs).trans h
    have hfinish := BridgePipeline.startsNothing_finishDelivery fuel s () trivial
    unfold Proc.wp at hfinish ⊢
    rw [step_of_session fuel hs]
    show Accepts _ (Prog.bind (BridgePipeline.step fuel s) _) _ ()
    rw [BridgePipeline.step_eq_finishDelivery fuel hout, accepts_bind]
    exact Accepts.mono hfinish fun _ _ _ => trivial

theorem startsNothing_finishCommitLoop (fuel : ℕ) (deadline : ℚ) (n : ℕ) :
    StartsNothing (finishCommitLoop fuel deadline n) := by
  induction n with
  | zero => exact Proc.preserves_hang
  | succ n ih =>
    intro b m _
    unfold finishCommitLoop
    rw [Proc.wp_get_bind]
    split
    · rename_i hout
      refine Proc.wp_bind_of (P := fun _ b' _ => b'.commitOutstanding = true) ?_ ?_
        fun _ _ _ _ => trivial
      · rw [wp_native]
        intro r
        exact ⟨(), rfl, hout⟩
      intro now b' m' hout'
      split
      · refine Proc.wp_bind_of (P := fun _ _ _ => True)
          (Proc.wp_attempt.2 (step_startsNothing fuel hout')) ?_ fun _ _ _ _ => trivial
        intro r b'' m'' _
        cases r with
        | ok n => exact ih b'' m'' trivial
        | error exc => trivial
      · trivial
    · trivial

theorem startsNothing_closeObject {σ : Type} {object : σ} {p : Py σ Unit} (h : StartsNothing p) :
    StartsNothing (closeObject object p) := Proc.CallsOnly.zoom h _ _

theorem startsNothing_closes (b : Bridge) : ∀ p ∈ closes b, StartsNothing p := by
  intro p hp
  rcases List.mem_append.1 hp with hp | hp
  · rcases List.mem_append.1 hp with hp | hp
    · obtain ⟨producer, -, rfl⟩ := Option.map_eq_some_iff.1 (Option.mem_toList.1 hp)
      exact startsNothing_closeObject (MutationProducer.startsNothing_close _)
    · obtain ⟨listener, -, rfl⟩ := Option.map_eq_some_iff.1 (Option.mem_toList.1 hp)
      exact startsNothing_closeObject FDBMutationListener.startsNothing_close
  · obtain ⟨client, -, rfl⟩ := Option.map_eq_some_iff.1 (Option.mem_toList.1 hp)
    exact startsNothing_closeObject (Proc.preserves_modify fun _ _ _ => trivial)

theorem startsNothing_requestShutdown {σ : Type} [HasCallbacks σ] :
    StartsNothing (requestShutdown : Py σ Unit) := startsNothing_native rfl

theorem startsNothing_finishOutstandingCommit (fuel n : ℕ) (timeout : ℚ) :
    StartsNothing (finishOutstandingCommit fuel n timeout) := by
  refine Proc.preserves_get.bind fun b => Proc.Preserves.when ?_ _
  exact (startsNothing_native rfl).bind fun now => startsNothing_finishCommitLoop fuel _ n

theorem startsNothing_stop (fuel n : ℕ) : StartsNothing (stop fuel n) := by
  refine startsNothing_requestShutdown.bind fun _ => ?_
  refine Proc.preserves_get.bind fun b => ?_
  refine (startsNothing_finishOutstandingCommit fuel n _).bind fun _ => ?_
  refine Proc.preserves_get.bind fun b => ?_
  refine (Proc.preserves_modify fun _ _ _ => trivial).bind fun _ => ?_
  exact Proc.CallsOnly.runAll none (startsNothing_closes b)

theorem startsNothing_unblockStep : StartsNothing unblockStep := by
  refine Proc.preserves_get.bind fun b => ?_
  cases b.listener with
  | none => exact Proc.preserves_pure _
  | some listener =>
    have hclose : StartsNothing (onListener listener (b.client.getD ⟨false⟩)
        FDBMutationListener.close) :=
      Proc.CallsOnly.zoom FDBMutationListener.startsNothing_close _ _
    exact hclose.attempt.bind fun _ => Proc.preserves_pure _

/-! ## At most one step -/

section Finish

variable {fuel : ℕ} {deadline : ℚ} {b b' : Bridge} {tr : List (Event Response)}

end Finish

end Bridge

end FdbKafkaBridge
