import FdbKafkaBridge.Bridge.Proofs.StopProofs

/-!
# What a pipeline is bound to

A pipeline is set last and dropped first, so that one that is there has its client, its listener and
its producer, whatever a build or a step raises.
-/

namespace FdbKafkaBridge

open Interaction

namespace Bridge

section Bound

variable {b b' : Bridge}

theorem Bound.congr (h : b.Bound) (hlistener : b'.listener.isSome = b.listener.isSome)
    (hclient : b'.client.isSome = b.client.isSome)
    (hproducer : b'.producer.isSome = b.producer.isSome)
    (hpipeline : b'.pipeline.isSome = b.pipeline.isSome) : b'.Bound := by
  intro hsome
  have hsession := session?_isSome_iff.1 (h (hpipeline.symm.trans hsome))
  refine session?_isSome_iff.2 ?_
  rwa [hlistener, hclient, hproducer, hpipeline]

theorem bound_of_none (h : b.pipeline = none) : b.Bound := by
  intro hsome
  rw [h] at hsome
  cases hsome

/-- A new bridge has no pipeline. -/
theorem new_bound {config : BridgeConfig} {client : Option FDBClient}
    {listener : Option FDBMutationListener} {producer : Option MutationProducer}
    {producerFactory : Option (Option String)}
    (h : new config client listener producer producerFactory = .ok b) : b.Bound := by
  unfold new at h
  split at h
  · cases h
  · cases h
    exact bound_of_none rfl

/-- A program over an object that a part of the bridge holds. -/
theorem wp_part {σ α : Type} {view : Bridge → σ} {put : Bridge → σ → Bridge} {p : Py σ α}
    {Q : Except PyExc α → Bridge → Unit → Prop} (h : ∀ r s, Q r (put b s) ()) :
    Proc.wp Monitor.free (Proc.zoom view put p) Q b () := by
  rw [Proc.wp_zoom]
  have hall := Proc.preserves_monitor (M := Monitor.free) (P := fun _ => True)
    (fun _ _ _ => ⟨(), rfl, trivial⟩) p (view b) () trivial
  exact Proc.wp_mono hall fun r s _ _ => h r s

theorem free_survives {I : Bridge → Prop}
    (hI : ∀ b callbacks, I b → I (HasCallbacks.runCallbacks callbacks b)) (c : Call) :
    Survives Monitor.free (fun b _ => I b) c := fun b _ h _ => ⟨(), rfl, hI b _ h⟩

theorem wp_buildClient (h : b.pipeline = none) :
    Proc.wp Monitor.free buildClient (fun r b' _ => b'.pipeline = none ∧
      (r = .ok () → b'.client.isSome = true)) b () := by
  unfold buildClient
  rw [Proc.wp_get_bind, Proc.wp_when]
  split
  · rw [Proc.wp_bind, wp_native]
    intro r
    refine ⟨(), rfl, ?_⟩
    cases r.result with
    | ok u => exact ⟨h, fun _ => rfl⟩
    | error exc => exact ⟨h, fun he => nomatch he⟩
  · rename_i hclient
    rw [Option.isNone_iff_eq_none] at hclient
    exact ⟨h, fun _ => Option.isSome_iff_ne_none.2 hclient⟩

theorem wp_buildListener (fuel : ℕ) (h : b.pipeline = none) (hclient : b.client.isSome = true) :
    Proc.wp Monitor.free (buildListener fuel) (fun r b' _ => b'.pipeline = none ∧
      (r = .ok () → b'.client.isSome = true ∧ b'.listener.isSome = true)) b () := by
  unfold buildListener
  rw [Proc.wp_get_bind]
  split
  · rename_i client hnone hsome
    have hload := preserves_loadCursorFromFile (σ := Bridge) (M := Monitor.free)
      (I := fun b _ => b.pipeline = none ∧ b.client.isSome = true)
      (fun c _ => free_survives (fun _ _ h => h) (.file c))
      b.config.cursorFile (some b.config.streamName) b () ⟨h, hclient⟩
    refine Proc.wp_bind_of hload ?_ fun exc b' _ h' => ⟨h'.1, fun he => nomatch he⟩
    rintro cursor b' m ⟨hnone', hclient'⟩
    rw [wp_raiseIf_bind]
    split
    · exact ⟨hnone', fun he => nomatch he⟩
    unfold FDBMutationListener.new
    split
    · exact ⟨hnone', fun he => nomatch he⟩
    · show Proc.wp Monitor.free (onListener _ client (FDBMutationListener.start fuel)) _
        (setListener _ b') m
      exact wp_part fun r s => ⟨hnone', fun _ => ⟨Option.isSome_map.trans hclient', rfl⟩⟩
  · rename_i hlistener
    refine ⟨h, fun _ => ⟨hclient, ?_⟩⟩
    obtain ⟨client, hsome⟩ := Option.isSome_iff_exists.1 hclient
    cases hl : b.listener with
    | none => exact absurd hsome (hlistener client hl)
    | some listener => rfl

theorem wp_producerFromFactory {I : Bridge → Prop} (h : I b)
    (hI : ∀ b callbacks, I b → I (HasCallbacks.runCallbacks callbacks b)) :
    Proc.wp Monitor.free producerFromFactory (fun _ b' _ => I b') b () := by
  have hnew : Proc.Preserves Monitor.free (fun b _ => I b) producerFromFactory := by
    refine Proc.preserves_get.bind fun b => ?_
    refine (preserves_raiseIf _ _).bind fun _ => ?_
    exact (free_survives hI _).preserves.bind fun handle => Proc.preserves_pure _
  exact hnew b () h

/-- The client and the listener are there, and no pipeline yet. -/
def Half (b : Bridge) : Prop :=
  b.pipeline = none ∧ b.client.isSome = true ∧ b.listener.isSome = true

theorem wp_buildProducer (h : b.Half) :
    Proc.wp Monitor.free buildProducer (fun r b' _ => b'.Half ∧
      (r = .ok () → b'.producer.isSome = true)) b () := by
  unfold buildProducer
  rw [Proc.wp_get_bind]
  have hproducer : Proc.wp Monitor.free (Proc.when b.producer.isNone (do
      let producer ← producerFromFactory
      modify (setProducer (some producer)))) (fun r b' _ => b'.Half ∧
        (r = .ok () → b'.producer.isSome = true)) b () := by
    rw [Proc.wp_when]
    split
    · refine Proc.wp_bind_of (wp_producerFromFactory h fun _ _ h => h) ?_
        fun exc b' _ h' => ⟨h', fun he => nomatch he⟩
      exact fun producer b' _ h' => ⟨h', fun _ => rfl⟩
    · rename_i hsome
      rw [Option.isNone_iff_eq_none] at hsome
      exact ⟨h, fun _ => Option.isSome_iff_ne_none.2 hsome⟩
  refine Proc.wp_bind_of hproducer ?_ fun exc b' _ h' => ⟨h'.1, fun he => nomatch he⟩
  rintro u b' m ⟨h', hsome⟩
  obtain ⟨producer, hp⟩ := Option.isSome_iff_exists.1 (hsome rfl)
  rw [Proc.wp_get_bind, hp]
  simp only
  rw [Proc.wp_when]
  split
  · exact wp_part fun r s => ⟨h', fun _ => rfl⟩
  · exact ⟨h', fun _ => hsome rfl⟩

theorem wp_discardListenerAndProducer :
    Proc.wp Monitor.free discardListenerAndProducer (fun _ b' _ => b'.pipeline = none) b () := by
  unfold discardListenerAndProducer
  rw [Proc.wp_modify_bind]
  have hlistener : Proc.Preserves Monitor.free (fun (b : Bridge) _ => b.pipeline = none)
      discardListener := by
    intro b m h
    unfold discardListener
    rw [Proc.wp_get_bind]
    split
    · exact Proc.wp_bind_of (P := fun _ (b : Bridge) _ => b.pipeline = none)
        (Proc.wp_attempt.2 (wp_part fun _ _ => h)) (fun _ _ _ h => h) fun _ _ _ h => h
    · exact h
  have hproducer : Proc.Preserves Monitor.free (fun (b : Bridge) _ => b.pipeline = none)
      discardProducer := by
    intro b m h
    unfold discardProducer
    rw [Proc.wp_get_bind]
    split
    · exact Proc.wp_bind_of (P := fun _ (b : Bridge) _ => b.pipeline = none)
        (Proc.wp_attempt.2 (wp_part fun _ _ => h)) (fun _ _ _ h => h) fun _ _ _ h => h
    · exact h
  exact (hlistener.bind fun _ => hproducer) _ () rfl

theorem wp_bindPipeline (h : b.Half) (hproducer : b.producer.isSome = true) :
    Proc.wp Monitor.free bindPipeline (fun _ b' _ => b'.Bound) b () := by
  unfold bindPipeline
  rw [Proc.wp_get_bind]
  simp only
  rw [Proc.wp_modify_bind]
  split
  · exact bound_of_none h.1
  · rw [wp_raiseIf_bind]
    split
    · exact bound_of_none h.1
    rw [wp_raiseIf_bind]
    split
    · exact bound_of_none h.1
    · exact fun _ => session?_isSome_iff.2 ⟨h.2.2, h.2.1, hproducer, rfl⟩

theorem wp_buildPipeline (fuel : ℕ) (h : b.pipeline = none) :
    Proc.wp Monitor.free (buildPipeline fuel) (fun _ b' _ => b'.Bound) b () := by
  have hbuild : Proc.wp Monitor.free (do
      buildClient
      buildListener fuel
      buildProducer) (fun r b' _ => r = .ok () → b'.Half ∧ b'.producer.isSome = true) b () := by
    refine Proc.wp_bind_of (wp_buildClient h) ?_ fun exc b' _ _ he => nomatch he
    rintro u b₁ m ⟨h₁, hclient⟩
    refine Proc.wp_bind_of (wp_buildListener fuel h₁ (hclient rfl)) ?_ fun exc b' _ _ he => nomatch he
    rintro u b₂ m ⟨h₂, hboth⟩
    refine Proc.wp_mono (wp_buildProducer ⟨h₂, hboth rfl⟩) ?_
    exact fun r b' _ h' hr => ⟨h'.1, h'.2 hr⟩
  unfold buildPipeline
  refine Proc.wp_bind_of (P := fun r b' _ => (r = .ok () → b'.Half ∧ b'.producer.isSome = true) ∧
    ∀ exc, r = .error exc → b'.Bound) ?_ ?_ fun exc b' _ h' => h'.2 exc rfl
  · refine Proc.wp_tryCatch_of hbuild (fun u b' _ h' => ⟨h', fun exc he => nomatch he⟩) ?_
    intro exc b' m _
    have hdiscard := wp_discardListenerAndProducer (b := b')
    refine Proc.wp_bind_of hdiscard ?_ ?_
    · exact fun _ b'' _ h' => ⟨fun he => (nomatch he), fun _ _ => bound_of_none h'⟩
    · exact fun _ b'' _ h' => ⟨fun he => (nomatch he), fun _ _ => bound_of_none h'⟩
  · rintro u b' m ⟨hbuilt, -⟩
    obtain ⟨hhalf, hproducer⟩ := hbuilt rfl
    exact wp_bindPipeline hhalf hproducer

end Bound

end Bridge

end FdbKafkaBridge
