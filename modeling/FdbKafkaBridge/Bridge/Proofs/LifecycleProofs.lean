import FdbKafkaBridge.Bridge.Components

/-!
# The lifecycle of the components

Between the methods the listener and the producer that are held are the only ones that live, and a
pipeline is bound to both. Each part of a build keeps what lives and what is held in step, whatever
the components answer.
-/

namespace FdbKafkaBridge

open Interaction Parts

namespace PartsMark

variable {listener producer : Option Object} {s s' : Parts} {marks : List PartsMark}

section Reading

variable (listener producer) (marks)

@[simp] theorem liveListeners_start (i : LifecycleMethod) (s : Parts) :
    liveListeners listener (marks ++ [.start i s]) = liveListeners listener marks := by
  rw [liveListeners, List.foldl_concat]
  rfl

theorem liveListeners_event (e : Event PartCall.Answer) :
    liveListeners listener (marks ++ [.event e]) =
      liveListenersStep (liveListeners listener marks) (.event e) := by
  rw [liveListeners, List.foldl_concat]
  rfl

@[simp] theorem liveListeners_finish (i : LifecycleMethod) (r : Except PyExc Unit) (s : Parts) :
    liveListeners listener (marks ++ [.finish i r s]) = liveListeners listener marks := by
  rw [liveListeners, List.foldl_concat]
  rfl

@[simp] theorem liveProducers_start (i : LifecycleMethod) (s : Parts) :
    liveProducers producer (marks ++ [.start i s]) = liveProducers producer marks := by
  rw [liveProducers, List.foldl_concat]
  rfl

theorem liveProducers_event (e : Event PartCall.Answer) :
    liveProducers producer (marks ++ [.event e]) =
      liveProducersStep (liveProducers producer marks) (.event e) := by
  rw [liveProducers, List.foldl_concat]
  rfl

@[simp] theorem liveProducers_finish (i : LifecycleMethod) (r : Except PyExc Unit) (s : Parts) :
    liveProducers producer (marks ++ [.finish i r s]) = liveProducers producer marks := by
  rw [liveProducers, List.foldl_concat]
  rfl

@[simp] theorem outstanding_start (i : LifecycleMethod) (s : Parts) :
    outstanding (marks ++ [.start i s]) = false := by
  rw [outstanding, List.foldl_concat]
  rfl

theorem outstanding_event (e : Event PartCall.Answer) :
    outstanding (marks ++ [.event e]) = outstandingStep (outstanding marks) (.event e) := by
  rw [outstanding, List.foldl_concat]
  rfl

end Reading

/-- What lives is what is held. `outstanding` is the last answer of the pipeline in the method that
runs, and `opened` the opening of that method. -/
structure Held (listener producer : Option Object) (o : Bool)
    (opened : Option (List PartsMark × Parts)) (s : Parts) (marks : List PartsMark) : Prop where
  listeners : liveListeners listener marks = s.listener.toList
  producers : liveProducers producer marks = s.producer.toList
  outstanding : outstanding marks = o
  opening : opening marks = opened

variable {o : Bool} {opened : Option (List PartsMark × Parts)}

/-- A call that neither constructs nor closes a listener or a producer. -/
def isOther : PartCall → Bool
  | .newListener _ => false
  | .closeListener _ => false
  | .newProducer => false
  | .closeProducer .. => false
  | .commitOutstanding _ => false
  | _ => true

theorem Held.other (h : Held listener producer o opened s marks) {c : PartCall}
    (hc : isOther c = true) (r : c.Answer) :
    LifecycleMark listener producer marks (.event ⟨c, r⟩) ∧
      Held listener producer o opened s (marks ++ [.event ⟨c, r⟩]) := by
  have hmark : LifecycleMark listener producer marks (.event ⟨c, r⟩) := by
    cases c <;> trivial
  have hlisteners : liveListenersStep (liveListeners listener marks) (.event ⟨c, r⟩) =
      liveListeners listener marks := by
    cases c <;> first | rfl | cases hc
  have hproducers : liveProducersStep (liveProducers producer marks) (.event ⟨c, r⟩) =
      liveProducers producer marks := by
    cases c <;> first | rfl | cases hc
  have houtstanding : outstandingStep (PartsMark.outstanding marks) (.event ⟨c, r⟩) =
      PartsMark.outstanding marks := by
    cases c <;> first | rfl | cases hc
  refine ⟨hmark, ?_, ?_, ?_, ?_⟩
  · rw [liveListeners_event, hlisteners, h.listeners]
  · rw [liveProducers_event, hproducers, h.producers]
  · rw [outstanding_event, houtstanding, h.outstanding]
  · rw [opening_event, h.opening]

/-- Only the listener and the producer matter. -/
theorem Held.congr (h : Held listener producer o opened s marks)
    (hlistener : s'.listener = s.listener) (hproducer : s'.producer = s.producer) :
    Held listener producer o opened s' marks :=
  ⟨hlistener ▸ h.listeners, hproducer ▸ h.producers, h.outstanding, h.opening⟩

/-- A listener is constructed. -/
theorem Held.newListener (h : Held listener producer o opened s marks) (hnone : s.listener = none)
    (client : Object) (r : Except PyExc Object) :
    LifecycleMark listener producer marks (.event ⟨.newListener client, r⟩) ∧
      Held listener producer o opened (setListener r.toOption s)
        (marks ++ [.event ⟨.newListener client, r⟩]) := by
  have hlive : liveListeners listener marks = [] := by
    rw [h.listeners, hnone]
    rfl
  refine ⟨hlive, ?_, ?_, ?_, ?_⟩
  · rw [liveListeners_event, hlive]
    cases r <;> rfl
  · rw [liveProducers_event]
    exact h.producers
  · rw [outstanding_event]
    exact h.outstanding
  · rw [opening_event, h.opening]

theorem Held.newProducer (h : Held listener producer o opened s marks) (hnone : s.producer = none)
    (r : Except PyExc Object) :
    LifecycleMark listener producer marks (.event ⟨.newProducer, r⟩) ∧
      Held listener producer o opened (setProducer r.toOption s)
        (marks ++ [.event ⟨.newProducer, r⟩]) := by
  have hlive : liveProducers producer marks = [] := by
    rw [h.producers, hnone]
    rfl
  refine ⟨hlive, ?_, ?_, ?_, ?_⟩
  · rw [liveListeners_event]
    exact h.listeners
  · rw [liveProducers_event, hlive]
    cases r <;> rfl
  · rw [outstanding_event]
    exact h.outstanding
  · rw [opening_event, h.opening]

/-- The listener that is held is closed. -/
theorem Held.closeListener (h : Held listener producer o opened s marks) {l : Object}
    (hl : s.listener = some l) (r : Except PyExc Unit) :
    Held listener producer o opened (setListener none s)
      (marks ++ [.event ⟨.closeListener l, r⟩]) := by
  refine ⟨?_, ?_, ?_, ?_⟩
  · rw [liveListeners_event, h.listeners, hl]
    show List.filter (· ≠ l) [l] = []
    simp
  · rw [liveProducers_event]
    exact h.producers
  · rw [outstanding_event]
    exact h.outstanding
  · rw [opening_event, h.opening]

theorem Held.closeProducer (h : Held listener producer o opened s marks) {p : Object}
    (hp : s.producer = some p) (timeout : ℚ) (r : Except PyExc Unit) :
    Held listener producer o opened (setProducer none s)
      (marks ++ [.event ⟨.closeProducer p timeout, r⟩]) := by
  refine ⟨?_, ?_, ?_, ?_⟩
  · rw [liveListeners_event]
    exact h.listeners
  · rw [liveProducers_event, h.producers, hp]
    show List.filter (· ≠ p) [p] = []
    simp
  · rw [outstanding_event]
    exact h.outstanding
  · rw [opening_event, h.opening]

/-! ## Rules -/

theorem wp_ask {c : PartCall} {Q : Except PyExc c.Answer → Parts → List PartsMark → Prop}
    (h : ∀ r, LifecycleMark listener producer marks (.event ⟨c, r⟩) ∧
      Q (.ok r) s (marks ++ [.event ⟨c, r⟩])) :
    Proc.wp (recorder (LifecycleMark listener producer)) (ask c) Q s marks := fun r =>
  ⟨_, recorder_next.2 ⟨(h r).1, rfl⟩, (h r).2⟩

/-- A call whose exceptions are raised. -/
def raised {α : Type} (Q : Except PyExc α → Parts → List PartsMark → Prop) :
    Except PyExc (Except PyExc α) → Parts → List PartsMark → Prop
  | .ok r => Q r
  | .error exc => Q (.error exc)

theorem wp_orRaise {α : Type} {p : PartsM (Except PyExc α)}
    {Q : Except PyExc α → Parts → List PartsMark → Prop}
    (h : Proc.wp (recorder (LifecycleMark listener producer)) p (raised Q) s marks) :
    Proc.wp (recorder (LifecycleMark listener producer)) (orRaise p) Q s marks := by
  refine Proc.wp_bind_of h ?_ fun _ _ _ h => h
  rintro (exc | a) s' m' h'
  · exact h'
  · exact h'

theorem wp_other {c : PartCall} (hc : isOther c = true)
    {Q : Except PyExc c.Answer → Parts → List PartsMark → Prop}
    (h : Held listener producer o opened s marks)
    (hQ : ∀ r marks, Held listener producer o opened s marks → Q (.ok r) s marks) :
    Proc.wp (recorder (LifecycleMark listener producer)) (ask c) Q s marks :=
  wp_ask fun r => ⟨(h.other hc r).1, hQ r _ (h.other hc r).2⟩

/-- A call that changes nothing in what is held, and may raise. -/
theorem wp_orRaise_bind {α β : Type} {p : PartsM (Except PyExc α)} {f : α → PartsM β}
    {Q : Except PyExc β → Parts → List PartsMark → Prop}
    (hp : Proc.wp (recorder (LifecycleMark listener producer)) p
      (fun r s' marks' => (∃ r', r = .ok r') ∧ s' = s ∧
        Held listener producer o opened s marks') s marks)
    (hok : ∀ a marks', Held listener producer o opened s marks' →
      Proc.wp (recorder (LifecycleMark listener producer)) (f a) Q s marks')
    (herror : ∀ exc marks', Held listener producer o opened s marks' → Q (.error exc) s marks') :
    Proc.wp (recorder (LifecycleMark listener producer)) (orRaise p >>= f) Q s marks := by
  refine Proc.wp_bind_of (P := fun _ s' marks' => s' = s ∧ Held listener producer o opened s marks')
    (wp_orRaise (Proc.wp_mono hp ?_)) ?_ ?_
  · rintro _ s' marks' ⟨⟨r, rfl⟩, h⟩
    cases r <;> exact h
  · rintro a s' marks' ⟨rfl, h⟩
    exact hok a marks' h
  · rintro exc s' marks' ⟨rfl, h⟩
    exact herror exc marks' h

/-! ## Building -/

theorem wp_buildClient (h : Held listener producer o opened s marks) :
    Proc.wp (recorder (LifecycleMark listener producer)) buildClient
      (fun r s' marks' => Held listener producer o opened s' marks' ∧
        s' = setClient s'.client s ∧ (r = .ok () → s'.client.isSome)) s marks := by
  unfold buildClient
  rw [Proc.wp_get_bind]
  cases hclient : s.client with
  | some client => exact ⟨h, rfl, fun _ => Option.isSome_of_mem hclient⟩
  | none =>
    refine wp_orRaise_bind (wp_other rfl h fun r _ h' => ⟨⟨r, rfl⟩, rfl, h'⟩) ?_ ?_
    · intro client marks₁ h₁
      refine wp_orRaise_bind (wp_other rfl h₁ fun r _ h' => ⟨⟨r, rfl⟩, rfl, h'⟩) ?_ ?_
      · exact fun _ marks₂ h₂ => ⟨h₂.congr rfl rfl, rfl, fun _ => rfl⟩
      · exact fun exc marks₂ h₂ => ⟨h₂, rfl, fun h => nomatch h⟩
    · exact fun exc marks₁ h₁ => ⟨h₁, rfl, fun h => nomatch h⟩

/-- With a listener the name can be encoded: one was injected, or one was constructed. -/
def Named (config : BridgeConfig) (s : Parts) : Prop :=
  config.streamName.encode?.isSome ∨ s.listener = none

theorem wp_buildListener {config : BridgeConfig} (h : Held listener producer o opened s marks)
    (hclient : s.client.isSome) (hnamed : Named config s) :
    Proc.wp (recorder (LifecycleMark listener producer)) (buildListener config)
      (fun r s' marks' => Held listener producer o opened s' marks' ∧
        s' = setListener s'.listener s ∧
        (r = .ok () → s'.listener.isSome ∧ config.streamName.encode?.isSome)) s marks := by
  unfold buildListener
  rw [Proc.wp_get_bind]
  obtain ⟨client, hclient⟩ := Option.isSome_iff_exists.1 hclient
  cases hlistener : s.listener with
  | some l =>
    have hencode : config.streamName.encode?.isSome :=
      hnamed.resolve_right (by rw [hlistener]; exact Option.some_ne_none l)
    rw [hclient]
    exact ⟨h, rfl, fun _ => ⟨Option.isSome_of_mem hlistener, hencode⟩⟩
  | none =>
    rw [hclient]
    refine wp_orRaise_bind (wp_other rfl h fun r _ h' => ⟨⟨r, rfl⟩, rfl, h'⟩) ?_ ?_
    · intro _ marks₁ h₁
      unfold newListener
      cases hencode : config.streamName.encode? with
      | none => exact ⟨h₁, rfl, fun h => nomatch h⟩
      | some raw =>
        refine Proc.wp_bind_of (P := fun r s' marks' => s' = s ∧
          Held listener producer o opened (setListener r.toOption s) marks')
          (wp_orRaise (wp_ask fun r => ⟨(h₁.newListener hlistener client r).1, ?_⟩)) ?_ ?_
        · have h₂ := (h₁.newListener hlistener client r).2
          cases r <;> exact ⟨rfl, h₂⟩
        · rintro l s₂ marks₂ ⟨rfl, h₂⟩
          rw [Proc.wp_modify_bind]
          refine wp_orRaise (wp_other rfl h₂ fun r marks₃ h₃ => ?_)
          cases r with
          | error exc => exact ⟨h₃, rfl, fun h => nomatch h⟩
          | ok _ => exact ⟨h₃, rfl, fun _ => ⟨rfl, rfl⟩⟩
        · rintro exc s₂ marks₂ ⟨rfl, h₂⟩
          exact ⟨h₂.congr hlistener rfl, rfl, fun h => nomatch h⟩
    · exact fun exc marks₁ h₁ => ⟨h₁, rfl, fun h => nomatch h⟩

/-- What follows once a producer is there. -/
theorem wp_initProducer (p : Object) (h : Held listener producer o opened (setProducer (some p) s)
      marks) :
    Proc.wp (recorder (LifecycleMark listener producer)) (do
      match (← get).producer with
      | some producer =>
        let transactional : Bool ← ask (.isTransactional producer)
        Proc.when transactional (orRaise (ask (.initTransactions producer)))
      | none => return : PartsM Unit)
    (fun r s' marks' => Held listener producer o opened s' marks' ∧
      s' = setProducer s'.producer s ∧ (r = .ok () → s'.producer.isSome))
    (setProducer (some p) s) marks := by
  rw [Proc.wp_get_bind]
  refine Proc.wp_bind.2 (wp_other rfl h fun transactional marks₂ h₂ => ?_)
  rw [Proc.andThen, Proc.wp_when]
  split
  · refine wp_orRaise (wp_other rfl h₂ fun r marks₃ h₃ => ?_)
    cases r <;> exact ⟨h₃, rfl, fun _ => rfl⟩
  · exact ⟨h₂, rfl, fun _ => rfl⟩

theorem wp_buildProducer (h : Held listener producer o opened s marks) :
    Proc.wp (recorder (LifecycleMark listener producer)) buildProducer
      (fun r s' marks' => Held listener producer o opened s' marks' ∧
        s' = setProducer s'.producer s ∧ (r = .ok () → s'.producer.isSome)) s marks := by
  unfold buildProducer
  rw [Proc.wp_get_bind]
  cases hproducer : s.producer with
  | some p =>
    rw [Proc.wp_bind]
    have hsame : setProducer (some p) s = s := by rw [setProducer, ← hproducer]
    have hinit := wp_initProducer (s := s) p (hsame ▸ h)
    rw [hsame] at hinit
    exact hinit
  | none =>
    refine Proc.wp_bind_of (P := fun r s' marks' => s' = s ∧
      Held listener producer o opened (setProducer r.toOption s) marks')
      (wp_orRaise (wp_ask fun r => ⟨(h.newProducer hproducer r).1, ?_⟩)) ?_ ?_
    · have h₁ := (h.newProducer hproducer r).2
      cases r <;> exact ⟨rfl, h₁⟩
    · rintro p s₁ marks₁ ⟨rfl, h₁⟩
      exact wp_initProducer p h₁
    · rintro exc s₁ marks₁ ⟨rfl, h₁⟩
      exact ⟨h₁.congr rfl hproducer, rfl, fun h => nomatch h⟩

/-- Without a pipeline the listener and the producer are closed and unset. -/
theorem wp_discardListenerAndProducer (config : BridgeConfig)
    (h : Held listener producer o opened s marks) :
    Proc.wp (recorder (LifecycleMark listener producer)) (discardListenerAndProducer config)
      (fun r s' marks' => r = .ok () ∧ Held listener producer o opened s' marks' ∧
        AllUnset s' ∧ s'.client = s.client) s marks := by
  unfold discardListenerAndProducer
  rw [Proc.wp_modify_bind]
  have h₀ : Held listener producer o opened { s with pipeline := none, countingListener := none }
      marks := h.congr rfl rfl
  refine Proc.wp_bind_of (P := fun r s' marks' => r = .ok () ∧
    Held listener producer o opened s' marks' ∧
      s'.pipeline = none ∧ s'.listener = none ∧ s'.client = s.client) ?_ ?_ ?_
  · unfold discardListener
    rw [Proc.wp_get_bind]
    cases hlistener : s.listener with
    | none => exact ⟨rfl, h₀.congr hlistener.symm rfl, rfl, rfl, rfl⟩
    | some l => exact Proc.wp_bind.2 (wp_ask fun r =>
        ⟨trivial, rfl, h₀.closeListener hlistener r, rfl, rfl, rfl⟩)
  · rintro _ s₁ marks₁ ⟨-, h₁, hpipeline, hlistener, hclient⟩
    unfold discardProducer
    rw [Proc.wp_get_bind]
    cases hproducer : s₁.producer with
    | none => exact ⟨rfl, h₁, ⟨hpipeline, hlistener, hproducer⟩, hclient⟩
    | some p => exact Proc.wp_bind.2 (wp_ask fun r =>
        ⟨trivial, rfl, h₁.closeProducer hproducer _ r, ⟨hpipeline, hlistener, rfl⟩, hclient⟩)
  · rintro exc s₁ marks₁ ⟨hexc, -⟩
    cases hexc

/-- The pipeline is bound to what was built. -/
theorem wp_bindPipeline {config : BridgeConfig} (haccepted : config.Accepted)
    (hencode : config.streamName.encode?.isSome) (h : Held listener producer o opened s marks)
    (hlistener : s.listener.isSome) (hproducer : s.producer.isSome) :
    Proc.wp (recorder (LifecycleMark listener producer)) (bindPipeline config)
      (fun r s' marks' => r = .ok () ∧ Held listener producer o opened s' marks' ∧ AllSet s')
      s marks := by
  obtain ⟨raw, hraw⟩ := Option.isSome_iff_exists.1 hencode
  obtain ⟨l, hl⟩ := Option.isSome_iff_exists.1 hlistener
  obtain ⟨p, hp⟩ := Option.isSome_iff_exists.1 hproducer
  have hpos := haccepted.flushTimeoutSeconds
  unfold bindPipeline
  rw [Proc.wp_modify_bind, hraw]
  simp only
  rw [Proc.wp_bind, Proc.wp_when, if_neg (by simpa using hpos.le), Proc.andThen, Proc.wp_bind,
    Proc.wp_when, if_neg (by simpa using hpos), Proc.andThen, Proc.wp_modify]
  simp only [hl, hp]
  exact ⟨trivial, h.congr hl.symm hp.symm, ⟨l, p⟩, rfl, rfl, rfl⟩

/-- A build sets everything, or leaves everything unset. -/
def Built (config : BridgeConfig) (s : Parts) : Except PyExc Unit → Prop
  | .ok _ => AllSet s ∧ config.streamName.encode?.isSome
  | .error _ => AllUnset s

theorem wp_buildPipeline {config : BridgeConfig} (haccepted : config.Accepted)
    (hnamed : Named config s) (h : Held listener producer o opened s marks) :
    Proc.wp (recorder (LifecycleMark listener producer)) (buildPipeline config)
      (fun r s' marks' => Held listener producer o opened s' marks' ∧ Built config s' r) s marks := by
  unfold buildPipeline
  refine Proc.wp_bind_of (P := fun r s' marks' => Held listener producer o opened s' marks' ∧
    match r with
    | .ok _ => s'.listener.isSome ∧ s'.producer.isSome ∧ config.streamName.encode?.isSome
    | .error _ => AllUnset s') ?_ ?_ ?_
  · refine Proc.wp_tryCatch_of (P := fun r s' marks' =>
      Held listener producer o opened s' marks' ∧ (r = .ok () →
        s'.listener.isSome ∧ s'.producer.isSome ∧ config.streamName.encode?.isSome)) ?_ ?_ ?_
    · refine Proc.wp_bind_of (wp_buildClient h) ?_ ?_
      · rintro _ s₁ marks₁ ⟨h₁, hs₁, hclient⟩
        have hnamed₁ : Named config s₁ := by
          rw [hs₁]
          exact hnamed
        refine Proc.wp_bind_of (wp_buildListener h₁ (hclient rfl) hnamed₁) ?_ ?_
        · rintro _ s₂ marks₂ ⟨h₂, hs₂, hlistener⟩
          refine Proc.wp_mono (wp_buildProducer h₂) ?_
          rintro r s₃ marks₃ ⟨h₃, hs₃, hproducer⟩
          refine ⟨h₃, fun hr => ⟨?_, hproducer hr, (hlistener rfl).2⟩⟩
          rw [hs₃]
          exact (hlistener rfl).1
        · rintro exc s₂ marks₂ ⟨h₂, -⟩
          exact ⟨h₂, fun h => nomatch h⟩
      · rintro exc s₁ marks₁ ⟨h₁, -⟩
        exact ⟨h₁, fun h => nomatch h⟩
    · exact fun _ _ _ h₁ => ⟨h₁.1, h₁.2 rfl⟩
    · rintro exc s₁ marks₁ ⟨h₁, -⟩
      refine Proc.wp_bind_of (wp_discardListenerAndProducer config h₁) ?_ ?_
      · exact fun _ _ _ h₂ => ⟨h₂.2.1, h₂.2.2.1⟩
      · exact fun _ _ _ h₂ => nomatch h₂.1
  · rintro _ s₁ marks₁ ⟨h₁, hlistener, hproducer, hencode⟩
    refine Proc.wp_mono (wp_bindPipeline haccepted hencode h₁ hlistener hproducer) ?_
    rintro _ s₂ marks₂ ⟨rfl, h₂, hset⟩
    exact ⟨h₂, hset, hencode⟩
  · exact fun _ _ _ h₁ => h₁

/-! ## The methods -/

/-- Between the methods. -/
structure Resting (config : BridgeConfig) (listener producer : Option Object) (s : Parts)
    (marks : List PartsMark) : Prop where
  listeners : liveListeners listener marks = s.listener.toList
  producers : liveProducers producer marks = s.producer.toList
  bound : s.pipeline ≠ none → AllSet s
  named : Named config s

variable {config : BridgeConfig}

theorem Resting.start (h : Resting config listener producer s marks) (i : LifecycleMethod) :
    Held listener producer false (some (marks, s)) s (marks ++ [.start i s]) := by
  refine ⟨?_, ?_, outstanding_start _ _ _, opening_start _ _ _⟩
  · rw [liveListeners_start, h.listeners]
  · rw [liveProducers_start, h.producers]

theorem Held.finish (h : Held listener producer o opened s marks)
    (hbound : s.pipeline ≠ none → AllSet s) (hnamed : Named config s) (i : LifecycleMethod)
    (r : Except PyExc Unit) :
    Resting config listener producer s (marks ++ [.finish i r s]) := by
  refine ⟨?_, ?_, hbound, hnamed⟩
  · rw [liveListeners_finish, h.listeners]
  · rw [liveProducers_finish, h.producers]

theorem AllUnset.bound (h : AllUnset s) : s.pipeline ≠ none → AllSet s :=
  fun hpipeline => absurd h.1 hpipeline

theorem AllUnset.named (h : AllUnset s) : Named config s := .inr h.2.1

theorem Built.bound {r : Except PyExc Unit} (h : Built config s r) :
    s.pipeline ≠ none → AllSet s := by
  cases r with
  | ok _ => exact fun _ => h.1
  | error _ => exact AllUnset.bound h

theorem Built.named {r : Except PyExc Unit} (h : Built config s r) : Named config s := by
  cases r with
  | ok _ => exact .inl h.2
  | error _ => exact AllUnset.named h

theorem Accepted.streamName_ne (haccepted : config.Accepted) :
    config.streamName.isEmpty = false := by
  have hblank := haccepted.streamName
  cases hstream : config.streamName with
  | nil =>
    rw [hstream] at hblank
    cases hblank
  | cons => rfl

theorem methodKeeps_start (haccepted : config.Accepted) :
    MethodKeeps (LifecycleMark listener producer) (Resting config listener producer)
      (perform config) .start := by
  intro s marks h
  refine ⟨trivial, ?_⟩
  have hheld := h.start .start
  show Proc.wp _ (Parts.start config) _ s _
  unfold Parts.start
  rw [Proc.wp_get_bind]
  split
  · rename_i hpipeline
    have hbound := h.bound (Option.isSome_iff_ne_none.1 hpipeline)
    exact ⟨⟨hheld.listeners, hheld.producers, hbound⟩, hheld.finish h.bound h.named _ _⟩
  · have hname := Accepted.streamName_ne haccepted
    rw [Proc.wp_bind, Proc.wp_when, if_neg (by simp [hname]), Proc.andThen]
    refine Proc.wp_mono (wp_buildPipeline haccepted h.named hheld) ?_
    rintro r s' marks' ⟨h', hbuilt⟩
    refine ⟨⟨h'.listeners, h'.producers, ?_⟩, h'.finish hbuilt.bound hbuilt.named _ _⟩
    cases r with
    | ok _ => exact hbuilt.1
    | error _ => exact hbuilt

/-- The pipeline is asked for an outstanding commit. -/
theorem Held.asked (h : Held listener producer o opened s marks) (p : BoundPipeline) (r : Bool) :
    Held listener producer r opened s (marks ++ [.event ⟨.commitOutstanding p, r⟩]) := by
  refine ⟨?_, ?_, ?_, ?_⟩
  · rw [liveListeners_event]
    exact h.listeners
  · rw [liveProducers_event]
    exact h.producers
  · rw [outstanding_event]
    rfl
  · rw [opening_event, h.opening]

theorem methodKeeps_rebuild (haccepted : config.Accepted) :
    MethodKeeps (LifecycleMark listener producer) (Resting config listener producer)
      (perform config) .rebuild := by
  intro s marks h
  refine ⟨trivial, ?_⟩
  have hheld := h.start .rebuild
  show Proc.wp _ (rebuildPipeline config) _ s _
  unfold rebuildPipeline
  -- an outstanding commit leaves everything as it is
  refine Proc.wp_bind_of (P := fun r s' marks' => s' = s ∧ ∃ answer, r = .ok answer ∧
    Held listener producer answer (some (marks, s)) s marks' ∧
      (answer = true → s.pipeline ≠ none)) ?_ ?_ ?_
  · unfold isOutstanding
    rw [Proc.wp_get_bind]
    cases hpipeline : s.pipeline with
    | none => exact ⟨rfl, false, rfl, hheld, fun h => nomatch h⟩
    | some p => exact wp_ask fun r =>
        ⟨trivial, rfl, r, rfl, hheld.asked p r, fun _ => Option.some_ne_none p⟩
  · rintro answer s₁ marks₁ ⟨rfl, answer', hanswer, h₁, hpipeline⟩
    obtain rfl := Except.ok.inj hanswer
    split
    · rename_i htrue
      have hset := h.bound (hpipeline htrue)
      exact ⟨⟨h₁.listeners, h₁.producers, hset, fun _ => ⟨marks, h₁.opening⟩⟩,
        h₁.finish h.bound h.named _ _⟩
    · rename_i hfalse
      refine Proc.wp_bind_of (wp_discardListenerAndProducer config h₁) ?_ ?_
      · rintro _ s₂ marks₂ ⟨-, h₂, hunset, -⟩
        refine Proc.wp_mono (wp_buildPipeline haccepted hunset.named h₂) ?_
        rintro r s' marks' ⟨h', hbuilt⟩
        refine ⟨⟨h'.listeners, h'.producers, ?_⟩, h'.finish hbuilt.bound hbuilt.named _ _⟩
        cases r with
        | ok _ => exact ⟨hbuilt.1, fun htrue => absurd (h'.outstanding.symm.trans htrue) hfalse⟩
        | error _ => exact hbuilt
      · exact fun _ _ _ h₂ => nomatch h₂.1
  · rintro exc s₁ marks₁ ⟨-, answer, hexc, -⟩
    cases hexc

/-! ## Stopping -/

theorem wp_finishCommitLoop (p : BoundPipeline) (deadline : ℚ) (iterations : ℕ)
    (h : Held listener producer o opened s marks) :
    Proc.wp (recorder (LifecycleMark listener producer)) (finishCommitLoop p deadline iterations)
      (fun r s' marks' => r = .ok () ∧ s' = s ∧ ∃ o, Held listener producer o opened s marks')
      s marks := by
  induction iterations generalizing o marks with
  | zero => exact Proc.wp_hang
  | succ n ih =>
    unfold finishCommitLoop
    refine Proc.wp_bind.2 (wp_ask fun answer => ⟨trivial, ?_⟩)
    have h₁ := h.asked p answer
    rw [Proc.andThen]
    split
    · refine Proc.wp_bind.2 (wp_other rfl h₁ fun now marks₂ h₂ => ?_)
      rw [Proc.andThen]
      split
      · refine Proc.wp_bind.2 (wp_other rfl h₂ fun r marks₃ h₃ => ?_)
        rw [Proc.andThen]
        cases r with
        | ok _ => exact ih h₃
        | error _ => exact ⟨rfl, rfl, _, h₃⟩
      · exact ⟨rfl, rfl, _, h₂⟩
    · exact ⟨rfl, rfl, _, h₁⟩

/-- A program for an object that may not be there, and then the rest. -/
theorem wp_runAll_toList {object : Option Object} {f : Object → PartsM Unit}
    {rest : List (PartsM Unit)} {Q : Except PyExc Unit → Parts → List PartsMark → Prop}
    (hnone : object = none → ∀ first,
      Proc.wp (recorder (LifecycleMark listener producer)) (Proc.runAll rest first) Q s marks)
    (hsome : ∀ a, object = some a → Proc.wp (recorder (LifecycleMark listener producer)) (f a)
      (fun _ s' marks' => ∀ first,
        Proc.wp (recorder (LifecycleMark listener producer)) (Proc.runAll rest first) Q s' marks')
      s marks) (first : Option PyExc) :
    Proc.wp (recorder (LifecycleMark listener producer))
      (Proc.runAll ((object.map f).toList ++ rest) first) Q s marks := by
  cases object with
  | none => exact hnone rfl first
  | some a =>
    refine Proc.wp_bind.2 (Proc.wp_attempt.2 (Proc.wp_mono (hsome a rfl) ?_))
    rintro (exc | _) s' marks' h
    · exact h _
    · exact h _

theorem wp_runAll_nil {Q : Except PyExc Unit → Parts → List PartsMark → Prop}
    (h : ∀ r, Q r s marks) (first : Option PyExc) :
    Proc.wp (recorder (LifecycleMark listener producer)) (Proc.runAll [] first) Q s marks := by
  cases first with
  | none => exact h _
  | some exc => exact h _

/-- Every close is attempted, so that nothing lives. -/
theorem wp_closes (h : Held listener producer o opened s marks) :
    Proc.wp (recorder (LifecycleMark listener producer))
      (do
        modify fun _ => unset
        Proc.runAll (closes config s) none)
      (fun _ s' marks' => AllUnset s' ∧ Held listener producer o opened s' marks') s marks := by
  rw [Proc.wp_modify_bind]
  unfold closes
  rw [List.append_assoc, ← List.append_nil (s.client.map _).toList]
  have hdone : ∀ {s₂ : Parts} {marks₂}, Held listener producer o opened s₂ marks₂ →
      s₂.listener = none → s₂.producer = none → AllUnset unset ∧
        Held listener producer o opened unset marks₂ :=
    fun h₂ hlistener hproducer => ⟨⟨rfl, rfl, rfl⟩, h₂.congr hlistener.symm hproducer.symm⟩
  have hclient : ∀ {s₂ : Parts} {marks₂}, Held listener producer o opened s₂ marks₂ →
      s₂.listener = none → s₂.producer = none → ∀ first,
      Proc.wp (recorder (LifecycleMark listener producer))
        (Proc.runAll ((s.client.map fun c => orRaise (ask (.closeClient c))).toList ++ []) first)
        (fun _ s' marks' => AllUnset s' ∧ Held listener producer o opened s' marks')
        unset marks₂ := by
    intro s₂ marks₂ h₂ hlistener hproducer
    refine wp_runAll_toList (fun _ => wp_runAll_nil fun _ => hdone h₂ hlistener hproducer) ?_
    intro c _
    refine wp_orRaise (wp_ask fun r => ⟨(h₂.other rfl r).1, ?_⟩)
    have h₃ := (h₂.other rfl r).2
    cases r <;> exact wp_runAll_nil fun _ => hdone h₃ hlistener hproducer
  have hlistener : ∀ {s₁ : Parts} {marks₁}, Held listener producer o opened s₁ marks₁ →
      s₁.listener = s.listener → s₁.producer = none → ∀ first,
      Proc.wp (recorder (LifecycleMark listener producer))
        (Proc.runAll ((s.listener.map fun l => orRaise (ask (.closeListener l))).toList ++
          ((s.client.map fun c => orRaise (ask (.closeClient c))).toList ++ [])) first)
        (fun _ s' marks' => AllUnset s' ∧ Held listener producer o opened s' marks')
        unset marks₁ := by
    intro s₁ marks₁ h₁ hsame hproducer
    refine wp_runAll_toList (fun hnone => hclient h₁ (hsame.trans hnone) hproducer) ?_
    intro l hl
    refine wp_orRaise (wp_ask fun r => ⟨trivial, ?_⟩)
    have h₂ := h₁.closeListener (hsame.trans hl) r
    cases r <;> exact hclient h₂ rfl hproducer
  refine wp_runAll_toList (fun hnone => hlistener h rfl hnone) ?_ none
  intro p hp
  refine wp_orRaise (wp_ask fun r => ⟨trivial, ?_⟩)
  have h₁ := h.closeProducer hp config.shutdownTimeoutSeconds r
  cases r <;> exact hlistener h₁ rfl rfl

theorem methodKeeps_stop (iterations : ℕ) :
    MethodKeeps (LifecycleMark listener producer) (Resting config listener producer)
      (perform config) (.stop iterations) := by
  intro s marks h
  refine ⟨trivial, ?_⟩
  show Proc.wp _ (Parts.stop config iterations) _ s _
  unfold Parts.stop
  refine Proc.wp_bind.2 (wp_other rfl (h.start _) fun _ marks₁ h₁ => ?_)
  rw [Proc.andThen]
  refine Proc.wp_bind_of (P := fun r s' marks' => r = .ok () ∧ s' = s ∧
    ∃ o, Held listener producer o (some (marks, s)) s marks') ?_ ?_ ?_
  · unfold finishOutstandingCommit
    rw [Proc.wp_get_bind]
    split
    · refine Proc.wp_bind.2 (wp_other rfl h₁ fun now marks₂ h₂ => ?_)
      exact wp_finishCommitLoop _ _ iterations h₂
    · exact ⟨rfl, rfl, false, h₁⟩
  · rintro _ s₂ marks₂ ⟨-, rfl, o, h₂⟩
    rw [Proc.wp_get_bind]
    refine Proc.wp_mono (wp_closes h₂) ?_
    rintro r s' marks' ⟨hunset, h'⟩
    exact ⟨⟨h'.listeners, h'.producers, hunset⟩, h'.finish hunset.bound hunset.named _ _⟩
  · rintro exc s₂ marks₂ ⟨hexc, -⟩
    cases hexc

theorem perform_keeps (haccepted : config.Accepted) (i : LifecycleMethod) :
    MethodKeeps (LifecycleMark listener producer) (Resting config listener producer)
      (perform config) i := by
  cases i with
  | start => exact methodKeeps_start haccepted
  | rebuild => exact methodKeeps_rebuild haccepted
  | stop iterations => exact methodKeeps_stop iterations

/-! ## Names that cannot be encoded -/

theorem buildClient_returns (s : Parts) :
    ∃ tr client, (buildClient s).Returns tr (.ok (), setClient (some client) s) := by
  cases hclient : s.client with
  | some client =>
    have hsame : setClient (some client) s = s := by rw [setClient, ← hclient]
    refine ⟨[], client, ?_⟩
    rw [hsame, buildClient, Proc.returns_get_bind, hclient]
    exact .here _
  | none =>
    refine ⟨[⟨.newClient, .ok 0⟩, ⟨.openClient 0, .ok ()⟩], 0, ?_⟩
    rw [buildClient, Proc.returns_get_bind, hclient]
    exact .step _ (.step _ (.here _))

theorem buildProducer_returns (s : Parts) :
    ∃ tr p, (buildProducer s).Returns tr (.ok (), setProducer (some p) s) := by
  cases hproducer : s.producer with
  | some p =>
    have hsame : setProducer (some p) s = s := by rw [setProducer, ← hproducer]
    refine ⟨[⟨.isTransactional p, false⟩], p, ?_⟩
    rw [hsame, buildProducer, Proc.returns_get_bind, hproducer]
    dsimp only
    rw [Proc.returns_get_bind, hproducer]
    exact .step _ (.here _)
  | none =>
    refine ⟨[⟨.newProducer, .ok 0⟩, ⟨.isTransactional 0, false⟩], 0, ?_⟩
    rw [buildProducer, Proc.returns_get_bind, hproducer]
    exact .step _ (.step _ (.here _))

theorem start_eq (hstream : config.streamName.isEmpty = false) (hpipeline : s.pipeline = none) :
    Parts.start config s = buildPipeline config s := by
  show (if s.pipeline.isSome then (pure () : PartsM Unit) else _) s = _
  rw [hpipeline, if_neg (by simp)]
  show (Proc.bind (Proc.when config.streamName.isEmpty _) _) s = _
  rw [hstream]
  rfl

/-- With a listener that was injected, `start` raises after the `try`. -/
theorem start_returns (hstream : config.streamName.isEmpty = false)
    (hencode : config.streamName.encode? = none) (client : Option Object) (l : Object)
    (producer : Option Object) :
    ∃ tr exc s, (Parts.start config (Parts.new client (some l) producer)).Returns tr
      (.error exc, s) ∧ s.listener = some l := by
  obtain ⟨tr, c, hclient⟩ := buildClient_returns (Parts.new client (some l) producer)
  have hlistener : (buildListener config (Parts.new (some c) (some l) producer)).Returns []
      (.ok (), Parts.new (some c) (some l) producer) := .here _
  obtain ⟨tr', p, hproducer⟩ := buildProducer_returns (Parts.new (some c) (some l) producer)
  have hparts : ((do
      buildClient
      buildListener config
      buildProducer : PartsM Unit) (Parts.new client (some l) producer)).Returns (tr ++ ([] ++ tr'))
      (.ok (), Parts.new (some c) (some l) (some p)) :=
    Proc.returns_bind hclient (Proc.returns_bind hlistener hproducer)
  have hbind : (bindPipeline config (Parts.new (some c) (some l) (some p))).Returns []
      (.error (.valueError "surrogates not allowed"),
        { Parts.new (some c) (some l) (some p) with countingListener := some l }) := by
    unfold bindPipeline
    rw [hencode]
    exact .here _
  have hbuild : (buildPipeline config (Parts.new client (some l) producer)).Returns
      (tr ++ ([] ++ tr') ++ []) (.error (.valueError "surrogates not allowed"),
        { Parts.new (some c) (some l) (some p) with countingListener := some l }) :=
    Proc.returns_bind (Proc.returns_tryCatch _ hparts) hbind
  rw [start_eq hstream rfl]
  exact ⟨_, _, _, hbuild, rfl⟩

/-- For every configuration that `from_dict` accepts and all injected components: the listener and
the producer are built and closed together in every sequence of calls if and only if the stream name
can be encoded or no listener was injected. -/
theorem perform_lifecycle_iff (haccepted : config.Accepted)
    (client listener producer : Option Object) :
    (∀ marks, Run (perform config) (Parts.new client listener producer) marks →
      Keeps (LifecycleMark listener producer) marks) ↔
      config.streamName.encode?.isSome ∨ listener = none := by
  constructor
  · intro hkeeps
    by_contra hnot
    obtain ⟨hencode, hlistener⟩ := not_or.1 hnot
    obtain ⟨l, rfl⟩ := Option.ne_none_iff_exists'.1 hlistener
    obtain ⟨tr, exc, s, hstart, hl⟩ := start_returns (Accepted.streamName_ne haccepted)
      (Option.not_isSome_iff_eq_none.1 hencode) client l producer
    have hperform : (perform config .start (Parts.new client (some l) producer)).Returns tr
        (.error exc, s) := hstart
    have hrun := Run.next hperform (.rest s)
    obtain ⟨-, -, hunset⟩ := hkeeps _ hrun (.start .start _ :: tr.map .event) (.finish .start _ s) []
      rfl
    rw [hunset.2.1] at hl
    cases hl
  · intro hnamed marks hrun
    exact hrun.keeps (perform_keeps haccepted)
      ⟨rfl, rfl, fun hpipeline => absurd rfl hpipeline, hnamed⟩

/-- A start with nothing injected, in which every component is built. -/
theorem perform_lifecycle_iff_start :
    Keeps (LifecycleMark none none)
      [.start .start (Parts.new none none none),
        .event ⟨.newClient, .ok 0⟩, .event ⟨.openClient 0, .ok ()⟩, .event ⟨.loadCursor, .ok ()⟩,
        .event ⟨.newListener 0, .ok 1⟩, .event ⟨.startListener 1, .ok ()⟩,
        .event ⟨.newProducer, .ok 2⟩, .event ⟨.isTransactional 2, false⟩,
        .finish .start (.ok ()) ⟨some 0, some 1, some 2, some ⟨1, 2⟩, some 1⟩] := by
  have hstart : (perform (BridgeConfig.default [.scalar 's']) .start
      (Parts.new none none none)).Returns
      [⟨.newClient, .ok 0⟩, ⟨.openClient 0, .ok ()⟩, ⟨.loadCursor, .ok ()⟩, ⟨.newListener 0, .ok 1⟩,
        ⟨.startListener 1, .ok ()⟩, ⟨.newProducer, .ok 2⟩, ⟨.isTransactional 2, false⟩]
      (.ok (), ⟨some 0, some 1, some 2, some ⟨1, 2⟩, some 1⟩) :=
    .step _ (.step _ (.step _ (.step _ (.step _ (.step _ (.step _ (.here _)))))))
  exact (perform_lifecycle_iff (BridgeConfig.accepted_default rfl) none none none).2 (.inr rfl) _
    (.next hstart (.rest _))

/-- A lone surrogate is a stream name for `from_dict`. With a listener and a producer injected,
`start` raises and leaves both set. -/
theorem perform_lifecycle_surrogate :
    (BridgeConfig.default [.surrogate 0]).Accepted ∧
      ∃ marks, Run (perform (BridgeConfig.default [.surrogate 0]))
        (Parts.new (some 0) (some 1) (some 2)) marks ∧
        ¬ Keeps (LifecycleMark (some 1) (some 2)) marks := by
  have hstart : (perform (BridgeConfig.default [.surrogate 0]) .start
      (Parts.new (some 0) (some 1) (some 2))).Returns [⟨.isTransactional 2, false⟩]
      (.error (.valueError "surrogates not allowed"),
        ⟨some 0, some 1, some 2, none, some 1⟩) := .step _ (.here _)
  refine ⟨BridgeConfig.accepted_default rfl, _, .next hstart (.rest _), fun hkeeps => ?_⟩
  obtain ⟨-, -, -, hlistener, -⟩ := hkeeps
    [.start .start (Parts.new (some 0) (some 1) (some 2)), .event ⟨.isTransactional 2, false⟩]
    (.finish .start _ _) [] rfl
  cases hlistener

end PartsMark

end FdbKafkaBridge
