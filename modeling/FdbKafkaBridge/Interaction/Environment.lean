import FdbKafkaBridge.Interaction.Monitor

/-!
# Environments with a state

What a program calls may have a state of its own. `Answers d e d'` says that in the state `d` the
call of `e` may be given its response, and that this leaves the state `d'`. A `Triple` speaks of that
state: it holds when a run from `P` is `Safe` after every call and ends in `Q`.
-/

namespace Interaction

variable {C : Type} {R : C → Type} {α β δ ε σ : Type}

/-- The calls of a trace are answered one after another. -/
inductive Evolves (Answers : δ → Event R → δ → Prop) : δ → List (Event R) → δ → Prop
  | nil (d : δ) : Evolves Answers d [] d
  | cons {d d₁ d' : δ} {e : Event R} {tr : List (Event R)} (h : Answers d e d₁)
      (rest : Evolves Answers d₁ tr d') : Evolves Answers d (e :: tr) d'

variable {Answers : δ → Event R → δ → Prop} {Safe : δ → Prop}

/-- The environment together with a note of whether a marked event has happened. -/
def noting (mark : Event R → Bool) (Answers : δ → Event R → δ → Prop) (d : δ × Bool) (e : Event R)
    (d' : δ × Bool) : Prop :=
  Answers d.1 e d'.1 ∧ d'.2 = (d.2 || mark e)

theorem Evolves.noting {d d' : δ} {tr : List (Event R)} (h : Evolves Answers d tr d')
    (mark : Event R → Bool) (noted : Bool) :
    Evolves (noting mark Answers) (d, noted) tr (d', noted || tr.any mark) := by
  induction h generalizing noted with
  | nil d =>
    rw [List.any_nil, Bool.or_false]
    exact .nil _
  | @cons d d₁ d' e tr h _ ih =>
    have hrest := ih (noted || mark e)
    rw [List.any_cons, ← Bool.or_assoc]
    exact .cons ⟨h, rfl⟩ hrest

theorem Evolves.mono {Answers' : δ → Event R → δ → Prop} {d d' : δ} {tr : List (Event R)}
    (h : Evolves Answers d tr d') (hanswers : ∀ d e d', Answers d e d' → Answers' d e d') :
    Evolves Answers' d tr d' := by
  induction h with
  | nil d => exact .nil d
  | cons h _ ih => exact .cons (hanswers _ _ _ h) ih

/-- The states that an event may lead to. -/
def after (Answers : δ → Event R → δ → Prop) (D : Set δ) (e : Event R) : Set δ :=
  {d' | ∃ d ∈ D, Answers d e d'}

open Classical in
/-- The monitor that keeps all states that the environment may be in, and refuses an event that may
lead to one that is not safe. -/
noncomputable def tracker (Answers : δ → Event R → δ → Prop) (Safe : δ → Prop) :
    Monitor R (Set δ) where
  next D e := if ∀ d ∈ after Answers D e, Safe d then some (after Answers D e) else none

theorem tracker_next {D D' : Set δ} {e : Event R} :
    (tracker Answers Safe).next D e = some D' ↔
      (∀ d ∈ after Answers D e, Safe d) ∧ after Answers D e = D' := by
  unfold tracker
  simp only [Option.ite_none_right_eq_some, Option.some.injEq]

/-- Where the environment really is, the tracker has seen it, and found it safe. -/
theorem Evolves.of_tracker {D D' : Set δ} {d d' : δ} {tr : List (Event R)}
    (h : Evolves Answers d tr d') (hd : d ∈ D) (hsafe : Safe d)
    (hrun : (tracker Answers Safe).run D tr = some D') : d' ∈ D' ∧ Safe d' := by
  induction h generalizing D with
  | nil d =>
    cases hrun
    exact ⟨hd, hsafe⟩
  | @cons d d₁ d' e tr h rest ih =>
    rw [Monitor.run_cons] at hrun
    obtain ⟨D₁, hnext, hrun⟩ := Option.bind_eq_some_iff.1 hrun
    obtain ⟨hsafe', rfl⟩ := tracker_next.1 hnext
    have hmem : d₁ ∈ after Answers D e := ⟨d, hd, h⟩
    exact ih hmem (hsafe' d₁ hmem) hrun

/-- From a state with `P`, every call of `p` leaves a safe one, and the end of `p` one with `Q`. -/
def Triple (Answers : δ → Event R → δ → Prop) (Safe P : δ → Prop) (p : Proc R ε σ α)
    (Q : Except ε α → δ → Prop) : Prop :=
  ∀ s D, (∀ d ∈ D, P d) →
    Proc.wp (tracker Answers Safe) p (fun r _ D' => ∀ d ∈ D', Q r d) s D

namespace Triple

variable {P : δ → Prop} {p : Proc R ε σ α} {Q : Except ε α → δ → Prop}

theorem of_returns (h : Triple Answers Safe P p Q) {s s' : σ} {r : Except ε α} {d d' : δ}
    {tr : List (Event R)} (hsafe : Safe d) (hd : P d) (hret : (p s).Returns tr (r, s'))
    (hevolves : Evolves Answers d tr d') : Safe d' ∧ Q r d' := by
  have hwp := h s {d} (by rintro _ rfl; exact hd)
  obtain ⟨D', hrun, hQ⟩ := hwp.of_returns hret
  obtain ⟨hmem, hsafe'⟩ := hevolves.of_tracker (Set.mem_singleton d) hsafe hrun
  exact ⟨hsafe', hQ d' hmem⟩

/-- A run is safe wherever it is cut off. -/
theorem of_path (h : Triple Answers Safe P p Q) {s : σ} {d d' : δ} {tr : List (Event R)}
    {q : Prog R (Except ε α × σ)} (hsafe : Safe d) (hd : P d) (hpath : Prog.Path (p s) tr q)
    (hevolves : Evolves Answers d tr d') : Safe d' := by
  have hwp := h s {d} (by rintro _ rfl; exact hd)
  obtain ⟨D', hrun, -⟩ := hwp.of_path hpath
  exact (hevolves.of_tracker (Set.mem_singleton d) hsafe hrun).2

theorem mono {Q' : Except ε α → δ → Prop} (h : Triple Answers Safe P p Q)
    (hQ : ∀ r d, Q r d → Q' r d) : Triple Answers Safe P p Q' := by
  intro s D hD
  exact Proc.wp_mono (h s D hD) fun r _ D' h' d hd => hQ r d (h' d hd)

theorem pure {Q : α → δ → Prop} (a : α) :
    Triple Answers Safe (Q a) (Pure.pure a : Proc R ε σ α)
      (fun r d => ∃ a, r = .ok a ∧ Q a d) := fun _ _ hD d hd => ⟨a, rfl, hD d hd⟩

theorem throw (e : ε) (h : ∀ d, P d → Q (.error e) d) :
    Triple Answers Safe P (MonadExcept.throw e : Proc R ε σ α) Q := fun _ _ hD d hd =>
  h d (hD d hd)

theorem bind {f : α → Proc R ε σ β} {Q' : Except ε β → δ → Prop}
    (hp : Triple Answers Safe P p Q) (hok : ∀ a, Triple Answers Safe (Q (.ok a)) (f a) Q')
    (herror : ∀ e d, Q (.error e) d → Q' (.error e) d) :
    Triple Answers Safe P (p >>= f) Q' := by
  intro s D hD
  exact Proc.wp_bind_of (hp s D hD) (fun a s' D' h => hok a s' D' h)
    fun e _ _ h d hd => herror e d (h d hd)

theorem tryCatch {h : ε → Proc R ε σ α} {Q' : Except ε α → δ → Prop}
    (hp : Triple Answers Safe P p Q) (hok : ∀ a d, Q (.ok a) d → Q' (.ok a) d)
    (herror : ∀ e, Triple Answers Safe (Q (.error e)) (h e) Q') :
    Triple Answers Safe P (MonadExcept.tryCatch p h) Q' := by
  intro s D hD
  exact Proc.wp_tryCatch_of (hp s D hD) (fun a _ _ h d hd => hok a d (h d hd))
    fun e s' D' h => herror e s' D' h

/-- The cleanup runs after either end, and its exception replaces that of the body. -/
theorem tryFinally {q : Proc R ε σ PUnit} {Q' : Except ε α → δ → Prop}
    (hp : Triple Answers Safe P p Q)
    (hq : ∀ r, Triple Answers Safe (Q r) q fun r' d =>
      match r' with
      | .ok _ => Q' r d
      | .error e => Q' (.error e) d) :
    Triple Answers Safe P (Proc.tryFinally p q) Q' := by
  intro s D hD
  refine Proc.wp_tryFinally.2 (Proc.wp_mono (hp s D hD) fun r s' D' h => ?_)
  refine Proc.wp_mono (hq r s' D' h) fun r' _ _ h' => ?_
  cases r' with
  | ok _ => exact h'
  | error _ => exact h'

end Triple

end Interaction
