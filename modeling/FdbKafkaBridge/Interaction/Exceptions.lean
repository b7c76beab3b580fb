import FdbKafkaBridge.Interaction.Runs
import FdbKafkaBridge.Interaction.Monitor

/-!
# Where exceptions come from

A program that raises no exception of a kind by itself only passes on what its calls have raised. One
rule for each way of building a `Proc`; a handler may raise again what it was given.
-/

namespace Interaction

variable {C : Type} {R : C → Type} {α β ε μ σ τ : Type}

namespace Proc

/-- The exceptions of the kind `G` that the program raises are in `E`, or a call has raised them. -/
def PassesOn (raised : Event R → Option ε) (G E : Set ε) (p : Proc R ε σ α) : Prop :=
  ∀ s tr e s', (p s).Returns tr (.error e, s') → e ∈ G →
    e ∈ E ∨ ∃ event ∈ tr, raised event = some e

variable {raised : Event R → Option ε} {G E : Set ε}

theorem passesOn_pure (a : α) : PassesOn raised G E (Pure.pure a : Proc R ε σ α) := by
  intro s tr e s' hret
  obtain ⟨-, heq⟩ := returns_pure.1 hret
  cases heq

/-- What is thrown is not of the kind, or is allowed. -/
theorem passesOn_throw {e : ε} (he : e ∈ G → e ∈ E) :
    PassesOn raised G E (MonadExcept.throw e : Proc R ε σ α) := by
  intro s tr e' s' hret hG
  obtain ⟨-, heq⟩ := returns_throw.1 hret
  cases heq
  exact .inl (he hG)

theorem PassesOn.bind {p : Proc R ε σ α} {f : α → Proc R ε σ β} (hp : PassesOn raised G E p)
    (hf : ∀ a, PassesOn raised G E (f a)) : PassesOn raised G E (p >>= f) := by
  intro s tr e s' hret hG
  rcases returns_bind_iff.1 hret with ⟨tr₁, tr₂, a, s₁, rfl, -, hrest⟩ | ⟨e', s₁, hraise, heq⟩
  · rcases hf a s₁ tr₂ e s' hrest hG with hE | ⟨event, hmem, hraised⟩
    · exact .inl hE
    · exact .inr ⟨event, List.mem_append_right tr₁ hmem, hraised⟩
  · cases heq
    exact hp s tr e s' hraise hG

/-- What comes after an attempt may raise its exception again. -/
theorem PassesOn.attempt_bind {p : Proc R ε σ α} {f : Except ε α → Proc R ε σ β}
    (hp : PassesOn raised G E p) (hok : ∀ a, PassesOn raised G E (f (.ok a)))
    (herror : ∀ e, PassesOn raised G (insert e E) (f (.error e))) :
    PassesOn raised G E (p.attempt >>= f) := by
  intro s tr e s' hret hG
  rcases returns_bind_iff.1 hret with ⟨tr₁, tr₂, r, s₁, rfl, hp', hrest⟩ | ⟨e', s₁, hraise, -⟩
  · obtain ⟨r₁, s₂, hp', heq⟩ := returns_attempt.1 hp'
    cases heq
    cases r with
    | ok a =>
      rcases hok a s₁ tr₂ e s' hrest hG with hE | ⟨event, hmem, hraised⟩
      · exact .inl hE
      · exact .inr ⟨event, List.mem_append_right tr₁ hmem, hraised⟩
    | error e' =>
      rcases herror e' s₁ tr₂ e s' hrest hG with (rfl | hE) | ⟨event, hmem, hraised⟩
      · rcases hp s tr₁ e s₁ hp' hG with hE | ⟨event, hmem, hraised⟩
        · exact .inl hE
        · exact .inr ⟨event, List.mem_append_left tr₂ hmem, hraised⟩
      · exact .inl hE
      · exact .inr ⟨event, List.mem_append_right tr₁ hmem, hraised⟩
  · obtain ⟨r₁, s₂, -, heq⟩ := returns_attempt.1 hraise
    cases heq

/-- A handler is an attempt, and what is done about its exception. -/
theorem tryCatch_eq (p : Proc R ε σ α) (h : ε → Proc R ε σ α) :
    (MonadExcept.tryCatch p h : Proc R ε σ α) = p.attempt >>= fun r =>
      match r with
      | .ok a => Pure.pure a
      | .error e => h e := by
  funext s
  show Prog.bind (p s) _ = Prog.bind (Prog.bind (p s) _) _
  rw [Prog.bind_assoc]
  refine Prog.bind_congr ?_
  rintro tr ⟨r, s'⟩ -
  cases r <;> rfl

theorem PassesOn.tryCatch {p : Proc R ε σ α} {h : ε → Proc R ε σ α}
    (hp : PassesOn raised G E p) (hh : ∀ e, PassesOn raised G (insert e E) (h e)) :
    PassesOn raised G E (MonadExcept.tryCatch p h) := by
  rw [tryCatch_eq]
  exact hp.attempt_bind (fun a => passesOn_pure a) hh

theorem PassesOn.mono {p : Proc R ε σ α} {E' : Set ε} (hp : PassesOn raised G E p)
    (hE : E ⊆ E') : PassesOn raised G E' p :=
  fun s tr e s' hret hG => (hp s tr e s' hret hG).imp (fun he => hE he) id

theorem PassesOn.tryFinally {p : Proc R ε σ α} {q : Proc R ε σ PUnit}
    (hp : PassesOn raised G E p) (hq : PassesOn raised G E q) :
    PassesOn raised G E (tryFinally p q) := by
  refine hp.attempt_bind (fun a => hq.bind fun _ => passesOn_pure a) fun e => ?_
  refine (hq.mono (Set.subset_insert e E)).bind fun _ => ?_
  exact passesOn_throw fun _ => Set.mem_insert e E

theorem PassesOn.when {p : Proc R ε σ PUnit} (hp : PassesOn raised G E p) (condition : Bool) :
    PassesOn raised G E (Proc.when condition p) := by
  cases condition
  · exact passesOn_pure _
  · exact hp

theorem PassesOn.ite {c : Prop} [Decidable c] {p q : Proc R ε σ α} (hp : PassesOn raised G E p)
    (hq : PassesOn raised G E q) : PassesOn raised G E (if c then p else q) := by
  split
  · exact hp
  · exact hq

theorem PassesOn.zoom {p : Proc R ε σ α} (hp : PassesOn raised G E p) (view : τ → σ)
    (put : τ → σ → τ) : PassesOn raised G E (Proc.zoom view put p) := by
  intro t tr e t' hret hG
  obtain ⟨r, s', hp', heq⟩ := returns_zoom.1 hret
  cases heq
  exact hp (view t) tr e s' hp' hG

end Proc

end Interaction
