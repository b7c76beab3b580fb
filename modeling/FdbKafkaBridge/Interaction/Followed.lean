import FdbKafkaBridge.Interaction.Calls

/-!
# Runs that a monitor follows

When a monitor accepts every method of an object, it can follow a whole run of the methods: it has
allowed each call after those before it. An invariant of the marks so far holds between the methods.
-/

namespace Interaction

variable {C : Type} {R : C → Type} {ι ε μ σ ρ : Type}

section Followed

variable (M : Monitor R μ) (m₀ : μ) (I : σ → List (Mark R ι ε σ ρ) → μ → Prop)
  (E : ι → σ → Except ε ρ → σ → μ → Prop)

/-- What is known of a mark after the marks before it: the monitor has come so far, and it allows the
call whatever its response, or the invariant holds where a method starts, or the postcondition where one ends, between the
state in which it started and that in which it ended. -/
def Followed (before : List (Mark R ι ε σ ρ)) : Mark R ι ε σ ρ → Prop
  | .start _ s => ∃ m, M.run m₀ (events before) = some m ∧ I s before m
  | .event e => ∃ m, M.run m₀ (events before) = some m ∧
      ∀ r, ∃ m', M.next m ⟨e.call, r⟩ = some m'
  | .finish i r s' => ∃ m, M.run m₀ (events before) = some m ∧
      ∃ past s, opening before = some (past, s) ∧ E i s r s' m

/-- The monitor accepts the method from the invariant, and the invariant holds again after any calls
that lead the monitor there. -/
def MethodFollows (body : ι → Proc R ε σ ρ) (i : ι) : Prop :=
  ∀ s past m, I s past m → Proc.wp M (body i) (fun r s' m' => E i s r s' m' ∧
    ∀ tr, M.run m tr = some m' →
      I s' (past ++ [.start i s] ++ tr.map .event ++ [.finish i r s']) m') s m

end Followed

variable {M : Monitor R μ} {m₀ : μ} {I : σ → List (Mark R ι ε σ ρ) → μ → Prop}
  {E : ι → σ → Except ε ρ → σ → μ → Prop} {body : ι → Proc R ε σ ρ}

/-- The calls so far, with those of the method that runs. -/
theorem events_started (past : List (Mark R ι ε σ ρ)) (i : ι) (s : σ) (tr : List (Event R)) :
    events (past ++ [.start i s] ++ tr.map .event) = events past ++ tr := by
  rw [events_calls, events_start]

theorem Monitor.run_append_of {m₁ : μ} {tr tr' : List (Event R)} (h : M.run m₀ tr = some m₁) :
    M.run m₀ (tr ++ tr') = M.run m₁ tr' := by
  rw [Monitor.run_append, h]
  rfl

theorem MethodFollows.runsKeep {i : ι} (h : MethodFollows M I E body i) :
    RunsKeep (Followed M m₀ I E)
      (fun s past => ∃ m, M.run m₀ (events past) = some m ∧ I s past m) body i where
  start s past hI := hI
  events s past tr q hI hpath := by
    obtain ⟨m, hpast, hm⟩ := hI
    refine keepsAfter_calls ?_
    rintro tr₁ e tr₂ rfl
    obtain ⟨m₁, hm₁, hallows⟩ := (h s past m hm).allows hpath
    refine ⟨m₁, ?_, hallows⟩
    rw [events_started, Monitor.run_append_of hpast]
    exact hm₁
  finish s past tr r s' hI hret := by
    obtain ⟨m, hpast, hm⟩ := hI
    obtain ⟨m', hrun, hE, hinv⟩ := (h s past m hm).of_returns hret
    have hall : M.run m₀ (events (past ++ [.start i s] ++ tr.map .event)) = some m' := by
      rw [events_started, Monitor.run_append_of hpast]
      exact hrun
    have hopening : opening (past ++ [.start i s] ++ tr.map .event) = some (past, s) := by
      rw [opening_calls, opening_start]
    refine ⟨⟨m', hall, past, s, hopening, hE⟩, m', ?_, hinv tr hrun⟩
    rw [events_finish]
    exact hall

end Interaction
