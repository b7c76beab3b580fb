import FdbKafkaBridge.Interaction.Monitor

/-!
# Descriptions of the runs of a program

A description relates the trace of a run to how the run has ended. It is one of a program when it
holds of all runs, and of those that are cut off. The rules go backwards over a program, as those
of the weakest precondition do, but with the trace in place of the state of a monitor.
-/

namespace Interaction

variable {C : Type} {R : C → Type} {α β ε μ σ τ : Type}

/-- How a run has ended, if it has. -/
inductive Ending (α : Type)
  | cut
  /-- It goes on without a further call, for good. -/
  | hung
  | returned (a : α)

namespace Ending

def map (f : α → β) : Ending α → Ending β
  | cut => cut
  | hung => hung
  | returned a => returned (f a)

@[simp] theorem map_cut (f : α → β) : (cut : Ending α).map f = cut := rfl

@[simp] theorem map_hung (f : α → β) : (hung : Ending α).map f = hung := rfl

@[simp] theorem map_returned (f : α → β) (a : α) : (returned a).map f = returned (f a) := rfl

end Ending

namespace Prog

def ending : Prog R α → Ending α
  | ret a => .returned a
  | hang => .hung
  | call _ _ => .cut

/-- A run of a sequence is one of its first part, or the first part has returned. -/
theorem Path.of_bind_eq {p : Prog R α} {f : α → Prog R β} {tr : List (Event R)} {q : Prog R β}
    (h : Path (p.bind f) tr q) :
    (∃ q', Path p tr q' ∧ q = q'.bind f) ∨
      ∃ tr₁ tr₂ a, tr = tr₁ ++ tr₂ ∧ Returns p tr₁ a ∧ Path (f a) tr₂ q := by
  induction p generalizing tr with
  | ret a => exact .inr ⟨[], tr, a, rfl, .here _, h⟩
  | hang =>
    cases h
    exact .inl ⟨.hang, .here _, rfl⟩
  | call c k ih =>
    cases h with
    | here => exact .inl ⟨_, .here _, rfl⟩
    | step r h =>
      rcases ih r h with ⟨q', hq', rfl⟩ | ⟨tr₁, tr₂, a, rfl, h₁, h₂⟩
      · exact .inl ⟨q', .step r hq', rfl⟩
      · exact .inr ⟨⟨c, r⟩ :: tr₁, tr₂, a, rfl, .step r h₁, h₂⟩

/-- What holds of all runs is accepted. -/
theorem accepts_of_paths {M : Monitor R μ} {p : Prog R α} {Q : α → μ → Prop} {m : μ}
    (h : ∀ tr q, Path p tr q →
      ∃ m', M.run m tr = some m' ∧ ∀ a, q = .ret a → Q a m') : Accepts M p Q m := by
  induction p generalizing m with
  | ret a =>
    obtain ⟨m', hrun, hQ⟩ := h [] _ (.here _)
    cases hrun
    exact hQ a rfl
  | hang => trivial
  | call c k ih =>
    intro r
    obtain ⟨m₁, hrun, -⟩ := h [⟨c, r⟩] _ (.step r (.here _))
    rw [Monitor.run_cons] at hrun
    obtain ⟨m', hnext, hnil⟩ := Option.bind_eq_some_iff.1 hrun
    cases hnil
    refine ⟨m₁, hnext, ih r fun tr q hpath => ?_⟩
    obtain ⟨m₂, hrun, hQ⟩ := h (⟨c, r⟩ :: tr) q (.step r hpath)
    rw [Monitor.run_cons, hnext] at hrun
    exact ⟨m₂, hrun, hQ⟩

end Prog

/-- A relation between the trace of a run and how it has ended. -/
abbrev Description {C : Type} (R : C → Type) (α : Type) := List (Event R) → Ending α → Prop

namespace Proc

/-- The description is one of all runs of `p` from the state `s`. -/
def Describes (L : Description R (Except ε α × σ)) (p : Proc R ε σ α) (s : σ) : Prop :=
  ∀ tr q, Prog.Path (p s) tr q → L tr q.ending

variable {L L' : Description R (Except ε α × σ)} {p : Proc R ε σ α} {s : σ}

theorem Describes.mono (h : Describes L p s) (hL : ∀ tr e, L tr e → L' tr e) : Describes L' p s :=
  fun tr q hpath => hL tr q.ending (h tr q hpath)

theorem Describes.and (h : Describes L p s) (h' : Describes L' p s) :
    Describes (fun tr e => L tr e ∧ L' tr e) p s :=
  fun tr q hpath => ⟨h tr q hpath, h' tr q hpath⟩

theorem Describes.returns (h : Describes L p s) {tr : List (Event R)} {r : Except ε α × σ}
    (hret : (p s).Returns tr r) : L tr (.returned r) :=
  h tr _ hret

theorem describes_pure {a : α} (h : L [] (.returned (.ok a, s))) :
    Describes L (Pure.pure a) s := by
  intro tr q hpath
  cases hpath
  exact h

theorem describes_throw {e : ε} (h : L [] (.returned (.error e, s))) :
    Describes L (MonadExcept.throw e) s := by
  intro tr q hpath
  cases hpath
  exact h

theorem describes_hang (h : L [] .hung) : Describes L hang s := by
  intro tr q hpath
  cases hpath
  exact h

/-- What the rest of a sequence has to be like, after a run of its first part. -/
def Continues (f : α → Proc R ε σ β) (Q : Description R (Except ε β × σ)) :
    Description R (Except ε α × σ)
  | tr, .cut => Q tr .cut
  | tr, .hung => Q tr .hung
  | tr, .returned (.ok a, s) => Describes (fun tr' e => Q (tr ++ tr') e) (f a) s
  | tr, .returned (.error e, s) => Q tr (.returned (.error e, s))

theorem describes_bind {f : α → Proc R ε σ β} {Q : Description R (Except ε β × σ)}
    (h : Describes (Continues f Q) p s) : Describes Q (p >>= f) s := by
  intro tr q hpath
  rcases Prog.Path.of_bind_eq hpath with ⟨q', hp, rfl⟩ | ⟨tr₁, tr₂, ⟨r, s'⟩, rfl, hp, hf⟩
  · have hq := h tr q' hp
    rcases q' with ⟨r, s'⟩ | _ | _
    · cases r with
      | ok a =>
        have hrest : Q (tr ++ []) _ := hq [] _ (.here _)
        rw [List.append_nil] at hrest
        exact hrest
      | error e => exact hq
    · exact hq
    · exact hq
  · have hq := h tr₁ _ hp
    cases r with
    | ok a => exact hq tr₂ q hf
    | error e =>
      cases hf
      rw [List.append_nil]
      exact hq

/-- What the handler has to do, after a run of the body. -/
def Handles (handler : ε → Proc R ε σ α) (Q : Description R (Except ε α × σ)) :
    Description R (Except ε α × σ)
  | tr, .cut => Q tr .cut
  | tr, .hung => Q tr .hung
  | tr, .returned (.ok a, s) => Q tr (.returned (.ok a, s))
  | tr, .returned (.error e, s) => Describes (fun tr' e => Q (tr ++ tr') e) (handler e) s

theorem describes_tryCatch {handler : ε → Proc R ε σ α} {Q : Description R (Except ε α × σ)}
    (h : Describes (Handles handler Q) p s) : Describes Q (MonadExcept.tryCatch p handler) s := by
  intro tr q hpath
  rcases Prog.Path.of_bind_eq hpath with ⟨q', hp, rfl⟩ | ⟨tr₁, tr₂, ⟨r, s'⟩, rfl, hp, hf⟩
  · have hq := h tr q' hp
    rcases q' with ⟨r, s'⟩ | _ | _
    · cases r with
      | ok a => exact hq
      | error e =>
        have hrest : Q (tr ++ []) _ := hq [] _ (.here _)
        rw [List.append_nil] at hrest
        exact hrest
    · exact hq
    · exact hq
  · have hq := h tr₁ _ hp
    cases r with
    | ok a =>
      cases hf
      rw [List.append_nil]
      exact hq
    | error e => exact hq tr₂ q hf

theorem describes_zoom {q : Proc R ε τ α} {view : σ → τ} {put : σ → τ → σ}
    (h : Describes (fun tr e => L tr (e.map fun r => (r.1, put s r.2))) q (view s)) :
    Describes L (zoom view put q) s := by
  intro tr q' hpath
  rcases Prog.Path.of_bind_eq hpath with ⟨q₁, hp, rfl⟩ | ⟨tr₁, tr₂, ⟨r, t⟩, rfl, hp, hf⟩
  · have hq := h tr q₁ hp
    cases q₁ <;> exact hq
  · have hq := h tr₁ _ hp
    cases hf
    rw [List.append_nil]
    exact hq

theorem describes_get_bind {f : σ → Proc R ε σ α} (h : Describes L (f s) s) :
    Describes L (MonadState.get >>= f) s := h

theorem describes_modify_bind {g : σ → σ} {f : PUnit → Proc R ε σ α}
    (h : Describes L (f ⟨⟩) (g s)) : Describes L (modify g >>= f) s := h

/-- No event is marked, or the last one is, and then an exception is raised at once. -/
def StopsAt (mark : Event R → Prop) (P : ε → σ → Prop) : Description R (Except ε α × σ) :=
  fun tr e => (∀ event ∈ tr, ¬ mark event) ∨ ∃ before event exc s, tr = before ++ [event] ∧
    (∀ event ∈ before, ¬ mark event) ∧ mark event ∧ e = .returned (.error exc, s) ∧ P exc s

section StopsAt

variable {mark : Event R → Prop} {P : ε → σ → Prop}

/-- After events that are not marked. -/
theorem StopsAt.append {tr tr' : List (Event R)} {e : Ending (Except ε α × σ)}
    (htr : ∀ event ∈ tr, ¬ mark event) (h : StopsAt mark P tr' e) :
    StopsAt mark P (tr ++ tr') e := by
  rcases h with hnone | ⟨before, event, exc, s, rfl, hbefore, hmark, hend, hP⟩
  · refine .inl fun event hevent => ?_
    exact (List.mem_append.1 hevent).elim (htr event) (hnone event)
  · refine .inr ⟨tr ++ before, event, exc, s, (List.append_assoc _ _ _).symm, ?_, hmark, hend, hP⟩
    exact fun event hevent => (List.mem_append.1 hevent).elim (htr event) (hbefore event)

end StopsAt

/-- A described program is watched by what accepts all that is described. -/
theorem Describes.wp {M : Monitor R μ} {m : μ} {Q : Except ε α → σ → μ → Prop}
    (h : Describes L p s)
    (hL : ∀ tr e, L tr e → ∃ m', M.run m tr = some m' ∧
      ∀ r s', e = .returned (r, s') → Q r s' m') : wp M p Q s m := by
  refine Prog.accepts_of_paths fun tr q hpath => ?_
  obtain ⟨m', hrun, hQ⟩ := hL tr q.ending (h tr q hpath)
  refine ⟨m', hrun, ?_⟩
  rintro ⟨r, s'⟩ rfl
  exact hQ r s' rfl

end Proc

end Interaction
