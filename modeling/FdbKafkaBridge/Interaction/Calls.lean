import FdbKafkaBridge.Interaction.Monitor

/-!
# Calls of the methods of an object

An object is a state with methods, each a `Proc` over it. `Run` is what happens when its methods are
called one after another in any order, up to any point, also one inside a method. What must never
happen is said by `Allowed`: which mark may come after which marks. `Run.allowed` reduces it to one
precondition for each method.
-/

namespace Interaction

variable {C : Type} {R : C → Type} {ι α β ε σ ρ : Type}

/-- What is seen of an object: a method starts in a state, makes a call, or ends in a state. -/
inductive Mark {C : Type} (R : C → Type) (ι ε σ ρ : Type)
  | start (i : ι) (s : σ)
  | event (e : Event R)
  | finish (i : ι) (r : Except ε ρ) (s : σ)

/-- The marks of a run of the methods `body` from a state. -/
inductive Run (body : ι → Proc R ε σ ρ) : σ → List (Mark R ι ε σ ρ) → Prop
  | rest (s : σ) : Run body s []
  /-- The last method has not ended, and may never do so. -/
  | cut {i : ι} {s : σ} {tr : List (Event R)} {q : Prog R (Except ε ρ × σ)}
      (h : Prog.Path (body i s) tr q) : Run body s (.start i s :: tr.map .event)
  | next {i : ι} {s s' : σ} {tr : List (Event R)} {r : Except ε ρ} {marks : List (Mark R ι ε σ ρ)}
      (h : (body i s).Returns tr (r, s')) (rest : Run body s' marks) :
      Run body s (.start i s :: (tr.map .event ++ .finish i r s' :: marks))

/-! ## Reading the marks -/

namespace Mark

def event? : Mark R ι ε σ ρ → Option (Event R)
  | event e => some e
  | _ => none

def state? : Mark R ι ε σ ρ → Option σ
  | start _ s => some s
  | event _ => none
  | finish _ _ s => some s

/-- The method that runs after the mark, when `i` ran before it. -/
def runningStep (i : Option ι) : Mark R ι ε σ ρ → Option ι
  | start i _ => some i
  | event _ => i
  | finish .. => none

end Mark

/-- The marks so far, with the opening of the method that runs: the marks before it, and its state
when it started. -/
def openingStep (seen : List (Mark R ι ε σ ρ) × Option (List (Mark R ι ε σ ρ) × σ))
    (mark : Mark R ι ε σ ρ) : List (Mark R ι ε σ ρ) × Option (List (Mark R ι ε σ ρ) × σ) :=
  (seen.1 ++ [mark],
    match mark with
    | .start _ s => some (seen.1, s)
    | .event _ => seen.2
    | .finish .. => none)

/-- The marks before the method that runs, and its state when it started. -/
def opening (marks : List (Mark R ι ε σ ρ)) : Option (List (Mark R ι ε σ ρ) × σ) :=
  (marks.foldl openingStep ([], none)).2

/-- The calls that were made, in order. -/
def events (marks : List (Mark R ι ε σ ρ)) : List (Event R) := marks.filterMap Mark.event?

/-- The states at the ends of the methods. -/
def states (marks : List (Mark R ι ε σ ρ)) : List σ := marks.filterMap Mark.state?

/-- The method that has started and not ended. -/
def running (marks : List (Mark R ι ε σ ρ)) : Option ι := marks.foldl Mark.runningStep none

section Reading

variable (marks : List (Mark R ι ε σ ρ))

@[simp] theorem events_start (i : ι) (s : σ) : events (marks ++ [.start i s]) = events marks := by
  simp [events, Mark.event?]

@[simp] theorem events_event (e : Event R) :
    events (marks ++ [.event e]) = events marks ++ [e] := by
  simp [events, Mark.event?]

@[simp] theorem events_finish (i : ι) (r : Except ε ρ) (s : σ) :
    events (marks ++ [.finish i r s]) = events marks := by
  simp [events, Mark.event?]

@[simp] theorem states_start (i : ι) (s : σ) :
    states (marks ++ [.start i s]) = states marks ++ [s] := by
  simp [states, Mark.state?]

@[simp] theorem states_event (e : Event R) : states (marks ++ [.event e]) = states marks := by
  simp [states, Mark.state?]

@[simp] theorem states_finish (i : ι) (r : Except ε ρ) (s : σ) :
    states (marks ++ [.finish i r s]) = states marks ++ [s] := by
  simp [states, Mark.state?]

@[simp] theorem running_start (i : ι) (s : σ) : running (marks ++ [.start i s]) = some i := by
  simp [running, Mark.runningStep]

@[simp] theorem running_event (e : Event R) : running (marks ++ [.event e]) = running marks := by
  simp [running, Mark.runningStep]

theorem fst_foldl_openingStep : (marks.foldl openingStep ([], none)).1 = marks := by
  induction marks using List.reverseRecOn with
  | nil => rfl
  | append_singleton marks mark ih =>
    rw [List.foldl_concat, openingStep.eq_def, ih]

@[simp] theorem opening_start (i : ι) (s : σ) :
    opening (marks ++ [.start i s]) = some (marks, s) := by
  rw [opening, List.foldl_concat, openingStep.eq_def, fst_foldl_openingStep]

@[simp] theorem opening_event (e : Event R) : opening (marks ++ [.event e]) = opening marks := by
  rw [opening, List.foldl_concat]
  rfl

theorem events_append (marks' : List (Mark R ι ε σ ρ)) :
    events (marks ++ marks') = events marks ++ events marks' := List.filterMap_append

section Calls

variable (tr : List (Event R))

theorem events_calls : events (marks ++ tr.map .event) = events marks ++ tr := by
  rw [events_append]
  have hcalls : events (tr.map (Mark.event : Event R → Mark R ι ε σ ρ)) = tr := by
    rw [events, List.filterMap_map]
    exact List.filterMap_some
  rw [hcalls]

theorem running_calls : running (marks ++ tr.map .event) = running marks := by
  induction tr using List.reverseRecOn with
  | nil => rw [List.map_nil, List.append_nil]
  | append_singleton tr e ih =>
    rw [List.map_append, ← List.append_assoc, List.map_singleton, running_event, ih]

theorem opening_calls : opening (marks ++ tr.map .event) = opening marks := by
  induction tr using List.reverseRecOn with
  | nil => rw [List.map_nil, List.append_nil]
  | append_singleton tr e ih =>
    rw [List.map_append, ← List.append_assoc, List.map_singleton, opening_event, ih]

end Calls

end Reading

/-- Every mark is allowed after those before it. -/
def Keeps (Allowed : List (Mark R ι ε σ ρ) → Mark R ι ε σ ρ → Prop)
    (marks : List (Mark R ι ε σ ρ)) : Prop :=
  ∀ before mark after, marks = before ++ mark :: after → Allowed before mark

/-! ## The recorder -/

open Classical in
/-- The monitor that remembers all marks, and refuses a call that is not allowed. -/
noncomputable def recorder (Allowed : List (Mark R ι ε σ ρ) → Mark R ι ε σ ρ → Prop) :
    Monitor R (List (Mark R ι ε σ ρ)) where
  next marks e := if Allowed marks (.event e) then some (marks ++ [.event e]) else none

variable {Allowed : List (Mark R ι ε σ ρ) → Mark R ι ε σ ρ → Prop}
  {marks marks' : List (Mark R ι ε σ ρ)}

theorem recorder_next {e : Event R} :
    (recorder Allowed).next marks e = some marks' ↔
      Allowed marks (.event e) ∧ marks ++ [.event e] = marks' := by
  unfold recorder
  simp only [Option.ite_none_right_eq_some, Option.some.injEq]

/-- Every mark is allowed after those before it and those of the past. -/
def KeepsAfter (Allowed : List (Mark R ι ε σ ρ) → Mark R ι ε σ ρ → Prop)
    (past marks : List (Mark R ι ε σ ρ)) : Prop :=
  ∀ before mark after, marks = before ++ mark :: after → Allowed (past ++ before) mark

variable {past : List (Mark R ι ε σ ρ)}

theorem KeepsAfter.append (h : KeepsAfter Allowed past marks)
    (h' : KeepsAfter Allowed (past ++ marks) marks') : KeepsAfter Allowed past (marks ++ marks') := by
  intro before mark after heq
  rcases List.append_eq_append_iff.1 heq with ⟨mid, rfl, hmid⟩ | ⟨mid, rfl, hafter⟩
  · have hallowed := h' mid mark after hmid
    rwa [List.append_assoc] at hallowed
  · cases mid with
    | nil =>
      have hallowed := h' [] mark after hafter.symm
      rwa [List.append_nil, List.append_nil] at hallowed
    | cons mark' mid =>
      obtain ⟨rfl, -⟩ := List.cons.inj hafter
      exact h before mark mid rfl

theorem keepsAfter_nil : KeepsAfter Allowed past [] := by
  intro before mark after heq
  exact absurd heq.symm (by simp)

theorem keepsAfter_singleton {mark : Mark R ι ε σ ρ} (h : Allowed past mark) :
    KeepsAfter Allowed past [mark] := by
  intro before mark' after heq
  cases before with
  | nil =>
    obtain ⟨rfl, -⟩ := List.cons.inj heq
    rwa [List.append_nil]
  | cons _ before => exact absurd (List.cons.inj heq).2.symm (by simp)

theorem keepsAfter_calls {tr : List (Event R)}
    (h : ∀ tr₁ e tr₂, tr = tr₁ ++ e :: tr₂ → Allowed (past ++ tr₁.map .event) (.event e)) :
    KeepsAfter Allowed past (tr.map .event) := by
  intro before mark after heq
  obtain ⟨tr₁, rest, rfl, rfl, hrest⟩ := List.map_eq_append_iff.1 heq
  obtain ⟨e, tr₂, rfl, rfl, -⟩ := List.map_eq_cons_iff.1 hrest
  exact h tr₁ e tr₂ rfl

/-- What the recorder has let pass is allowed. -/
theorem keepsAfter_of_recorder {tr : List (Event R)}
    (h : (recorder Allowed).run marks tr = some marks') :
    marks' = marks ++ tr.map .event ∧ KeepsAfter Allowed marks (tr.map .event) := by
  induction tr generalizing marks with
  | nil =>
    cases h
    exact ⟨(List.append_nil _).symm, keepsAfter_nil⟩
  | cons e tr ih =>
    rw [Monitor.run_cons] at h
    obtain ⟨marks₁, he, h⟩ := Option.bind_eq_some_iff.1 h
    obtain ⟨hallowed, rfl⟩ := recorder_next.1 he
    obtain ⟨rfl, hrest⟩ := ih h
    refine ⟨by rw [List.append_assoc, List.map_cons, List.singleton_append], ?_⟩
    rw [List.map_cons]
    exact (keepsAfter_singleton hallowed).append hrest

/-! ## Runs -/

variable {body : ι → Proc R ε σ ρ} {I : σ → List (Mark R ι ε σ ρ) → Prop}

/-- The method keeps to what is allowed, and to the invariant between methods. -/
def MethodKeeps (Allowed : List (Mark R ι ε σ ρ) → Mark R ι ε σ ρ → Prop)
    (I : σ → List (Mark R ι ε σ ρ) → Prop) (body : ι → Proc R ε σ ρ) (i : ι) : Prop :=
  ∀ s marks, I s marks → Allowed marks (.start i s) ∧
    Proc.wp (recorder Allowed) (body i)
      (fun r s' marks' => Allowed marks' (.finish i r s') ∧ I s' (marks' ++ [.finish i r s'])) s
      (marks ++ [.start i s])

/-- What every run of the method keeps to, and the invariant between methods. -/
structure RunsKeep (Allowed : List (Mark R ι ε σ ρ) → Mark R ι ε σ ρ → Prop)
    (I : σ → List (Mark R ι ε σ ρ) → Prop) (body : ι → Proc R ε σ ρ) (i : ι) : Prop where
  start : ∀ s past, I s past → Allowed past (.start i s)
  events : ∀ s past tr q, I s past → Prog.Path (body i s) tr q →
    KeepsAfter Allowed (past ++ [.start i s]) (tr.map .event)
  finish : ∀ s past tr r s', I s past → (body i s).Returns tr (r, s') →
    Allowed (past ++ [.start i s] ++ tr.map .event) (.finish i r s') ∧
      I s' (past ++ [.start i s] ++ tr.map .event ++ [.finish i r s'])

theorem MethodKeeps.runsKeep {i : ι} (h : MethodKeeps Allowed I body i) :
    RunsKeep Allowed I body i where
  start s past hI := (h s past hI).1
  events s past tr q hI hpath := by
    obtain ⟨marks', hrec, -⟩ := (h s past hI).2.of_path hpath
    exact (keepsAfter_of_recorder hrec).2
  finish s past tr r s' hI hret := by
    obtain ⟨marks', hrec, hfinish⟩ := (h s past hI).2.of_returns hret
    obtain ⟨rfl, -⟩ := keepsAfter_of_recorder hrec
    exact hfinish

/-- When every run of a method keeps to what is allowed, so does every run of the methods. -/
theorem Run.keepsAfter_of_runs (hmethod : ∀ i, RunsKeep Allowed I body i) {s : σ}
    (hrun : Run body s marks) (h0 : I s past) : KeepsAfter Allowed past marks := by
  induction hrun generalizing past with
  | rest s => exact keepsAfter_nil
  | @cut i s tr q hpath =>
    have hstart := keepsAfter_singleton ((hmethod i).start s past h0)
    exact hstart.append ((hmethod i).events s past tr q h0 hpath)
  | @next i s s' tr r marks hret _ ih =>
    have hstart := keepsAfter_singleton ((hmethod i).start s past h0)
    have hevents := (hmethod i).events s past tr _ h0 hret
    obtain ⟨hfinish, hI⟩ := (hmethod i).finish s past tr r s' h0 hret
    have hrest := (keepsAfter_singleton hfinish).append (ih hI)
    exact hstart.append (hevents.append hrest)

/-- When every method keeps to what is allowed, so does every run. -/
theorem Run.keepsAfter (hmethod : ∀ i, MethodKeeps Allowed I body i) {s : σ}
    (hrun : Run body s marks) (h0 : I s past) : KeepsAfter Allowed past marks :=
  hrun.keepsAfter_of_runs (fun i => (hmethod i).runsKeep) h0

theorem Run.keeps (hmethod : ∀ i, MethodKeeps Allowed I body i) {s : σ}
    (hrun : Run body s marks) (h0 : I s []) : Keeps Allowed marks :=
  hrun.keepsAfter hmethod h0

end Interaction
