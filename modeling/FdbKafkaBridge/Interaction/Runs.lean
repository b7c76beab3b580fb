import FdbKafkaBridge.Interaction.Prog

/-!
# The runs of a program

How a run of a compound program is made of runs of its parts: one rule for each way of building a
`Proc`, and for the list of programs of `runAll`.
-/

namespace Interaction

variable {C : Type} {R : C → Type} {α β ε σ τ : Type}

namespace Prog

/-- A run of a sequence is cut off in its first part, or the first part has returned. -/
theorem Path.of_bind {p : Prog R α} {f : α → Prog R β} {tr : List (Event R)} {q : Prog R β}
    (h : Path (p.bind f) tr q) :
    (∃ q', Path p tr q') ∨
      ∃ tr₁ tr₂ a, tr = tr₁ ++ tr₂ ∧ Returns p tr₁ a ∧ Path (f a) tr₂ q := by
  induction p generalizing tr with
  | ret a => exact .inr ⟨[], tr, a, rfl, .here _, h⟩
  | hang =>
    cases h
    exact .inl ⟨.hang, .here _⟩
  | call c k ih =>
    cases h with
    | here => exact .inl ⟨_, .here _⟩
    | step r h =>
      rcases ih r h with ⟨q', hq'⟩ | ⟨tr₁, tr₂, a, rfl, h₁, h₂⟩
      · exact .inl ⟨q', .step r hq'⟩
      · exact .inr ⟨⟨c, r⟩ :: tr₁, tr₂, a, rfl, .step r h₁, h₂⟩

/-- Sequences agree when they agree on what the first part can return. -/
theorem bind_congr {p : Prog R α} {f g : α → Prog R β}
    (h : ∀ tr a, p.Returns tr a → f a = g a) : p.bind f = p.bind g := by
  induction p with
  | ret a => exact h [] a (.here _)
  | hang => rfl
  | call c k ih =>
    have hk : ∀ r, (k r).bind f = (k r).bind g := fun r =>
      ih r fun tr a hret => h (⟨c, r⟩ :: tr) a (.step r hret)
    show call c (fun r => (k r).bind f) = call c (fun r => (k r).bind g)
    exact congrArg (call c) (funext hk)

theorem bind_assoc {γ : Type} (p : Prog R α) (f : α → Prog R β) (g : β → Prog R γ) :
    (p.bind f).bind g = p.bind fun a => (f a).bind g := by
  induction p with
  | ret a => rfl
  | hang => rfl
  | call c k ih => exact congrArg (call c) (funext ih)

end Prog

namespace Proc

variable {s s' : σ} {tr : List (Event R)}

theorem returns_pure {a : α} {r : Except ε α × σ} :
    ((Pure.pure a : Proc R ε σ α) s).Returns tr r ↔ tr = [] ∧ r = (.ok a, s) := by
  constructor
  · intro h
    cases h
    exact ⟨rfl, rfl⟩
  · rintro ⟨rfl, rfl⟩
    exact .here _

theorem returns_throw {e : ε} {r : Except ε α × σ} :
    ((MonadExcept.throw e : Proc R ε σ α) s).Returns tr r ↔ tr = [] ∧ r = (.error e, s) := by
  constructor
  · intro h
    cases h
    exact ⟨rfl, rfl⟩
  · rintro ⟨rfl, rfl⟩
    exact .here _

/-- The first part returns and the rest runs, or the first part raises. -/
theorem returns_bind_iff {p : Proc R ε σ α} {f : α → Proc R ε σ β} {r : Except ε β × σ} :
    ((p >>= f) s).Returns tr r ↔
      (∃ tr₁ tr₂ a s₁, tr = tr₁ ++ tr₂ ∧ (p s).Returns tr₁ (.ok a, s₁) ∧
        (f a s₁).Returns tr₂ r) ∨
      ∃ e s₁, (p s).Returns tr (.error e, s₁) ∧ r = (.error e, s₁) := by
  constructor
  · intro h
    obtain ⟨tr₁, tr₂, ⟨r₁, s₁⟩, rfl, h₁, h₂⟩ := Prog.Returns.of_bind h
    cases r₁ with
    | ok a => exact .inl ⟨tr₁, tr₂, a, s₁, rfl, h₁, h₂⟩
    | error e =>
      cases h₂
      rw [List.append_nil]
      exact .inr ⟨e, s₁, h₁, rfl⟩
  · rintro (⟨tr₁, tr₂, a, s₁, rfl, h₁, h₂⟩ | ⟨e, s₁, h, rfl⟩)
    · exact returns_bind h₁ h₂
    · have hret : ((p >>= f) s).Returns (tr ++ []) (.error e, s₁) :=
        Prog.Path.bind_of_returns h (.here _)
      rwa [List.append_nil] at hret

theorem bind_assoc {γ : Type} (p : Proc R ε σ α) (f : α → Proc R ε σ β) (g : β → Proc R ε σ γ) :
    (p >>= f) >>= g = p >>= fun a => f a >>= g := by
  funext s
  refine (Prog.bind_assoc (p s) _ _).trans ?_
  refine Prog.bind_congr ?_
  rintro tr ⟨r, s'⟩ -
  cases r with
  | ok a => rfl
  | error e => rfl

/-- Sequences agree from a state when they agree on what the first part can return. -/
theorem bind_congr {p : Proc R ε σ α} {f g : α → Proc R ε σ β}
    (h : ∀ tr a s', (p s).Returns tr (.ok a, s') → f a s' = g a s') :
    (p >>= f) s = (p >>= g) s := by
  refine Prog.bind_congr ?_
  rintro tr ⟨r, s'⟩ hret
  cases r with
  | ok a => exact h tr a s' hret
  | error e => rfl

theorem returns_attempt {p : Proc R ε σ α} {r : Except ε (Except ε α) × σ} :
    (p.attempt s).Returns tr r ↔
      ∃ r₁ s₁, (p s).Returns tr (r₁, s₁) ∧ r = (.ok r₁, s₁) := by
  constructor
  · intro h
    obtain ⟨tr₁, tr₂, ⟨r₁, s₁⟩, rfl, h₁, h₂⟩ := Prog.Returns.of_bind h
    cases h₂
    rw [List.append_nil]
    exact ⟨r₁, s₁, h₁, rfl⟩
  · rintro ⟨r₁, s₁, h, rfl⟩
    have hret := Prog.Path.bind_of_returns (f := fun r : Except ε α × σ =>
      (.ret (.ok r.1, r.2) : Prog R (Except ε (Except ε α) × σ))) h (.here _)
    rwa [List.append_nil] at hret

theorem returns_zoom {p : Proc R ε σ α} {view : τ → σ} {put : τ → σ → τ} {t : τ}
    {r : Except ε α × τ} :
    (zoom view put p t).Returns tr r ↔
      ∃ r₁ s₁, (p (view t)).Returns tr (r₁, s₁) ∧ r = (r₁, put t s₁) := by
  constructor
  · intro h
    obtain ⟨tr₁, tr₂, ⟨r₁, s₁⟩, rfl, h₁, h₂⟩ := Prog.Returns.of_bind h
    cases h₂
    rw [List.append_nil]
    exact ⟨r₁, s₁, h₁, rfl⟩
  · rintro ⟨r₁, s₁, h, rfl⟩
    have hret := Prog.Path.bind_of_returns (f := fun r : Except ε α × σ =>
      (.ret (r.1, put t r.2) : Prog R (Except ε α × τ))) h (.here _)
    rwa [List.append_nil] at hret

/-! ## Running every program of a list -/

/-- The programs run one after another, whatever they return or raise. -/
inductive RunsAll : List (Proc R ε σ PUnit) → σ → List (Event R) → List (Except ε PUnit) → σ → Prop
  | nil (s : σ) : RunsAll [] s [] [] s
  | cons {p : Proc R ε σ PUnit} {ps : List (Proc R ε σ PUnit)} {s s₁ s' : σ}
      {tr tr' : List (Event R)} {r : Except ε PUnit} {rs : List (Except ε PUnit)}
      (h : (p s).Returns tr (r, s₁)) (rest : RunsAll ps s₁ tr' rs s') :
      RunsAll (p :: ps) s (tr ++ tr') (r :: rs) s'

/-- Every program keeps what each of them keeps. -/
theorem RunsAll.keeps {I : σ → Prop} {ps : List (Proc R ε σ PUnit)} {rs : List (Except ε PUnit)}
    (hps : ∀ p ∈ ps, ∀ s tr r s', I s → (p s).Returns tr (r, s') → I s')
    (h : RunsAll ps s tr rs s') (hs : I s) : I s' := by
  induction h with
  | nil s => exact hs
  | @cons p ps s s₁ s' tr tr' r rs hret _ ih =>
    have hs₁ := hps p List.mem_cons_self s tr r s₁ hs hret
    exact ih (fun q hq => hps q (List.mem_cons_of_mem p hq)) hs₁

end Proc

end Interaction
