import Mathlib.Tactic

/-!
# Programs that call their environment

`Prog` is a program that calls an environment and goes on with each response. A run of it is a path
down the tree that it is, and its trace is the list of calls with their responses; a path that ends
above a leaf is a run that has been cut off there. `Proc` adds a state that survives exceptions and
exceptions that can be caught.
-/

namespace Interaction

/-- A call together with its response. -/
structure Event {C : Type} (R : C → Type) where
  call : C
  response : R call

/-- A program that makes calls `c : C` and is given responses in `R c`. -/
inductive Prog {C : Type} (R : C → Type) (α : Type) : Type
  | ret (a : α)
  /-- The program runs on without a further call, for good. -/
  | hang
  | call (c : C) (k : R c → Prog R α)

variable {C : Type} {R : C → Type} {α β γ ε ε' σ τ : Type}

namespace Prog

def bind : Prog R α → (α → Prog R β) → Prog R β
  | ret a, f => f a
  | hang, _ => hang
  | call c k, f => call c fun r => bind (k r) f

/-- `Path p tr q`: the trace `tr` leads from `p` to what is left of it, `q`. -/
inductive Path : Prog R α → List (Event R) → Prog R α → Prop
  | here (p : Prog R α) : Path p [] p
  | step {c : C} {k : R c → Prog R α} {tr : List (Event R)} {q : Prog R α} (r : R c)
      (h : Path (k r) tr q) : Path (call c k) (⟨c, r⟩ :: tr) q

/-- The program returns `a` after the trace `tr`. -/
def Returns (p : Prog R α) (tr : List (Event R)) (a : α) : Prop := Path p tr (ret a)

theorem Path.trans {p q s : Prog R α} {tr tr' : List (Event R)} (h : Path p tr q)
    (h' : Path q tr' s) : Path p (tr ++ tr') s := by
  induction h with
  | here p => exact h'
  | step r _ ih => exact .step r (ih h')

/-- A run of the first part is one of the whole. -/
theorem Path.bind {p q : Prog R α} {tr : List (Event R)} (h : Path p tr q) (f : α → Prog R β) :
    Path (p.bind f) tr (q.bind f) := by
  induction h with
  | here p => exact .here _
  | step r _ ih => exact .step r ih

/-- A run of the first part goes on as a run of the second. -/
theorem Path.bind_of_returns {p : Prog R α} {f : α → Prog R β} {tr tr' : List (Event R)} {a : α}
    {q : Prog R β} (h : Returns p tr a) (h' : Path (f a) tr' q) :
    Path (p.bind f) (tr ++ tr') q := by
  induction p generalizing tr with
  | ret b =>
    cases h
    exact h'
  | hang => cases h
  | call c k ih =>
    cases h with
    | step r h => exact .step r (ih r h)

/-- A run of a sequence that returns splits at the end of its first part. -/
theorem Returns.of_bind {p : Prog R α} {f : α → Prog R β} {tr : List (Event R)} {b : β}
    (h : Returns (p.bind f) tr b) :
    ∃ tr₁ tr₂ a, tr = tr₁ ++ tr₂ ∧ Returns p tr₁ a ∧ Returns (f a) tr₂ b := by
  induction p generalizing tr with
  | ret a => exact ⟨[], tr, a, rfl, .here _, h⟩
  | hang => cases h
  | call c k ih =>
    cases h with
    | step r h =>
      obtain ⟨tr₁, tr₂, a, rfl, h₁, h₂⟩ := ih r h
      exact ⟨⟨c, r⟩ :: tr₁, tr₂, a, rfl, .step r h₁, h₂⟩

/-- The program returns, whatever the responses are. -/
def Ends : Prog R α → Prop
  | ret _ => True
  | hang => False
  | call _ k => ∀ r, Ends (k r)

theorem Ends.bind {p : Prog R α} {f : α → Prog R β} (hp : p.Ends) (hf : ∀ a, (f a).Ends) :
    (p.bind f).Ends := by
  induction p with
  | ret a => exact hf a
  | hang => exact hp
  | call c k ih => exact fun r => ih r (hp r)

end Prog

/-- A program over a state of type `σ` that may raise an exception of type `ε`. What happened to
the state before an exception stays. -/
def Proc {C : Type} (R : C → Type) (ε σ α : Type) : Type := σ → Prog R (Except ε α × σ)

namespace Proc

def pure (a : α) : Proc R ε σ α := fun s => .ret (.ok a, s)

def bind (p : Proc R ε σ α) (f : α → Proc R ε σ β) : Proc R ε σ β := fun s =>
  (p s).bind fun r =>
    match r with
    | (.ok a, s) => f a s
    | (.error e, s) => .ret (.error e, s)

def throw (e : ε) : Proc R ε σ α := fun s => .ret (.error e, s)

/-- Runs `p`; an exception of it is handled by `h`. -/
def tryCatch (p : Proc R ε σ α) (h : ε → Proc R ε σ α) : Proc R ε σ α := fun s =>
  (p s).bind fun r =>
    match r with
    | (.ok a, s) => .ret (.ok a, s)
    | (.error e, s) => h e s

/-- Runs `p` and returns its exception, if any, as a value. -/
def attempt (p : Proc R ε σ α) : Proc R ε σ (Except ε α) := fun s =>
  (p s).bind fun r => .ret (.ok r.1, r.2)

def get : Proc R ε σ σ := fun s => .ret (.ok s, s)

def set (s : σ) : Proc R ε σ PUnit := fun _ => .ret (.ok ⟨⟩, s)

instance : Monad (Proc R ε σ) where
  pure := Proc.pure
  bind := Proc.bind

instance : MonadStateOf σ (Proc R ε σ) where
  get := Proc.get
  set := Proc.set
  modifyGet f := fun s => .ret (.ok (f s).1, (f s).2)

instance : MonadExceptOf ε (Proc R ε σ) where
  throw := Proc.throw
  tryCatch := Proc.tryCatch

/-- The program that never comes back. -/
def hang : Proc R ε σ α := fun _ => .hang

/-- Runs `p` only if the condition holds. -/
def when (condition : Bool) (p : Proc R ε σ PUnit) : Proc R ε σ PUnit :=
  if condition then p else Proc.pure ⟨⟩

/-- Runs `p`, then `q` whether or not `p` raised. An exception of `q` replaces that of `p`. -/
def tryFinally (p : Proc R ε σ α) (q : Proc R ε σ PUnit) : Proc R ε σ α := do
  let r ← p.attempt
  q
  match r with
  | .ok a => Proc.pure a
  | .error e => Proc.throw e

/-- Runs every program, whichever raise, and then raises the first exception. -/
def runAll : List (Proc R ε σ PUnit) → Option ε → Proc R ε σ PUnit
  | [], none => Proc.pure ⟨⟩
  | [], some e => Proc.throw e
  | p :: ps, first => do
    match ← p.attempt with
    | .ok _ => runAll ps first
    | .error e => runAll ps (first.or (some e))

/-- Runs a program over a part of the state. -/
def zoom (view : τ → σ) (put : τ → σ → τ) (p : Proc R ε σ α) : Proc R ε τ α := fun t =>
  (p (view t)).bind fun r => .ret (r.1, put t r.2)

/-- A run of the first part goes on as one of the second. -/
theorem returns_bind {p : Proc R ε σ α} {f : α → Proc R ε σ β} {s s' : σ}
    {tr tr' : List (Event R)} {a : α} {r : Except ε β × σ} (hp : (p s).Returns tr (.ok a, s'))
    (hf : (f a s').Returns tr' r) : ((p >>= f) s).Returns (tr ++ tr') r :=
  Prog.Path.bind_of_returns hp hf

theorem path_bind {p : Proc R ε σ α} {f : α → Proc R ε σ β} {s s' : σ} {tr tr' : List (Event R)}
    {a : α} {q : Prog R (Except ε β × σ)} (hp : (p s).Returns tr (.ok a, s'))
    (hf : Prog.Path (f a s') tr' q) : Prog.Path ((p >>= f) s) (tr ++ tr') q :=
  Prog.Path.bind_of_returns hp hf

theorem get_bind (f : σ → Proc R ε σ β) (s : σ) : (MonadState.get >>= f) s = f s s := rfl

theorem returns_get_bind {f : σ → Proc R ε σ β} {s : σ} {tr : List (Event R)}
    {r : Except ε β × σ} :
    ((MonadState.get >>= f) s).Returns tr r ↔ (f s s).Returns tr r := Iff.rfl

theorem returns_tryCatch {p : Proc R ε σ α} (h : ε → Proc R ε σ α) {s s' : σ}
    {tr : List (Event R)} {a : α} (hp : (p s).Returns tr (.ok a, s')) :
    ((MonadExcept.tryCatch p h) s).Returns tr (.ok a, s') := by
  have hret := Prog.Path.bind_of_returns (f := fun r : Except ε α × σ =>
    match r with
    | (.ok a, s) => .ret (.ok a, s)
    | (.error e, s) => h e s) hp (.here _)
  rwa [List.append_nil] at hret

/-- The program returns or raises, from any state. -/
def Ends (p : Proc R ε σ α) : Prop := ∀ s, (p s).Ends

theorem Ends.bind {p : Proc R ε σ α} {f : α → Proc R ε σ β} (hp : Ends p)
    (hf : ∀ a, Ends (f a)) : Ends (p >>= f) := by
  intro s
  refine (hp s).bind ?_
  rintro ⟨r, s'⟩
  cases r with
  | ok a => exact hf a s'
  | error e => trivial

theorem Ends.tryCatch {p : Proc R ε σ α} {h : ε → Proc R ε σ α} (hp : Ends p)
    (hh : ∀ e, Ends (h e)) : Ends (MonadExcept.tryCatch p h) := by
  intro s
  refine (hp s).bind ?_
  rintro ⟨r, s'⟩
  cases r with
  | ok a => trivial
  | error e => exact hh e s'

theorem Ends.attempt {p : Proc R ε σ α} (hp : Ends p) : Ends p.attempt :=
  fun s => (hp s).bind fun _ => trivial

theorem Ends.when {p : Proc R ε σ PUnit} (hp : Ends p) (condition : Bool) :
    Ends (Proc.when condition p) := by
  cases condition
  · exact fun _ => trivial
  · exact hp

end Proc

end Interaction
