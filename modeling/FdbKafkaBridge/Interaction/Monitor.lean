import FdbKafkaBridge.Interaction.Prog

/-!
# Monitors and weakest preconditions

A monitor watches the events of a run and refuses those that it does not allow. `Accepts M p Q m`
says that a monitor in state `m` allows every event of every run of `p`, cut off runs included, and
that `Q` holds of the result and the monitor whenever `p` returns. `Proc.wp` is the same over a
state, with one rule for each way of building a `Proc`.
-/

namespace Interaction

variable {C : Type} {R : C → Type} {α β ε μ σ τ : Type}

/-- An automaton over events: `next m e` is the state after the event `e`, if `e` is allowed. -/
structure Monitor {C : Type} (R : C → Type) (μ : Type) where
  next : μ → Event R → Option μ

namespace Monitor

/-- The monitor that allows everything. -/
def free : Monitor R Unit where
  next _ _ := some ()

/-- The monitor that allows the calls of a kind. -/
def only (allowed : C → Bool) : Monitor R Unit where
  next _ e := if allowed e.call then some () else none

variable (M : Monitor R μ)

/-- The state after a whole trace, if all its events are allowed. -/
def run (m : μ) (tr : List (Event R)) : Option μ := tr.foldlM M.next m

@[simp] theorem run_nil (m : μ) : M.run m [] = some m := rfl

theorem run_cons (m : μ) (e : Event R) (tr : List (Event R)) :
    M.run m (e :: tr) = (M.next m e).bind fun m' => M.run m' tr := rfl

theorem run_append (m : μ) (tr tr' : List (Event R)) :
    M.run m (tr ++ tr') = (M.run m tr).bind fun m' => M.run m' tr' := by
  simp only [run, List.foldlM_append]
  rfl

/-- The same for a property of the trace so far and the state that it led to. -/
theorem run_history {P : List (Event R) → μ → Prop} {m m' : μ} {tr : List (Event R)}
    (hrun : M.run m tr = some m') (h0 : P [] m)
    (hstep : ∀ h m e m', P h m → M.next m e = some m' → P (h ++ [e]) m') : P tr m' := by
  induction tr using List.reverseRecOn generalizing m' with
  | nil =>
    cases hrun
    exact h0
  | append_singleton tr e ih =>
    rw [run_append] at hrun
    obtain ⟨m₁, h₁, he⟩ := Option.bind_eq_some_iff.1 hrun
    rw [run_cons] at he
    obtain ⟨m₂, he, hnil⟩ := Option.bind_eq_some_iff.1 he
    cases hnil
    exact hstep tr m₁ e _ (ih h₁) he

theorem of_only_run {allowed : C → Bool} {m m' : Unit} {tr : List (Event R)}
    (h : (only allowed).run m tr = some m') : ∀ e ∈ tr, allowed e.call = true := by
  induction tr generalizing m with
  | nil => exact fun _ hmem => nomatch hmem
  | cons e tr ih =>
    rw [run_cons] at h
    obtain ⟨m₁, he, h⟩ := Option.bind_eq_some_iff.1 h
    have hallowed : allowed e.call = true := (Option.ite_none_right_eq_some.1 he).1
    intro e' hmem
    rcases List.mem_cons.1 hmem with rfl | hmem
    · exact hallowed
    · exact ih h e' hmem

end Monitor

variable {M : Monitor R μ}

/-- The monitor allows every run of the program, and `Q` holds whenever it returns. -/
def Accepts (M : Monitor R μ) : Prog R α → (α → μ → Prop) → μ → Prop
  | .ret a, Q, m => Q a m
  | .hang, _, _ => True
  | .call c k, Q, m => ∀ r, ∃ m', M.next m ⟨c, r⟩ = some m' ∧ Accepts M (k r) Q m'

theorem Accepts.mono {p : Prog R α} {Q Q' : α → μ → Prop} {m : μ}
    (h : Accepts M p Q m) (hQ : ∀ a m, Q a m → Q' a m) : Accepts M p Q' m := by
  induction p generalizing m with
  | ret a => exact hQ a m h
  | hang => trivial
  | call c k ih =>
    intro r
    obtain ⟨m', hm', hk⟩ := h r
    exact ⟨m', hm', ih r hk⟩

theorem accepts_bind {p : Prog R α} {f : α → Prog R β} {Q : β → μ → Prop} {m : μ} :
    Accepts M (p.bind f) Q m ↔ Accepts M p (fun a m' => Accepts M (f a) Q m') m := by
  induction p generalizing m with
  | ret a => rfl
  | hang => rfl
  | call c k ih =>
    constructor
    · intro h r
      obtain ⟨m', hm', hk⟩ := h r
      exact ⟨m', hm', (ih r).1 hk⟩
    · intro h r
      obtain ⟨m', hm', hk⟩ := h r
      exact ⟨m', hm', (ih r).2 hk⟩

/-- What is accepted stays accepted along a run. -/
theorem Accepts.of_path {p q : Prog R α} {tr : List (Event R)} {Q : α → μ → Prop}
    {m : μ} (h : Accepts M p Q m) (hpath : Prog.Path p tr q) :
    ∃ m', M.run m tr = some m' ∧ Accepts M q Q m' := by
  induction hpath generalizing m with
  | here p => exact ⟨m, rfl, h⟩
  | step r _ ih =>
    obtain ⟨m₁, hm₁, hk⟩ := h r
    obtain ⟨m', hrun, hq⟩ := ih hk
    refine ⟨m', ?_, hq⟩
    rw [Monitor.run_cons, hm₁]
    exact hrun

/-- A call on a run is allowed whatever its response. -/
theorem Accepts.allows {p q : Prog R α} {before after : List (Event R)} {e : Event R}
    {Q : α → μ → Prop} {m : μ} (h : Accepts M p Q m) (hpath : Prog.Path p (before ++ e :: after) q) :
    ∃ m', M.run m before = some m' ∧ ∀ r, ∃ m'', M.next m' ⟨e.call, r⟩ = some m'' := by
  induction before generalizing p m with
  | nil =>
    cases hpath with
    | step r hrest =>
      refine ⟨m, rfl, fun r' => ?_⟩
      obtain ⟨m', hnext, -⟩ := h r'
      exact ⟨m', hnext⟩
  | cons e' before ih =>
    cases hpath with
    | step r hrest =>
      obtain ⟨m₁, hnext, hk⟩ := h r
      obtain ⟨m', hrun, hallows⟩ := ih hk hrest
      refine ⟨m', ?_, hallows⟩
      rw [Monitor.run_cons, hnext]
      exact hrun

theorem Accepts.of_returns {p : Prog R α} {tr : List (Event R)} {a : α} {Q : α → μ → Prop}
    {m : μ} (h : Accepts M p Q m) (hret : p.Returns tr a) :
    ∃ m', M.run m tr = some m' ∧ Q a m' :=
  h.of_path hret

/-! ## Programs with a state -/

namespace Proc

/-- The weakest precondition of `p` for the postcondition `Q` of its result, of the state and of
the monitor. -/
def wp (M : Monitor R μ) (p : Proc R ε σ α) (Q : Except ε α → σ → μ → Prop) (s : σ)
    (m : μ) : Prop :=
  Accepts M (p s) (fun r m' => Q r.1 r.2 m') m

variable {Q : Except ε α → σ → μ → Prop} {s : σ} {m : μ}

theorem wp_mono {p : Proc R ε σ α} {Q' : Except ε α → σ → μ → Prop} (h : wp M p Q s m)
    (hQ : ∀ r s m, Q r s m → Q' r s m) : wp M p Q' s m :=
  Accepts.mono h fun r m' => hQ r.1 r.2 m'

/-- The rest of a sequence runs only when its first part returns. -/
def andThen (M : Monitor R μ) (f : α → Proc R ε σ β) (Q : Except ε β → σ → μ → Prop) :
    Except ε α → σ → μ → Prop
  | .ok a, s, m => wp M (f a) Q s m
  | .error e, s, m => Q (.error e) s m

@[simp] theorem wp_pure {a : α} : wp M (Pure.pure a : Proc R ε σ α) Q s m ↔ Q (.ok a) s m := Iff.rfl

@[simp] theorem wp_throw {e : ε} :
    wp M (MonadExcept.throw e : Proc R ε σ α) Q s m ↔ Q (.error e) s m := Iff.rfl

@[simp] theorem wp_hang : wp M (hang : Proc R ε σ α) Q s m := trivial

@[simp] theorem wp_get {Q : Except ε σ → σ → μ → Prop} :
    wp M (MonadState.get : Proc R ε σ σ) Q s m ↔ Q (.ok s) s m := Iff.rfl

@[simp] theorem wp_modify {Q : Except ε PUnit → σ → μ → Prop} {f : σ → σ} :
    wp M (modify f : Proc R ε σ PUnit) Q s m ↔ Q (.ok ⟨⟩) (f s) m := Iff.rfl

theorem wp_bind {p : Proc R ε σ α} {f : α → Proc R ε σ β} {Q : Except ε β → σ → μ → Prop} :
    wp M (p >>= f) Q s m ↔ wp M p (andThen M f Q) s m := by
  show Accepts M (Prog.bind (p s) _) _ m ↔ _
  rw [accepts_bind]
  constructor
  · refine fun h => Accepts.mono h ?_
    rintro ⟨r, s'⟩ m' h'
    cases r <;> exact h'
  · refine fun h => Accepts.mono h ?_
    rintro ⟨r, s'⟩ m' h'
    cases r <;> exact h'

theorem wp_get_bind {f : σ → Proc R ε σ β} {Q : Except ε β → σ → μ → Prop} :
    wp M (MonadState.get >>= f) Q s m ↔ wp M (f s) Q s m := Iff.rfl

theorem wp_modify_bind {g : σ → σ} {f : PUnit → Proc R ε σ β} {Q : Except ε β → σ → μ → Prop} :
    wp M (modify g >>= f) Q s m ↔ wp M (f ⟨⟩) Q (g s) m := Iff.rfl

theorem wp_attempt {p : Proc R ε σ α} {Q : Except ε (Except ε α) → σ → μ → Prop} :
    wp M p.attempt Q s m ↔ wp M p (fun r => Q (.ok r)) s m := by
  show Accepts M (Prog.bind (p s) _) _ m ↔ _
  rw [accepts_bind]
  rfl

theorem wp_when {condition : Bool} {p : Proc R ε σ PUnit}
    {Q : Except ε PUnit → σ → μ → Prop} :
    wp M (when condition p) Q s m ↔ if condition then wp M p Q s m else Q (.ok ⟨⟩) s m := by
  cases condition <;> rfl

/-- An exception of the first part is what the handler is given. -/
def orElse (M : Monitor R μ) (h : ε → Proc R ε σ α) (Q : Except ε α → σ → μ → Prop) :
    Except ε α → σ → μ → Prop
  | .ok a, s, m => Q (.ok a) s m
  | .error e, s, m => wp M (h e) Q s m

theorem wp_tryCatch {p : Proc R ε σ α} {h : ε → Proc R ε σ α} :
    wp M (MonadExcept.tryCatch p h) Q s m ↔ wp M p (orElse M h Q) s m := by
  show Accepts M (Prog.bind (p s) _) _ m ↔ _
  rw [accepts_bind]
  constructor
  · refine fun h => Accepts.mono h ?_
    rintro ⟨r, s'⟩ m' h'
    cases r <;> exact h'
  · refine fun h => Accepts.mono h ?_
    rintro ⟨r, s'⟩ m' h'
    cases r <;> exact h'

theorem wp_zoom {p : Proc R ε σ α} {view : τ → σ} {put : τ → σ → τ} {t : τ}
    {Q : Except ε α → τ → μ → Prop} :
    wp M (zoom view put p) Q t m ↔ wp M p (fun r s m => Q r (put t s) m) (view t) m := by
  show Accepts M (Prog.bind (p (view t)) _) _ m ↔ _
  rw [accepts_bind]
  rfl

theorem wp_tryFinally {p : Proc R ε σ α} {q : Proc R ε σ PUnit} :
    wp M (tryFinally p q) Q s m ↔
      wp M p (fun r => wp M q (andThen M (fun _ s => .ret (r, s)) Q)) s m := by
  rw [tryFinally, wp_bind, wp_attempt]
  constructor
  · refine fun h => wp_mono h fun r s' m' h' => ?_
    refine wp_mono (wp_bind.1 h') fun r' s'' m'' h'' => ?_
    cases r' with
    | error e => exact h''
    | ok u => cases r <;> exact h''
  · refine fun h => wp_mono h fun r s' m' h' => ?_
    refine wp_bind.2 (wp_mono h' fun r' s'' m'' h'' => ?_)
    cases r' with
    | error e => exact h''
    | ok u => cases r <;> exact h''

/-- The consequence rule for a sequence, from a specification of its first part. -/
theorem wp_bind_of {p : Proc R ε σ α} {f : α → Proc R ε σ β}
    {P : Except ε α → σ → μ → Prop} {Q : Except ε β → σ → μ → Prop}
    (hp : wp M p P s m) (hok : ∀ a s m, P (.ok a) s m → wp M (f a) Q s m)
    (herror : ∀ e s m, P (.error e) s m → Q (.error e) s m) : wp M (p >>= f) Q s m := by
  refine wp_bind.2 (wp_mono hp fun r s' m' h => ?_)
  cases r with
  | ok a => exact hok a s' m' h
  | error e => exact herror e s' m' h

theorem wp_tryCatch_of {p : Proc R ε σ α} {h : ε → Proc R ε σ α}
    {P Q : Except ε α → σ → μ → Prop} (hp : wp M p P s m)
    (hok : ∀ a s m, P (.ok a) s m → Q (.ok a) s m)
    (herror : ∀ e s m, P (.error e) s m → wp M (h e) Q s m) :
    wp M (MonadExcept.tryCatch p h) Q s m := by
  refine wp_tryCatch.2 (wp_mono hp fun r s' m' hr => ?_)
  cases r with
  | ok a => exact hok a s' m' hr
  | error e => exact herror e s' m' hr

/-- However `p` ends, `I` holds again. -/
def Preserves (M : Monitor R μ) (I : σ → μ → Prop) (p : Proc R ε σ α) : Prop :=
  ∀ s m, I s m → wp M p (fun _ => I) s m

section Preserves

variable {I : σ → μ → Prop}

theorem preserves_pure (a : α) : Preserves M I (Pure.pure a : Proc R ε σ α) := fun _ _ h => h

theorem preserves_throw (e : ε) : Preserves M I (MonadExcept.throw e : Proc R ε σ α) :=
  fun _ _ h => h

theorem preserves_get : Preserves M I (MonadState.get : Proc R ε σ σ) := fun _ _ h => h

theorem preserves_hang : Preserves M I (hang : Proc R ε σ α) := fun _ _ _ => trivial

theorem preserves_modify {f : σ → σ} (h : ∀ s m, I s m → I (f s) m) :
    Preserves M I (modify f : Proc R ε σ PUnit) := h

theorem Preserves.bind {p : Proc R ε σ α} {f : α → Proc R ε σ β} (hp : Preserves M I p)
    (hf : ∀ a, Preserves M I (f a)) : Preserves M I (p >>= f) := by
  intro s m h
  exact wp_bind_of (hp s m h) (fun a s m h => hf a s m h) (fun _ _ _ h => h)

theorem Preserves.tryCatch {p : Proc R ε σ α} {h : ε → Proc R ε σ α} (hp : Preserves M I p)
    (hh : ∀ e, Preserves M I (h e)) : Preserves M I (MonadExcept.tryCatch p h) := by
  intro s m hs
  exact wp_tryCatch_of (hp s m hs) (fun _ _ _ h => h) (fun e s m h => hh e s m h)

theorem Preserves.attempt {p : Proc R ε σ α} (hp : Preserves M I p) :
    Preserves M I p.attempt :=
  fun s m h => wp_attempt.2 (hp s m h)

theorem Preserves.tryFinally {p : Proc R ε σ α} {q : Proc R ε σ PUnit} (hp : Preserves M I p)
    (hq : Preserves M I q) : Preserves M I (tryFinally p q) := by
  refine hp.attempt.bind fun r => hq.bind fun _ => ?_
  cases r with
  | ok a => exact preserves_pure a
  | error e => exact preserves_throw e

theorem Preserves.ite {c : Prop} [Decidable c] {p q : Proc R ε σ α} (hp : Preserves M I p)
    (hq : Preserves M I q) : Preserves M I (if c then p else q) := by
  by_cases hc : c
  · rwa [if_pos hc]
  · rwa [if_neg hc]

theorem Preserves.when {p : Proc R ε σ PUnit} (hp : Preserves M I p) (condition : Bool) :
    Preserves M I (Proc.when condition p) := by
  cases condition
  · exact fun s m h => h
  · exact hp

/-- A program over a part of the state that preserves what the invariant says of that part. -/
theorem Preserves.zoom {J : τ → μ → Prop} {view : τ → σ} {put : τ → σ → τ}
    {p : Proc R ε σ α} (hp : Preserves M I p) (hview : ∀ t m, J t m → I (view t) m)
    (hput : ∀ t m s m', J t m → I s m' → J (put t s) m') :
    Preserves M J (Proc.zoom view put p) := by
  intro t m ht
  rw [wp_zoom]
  exact wp_mono (hp _ _ (hview t m ht)) fun r s m' hs => hput t m s m' ht hs

/-- What no event changes in the monitor, no program changes. -/
theorem preserves_monitor {P : μ → Prop}
    (hM : ∀ m e, P m → ∃ m', M.next m e = some m' ∧ P m') (p : Proc R ε σ α) :
    Preserves M (fun _ => P) p := by
  intro s m hP
  show Accepts M (p s) (fun _ => P) m
  induction p s generalizing m with
  | ret a => exact hP
  | hang => trivial
  | call c k ih =>
    intro r
    obtain ⟨m', hnext, hP'⟩ := hM m ⟨c, r⟩ hP
    exact ⟨m', hnext, ih r m' hP'⟩

end Preserves

/-! ## Programs with calls of one kind only -/

/-- Every call of the program is of the kind. -/
abbrev CallsOnly (allowed : C → Bool) (p : Proc R ε σ α) : Prop :=
  Preserves (Monitor.only allowed) (fun _ _ => True) p

theorem CallsOnly.of_path {allowed : C → Bool} {p : Proc R ε σ α} (h : CallsOnly allowed p)
    {s : σ} {tr : List (Event R)} {q : Prog R (Except ε α × σ)}
    (hpath : Prog.Path (p s) tr q) : ∀ e ∈ tr, allowed e.call = true := by
  obtain ⟨m', hrun, -⟩ := (h s () trivial).of_path hpath
  exact Monitor.of_only_run hrun

theorem CallsOnly.mono {allowed allowed' : C → Bool} {p : Proc R ε σ α} (h : CallsOnly allowed p)
    (hallowed : ∀ c, allowed c = true → allowed' c = true) : CallsOnly allowed' p := by
  rintro s ⟨⟩ -
  have hs := h s () trivial
  unfold wp at hs ⊢
  generalize p s = q at hs ⊢
  induction q with
  | ret a => trivial
  | hang => trivial
  | call c k ih =>
    intro r
    obtain ⟨m', hnext, hk⟩ := hs r
    have hc : allowed c = true := (Option.ite_none_right_eq_some.1 hnext).1
    exact ⟨(), if_pos (hallowed c hc), ih r hk⟩

theorem CallsOnly.zoom {allowed : C → Bool} {p : Proc R ε σ α} (h : CallsOnly allowed p)
    (view : τ → σ) (put : τ → σ → τ) : CallsOnly allowed (Proc.zoom view put p) :=
  Preserves.zoom h (fun _ _ _ => trivial) fun _ _ _ _ _ _ => trivial

theorem CallsOnly.runAll {allowed : C → Bool} {ps : List (Proc R ε σ PUnit)} (first : Option ε)
    (h : ∀ p ∈ ps, CallsOnly allowed p) : CallsOnly allowed (runAll ps first) := by
  induction ps generalizing first with
  | nil =>
    cases first with
    | none => exact preserves_pure _
    | some e => exact preserves_throw e
  | cons p ps ih =>
    have hps : ∀ first, CallsOnly allowed (Proc.runAll ps first) := fun first =>
      ih first fun q hq => h q (List.mem_cons_of_mem p hq)
    refine (h p List.mem_cons_self).attempt.bind fun r => ?_
    cases r with
    | ok u => exact hps _
    | error e => exact hps _

end Proc

end Interaction
