import FdbKafkaBridge.Bridge.Proofs.BoundProofs

/-!
# The daemon after a stop

Once the shutdown event is set a section of the run thread that would step finds it set and leaves
the loop. Everything else about `stop` holds from any state that the threads can reach.
-/

namespace FdbKafkaBridge

open Serialization (FDBMutationRecord)
open Interaction

/-! ## The bridge of the daemon -/

namespace Daemon

open Bridge

/-- The pipeline of the daemon has all that it is bound to. -/
def Bound (d : Daemon) (_ : Unit) : Prop := d.run.bridge.Bound

theorem returns_onBridge {α : Type} {p : Py Bridge α} {d d' : Daemon} {tr : List (Event Response)}
    {r : Except PyExc α} (h : (onBridge p d).Returns tr (r, d')) :
    ∃ b', (p d.run.bridge).Returns tr (r, b') ∧
      d' = { d with run := { d.run with bridge := b' } } := by
  unfold onBridge onRun Bridge.onBridge at h
  obtain ⟨r₁, s, h₁, heq₁⟩ := Proc.returns_zoom.1 h
  obtain ⟨r₂, b', h₂, heq₂⟩ := Proc.returns_zoom.1 h₁
  obtain ⟨rfl, rfl⟩ := Prod.mk.inj heq₁
  obtain ⟨rfl, rfl⟩ := Prod.mk.inj heq₂
  exact ⟨b', h₂, rfl⟩

end Daemon

/-! ## The run thread after a stop -/

namespace Daemon

open Bridge

variable {fuel : ℕ} {d : Daemon} {tr : List (Event Response)}
  {q : Prog Response (Except PyExc Unit × Daemon)}

/-- The section asks for the shutdown event first, and leaves the loop if it is set. -/
def LooksFirst (d : Daemon) (tr : List (Event Response))
    (q : Prog Response (Except PyExc Unit × Daemon)) : Prop :=
  (tr = [] ∧ ∀ a, q ≠ .ret a) ∨ ∃ (r : Response (.host .shutdownIsSet)) (rest : List (Event Response)),
    tr = ⟨_, r⟩ :: rest ∧ (r.result = .ok true → rest = [] ∧
      q = .ret (.ok (), setPhase .ended (HasCallbacks.runCallbacks r.callbacks d)))

theorem path_atHead (h : Prog.Path (atHead d) tr q) : LooksFirst d tr q := by
  change Prog.Path (.call (.host .shutdownIsSet) _) tr q at h
  cases h with
  | here => exact .inl ⟨rfl, fun _ h => nomatch h⟩
  | @step _ _ rest _ r h =>
    refine .inr ⟨r, rest, rfl, fun hset => ?_⟩
    obtain ⟨callbacks, result, hreturns⟩ := r
    subst hset
    cases h
    exact ⟨rfl, rfl⟩

theorem path_atStep (h : Prog.Path (atStep fuel d) tr q) : LooksFirst d tr q := by
  change Prog.Path (.call (.host .shutdownIsSet) _) tr q at h
  cases h with
  | here => exact .inl ⟨rfl, fun _ h => nomatch h⟩
  | @step _ _ rest _ r h =>
    refine .inr ⟨r, rest, rfl, fun hset => ?_⟩
    obtain ⟨callbacks, result, hreturns⟩ := r
    subst hset
    cases h
    exact ⟨rfl, rfl⟩

/-- The program has no calls but those of the shutdown event. -/
abbrev OnlyShutdownEvent {σ α : Type} (p : Py σ α) : Prop :=
  Proc.CallsOnly Call.isShutdownEvent p

theorem onlyShutdownEvent_native {σ : Type} [HasCallbacks σ] {c : Call}
    (hc : c.isShutdownEvent = true) : OnlyShutdownEvent (native c : Py σ c.Value) :=
  preserves_native fun _ _ _ _ => ⟨(), if_pos hc, trivial⟩

theorem onlyShutdownEvent_modify {σ : Type} (f : σ → σ) :
    OnlyShutdownEvent (modify f : Py σ PUnit) := Proc.preserves_modify fun _ _ _ => trivial

theorem onlyShutdownEvent_waitBackoff : OnlyShutdownEvent waitBackoff := by
  refine Proc.preserves_get.bind fun r => ?_
  exact (onlyShutdownEvent_native rfl).bind fun _ => onlyShutdownEvent_modify growBackoff

theorem onlyShutdownEvent_atStepped (published : ℕ) (records : List FDBMutationRecord) :
    OnlyShutdownEvent (atStepped published records) := by
  have hafter : OnlyShutdownEvent (afterStep published records) := by
    refine Proc.Preserves.ite onlyShutdownEvent_waitBackoff ?_
    exact (onlyShutdownEvent_modify _).bind fun _ => onlyShutdownEvent_modify _
  exact (Proc.CallsOnly.zoom hafter _ _).bind fun _ => onlyShutdownEvent_modify _

theorem onlyShutdownEvent_atFailed (exc : PyExc) : OnlyShutdownEvent (atFailed exc) := by
  unfold atFailed
  refine Proc.Preserves.ite ?_ ?_
  · refine (onlyShutdownEvent_native rfl).bind fun _ => ?_
    exact (onlyShutdownEvent_modify _).bind fun _ => Proc.preserves_throw exc
  · exact (Proc.CallsOnly.zoom (onlyShutdownEvent_modify countRetry) _ _).bind fun _ =>
      onlyShutdownEvent_modify _

theorem onlyShutdownEvent_atNote (exc : PyExc) : OnlyShutdownEvent (atNote exc) :=
  (Proc.CallsOnly.zoom (onlyShutdownEvent_modify (noteError exc)) _ _).bind fun _ =>
    onlyShutdownEvent_modify _

theorem onlyShutdownEvent_atWait : OnlyShutdownEvent atWait :=
  (Proc.CallsOnly.zoom onlyShutdownEvent_waitBackoff _ _).bind fun _ => onlyShutdownEvent_modify _

/-- A section that does not look at the shutdown event first has no step in it. -/
theorem path_resume (h : Prog.Path (resume fuel d) tr q) :
    (LooksFirst d tr q ∧ (d.phase = .head ∨ d.phase = .step)) ∨
      ((∀ e ∈ tr, e.call.isShutdownEvent = true) ∧ d.phase ≠ .head ∧ d.phase ≠ .step) := by
  rw [resume, Proc.get_bind] at h
  cases hphase : d.phase with
  | ended =>
    rw [hphase] at h
    cases h
    exact .inr ⟨fun _ hmem => (nomatch hmem), by simp⟩
  | head =>
    rw [hphase] at h
    exact .inl ⟨path_atHead h, .inl rfl⟩
  | step =>
    rw [hphase] at h
    exact .inl ⟨path_atStep h, .inr rfl⟩
  | stepped published records =>
    rw [hphase] at h
    exact .inr ⟨(onlyShutdownEvent_atStepped published records).of_path h, by simp⟩
  | failed exc =>
    rw [hphase] at h
    exact .inr ⟨(onlyShutdownEvent_atFailed exc).of_path h, by simp⟩
  | note exc =>
    rw [hphase] at h
    exact .inr ⟨(onlyShutdownEvent_atNote exc).of_path h, by simp⟩
  | wait =>
    rw [hphase] at h
    exact .inr ⟨onlyShutdownEvent_atWait.of_path h, by simp⟩

end Daemon

namespace DaemonMark

open Daemon

variable {fuel : ℕ} {past marks : List DaemonMark}

theorem EventIsSticky.of_append (h : EventIsSticky (past ++ marks)) : EventIsSticky past := by
  intro before r after heq
  refine h before r (after ++ events marks) ?_
  rw [events_append, heq, List.append_assoc, List.cons_append]

/-- The answer when the event is set already. -/
theorem EventIsSticky.answer {r : Response (.host .shutdownIsSet)} {tr : List (Event Response)}
    (h : EventIsSticky (past ++ (⟨_, r⟩ :: tr : List (Event Response)).map .event))
    (hset : (events past).any (·.call.isShutdownSet) = true) : r.result = .ok true :=
  h (events past) r tr (events_calls _ _) hset

theorem isStopped_calls (tr : List (Event Response)) :
    (past ++ tr.map Mark.event).any isStopped = past.any isStopped := by
  rw [List.any_append, List.any_map]
  have hnone : tr.any (isStopped ∘ Mark.event) = false :=
    List.any_eq_false.2 fun _ _ h => nomatch h
  rw [hnone, Bool.or_false]

theorem isStopped_start (i : DaemonMethod) (d : Daemon) :
    (past ++ [Mark.start i d]).any isStopped = past.any isStopped := by
  rw [List.any_append]
  exact Bool.or_false _

theorem startsNothing_onBridge {α : Type} {p : Py Bridge α} (h : StartsNothing p) :
    StartsNothing (onBridge p) := by
  have hrun : StartsNothing (Bridge.onBridge p) := Proc.CallsOnly.zoom h _ _
  exact Proc.CallsOnly.zoom hrun Daemon.run fun d r => { d with run := r }

theorem startsNothing_perform {i : DaemonMethod} (hi : isPartOfStop i = true) :
    StartsNothing (perform fuel i) := by
  cases i with
  | requestShutdown => exact Bridge.startsNothing_requestShutdown
  | unblockStep => exact startsNothing_onBridge Bridge.startsNothing_unblockStep
  | stop n => exact startsNothing_onBridge (Bridge.startsNothing_stop fuel n)
  | start => cases hi
  | callRun => cases hi
  | resume => cases hi

/-- Once `stop` is over, the shutdown event is set. -/
def SetOnceStopped (_ : Daemon) (marks : List DaemonMark) : Prop :=
  marks.any isStopped = true → (events marks).any (·.call.isShutdownSet) = true

/-- `stop` sets the shutdown event before all else. -/
theorem stop_sets {n : ℕ} {d d' : Daemon} {tr : List (Event Response)} {r : Except PyExc Unit}
    (h : (perform fuel (.stop n) d).Returns tr (r, d')) :
    tr.any (·.call.isShutdownSet) = true := by
  obtain ⟨b', hstop, -⟩ := returns_onBridge h
  obtain ⟨set, v, rest, rfl, -, -⟩ := returns_native_bind rfl hstop
  rfl

/-- What the daemon keeps to when the shutdown event is sticky. -/
def Keeping (before : List DaemonMark) (mark : DaemonMark) : Prop :=
  EventIsSticky before → ShutdownMark before mark

theorem perform_keeps (i : DaemonMethod) :
    RunsKeep Keeping SetOnceStopped (perform fuel) i where
  start _ _ _ _ := trivial
  events d past tr q hI hpath := by
    refine keepsAfter_calls ?_
    rintro tr₁ e tr₂ rfl hsticky
    have hmem : e ∈ tr₁ ++ e :: tr₂ := by simp
    refine ⟨fun hpart => ?_, fun hstopped hresume => ?_⟩
    · rw [running_calls, running_start] at hpart
      have hnothing : StartsNothing (perform fuel i) := startsNothing_perform hpart
      have hold := hnothing.of_path hpath e hmem
      simpa using (Bool.and_eq_true_iff.1 hold).1
    · rw [running_calls, running_start] at hresume
      cases hresume
      rw [isStopped_calls, isStopped_start] at hstopped
      rcases path_resume hpath with ⟨hlooks, -⟩ | ⟨hcalls, -⟩
      · rcases hlooks with ⟨hnil, -⟩ | ⟨r, rest, htr, hleaves⟩
        · exact absurd hnil (by simp)
        cases tr₁ with
        | nil =>
          obtain ⟨rfl, -⟩ := List.cons.inj htr
          rfl
        | cons e' tr₁ =>
          obtain ⟨rfl, hrest⟩ := List.cons.inj htr
          have hset : (events (past ++ [.start .resume d])).any (·.call.isShutdownSet) = true := by
            rw [events_start]
            exact hI hstopped
          obtain ⟨rfl, -⟩ := hleaves (hsticky.answer hset)
          exact absurd hrest (by simp)
      · exact hcalls e hmem
  finish d past tr r d' hI hret := by
    refine ⟨fun hsticky hstopped hresume past' d₀ hopening hphase => ?_, fun hstopped => ?_⟩
    · subst hresume
      rw [opening_calls, opening_start] at hopening
      cases hopening
      rw [isStopped_calls, isStopped_start] at hstopped
      rcases path_resume hret with ⟨hlooks, -⟩ | ⟨-, hhead, hstep⟩
      · rcases hlooks with ⟨-, hne⟩ | ⟨r', rest, rfl, hleaves⟩
        · exact absurd rfl (hne _)
        · have hset : (events (past ++ [.start .resume d])).any (·.call.isShutdownSet) = true := by
            rw [events_start]
            exact hI hstopped
          obtain ⟨rfl, hq⟩ := hleaves (hsticky.answer hset)
          cases hq
          exact ⟨rfl, rfl⟩
      · rcases hphase with h | h
        · exact absurd h hhead
        · exact absurd h hstep
    · have hevents : events (past ++ [.start i d] ++ tr.map .event ++ [.finish i r d']) =
          events past ++ tr := by
        rw [events_finish, events_calls, events_start]
      rw [hevents, List.any_append, Bool.or_eq_true]
      rw [List.any_append, isStopped_calls, isStopped_start, Bool.or_eq_true] at hstopped
      rcases hstopped with hstopped | hstopped
      · exact .inl (hI hstopped)
      · cases i with
        | stop n => exact .inr (stop_sets hret)
        | start => cases hstopped
        | callRun => cases hstopped
        | resume => cases hstopped
        | requestShutdown => cases hstopped
        | unblockStep => cases hstopped

end DaemonMark

end FdbKafkaBridge
