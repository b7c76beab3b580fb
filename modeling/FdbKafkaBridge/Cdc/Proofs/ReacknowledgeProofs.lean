import FdbKafkaBridge.Cdc.Proofs.ResumeProofs

/-!
# A resumed listener restores its position safely

What the description of `start` says of its calls: when it acknowledges, what it leaves behind when
it raises, and how often it checks the read version.
-/

namespace FdbKafkaBridge

open Protobuf (Bytes)
open Serialization (FDBMutationRecord)
open Interaction

namespace FDBMutationListener

/-! ## What is promised -/

/-- The only acknowledgement is that of the resumed consumer, after its version could be read, and
nothing is consumed. -/
structure AcknowledgesSafely (cursor : PyCursor) (tr : List (Event Response)) : Prop where
  acknowledge : ∀ tr₁ consumer (ack : Response (.fdb (.acknowledge consumer))) tr₂,
    tr = tr₁ ++ ⟨_, ack⟩ :: tr₂ →
      (∃ (before : List (Event Response)) (resume : Response (.fdb (.resumeCdcConsumer cursor)))
        (since : List (Event Response)), tr₁ = before ++ ⟨_, resume⟩ :: since ∧
          resume.result = .ok consumer ∧ ∃ x ∈ since, Observes (cursorVersion cursor) x) ∧
      ∀ x ∈ tr₁ ++ tr₂, ∀ other, x.call ≠ .fdb (.acknowledge other)
  consume : ∀ x ∈ tr, ∀ consumer, x.call ≠ .fdb (.consume consumer)

/-- The consumer was resumed, and the last call has restored its position. -/
def Restores (l : FDBMutationListener) (cursor : PyCursor) (tr : List (Event Response))
    (l' : FDBMutationListener) : Prop :=
  ∃ (consumer : Handle) (before since : List (Event Response))
    (resume : Response (.fdb (.resumeCdcConsumer cursor)))
    (ack : Response (.fdb (.acknowledge consumer))),
    tr = before ++ ⟨_, resume⟩ :: (since ++ [⟨_, ack⟩]) ∧ resume.result = .ok consumer ∧
      (∃ x ∈ since, Observes (cursorVersion cursor) x) ∧ ack.result = .ok () ∧
      l' = { l with consumer := some consumer }

/-- When a clock reading of the wait is past the deadline, nothing is acknowledged: the version was
checked once more after the last sleep, the consumer is closed, and the timeout is raised unless
`close` raises instead. -/
def TimesOut (timeout : ℚ) (cursor : PyCursor) (tr : List (Event Response))
    (r : Except PyExc Unit) : Prop :=
  ∀ (before since : List (Event Response)) (consumer : Handle)
    (resume : Response (.fdb (.resumeCdcConsumer cursor))) (clock : Response (.host .monotonic))
    (now : ℚ), tr = before ++ ⟨_, resume⟩ :: ⟨_, clock⟩ :: since → resume.result = .ok consumer →
    clock.result = .ok now →
    (∃ (late : Response (.host .monotonic)) (t : ℚ), ⟨_, late⟩ ∈ since ∧ late.result = .ok t ∧
      now + timeout ≤ t) →
    (∀ x ∈ tr, ∀ other, x.call ≠ .fdb (.acknowledge other)) ∧
      ∃ (wait : List (Event Response)) (version : Response (.fdb .getReadVersion))
        (late : Response (.host .monotonic)) (close : Response (.fdb (.closeConsumer consumer))),
        since = wait ++ [⟨_, version⟩, ⟨_, late⟩, ⟨_, close⟩] ∧
          Behind (cursorVersion cursor) version ∧
          r = .error (raisedBy close (timedOut (cursorVersion cursor)))

/-- The listener is as before, and a consumer that was resumed has been closed last. -/
def CleansUp (l : FDBMutationListener) (cursor : PyCursor) (tr : List (Event Response))
    (l' : FDBMutationListener) : Prop :=
  l' = l ∧ ∀ (before since : List (Event Response)) (consumer : Handle)
    (resume : Response (.fdb (.resumeCdcConsumer cursor))), tr = before ++ ⟨_, resume⟩ :: since →
      resume.result = .ok consumer →
      ∃ (rest : List (Event Response)) (close : Response (.fdb (.closeConsumer consumer))),
        since = rest ++ [⟨_, close⟩]

/-- A clock reading. -/
def reading? : Event Response → Option ℚ
  | ⟨.host .monotonic, r⟩ => r.result.toOption
  | _ => none

def readings (tr : List (Event Response)) : List ℚ := tr.filterMap reading?

def isCheck : Event Response → Bool
  | ⟨.fdb .getReadVersion, _⟩ => true
  | _ => false

/-- The iterations of the loop. -/
def checks (tr : List (Event Response)) : ℕ := (tr.filter isCheck).length

/-- Between the readings before and after a sleep, at least the requested time goes by. -/
def SleepsAdvance (tr : List (Event Response)) : Prop :=
  ∀ (tr₁ tr₂ tr₃ : List (Event Response)) (seconds t t' : ℚ) (clock : Response (.host .monotonic))
    (nap : Response (.host (.sleep seconds))) (clock' : Response (.host .monotonic)),
    tr = tr₁ ++ ⟨_, clock⟩ :: ⟨_, nap⟩ :: (tr₂ ++ ⟨_, clock'⟩ :: tr₃) → clock.result = .ok t →
      clock'.result = .ok t' → (∀ x ∈ tr₂, x.call ≠ .host .monotonic) → t + seconds ≤ t'

/-- How often the version may be checked, by the reading that sets the deadline and the first one in
the loop. -/
def checkBound (timeout interval : ℚ) : List ℚ → ℕ
  | t₀ :: t₁ :: _ => ⌈(t₀ + timeout - t₁) / interval⌉₊ + 1
  | _ => 1

/-! ## The loop -/

section Loop

variable {target : ℤ} {deadline interval : ℚ} {n : ℕ} {tr : List (Event Response)}
  {e : Ending (Except PyExc Unit)}

/-- A call of the loop. -/
def isWaiting : Call → Bool
  | .fdb .getReadVersion => true
  | .host .monotonic => true
  | .host (.sleep _) => true
  | _ => false

theorem Waited.isWaiting (h : Waited target deadline interval n tr e) :
    ∀ x ∈ tr, isWaiting x.call = true := by
  induction h with
  | checking n => exact fun _ h => nomatch h
  | hung => exact fun _ h => nomatch h
  | behind hversion => simp [FDBMutationListener.isWaiting]
  | early hversion hclock hnow => simp [FDBMutationListener.isWaiting]
  | reached hversion hv => simp [FDBMutationListener.isWaiting]
  | failed hversion => simp [FDBMutationListener.isWaiting]
  | late hversion hclock hnow => simp [FDBMutationListener.isWaiting]
  | slept hversion hclock hnow nap rest ih =>
    intro x hx
    rcases List.mem_cons.1 hx with rfl | hx
    · rfl
    rcases List.mem_cons.1 hx with rfl | hx
    · rfl
    rcases List.mem_cons.1 hx with rfl | hx
    · rfl
    exact ih x hx

/-- The loop returns only after the version could be read. -/
theorem Waited.observed (h : Waited target deadline interval n tr e)
    (he : e = .returned (.ok ())) : ∃ x ∈ tr, Observes target x := by
  induction h with
  | checking n => cases he
  | hung => cases he
  | behind hversion => cases he
  | early hversion hclock hnow => cases he
  | @reached n version v hversion hv =>
    exact ⟨_, List.mem_singleton_self _, version, v, rfl, hversion, hv⟩
  | failed hversion => cases he
  | late hversion hclock hnow => cases he
  | slept hversion hclock hnow nap rest ih =>
    obtain ⟨x, hx, hobserves⟩ := ih he
    exact ⟨x, by simp [hx], hobserves⟩

/-- After a reading past the deadline, and the check before it, the loop has timed out. -/
theorem Waited.timesOut (h : Waited target deadline interval n tr e)
    {late : Response (.host .monotonic)} {t : ℚ} (hmem : ⟨_, late⟩ ∈ tr)
    (hlate : late.result = .ok t) (ht : deadline ≤ t) :
    e = .returned (.error (timedOut target)) ∧
      ∃ (wait : List (Event Response)) (version : Response (.fdb .getReadVersion))
        (late : Response (.host .monotonic)), tr = wait ++ [⟨_, version⟩, ⟨_, late⟩] ∧
          Behind target version := by
  induction h with
  | checking n => cases hmem
  | hung => cases hmem
  | behind hversion => simp at hmem
  | @early n version clock now hversion hclock hnow =>
    have heq : late = clock := by simpa using hmem
    rw [heq, hclock] at hlate
    cases hlate
    exact absurd ht (not_le.2 hnow)
  | reached hversion hv => simp at hmem
  | failed hversion => simp at hmem
  | @late n version clock now hversion hclock hnow => exact ⟨rfl, [], version, clock, rfl, hversion⟩
  | @slept n version clock now tr e hversion hclock hnow nap rest ih =>
    have hcases : late = clock ∨ ⟨_, late⟩ ∈ tr := by simpa using hmem
    rcases hcases with heq | hmem
    · rw [heq, hclock] at hlate
      cases hlate
      exact absurd ht (not_le.2 hnow)
    · obtain ⟨he, wait, version', late', rfl, hbehind⟩ := ih hmem
      exact ⟨he, _ :: _ :: _ :: wait, version', late', rfl, hbehind⟩

/-! ### How often it checks -/

@[simp] theorem readings_nil : readings [] = [] := rfl

theorem readings_version (version : Response (.fdb .getReadVersion)) :
    readings (⟨_, version⟩ :: tr) = readings tr := rfl

theorem readings_sleep {seconds : ℚ} (nap : Response (.host (.sleep seconds))) :
    readings (⟨_, nap⟩ :: tr) = readings tr := rfl

theorem readings_clock {clock : Response (.host .monotonic)} {t : ℚ}
    (hclock : clock.result = .ok t) : readings (⟨_, clock⟩ :: tr) = t :: readings tr := by
  have hreading : reading? ⟨.host .monotonic, clock⟩ = some t := by
    simp only [reading?, hclock]
    rfl
  exact List.filterMap_cons_some hreading

@[simp] theorem checks_nil : checks [] = 0 := rfl

theorem checks_version (version : Response (.fdb .getReadVersion)) :
    checks (⟨_, version⟩ :: tr) = checks tr + 1 := rfl

theorem checks_clock (clock : Response (.host .monotonic)) :
    checks (⟨_, clock⟩ :: tr) = checks tr := rfl

theorem checks_sleep {seconds : ℚ} (nap : Response (.host (.sleep seconds))) :
    checks (⟨_, nap⟩ :: tr) = checks tr := rfl

theorem SleepsAdvance.of_append {p q : List (Event Response)}
    (h : SleepsAdvance (p ++ q)) : SleepsAdvance q := by
  intro a b c seconds t t' clock nap clock' heq hclock hclock' hbetween
  refine h (p ++ a) b c seconds t t' clock nap clock' ?_ hclock hclock' hbetween
  rw [heq, List.append_assoc]

theorem SleepsAdvance.of_append_left {p q : List (Event Response)}
    (h : SleepsAdvance (p ++ q)) : SleepsAdvance p := by
  intro a b c seconds t t' clock nap clock' heq hclock hclock' hbetween
  refine h a b (c ++ q) seconds t t' clock nap clock' ?_ hclock hclock' hbetween
  rw [heq]
  simp

/-- Before its first reading the loop makes one check. -/
theorem Waited.first_reading (h : Waited target deadline interval n tr e) :
    (readings tr = [] ∧ checks tr ≤ 1) ∨
      ∃ (version : Response (.fdb .getReadVersion)) (clock : Response (.host .monotonic)) (t : ℚ)
        (rest : List (Event Response)), tr = ⟨_, version⟩ :: ⟨_, clock⟩ :: rest ∧
          clock.result = .ok t := by
  cases h with
  | checking n => exact .inl ⟨rfl, Nat.zero_le _⟩
  | hung => exact .inl ⟨rfl, Nat.zero_le _⟩
  | behind hversion => exact .inl ⟨rfl, le_refl _⟩
  | early hversion hclock hnow => exact .inr ⟨_, _, _, _, rfl, hclock⟩
  | reached hversion hv => exact .inl ⟨rfl, le_refl _⟩
  | failed hversion => exact .inl ⟨rfl, le_refl _⟩
  | late hversion hclock hnow => exact .inr ⟨_, _, _, _, rfl, hclock⟩
  | slept hversion hclock hnow nap rest => exact .inr ⟨_, _, _, _, rfl, hclock⟩

/-- The bound after a sleep is smaller by one. -/
theorem ceil_after_sleep {now t : ℚ} (hinterval : 0 < interval) (hnow : now < deadline)
    (ht : now + min interval (deadline - now) ≤ t) :
    ⌈(deadline - t) / interval⌉₊ + 1 ≤ ⌈(deadline - now) / interval⌉₊ := by
  have hpos : 0 < (deadline - now) / interval := div_pos (sub_pos.2 hnow) hinterval
  have hceil : 1 ≤ ⌈(deadline - now) / interval⌉₊ := Nat.one_le_ceil_iff.2 hpos
  rcases le_total interval (deadline - now) with hmin | hmin
  · rw [min_eq_left hmin] at ht
    have hle : (deadline - t) / interval ≤ (deadline - now) / interval - 1 := by
      rw [div_sub_one hinterval.ne']
      exact div_le_div_of_nonneg_right (by linarith) hinterval.le
    have hmono := Nat.ceil_mono hle
    rw [Nat.ceil_sub_one] at hmono
    omega
  · rw [min_eq_right hmin] at ht
    have hle : (deadline - t) / interval ≤ 0 :=
      div_nonpos_of_nonpos_of_nonneg (by linarith) hinterval.le
    rw [Nat.ceil_eq_zero.2 hle]
    omega

theorem Waited.checks_le {timeout t₀ : ℚ} (hinterval : 0 < interval)
    (h : Waited target (t₀ + timeout) interval n tr e) (hsleeps : SleepsAdvance tr) :
    checks tr ≤ checkBound timeout interval (t₀ :: readings tr) := by
  generalize hdeadline : t₀ + timeout = deadline at h
  induction h with
  | checking n => simp
  | hung => simp
  | behind hversion => exact le_refl _
  | @early n version clock now hversion hclock hnow =>
    rw [readings_version, readings_clock hclock]
    exact Nat.le_add_left _ _
  | reached hversion hv => exact le_refl _
  | failed hversion => exact le_refl _
  | @late n version clock now hversion hclock hnow =>
    rw [readings_version, readings_clock hclock]
    exact Nat.le_add_left _ _
  | @slept n version clock now tr e hversion hclock hnow nap rest ih =>
    rw [readings_version, readings_clock hclock, checks_version, checks_clock, checks_sleep]
    have hrest := ih (SleepsAdvance.of_append (p := [_, _, _]) hsleeps)
    have hpos : 0 < (deadline - now) / interval := div_pos (sub_pos.2 hnow) hinterval
    have hceil : 1 ≤ ⌈(deadline - now) / interval⌉₊ := Nat.one_le_ceil_iff.2 hpos
    show checks tr + 1 ≤ ⌈(t₀ + timeout - now) / interval⌉₊ + 1
    rw [hdeadline]
    rcases rest.first_reading with ⟨-, hone⟩ | ⟨version', clock', t, rest', rfl, hclock'⟩
    · omega
    · rw [readings_version, readings_clock hclock', checkBound, hdeadline] at hrest
      have hadvance := hsleeps [⟨_, version⟩] [⟨_, version'⟩] rest' _ now t clock nap clock' rfl
        hclock hclock' (by simp)
      have hdecrease := ceil_after_sleep hinterval hnow hadvance
      omega

/-- A loop that runs out of checks has made all of them. -/
theorem Waited.checks_of_hung (h : Waited target deadline interval n tr e) (he : e = .hung) :
    checks tr = n := by
  induction h with
  | checking n => cases he
  | hung => rfl
  | behind hversion => cases he
  | early hversion hclock hnow => cases he
  | reached hversion hv => cases he
  | failed hversion => cases he
  | late hversion hclock hnow => cases he
  | slept hversion hclock hnow nap rest ih =>
    rw [checks_version, checks_clock, checks_sleep, ih he]

end Loop

/-! ## Acknowledgements -/

/-- Neither an acknowledgement nor a consume. -/
def isQuiet : Call → Bool
  | .fdb (.acknowledge _) => false
  | .fdb (.consume _) => false
  | _ => true

theorem isQuiet_of_isSetup {c : Call} (h : c.isSetup = true) : isQuiet c = true := by
  unfold Call.isSetup at h
  split at h
  · rfl
  · rfl
  · cases h

theorem isQuiet_of_isWaiting {c : Call} (h : isWaiting c = true) : isQuiet c = true := by
  unfold isWaiting at h
  split at h
  · rfl
  · rfl
  · rfl
  · cases h

section Shape

variable {l : FDBMutationListener} {cursor : PyCursor} {n : ℕ} {consumer : Handle}
  {timeout interval : ℚ} {tr : List (Event Response)}

/-- Only after a loop that has returned does the consumer acknowledge, and that first. -/
theorem Settled.shape {w e : Ending (Except PyExc Unit)} (h : Settled consumer w tr e) :
    (∀ x ∈ tr, isQuiet x.call = true) ∨
      w = .returned (.ok ()) ∧ ∃ (ack : Response (.fdb (.acknowledge consumer)))
        (rest : List (Event Response)), tr = ⟨_, ack⟩ :: rest ∧
          ∀ x ∈ rest, isQuiet x.call = true := by
  cases h with
  | cut e => exact .inl fun _ h => nomatch h
  | hung => exact .inl fun _ h => nomatch h
  | @restored ack hack => exact .inr ⟨rfl, ack, [], rfl, fun _ h => nomatch h⟩
  | @refused ack exc hack => exact .inr ⟨rfl, ack, [], rfl, fun _ h => nomatch h⟩
  | @dropped ack exc hack close => exact .inr ⟨rfl, ack, [⟨_, close⟩], rfl, by simp [isQuiet]⟩
  | unreached close => exact .inl (by simp [isQuiet])

theorem Reconciled.shape {e : Ending (Except PyExc Unit)}
    (h : Reconciled timeout interval cursor n consumer tr e) :
    (∀ x ∈ tr, isQuiet x.call = true) ∨
      ∃ (since : List (Event Response)) (ack : Response (.fdb (.acknowledge consumer)))
        (rest : List (Event Response)), tr = since ++ ⟨_, ack⟩ :: rest ∧
          (∃ x ∈ since, Observes (cursorVersion cursor) x) ∧
          (∀ x ∈ since, isQuiet x.call = true) ∧ ∀ x ∈ rest, isQuiet x.call = true := by
  cases h with
  | resumed => exact .inl fun _ h => nomatch h
  | @waited clock now wait tail w _ hclock hwait htail =>
    have hquiet : ∀ x ∈ (⟨_, clock⟩ :: wait : List (Event Response)), isQuiet x.call = true := by
      intro x hx
      rcases List.mem_cons.1 hx with rfl | hx
      · rfl
      · exact isQuiet_of_isWaiting (hwait.isWaiting x hx)
    rcases htail.shape with htail | ⟨hw, ack, rest, rfl, hrest⟩
    · refine .inl ?_
      intro x hx
      rw [← List.cons_append] at hx
      rcases List.mem_append.1 hx with hx | hx
      · exact hquiet x hx
      · exact htail x hx
    · obtain ⟨x, hx, hobserves⟩ := hwait.observed hw
      exact .inr ⟨⟨_, clock⟩ :: wait, ack, rest, rfl, ⟨x, List.mem_cons_of_mem _ hx, hobserves⟩,
        hquiet, hrest⟩

theorem Starts.shape {e : Ending (Except PyExc Unit × FDBMutationListener)}
    (h : Starts l cursor n tr e) :
    (∀ x ∈ tr, isQuiet x.call = true) ∨
      ∃ (before since rest : List (Event Response)) (consumer : Handle)
        (resume : Response (.fdb (.resumeCdcConsumer cursor)))
        (ack : Response (.fdb (.acknowledge consumer))),
        tr = (before ++ ⟨_, resume⟩ :: since) ++ ⟨_, ack⟩ :: rest ∧ resume.result = .ok consumer ∧
          (∃ x ∈ since, Observes (cursorVersion cursor) x) ∧
          (∀ x ∈ before ++ ⟨_, resume⟩ :: since, isQuiet x.call = true) ∧
          ∀ x ∈ rest, isQuiet x.call = true := by
  have hquiet : ∀ {tr : List (Event Response)}, (∀ x ∈ tr, x.call.isSetup = true) →
      ∀ x ∈ tr, isQuiet x.call = true := fun h x hx => isQuiet_of_isSetup (h x hx)
  cases h with
  | cut hsetup => exact .inl (hquiet hsetup)
  | raised hsetup exc => exact .inl (hquiet hsetup)
  | refused hsetup hresume exc' =>
    refine .inl fun x hx => ?_
    rcases List.mem_append.1 hx with hx | hx
    · exact hquiet hsetup x hx
    · rw [List.mem_singleton.1 hx]
      rfl
  | @resumed before since resume consumer e hsetup hresume hrest =>
    have hbefore : ∀ {since : List (Event Response)}, (∀ x ∈ since, isQuiet x.call = true) →
        ∀ x ∈ before ++ ⟨_, resume⟩ :: since, isQuiet x.call = true := by
      intro since hsince x hx
      rcases List.mem_append.1 hx with hx | hx
      · exact hquiet hsetup x hx
      rcases List.mem_cons.1 hx with rfl | hx
      · rfl
      · exact hsince x hx
    rcases hrest.shape with hrest | ⟨since, ack, rest, rfl, hobserved, hsince, hrest⟩
    · exact .inl (hbefore hrest)
    · refine .inr ⟨before, since, rest, consumer, resume, ack, ?_, hresume, hobserved,
        hbefore hsince, hrest⟩
      rw [List.append_assoc, List.cons_append]

theorem not_acknowledge {x : Event Response} (h : isQuiet x.call = true) (other : Handle) :
    x.call ≠ .fdb (.acknowledge other) := by
  intro heq
  rw [heq] at h
  cases h

theorem not_consume {x : Event Response} (h : isQuiet x.call = true) (other : Handle) :
    x.call ≠ .fdb (.consume other) := by
  intro heq
  rw [heq] at h
  cases h

theorem Starts.acknowledgesSafely {e : Ending (Except PyExc Unit × FDBMutationListener)}
    (h : Starts l cursor n tr e) : AcknowledgesSafely cursor tr := by
  rcases h.shape with hquiet | ⟨before, since, rest, consumer, resume, ack, rfl, hresume, hobserved,
    hsince, hrest⟩
  · refine ⟨?_, fun x hx => not_consume (hquiet x hx)⟩
    rintro tr₁ other ack tr₂ rfl
    exact absurd rfl (not_acknowledge (hquiet ⟨_, ack⟩ (by simp)) other)
  · constructor
    · intro tr₁ other ack' tr₂ heq
      have hnotMem : ∀ {tr : List (Event Response)}, (∀ x ∈ tr, isQuiet x.call = true) →
          (⟨_, ack'⟩ : Event Response) ∉ tr := by
        intro tr hquiet hmem
        exact absurd rfl (not_acknowledge (hquiet _ hmem) other)
      obtain ⟨rfl, hack, rfl⟩ :=
        (List.append_cons_inj_of_notMem (hnotMem hsince) (hnotMem hrest)).1 heq
      cases hack
      refine ⟨⟨before, resume, since, rfl, hresume, hobserved⟩, ?_⟩
      intro x hx
      rcases List.mem_append.1 hx with hx | hx
      · exact not_acknowledge (hsince x hx)
      · exact not_acknowledge (hrest x hx)
    · intro x hx other
      rcases List.mem_append.1 hx with hx | hx
      · exact not_consume (hsince x hx) other
      rcases List.mem_cons.1 hx with rfl | hx
      · exact fun h => nomatch h
      · exact not_consume (hrest x hx) other

/-! ## After the native resume -/

theorem Reconciled.not_resume {e : Ending (Except PyExc Unit)}
    (h : Reconciled timeout interval cursor n consumer tr e)
    (resume : Response (.fdb (.resumeCdcConsumer cursor))) : ⟨_, resume⟩ ∉ tr := by
  intro hmem
  cases h with
  | resumed => cases hmem
  | @waited clock now wait tail w _ hclock hwait htail =>
    have htail' : ⟨_, resume⟩ ∉ tail := by
      cases htail <;> simp
    have hcases : ⟨_, resume⟩ ∈ wait ∨ ⟨_, resume⟩ ∈ tail := by simpa using hmem
    rcases hcases with hmem | hmem
    · cases hwait.isWaiting _ hmem
    · exact htail' hmem

/-- Wherever a run is seen to resume a consumer, the rest of it is what follows a resume. -/
theorem Starts.reconciled {e : Ending (Except PyExc Unit × FDBMutationListener)}
    (h : Starts l cursor n tr e) {before since : List (Event Response)}
    {resume : Response (.fdb (.resumeCdcConsumer cursor))} (htr : tr = before ++ ⟨_, resume⟩ :: since)
    (hresume : resume.result = .ok consumer) :
    ∃ e', Reconciled l.resumeTimeoutSeconds l.resumePollIntervalSeconds cursor n consumer since e' ∧
      (∀ x ∈ before, x.call.isSetup = true) ∧ e = e'.map fun r => (r, settle l consumer r) := by
  have hnotMem : ∀ {tr : List (Event Response)}, (∀ x ∈ tr, x.call.isSetup = true) →
      (⟨_, resume⟩ : Event Response) ∉ tr := fun h hmem => nomatch h _ hmem
  have hmem : ⟨_, resume⟩ ∈ tr := by
    rw [htr]
    simp
  cases h with
  | cut hsetup => exact absurd hmem (hnotMem hsetup)
  | raised hsetup exc => exact absurd hmem (hnotMem hsetup)
  | refused hsetup hresume' exc' =>
    obtain ⟨rfl, heq, rfl⟩ :=
      (List.append_cons_inj_of_notMem (hnotMem hsetup) List.not_mem_nil).1 htr
    cases heq
    rw [hresume] at hresume'
    cases hresume'
  | @resumed before' since' resume' consumer' e hsetup hresume' hrest =>
    obtain ⟨rfl, heq, rfl⟩ :=
      (List.append_cons_inj_of_notMem (hnotMem hsetup) (hrest.not_resume resume)).1 htr
    cases heq
    rw [hresume] at hresume'
    cases hresume'
    exact ⟨e, hrest, hsetup, rfl⟩

theorem map_eq_returned {α β : Type} {e : Ending α} {f : α → β} {b : β}
    (h : e.map f = .returned b) : ∃ a, e = .returned a ∧ f a = b := by
  cases e with
  | cut => cases h
  | hung => cases h
  | returned a =>
    cases h
    exact ⟨a, rfl, rfl⟩

theorem Starts.restores {e : Ending (Except PyExc Unit × FDBMutationListener)}
    {l' : FDBMutationListener} (h : Starts l cursor n tr e) (he : e = .returned (.ok (), l')) :
    Restores l cursor tr l' := by
  cases h with
  | cut hsetup => cases he
  | raised hsetup exc => cases he
  | refused hsetup hresume exc' => cases he
  | @resumed before since resume consumer e hsetup hresume hrest =>
    obtain ⟨r, rfl, heq⟩ := map_eq_returned he
    cases heq
    cases hrest with
    | @waited clock now wait tail w _ hclock hwait htail =>
      cases htail with
      | @restored ack hack =>
        obtain ⟨x, hx, hobserves⟩ := hwait.observed rfl
        exact ⟨consumer, before, ⟨_, clock⟩ :: wait, resume, ack, rfl, hresume,
          ⟨x, List.mem_cons_of_mem _ hx, hobserves⟩, hack, rfl⟩

/-- A run that ends with a resumed consumer not restored has closed it last. -/
theorem Reconciled.closes {e : Ending (Except PyExc Unit)} {exc : PyExc}
    (h : Reconciled timeout interval cursor n consumer tr e) (he : e = .returned (.error exc)) :
    ∃ (rest : List (Event Response)) (close : Response (.fdb (.closeConsumer consumer))),
      tr = rest ++ [⟨_, close⟩] := by
  cases h with
  | resumed => cases he
  | @waited clock now wait tail w _ hclock hwait htail =>
    cases htail with
    | cut w => cases he
    | hung => cases he
    | restored hack => cases he
    | refused hack => cases he
    | @dropped ack exc' hack close => exact ⟨⟨_, clock⟩ :: (wait ++ [⟨_, ack⟩]), close, by simp⟩
    | unreached close => exact ⟨⟨_, clock⟩ :: wait, close, rfl⟩

theorem Starts.cleansUp {e : Ending (Except PyExc Unit × FDBMutationListener)} {exc : PyExc}
    {l' : FDBMutationListener} (h : Starts l cursor n tr e) (hconsumer : l.consumer = none)
    (he : e = .returned (.error exc, l')) : CleansUp l cursor tr l' := by
  have hnone : ({ l with consumer := none } : FDBMutationListener) = l := by rw [← hconsumer]
  constructor
  · cases h with
    | cut hsetup => cases he
    | raised hsetup exc => exact (congrArg Prod.snd (Ending.returned.inj he)).symm
    | refused hsetup hresume exc' => exact (congrArg Prod.snd (Ending.returned.inj he)).symm
    | @resumed before since resume consumer e hsetup hresume hrest =>
      obtain ⟨r, rfl, heq⟩ := map_eq_returned he
      cases heq
      exact hnone
  · intro before since consumer resume htr hresume
    obtain ⟨e', hrest, -, heq⟩ := h.reconciled htr hresume
    obtain ⟨r, rfl, hr⟩ := map_eq_returned (heq.symm.trans he)
    cases hr
    exact hrest.closes rfl

theorem Starts.timesOut {e : Ending (Except PyExc Unit × FDBMutationListener)}
    {r : Except PyExc Unit} {l' : FDBMutationListener} (h : Starts l cursor n tr e)
    (he : e = .returned (r, l')) : TimesOut l.resumeTimeoutSeconds cursor tr r := by
  intro before since consumer resume clock now htr hresume hclock ⟨late, t, hmem, hlate, ht⟩
  obtain ⟨e', hrest, hsetup, heq⟩ := h.reconciled htr hresume
  obtain ⟨r', rfl, hr⟩ := map_eq_returned (heq.symm.trans he)
  cases hr
  cases hrest with
  | @waited _ now' wait tail w _ hclock' hwait htail =>
    rw [hclock] at hclock'
    cases hclock'
    have hwaited : ⟨_, late⟩ ∈ wait := by
      rcases List.mem_append.1 hmem with hmem | hmem
      · exact hmem
      · cases htail <;> simp at hmem
    obtain ⟨rfl, rest, version, last, rfl, hbehind⟩ := hwait.timesOut hwaited hlate ht
    cases htail with
    | unreached close =>
      refine ⟨?_, rest, version, last, close, by simp, hbehind, rfl⟩
      intro x hx
      rw [htr] at hx
      refine not_acknowledge ?_
      rcases List.mem_append.1 hx with hx | hx
      · exact isQuiet_of_isSetup (hsetup x hx)
      rcases List.mem_cons.1 hx with rfl | hx
      · rfl
      rcases List.mem_cons.1 hx with rfl | hx
      · rfl
      rcases List.mem_append.1 hx with hx | hx
      · exact isQuiet_of_isWaiting (hwait.isWaiting x hx)
      · rw [List.mem_singleton.1 hx]
        rfl

/-! ## How often it checks -/

theorem checks_append (tr tr' : List (Event Response)) :
    checks (tr ++ tr') = checks tr + checks tr' := by
  rw [checks, List.filter_append, List.length_append]
  rfl

theorem readings_append (tr tr' : List (Event Response)) :
    readings (tr ++ tr') = readings tr ++ readings tr' := List.filterMap_append

theorem checks_eq_zero (h : ∀ x ∈ tr, isCheck x = false) : checks tr = 0 := by
  rw [checks, List.filter_eq_nil_iff.2 fun x hx => by simp [h x hx]]
  rfl

theorem readings_eq_nil (h : ∀ x ∈ tr, reading? x = none) : readings tr = [] :=
  List.filterMap_eq_nil_iff.2 h

theorem checks_setup (h : ∀ x ∈ tr, x.call.isSetup = true) : checks tr = 0 := by
  refine checks_eq_zero fun x hx => ?_
  have hsetup := h x hx
  obtain ⟨call, r⟩ := x
  cases call with
  | fdb call => cases call <;> first | rfl | cases hsetup
  | kafka call => rfl
  | file call => rfl
  | host call => rfl

theorem readings_setup (h : ∀ x ∈ tr, x.call.isSetup = true) : readings tr = [] := by
  refine readings_eq_nil fun x hx => ?_
  have hsetup := h x hx
  obtain ⟨call, r⟩ := x
  cases call with
  | fdb call => rfl
  | kafka call => rfl
  | file call => rfl
  | host call => cases hsetup

theorem Settled.checks {w e : Ending (Except PyExc Unit)} (h : Settled consumer w tr e) :
    checks tr = 0 := by
  cases h <;> rfl

theorem Settled.readings {w e : Ending (Except PyExc Unit)} (h : Settled consumer w tr e) :
    readings tr = [] := by
  cases h <;> rfl

theorem Reconciled.checks_le {e : Ending (Except PyExc Unit)} (hinterval : 0 < interval)
    (h : Reconciled timeout interval cursor n consumer tr e) (hsleeps : SleepsAdvance tr) :
    checks tr ≤ checkBound timeout interval (readings tr) := by
  cases h with
  | resumed => exact Nat.zero_le _
  | @waited clock now wait tail w _ hclock hwait htail =>
    have hwaited : SleepsAdvance wait :=
      (SleepsAdvance.of_append (p := [_]) hsleeps).of_append_left
    rw [checks_clock, checks_append, htail.checks, readings_clock hclock, readings_append,
      htail.readings, List.append_nil]
    exact hwait.checks_le hinterval hwaited

/-- A run that runs out of checks has made all of them. -/
theorem Reconciled.checks_of_hung (h : Reconciled timeout interval cursor n consumer tr .hung) :
    checks tr = n := by
  cases h with
  | @waited clock now wait tail w _ hclock hwait htail =>
    cases htail with
    | hung =>
      rw [checks_clock, List.append_nil]
      exact hwait.checks_of_hung rfl

theorem Starts.checks_le {e : Ending (Except PyExc Unit × FDBMutationListener)}
    (h : Starts l cursor n tr e) (hinterval : 0 < l.resumePollIntervalSeconds)
    (hsleeps : SleepsAdvance tr) :
    checks tr ≤ checkBound l.resumeTimeoutSeconds l.resumePollIntervalSeconds (readings tr) := by
  cases h with
  | cut hsetup =>
    rw [checks_setup hsetup]
    exact Nat.zero_le _
  | raised hsetup exc =>
    rw [checks_setup hsetup]
    exact Nat.zero_le _
  | refused hsetup hresume exc' =>
    rw [checks_append, checks_setup hsetup]
    exact Nat.zero_le _
  | @resumed before since resume consumer e hsetup hresume hrest =>
    have hsince : SleepsAdvance since :=
      SleepsAdvance.of_append (p := [_]) (SleepsAdvance.of_append hsleeps)
    have hle := hrest.checks_le hinterval hsince
    rw [checks_append, checks_setup hsetup, readings_append, readings_setup hsetup, Nat.zero_add]
    exact hle

theorem Starts.checks_of_hung {e : Ending (Except PyExc Unit × FDBMutationListener)}
    (h : Starts l cursor n tr e) (he : e = .hung) : checks tr = n := by
  cases h with
  | cut hsetup => cases he
  | raised hsetup exc => cases he
  | refused hsetup hresume exc' => cases he
  | @resumed before since resume consumer e hsetup hresume hrest =>
    cases e with
    | cut => cases he
    | returned r => cases he
    | hung =>
      rw [checks_append, checks_setup hsetup, Nat.zero_add]
      exact hrest.checks_of_hung

end Shape

end FDBMutationListener

end FdbKafkaBridge
