import FdbKafkaBridge.Cdc.Proofs.ReacknowledgeProofs
import FdbKafkaBridge.Interaction.Runs

/-!
# Nothing is consumed before the position is restored

`poll_records`, `acknowledge` and `get_position` may start the listener on their own. Whatever the
order of the calls, the consumer of a listener with a cursor is one whose position has been restored.
-/

namespace FdbKafkaBridge

open Protobuf (Bytes)
open Serialization (FDBMutationRecord)
open Interaction

namespace FDBMutationListener

/-- A call that makes a consumer or closes one. -/
def isTurnover : Call → Bool
  | .fdb (.resumeCdcConsumer _) => true
  | .fdb (.closeConsumer _) => true
  | _ => false

/-- The consumer that was resumed last has had its position restored, and is open. -/
def Restored (cursor : PyCursor) (consumer : Handle) (tr : List (Event Response)) : Prop :=
  ∃ (before since after : List (Event Response))
    (resume : Response (.fdb (.resumeCdcConsumer cursor)))
    (ack : Response (.fdb (.acknowledge consumer))),
    tr = before ++ ⟨_, resume⟩ :: (since ++ ⟨_, ack⟩ :: after) ∧ resume.result = .ok consumer ∧
      (∃ x ∈ since, Observes (cursorVersion cursor) x) ∧ ack.result = .ok () ∧
      ∀ x ∈ after, isTurnover x.call = false

/-- What is consumed, and what a method leaves behind, is a consumer whose position is restored. -/
def RestoredFirst (cursor : PyCursor) (marks : List ListenerMark) : ListenerMark → Prop
  | .start .. => True
  | .event e => ∀ consumer, e.call = .fdb (.consume consumer) →
      Restored cursor consumer (events marks)
  | .finish _ _ s => ∀ consumer, s.listener.consumer = some consumer →
      Restored cursor consumer (events marks)

/-- The invariant of a listener with this cursor. -/
structure Holds (cursor : PyCursor) (s : ListenerState) (marks : List ListenerMark) : Prop where
  resumes : s.listener.initialCursor = some cursor
  restored : ∀ consumer, s.listener.consumer = some consumer →
    Restored cursor consumer (events marks)

section Holds

variable {cursor : PyCursor} {s : ListenerState} {marks : List ListenerMark} {α : Type}

theorem Restored.concat {consumer : Handle} {tr : List (Event Response)}
    (h : Restored cursor consumer tr) {e : Event Response} (he : isTurnover e.call = false) :
    Restored cursor consumer (tr ++ [e]) := by
  obtain ⟨before, since, after, resume, ack, rfl, hresume, hobserved, hack, hafter⟩ := h
  refine ⟨before, since, after ++ [e], resume, ack, by simp, hresume, hobserved, hack, ?_⟩
  intro x hx
  rcases List.mem_append.1 hx with hx | hx
  · exact hafter x hx
  · rwa [List.mem_singleton.1 hx]

theorem Holds.event (h : Holds cursor s marks) {e : Event Response}
    (he : isTurnover e.call = false) : Holds cursor s (marks ++ [.event e]) where
  resumes := h.resumes
  restored consumer hconsumer := by
    rw [events_event]
    exact (h.restored consumer hconsumer).concat he

/-- Calls that do not consume, and neither make nor close a consumer. -/
theorem holds_survives {c : Call} (hc : isTurnover c = false)
    (hconsume : ∀ consumer, c ≠ .fdb (.consume consumer)) :
    Survives (recorder (RestoredFirst cursor)) (Holds cursor) c := by
  intro s marks h r
  refine ⟨marks ++ [.event ⟨c, r⟩], recorder_next.2 ⟨?_, rfl⟩, ?_⟩
  · exact fun consumer heq => absurd heq (hconsume consumer)
  · have hevent := h.event (e := ⟨c, r⟩) hc
    exact ⟨hevent.resumes, hevent.restored⟩

theorem holds_modify {f : ListenerState → ListenerState}
    (hcursor : ∀ s, (f s).listener.initialCursor = s.listener.initialCursor)
    (hconsumer : ∀ s, (f s).listener.consumer = s.listener.consumer) :
    Proc.Preserves (recorder (RestoredFirst cursor)) (Holds cursor)
      (modify f : Py ListenerState PUnit) := by
  refine Proc.preserves_modify fun s marks h => ⟨?_, fun consumer heq => ?_⟩
  · exact (hcursor s).trans h.resumes
  · exact h.restored consumer ((hconsumer s).symm.trans heq)

/-- What the recorder makes of a run without a consume. -/
theorem recorder_run {tr : List (Event Response)}
    (h : ∀ x ∈ tr, ∀ consumer, x.call ≠ .fdb (.consume consumer)) (marks : List ListenerMark) :
    (recorder (RestoredFirst cursor)).run marks tr = some (marks ++ tr.map .event) := by
  induction tr generalizing marks with
  | nil => simp
  | cons e tr ih =>
    have hnext : (recorder (RestoredFirst cursor)).next marks e = some (marks ++ [.event e]) :=
      recorder_next.2 ⟨fun consumer heq => absurd heq (h e List.mem_cons_self consumer), rfl⟩
    rw [Monitor.run_cons, hnext, Option.bind_some,
      ih (fun x hx => h x (List.mem_cons_of_mem e hx))]
    simp

theorem Restores.restored {l l' : FDBMutationListener} {tr : List (Event Response)}
    (h : Restores l cursor tr l') (past : List (Event Response)) :
    l'.initialCursor = l.initialCursor ∧
      ∀ consumer, l'.consumer = some consumer → Restored cursor consumer (past ++ tr) := by
  obtain ⟨consumer, before, since, resume, ack, rfl, hresume, hobserved, hack, rfl⟩ := h
  refine ⟨rfl, fun other heq => ?_⟩
  cases heq
  exact ⟨past ++ before, since, [], resume, ack, by simp, hresume, hobserved, hack,
    fun _ h => nomatch h⟩

/-- Starting a listener leaves it without a consumer, or with one that is restored. -/
theorem wp_start_restored (fuel : ℕ) (h : Holds cursor s marks) :
    Proc.wp (recorder (RestoredFirst cursor)) (start fuel) (fun _ => Holds cursor) s marks := by
  cases hconsumer : s.listener.consumer with
  | some consumer =>
    unfold start
    rw [Proc.wp_get_bind]
    simp only [hconsumer, Option.isSome_some, if_true]
    exact h
  | none =>
    refine (describes_start fuel h.resumes hconsumer).wp fun tr e hstarts => ?_
    refine ⟨_, recorder_run hstarts.acknowledgesSafely.consume marks, ?_⟩
    rintro r s' rfl
    cases r with
    | ok u =>
      obtain ⟨hcursor, hrestored⟩ := (hstarts.restores rfl).restored (events marks)
      refine ⟨hcursor.trans h.resumes, fun consumer heq => ?_⟩
      rw [events_calls]
      exact hrestored consumer heq
    | error exc =>
      have hkept : s'.listener = s.listener := (hstarts.cleansUp hconsumer rfl).1
      refine ⟨hkept ▸ h.resumes, fun consumer heq => ?_⟩
      rw [hkept, hconsumer] at heq
      cases heq

theorem wp_getConsumer_restored (fuel : ℕ) (h : Holds cursor s marks) :
    Proc.wp (recorder (RestoredFirst cursor)) (getConsumer fuel) (fun r s' marks' =>
      Holds cursor s' marks' ∧ ∀ consumer, r = .ok consumer → s'.listener.consumer = some consumer)
      s marks := by
  unfold getConsumer
  rw [Proc.wp_get_bind, wp_raiseIf_bind]
  split
  · exact ⟨h, fun _ heq => nomatch heq⟩
  rw [Proc.wp_get_bind]
  have hstart : Proc.wp (recorder (RestoredFirst cursor))
      (Proc.when s.listener.consumer.isNone (start fuel)) (fun _ => Holds cursor) s marks := by
    rw [Proc.wp_when]
    split
    · exact wp_start_restored fuel h
    · exact h
  refine Proc.wp_bind_of hstart (fun _ s' marks' h' => ?_) fun e s' marks' h' =>
    ⟨h', fun _ heq => nomatch heq⟩
  rw [Proc.wp_get_bind]
  cases hconsumer : s'.listener.consumer with
  | none => exact ⟨h', fun _ heq => nomatch heq⟩
  | some consumer =>
    refine ⟨h', fun other heq => ?_⟩
    cases heq
    exact hconsumer

/-- What is done with a consumer that may have to be started first. -/
theorem holds_onConsumer {q : Handle → Py ListenerState α} (fuel : ℕ)
    (hq : ∀ consumer s marks, Holds cursor s marks → s.listener.consumer = some consumer →
      Proc.wp (recorder (RestoredFirst cursor)) (q consumer) (fun _ => Holds cursor) s marks) :
    Proc.Preserves (recorder (RestoredFirst cursor)) (Holds cursor) (getConsumer fuel >>= q) := by
  intro s marks h
  refine Proc.wp_bind_of (wp_getConsumer_restored fuel h) ?_ fun _ _ _ h => h.1
  rintro consumer s' marks' ⟨h', hconsumer⟩
  exact hq consumer s' marks' h' (hconsumer consumer rfl)

theorem holds_consume (consumer : Handle) (h : Holds cursor s marks)
    (hconsumer : s.listener.consumer = some consumer) :
    Proc.wp (recorder (RestoredFirst cursor)) (native (.fdb (.consume consumer)))
      (fun _ => Holds cursor) s marks := by
  refine wp_native.2 fun r => ⟨marks ++ [.event ⟨_, r⟩], recorder_next.2 ⟨?_, rfl⟩, ?_⟩
  · intro other heq
    cases heq
    exact h.restored consumer hconsumer
  · have hevent := h.event (e := ⟨.fdb (.consume consumer), r⟩) rfl
    exact ⟨hevent.resumes, hevent.restored⟩

theorem holds_consumeBatch (fuel : ℕ) :
    Proc.Preserves (recorder (RestoredFirst cursor)) (Holds cursor) (consumeBatch fuel) := by
  refine Proc.preserves_get.bind fun s => ?_
  refine (preserves_raiseIf _ _).bind fun _ => ?_
  refine (preserves_raiseIf _ _).bind fun _ => ?_
  refine Proc.Preserves.tryCatch ?_ fun exc => preserves_onConsumeFailure _ exc
  exact holds_onConsumer fuel fun consumer s marks h hconsumer => holds_consume consumer h hconsumer

theorem holds_deliver (reply : CdcReply) (timestampNs : PyVal) :
    Proc.Preserves (recorder (RestoredFirst cursor)) (Holds cursor) (deliver reply timestampNs) := by
  refine Proc.preserves_get.bind fun s => ?_
  dsimp only
  split
  · exact Proc.preserves_throw _
  refine Proc.Preserves.bind ?_ fun _ => ?_
  · exact holds_modify (fun _ => rfl) (fun _ => rfl)
  refine Proc.Preserves.bind ?_ fun _ => Proc.preserves_pure _
  exact holds_modify (fun _ => rfl) (fun _ => rfl)

theorem holds_pollRecords (fuel : ℕ) (timestamp : Option PyVal) :
    Proc.Preserves (recorder (RestoredFirst cursor)) (Holds cursor)
      (pollRecords fuel timestamp) := by
  refine (holds_consumeBatch fuel).bind fun batch => ?_
  refine Proc.Preserves.bind ?_ fun _ => ?_
  · exact holds_modify (fun _ => rfl) (fun _ => rfl)
  split
  · exact holds_deliver batch _
  · have htime : Survives (recorder (RestoredFirst cursor)) (Holds cursor) (.host .timeNs) :=
      holds_survives rfl fun _ h => nomatch h
    exact htime.preserves.bind fun _ => holds_deliver batch _

theorem holds_acknowledge (fuel : ℕ) :
    Proc.Preserves (recorder (RestoredFirst cursor)) (Holds cursor) (acknowledge fuel) := by
  refine Proc.preserves_get.bind fun s => ?_
  refine (preserves_raiseIf _ _).bind fun _ => ?_
  refine (preserves_raiseIf _ _).bind fun _ => ?_
  refine (preserves_raiseIf _ _).bind fun _ => ?_
  refine Proc.Preserves.bind ?_ fun _ => ?_
  · refine Proc.Preserves.tryCatch ?_ fun exc => preserves_onConsumeFailure _ exc
    refine holds_onConsumer fuel fun consumer s marks h _ => ?_
    have hack : Survives (recorder (RestoredFirst cursor)) (Holds cursor)
        (.fdb (.acknowledge consumer)) := holds_survives rfl fun _ h => nomatch h
    exact hack.preserves s marks h
  · exact holds_modify (fun _ => rfl) (fun _ => rfl)

theorem holds_getPosition (fuel : ℕ) :
    Proc.Preserves (recorder (RestoredFirst cursor)) (Holds cursor) (getPosition fuel) := by
  refine holds_onConsumer fuel fun consumer s marks h _ => ?_
  have hposition : Survives (recorder (RestoredFirst cursor)) (Holds cursor)
      (.fdb (.getPosition consumer)) := holds_survives rfl fun _ h => nomatch h
  exact hposition.preserves s marks h

theorem wp_close_restored (h : Holds cursor s marks) :
    Proc.wp (recorder (RestoredFirst cursor)) close (fun _ => Holds cursor) s marks := by
  unfold close
  rw [Proc.wp_get_bind, Proc.wp_modify_bind]
  cases hconsumer : s.listener.consumer with
  | none => exact ⟨h.resumes, fun _ heq => nomatch heq⟩
  | some consumer =>
    refine wp_native.2 fun r => ⟨marks ++ [.event ⟨_, r⟩], recorder_next.2 ⟨?_, rfl⟩, ?_⟩
    · exact fun _ heq => nomatch heq
    · exact ⟨h.resumes, fun _ heq => nomatch heq⟩

theorem perform_restored (i : ListenerMethod) :
    Proc.Preserves (recorder (RestoredFirst cursor)) (Holds cursor) (perform i) := by
  cases i with
  | start fuel =>
    exact Proc.Preserves.bind (fun s marks h => wp_start_restored fuel h) fun _ =>
      Proc.preserves_pure _
  | pollRecords fuel timestamp => exact holds_pollRecords fuel timestamp
  | acknowledge fuel => exact (holds_acknowledge fuel).bind fun _ => Proc.preserves_pure _
  | getPosition fuel => exact (holds_getPosition fuel).bind fun _ => Proc.preserves_pure _
  | close =>
    exact Proc.Preserves.bind (fun s marks h => wp_close_restored h) fun _ => Proc.preserves_pure _

theorem methodKeeps_restored (i : ListenerMethod) :
    MethodKeeps (RestoredFirst cursor) (Holds cursor) perform i := by
  intro s marks h
  refine ⟨trivial, ?_⟩
  have hstart : Holds cursor s (marks ++ [.start i s]) :=
    ⟨h.resumes, by rw [events_start]; exact h.restored⟩
  refine Proc.wp_mono (perform_restored i s _ hstart) fun r s' marks' h' => ?_
  exact ⟨h'.restored, h'.resumes, by rw [events_finish]; exact h'.restored⟩

end Holds

/-! ## Resuming -/

/-- Whatever the versions, the clock and the native calls do, a listener that is started with a
cursor acknowledges at most once, after a sufficient read version, and consumes nothing before; it
has then resumed and restored its consumer, or it is as before, with every resumed consumer closed,
so that starting it again resumes from the same cursor. Past the deadline it raises the timeout,
unless `close` raises. If sleeps advance the clock, the number of checks is bounded. -/
theorem start_reacknowledges (fuel : ℕ) (s : ListenerState) (cursor : PyCursor)
    (hcursor : s.listener.initialCursor = some cursor) (hconsumer : s.listener.consumer = none) :
    (∀ tr q, Prog.Path (start fuel s) tr q → AcknowledgesSafely cursor tr) ∧
    (∀ tr r s', (start fuel s).Returns tr (r, s') →
      (r = .ok () → Restores s.listener cursor tr s'.listener) ∧
      TimesOut s.listener.resumeTimeoutSeconds cursor tr r ∧
      ∀ exc, r = .error exc → CleansUp s.listener cursor tr s'.listener ∧
        ∀ fuel' tr' s'', (start fuel' s').Returns tr' (.ok (), s'') →
          Restores s.listener cursor tr' s''.listener) ∧
    (0 < s.listener.resumePollIntervalSeconds → ∀ tr q, Prog.Path (start fuel s) tr q →
      SleepsAdvance tr →
        checks tr ≤ checkBound s.listener.resumeTimeoutSeconds
          s.listener.resumePollIntervalSeconds (readings tr) ∧
        (checkBound s.listener.resumeTimeoutSeconds s.listener.resumePollIntervalSeconds
          (readings tr) < fuel → q ≠ .hang)) ∧
    ∀ marks, Run perform s marks → Keeps (RestoredFirst cursor) marks := by
  have hstarts := describes_start fuel hcursor hconsumer
  refine ⟨fun tr q hpath => (hstarts tr q hpath).acknowledgesSafely, ?_, ?_, ?_⟩
  · intro tr r s' hret
    have hrun := hstarts.returns hret
    refine ⟨?_, hrun.timesOut rfl, ?_⟩
    · rintro rfl
      exact hrun.restores rfl
    · rintro exc rfl
      have hclean := hrun.cleansUp hconsumer rfl
      refine ⟨hclean, fun fuel' tr' s'' hret' => ?_⟩
      have hkept : s'.listener = s.listener := hclean.1
      rw [← hkept] at hcursor hconsumer ⊢
      exact ((describes_start fuel' hcursor hconsumer).returns hret').restores rfl
  · intro hinterval tr q hpath hsleeps
    have hrun := hstarts tr q hpath
    refine ⟨hrun.checks_le hinterval hsleeps, fun hfuel => ?_⟩
    rintro rfl
    have hle := hrun.checks_le hinterval hsleeps
    have hall := hrun.checks_of_hung rfl
    omega
  · intro marks hrun
    refine hrun.keeps methodKeeps_restored ⟨hcursor, fun consumer heq => ?_⟩
    rw [hconsumer] at heq
    cases heq

/-! ## Two runs -/

def resumeCursor : PyCursor := .object (some (.int 7)) (some (.int 500))

/-- A new listener of the stream `s` with a cursor of version 500. -/
def resuming : ListenerState where
  listener :=
    { rawStreamName := [115]
      streamName := PyStr.ofChars [ 's']
      keyRange := none
      initialCursor := some resumeCursor
      maxRecordBytes := 100
      resumeTimeoutSeconds := defaultResumeTimeoutSeconds
      resumePollIntervalSeconds := defaultResumePollIntervalSeconds
      consumer := none
      isClosed := false
      awaitingAck := false
      deliveryFailed := false }
  client := ⟨true⟩
  producer := none

/-- The version can be read at once. -/
theorem start_reacknowledges_readable :
    Restores resuming.listener resumeCursor
      [⟨.fdb (.resumeCdcConsumer resumeCursor), .value (3 : Handle)⟩,
        ⟨.host .monotonic, .value (0 : ℚ)⟩, ⟨.fdb .getReadVersion, .value (500 : ℤ)⟩,
        ⟨.fdb (.acknowledge 3), .value ()⟩]
      { resuming.listener with consumer := some 3 } := by
  have hret : (start 1 resuming).Returns
      [⟨.fdb (.resumeCdcConsumer resumeCursor), .value (3 : Handle)⟩,
        ⟨.host .monotonic, .value (0 : ℚ)⟩, ⟨.fdb .getReadVersion, .value (500 : ℤ)⟩,
        ⟨.fdb (.acknowledge 3), .value ()⟩] (.ok (), resuming.setConsumer (some 3)) :=
    .step _ (.step _ (.step _ (.step _ (.here _))))
  exact ((start_reacknowledges 1 resuming resumeCursor rfl rfl).2.1 _ _ _ hret).1 rfl

/-- A run past the deadline raises `CDCInvalidCursorError`. -/
def RaisesTimeout (timeout : ℚ) (cursor : PyCursor) (tr : List (Event Response))
    (r : Except PyExc Unit) : Prop :=
  ∀ (before since : List (Event Response)) (resume : Response (.fdb (.resumeCdcConsumer cursor)))
    (clock late : Response (.host .monotonic)) (now t : ℚ),
    tr = before ++ ⟨_, resume⟩ :: ⟨_, clock⟩ :: since → clock.result = .ok now →
    ⟨_, late⟩ ∈ since → late.result = .ok t → now + timeout ≤ t →
    ∃ message, r = .error (.cdc .invalidCursor message)

def closeFailure : PyExc := .runtimeError "close failed"

/-- The deadline passes, and then `close` raises. -/
theorem returns_close_failure :
    (start 1 resuming).Returns
      [⟨.fdb (.resumeCdcConsumer resumeCursor), .value (3 : Handle)⟩,
        ⟨.host .monotonic, .value (0 : ℚ)⟩, ⟨.fdb .getReadVersion, .value (499 : ℤ)⟩,
        ⟨.host .monotonic, .value (20 : ℚ)⟩,
        ⟨.fdb (.closeConsumer 3), ⟨[], .error closeFailure, fun h => nomatch h⟩⟩]
      (.error closeFailure, resuming) := by
  have hlate : decide ((0 : ℚ) + defaultResumeTimeoutSeconds - 20 ≤ 0) = true := by
    norm_num [defaultResumeTimeoutSeconds]
  have hraise : (raiseIf (decide ((0 : ℚ) + defaultResumeTimeoutSeconds - 20 ≤ 0))
      (timedOut 500) : Py ListenerState Unit) = throw (timedOut 500) := by
    rw [hlate]
    rfl
  have hclock : ((native (.host .monotonic) >>= fun now : ℚ => do
        raiseIf (decide ((0 : ℚ) + defaultResumeTimeoutSeconds - now ≤ 0)) (timedOut 500)
        native (.host (.sleep (min (← get).listener.resumePollIntervalSeconds
          ((0 : ℚ) + defaultResumeTimeoutSeconds - now))))
        waitForReadVersion 500 (0 + defaultResumeTimeoutSeconds) 0 : Py ListenerState Unit)
      (resuming.setConsumer (some 3))).Returns
      [⟨.host .monotonic, .value (20 : ℚ)⟩]
      (.error (timedOut 500), resuming.setConsumer (some 3)) := by
    refine .step _ ?_
    show Prog.Path ((raiseIf _ _ >>= _) _) _ _
    rw [hraise]
    exact .here _
  have hwait : (waitForReadVersion 500 (0 + defaultResumeTimeoutSeconds) 1
      (resuming.setConsumer (some 3))).Returns
      [⟨.fdb .getReadVersion, .value (499 : ℤ)⟩, ⟨.host .monotonic, .value (20 : ℚ)⟩]
      (.error (timedOut 500), resuming.setConsumer (some 3)) := .step _ hclock
  have hbody := Proc.returns_bind_iff (f := fun _ : Unit =>
    (tryCatch (native (.fdb (.acknowledge 3))) fun exc =>
      throw (consumeFailure exc "restore resumed CDC position") : Py ListenerState Unit)) |>.2
      (.inr ⟨_, _, hwait, rfl⟩)
  have hreconcile : (reconcileResumedConsumer 1 resumeCursor 3
      (resuming.setConsumer (some 3))).Returns
      [⟨.host .monotonic, .value (0 : ℚ)⟩, ⟨.fdb .getReadVersion, .value (499 : ℤ)⟩,
        ⟨.host .monotonic, .value (20 : ℚ)⟩]
      (.error (timedOut 500), resuming.setConsumer (some 3)) :=
    .step _ hbody
  have hdrop : (dropConsumer 3 (timedOut 500) (resuming.setConsumer (some 3))).Returns
      [⟨.fdb (.closeConsumer 3), ⟨[], .error closeFailure, fun h => nomatch h⟩⟩]
      (.error closeFailure, resuming) := .step _ (.here _)
  exact .step _ (Prog.Path.bind_of_returns hreconcile hdrop)

theorem start_timeout_masked :
    ¬ ∀ (fuel : ℕ) (s : ListenerState) (cursor : PyCursor) tr r s',
      s.listener.initialCursor = some cursor → s.listener.consumer = none →
      (start fuel s).Returns tr (r, s') →
      RaisesTimeout s.listener.resumeTimeoutSeconds cursor tr r := by
  intro h
  have hlate : (0 : ℚ) + defaultResumeTimeoutSeconds ≤ 20 := by
    norm_num [defaultResumeTimeoutSeconds]
  obtain ⟨message, heq⟩ := h 1 resuming resumeCursor _ _ _ rfl rfl returns_close_failure [] _ _ _
    (.value (20 : ℚ)) 0 20 rfl rfl (by simp) rfl hlate
  cases heq

end FDBMutationListener

end FdbKafkaBridge
