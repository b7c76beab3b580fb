import FdbKafkaBridge.Kafka.Methods
import FdbKafkaBridge.Messaging.Outbox

/-!
# A successful flush means that everything was delivered

The queue of the native producer is an outbox: each message that `produce` enqueues is reported on
once, by a delivery callback that runs during a poll or a flush, and a flush returns how many are
pending. A wrapper without transactions never forgets a delivery error.
-/

namespace FdbKafkaBridge

open Serialization (FDBMutationRecord)
open Protobuf (Bytes)
open Interaction Messaging

/-! ## The native queue -/

/-- The report on a message. -/
def Callback.report : Callback → Option (Option KafkaError)
  | .error _ => none
  | .delivery err => some err

def Response.reports {c : Call} (r : Response c) : List (Option KafkaError) :=
  r.callbacks.filterMap Callback.report

/-- The calls that add messages to the queue or report on them. -/
def Call.concernsQueue : Call → Bool
  | .kafka (.produce ..) => true
  | .kafka (.poll _) => true
  | .kafka (.flush ..) => true
  | _ => false

def Call.isProduce : Call → Bool
  | .kafka (.produce ..) => true
  | _ => false

/-- What one call does to the queue. -/
inductive Serves (q : Outbox KafkaError) : Event Response → Outbox KafkaError → Prop
  | produced {h : Handle} {topic : String} {value : Bytes} {key : Option Bytes}
      {r : Response (.kafka (.produce h topic value key))} (hok : r.result = .ok ())
      (hreports : r.reports = []) : Serves q ⟨_, r⟩ q.accept
  | refused {h : Handle} {topic : String} {value : Bytes} {key : Option Bytes}
      {r : Response (.kafka (.produce h topic value key))} {exc : PyExc}
      (herror : r.result = .error exc) (hreports : r.reports = []) : Serves q ⟨_, r⟩ q
  | polled {h : Handle} {r : Response (.kafka (.poll h))} {q' : Outbox KafkaError}
      (hreports : q.Reports r.reports q') : Serves q ⟨_, r⟩ q'
  | flushed {h : Handle} {timeout : ℚ} {r : Response (.kafka (.flush h timeout))}
      {q' : Outbox KafkaError} (hreports : q.Reports r.reports q')
      (hcount : r.result = .ok q'.pending.card) : Serves q ⟨_, r⟩ q'
  | other {c : Call} {r : Response c} (hcall : c.concernsQueue = false)
      (hreports : r.reports = []) : Serves q ⟨c, r⟩ q

/-- The queue after the calls so far, from an empty one on. -/
inductive Evolves : List (Event Response) → Outbox KafkaError → Prop
  | empty : Evolves [] .empty
  | step {tr : List (Event Response)} {q q' : Outbox KafkaError} {e : Event Response}
      (h : Evolves tr q) (hserves : Serves q e q') : Evolves (tr ++ [e]) q'

/-- The delivery errors that were reported, in order. -/
def reportedErrors (tr : List (Event Response)) : List KafkaError :=
  tr.flatMap fun e => e.response.callbacks.filterMap Callback.deliveryError

theorem filterMap_deliveryError (callbacks : List Callback) :
    callbacks.filterMap Callback.deliveryError =
      (callbacks.filterMap Callback.report).filterMap id := by
  rw [List.filterMap_filterMap]
  congr 1
  funext c
  cases c <;> rfl

theorem reportedErrors_concat (tr : List (Event Response)) (e : Event Response) :
    reportedErrors (tr ++ [e]) = reportedErrors tr ++ e.response.reports.filterMap id := by
  rw [reportedErrors, List.flatMap_append, List.flatMap_singleton, filterMap_deliveryError]
  rfl

theorem Evolves.accounted {tr : List (Event Response)} {q : Outbox KafkaError}
    (h : Evolves tr q) : q.Accounted (reportedErrors tr) := by
  induction h with
  | empty => exact Outbox.accounted_empty
  | @step tr q q' e _ hserves ih =>
    rw [reportedErrors_concat]
    have hquiet : e.response.reports = [] →
        reportedErrors tr ++ e.response.reports.filterMap id = reportedErrors tr := by
      intro hnone
      rw [hnone]
      exact List.append_nil _
    cases hserves with
    | produced _ hreports =>
      rw [hquiet hreports]
      exact ih.accept
    | refused _ hreports =>
      rw [hquiet hreports]
      exact ih
    | polled hreports => exact ih.reports hreports
    | flushed hreports _ => exact ih.reports hreports
    | other _ hreports =>
      rw [hquiet hreports]
      exact ih

/-- A flush has returned the number of the messages that are pending after it. -/
theorem Evolves.flushed {tr : List (Event Response)} {q : Outbox KafkaError} {h : Handle}
    {timeout : ℚ} {r : Response (.kafka (.flush h timeout))}
    (hevolves : Evolves (tr ++ [⟨.kafka (.flush h timeout), r⟩]) q) :
    r.result = .ok q.pending.card := by
  generalize htr : tr ++ [⟨.kafka (.flush h timeout), r⟩] = tr' at hevolves
  cases hevolves with
  | empty => exact absurd htr (by simp)
  | step _ hserves =>
    obtain ⟨-, heq⟩ := List.append_inj' htr rfl
    obtain rfl := List.singleton_inj.1 heq
    cases hserves with
    | flushed _ hcount => exact hcount
    | other hcall _ => cases hcall

/-! ## What is promised -/

namespace ProducerMark

def errors (marks : List ProducerMark) : List KafkaError := reportedErrors (events marks)

/-- A method that sends records, or waits until they are sent. -/
def sends : ProducerMethod → Bool
  | .produce .. => true
  | .flush _ => true
  | .flushOrRaise _ => true
  | _ => false

def waits : ProducerMethod → Bool
  | .flushOrRaise _ => true
  | _ => false

/-- The method ends with the first delivery error, or because the producer is closed or fatal. -/
def RaisesFirst (s : MutationProducer) (err : KafkaError) (r : Except PyExc Unit) : Prop :=
  ∃ exc, r = .error exc ∧
    (exc = .kafka err ∨ exc.isRuntimeError = true ∧ (s.closed = true ∨ s.fatal = true))

/-- Nothing is enqueued after a delivery error, `flush_or_raise` returns only when every message
has been delivered, and a method that starts after a delivery error raises it. -/
def DeliveryMark (marks : List ProducerMark) : ProducerMark → Prop
  | .start .. => True
  | .event e => e.call.isProduce = true → errors marks = []
  | .finish i r _ =>
    (waits i = true → r = .ok () → ∀ q, Evolves (events marks) q →
      ∀ j < q.accepted, q.outcome j = some none) ∧
    (sends i = true → ∀ past s err rest, opening marks = some (past, s) →
      errors past = err :: rest → (∃ q, Evolves (events marks) q) → RaisesFirst s err r)

/-! ## The invariant -/

/-- A wrapper without transactions has all delivery errors that were reported. -/
structure Faithful (p : MutationProducer) (marks : List ProducerMark) : Prop where
  transactional : p.transactional = false
  errors : p.deliveryErrors = errors marks

variable {p s : MutationProducer} {marks past : List ProducerMark} {i : ProducerMethod}

theorem Faithful.event (h : Faithful p marks) {c : Call} (r : Response c) :
    Faithful (HasCallbacks.runCallbacks r.callbacks p) (marks ++ [.event ⟨c, r⟩]) where
  transactional := (sameProducer_runCallbacks p r.callbacks).1.transactional.trans h.transactional
  errors := by
    rw [deliveryErrors_runCallbacks, h.errors, ProducerMark.errors, ProducerMark.errors,
      events_event, reportedErrors_concat, filterMap_deliveryError]
    rfl

theorem Faithful.start (h : Faithful p marks) (i : ProducerMethod) :
    Faithful p (marks ++ [.start i p]) := by
  refine ⟨h.transactional, ?_⟩
  rw [ProducerMark.errors, events_start]
  exact h.errors

theorem Faithful.finish (h : Faithful p marks) (i : ProducerMethod) (r : Except PyExc Unit) :
    Faithful p (marks ++ [.finish i r p]) := by
  refine ⟨h.transactional, ?_⟩
  rw [ProducerMark.errors, events_finish]
  exact h.errors

theorem wp_deliver_call {c : KafkaCall} (hproduce : (Call.kafka c).isProduce = true → errors marks = [])
    {Q : Except PyExc (Call.kafka c).Value → MutationProducer → List ProducerMark → Prop}
    (hQ : ∀ r : Response (.kafka c), Q r.result (HasCallbacks.runCallbacks r.callbacks p)
      (marks ++ [.event ⟨.kafka c, r⟩])) :
    Proc.wp (recorder DeliveryMark) (native (.kafka c)) Q p marks := by
  rw [wp_native]
  intro r
  exact ⟨_, recorder_next.2 ⟨hproduce, rfl⟩, hQ r⟩

theorem preserves_call {c : KafkaCall} (hproduce : (Call.kafka c).isProduce = false) :
    Proc.Preserves (recorder DeliveryMark) Faithful
      (native (.kafka c) : Py MutationProducer (Call.kafka c).Value) := by
  intro p marks h
  exact wp_deliver_call (fun htrue => nomatch hproduce.symm.trans htrue) fun r => h.event r

/-! ## The methods -/

section Methods

open MutationProducer

/-- The methods for transactions raise without a call. -/
theorem preserves_requireTransactional {f : Handle → Py MutationProducer Unit} (method : String) :
    Proc.Preserves (recorder DeliveryMark) Faithful (requireTransactional method >>= f) := by
  intro p marks h
  refine wp_requireTransactional_bind ?_ fun _ _ _ => h
  intro _ _ _ htransactional _
  exact nomatch h.transactional.symm.trans htransactional

theorem preserves_length : Proc.Preserves (recorder DeliveryMark) Faithful length := by
  refine Proc.preserves_get.bind fun p => ?_
  cases p.producer with
  | none => exact Proc.preserves_throw _
  | some handle => exact (preserves_raiseIf _ _).bind fun _ => preserves_call rfl

theorem preserves_modify {f : MutationProducer → MutationProducer}
    (htransactional : ∀ p, (f p).transactional = p.transactional)
    (herrors : ∀ p, (f p).deliveryErrors = p.deliveryErrors) :
    Proc.Preserves (recorder DeliveryMark) Faithful (modify f : Py MutationProducer Unit) :=
  Proc.preserves_modify fun p _ h =>
    ⟨(htransactional p).trans h.transactional, (herrors p).trans h.errors⟩

theorem preserves_close (timeout : ℚ) :
    Proc.Preserves (recorder DeliveryMark) Faithful (close timeout) := by
  refine preserves_close_of (fun c hc => ?_) (fun p _ h => ⟨h.transactional, h.errors⟩)
    (fun p _ h => ⟨h.transactional, h.errors⟩) timeout
  refine preserves_call ?_
  cases c <;> first | rfl | cases hc

/-- A method that sends, started in `s` after `past`. -/
structure Sending (past : List ProducerMark) (s p : MutationProducer) (marks : List ProducerMark) :
    Prop where
  faithful : Faithful p marks
  opening : opening marks = some (past, s)

theorem Sending.event (h : Sending past s p marks) {c : Call} (r : Response c) :
    Sending past s (HasCallbacks.runCallbacks r.callbacks p) (marks ++ [.event ⟨c, r⟩]) :=
  ⟨h.faithful.event r, (opening_event marks _).trans h.opening⟩

/-- What a method raises that was started after a delivery error. -/
def Refuses (past : List ProducerMark) (s : MutationProducer) (r : Except PyExc Unit)
    (marks : List ProducerMark) : Prop :=
  ∀ err rest, errors past = err :: rest → (∃ q, Evolves (events marks) q) → RaisesFirst s err r

theorem refuses_runtimeError {exc : PyExc} (hexc : exc.isRuntimeError = true)
    (hs : s.closed = true ∨ s.fatal = true) : Refuses past s (.error exc) marks :=
  fun _ _ _ _ => ⟨exc, rfl, .inr ⟨hexc, hs⟩⟩

/-- The errors that were reported before a method started are still the first ones. -/
theorem errors_event (e : Event Response) :
    errors (marks ++ [.event e]) = errors marks ++ e.response.reports.filterMap id := by
  rw [errors, events_event, reportedErrors_concat, errors]

theorem errors_start : errors (marks ++ [.start i p]) = errors marks := by
  rw [errors, events_start, errors]

theorem wp_produce_delivers (topic : String) (record : FDBMutationRecord) (key : Option Bytes)
    (h : Sending past s s marks) (hpast : errors marks = errors past) :
    Proc.wp (recorder DeliveryMark) (produce topic record key)
      (fun r p' marks' => Sending past s p' marks' ∧ Refuses past s r marks') s marks := by
  unfold produce
  rw [Proc.wp_get_bind]
  cases hproducer : s.producer with
  | none => exact ⟨h, refuses_runtimeError rfl (.inl (Option.isNone_iff_eq_none.2 hproducer))⟩
  | some handle =>
    simp only
    rw [wp_raiseIf_bind]
    split
    · rename_i hfatal
      exact ⟨h, refuses_runtimeError rfl (.inr hfatal)⟩
    rw [wp_raiseIf_bind, if_neg (by simp [h.faithful.transactional])]
    split
    · rename_i err rest _ herrors
      refine ⟨h, ?_⟩
      intro err' rest' hfirst _
      rw [h.faithful.errors, hpast, hfirst] at herrors
      obtain ⟨rfl, -⟩ := List.cons.inj herrors
      exact ⟨_, rfl, .inl rfl⟩
    · rename_i hnone
      have hclean : errors past = [] := by
        rw [← hpast, ← h.faithful.errors]
        cases herrors : s.deliveryErrors with
        | nil => rfl
        | cons err rest => exact absurd herrors (hnone err rest h.faithful.transactional)
      have hrefuses : ∀ r marks', Refuses past s r marks' := by
        intro r marks' err rest hfirst _
        rw [hclean] at hfirst
        cases hfirst
      rw [Proc.wp_bind]
      refine wp_deliver_call (fun _ => hpast.trans hclean) fun r => ?_
      cases hres : r.result with
      | error exc => exact ⟨h.event r, hrefuses _ _⟩
      | ok u =>
        rw [Proc.andThen]
        refine wp_deliver_call (fun hproduce => ?_) fun r' => ?_
        · cases hproduce
        · exact ⟨(h.event r).event r', hrefuses _ _⟩

/-- A flush that returns has seen no delivery error, and says how many messages are pending. -/
theorem wp_flush_delivers (timeout : ℚ) (h : Sending past s s marks)
    (hpast : errors marks = errors past) :
    Proc.wp (recorder DeliveryMark) (flush timeout)
      (fun r p' marks' => Sending past s p' marks' ∧
        match r with
        | .ok remaining => errors marks' = [] ∧ errors past = [] ∧
            ∀ q, Evolves (events marks') q → q.pending.card = remaining
        | .error exc => Refuses past s (.error exc) marks') s marks := by
  unfold flush
  rw [Proc.wp_get_bind]
  cases hproducer : s.producer with
  | none => exact ⟨h, refuses_runtimeError rfl (.inl (Option.isNone_iff_eq_none.2 hproducer))⟩
  | some handle =>
    simp only
    rw [wp_raiseIf_bind]
    split
    · rename_i hfatal
      exact ⟨h, refuses_runtimeError rfl (.inr hfatal)⟩
    rw [Proc.wp_bind]
    refine wp_deliver_call (fun hproduce => ?_) fun r => ?_
    · cases hproduce
    have h' := h.event r
    have herrors := h'.faithful.errors
    have hgrows := @errors_event marks ⟨.kafka (.flush handle timeout), r⟩
    rw [hpast] at hgrows
    cases hres : r.result with
    | error exc =>
      -- a flush of the queue does not raise
      refine ⟨h', ?_⟩
      rintro err rest - ⟨q, hevolves⟩
      rw [events_event] at hevolves
      exact nomatch hevolves.flushed.symm.trans hres
    | ok remaining =>
      rw [Proc.andThen, Proc.wp_get_bind, herrors]
      split
      · rename_i err rest hfirst
        refine ⟨h', ?_⟩
        intro err' rest' hfirst' _
        rw [hgrows, hfirst'] at hfirst
        obtain ⟨rfl, -⟩ := List.cons.inj hfirst
        exact ⟨_, rfl, .inl rfl⟩
      · rename_i hnone
        refine ⟨h', hnone, ?_, ?_⟩
        · rw [hgrows] at hnone
          exact (List.append_eq_nil_iff.1 hnone).1
        · intro q hevolves
          rw [events_event] at hevolves
          exact Except.ok.inj (hevolves.flushed.symm.trans hres)

/-- When no message is pending and no error was reported, everything was delivered. -/
theorem delivered_of_flushed (herrors : errors marks = [])
    (hcount : ∀ q, Evolves (events marks) q → q.pending.card = 0) :
    ∀ q, Evolves (events marks) q → ∀ j < q.accepted, q.outcome j = some none := by
  intro q hevolves j hj
  have haccounted := hevolves.accounted
  rw [show reportedErrors (events marks) = [] from herrors] at haccounted
  exact haccounted.delivered (Finset.card_eq_zero.1 (hcount q hevolves)) hj

theorem wp_flushOrRaise_delivers (timeout : ℚ) (h : Sending past s s marks)
    (hpast : errors marks = errors past) :
    Proc.wp (recorder DeliveryMark) (flushOrRaise timeout)
      (fun r p' marks' => Sending past s p' marks' ∧ Refuses past s r marks' ∧
        (r = .ok () → ∀ q, Evolves (events marks') q →
          ∀ j < q.accepted, q.outcome j = some none)) s marks := by
  unfold flushOrRaise
  refine Proc.wp_bind_of (wp_flush_delivers timeout h hpast) ?_ ?_
  · rintro remaining p' marks' ⟨h', herrors, hclean, hcount⟩
    have hrefuses : ∀ r, Refuses past s r marks' := by
      intro r err rest hfirst _
      rw [hclean] at hfirst
      cases hfirst
    rw [wp_raiseIf]
    split
    · exact ⟨h', hrefuses _, fun hok => nomatch hok⟩
    · rename_i hzero
      have hremaining : remaining = 0 := by simpa using hzero
      refine ⟨h', hrefuses _, fun _ => delivered_of_flushed herrors ?_⟩
      rwa [hremaining] at hcount
  · rintro exc p' marks' ⟨h', hrefuses⟩
    exact ⟨h', hrefuses, fun hok => nomatch hok⟩

/-! ## Runs -/

theorem sends_of_waits (h : waits i = true) : sends i = true := by
  cases i with
  | flushOrRaise timeout => rfl
  | _ => cases h

/-- A method that neither sends nor waits has only to keep the delivery errors. -/
theorem methodKeeps_quiet (hi : sends i = false)
    (h : Proc.Preserves (recorder DeliveryMark) Faithful (perform i)) :
    MethodKeeps DeliveryMark Faithful perform i := by
  intro p marks hfaithful
  refine ⟨trivial, Proc.wp_mono (h p _ (hfaithful.start i)) ?_⟩
  intro r p' marks' h'
  have hnot : sends i ≠ true := by simp [hi]
  exact ⟨⟨fun hwaits => absurd (sends_of_waits hwaits) hnot, fun hsends => absurd hsends hnot⟩,
    h'.finish i r⟩

/-- A method that sends has to raise the first delivery error. -/
theorem methodKeeps_sends
    (h : ∀ past p marks, Sending past p p marks → errors marks = errors past →
      Proc.wp (recorder DeliveryMark) (perform i) (fun r p' marks' =>
        Sending past p p' marks' ∧ Refuses past p r marks' ∧
          (waits i = true → r = .ok () → ∀ q, Evolves (events marks') q →
            ∀ j < q.accepted, q.outcome j = some none)) p marks) :
    MethodKeeps DeliveryMark Faithful perform i := by
  intro p marks hfaithful
  refine ⟨trivial, Proc.wp_mono (h marks p _ ⟨hfaithful.start i, opening_start marks i p⟩
    errors_start) ?_⟩
  rintro r p' marks' ⟨h', hrefuses, hwaits⟩
  refine ⟨⟨hwaits, ?_⟩, h'.faithful.finish i r⟩
  intro _ past s err rest hopening
  obtain ⟨rfl, rfl⟩ := Prod.mk.inj (Option.some.inj (h'.opening.symm.trans hopening))
  exact hrefuses err rest

theorem perform_delivers (i : ProducerMethod) :
    MethodKeeps DeliveryMark Faithful perform i := by
  cases i with
  | initTransactions => exact methodKeeps_quiet rfl (preserves_requireTransactional _)
  | beginTransaction => exact methodKeeps_quiet rfl (preserves_requireTransactional _)
  | commitTransaction => exact methodKeeps_quiet rfl (preserves_requireTransactional _)
  | abortTransaction => exact methodKeeps_quiet rfl (preserves_requireTransactional _)
  | markFatal => exact methodKeeps_quiet rfl (preserves_modify (fun _ => rfl) fun _ => rfl)
  | length =>
    exact methodKeeps_quiet rfl (preserves_length.bind fun _ => Proc.preserves_pure _)
  | close timeout => exact methodKeeps_quiet rfl (preserves_close timeout)
  | produce topic record key =>
    refine methodKeeps_sends fun past p marks h hpast => ?_
    refine Proc.wp_mono (wp_produce_delivers topic record key h hpast) ?_
    exact fun r p' marks' h' => ⟨h'.1, h'.2, fun hwaits => nomatch hwaits⟩
  | flush timeout =>
    refine methodKeeps_sends fun past p marks h hpast => ?_
    refine Proc.wp_bind_of (wp_flush_delivers timeout h hpast) ?_ ?_
    · rintro remaining p' marks' ⟨h', -, hclean, -⟩
      refine ⟨h', ?_, fun hwaits => nomatch hwaits⟩
      intro err rest hfirst _
      rw [hclean] at hfirst
      cases hfirst
    · rintro exc p' marks' ⟨h', hrefuses⟩
      exact ⟨h', hrefuses, fun hwaits => nomatch hwaits⟩
  | flushOrRaise timeout =>
    refine methodKeeps_sends fun past p marks h hpast => ?_
    refine Proc.wp_mono (wp_flushOrRaise_delivers timeout h hpast) ?_
    exact fun r p' marks' h' => ⟨h'.1, h'.2.1, fun _ => h'.2.2⟩

end Methods

/-- From a new wrapper without transactions on, in every sequence of calls: `flush_or_raise` returns
only when every message that was enqueued has been delivered, and after a delivery error nothing is
enqueued and `produce` and `flush` raise the first one. -/
theorem perform_delivers_all {σ : Type} [HasCallbacks σ] {t t' : σ} {tr : List (Event Response)}
    (hnew : (MutationProducer.new none t).Returns tr (.ok p, t'))
    (hrun : Run MutationProducer.perform p marks) : Keeps DeliveryMark marks := by
  obtain ⟨h, rfl⟩ := MutationProducer.new_returns hnew
  exact hrun.keeps perform_delivers ⟨rfl, rfl⟩

/-- One record, whose delivery callback runs in the flush. -/
theorem perform_delivers_one :
    DeliveryMark
      [.start (.produce "t" .empty none) (MutationProducer.fresh 0 false),
        .event ⟨.kafka (.produce 0 "t" [] none), .value ()⟩, .event ⟨.kafka (.poll 0), .value ()⟩,
        .finish (.produce "t" .empty none) (.ok ()) (MutationProducer.fresh 0 false),
        .start (.flushOrRaise 10) (MutationProducer.fresh 0 false),
        .event ⟨.kafka (.flush 0 10), ⟨[.delivery none], .ok 0, fun _ => ⟨0, rfl⟩⟩⟩]
      (.finish (.flushOrRaise 10) (.ok ()) (MutationProducer.fresh 0 false)) := by
  have hnew : (MutationProducer.new none (MutationProducer.fresh 1 true)).Returns
      [⟨.kafka (.newProducer none), .value (0 : Handle)⟩]
      (.ok (MutationProducer.fresh 0 false), MutationProducer.fresh 1 true) := .step _ (.here _)
  have hproduce : (MutationProducer.perform (.produce "t" .empty none)
      (MutationProducer.fresh 0 false)).Returns
      [⟨.kafka (.produce 0 "t" [] none), .value ()⟩, ⟨.kafka (.poll 0), .value ()⟩]
      (.ok (), MutationProducer.fresh 0 false) := .step _ (.step _ (.here _))
  have hflush : (MutationProducer.perform (.flushOrRaise 10)
      (MutationProducer.fresh 0 false)).Returns
      [⟨.kafka (.flush 0 10), ⟨[.delivery none], .ok 0, fun _ => ⟨0, rfl⟩⟩⟩]
      (.ok (), MutationProducer.fresh 0 false) := .step _ (.here _)
  exact perform_delivers_all hnew (.next hproduce (.next hflush (.rest _))) _ _ [] rfl

end ProducerMark

end FdbKafkaBridge
