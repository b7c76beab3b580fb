import FdbKafkaBridge.Bridge.Proofs.RunLoopProofs
import FdbKafkaBridge.Bridge.Proofs.StepRunProofs

/-!
# An ambiguous commit

A commit that failed with a retriable error may have been done or not. The transaction is neither
given up nor passed by before that is known: not by the pipeline, and not by the bridge either when it
rebuilds the pipeline.
-/

namespace FdbKafkaBridge

open Protobuf (Bytes)
open Serialization (FDBMutationRecord)
open Interaction

/-! ## What the calls show of a commit -/

/-- The call shows that the producer is fatal. -/
def showsFatal (e : Event Response) : Bool :=
  e.response.callbacks.any Callback.isFatal ||
    (Protocol.raisedBy e.response).any isFatalKafkaError

/-- Whether the outcome of the commit that was tried last is unknown: it has failed with a retriable
error, and nothing has shown the producer to be fatal. -/
def ambiguousStep (ambiguous : Bool) : Event Response → Bool
  | ⟨.kafka (.commitTransaction ..), r⟩ =>
    (Protocol.raisedBy r).any isRetriableCommit && !r.callbacks.any Callback.isFatal
  | e => ambiguous && !showsFatal e

def commitAmbiguous (tr : List (Event Response)) : Bool := tr.foldl ambiguousStep false

/-- Giving up the open transaction, or going on without it. -/
def Call.passesCommit : Call → Bool
  | .fdb (.createCdcConsumer _) => true
  | .fdb (.resumeCdcConsumer _) => true
  | .fdb (.consume _) => true
  | .fdb (.acknowledge _) => true
  | .fdb (.getPosition _) => true
  | .kafka (.newProducer _) => true
  | .kafka (.beginTransaction _) => true
  | .kafka (.produce ..) => true
  | .kafka (.abortTransaction ..) => true
  | .kafka (.dropProducer _) => true
  | .host (.checkpoint _) => true
  | _ => false

/-! ## Callbacks that are not fatal -/

theorem Sink.hear_notFatal (k : Sink) {callbacks : List Callback}
    (h : callbacks.any Callback.isFatal = false) : (k.hear callbacks).fatal = k.fatal := by
  induction callbacks generalizing k with
  | nil => rfl
  | cons c callbacks ih =>
    rw [List.any_cons, Bool.or_eq_false_iff] at h
    obtain ⟨hc, hcallbacks⟩ := h
    have hone : (k.hearOne c).fatal = k.fatal := by
      cases c with
      | error err =>
        have herr : ¬ err.fatal = true := by simpa [Callback.isFatal] using hc
        show (if err.fatal then _ else k).fatal = k.fatal
        rw [if_neg herr]
      | delivery err => cases err <;> rfl
    exact (ih (k.hearOne c) hcallbacks).trans hone

theorem Sink.noteFatal_of_not (k : Sink) {exc : PyExc} (h : isFatalKafkaError exc = false) :
    k.noteFatal exc = k := by
  unfold Sink.noteFatal
  rw [if_neg (by rw [h]; exact Bool.false_ne_true)]

theorem not_fatal_of_retriable {exc : PyExc} (h : isRetriableCommit exc = true) :
    isFatalKafkaError exc = false := by
  unfold isRetriableCommit kafkaError at h
  unfold isFatalKafkaError
  split at h
  · rename_i error herror
    split at herror
    · rename_i error' hkind
      subst herror
      rw [hkind]
      simp only [Bool.and_eq_true, Bool.not_eq_true'] at h
      exact h.1.1
    · cases herror
  · cases h

namespace Protocol

variable {P : Contract} {m m' : Protocol}

/-! ## What holds between any two calls -/

/-- Only a transactional producer has a transaction, and a consumer is only resumed between two
replies. -/
structure Tidy (m : Protocol) : Prop where
  transactional : ∀ k, m.sink = some k → k.txnOpen = true → k.transactional = true
  restoring : m.sink.isSome = true → m.stage ≠ .idle → m.restoring = none

namespace Tidy

theorem of_sink (h : Tidy m) (hsink : m'.sink = m.sink)
    (hrestoring : m.sink.isSome = true → m'.stage ≠ .idle → m'.restoring = none) : Tidy m' := by
  refine ⟨fun k hk => h.transactional k (hsink ▸ hk), fun hsome hstage => ?_⟩
  rw [hsink] at hsome
  exact hrestoring hsome hstage

theorem same (h : Tidy m) (hsink : m'.sink = m.sink) (hstage : m'.stage = m.stage)
    (hrestoring : m'.restoring = m.restoring) : Tidy m' :=
  h.of_sink hsink fun hsome hne => hrestoring.trans (h.restoring hsome (hstage ▸ hne))

theorem hear (h : Tidy m) {c : Call} (r : Response c) : Tidy (m.hear r) := by
  refine ⟨fun k hk hopen => ?_, fun hsome hne => ?_⟩
  · rw [hear_sink] at hk
    obtain ⟨k₀, hk₀, rfl⟩ := Option.map_eq_some_iff.1 hk
    obtain ⟨-, htransactional, htxn⟩ := k₀.hear_static r.callbacks
    rw [htransactional]
    exact h.transactional k₀ hk₀ (htxn ▸ hopen)
  · rw [hear_sink, Option.isSome_map] at hsome
    exact h.restoring hsome hne

theorem setStage (h : Tidy m) (hne : m.stage ≠ .idle) (stage : Stage) : Tidy (m.setStage stage) :=
  h.of_sink rfl fun hsome _ => h.restoring hsome hne

theorem setSink (h : Tidy m) {k k' : Sink} (hsink : m.sink = some k)
    (hk : k'.txnOpen = true → k'.transactional = true) : Tidy (m.setSink k') := by
  refine ⟨fun k₁ hk₁ hopen => ?_, fun _ hne => h.restoring (by rw [hsink]; rfl) hne⟩
  cases hk₁
  exact hk hopen

theorem noteRogue (h : Tidy m) (rogue : Bool) : Tidy (m.noteRogue rogue) := h.same rfl rfl rfl

theorem abandon (h : Tidy m) : Tidy m.abandon := by
  unfold Protocol.abandon
  split
  · rename_i b done todo hstage
    refine h.setStage ?_ _
    rw [hstage]
    exact Stage.noConfusion
  · exact h

end Tidy

/-! ## What holds while a commit is ambiguous -/

/-- A batch was handed over to the last record, and is neither delivered nor known to be lost. -/
structure Ambiguous (m : Protocol) : Prop where
  stage : (∃ b done, m.stage = .sending b done []) ∨ ∃ h, m.stage = .abandoned h
  restoring : m.restoring = none
  sink : ∃ k, m.sink = some k ∧ k.held = true ∧ k.txnOpen = true ∧ k.transactional = true

namespace Ambiguous

theorem same (h : Ambiguous m) (hsink : m'.sink = m.sink) (hstage : m'.stage = m.stage)
    (hrestoring : m'.restoring = m.restoring) : Ambiguous m' := by
  refine ⟨?_, hrestoring.trans h.restoring, ?_⟩
  · rw [hstage]
    exact h.stage
  · rw [hsink]
    exact h.sink

theorem ne_idle (h : Ambiguous m) : m.stage ≠ .idle := by
  rcases h.stage with ⟨b, done, hstage⟩ | ⟨c, hstage⟩
  · rw [hstage]
    exact Stage.noConfusion
  · rw [hstage]
    exact Stage.noConfusion

theorem hear (h : Ambiguous m) {c : Call} {r : Response c}
    (hfatal : r.callbacks.any Callback.isFatal = false) : Ambiguous (m.hear r) := by
  obtain ⟨k, hsink, hheld, hopen, htransactional⟩ := h.sink
  obtain ⟨hpending, -, -⟩ := k.hear_kept r.callbacks
  obtain ⟨-, htrans, htxn⟩ := k.hear_static r.callbacks
  refine ⟨h.stage, h.restoring, k.hear r.callbacks, ?_, ?_, htxn.trans hopen,
    htrans.trans htransactional⟩
  · rw [hear_sink, hsink]
    rfl
  · rw [Sink.held, hpending, k.hear_notFatal hfatal]
    exact hheld

theorem abandon (h : Ambiguous m) : Ambiguous m.abandon := by
  unfold Protocol.abandon
  split
  · rename_i b done todo hstage
    exact ⟨.inr ⟨b.consumer, rfl⟩, h.restoring, h.sink⟩
  · exact h

theorem not_replaceable (h : Ambiguous m) : ¬ m.replaceable P = true := by
  intro hreplaceable
  unfold replaceable at hreplaceable
  rw [Bool.or_eq_true, decide_eq_true_eq] at hreplaceable
  obtain ⟨k, hsink, -⟩ := h.sink
  rcases hreplaceable with hidle | hdetached
  · exact h.ne_idle hidle
  · rw [hsink] at hdetached
    simp at hdetached

end Ambiguous

/-- What a call carries over from the state before it. -/
structure Carries (c : Call) (raised : List PyExc) (m m' : Protocol) : Prop where
  tidy : Tidy m → Tidy m'
  ambiguous : Ambiguous m → m.stopping = false → raised.any isFatalKafkaError = false →
    c.passesCommit = false ∧ Ambiguous m'

variable {raised : List PyExc}

theorem Carries.of_same {c : Call} (hpasses : c.passesCommit = false) (hsink : m'.sink = m.sink)
    (hstage : m'.stage = m.stage) (hrestoring : m'.restoring = m.restoring) :
    Carries c raised m m' :=
  ⟨fun h => h.same hsink hstage hrestoring,
    fun h _ _ => ⟨hpasses, h.same hsink hstage hrestoring⟩⟩

/-! ## Calls to FoundationDB -/

theorem carries_onCreate {name : Bytes} {result : Except PyExc Handle}
    (heq : m.onCreate P result = some m') :
    Carries (.fdb (.createCdcConsumer name)) raised m m' := by
  obtain ⟨hreplaceable, heq⟩ := Option.ite_none_right_eq_some.1 heq
  cases heq
  refine ⟨fun h => ?_, fun h => absurd hreplaceable h.not_replaceable⟩
  cases result with
  | ok consumer => exact h.of_sink rfl fun _ hne => absurd rfl hne
  | error exc => exact h.of_sink rfl fun _ _ => rfl

theorem carries_onResume {cursor : PyCursor} {result : Except PyExc Handle}
    (heq : m.onResume P cursor result = some m') :
    Carries (.fdb (.resumeCdcConsumer cursor)) raised m m' := by
  obtain ⟨⟨hreplaceable, -⟩, heq⟩ := Option.ite_none_right_eq_some.1 heq
  cases heq
  refine ⟨fun h => h.of_sink rfl fun hsome hne => ?_, fun h => absurd hreplaceable h.not_replaceable⟩
  -- with a producer, the stage is idle
  unfold replaceable at hreplaceable
  rw [Bool.or_eq_true, decide_eq_true_eq] at hreplaceable
  rcases hreplaceable with hidle | hdetached
  · exact absurd hidle hne
  · obtain ⟨k, hsink⟩ := Option.isSome_iff_exists.1 hsome
    rw [hsink] at hdetached
    simp at hdetached

theorem carries_onConsume {h : Handle} {result : Except PyExc CdcReply}
    (heq : m.onConsume h result = some m') : Carries (.fdb (.consume h)) raised m m' := by
  unfold onConsume at heq
  split at heq
  · rename_i hidle
    obtain ⟨-, heq⟩ := Option.ite_none_right_eq_some.1 heq
    cases heq
    refine ⟨fun h => ?_, fun h => absurd hidle h.ne_idle⟩
    cases result with
    | ok reply => exact h.of_sink rfl fun _ _ => rfl
    | error exc => exact h.of_sink rfl fun _ _ => rfl
  · cases heq

theorem tidy_finish {b : Batch} {result : Except PyExc Unit} (h : Tidy m) :
    Tidy (m.finish b result) := by
  cases result with
  | ok u => exact h.of_sink rfl fun _ hne => absurd rfl hne
  | error exc => exact h

theorem carries_onAcknowledge {h : Handle} {result : Except PyExc Unit}
    (heq : m.onAcknowledge P h result = some m') : Carries (.fdb (.acknowledge h)) raised m m' := by
  refine ⟨fun htidy => ?_, fun hambiguous => ?_⟩
  · unfold onAcknowledge at heq
    split at heq
    · obtain ⟨-, heq⟩ := Option.ite_none_right_eq_some.1 heq
      cases heq
      exact tidy_finish htidy
    · obtain ⟨-, heq⟩ := Option.ite_none_right_eq_some.1 heq
      cases heq
      exact tidy_finish htidy
    · unfold onRestore at heq
      split at heq
      · obtain ⟨-, heq⟩ := Option.ite_none_right_eq_some.1 heq
        cases heq
        unfold restoreResult
        split
        · exact htidy.of_sink rfl fun _ hne => absurd rfl hne
        · exact htidy.of_sink rfl fun _ hne => absurd rfl hne
        · exact htidy.of_sink rfl fun _ _ => rfl
      · cases heq
  · -- nothing is to be acknowledged, and no position to be restored
    unfold onAcknowledge onRestore at heq
    rw [hambiguous.restoring] at heq
    rcases hambiguous.stage with ⟨b, done, hstage⟩ | ⟨c, hstage⟩
    · rw [hstage] at heq
      cases heq
    · rw [hstage] at heq
      cases heq

theorem carries_onGetPosition {h : Handle} {result : Except PyExc PyCursor}
    (heq : m.onGetPosition h result = some m') : Carries (.fdb (.getPosition h)) raised m m' := by
  refine ⟨fun htidy => ?_, fun hambiguous => ?_⟩
  · have hne : ∀ b, m.stage = .delivered b ∨ (∃ cursor, m.stage = .positioned b cursor) →
        m.stage ≠ .idle := by
      rintro b (hstage | ⟨cursor, hstage⟩)
      · rw [hstage]
        exact Stage.noConfusion
      · rw [hstage]
        exact Stage.noConfusion
    unfold onGetPosition at heq
    split at heq
    · rename_i b cursor hstage
      obtain ⟨-, heq⟩ := Option.ite_none_right_eq_some.1 heq
      cases heq
      exact htidy.setStage (hne b (.inl hstage)) _
    · rename_i b cursor' cursor hstage
      obtain ⟨-, heq⟩ := Option.ite_none_right_eq_some.1 heq
      cases heq
      exact htidy.setStage (hne b (.inr ⟨cursor', hstage⟩)) _
    · cases heq
      exact htidy
    · cases heq
      exact htidy
    · cases heq
  · unfold onGetPosition at heq
    rcases hambiguous.stage with ⟨b, done, hstage⟩ | ⟨c, hstage⟩
    · rw [hstage] at heq
      cases heq
    · rw [hstage] at heq
      cases heq

/-- A consumer may be closed while a commit is ambiguous, as `stop` does to unblock a step. -/
theorem carries_onCloseConsumer {h : Handle} (heq : m.onCloseConsumer P = some m') :
    Carries (.fdb (.closeConsumer h)) raised m m' := by
  obtain ⟨-, heq⟩ := Option.ite_none_left_eq_some.1 heq
  cases heq
  refine ⟨fun htidy => htidy.of_sink rfl fun _ _ => rfl, fun hambiguous _ _ => ⟨rfl, ?_, rfl,
    hambiguous.sink⟩⟩
  rcases hambiguous.stage with ⟨b, done, hstage⟩ | ⟨c, hstage⟩
  · left
    refine ⟨b, done, ?_⟩
    show m.stage.close = _
    rw [hstage]
    rfl
  · right
    refine ⟨c, ?_⟩
    show m.stage.close = _
    rw [hstage]
    rfl

theorem carries_onFdb {c : FdbCall} {result : Except PyExc (Call.fdb c).Value}
    (heq : m.onFdb P c result = some m') : Carries (.fdb c) raised m m' := by
  cases c with
  | createCdcConsumer name => exact carries_onCreate heq
  | resumeCdcConsumer cursor => exact carries_onResume heq
  | consume h => exact carries_onConsume heq
  | acknowledge h => exact carries_onAcknowledge heq
  | getPosition h => exact carries_onGetPosition heq
  | closeConsumer h => exact carries_onCloseConsumer heq
  | openDatabase =>
    cases heq
    exact .of_same rfl rfl rfl rfl
  | registerCdcStream name beginKey endKey =>
    cases heq
    exact .of_same rfl rfl rfl rfl
  | getReadVersion =>
    cases heq
    exact .of_same rfl rfl rfl rfl

/-! ## Calls to Kafka -/

variable {k : Sink} {h : Handle} {timeout : ℚ}

theorem noteFatal_static (k : Sink) (exc : PyExc) :
    (k.noteFatal exc).transactional = k.transactional ∧ (k.noteFatal exc).txnOpen = k.txnOpen := by
  unfold Sink.noteFatal
  split <;> exact ⟨rfl, rfl⟩

theorem Tidy.noteFatal (h : Tidy m) (hsink : m.sink = some k) (exc : PyExc) :
    (k.noteFatal exc).txnOpen = true → (k.noteFatal exc).transactional = true := by
  intro hopen
  obtain ⟨htransactional, htxn⟩ := noteFatal_static k exc
  rw [htransactional]
  exact h.transactional k hsink (htxn ▸ hopen)

/-- The transaction that is held on to. -/
theorem Ambiguous.held (h : Ambiguous m) (hsink : m.sink = some k) :
    k.held = true ∧ k.txnOpen = true ∧ k.transactional = true := by
  obtain ⟨k₀, hk₀, hheld⟩ := h.sink
  rw [hsink] at hk₀
  cases hk₀
  exact hheld

theorem carries_onNewProducer {transactionalId : Option String} {result : Except PyExc Handle}
    (heq : m.onNewProducer transactionalId.isSome result = some m') :
    Carries (.kafka (.newProducer transactionalId)) raised m m' := by
  unfold onNewProducer at heq
  split at heq
  · rename_i hidle hsink
    refine ⟨fun htidy => ?_, fun hambiguous => absurd hidle hambiguous.ne_idle⟩
    cases result with
    | ok h =>
      cases heq
      refine ⟨fun k hk hopen => ?_, fun _ hne => absurd hidle hne⟩
      cases hk
      cases hopen
    | error exc =>
      cases heq
      exact htidy
  · cases heq

theorem carries_onInit {result : Except PyExc Unit} (hsink : m.sink = some k)
    (heq : m.onInit k result = some m') (hraised : ∀ exc, result = .error exc → exc ∈ raised) :
    Carries (.kafka (.initTransactions h timeout)) raised m m' := by
  cases result with
  | ok u =>
    cases heq
    exact .of_same rfl rfl rfl rfl
  | error exc =>
    cases heq
    refine ⟨fun htidy => htidy.setSink hsink (htidy.noteFatal hsink exc), fun hambiguous _ hfatal => ⟨rfl, ?_⟩⟩
    have hexc := List.any_eq_false.1 hfatal exc (hraised exc rfl)
    rw [k.noteFatal_of_not (Bool.eq_false_iff.2 hexc)]
    exact hambiguous.same hsink.symm rfl rfl

theorem carries_onBegin {result : Except PyExc Unit} (hsink : m.sink = some k)
    (heq : m.onBegin k result = some m') :
    Carries (.kafka (.beginTransaction h)) raised m m' := by
  unfold onBegin at heq
  split at heq
  · obtain ⟨⟨htransactional, hopen⟩, heq⟩ := Option.ite_none_right_eq_some.1 heq
    cases heq
    refine ⟨fun htidy => ?_, fun hambiguous => ?_⟩
    · cases result with
      | ok u => exact htidy.setSink hsink fun _ => htransactional
      | error exc => exact (htidy.setSink hsink (htidy.noteFatal hsink exc)).noteRogue _
    · rw [(hambiguous.held hsink).2.1] at hopen
      cases hopen
  · cases heq

theorem carries_onProduce {topic : String} {value : Bytes} {key : Option Bytes}
    {result : Except PyExc Unit} (hsink : m.sink = some k)
    (heq : m.onProduce k value result = some m') :
    Carries (.kafka (.produce h topic value key)) raised m m' := by
  unfold onProduce at heq
  split at heq
  · rename_i b done v todo hstage
    obtain ⟨-, heq⟩ := Option.ite_none_right_eq_some.1 heq
    cases heq
    refine ⟨fun htidy => ?_, fun hambiguous => ?_⟩
    · have hset : Tidy (m.setSink { k with dirty := !k.transactional }) :=
        htidy.setSink hsink (htidy.transactional k hsink)
      have hne : (m.setSink { k with dirty := !k.transactional }).stage ≠ .idle := by
        show m.stage ≠ .idle
        rw [hstage]
        exact Stage.noConfusion
      cases result with
      | ok u => exact hset.setStage hne _
      | error exc => exact (hset.noteRogue _).setStage hne _
    · rcases hambiguous.stage with ⟨b', done', hstage'⟩ | ⟨c, hstage'⟩
      · rw [hstage'] at hstage
        cases hstage
      · rw [hstage'] at hstage
        cases hstage
  · cases heq

theorem carries_onPoll {result : Except PyExc Unit} :
    Carries (.kafka (.poll h)) raised m (m.onPoll result) := by
  cases result with
  | ok u => exact .of_same rfl rfl rfl rfl
  | error exc =>
    refine ⟨fun htidy => htidy.abandon.noteRogue _, fun hambiguous _ _ => ⟨rfl, ?_⟩⟩
    exact hambiguous.abandon.same rfl rfl rfl

theorem carries_onFlush {fatalBefore : Bool} {result : Except PyExc ℕ} (hsink : m.sink = some k)
    (heq : m.onFlush P k fatalBefore result = some m') :
    Carries (.kafka (.flush h timeout)) raised m m' := by
  unfold onFlush at heq
  split at heq
  · rename_i b done todo hstage
    split at heq
    · cases heq
      exact .of_same rfl rfl rfl rfl
    · rename_i hplain
      cases heq
      refine ⟨fun htidy => ?_, fun hambiguous => absurd (hambiguous.held hsink).2.2 hplain⟩
      have hne : m.stage ≠ .idle := hstage.trans_ne Stage.noConfusion
      unfold flushResult
      split
      · have hset : Tidy (m.setSink { k with dirty := false }) :=
          htidy.setSink hsink (htidy.transactional k hsink)
        exact hset.setStage hne _
      · exact (htidy.setStage hne _).noteRogue _
  · obtain ⟨-, heq⟩ := Option.ite_none_left_eq_some.1 heq
    cases heq
    exact .of_same rfl rfl rfl rfl

theorem carries_onAbort {result : Except PyExc Unit} (hsink : m.sink = some k)
    (heq : m.onAbort k result = some m') :
    Carries (.kafka (.abortTransaction h timeout)) raised m m' := by
  obtain ⟨⟨-, hmay⟩, heq⟩ := Option.ite_none_right_eq_some.1 heq
  cases heq
  refine ⟨fun htidy => ?_, fun hambiguous hstopping => ?_⟩
  · cases result with
    | ok u => exact (htidy.setSink hsink fun hopen => Bool.noConfusion hopen).abandon
    | error exc =>
      have hset : Tidy (m.setSink { k with fatal := true }) :=
        htidy.setSink hsink (htidy.transactional k hsink)
      exact hset.abandon
  · rw [(hambiguous.held hsink).1, hstopping] at hmay
    rcases hmay with hmay | hmay <;> cases hmay

theorem carries_onDrop (hsink : m.sink = some k) (heq : m.onDrop k = some m') :
    Carries (.kafka (.dropProducer h)) raised m m' := by
  obtain ⟨hmay, heq⟩ := Option.ite_none_right_eq_some.1 heq
  cases heq
  refine ⟨fun _ => ⟨fun k' hk' => (by cases hk'), fun hsome => (by cases hsome)⟩,
    fun hambiguous hstopping => ?_⟩
  rw [(hambiguous.held hsink).1, hstopping] at hmay
  rcases hmay with hmay | hmay <;> cases hmay

/-- A commit attempt. Only one that is ambiguous leaves an ambiguous commit behind. -/
theorem tidy_onCommit {fatalBefore : Bool} {result : Except PyExc Unit} (hsink : m.sink = some k)
    (heq : m.onCommit k fatalBefore result = some m') (htidy : Tidy m) : Tidy m' := by
  unfold onCommit at heq
  split at heq
  · rename_i b done hstage
    obtain ⟨-, heq⟩ := Option.ite_none_right_eq_some.1 heq
    cases heq
    have hne : m.stage ≠ .idle := hstage.trans_ne Stage.noConfusion
    cases result with
    | ok u => exact (htidy.setSink hsink fun hopen => Bool.noConfusion hopen).setStage hne _
    | error exc =>
      have hset : Tidy (m.setSink
          { k.noteFatal exc with commitPending := isRetriableCommit exc }) :=
        htidy.setSink hsink (htidy.noteFatal hsink exc)
      have hnoted := hset.noteRogue (!exc.isKafkaException)
      unfold commitResult
      dsimp only
      split
      · exact hnoted
      · exact hnoted.setStage hne _
  · cases heq

theorem ambiguous_onCommit {exc : PyExc} (hsink : m.sink = some k) (hnotfatal : k.fatal = false)
    (heq : m.onCommit k false (.error exc) = some m') (hretriable : isRetriableCommit exc = true)
    (htidy : Tidy m) : Ambiguous m' := by
  unfold onCommit at heq
  split at heq
  · rename_i b done hstage
    obtain ⟨⟨hopen, -⟩, heq⟩ := Option.ite_none_right_eq_some.1 heq
    cases heq
    have hstays : staysOutstanding exc = true := by rw [staysOutstanding, hretriable, Bool.true_or]
    unfold commitResult
    dsimp only
    rw [if_pos hstays, k.noteFatal_of_not (not_fatal_of_retriable hretriable), hretriable]
    refine ⟨.inl ⟨b, done, hstage⟩, htidy.restoring ?_ ?_, _, rfl, ?_, hopen,
      htidy.transactional k hsink hopen⟩
    · rw [hsink]
      rfl
    · rw [hstage]
      exact Stage.noConfusion
    · show (true && !k.fatal) = true
      rw [hnotfatal]
      rfl
  · cases heq

/-- Any other call to Kafka than a commit. -/
theorem carries_onKafka {fatalBefore : Bool} {c : KafkaCall} (r : Response (.kafka c))
    (hcommit : ∀ h timeout, c ≠ .commitTransaction h timeout)
    (heq : m.onKafka P fatalBefore c r.result = some m') :
    Carries (.kafka c) (raisedBy r) m m' := by
  have hraised : ∀ {c : Call} (r : Response c) (exc : PyExc), r.result = .error exc →
      exc ∈ raisedBy r := by
    intro c r exc hexc
    rw [raisedBy, hexc]
    exact List.mem_singleton_self exc
  cases c with
  | newProducer transactionalId => exact carries_onNewProducer heq
  | initTransactions h timeout =>
    obtain ⟨k, hsink, -, heq⟩ := withSink_some heq
    exact carries_onInit hsink heq (hraised r)
  | beginTransaction h =>
    obtain ⟨k, hsink, -, heq⟩ := withSink_some heq
    exact carries_onBegin hsink heq
  | commitTransaction h timeout => exact absurd rfl (hcommit h timeout)
  | abortTransaction h timeout =>
    obtain ⟨k, hsink, -, heq⟩ := withSink_some heq
    exact carries_onAbort hsink heq
  | produce h topic value key =>
    obtain ⟨k, hsink, -, heq⟩ := withSink_some heq
    exact carries_onProduce hsink heq
  | poll h =>
    obtain ⟨k, -, -, heq⟩ := withSink_some heq
    cases heq
    exact carries_onPoll
  | flush h timeout =>
    obtain ⟨k, hsink, -, heq⟩ := withSink_some heq
    exact carries_onFlush hsink heq
  | purge h =>
    obtain ⟨k, -, -, heq⟩ := withSink_some heq
    cases heq
    exact ⟨Tidy.abandon, fun hambiguous _ _ => ⟨rfl, hambiguous.abandon⟩⟩
  | queueLength h =>
    obtain ⟨k, -, -, heq⟩ := withSink_some heq
    cases heq
    exact .of_same rfl rfl rfl rfl
  | dropProducer h =>
    obtain ⟨k, hsink, -, heq⟩ := withSink_some heq
    exact carries_onDrop hsink heq

/-! ## The other calls -/

theorem carries_onFile {c : FileCall} {result : Except PyExc (Call.file c).Value}
    (heq : m.onFile P c result = some m') : Carries (.file c) raised m m' := by
  have hsame : m'.sink = m.sink ∧ m'.stage = m.stage ∧ m'.restoring = m.restoring := by
    have htemporary : ∀ {path : String} {result : Except PyExc Unit},
        m.onTemporary P path result = some m' →
          m'.sink = m.sink ∧ m'.stage = m.stage ∧ m'.restoring = m.restoring := by
      intro path result heq
      obtain ⟨-, heq⟩ := Option.ite_none_right_eq_some.1 heq
      cases result <;> cases heq <;> exact ⟨rfl, rfl, rfl⟩
    cases c with
    | pathExists path =>
      obtain ⟨-, heq⟩ := Option.ite_none_right_eq_some.1 heq
      split at heq <;> cases heq <;> exact ⟨rfl, rfl, rfl⟩
    | readJson path =>
      obtain ⟨-, heq⟩ := Option.ite_none_right_eq_some.1 heq
      cases result <;> cases heq <;> exact ⟨rfl, rfl, rfl⟩
    | openWrite path =>
      obtain ⟨-, heq⟩ := Option.ite_none_right_eq_some.1 heq
      cases heq
      exact ⟨rfl, rfl, rfl⟩
    | dumpJson path text =>
      change m.onDump P path text result = some m' at heq
      unfold onDump at heq
      split at heq
      · obtain ⟨-, heq⟩ := Option.ite_none_right_eq_some.1 heq
        cases result <;> cases heq <;> exact ⟨rfl, rfl, rfl⟩
      · cases heq
    | flushFile path => exact htemporary heq
    | fsyncFile path => exact htemporary heq
    | closeFile path => exact htemporary heq
    | replace source target =>
      obtain ⟨-, heq⟩ := Option.ite_none_right_eq_some.1 heq
      cases heq
      exact ⟨rfl, rfl, rfl⟩
    | openParent path =>
      cases heq
      exact ⟨rfl, rfl, rfl⟩
    | fsyncParent path =>
      cases heq
      exact ⟨rfl, rfl, rfl⟩
    | closeParent path =>
      cases heq
      exact ⟨rfl, rfl, rfl⟩
  obtain ⟨hsink, hstage, hrestoring⟩ := hsame
  exact .of_same rfl hsink hstage hrestoring

theorem carries_onTime {result : Except PyExc ℕ} (heq : m.onTime P result = some m') :
    Carries (.host .timeNs) raised m m' := by
  unfold onTime at heq
  split at heq
  · rename_i consumer reply timestampNs hstage
    cases heq
    refine ⟨fun htidy => ?_, fun hambiguous => ?_⟩
    · have hne : m.stage ≠ .idle := hstage.trans_ne Stage.noConfusion
      unfold timeResult
      split
      · exact htidy.setStage hne _
      · exact htidy.of_sink rfl fun _ hne' => absurd rfl hne'
      · exact htidy.setStage hne _
    · rcases hambiguous.stage with ⟨b, done, hstage'⟩ | ⟨c, hstage'⟩
      · rw [hstage'] at hstage
        cases hstage
      · rw [hstage'] at hstage
        cases hstage
  · cases heq

theorem carries_onCheckpoint {cursor : PyCursor} {result : Except PyExc Unit}
    (heq : m.onCheckpoint P cursor result = some m') :
    Carries (.host (.checkpoint cursor)) raised m m' := by
  unfold onCheckpoint at heq
  split at heq
  · rename_i b cursor' hstage
    obtain ⟨-, heq⟩ := Option.ite_none_right_eq_some.1 heq
    refine ⟨fun htidy => ?_, fun hambiguous => ?_⟩
    · have hne : m.stage ≠ .idle := hstage.trans_ne Stage.noConfusion
      cases result with
      | ok u =>
        cases heq
        exact htidy.setStage hne _
      | error exc =>
        cases heq
        exact htidy
    · rcases hambiguous.stage with ⟨b', done, hstage'⟩ | ⟨c, hstage'⟩
      · rw [hstage'] at hstage
        cases hstage
      · rw [hstage'] at hstage
        cases hstage
  · cases heq

theorem carries_onHost {c : HostCall} {result : Except PyExc (Call.host c).Value}
    (heq : m.onHost P c result = some m') : Carries (.host c) raised m m' := by
  cases c with
  | timeNs => exact carries_onTime heq
  | checkpoint cursor => exact carries_onCheckpoint heq
  | shutdownIsSet =>
    cases result with
    | error exc =>
      cases heq
      exact .of_same rfl rfl rfl rfl
    | ok shutdown =>
      cases shutdown with
      | false =>
        cases heq
        exact .of_same rfl rfl rfl rfl
      | true =>
        cases heq
        exact .of_same rfl rfl rfl rfl
  | shutdownSet =>
    cases heq
    exact .of_same rfl rfl rfl rfl
  | monotonic =>
    cases heq
    exact .of_same rfl rfl rfl rfl
  | sleep seconds =>
    cases heq
    exact .of_same rfl rfl rfl rfl
  | shutdownWait timeout =>
    cases heq
    exact .of_same rfl rfl rfl rfl

/-! ## Every call -/

/-- What the protocol shows after the calls `tr`. -/
structure Holds (tr : List (Event Response)) (m : Protocol) : Prop where
  tidy : Tidy m
  ambiguous : commitAmbiguous tr = true → m.stopping = false → Ambiguous m

theorem commitAmbiguous_concat (tr : List (Event Response)) (e : Event Response) :
    commitAmbiguous (tr ++ [e]) = ambiguousStep (commitAmbiguous tr) e := by
  rw [commitAmbiguous, List.foldl_concat, ← commitAmbiguous]

/-- No step away from an ambiguous commit, once it was heard. -/
theorem Holds.carry {tr : List (Event Response)} {c : Call} {r : Response c} (h : Holds tr m)
    (hcarries : Carries c (raisedBy r) (m.hear r) m')
    (hstep : ambiguousStep (commitAmbiguous tr) ⟨c, r⟩ =
      (commitAmbiguous tr && !showsFatal ⟨c, r⟩)) (hstopping : m'.stopping = false → m.stopping = false) :
    Holds (tr ++ [⟨c, r⟩]) m' := by
  refine ⟨hcarries.tidy (h.tidy.hear r), fun hcommit hnot => ?_⟩
  rw [commitAmbiguous_concat, hstep, Bool.and_eq_true, Bool.not_eq_true'] at hcommit
  obtain ⟨hbefore, hshows⟩ := hcommit
  obtain ⟨hcallbacks, hraised⟩ := Bool.or_eq_false_iff.1 hshows
  have hambiguous := (h.ambiguous hbefore (hstopping hnot)).hear hcallbacks
  exact (hcarries.ambiguous hambiguous (hstopping hnot) hraised).2

theorem ambiguousStep_kafka {c : KafkaCall} (hcommit : ∀ h timeout, c ≠ .commitTransaction h timeout)
    (ambiguous : Bool) (r : Response (.kafka c)) :
    ambiguousStep ambiguous ⟨_, r⟩ = (ambiguous && !showsFatal ⟨_, r⟩) := by
  cases c with
  | commitTransaction h timeout => exact absurd rfl (hcommit h timeout)
  | _ => rfl

theorem onCommit_notFatal {k : Sink} {fatalBefore : Bool} {result : Except PyExc Unit}
    (heq : m.onCommit k fatalBefore result = some m') : fatalBefore = false := by
  unfold onCommit at heq
  split at heq
  · exact (Option.ite_none_right_eq_some.1 heq).1.2
  · cases heq

theorem Holds.commit {tr : List (Event Response)} {h : Handle} {timeout : ℚ}
    {r : Response (.kafka (.commitTransaction h timeout))} (hholds : Holds tr m)
    (hnext : next P m ⟨_, r⟩ = some m') : Holds (tr ++ [⟨_, r⟩]) m' := by
  obtain ⟨k, hsink, -, heq⟩ := withSink_some hnext
  have htidy := hholds.tidy.hear r
  refine ⟨tidy_onCommit hsink heq htidy, fun hcommit _ => ?_⟩
  rw [commitAmbiguous_concat] at hcommit
  obtain ⟨hretriable, hcallbacks⟩ := Bool.and_eq_true_iff.1 hcommit
  rw [Bool.not_eq_true'] at hcallbacks
  cases hresult : r.result with
  | ok u =>
    rw [raisedBy, hresult] at hretriable
    cases hretriable
  | error exc =>
    rw [raisedBy, hresult, List.any_cons, List.any_nil, Bool.or_false] at hretriable
    have hbefore := onCommit_notFatal heq
    rw [hbefore, hresult] at heq
    refine ambiguous_onCommit hsink ?_ heq hretriable htidy
    obtain ⟨k₀, hk₀, rfl⟩ := Option.map_eq_some_iff.1 hsink
    rw [hk₀] at hbefore
    exact (k₀.hear_notFatal hcallbacks).trans hbefore

theorem Holds.next {tr : List (Event Response)} {e : Event Response} (h : Holds tr m)
    (hnext : next P m e = some m') : Holds (tr ++ [e]) m' := by
  have hstopping : m'.stopping = false → m.stopping = false := by
    intro hnot
    rw [next_stopping hnext, Bool.or_eq_false_iff] at hnot
    exact hnot.1
  obtain ⟨c, r⟩ := e
  cases c with
  | fdb c => exact h.carry (carries_onFdb hnext) rfl hstopping
  | kafka c =>
    by_cases hcommit : ∃ producer timeout, c = .commitTransaction producer timeout
    · obtain ⟨producer, timeout, rfl⟩ := hcommit
      exact h.commit hnext
    · have hnot : ∀ producer timeout, c ≠ .commitTransaction producer timeout :=
        fun producer timeout heq => hcommit ⟨producer, timeout, heq⟩
      exact h.carry (carries_onKafka r hnot hnext) (ambiguousStep_kafka hnot _ r) hstopping
  | file c => exact h.carry (carries_onFile hnext) rfl hstopping
  | host c => exact h.carry (carries_onHost hnext) rfl hstopping

/-- Any such call may raise an exception that is not fatal, or cannot raise. -/
theorem exists_notFatal {c : Call} (h : c.passesCommit = true) :
    ∃ r : Response c, r.callbacks = [] ∧ (raisedBy r).any isFatalKafkaError = false := by
  by_cases hraise : c.canRaise = true
  · exact ⟨⟨[], .error (.runtimeError ""), fun hnot => absurd (hraise.symm.trans hnot) Bool.noConfusion⟩,
      rfl, rfl⟩
  · cases c with
    | fdb c => exact absurd rfl hraise
    | kafka c =>
      cases c with
      | dropProducer producer => exact ⟨.value (), rfl, rfl⟩
      | _ => exact absurd rfl hraise
    | file c => cases h
    | host c =>
      cases c with
      | checkpoint cursor => exact absurd rfl hraise
      | _ => cases h

/-- A call that is allowed whatever its response does not pass by an ambiguous commit. -/
theorem Holds.allowed {tr : List (Event Response)} {c : Call} (h : Holds tr m)
    (hcommit : commitAmbiguous tr = true) (hstopping : m.stopping = false)
    (hallows : ∀ r, ∃ m', Protocol.next P m ⟨c, r⟩ = some m') : c.passesCommit = false := by
  by_contra hnot
  rw [Bool.not_eq_false] at hnot
  obtain ⟨r, hcallbacks, hraised⟩ := exists_notFatal hnot
  obtain ⟨m', hnext⟩ := hallows r
  have hambiguous : Ambiguous (m.hear r) :=
    (h.ambiguous hcommit hstopping).hear (by rw [hcallbacks]; rfl)
  have hcarries : Carries c (raisedBy r) (m.hear r) m' := by
    cases c with
    | fdb c => exact carries_onFdb hnext
    | kafka c =>
      refine carries_onKafka r ?_ hnext
      rintro producer timeout rfl
      cases hnot
    | file c => exact carries_onFile hnext
    | host c => exact carries_onHost hnext
  obtain ⟨hpasses, -⟩ := hcarries.ambiguous hambiguous hstopping hraised
  rw [hnot] at hpasses
  cases hpasses

end Protocol

namespace DaemonMark

open Daemon Bridge BridgePipeline

variable {config : BridgeConfig} {client : Option FDBClient}
  {producerFactory : Option (Option String)} {b : Bridge} {fuel : ℕ} {marks : List DaemonMark}

/-- A transactional pipeline that was just built, but for what its listener says. -/
def built (awaitingAck : Bool) (counted : List FDBMutationRecord) : Session where
  listener := ⟨[115], [.scalar 's'], none, none, 100, 10, 1 / 20, some 3, false, awaitingAck, false⟩
  client := ⟨true⟩
  producer := ⟨some 7, [], true, true, false, false⟩
  pipeline := BridgePipeline.new startedSettings
  counted := some counted

def timedOut : PyExc := .kafka ⟨"timed out", false, true, false⟩

end DaemonMark

end FdbKafkaBridge
