import FdbKafkaBridge.Bridge.History
import FdbKafkaBridge.Bridge.Proofs.RaisedProofs
import FdbKafkaBridge.Bridge.Proofs.SinkProofs

/-!
# What the protocol of a pipeline may do

One case for each way in which a call that is allowed moves the protocol of a pipeline alone. Every
fact about the traces that it accepts is proved from these cases.
-/

namespace FdbKafkaBridge

open Protobuf (Bytes)
open Serialization (FDBMutationRecord)
open Interaction

/-- A call aside leaves the reply in hand where it is, or gives up what is being sent. -/
structure Aside (m m' : Protocol) : Prop where
  stage : m'.stage = m.stage ∨
    ∃ b done todo, m.stage = .sending b done todo ∧ m'.stage = .abandoned b.consumer
  finished : m'.finished = m.finished
  restoring : m'.restoring = m.restoring ∨ m.stage = .idle ∧ m'.restoring = none
  sink : ∀ k', m'.sink = some k' → m.stage = .idle ∧ k'.txnOpen = false ∨
    ∃ k, m.sink = some k ∧ k'.transactional = k.transactional ∧
      (k'.txnOpen = true → k.txnOpen = true) ∧ (k.txnOpen = false → k'.errored = k.errored)

/-- `m` is the protocol once the callbacks of the call have run. -/
inductive Moves (P : Contract) (m : Protocol) : Event Response → Protocol → Prop
  | aside {e : Event Response} {m' : Protocol} (he : e.call.isAside = true)
      (hflush : e.call.isFlush = true → m.stage.isDelivered = false)
      (htxn : ∀ held, transactionStep held e = held ∨ ∀ k', m'.sink = some k' → k'.txnOpen = false)
      (h : Aside m m') : Moves P m e m'
  | resumed {cursor : PyCursor} (r : Response (.fdb (.resumeCdcConsumer cursor)))
      (hstage : m.stage = .idle) :
      Moves P m ⟨_, r⟩ (m.setRestoring (r.result.toOption.map fun h => (h, cursor)))
  | consumed {h : Handle} {reply : CdcReply} (r : Response (.fdb (.consume h)))
      (hr : r.result = .ok reply) (hstage : m.stage = .idle)
      (hclean : m.sink.all Sink.clean = true) :
      Moves P m ⟨_, r⟩ ((m.setRestoring none).setStage (.received h reply))
  | notConsumed {h : Handle} {exc : PyExc} (r : Response (.fdb (.consume h)))
      (hr : r.result = .error exc) (hstage : m.stage = .idle) :
      Moves P m ⟨_, r⟩ (m.setRestoring none)
  | polled {h : Handle} {reply : CdcReply} {t : ℕ} (r : Response (.host .timeNs))
      (hr : r.result = .ok t) (hstage : m.stage = .received h reply) :
      Moves P m ⟨_, r⟩ (m.timeResult h reply (P.render reply t))
  | begun {producer : Handle} {k : Sink} {b : Batch} {todo : List Bytes}
      (r : Response (.kafka (.beginTransaction producer))) (hsink : m.sink = some k)
      (hstage : m.stage = .sending b [] todo) (htrans : k.transactional = true)
      (hopen : k.txnOpen = false) : Moves P m ⟨_, r⟩ (m.beginResult k r.result)
  | produced {producer : Handle} {k : Sink} {b : Batch} {topic : String} {done todo : List Bytes}
      {v : Bytes} {key : Option Bytes} (r : Response (.kafka (.produce producer topic v key)))
      (hsink : m.sink = some k) (hstage : m.stage = .sending b done (v :: todo))
      (hopen : k.transactional = true → k.txnOpen = true) :
      Moves P m ⟨_, r⟩ (m.produceResult k b done v todo r.result)
  | flushed {producer : Handle} {timeout : ℚ} {k : Sink} {b : Batch} {done : List Bytes}
      (r : Response (.kafka (.flush producer timeout))) (hr : r.result = .ok 0)
      (hsink : m.sink = some k) (hstage : m.stage = .sending b done [])
      (htrans : k.transactional = false) (herrored : k.errored = false) :
      Moves P m ⟨_, r⟩ ((m.setSink { k with dirty := false }).setStage (.delivered b))
  | committed {producer : Handle} {timeout : ℚ} {k : Sink} {b : Batch} {done : List Bytes}
      (r : Response (.kafka (.commitTransaction producer timeout))) (hsink : m.sink = some k)
      (hstage : m.stage = .sending b done []) (hopen : k.txnOpen = true) :
      Moves P m ⟨_, r⟩ (m.commitResult k b r.result)
  | positioned {b : Batch} {cursor : PyCursor} (r : Response (.fdb (.getPosition b.consumer)))
      (hr : r.result = .ok cursor)
      (hstage : m.stage = .delivered b ∨ ∃ cursor', m.stage = .positioned b cursor') :
      Moves P m ⟨_, r⟩ (m.setStage (.positioned b cursor))
  | notPositioned {h : Handle} {b : Batch} {exc : PyExc} (r : Response (.fdb (.getPosition h)))
      (hr : r.result = .error exc)
      (hstage : m.stage = .delivered b ∨ ∃ cursor', m.stage = .positioned b cursor') :
      Moves P m ⟨_, r⟩ m
  | checkpointed {b : Batch} {cursor : PyCursor} (r : Response (.host (.checkpoint cursor)))
      (hr : r.result = .ok ()) (hstage : m.stage = .positioned b cursor) :
      Moves P m ⟨_, r⟩ (m.setStage (.saved b cursor))
  | notCheckpointed {b : Batch} {cursor : PyCursor} {exc : PyExc}
      (r : Response (.host (.checkpoint cursor))) (hr : r.result = .error exc)
      (hstage : m.stage = .positioned b cursor) : Moves P m ⟨_, r⟩ m
  | acknowledged {b : Batch} {cursor : PyCursor} (r : Response (.fdb (.acknowledge b.consumer)))
      (hr : r.result = .ok ())
      (hstage : m.stage = .saved b cursor ∨
        P.checkpoint ≠ .callback ∧ m.stage = .positioned b cursor) :
      Moves P m ⟨_, r⟩ ((m.addFinished b.records).setStage .idle)
  | notAcknowledged {b : Batch} {cursor : PyCursor} {exc : PyExc}
      (r : Response (.fdb (.acknowledge b.consumer))) (hr : r.result = .error exc)
      (hstage : m.stage = .saved b cursor ∨
        P.checkpoint ≠ .callback ∧ m.stage = .positioned b cursor) :
      Moves P m ⟨_, r⟩ m
  | restored {h : Handle} {cursor : PyCursor} (r : Response (.fdb (.acknowledge h)))
      (hrestoring : m.restoring = some (h, cursor)) :
      Moves P m ⟨_, r⟩ (m.restoreResult P cursor r.result)

namespace Protocol

variable {P : Contract} {m m' : Protocol}

/-! ## The calls aside -/

theorem aside_refl (m : Protocol) : Aside m m :=
  ⟨.inl rfl, rfl, .inl rfl, fun k' h => .inr ⟨k', h, rfl, id, fun _ => rfl⟩⟩

/-- Nothing that concerns the reply has changed. -/
theorem aside_of_same (hstage : m'.stage = m.stage) (hfinished : m'.finished = m.finished)
    (hrestoring : m'.restoring = m.restoring ∨ m.stage = .idle ∧ m'.restoring = none)
    (hsink : m'.sink = m.sink) :
    Aside m m' :=
  ⟨.inl hstage, hfinished, hrestoring,
    fun k' h => .inr ⟨k', hsink.symm.trans h, rfl, id, fun _ => rfl⟩⟩

theorem abandon_stage (m : Protocol) : m.abandon.stage = m.stage ∨
    ∃ b done todo, m.stage = .sending b done todo ∧ m.abandon.stage = .abandoned b.consumer := by
  unfold abandon
  split
  · rename_i b done todo h
    exact .inr ⟨b, done, todo, h, rfl⟩
  · exact .inl rfl

theorem abandon_finished (m : Protocol) : m.abandon.finished = m.finished := by
  unfold abandon
  split <;> rfl

theorem abandon_restoring (m : Protocol) : m.abandon.restoring = m.restoring := by
  unfold abandon
  split <;> rfl

theorem aside_abandon (m : Protocol) : Aside m m.abandon :=
  ⟨m.abandon_stage, m.abandon_finished, .inl m.abandon_restoring,
    fun k' h => .inr ⟨k', m.abandon_sink.symm.trans h, rfl, id, fun _ => rfl⟩⟩

theorem aside_noteRogue (h : Aside m m') (rogue : Bool) : Aside m (m'.noteRogue rogue) :=
  ⟨h.stage, h.finished, h.restoring, h.sink⟩

theorem aside_setSink {k k₁ : Sink} (hsink : m.sink = some k)
    (htrans : k₁.transactional = k.transactional) (hopen : k₁.txnOpen = true → k.txnOpen = true)
    (herrored : k.txnOpen = false → k₁.errored = k.errored) : Aside m (m.setSink k₁) := by
  refine ⟨.inl rfl, rfl, .inl rfl, ?_⟩
  rintro k' ⟨⟩
  exact .inr ⟨k, hsink, htrans, hopen, herrored⟩

theorem Aside.abandon (h : Aside m m') (hstage : m'.stage = m.stage) : Aside m m'.abandon := by
  refine ⟨?_, m'.abandon_finished.trans h.finished, ?_, ?_⟩
  · rw [← hstage]
    exact m'.abandon_stage
  · rw [m'.abandon_restoring]
    exact h.restoring
  · rw [m'.abandon_sink]
    exact h.sink

/-! ## Calls to FoundationDB -/

/-- A pipeline alone makes a consumer only when no reply is in hand. -/
theorem idle_of_replaceable (hbound : P.bound = true) (h : m.replaceable P = true) :
    m.stage = .idle := by
  rw [replaceable, hbound] at h
  simpa using h

theorem moves_onCreate (hbound : P.bound = true) {result : Except PyExc Handle}
    (h : m.onCreate P result = some m') : Aside m m' := by
  obtain ⟨hreplaceable, heq⟩ := Option.ite_none_right_eq_some.1 h
  have hidle := idle_of_replaceable hbound hreplaceable
  cases heq
  cases result with
  | ok handle => exact aside_of_same hidle.symm rfl (.inr ⟨hidle, rfl⟩) rfl
  | error exc => exact aside_of_same rfl rfl (.inr ⟨hidle, rfl⟩) rfl

theorem moves_onResume (hbound : P.bound = true) {cursor : PyCursor}
    (r : Response (.fdb (.resumeCdcConsumer cursor))) (h : m.onResume P cursor r.result = some m') :
    Moves P m ⟨_, r⟩ m' := by
  obtain ⟨⟨hreplaceable, -⟩, heq⟩ := Option.ite_none_right_eq_some.1 h
  cases heq
  exact .resumed r (idle_of_replaceable hbound hreplaceable)

theorem moves_onCloseConsumer (hbound : P.bound = true) (h : m.onCloseConsumer P = some m') :
    Aside m m' := by
  unfold onCloseConsumer at h
  by_cases hidle : m.stage = .idle
  · rw [if_neg (by simp [hidle])] at h
    cases h
    refine aside_of_same ?_ rfl (.inr ⟨hidle, rfl⟩) rfl
    show m.stage.close = m.stage
    rw [hidle]
    rfl
  · rw [if_pos ⟨hbound, hidle⟩] at h
    cases h

theorem moves_onConsume {h : Handle} (r : Response (.fdb (.consume h)))
    (heq : m.onConsume h r.result = some m') : Moves P m ⟨_, r⟩ m' := by
  unfold onConsume at heq
  split at heq
  · rename_i hstage
    obtain ⟨hclean, heq⟩ := Option.ite_none_right_eq_some.1 heq
    cases heq
    cases hr : r.result with
    | ok reply => exact .consumed r hr hstage hclean
    | error exc => exact .notConsumed r hr hstage
  · cases heq

theorem moves_onAcknowledge {h : Handle} (r : Response (.fdb (.acknowledge h)))
    (heq : m.onAcknowledge P h r.result = some m') : Moves P m ⟨_, r⟩ m' := by
  have hfinish : ∀ {b : Batch} {cursor : PyCursor}, (m.stage = .saved b cursor ∨
      P.checkpoint ≠ .callback ∧ m.stage = .positioned b cursor) → b.consumer = h →
      some (m.finish b r.result) = some m' → Moves P m ⟨_, r⟩ m' := by
    rintro b cursor hstage rfl heq
    cases heq
    cases hr : r.result with
    | ok u => exact .acknowledged r hr hstage
    | error exc => exact .notAcknowledged r hr hstage
  unfold onAcknowledge at heq
  split at heq
  · rename_i b cursor hstage
    obtain ⟨⟨hfile, hconsumer⟩, heq⟩ := Option.ite_none_right_eq_some.1 heq
    exact hfinish (.inr ⟨hfile, hstage⟩) hconsumer heq
  · rename_i b cursor hstage
    obtain ⟨hconsumer, heq⟩ := Option.ite_none_right_eq_some.1 heq
    exact hfinish (.inl hstage) hconsumer heq
  · unfold onRestore at heq
    split at heq
    · rename_i handle cursor hrestoring
      obtain ⟨rfl, heq⟩ := Option.ite_none_right_eq_some.1 heq
      cases heq
      exact .restored r hrestoring
    · cases heq

theorem moves_onGetPosition {h : Handle} (r : Response (.fdb (.getPosition h)))
    (hnext : m.onGetPosition h r.result = some m') : Moves P m ⟨_, r⟩ m' := by
  unfold onGetPosition at hnext
  split at hnext
  · rename_i b cursor hstage hr
    obtain ⟨rfl, heq⟩ := Option.ite_none_right_eq_some.1 hnext
    cases heq
    exact .positioned r hr (.inl hstage)
  · rename_i b cursor' cursor hstage hr
    obtain ⟨rfl, heq⟩ := Option.ite_none_right_eq_some.1 hnext
    cases heq
    exact .positioned r hr (.inr ⟨cursor', hstage⟩)
  · rename_i b exc hstage hr
    cases hnext
    exact .notPositioned r hr (.inl hstage)
  · rename_i b cursor' exc hstage hr
    cases hnext
    exact .notPositioned r hr (.inr ⟨cursor', hstage⟩)
  · cases hnext

theorem moves_onFdb (hbound : P.bound = true) {c : FdbCall} (r : Response (.fdb c))
    (h : m.onFdb P c r.result = some m') : Moves P m ⟨_, r⟩ m' := by
  cases c with
  | createCdcConsumer name => exact .aside rfl (fun hf => by cases hf) (fun _ => .inl rfl) (moves_onCreate hbound h)
  | resumeCdcConsumer cursor => exact moves_onResume hbound r h
  | consume handle => exact moves_onConsume r h
  | acknowledge handle => exact moves_onAcknowledge r h
  | getPosition handle => exact moves_onGetPosition r h
  | closeConsumer handle =>
    exact .aside rfl (fun hf => by cases hf) (fun _ => .inl rfl) (moves_onCloseConsumer hbound h)
  | openDatabase =>
    cases h
    exact .aside rfl (fun hf => by cases hf) (fun _ => .inl rfl) (aside_refl _)
  | registerCdcStream name beginKey endKey =>
    cases h
    exact .aside rfl (fun hf => by cases hf) (fun _ => .inl rfl) (aside_refl _)
  | getReadVersion =>
    cases h
    exact .aside rfl (fun hf => by cases hf) (fun _ => .inl rfl) (aside_refl _)

/-! ## Calls to Kafka -/

theorem moves_onNewProducer {transactional : Bool} {result : Except PyExc Handle}
    (h : m.onNewProducer transactional result = some m') : Aside m m' := by
  unfold onNewProducer at h
  split at h
  · rename_i hstage hsink
    split at h
    · cases h
      refine ⟨.inl rfl, rfl, .inl rfl, ?_⟩
      rintro k' ⟨⟩
      exact .inl ⟨hstage, rfl⟩
    · cases h
      exact aside_refl m
  · cases h

theorem moves_onInit {k : Sink} (hsink : m.sink = some k) {result : Except PyExc Unit}
    (h : m.onInit k result = some m') : Aside m m' := by
  cases result with
  | ok u =>
    cases h
    exact aside_refl m
  | error exc =>
    cases h
    unfold Sink.noteFatal
    split
    · exact aside_setSink hsink rfl id fun _ => rfl
    · exact aside_setSink hsink rfl id fun _ => rfl

theorem moves_onAbort {producer : Handle} {timeout : ℚ} {k : Sink} (hsink : m.sink = some k)
    (r : Response (.kafka (.abortTransaction producer timeout)))
    (h : m.onAbort k r.result = some m') : Moves P m ⟨_, r⟩ m' := by
  obtain ⟨⟨hopen, -⟩, heq⟩ := Option.ite_none_right_eq_some.1 h
  cases heq
  cases hr : r.result with
  | ok u =>
    refine .aside rfl (fun hf => by cases hf) (fun _ => .inr ?_) (Aside.abandon ?_ rfl)
    · intro k' hk
      change (m.setSink k.endTransaction).abandon.sink = some k' at hk
      rw [abandon_sink] at hk
      cases hk
      rfl
    · refine aside_setSink hsink rfl (fun hnot => by cases hnot) fun hnot => ?_
      rw [hopen] at hnot
      cases hnot
  | error exc =>
    refine .aside rfl (fun hf => by cases hf) (fun held => .inl ?_)
      (Aside.abandon (aside_setSink hsink rfl id fun _ => rfl) rfl)
    rw [transactionStep, hr]
    rfl

theorem moves_onDrop {k : Sink} (h : m.onDrop k = some m') : Aside m m' := by
  obtain ⟨-, heq⟩ := Option.ite_none_right_eq_some.1 h
  cases heq
  exact ⟨m.abandon_stage, m.abandon_finished, .inl m.abandon_restoring, fun k' hk => by cases hk⟩

theorem moves_onBegin {producer : Handle} {k : Sink} (hsink : m.sink = some k)
    (r : Response (.kafka (.beginTransaction producer))) (h : m.onBegin k r.result = some m') :
    Moves P m ⟨_, r⟩ m' := by
  unfold onBegin at h
  split at h
  · rename_i b todo hstage
    obtain ⟨⟨htrans, hopen⟩, heq⟩ := Option.ite_none_right_eq_some.1 h
    cases heq
    exact .begun r hsink hstage htrans hopen
  · cases h

theorem moves_onProduce {producer : Handle} {topic : String} {value : Bytes} {key : Option Bytes}
    {k : Sink} (hsink : m.sink = some k) (r : Response (.kafka (.produce producer topic value key)))
    (h : m.onProduce k value r.result = some m') : Moves P m ⟨_, r⟩ m' := by
  unfold onProduce at h
  split at h
  · rename_i b done v todo hstage
    obtain ⟨⟨rfl, hopen⟩, heq⟩ := Option.ite_none_right_eq_some.1 h
    cases heq
    exact .produced r hsink hstage hopen
  · cases h

theorem moves_onCommit {producer : Handle} {timeout : ℚ} {k : Sink} (hsink : m.sink = some k)
    (r : Response (.kafka (.commitTransaction producer timeout))) {fatalBefore : Bool}
    (h : m.onCommit k fatalBefore r.result = some m') : Moves P m ⟨_, r⟩ m' := by
  unfold onCommit at h
  split at h
  · rename_i b done hstage
    obtain ⟨⟨hopen, -⟩, heq⟩ := Option.ite_none_right_eq_some.1 h
    cases heq
    exact .committed r hsink hstage hopen
  · cases h

/-- A flush delivers the batch that is being sent, gives it up, or is of no concern to it. -/
theorem moves_onFlush (hbound : P.bound = true) {producer : Handle} {timeout : ℚ} {k : Sink}
    {fatalBefore : Bool} (hsink : m.sink = some k)
    (r : Response (.kafka (.flush producer timeout)))
    (h : m.onFlush P k fatalBefore r.result = some m') : Moves P m ⟨_, r⟩ m' := by
  unfold onFlush at h
  split at h
  · rename_i b done todo hstage
    have hundelivered : m.stage.isDelivered = false := by
      rw [hstage]
      rfl
    by_cases htrans : k.transactional = true
    · rw [if_pos htrans] at h
      cases h
      exact .aside rfl (fun _ => hundelivered) (fun _ => .inl rfl) (aside_refl m)
    · rw [if_neg htrans] at h
      cases h
      unfold flushResult
      split
      · rename_i hdelivers
        obtain ⟨rfl, hflushed, herrored, -⟩ := hdelivers
        cases hr : r.result with
        | error exc =>
          rw [hr] at hflushed
          cases hflushed
        | ok n =>
          rw [hr] at hflushed
          have hn : n = 0 := of_decide_eq_true hflushed
          rw [hn] at hr
          exact .flushed r hr hsink hstage (Bool.not_eq_true _ ▸ htrans) herrored
      · have habandoned : Aside m (m.setStage (.abandoned b.consumer)) :=
          ⟨.inr ⟨b, done, todo, hstage, rfl⟩, rfl, .inl rfl,
            fun k' hk => .inr ⟨k', hk, rfl, id, fun _ => rfl⟩⟩
        exact .aside rfl (fun _ => hundelivered) (fun _ => .inl rfl) (aside_noteRogue habandoned _)
  · obtain ⟨hnot, heq⟩ := Option.ite_none_left_eq_some.1 h
    cases heq
    refine .aside rfl (fun _ => ?_) (fun _ => .inl rfl) (aside_refl m)
    simpa [hbound] using hnot

theorem moves_onKafka (hbound : P.bound = true) {fatalBefore : Bool} {c : KafkaCall}
    (r : Response (.kafka c)) (heq : m.onKafka P fatalBefore c r.result = some m') :
    Moves P m ⟨_, r⟩ m' := by
  cases c with
  | newProducer transactionalId =>
    exact .aside rfl (fun hf => by cases hf) (fun _ => .inl rfl) (moves_onNewProducer heq)
  | initTransactions h timeout =>
    obtain ⟨k, hsink, -, heq⟩ := withSink_some heq
    exact .aside rfl (fun hf => by cases hf) (fun _ => .inl rfl) (moves_onInit hsink heq)
  | beginTransaction h =>
    obtain ⟨k, hsink, -, heq⟩ := withSink_some heq
    exact moves_onBegin hsink r heq
  | commitTransaction h timeout =>
    obtain ⟨k, hsink, -, heq⟩ := withSink_some heq
    exact moves_onCommit hsink r heq
  | abortTransaction h timeout =>
    obtain ⟨k, hsink, -, heq⟩ := withSink_some heq
    exact moves_onAbort hsink r heq
  | produce h topic value key =>
    obtain ⟨k, hsink, -, heq⟩ := withSink_some heq
    exact moves_onProduce hsink r heq
  | poll h =>
    obtain ⟨k, -, -, heq⟩ := withSink_some heq
    cases heq
    refine .aside rfl (fun hf => by cases hf) (fun _ => .inl rfl) ?_
    cases hr : r.result with
    | ok u => exact aside_refl m
    | error exc => exact aside_noteRogue (aside_abandon m) _
  | flush h timeout =>
    obtain ⟨k, hsink, -, heq⟩ := withSink_some heq
    exact moves_onFlush hbound hsink r heq
  | purge h =>
    obtain ⟨k, -, -, heq⟩ := withSink_some heq
    cases heq
    exact .aside rfl (fun hf => by cases hf) (fun _ => .inl rfl) (aside_abandon m)
  | queueLength h =>
    obtain ⟨k, -, -, heq⟩ := withSink_some heq
    cases heq
    exact .aside rfl (fun hf => by cases hf) (fun _ => .inl rfl) (aside_refl m)
  | dropProducer h =>
    obtain ⟨k, -, -, heq⟩ := withSink_some heq
    exact .aside rfl (fun hf => by cases hf) (fun _ => .inl rfl) (moves_onDrop heq)

/-! ## Files, clocks and the rest -/

theorem moves_onTemporary {path : String} {result : Except PyExc Unit}
    (heq : m.onTemporary P path result = some m') : Aside m m' := by
  obtain ⟨-, heq⟩ := Option.ite_none_right_eq_some.1 heq
  cases result <;> cases heq <;> exact aside_of_same rfl rfl (.inl rfl) rfl

theorem moves_onFile {c : FileCall} {result : Except PyExc (Call.file c).Value}
    (heq : m.onFile P c result = some m') : Aside m m' := by
  cases c with
  | pathExists path =>
    obtain ⟨-, heq⟩ := Option.ite_none_right_eq_some.1 heq
    split at heq <;> cases heq <;> exact aside_of_same rfl rfl (.inl rfl) rfl
  | readJson path =>
    obtain ⟨-, heq⟩ := Option.ite_none_right_eq_some.1 heq
    cases result <;> cases heq <;> exact aside_of_same rfl rfl (.inl rfl) rfl
  | openWrite path =>
    obtain ⟨-, heq⟩ := Option.ite_none_right_eq_some.1 heq
    cases heq
    exact aside_of_same rfl rfl (.inl rfl) rfl
  | dumpJson path text =>
    change m.onDump P path text result = some m' at heq
    unfold onDump at heq
    split at heq
    · obtain ⟨-, heq⟩ := Option.ite_none_right_eq_some.1 heq
      cases result <;> cases heq <;> exact aside_of_same rfl rfl (.inl rfl) rfl
    · cases heq
  | flushFile path => exact moves_onTemporary heq
  | fsyncFile path => exact moves_onTemporary heq
  | closeFile path => exact moves_onTemporary heq
  | replace source target =>
    obtain ⟨-, heq⟩ := Option.ite_none_right_eq_some.1 heq
    cases heq
    exact aside_of_same rfl rfl (.inl rfl) rfl
  | openParent path =>
    cases heq
    exact aside_refl _
  | fsyncParent path =>
    cases heq
    exact aside_refl _
  | closeParent path =>
    cases heq
    exact aside_refl _

theorem moves_onTime (r : Response (.host .timeNs)) (h : m.onTime P r.result = some m') :
    Moves P m ⟨_, r⟩ m' := by
  unfold onTime at h
  split at h
  · rename_i handle reply t hstage hr
    cases h
    exact .polled r hr hstage
  · cases h

theorem moves_onCheckpoint {cursor : PyCursor} (r : Response (.host (.checkpoint cursor)))
    (h : m.onCheckpoint P cursor r.result = some m') : Moves P m ⟨_, r⟩ m' := by
  unfold onCheckpoint at h
  split at h
  · rename_i b cursor' hstage
    obtain ⟨⟨-, rfl⟩, heq⟩ := Option.ite_none_right_eq_some.1 h
    cases hr : r.result with
    | ok u =>
      rw [hr] at heq
      cases heq
      exact .checkpointed r hr hstage
    | error exc =>
      rw [hr] at heq
      cases heq
      exact .notCheckpointed r hr hstage
  · cases h

theorem moves_onHost {c : HostCall} (r : Response (.host c))
    (heq : m.onHost P c r.result = some m') : Moves P m ⟨_, r⟩ m' := by
  cases c with
  | timeNs => exact moves_onTime r heq
  | checkpoint cursor => exact moves_onCheckpoint r heq
  | shutdownIsSet =>
    refine .aside rfl (fun hf => by cases hf) (fun _ => .inl rfl) ?_
    obtain ⟨callbacks, result, hreturns⟩ := r
    cases result with
    | error exc =>
      cases heq
      exact aside_refl m
    | ok shutdown =>
      cases shutdown with
      | true =>
        cases heq
        exact aside_of_same rfl rfl (.inl rfl) rfl
      | false =>
        cases heq
        exact aside_refl m
  | shutdownSet =>
    cases heq
    exact .aside rfl (fun hf => by cases hf) (fun _ => .inl rfl) (aside_of_same rfl rfl (.inl rfl) rfl)
  | monotonic =>
    cases heq
    exact .aside rfl (fun hf => by cases hf) (fun _ => .inl rfl) (aside_refl m)
  | sleep seconds =>
    cases heq
    exact .aside rfl (fun hf => by cases hf) (fun _ => .inl rfl) (aside_refl m)
  | shutdownWait timeout =>
    cases heq
    exact .aside rfl (fun hf => by cases hf) (fun _ => .inl rfl) (aside_refl m)

/-- What an allowed call does. -/
theorem next_moves (hbound : P.bound = true) {c : Call} {r : Response c}
    (h : next P m ⟨c, r⟩ = some m') : Moves P (m.hear r) ⟨c, r⟩ m' := by
  cases c with
  | fdb c => exact moves_onFdb hbound r h
  | kafka c => exact moves_onKafka hbound r h
  | file c => exact .aside rfl (fun hf => by cases hf) (fun _ => .inl rfl) (moves_onFile h)
  | host c => exact moves_onHost r h

end Protocol

end FdbKafkaBridge
