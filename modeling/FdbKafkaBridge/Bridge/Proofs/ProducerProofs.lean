import FdbKafkaBridge.Bridge.Proofs.SinkProofs

/-!
# The producer keeps to the protocol

Each method of the wrapper makes calls that the protocol allows. One lemma for a method says what it
leaves behind, for each way it can end.
-/

namespace FdbKafkaBridge

open Protobuf (Bytes)
open Serialization (FDBMutationRecord)
open Interaction

namespace MutationProducer

variable {P : Contract} {p : MutationProducer} {m : Protocol}

theorem Matches.noteFatal {k : Sink} (h : Matches p k) (exc : PyExc) :
    Matches (if isFatalKafkaError exc then p.setFatal else p) (k.noteFatal exc) := by
  unfold Sink.noteFatal
  by_cases hfatal : isFatalKafkaError exc = true
  · rw [if_pos hfatal, if_pos hfatal]
    exact ⟨h.handle, h.transactional, fun _ => rfl, fun _ => Sink.held_eq_false.2 (.inr rfl),
      h.txnOpen, h.dirty, h.errored, h.ready_of_open⟩
  · rw [if_neg hfatal, if_neg hfatal]
    exact h

/-- What `_require_transactional` raises is not one of the guards. -/
theorem wp_requireTransactional_guard {α : Type} {f : Handle → Py MutationProducer α}
    (method : String) (hmethod : ∀ suffix ∈ requireMessages, method ++ suffix ∉ guardMessages)
    {Q : Except PyExc α → MutationProducer → Protocol → Prop}
    (hok : ∀ h, p.producer = some h → p.fatalFlag = false → p.transactional = true →
      (method ≠ "init_transactions" → p.txnInitialized = true) →
      Proc.wp (Protocol.monitor P) (f h) Q p m)
    (herror : ∀ exc, exc.isRuntimeError = true → ¬ guardError exc →
      (p.producer = none ∨ p.fatalFlag = true ∨ p.transactional = false ∨
        p.txnInitialized = false) → Q (.error exc) p m) :
    Proc.wp (Protocol.monitor P) (requireTransactional method >>= f) Q p m := by
  refine wp_requireTransactional_bind hok ?_
  intro suffix hsuffix hwhy
  exact herror _ rfl (fun hg => hmethod suffix hsuffix hg.2) hwhy

/-- The native producer, right after the callbacks of a call on it. -/
theorem live_hear (hsim : ProducerSim p m.sink) {h : Handle} (hp : p.producer = some h) {c : Call}
    (r : Response c) :
    ∃ k, (m.hear r).sink = some k ∧ k.handle = h ∧
      Matches (HasCallbacks.runCallbacks r.callbacks p) k :=
  (Follows.hear hsim r).sim.live ((Follows.hear hsim r).same.producer.trans hp)

/-- What marks the producer fatal marks the wrapper, too. -/
theorem not_fatal_of_sim (hsim : ProducerSim p m.sink) (hfatal : p.fatalFlag = false) :
    m.sink.any Sink.fatal = false := by
  cases hsink : m.sink with
  | none => rfl
  | some k =>
    rw [hsink] at hsim
    show k.fatal = false
    by_contra hk
    rw [hsim.fatal (Bool.not_eq_false _ ▸ hk)] at hfatal
    cases hfatal

/-- A producer that is found fatal only now was shown to be so by a callback. -/
theorem fatal_hear (hfatal : p.fatalFlag = false) {c : Call} (r : Response c) {k : Sink}
    (hsink : (m.hear r).sink = some k)
    (h : (HasCallbacks.runCallbacks r.callbacks p).fatalFlag = true) : k.fatal = true := by
  rw [Protocol.hear_sink] at hsink
  obtain ⟨k₀, -, rfl⟩ := Option.map_eq_some_iff.1 hsink
  rcases k₀.hear_fatal h with hp | hk
  · rw [hfatal] at hp
    cases hp
  · exact hk

/-- The transaction of a closed producer does not count. -/
theorem wp_beginTransaction {b : Batch} {todo : List Bytes} (hsim : ProducerSim p m.sink)
    (hstage : m.stage = .sending b [] todo) (hopen : p.txnOpen = true → p.producer = none) :
    Proc.wp (Protocol.monitor P) beginTransaction (fun r p' m' =>
      Follows p m p' m' ∧ m'.stage = m.stage ∧ (Unheld m → Unheld m') ∧
        match r with
        | .ok _ => p'.txnOpen = true
        | .error exc => (p'.txnOpen = true → p'.producer = none) ∧
          (p'.transactional = true → Blame p' m' exc)) p m := by
  unfold beginTransaction
  refine wp_requireTransactional_guard _ (by decide) ?_ ?_
  · intro h hp hfatal htrans hinit
    have hclosed : p.txnOpen = false := by
      refine Bool.eq_false_iff.2 fun ho => ?_
      rw [hopen ho] at hp
      cases hp
    rw [Proc.wp_get_bind, wp_raiseIf_bind, if_neg (by simp [hclosed]), Proc.wp_bind,
      Proc.wp_tryCatch, wp_native]
    intro r
    obtain ⟨k, hsink, hk, hm⟩ := live_hear hsim hp r
    have hfollows := Follows.hear hsim r
    obtain ⟨hsame, hopen₁⟩ := sameProducer_runCallbacks p r.callbacks
    generalize HasCallbacks.runCallbacks r.callbacks p = p₁ at *
    have htrans₁ : k.transactional = true := by rw [hm.transactional, hsame.transactional, htrans]
    have hopenk : k.txnOpen = false := by rw [hm.txnOpen, hopen₁, hclosed]
    refine ⟨_, (Protocol.withSink_of _ hsink hk).trans
      (Protocol.onBegin_eq (m.hear r) hstage htrans₁ hopenk r.result), ?_⟩
    cases hres : r.result with
    | ok u =>
      have hm' : Matches { p₁ with txnOpen := true }
          { k with txnOpen := true, commitPending := false } :=
        ⟨hm.handle, hm.transactional, hm.fatal, fun _ => rfl, rfl, hm.dirty, hm.errored, fun _ =>
          ⟨hsame.transactional.trans htrans, hsame.txnInitialized.trans (hinit (by decide))⟩⟩
      exact ⟨⟨hm', hfollows.beside.trans (Protocol.setSink_beside _ _),
        ⟨hsame.producer, hsame.transactional, hsame.txnInitialized⟩⟩, rfl, fun _ => rfl, rfl⟩
    | error exc =>
      refine wp_markIfFatal ⟨⟨Matches.noteFatal hm exc, ?_, ?_⟩, rfl, fun hu => ?_, ?_,
        fun _ => ⟨?_, ?_⟩⟩
      · exact hfollows.beside.trans ((Protocol.setSink_beside _ _).trans
          (Protocol.noteRogue_beside _ _))
      · exact hsame.trans (sameProducer_fatal p₁ exc).1
      · exact Sink.held_noteFatal ((hu.hear r).sink hsink) exc
      · rw [(sameProducer_fatal p₁ exc).2, hopen₁, hclosed]
        exact fun ho => nomatch ho
      · exact fun _ => Protocol.mem_raised r m hres
      · exact fun hrogue _ => .inl (documented_of_rogue hrogue)
  · intro exc _ hguard hwhy
    refine ⟨Follows.refl hsim, rfl, id, hopen, fun htrans => ⟨fun hg => absurd hg hguard, ?_⟩⟩
    rintro - hinit
    rcases hwhy with h | h | h | h
    · exact .inr (.inl h)
    · exact .inr (.inr h)
    · rw [htrans] at h
      cases h
    · rw [hinit htrans] at h
      cases h

/-- An exception that the wrapper raises without a call, while a transaction is open. -/
theorem refused_open (hsim : ProducerSim p m.sink) (hopen : p.txnOpen = true) {exc : PyExc}
    (hguard : ¬ guardError exc) (hwhy : p.producer = none ∨ p.fatalFlag = true ∨
      p.transactional = false ∨ p.txnInitialized = false) :
    (p.producer = none ∨ p.fatalFlag = true) ∧ Blame p m exc ∧ Unheld m := by
  have hcause : p.producer = none ∨ p.fatalFlag = true := by
    cases hsink : m.sink with
    | none =>
      rw [hsink] at hsim
      exact .inl hsim
    | some k =>
      rw [hsink] at hsim
      obtain ⟨htrans, hinit⟩ := hsim.ready_of_open hopen
      rcases hwhy with h | h | h | h
      · exact .inl h
      · exact .inr h
      · rw [htrans] at h
        cases h
      · rw [hinit] at h
        cases h
  refine ⟨hcause, ⟨fun hg => absurd hg hguard, fun _ _ => .inr hcause⟩, ?_⟩
  unfold Unheld
  cases hsink : m.sink with
  | none => rfl
  | some k =>
    rw [hsink] at hsim
    rcases hcause with h | h
    · have hlive := hsim.handle
      rw [h] at hlive
      cases hlive
    · exact hsim.unheld h

theorem wp_commitTransaction {b : Batch} {done : List Bytes} (hsim : ProducerSim p m.sink)
    (hstage : m.stage = .sending b done []) (hopen : p.txnOpen = true) :
    Proc.wp (Protocol.monitor P) commitTransaction (fun r p' m' =>
      Follows p m p' m' ∧
        match r with
        | .ok _ => m'.stage = .delivered b ∧ p'.txnOpen = false ∧ Unheld m'
        | .error exc => p'.txnOpen = true ∧ Blame p' m' exc ∧
          if staysOutstanding exc then m'.stage = m.stage
          else (m'.stage = m.stage ∨ m'.stage = .abandoned b.consumer) ∧ Unheld m') p m := by
  unfold commitTransaction
  refine wp_requireTransactional_guard _ (by decide) ?_ ?_
  · intro h hp hfatal htrans hinit
    rw [Proc.wp_get_bind, wp_raiseIf_bind, if_neg (by simp [hopen]), Proc.wp_bind,
      Proc.wp_tryCatch, wp_native]
    intro r
    obtain ⟨k, hsink, hk, hm⟩ := live_hear hsim hp r
    have hfollows := Follows.hear hsim r
    obtain ⟨hsame, hopen₁⟩ := sameProducer_runCallbacks p r.callbacks
    have hheard : ∀ k, (m.hear r).sink = some k →
        (HasCallbacks.runCallbacks r.callbacks p).fatalFlag = true → k.fatal = true :=
      fun k hsink hf => fatal_hear hfatal r hsink hf
    generalize HasCallbacks.runCallbacks r.callbacks p = p₁ at *
    have hopenk : k.txnOpen = true := by rw [hm.txnOpen, hopen₁, hopen]
    refine ⟨_, (Protocol.withSink_of _ hsink hk).trans
      (Protocol.onCommit_eq (m.hear r) hstage hopenk (not_fatal_of_sim hsim hfatal) r.result), ?_⟩
    cases hres : r.result with
    | ok u =>
      have hm' : Matches p₁.endTransaction k.endTransaction :=
        ⟨hm.handle, hm.transactional, hm.fatal, fun _ => rfl, rfl, hm.dirty, fun _ => rfl,
          fun ht => nomatch ht⟩
      exact ⟨⟨hm', hfollows.beside.trans ((Protocol.setSink_beside _ _).trans
        (Protocol.setStage_beside _ _)), ⟨hsame.producer, hsame.transactional,
          hsame.txnInitialized⟩⟩, rfl, rfl, rfl⟩
    | error exc =>
      have hfatal := sameProducer_fatal p₁ exc
      have hm' : Matches (if isFatalKafkaError exc then p₁.setFatal else p₁)
          { k.noteFatal exc with commitPending := isRetriableCommit exc } := by
        have h := Matches.noteFatal hm exc
        refine ⟨h.handle, h.transactional, h.fatal, fun hp => ?_, h.txnOpen, h.dirty,
          h.errored, h.ready_of_open⟩
        refine Sink.held_eq_false.2 (.inr ?_)
        show (k.noteFatal exc).fatal = true
        unfold Sink.noteFatal
        by_cases hexc : isFatalKafkaError exc = true
        · rw [if_pos hexc]
        · rw [if_neg hexc] at hp ⊢
          exact hheard k hsink hp
      have hblame : ∀ {m'}, (m.hear r).raised ⊆ m'.raised →
          (m'.rogue = false → documented exc = true) →
          Blame (if isFatalKafkaError exc then p₁.setFatal else p₁) m' exc :=
        fun hraised hrogue => ⟨fun _ => hraised (Protocol.mem_raised r m hres),
          fun h _ => .inl (hrogue h)⟩
      refine wp_markIfFatal ?_
      show Follows p m _ (Protocol.commitResult _ k b (.error exc)) ∧ _ ∧
        Blame _ (Protocol.commitResult _ k b (.error exc)) _ ∧ _
      unfold Protocol.commitResult
      by_cases hstays : staysOutstanding exc = true
      · simp only
        rw [if_pos hstays, if_pos hstays]
        exact ⟨⟨hm', hfollows.beside.trans ((Protocol.setSink_beside _ _).trans
            (Protocol.noteRogue_beside _ _)), hsame.trans hfatal.1⟩,
          hfatal.2.trans (hopen₁.trans hopen),
          hblame (List.Subset.refl _) documented_of_rogue, rfl⟩
      · simp only
        rw [if_neg hstays, if_neg hstays]
        refine ⟨⟨hm', hfollows.beside.trans ((Protocol.setSink_beside _ _).trans
            ((Protocol.noteRogue_beside _ _).trans (Protocol.setStage_beside _ _))),
              hsame.trans hfatal.1⟩,
          hfatal.2.trans (hopen₁.trans hopen),
          hblame (List.Subset.refl _) documented_of_rogue, .inr rfl, ?_⟩
        have hretriable : isRetriableCommit exc = false := by
          rw [staysOutstanding, Bool.or_eq_true, not_or] at hstays
          exact Bool.eq_false_iff.2 hstays.1
        exact Sink.held_eq_false.2 (.inl hretriable)
  · intro exc hruntime hguard hwhy
    obtain ⟨hcause, hblame, hunheld⟩ := refused_open hsim hopen hguard hwhy
    have hstays : staysOutstanding exc = false := by
      have hkind : exc.kind = .runtimeError := of_decide_eq_true hruntime
      simp [staysOutstanding, isRetriableCommit, kafkaError, hkind, hruntime]
    refine ⟨Follows.refl hsim, hopen, hblame, ?_⟩
    rw [if_neg (by simp [hstays])]
    exact ⟨.inl rfl, hunheld⟩

/-- An abort leaves no transaction open, or a producer that is fatal or closed. -/
theorem wp_abortTransaction (hsim : ProducerSim p m.sink) (hunheld : Unheld m)
    (hopen : p.txnOpen = true) :
    Proc.wp (Protocol.monitor P) abortTransaction (fun r p' m' =>
      Follows p m p' m' ∧ Unheld m' ∧ (m'.stage = m.stage ∨ m'.stage = m.abandon.stage) ∧
        match r with
        | .ok _ => p'.txnOpen = false
        | .error exc => (p'.producer = none ∨ p'.fatalFlag = true) ∧
            (guardError exc → exc ∈ m'.raised)) p m := by
  unfold abortTransaction
  refine wp_requireTransactional_guard _ (by decide) ?_ ?_
  · intro h hp hfatal htrans hinit
    rw [Proc.wp_get_bind, wp_raiseIf_bind, if_neg (by simp [hopen]), Proc.wp_bind,
      Proc.wp_tryCatch, wp_native]
    intro r
    obtain ⟨k, hsink, hk, hm⟩ := live_hear hsim hp r
    have hfollows := Follows.hear hsim r
    obtain ⟨hsame, hopen₁⟩ := sameProducer_runCallbacks p r.callbacks
    generalize HasCallbacks.runCallbacks r.callbacks p = p₁ at *
    have hopenk : k.txnOpen = true := by rw [hm.txnOpen, hopen₁, hopen]
    have hheld : k.held = false := (hunheld.hear r).sink hsink
    refine ⟨_, (Protocol.withSink_of _ hsink hk).trans
      (Protocol.onAbort_eq (m.hear r) hopenk hheld r.result), ?_⟩
    have hbeside : ∀ k', Beside m ((m.hear r).setSink k').abandon := fun k' =>
      hfollows.beside.trans ((Protocol.setSink_beside _ _).trans (Protocol.abandon_beside _))
    have hstage : ∀ k', ((m.hear r).setSink k').abandon.stage = m.abandon.stage :=
      fun k' => Protocol.abandon_stage_congr rfl
    have hsinks : ∀ k', ((m.hear r).setSink k').abandon.sink = some k' :=
      fun k' => Protocol.abandon_sink _
    cases hres : r.result with
    | ok u =>
      have hm' : Matches p₁.endTransaction k.endTransaction :=
        ⟨hm.handle, hm.transactional, hm.fatal, fun _ => rfl, rfl, hm.dirty, fun _ => rfl,
          fun ht => nomatch ht⟩
      refine ⟨⟨?_, hbeside _, hsame.producer, hsame.transactional, hsame.txnInitialized⟩, ?_,
        .inr (hstage _), rfl⟩
      · show ProducerSim _ (((m.hear r).setSink k.endTransaction).abandon).sink
        rw [hsinks]
        exact hm'
      · show (((m.hear r).setSink k.endTransaction).abandon).sink.any _ = false
        rw [hsinks]
        rfl
    | error exc =>
      have hm' : Matches p₁.setFatal { k with fatal := true } :=
        ⟨hm.handle, hm.transactional, fun _ => rfl, fun _ => Sink.held_eq_false.2 (.inr rfl),
          hm.txnOpen, hm.dirty, hm.errored, hm.ready_of_open⟩
      refine ⟨⟨?_, hbeside _, hsame.producer, hsame.transactional, hsame.txnInitialized⟩, ?_,
        .inr (hstage _), .inr rfl, fun _ => (Protocol.abandon_beside _).raised
          (Protocol.mem_raised r m hres)⟩
      · show ProducerSim _ (((m.hear r).setSink { k with fatal := true }).abandon).sink
        rw [hsinks]
        exact hm'
      · show (((m.hear r).setSink { k with fatal := true }).abandon).sink.any _ = false
        rw [hsinks]
        exact Sink.held_eq_false.2 (.inr rfl)
  · intro exc _ hguard hwhy
    obtain ⟨hcause, hblame, -⟩ := refused_open hsim hopen hguard hwhy
    exact ⟨Follows.refl hsim, hunheld, .inl rfl, hcause, hblame.guard⟩

theorem wp_markFatal {Q : Except PyExc Unit → MutationProducer → Protocol → Prop}
    (h : Q (.ok ()) p.setFatal m) : Proc.wp (Protocol.monitor P) markFatal Q p m := h

theorem wp_initTransactions (hsim : ProducerSim p m.sink) (hunheld : Unheld m) :
    Proc.wp (Protocol.monitor P) initTransactions (fun r p' m' =>
      ProducerSim p' m'.sink ∧ Beside m m' ∧ Unheld m' ∧ m'.stage = m.stage ∧
        p'.producer = p.producer ∧ p'.transactional = p.transactional ∧
        p'.txnOpen = p.txnOpen ∧ (m.sink.all Sink.clean = true → m'.sink.all Sink.clean = true) ∧
        (r = .ok () → p'.txnInitialized = true)) p m := by
  have hrefl : ∀ exc : PyExc, ProducerSim p m.sink ∧ Beside m m ∧ Unheld m ∧ m.stage = m.stage ∧
        p.producer = p.producer ∧ p.transactional = p.transactional ∧
        p.txnOpen = p.txnOpen ∧ (m.sink.all Sink.clean = true → m.sink.all Sink.clean = true) ∧
        ((.error exc : Except PyExc Unit) = .ok () → p.txnInitialized = true) :=
    fun exc => ⟨hsim, Beside.refl m, hunheld, rfl, rfl, rfl, rfl, id, fun h => nomatch h⟩
  unfold initTransactions
  refine wp_requireTransactional_guard _ (by decide) ?_ fun exc _ _ _ => hrefl exc
  intro h hp hfatal htrans _
  rw [Proc.wp_get_bind, wp_raiseIf_bind]
  split
  · exact hrefl _
  rw [Proc.wp_bind, Proc.wp_tryCatch, wp_native]
  intro r
  obtain ⟨k, hsink, hk, hm⟩ := live_hear hsim hp r
  have hfollows := Follows.hear hsim r
  obtain ⟨hsame, hopen₁⟩ := sameProducer_runCallbacks p r.callbacks
  have hclean : m.sink.all Sink.clean = true → k.clean = true := by
    intro hc
    have h := (Meanwhile.hear none m r).clean hc
    rw [hsink] at h
    exact h
  generalize HasCallbacks.runCallbacks r.callbacks p = p₁ at *
  have hheld : k.held = false := (hunheld.hear r).sink hsink
  cases hres : r.result with
  | ok u =>
    have hnext : Protocol.next P m ⟨_, r⟩ = some (m.hear r) := by
      refine (Protocol.withSink_of _ hsink hk).trans ?_
      show (m.hear r).onInit k r.result = _
      rw [hres]
      rfl
    refine ⟨_, hnext, ?_, hfollows.beside, hunheld.hear r, rfl, hsame.producer,
      hsame.transactional, hopen₁, ?_, fun _ => rfl⟩
    · rw [hsink]
      exact ⟨hm.handle, hm.transactional, hm.fatal, hm.unheld, hm.txnOpen, hm.dirty, hm.errored,
        fun ho => ⟨(hm.ready_of_open ho).1, rfl⟩⟩
    · intro hc
      rw [hsink]
      exact hclean hc
  | error exc =>
    have hnext : Protocol.next P m ⟨_, r⟩ = some ((m.hear r).setSink (k.noteFatal exc)) := by
      refine (Protocol.withSink_of _ hsink hk).trans ?_
      show (m.hear r).onInit k r.result = _
      rw [hres]
      rfl
    have hfatal := sameProducer_fatal p₁ exc
    refine ⟨_, hnext, wp_markIfFatal ⟨Matches.noteFatal hm exc,
      hfollows.beside.trans (Protocol.setSink_beside _ _), ?_, rfl,
      (hsame.trans hfatal.1).producer, (hsame.trans hfatal.1).transactional,
      hfatal.2.trans hopen₁, ?_, fun h => nomatch h⟩⟩
    · exact Sink.held_noteFatal hheld exc
    · intro hc
      show Sink.clean (k.noteFatal exc) = true
      unfold Sink.noteFatal
      split
      · exact hclean hc
      · exact hclean hc

/-! ## Sending -/

/-- The two native calls of `produce`. -/
theorem wp_produce_poll {b : Batch} {done todo : List Bytes} {topic : String} {v : Bytes}
    {key : Option Bytes} {h : Handle} (hp : p.producer = some h) (hsim : ProducerSim p m.sink)
    (hunheld : Unheld m) (hstage : m.stage = .sending b done (v :: todo))
    (hopen : p.transactional = true → p.txnOpen = true) :
    Proc.wp (Protocol.monitor P) (do
        native (.kafka (.produce h topic v key))
        native (.kafka (.poll h)) : Py MutationProducer Unit) (fun r p' m' =>
      Follows p m p' m' ∧ Unheld m' ∧ p'.txnOpen = p.txnOpen ∧
        match r with
        | .ok _ => m'.stage = .sending b (done ++ [v]) todo
        | .error exc => m'.stage = .abandoned b.consumer ∧ Blame p' m' exc) p m := by
  rw [Proc.wp_bind, wp_native]
  intro r
  obtain ⟨k, hsink, hk, hm⟩ := live_hear hsim hp r
  have hfollows := Follows.hear hsim r
  obtain ⟨hsame, hopen₁⟩ := sameProducer_runCallbacks p r.callbacks
  generalize HasCallbacks.runCallbacks r.callbacks p = p₁ at *
  have hheld : k.held = false := (hunheld.hear r).sink hsink
  have hready : v = v ∧ (k.transactional = true → k.txnOpen = true) := by
    rw [hm.transactional, hm.txnOpen, hsame.transactional, hopen₁]
    exact ⟨rfl, hopen⟩
  refine ⟨_, (Protocol.withSink_of _ hsink hk).trans
    (Protocol.onProduce_eq (m.hear r) hstage hready r.result), ?_⟩
  have hm₁ : Matches p₁ { k with dirty := !k.transactional } := by
    refine ⟨hm.handle, hm.transactional, hm.fatal, hm.unheld, hm.txnOpen, fun ht => ?_, hm.errored,
      hm.ready_of_open⟩
    rw [hm.transactional, ht]
    rfl
  cases hres : r.result with
  | error exc =>
    refine ⟨⟨hm₁, hfollows.beside.trans ((Protocol.setSink_beside _ _).trans
      ((Protocol.noteRogue_beside _ _).trans (Protocol.setStage_beside _ _))), hsame⟩, hheld,
      hopen₁, rfl, fun _ => Protocol.mem_raised r m hres, fun hrogue _ => .inl ?_⟩
    have hnot : ((m.hear r).rogue || !documented exc) = false := hrogue
    rw [Bool.or_eq_false_iff, Bool.not_eq_false'] at hnot
    exact hnot.2
  | ok u =>
    -- the poll comes after a record that was enqueued
    have hfollows₁ : Follows p m p₁ ((m.hear r).produceResult k b done v todo (.ok u)) :=
      ⟨hm₁, hfollows.beside.trans ((Protocol.setSink_beside _ _).trans
        (Protocol.setStage_beside _ _)), hsame⟩
    have hstage₁ : ((m.hear r).produceResult k b done v todo (.ok u)).stage =
        .sending b (done ++ [v]) todo := rfl
    have hunheld₁ : Unheld ((m.hear r).produceResult k b done v todo (.ok u)) := hheld
    generalize (m.hear r).produceResult k b done v todo (.ok u) = m₁ at *
    rw [Proc.andThen, wp_native]
    intro r₂
    obtain ⟨k₂, hsink₂, hk₂, hm₂⟩ := live_hear hfollows₁.sim (hsame.producer.trans hp) r₂
    have hfollows₂ := Follows.hear hfollows₁.sim r₂
    obtain ⟨-, hopen₂⟩ := sameProducer_runCallbacks p₁ r₂.callbacks
    generalize HasCallbacks.runCallbacks r₂.callbacks p₁ = p₂ at *
    refine ⟨_, Protocol.withSink_of _ hsink₂ hk₂, ?_⟩
    cases hres₂ : r₂.result with
    | ok u =>
      exact ⟨hfollows₁.trans hfollows₂, hunheld₁.hear r₂, hopen₂.trans hopen₁, hstage₁⟩
    | error exc =>
      have habandon : (m₁.hear r₂).abandon = (m₁.hear r₂).setStage (.abandoned b.consumer) := by
        unfold Protocol.abandon
        rw [Protocol.hear_stage, hstage₁]
      show Follows p m p₂ ((m₁.hear r₂).abandon.noteRogue (!documented exc)) ∧
        Unheld ((m₁.hear r₂).abandon.noteRogue (!documented exc)) ∧ _ ∧
        ((m₁.hear r₂).abandon.noteRogue (!documented exc)).stage = _ ∧
        Blame p₂ ((m₁.hear r₂).abandon.noteRogue (!documented exc)) exc
      rw [habandon]
      refine ⟨hfollows₁.trans ⟨hfollows₂.sim, hfollows₂.beside.trans
        ((Protocol.setStage_beside _ _).trans (Protocol.noteRogue_beside _ _)), hfollows₂.same⟩,
        hunheld₁.hear r₂, hopen₂.trans hopen₁, rfl,
        fun _ => Protocol.mem_raised r₂ m₁ hres₂, fun hrogue _ => .inl ?_⟩
      have hnot : ((m₁.hear r₂).rogue || !documented exc) = false := hrogue
      rw [Bool.or_eq_false_iff, Bool.not_eq_false'] at hnot
      exact hnot.2

/-- One record. A failure abandons the batch, unless the wrapper refused to make the call. -/
theorem wp_produce {b : Batch} {done todo : List Bytes} {topic : String} {key : Option Bytes}
    {record : FDBMutationRecord} (hsim : ProducerSim p m.sink) (hunheld : Unheld m)
    (hstage : m.stage = .sending b done (record.serializeToString :: todo))
    (hopen : p.transactional = true → p.txnOpen = true) :
    Proc.wp (Protocol.monitor P) (produce topic record key) (fun r p' m' =>
      Follows p m p' m' ∧ Unheld m' ∧ p'.txnOpen = p.txnOpen ∧
        match r with
        | .ok _ => m'.stage = .sending b (done ++ [record.serializeToString]) todo
        | .error exc => (m'.stage = m.stage ∨ m'.stage = .abandoned b.consumer) ∧
            Blame p' m' exc) p m := by
  have hrefused : ∀ exc, ¬ guardError exc →
      (documented exc = true ∨ p.producer = none ∨ p.fatalFlag = true) →
      Follows p m p m ∧ Unheld m ∧ p.txnOpen = p.txnOpen ∧
        (m.stage = m.stage ∨ m.stage = .abandoned b.consumer) ∧ Blame p m exc :=
    fun exc hguard hwhy => ⟨Follows.refl hsim, hunheld, rfl, .inl rfl,
      fun hg => absurd hg hguard, fun _ _ => hwhy⟩
  unfold produce
  rw [Proc.wp_get_bind]
  cases hp : p.producer with
  | none => exact hrefused _ (fun hg => absurd hg.2 (by decide)) (.inr (.inl hp))
  | some h =>
    simp only
    rw [wp_raiseIf_bind]
    by_cases hfatal : p.fatal = true
    · rw [if_pos hfatal]
      exact hrefused _ (fun hg => absurd hg.2 (by decide)) (.inr (.inr hfatal))
    rw [if_neg hfatal, wp_raiseIf_bind, if_neg (by
      intro hc
      simp only [Bool.and_eq_true, Bool.not_eq_true'] at hc
      rw [hopen hc.1] at hc
      exact Bool.noConfusion hc.2)]
    split
    · exact hrefused _ (fun hg => nomatch hg.1) (.inl rfl)
    · refine Proc.wp_mono (wp_produce_poll hp hsim hunheld hstage hopen) ?_
      rintro r p' m' ⟨hfollows, hunheld', hopen', hr⟩
      refine ⟨hfollows, hunheld', hopen', ?_⟩
      cases r with
      | ok u => exact hr
      | error exc => exact ⟨.inr hr.1, hr.2⟩

/-- The flush of a batch that was sent outside a transaction. -/
theorem wp_flush {b : Batch} {done : List Bytes} {timeout : ℚ} (hsim : ProducerSim p m.sink)
    (hunheld : Unheld m) (hstage : m.stage = .sending b done [])
    (htrans : p.transactional = false) :
    Proc.wp (Protocol.monitor P) (flush timeout) (fun r p' m' =>
      Follows p m p' m' ∧ Unheld m' ∧
        match r with
        | .ok n => (n = 0 → m'.stage = .delivered b ∧ m'.sink.all Sink.clean = true) ∧
            (n ≠ 0 → m'.stage = .abandoned b.consumer)
        | .error exc => (m'.stage = m.stage ∨ m'.stage = .abandoned b.consumer) ∧
            (guardError exc → exc ∈ m'.raised) ∧
            (m'.rogue = false → BridgePipeline.isDeliveryFailure exc = true)) p m := by
  unfold flush
  rw [Proc.wp_get_bind]
  cases hp : p.producer with
  | none =>
    exact ⟨Follows.refl hsim, hunheld, .inl rfl, fun hg => absurd hg.2 (by decide), fun _ => rfl⟩
  | some h =>
    simp only
    rw [wp_raiseIf_bind]
    by_cases hfatal : p.fatal = true
    · rw [if_pos hfatal]
      exact ⟨Follows.refl hsim, hunheld, .inl rfl, fun hg => absurd hg.2 (by decide), fun _ => rfl⟩
    rw [if_neg hfatal, Proc.wp_bind, wp_native]
    intro r
    obtain ⟨k₀, hsink₀, -, hm₀⟩ := hsim.live hp
    obtain ⟨k, hsink, hk, hm⟩ := live_hear hsim hp r
    have hfollows := Follows.hear hsim r
    obtain ⟨hsame, hopen₁⟩ := sameProducer_runCallbacks p r.callbacks
    generalize HasCallbacks.runCallbacks r.callbacks p = p₁ at *
    have htrans₁ : p₁.transactional = false := hsame.transactional.trans htrans
    have htransk : k.transactional = false := hm.transactional.trans htrans₁
    have hbefore : m.sink.any Sink.fatal = false := by
      rw [hsink₀]
      exact Bool.eq_false_iff.2 fun hk => hfatal (hm₀.fatal hk)
    have hheld : k.held = false := (hunheld.hear r).sink hsink
    refine ⟨_, (Protocol.withSink_of _ hsink hk).trans
      (Protocol.onFlush_eq (m.hear r) hstage htransk r.result), ?_⟩
    rw [hbefore]
    have habandoned : ∀ rogue, Follows p m p₁
        (((m.hear r).setStage (.abandoned b.consumer)).noteRogue rogue) := fun rogue =>
      ⟨hfollows.sim, hfollows.beside.trans ((Protocol.setStage_beside _ _).trans
        (Protocol.noteRogue_beside _ _)), hsame⟩
    cases hres : r.result with
    | error exc =>
      rw [Protocol.flushResult_abandoned _ (.inr (.inl rfl))]
      refine ⟨habandoned _, hunheld.hear r, .inr rfl, fun _ => Protocol.mem_raised r m hres, ?_⟩
      intro hrogue
      have hnot : ((m.hear r).rogue || !BridgePipeline.isDeliveryFailure exc) = false := hrogue
      rw [Bool.or_eq_false_iff, Bool.not_eq_false'] at hnot
      exact hnot.2
    | ok n =>
      rw [Proc.andThen, Proc.wp_get_bind]
      have herrored := hm.errored htrans₁
      cases herrors : p₁.deliveryErrors with
      | cons err rest =>
        -- the batch is abandoned, and the wrapper raises the first delivery error
        rw [herrors] at herrored
        rw [Protocol.flushResult_abandoned _ (.inr (.inr herrored))]
        exact ⟨habandoned _, hunheld.hear r, .inr rfl, fun hg => (nomatch hg.1), fun _ => rfl⟩
      | nil =>
        rw [herrors] at herrored
        by_cases hn : n = 0
        · have hclosed : k.txnOpen = false := by
            rw [hm.txnOpen, Bool.eq_false_iff]
            intro ht
            rw [(hm.ready_of_open ht).1] at htrans₁
            cases htrans₁
          rw [hn, Protocol.flushResult_delivered _ herrored]
          refine ⟨⟨⟨hm.handle, hm.transactional, hm.fatal, hm.unheld, hm.txnOpen, fun _ => rfl, hm.errored,
            hm.ready_of_open⟩, hfollows.beside.trans ((Protocol.setSink_beside _ _).trans
              (Protocol.setStage_beside _ _)), hsame⟩, hheld, fun _ => ⟨rfl, ?_⟩,
            fun hne => absurd rfl hne⟩
          show Sink.clean { k with dirty := false } = true
          rw [Sink.clean, hclosed]
          rfl
        · rw [Protocol.flushResult_abandoned _ (.inr (.inl (by simp [Protocol.flushed, hn])))]
          exact ⟨habandoned _, hunheld.hear r, fun h0 => absurd h0 hn, fun _ => rfl⟩

theorem wp_flushOrRaise {b : Batch} {done : List Bytes} {timeout : ℚ}
    (hsim : ProducerSim p m.sink) (hunheld : Unheld m) (hstage : m.stage = .sending b done [])
    (htrans : p.transactional = false) :
    Proc.wp (Protocol.monitor P) (flushOrRaise timeout) (fun r p' m' =>
      Follows p m p' m' ∧ Unheld m' ∧
        match r with
        | .ok _ => m'.stage = .delivered b ∧ m'.sink.all Sink.clean = true
        | .error exc => (m'.stage = m.stage ∨ m'.stage = .abandoned b.consumer) ∧
            (guardError exc → exc ∈ m'.raised) ∧
            (m'.rogue = false → BridgePipeline.isDeliveryFailure exc = true)) p m := by
  unfold flushOrRaise
  refine Proc.wp_bind_of (wp_flush hsim hunheld hstage htrans) ?_ (fun exc p' m' h => h)
  rintro n p' m' ⟨hfollows, hunheld', hzero, hmore⟩
  rw [wp_raiseIf]
  by_cases hn : n = 0
  · rw [if_neg (by simp [hn])]
    exact ⟨hfollows, hunheld', hzero hn⟩
  · rw [if_pos (by simpa using Nat.pos_of_ne_zero hn)]
    exact ⟨hfollows, hunheld', .inr (hmore hn), fun hg => (nomatch hg.1), fun _ => rfl⟩

/-! ## Closing -/

/-- What holds while the producer `h` is being closed. The wrapper and the calls need not agree any
more on the transaction. -/
structure Closing (p₀ : MutationProducer) (m₀ : Protocol) (h : Handle) (p : MutationProducer)
    (m : Protocol) : Prop where
  producer : p.producer = some h
  same : SameProducer p₀ p
  live : ∃ k, m.sink = some k ∧ k.handle = h
  unheld : Unheld m ∨ m.stopping = true
  beside : Beside m₀ m
  consumer : m.stage.consumer = m₀.stage.consumer
  detached : m₀.stage.isDetached = true → m.stage.isDetached = true

/-- A flush is allowed that does not belong to the batch in hand. -/
def Flushable (P : Contract) (m : Protocol) : Prop :=
  P.bound = false ∨ m.stage.isDelivered = false

variable {p₀ : MutationProducer} {m₀ : Protocol} {h : Handle}

theorem Closing.hear (hc : Closing p₀ m₀ h p m) {c : Call} (r : Response c) :
    Closing p₀ m₀ h (HasCallbacks.runCallbacks r.callbacks p) (m.hear r) := by
  obtain ⟨hsame, -⟩ := sameProducer_runCallbacks p r.callbacks
  obtain ⟨k, hsink, hk⟩ := hc.live
  refine ⟨hsame.producer.trans hc.producer, hc.same.trans hsame, ⟨k.hear r.callbacks, ?_, ?_⟩, ?_,
    hc.beside.trans (Protocol.hear_beside r m), hc.consumer, hc.detached⟩
  · rw [Protocol.hear_sink, hsink]
    rfl
  · rw [(k.hear_static r.callbacks).1, hk]
  · exact hc.unheld.imp (fun hu => hu.hear r) id

theorem Closing.abandon (hc : Closing p₀ m₀ h p m) : Closing p₀ m₀ h p m.abandon := by
  obtain ⟨k, hsink, hk⟩ := hc.live
  refine ⟨hc.producer, hc.same, ⟨k, by rw [Protocol.abandon_sink, hsink], hk⟩, ?_,
    hc.beside.trans (Protocol.abandon_beside m), (Protocol.abandon_consumer m).trans hc.consumer,
    fun h => m.abandon_isDetached (hc.detached h)⟩
  rw [Unheld, Protocol.abandon_sink]
  exact hc.unheld.imp id fun hs => (Protocol.abandon_beside m).stopping.trans hs

theorem flushable_abandon (hf : Flushable P m) : Flushable P m.abandon := by
  unfold Protocol.abandon
  split
  · exact .inr rfl
  · exact hf

/-- A call that changes the protocol in nothing but, possibly, abandoning the batch. -/
theorem closing_native (hc : Closing p₀ m₀ h p m) {c : KafkaCall}
    {Q : Except PyExc (Call.kafka c).Value → MutationProducer → Protocol → Prop}
    (hnext : ∀ (r : Response (.kafka c)) k, (m.hear r).sink = some k → k.handle = h →
      ∃ m', Protocol.next P m ⟨.kafka c, r⟩ = some m' ∧
        Q r.result (HasCallbacks.runCallbacks r.callbacks p) m') :
    Proc.wp (Protocol.monitor P) (native (.kafka c)) Q p m := by
  rw [wp_native]
  intro r
  obtain ⟨k, hsink, hk⟩ := (hc.hear r).live
  exact hnext r k hsink hk

theorem wp_closeFlush_native (hc : Closing p₀ m₀ h p m) (hf : Flushable P m) (timeout : ℚ) :
    Proc.wp (Protocol.monitor P) (native (.kafka (.flush h timeout)) : Py MutationProducer ℕ)
      (fun r p' m' => Closing p₀ m₀ h p' m' ∧
        (Protocol.flushed r = false → Flushable P m')) p m := by
  refine closing_native hc fun r k hsink hk => ?_
  have hc₁ := hc.hear r
  have hf₁ : Flushable P (m.hear r) := hf
  generalize hm₁ : m.hear r = m₁ at *
  have hnext : Protocol.next P m ⟨.kafka (.flush h timeout), r⟩ =
      m₁.onFlush P k (m.sink.any Sink.fatal) r.result := by
    rw [← hm₁] at hsink ⊢
    exact Protocol.withSink_of _ hsink hk
  rw [hnext]
  unfold Protocol.onFlush
  split
  · rename_i b done todo hstage
    by_cases htrans : k.transactional = true
    · rw [if_pos htrans]
      exact ⟨_, rfl, hc₁, fun _ => hf₁⟩
    · rw [if_neg htrans]
      refine ⟨_, rfl, ?_⟩
      have hconsumer : some b.consumer = m₀.stage.consumer := by
        have h := hc₁.consumer
        rwa [hstage] at h
      unfold Protocol.flushResult
      split
      · rename_i hall
        refine ⟨⟨hc₁.producer, hc₁.same, ⟨_, rfl, hk⟩, ?_, hc₁.beside.trans
          ((Protocol.setSink_beside _ _).trans (Protocol.setStage_beside _ _)), hconsumer,
          fun _ => rfl⟩, ?_⟩
        · refine hc₁.unheld.imp (fun hu => ?_) id
          have hheld := hu.sink hsink
          exact hheld
        · intro hnot
          rw [hall.2.1] at hnot
          cases hnot
      · obtain ⟨k', hsink', hk'⟩ := hc₁.live
        exact ⟨⟨hc₁.producer, hc₁.same, ⟨k', hsink', hk'⟩, hc₁.unheld, hc₁.beside.trans
          ((Protocol.setStage_beside _ _).trans (Protocol.noteRogue_beside _ _)), hconsumer,
          fun _ => rfl⟩, fun _ => .inr rfl⟩
  · rename_i stage hnot
    rw [if_neg]
    · exact ⟨_, rfl, hc₁, fun _ => hf₁⟩
    · rintro ⟨hbound, hdelivered⟩
      rcases hf₁ with hb | hb
      · rw [hb] at hbound
        cases hbound
      · rw [hb] at hdelivered
        cases hdelivered

theorem wp_closeTransaction (hsim : ProducerSim p m.sink) (hp : p.producer = some h)
    (hunheld : Unheld m ∨ m.stopping = true) (hf : Flushable P m) (timeout : ℚ) :
    Proc.wp (Protocol.monitor P) (closeTransaction h timeout)
      (fun r p' m' => r = .ok () ∧ Closing p m h p' m' ∧ Flushable P m') p m := by
  obtain ⟨k₀, hsink₀, hk₀, hm₀⟩ := hsim.live hp
  have hc : Closing p m h p m := ⟨hp, .refl p, ⟨k₀, hsink₀, hk₀⟩, hunheld, Beside.refl m, rfl, id⟩
  unfold closeTransaction
  rw [Proc.wp_get_bind, Proc.wp_when]
  split
  · rename_i hopen
    rw [Bool.and_eq_true] at hopen
    rw [Proc.wp_tryCatch, Proc.wp_bind]
    refine closing_native hc fun r k hsink hk => ?_
    have hc₁ := hc.hear r
    have hm : Matches (HasCallbacks.runCallbacks r.callbacks p) k := by
      obtain ⟨k', hsink', -, hm'⟩ := live_hear hsim hp r
      rw [hsink] at hsink'
      cases hsink'
      exact hm'
    have hopenk : k.txnOpen = true :=
      hm.txnOpen.trans ((sameProducer_runCallbacks p r.callbacks).2.trans hopen.2)
    have hready : k.txnOpen = true ∧ (k.held = false ∨ (m.hear r).stopping = true) :=
      ⟨hopenk, hc₁.unheld.imp (fun hu => hu.sink hsink) id⟩
    refine ⟨_, (Protocol.withSink_of _ hsink hk).trans (if_pos hready), ?_⟩
    have hset : ∀ k', k'.handle = h → k'.held = false →
        Closing p m h (HasCallbacks.runCallbacks r.callbacks p) ((m.hear r).setSink k') :=
      fun k' hk' hheld => ⟨hc₁.producer, hc₁.same, ⟨k', rfl, hk'⟩, .inl hheld,
        hc₁.beside.trans (Protocol.setSink_beside _ _), hc₁.consumer, hc₁.detached⟩
    cases hres : r.result with
    | ok u =>
      obtain ⟨h₁, h₂, h₃, h₄, h₅, h₆, h₇⟩ := (hset k.endTransaction hk rfl).abandon
      exact ⟨rfl, ⟨h₁, ⟨h₂.producer, h₂.transactional, h₂.txnInitialized⟩, h₃, h₄, h₅, h₆, h₇⟩,
        flushable_abandon hf⟩
    | error exc =>
      exact ⟨rfl, (hset { k with fatal := true } hk (Sink.held_eq_false.2 (.inr rfl))).abandon,
        flushable_abandon hf⟩
  · exact ⟨rfl, hc, hf⟩

/-- The producer is gone, and the batch in hand, if any, belongs to the same consumer. -/
structure Closed (p : MutationProducer) (m : Protocol) (p' : MutationProducer) (m' : Protocol) :
    Prop where
  producer : p'.producer = none
  sink : m'.sink = none
  beside : Beside m m'
  consumer : m'.stage.consumer = m.stage.consumer
  detached : m.stage.isDetached = true → m'.stage.isDetached = true
  transactional : p'.transactional = p.transactional
  txnInitialized : p'.txnInitialized = p.txnInitialized

/-- Dropping the last reference cannot raise. -/
theorem wp_dropProducer (hc : Closing p₀ m₀ h p m) :
    Proc.wp (Protocol.monitor P) (do
        modify fun p => { p with producer := none }
        native (.kafka (.dropProducer h)) : Py MutationProducer Unit)
      (fun r p' m' => r = .ok () ∧ Closed p₀ m₀ p' m') p m := by
  rw [Proc.wp_modify_bind, wp_native]
  intro r
  obtain ⟨k, hsink, hk⟩ := (hc.hear r).live
  have hc₁ := (hc.hear r).abandon
  obtain ⟨hsame, -⟩ := sameProducer_runCallbacks { p with producer := none } r.callbacks
  refine ⟨_, (Protocol.withSink_of _ hsink hk).trans (if_pos ?_), ?_, hsame.producer, rfl,
    ⟨hc₁.beside.loaded, hc₁.beside.stopping, hc₁.beside.finished, hc₁.beside.raised,
      hc₁.beside.rogue⟩, hc₁.consumer, hc₁.detached, hsame.transactional.trans hc.same.transactional,
    hsame.txnInitialized.trans hc.same.txnInitialized⟩
  · exact (hc.hear r).unheld.imp (fun hu => hu.sink hsink) id
  · obtain ⟨v, hv⟩ := r.returns rfl
    exact hv

theorem wp_closeFlush (hc : Closing p₀ m₀ h p m) (hf : Flushable P m) (timeout : ℚ) :
    Proc.wp (Protocol.monitor P) (closeFlush h timeout) (fun r p' m' => ∃ undelivered failed,
      r = .ok (undelivered, failed) ∧ Closing p₀ m₀ h p' m' ∧
        ((undelivered.any (· > 0) || failed) = true → Flushable P m')) p m := by
  unfold closeFlush
  rw [Proc.wp_bind, Proc.wp_attempt]
  refine Proc.wp_mono (wp_closeFlush_native hc hf timeout) ?_
  rintro r p₁ m₁ ⟨hc₁, hf₁⟩
  rw [Proc.andThen]
  cases r with
  | ok undelivered =>
    refine ⟨some undelivered, false, rfl, hc₁, fun hany => hf₁ ?_⟩
    have hpos : 0 < undelivered := by simpa using hany
    exact decide_eq_false (Nat.pos_iff_ne_zero.1 hpos)
  | error exc =>
    simp only
    rw [Proc.wp_bind, Proc.wp_attempt]
    refine closing_native hc₁ fun r k hsink hk => ?_
    have hf₂ : Flushable P (m₁.hear r) := hf₁ rfl
    refine ⟨_, Protocol.withSink_of _ hsink hk, ?_⟩
    rw [Proc.andThen]
    cases hres : r.result with
    | ok undelivered => exact ⟨some undelivered, true, rfl, hc₁.hear r, fun _ => hf₂⟩
    | error exc => exact ⟨none, true, rfl, hc₁.hear r, fun _ => hf₂⟩

theorem wp_closePurge (hc : Closing p₀ m₀ h p m) (hf : Flushable P m) (timeout : ℚ) :
    Proc.wp (Protocol.monitor P) (closePurge h timeout)
      (fun r p' m' => r = .ok () ∧ Closing p₀ m₀ h p' m') p m := by
  unfold closePurge
  rw [Proc.wp_tryCatch, Proc.wp_bind]
  refine closing_native hc fun r k hsink hk => ?_
  refine ⟨_, Protocol.withSink_of _ hsink hk, ?_⟩
  have hc₁ := (hc.hear r).abandon
  cases hres : r.result with
  | error exc => exact ⟨rfl, hc₁⟩
  | ok u =>
    rw [Proc.andThen, Proc.wp_bind]
    refine Proc.wp_mono (wp_closeFlush_native hc₁ (flushable_abandon hf) timeout) ?_
    rintro r p₂ m₂ ⟨hc₂, -⟩
    cases r with
    | ok n => exact ⟨rfl, hc₂⟩
    | error exc => exact ⟨rfl, hc₂⟩

/-- `close` always returns, and the producer is gone. -/
theorem wp_close (hsim : ProducerSim p m.sink) (hunheld : Unheld m ∨ m.stopping = true)
    (hf : Flushable P m) (timeout : ℚ) :
    Proc.wp (Protocol.monitor P) (close timeout) (fun r p' m' => r = .ok () ∧ Closed p m p' m') p
      m := by
  unfold close
  rw [Proc.wp_get_bind]
  cases hp : p.producer with
  | none =>
    refine ⟨rfl, hp, ?_, Beside.refl m, rfl, id, rfl, rfl⟩
    cases hsink : m.sink with
    | none => rfl
    | some k =>
      rw [hsink] at hsim
      have hlive := hsim.handle
      rw [hp] at hlive
      cases hlive
  | some h =>
    simp only
    refine Proc.wp_bind_of (wp_closeTransaction hsim hp hunheld hf timeout) ?_ ?_
    · rintro _ p₁ m₁ ⟨-, hc₁, hf₁⟩
      refine Proc.wp_bind_of (wp_closeFlush hc₁ hf₁ timeout) ?_ ?_
      · rintro _ p₂ m₂ ⟨undelivered, failed, ⟨⟩, hc₂, hf₂⟩
        rw [Proc.wp_bind, Proc.wp_when]
        split
        · rename_i hpurge
          refine Proc.wp_mono (wp_closePurge hc₂ (hf₂ hpurge) timeout) ?_
          rintro _ p₃ m₃ ⟨rfl, hc₃⟩
          exact wp_dropProducer hc₃
        · exact wp_dropProducer hc₂
      · rintro _ p₂ m₂ ⟨_, _, hok, -⟩
        cases hok
    · rintro _ p₁ m₁ ⟨hok, -⟩
      cases hok

end MutationProducer

end FdbKafkaBridge
