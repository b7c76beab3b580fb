import FdbKafkaBridge.Bridge.Proofs.MoveProofs

/-!
# What an accepted trace shows

A trace that the protocol of a pipeline accepts goes from one reply to the next, and what it shows of
the reply in hand is what the stage of the protocol says. While a reply is sent in a transaction, the
transaction holds what was handed over of it.
-/

namespace FdbKafkaBridge

open Protobuf (Bytes)
open Serialization (FDBMutationRecord)
open Interaction

variable {P : Contract} {b : Batch} {cursor : PyCursor} {done : List Bytes}
  {tr : List (Event Response)} {e : Event Response}

/-! ## One call more -/

theorem forall_concat {p : Event Response → Prop} (h : ∀ e ∈ tr, p e) (he : p e) :
    ∀ e' ∈ tr ++ [e], p e' := by
  intro e' hmem
  rcases List.mem_append.1 hmem with hmem | hmem
  · exact h e' hmem
  · rw [List.mem_singleton.1 hmem]
    exact he

theorem Call.not_settling_of_aside {c : Call} (h : c.isAside = true) : c.isSettling = false := by
  cases c with
  | fdb c => cases c <;> first | rfl | cases h
  | kafka c => rfl
  | file c => rfl
  | host c => cases c <;> first | rfl | cases h

theorem not_position_of_aside (h : e.call.isAside = true) : readsPosition e = false := by
  obtain ⟨c, r⟩ := e
  cases c with
  | fdb c => cases c <;> first | rfl | cases h
  | kafka c => rfl
  | file c => rfl
  | host c => rfl

/-- What is being sent was consumed first, and nothing was settled since. -/
theorem Sends.consumed (h : Sends P b done tr) :
    ∃ (r : Response (.fdb (.consume b.consumer))) (reply : CdcReply)
      (rest : List (Event Response)), tr = ⟨_, r⟩ :: rest ∧ r.result = .ok reply ∧
        ∀ e ∈ rest, e.call.isSettling = false := by
  induction h with
  | polled h =>
    obtain ⟨consumed, time, hreply, hrest, -, -⟩ := h
    refine ⟨consumed, _, _, rfl, hreply, forall_concat (fun e hmem => ?_) rfl⟩
    exact Call.not_settling_of_aside (hrest e hmem)
  | aside _ he ih =>
    obtain ⟨r, reply, rest, rfl, hr, hrest⟩ := ih
    exact ⟨r, reply, rest ++ [_], rfl, hr, forall_concat hrest (Call.not_settling_of_aside he)⟩
  | begun _ _ ih =>
    obtain ⟨r, reply, rest, rfl, hr, hrest⟩ := ih
    exact ⟨r, reply, rest ++ [_], rfl, hr, forall_concat hrest rfl⟩
  | produced _ _ _ ih =>
    obtain ⟨r, reply, rest, rfl, hr, hrest⟩ := ih
    exact ⟨r, reply, rest ++ [_], rfl, hr, forall_concat hrest rfl⟩
  | tried _ _ _ ih =>
    obtain ⟨r, reply, rest, rfl, hr, hrest⟩ := ih
    exact ⟨r, reply, rest ++ [_], rfl, hr, forall_concat hrest rfl⟩

theorem Positions.concat (h : Positions P b cursor tr) (he : Waits P e)
    (hnot : readsPosition e = false) : Positions P b cursor (tr ++ [e]) := by
  obtain ⟨hfront, hwaiting, r, hr, hasking⟩ := h
  rw [List.append_assoc, List.cons_append]
  exact .intro hfront hwaiting r hr (forall_concat hasking ⟨he, hnot⟩)

/-- The position is read once more. -/
theorem Positions.again {cursor' : PyCursor} (h : Positions P b cursor tr)
    (r : Response (.fdb (.getPosition b.consumer))) (hr : r.result = .ok cursor') :
    Positions P b cursor' (tr ++ [⟨_, r⟩]) := by
  obtain ⟨hfront, hwaiting, r₀, hr₀, hasking⟩ := h
  rename_i front waiting asking
  have hbefore : ∀ e ∈ waiting ++ ⟨_, r₀⟩ :: asking, Waits P e := by
    intro e hmem
    rcases List.mem_append.1 hmem with hmem | hmem
    · exact hwaiting e hmem
    · rcases List.mem_cons.1 hmem with rfl | hmem
      · exact .position r₀
      · exact (hasking e hmem).1
  rw [List.append_assoc front]
  exact .intro hfront hbefore r hr fun e hmem => absurd hmem List.not_mem_nil

theorem Checkpoints.concat (h : Checkpoints P b cursor tr) (he : Retries e) :
    Checkpoints P b cursor (tr ++ [e]) := by
  obtain ⟨hposition, r, hr, hretries⟩ := h
  rw [List.append_assoc, List.cons_append]
  exact .intro hposition r hr (forall_concat hretries he)

theorem Stage.Shows.aside {stage : Stage} (h : stage.Shows P tr) (he : e.call.isAside = true)
    (hflush : e.call.isFlush = true → stage.isDelivered = false) : stage.Shows P (tr ++ [e]) := by
  have hnoflush : stage.isDelivered = true → e.call.isFlush = false := by
    intro hdelivered
    by_contra hnot
    rw [hflush (Bool.not_eq_false _ ▸ hnot)] at hdelivered
    cases hdelivered
  cases stage with
  | idle => exact forall_concat h (.aside he)
  | received handle reply =>
    obtain ⟨r, rest, rfl, hr, hrest⟩ := h
    exact ⟨r, rest ++ [e], rfl, hr, forall_concat hrest he⟩
  | sending b done todo => exact ⟨h.1.aside he, h.2⟩
  | delivered b =>
    obtain ⟨front, waiting, rfl, hfront, hwaiting⟩ := h
    exact ⟨front, waiting ++ [e], List.append_assoc _ _ _, hfront,
      forall_concat hwaiting (.aside he (hnoflush rfl))⟩
  | positioned b cursor =>
    exact Positions.concat h (.aside he (hnoflush rfl)) (not_position_of_aside he)
  | saved b cursor => exact Checkpoints.concat h (.aside he (hnoflush rfl))
  | orphaned b cursor => exact h
  | abandoned handle =>
    obtain ⟨r, reply, rest, rfl, hr, hrest⟩ := h
    exact ⟨r, reply, rest ++ [e], rfl, hr, forall_concat hrest (Call.not_settling_of_aside he)⟩

/-! ## What is kept -/

/-- No delivery error was reported for the reply in hand, unless the protocol has noted it. -/
def Unreported (m : Protocol) (cur : List (Event Response)) : Prop :=
  ∀ k, m.sink = some k → k.transactional = false → k.errored = false →
    ∀ e ∈ cur, reportsError e = false

/-- The trace and the protocol agree on the replies that are done with and on the reply in hand. -/
def InHand (P : Contract) (tr : List (Event Response)) (m : Protocol) : Prop :=
  ∃ past cur, tr = past ++ cur ∧ Replies P past m.finished ∧ m.stage.Shows P cur ∧
    (m.stage ≠ .idle → Unreported m cur)

/-- The trace and the protocol agree on the open transaction. -/
structure InTransaction (tr : List (Event Response)) (m : Protocol) : Prop where
  transactional : ∀ k, m.sink = some k → k.txnOpen = true → k.transactional = true
  received : ∀ handle reply, m.stage = .received handle reply →
    ∀ k, m.sink = some k → k.txnOpen = false
  sending : ∀ k b done todo, m.sink = some k → k.txnOpen = true → m.stage = .sending b done todo →
    transaction tr = some done

structure Shown (P : Contract) (tr : List (Event Response)) (m : Protocol) : Prop where
  inHand : InHand P tr m
  inTransaction : InTransaction tr m
  restoring : m.stage ≠ .idle → m.restoring = none
  resumed : ∀ h cursor, m.restoring = some (h, cursor) → Resumes h cursor tr

theorem transaction_concat (tr : List (Event Response)) (e : Event Response) :
    transaction (tr ++ [e]) = transactionStep (transaction tr) e := by
  rw [transaction, List.foldl_concat]
  rfl

/-! ## Callbacks -/

theorem Sink.hear_errored (k : Sink) (callbacks : List Callback)
    (h : (k.hear callbacks).errored = false) :
    k.errored = false ∧ callbacks.any Callback.isDeliveryError = false := by
  induction callbacks generalizing k with
  | nil => exact ⟨h, rfl⟩
  | cons c callbacks ih =>
    obtain ⟨hone, hrest⟩ := ih (k.hearOne c) h
    rw [List.any_cons, hrest, Bool.or_false]
    cases c with
    | error err =>
      refine ⟨?_, rfl⟩
      unfold Sink.hearOne at hone
      dsimp only at hone
      split at hone
      · exact hone
      · exact hone
    | delivery err =>
      cases err with
      | none => exact ⟨hone, rfl⟩
      | some err => cases hone

variable {m m' : Protocol}

/-- The callbacks of a call come before what the call itself shows. -/
theorem InTransaction.hear (h : InTransaction tr m) {c : Call} (r : Response c) :
    InTransaction tr (m.hear r) := by
  have hsink : ∀ k', (m.hear r).sink = some k' → ∃ k, m.sink = some k ∧
      k'.transactional = k.transactional ∧ k'.txnOpen = k.txnOpen := by
    intro k' hk'
    obtain ⟨k, hk, rfl⟩ := Option.map_eq_some_iff.1 hk'
    obtain ⟨-, htrans, hopen⟩ := k.hear_static r.callbacks
    exact ⟨k, hk, htrans, hopen⟩
  constructor
  · intro k' hk' hopen
    obtain ⟨k, hk, htrans, hsame⟩ := hsink k' hk'
    exact htrans.trans (h.transactional k hk (hsame.symm.trans hopen))
  · intro handle reply hstage k' hk'
    obtain ⟨k, hk, -, hsame⟩ := hsink k' hk'
    exact hsame.trans (h.received handle reply hstage k hk)
  · intro k' b done todo hk' hopen hstage
    obtain ⟨k, hk, -, hsame⟩ := hsink k' hk'
    exact h.sending k b done todo hk (hsame.symm.trans hopen) hstage

theorem Unreported.hear {cur : List (Event Response)} (h : Unreported m cur) {c : Call}
    (r : Response c) : Unreported (m.hear r) (cur ++ [⟨c, r⟩]) := by
  intro k' hk' htrans herrored
  obtain ⟨k, hk, rfl⟩ := Option.map_eq_some_iff.1 hk'
  obtain ⟨hbefore, hnone⟩ := k.hear_errored r.callbacks herrored
  exact forall_concat (h k hk ((k.hear_static r.callbacks).2.1.symm.trans htrans) hbefore) hnone

/-! ## A call that is allowed -/

theorem noteFatal_open (k : Sink) (exc : PyExc) :
    (k.noteFatal exc).txnOpen = k.txnOpen ∧ (k.noteFatal exc).transactional = k.transactional ∧
      (k.noteFatal exc).errored = k.errored := by
  unfold Sink.noteFatal
  split <;> exact ⟨rfl, rfl, rfl⟩

/-- A commit delivers, gives the batch up, or leaves it as it was. -/
theorem commitResult_cases (m : Protocol) (k : Sink) (b : Batch) (result : Except PyExc Unit) :
    (result = .ok () ∧ (m.commitResult k b result).stage = .delivered b ∧
        (m.commitResult k b result).sink = some k.endTransaction) ∨
      ∃ exc k', result = .error exc ∧ (m.commitResult k b result).sink = some k' ∧
        k'.transactional = k.transactional ∧ k'.txnOpen = k.txnOpen ∧ k'.errored = k.errored ∧
        ((m.commitResult k b result).stage = m.stage ∨
          (m.commitResult k b result).stage = .abandoned b.consumer) := by
  cases result with
  | ok u => exact .inl ⟨rfl, rfl, rfl⟩
  | error exc =>
    obtain ⟨hopen, htrans, herrored⟩ := noteFatal_open k exc
    unfold Protocol.commitResult
    dsimp only
    by_cases hstays : staysOutstanding exc = true
    · rw [if_pos hstays]
      exact .inr ⟨exc, _, rfl, rfl, htrans, hopen, herrored, .inl rfl⟩
    · rw [if_neg hstays]
      exact .inr ⟨exc, _, rfl, rfl, htrans, hopen, herrored, .inr rfl⟩

theorem commitResult_finished (m : Protocol) (k : Sink) (b : Batch) (result : Except PyExc Unit) :
    (m.commitResult k b result).finished = m.finished ∧
      (m.commitResult k b result).restoring = m.restoring := by
  cases result with
  | ok u => exact ⟨rfl, rfl⟩
  | error exc =>
    unfold Protocol.commitResult
    dsimp only
    split <;> exact ⟨rfl, rfl⟩

theorem restoreResult_idle (P : Contract) (cursor : PyCursor) (result : Except PyExc Unit)
    (h : m.stage = .idle) : (m.restoreResult P cursor result).stage = .idle := by
  rw [(Protocol.restoreResult_eq m P cursor result).2.2]
  cases result with
  | ok u => rfl
  | error exc => exact h

/-- Nothing is being sent, and no reply has just been consumed. -/
theorem inTransaction_of_stage
    (htrans : ∀ k, m'.sink = some k → k.txnOpen = true → k.transactional = true)
    (hreceived : ∀ handle reply, m'.stage ≠ .received handle reply)
    (hsending : ∀ b done todo, m'.stage ≠ .sending b done todo) : InTransaction tr m' :=
  ⟨htrans, fun handle reply hnot => absurd hnot (hreceived handle reply),
    fun _ b done todo _ _ hnot => absurd hnot (hsending b done todo)⟩

theorem InTransaction.begun {producer : Handle} {k : Sink} {todo : List Bytes}
    (r : Response (.kafka (.beginTransaction producer))) (hstage : m.stage = .sending b [] todo)
    (htrans : k.transactional = true) (hopen : k.txnOpen = false) :
    InTransaction (tr ++ [⟨_, r⟩]) (m.beginResult k r.result) := by
  cases hr : r.result with
  | ok u =>
    refine ⟨?_, fun handle reply hnot => ?_, ?_⟩
    · rintro k' ⟨⟩ -
      exact htrans
    · rw [show m.stage = _ from hnot] at hstage
      cases hstage
    · rintro k' b' done todo' ⟨⟩ - hsending
      rw [show m.stage = _ from hsending] at hstage
      cases hstage
      rw [transaction_concat, transactionStep, hr]
      rfl
  | error exc =>
    obtain ⟨hsame, -, -⟩ := noteFatal_open k exc
    have hclosed : (k.noteFatal exc).txnOpen = false := hsame.trans hopen
    refine ⟨?_, fun handle reply hnot => ?_, ?_⟩
    · rintro k' ⟨⟩ hnot
      rw [hclosed] at hnot
      cases hnot
    · rw [show m.stage = _ from hnot] at hstage
      cases hstage
    · rintro k' b' done todo' ⟨⟩ hnot
      rw [hclosed] at hnot
      cases hnot

theorem InTransaction.produced (h : InTransaction tr m) {producer : Handle} {k : Sink}
    {topic : String} {todo : List Bytes} {v : Bytes} {key : Option Bytes}
    (r : Response (.kafka (.produce producer topic v key))) (hsink : m.sink = some k)
    (hstage : m.stage = .sending b done (v :: todo)) :
    InTransaction (tr ++ [⟨_, r⟩]) (m.produceResult k b done v todo r.result) := by
  cases hr : r.result with
  | ok u =>
    refine ⟨?_, fun handle reply hnot => (by cases hnot), ?_⟩
    · rintro k' ⟨⟩ hopen
      exact h.transactional k hsink hopen
    · rintro k' b' done' todo' ⟨⟩ hopen ⟨⟩
      rw [transaction_concat, transactionStep, hr, h.sending k b done _ hsink hopen hstage]
      rfl
  | error exc =>
    refine inTransaction_of_stage ?_ (fun _ _ hnot => by cases hnot) fun _ _ _ hnot => by cases hnot
    rintro k' ⟨⟩ hopen
    exact h.transactional k hsink hopen

theorem InTransaction.committed (h : InTransaction tr m) {producer : Handle} {timeout : ℚ}
    {k : Sink} (r : Response (.kafka (.commitTransaction producer timeout))) (hsink : m.sink = some k)
    (hstage : m.stage = .sending b done []) :
    InTransaction (tr ++ [⟨_, r⟩]) (m.commitResult k b r.result) := by
  rcases commitResult_cases m k b r.result with
    ⟨-, hdelivered, hended⟩ | ⟨exc, k₁, hr, hsink₁, htrans, hopen, -, hstage₁⟩
  · refine inTransaction_of_stage ?_ ?_ ?_
    · rw [hended]
      rintro k' ⟨⟩ hnot
      cases hnot
    · rw [hdelivered]
      exact fun _ _ hnot => by cases hnot
    · rw [hdelivered]
      exact fun _ _ _ hnot => by cases hnot
  · have htransactional : ∀ k', (m.commitResult k b r.result).sink = some k' → k'.txnOpen = true →
        k'.transactional = true := by
      rw [hsink₁]
      rintro k' ⟨⟩ hopened
      exact htrans.trans (h.transactional k hsink (hopen.symm.trans hopened))
    rcases hstage₁ with hsame | habandoned
    · refine ⟨htransactional, fun handle reply hnot => ?_, fun k' b' done' todo' hk' hopened hnot => ?_⟩
      · rw [hsame, hstage] at hnot
        cases hnot
      · rw [hsink₁] at hk'
        cases hk'
        rw [hsame] at hnot
        have hheld := h.sending k b' done' todo' hsink (hopen.symm.trans hopened) hnot
        rw [transaction_concat, transactionStep, hr, hheld]
        rfl
    · refine inTransaction_of_stage htransactional ?_ ?_
      · rw [habandoned]
        exact fun _ _ hnot => by cases hnot
      · rw [habandoned]
        exact fun _ _ _ hnot => by cases hnot

/-- The protocol still knows of the transaction what the calls show. -/
theorem InTransaction.moves (h : InTransaction tr m) (hrest : m.stage ≠ .idle → m.restoring = none)
    (hmoves : Moves P m e m') : InTransaction (tr ++ [e]) m' := by
  cases hmoves with
  | aside he hflush htxn haside =>
    constructor
    · intro k' hk' hopen
      rcases haside.sink k' hk' with ⟨-, hclosed⟩ | ⟨k, hk, htrans, hopened, -⟩
      · rw [hopen] at hclosed
        cases hclosed
      · exact htrans.trans (h.transactional k hk (hopened hopen))
    · intro handle reply hstage k' hk'
      rcases haside.sink k' hk' with ⟨-, hclosed⟩ | ⟨k, hk, -, hopened, -⟩
      · exact hclosed
      · rcases haside.stage with hsame | ⟨b, done, todo, -, habandoned⟩
        · by_contra hnot
          have hk := h.received handle reply (hsame.symm.trans hstage) k hk
          rw [hopened (Bool.not_eq_false _ ▸ hnot)] at hk
          cases hk
        · rw [habandoned] at hstage
          cases hstage
    · intro k' b done todo hk' hopen hstage
      rcases haside.sink k' hk' with ⟨-, hclosed⟩ | ⟨k, hk, -, hopened, -⟩
      · rw [hopen] at hclosed
        cases hclosed
      · rw [transaction_concat]
        rcases htxn (transaction tr) with hkeeps | hends
        · rw [hkeeps]
          rcases haside.stage with hsame | ⟨b, done, todo, -, habandoned⟩
          · exact h.sending k b done todo hk (hopened hopen) (hsame.symm.trans hstage)
          · rw [habandoned] at hstage
            cases hstage
        · rw [hends k' hk'] at hopen
          cases hopen
  | resumed r hstage =>
    refine inTransaction_of_stage h.transactional (fun _ _ hnot => ?_) fun _ _ _ hnot => ?_
    · rw [show m.stage = _ from hnot] at hstage
      cases hstage
    · rw [show m.stage = _ from hnot] at hstage
      cases hstage
  | consumed r hr hstage hclean =>
    refine ⟨h.transactional, fun handle reply _ k hk => ?_, fun k b done todo _ _ hnot => by cases hnot⟩
    have hk : k.clean = true := by
      rw [show m.sink = some k from hk] at hclean
      exact hclean
    rw [Sink.clean] at hk
    simp only [Bool.and_eq_true, Bool.not_eq_true'] at hk
    exact hk.2
  | notConsumed r hr hstage =>
    refine ⟨h.transactional, fun handle reply hnot => ?_, fun k b done todo _ _ hnot => ?_⟩
    · rw [show m.stage = _ from hnot] at hstage
      cases hstage
    · rw [show m.stage = _ from hnot] at hstage
      cases hstage
  | @polled handle reply t r hr hstage =>
    have hclosed := h.received handle reply hstage
    have hsink : (m.timeResult handle reply (P.render reply t)).sink = m.sink := by
      unfold Protocol.timeResult
      split <;> rfl
    refine ⟨?_, ?_, ?_⟩
    · rw [hsink]
      exact h.transactional
    · rw [hsink]
      exact fun _ _ _ => hclosed
    · rw [hsink]
      intro k b done todo hk hopen
      rw [hclosed k hk] at hopen
      cases hopen
  | begun r hsink hstage htrans hopen => exact .begun r hstage htrans hopen
  | produced r hsink hstage hopen => exact h.produced r hsink hstage
  | @flushed producer timeout k b done r hr hsink hstage htrans herrored =>
    refine inTransaction_of_stage ?_ (fun _ _ hnot => by cases hnot) fun _ _ _ hnot => by cases hnot
    rintro k' ⟨⟩ hopen
    exact h.transactional k hsink hopen
  | committed r hsink hstage hopen => exact h.committed r hsink hstage
  | positioned r hr hstage =>
    exact inTransaction_of_stage h.transactional (fun _ _ hnot => by cases hnot)
      fun _ _ _ hnot => by cases hnot
  | notPositioned r hr hstage =>
    refine inTransaction_of_stage h.transactional (fun _ _ hnot => ?_) fun _ _ _ hnot => ?_
    · rcases hstage with hstage | ⟨cursor', hstage⟩ <;> rw [hstage] at hnot <;> cases hnot
    · rcases hstage with hstage | ⟨cursor', hstage⟩ <;> rw [hstage] at hnot <;> cases hnot
  | checkpointed r hr hstage =>
    exact inTransaction_of_stage h.transactional (fun _ _ hnot => by cases hnot)
      fun _ _ _ hnot => by cases hnot
  | notCheckpointed r hr hstage =>
    refine inTransaction_of_stage h.transactional (fun _ _ hnot => ?_) fun _ _ _ hnot => ?_
    · rw [hstage] at hnot
      cases hnot
    · rw [hstage] at hnot
      cases hnot
  | acknowledged r hr hstage =>
    exact inTransaction_of_stage h.transactional (fun _ _ hnot => by cases hnot)
      fun _ _ _ hnot => by cases hnot
  | notAcknowledged r hr hstage =>
    refine inTransaction_of_stage h.transactional (fun _ _ hnot => ?_) fun _ _ _ hnot => ?_
    · rcases hstage with hstage | ⟨-, hstage⟩ <;> rw [hstage] at hnot <;> cases hnot
    · rcases hstage with hstage | ⟨-, hstage⟩ <;> rw [hstage] at hnot <;> cases hnot
  | @restored handle cursor r hrestoring =>
    have hidle : m.stage = .idle := by
      by_contra hnot
      rw [hrest hnot] at hrestoring
      cases hrestoring
    have hstage := restoreResult_idle P cursor r.result hidle
    refine inTransaction_of_stage ?_ ?_ ?_
    · rw [(Protocol.restoreResult_eq m P cursor r.result).1]
      exact h.transactional
    · rw [hstage]
      exact fun _ _ hnot => by cases hnot
    · rw [hstage]
      exact fun _ _ _ hnot => by cases hnot

theorem settles_of_stage {m : Protocol} (hshows : m.stage.Shows P tr)
    (hstage : m.stage = .saved b cursor ∨ P.checkpoint ≠ .callback ∧ m.stage = .positioned b cursor) :
    Settles P b tr := by
  rcases hstage with hstage | ⟨hfile, hstage⟩
  · rw [hstage] at hshows
    exact ⟨cursor, .inl hshows⟩
  · rw [hstage] at hshows
    exact ⟨cursor, .inr ⟨hfile, hshows⟩⟩

/-- What the calls of a run show before the next call, and once its callbacks have run. -/
structure Before (P : Contract) (past cur : List (Event Response)) (m : Protocol)
    (e : Event Response) : Prop where
  replies : Replies P past m.finished
  shows : m.stage.Shows P cur
  unreported : m.stage ≠ .idle → Unreported m (cur ++ [e])
  alone : Unreported m [e]
  transactional : ∀ k, m.sink = some k → k.txnOpen = true → k.transactional = true
  restoring : m.stage ≠ .idle → m.restoring = none

variable {past cur : List (Event Response)}

theorem Before.stays (h : Before P past cur m e) (hfinished : m'.finished = m.finished)
    (hshows : m'.stage.Shows P (cur ++ [e])) (hunreported : m'.stage ≠ .idle → Unreported m' (cur ++ [e])) :
    InHand P (past ++ cur ++ [e]) m' := by
  refine ⟨past, cur ++ [e], List.append_assoc _ _ _, ?_, hshows, hunreported⟩
  rw [hfinished]
  exact h.replies

theorem Before.aside (h : Before P past cur m e) (he : e.call.isAside = true)
    (hflush : e.call.isFlush = true → m.stage.isDelivered = false) (haside : Aside m m') :
    InHand P (past ++ cur ++ [e]) m' := by
  have hshows := h.shows.aside he hflush
  have hunreported : m.stage ≠ .idle → Unreported m' (cur ++ [e]) := by
    intro hidle k' hk' htrans herrored
    rcases haside.sink k' hk' with ⟨hnot, -⟩ | ⟨k, hk, hsame, -, hkeeps⟩
    · exact absurd hnot hidle
    · have hclosed : k.txnOpen = false := by
        by_contra hopen
        rw [hsame, h.transactional k hk (Bool.not_eq_false _ ▸ hopen)] at htrans
        cases htrans
      exact h.unreported hidle k hk (hsame.symm.trans htrans) ((hkeeps hclosed).symm.trans herrored)
  rcases haside.stage with hsame | ⟨b, done, todo, hsending, habandoned⟩
  · rw [← hsame] at hshows hunreported
    exact h.stays haside.finished hshows hunreported
  · refine h.stays haside.finished ?_ fun _ => hunreported (by simp [hsending])
    have hsends := h.shows
    rw [hsending] at hsends
    obtain ⟨r, reply, rest, rfl, hr, hrest⟩ := hsends.1.consumed
    rw [habandoned]
    exact ⟨r, reply, rest ++ [e], rfl, hr, forall_concat hrest (Call.not_settling_of_aside he)⟩

/-- The agreement on the reply in hand is kept. -/
theorem Before.moves (h : Before P past cur m e) (hmoves : Moves P m e m') :
    InHand P (past ++ cur ++ [e]) m' := by
  have hshows := h.shows
  cases hmoves with
  | aside he hflush htxn haside => exact h.aside he hflush haside
  | resumed r hstage =>
    rw [hstage] at hshows
    refine h.stays rfl ?_ fun hnot => absurd hstage hnot
    show m.stage.Shows P _
    rw [hstage]
    exact forall_concat hshows (.aside rfl)
  | consumed r hr hstage hclean =>
    rw [hstage] at hshows
    exact ⟨past ++ cur, [⟨_, r⟩], rfl, h.replies.rest hshows,
      ⟨r, [], rfl, hr, fun e hmem => absurd hmem List.not_mem_nil⟩, fun _ => h.alone⟩
  | notConsumed r hr hstage =>
    rw [hstage] at hshows
    refine h.stays rfl ?_ fun hnot => absurd hstage hnot
    show m.stage.Shows P _
    rw [hstage]
    exact forall_concat hshows (.consume r hr)
  | @polled handle reply t r hr hstage =>
    rw [hstage] at hshows
    obtain ⟨consumed, rest, rfl, hreply, hrest⟩ := hshows
    have hunreported := h.unreported (by simp [hstage])
    cases hrendered : P.render reply t with
    | none =>
      refine h.stays rfl ⟨consumed, reply, rest ++ [_], rfl, hreply, ?_⟩ fun _ => hunreported
      exact forall_concat (fun e hmem => Call.not_settling_of_aside (hrest e hmem)) rfl
    | some records =>
      have hpolls : Polls P ⟨handle, reply, records⟩ (⟨_, consumed⟩ :: (rest ++ [⟨_, r⟩])) :=
        .intro consumed r hreply hrest hr hrendered
      cases records with
      | nil =>
        refine ⟨_, [], ?_, h.replies.empty hpolls rfl, fun e hmem => absurd hmem List.not_mem_nil,
          fun hnot => absurd rfl hnot⟩
        rw [List.append_nil, List.append_assoc, List.cons_append]
      | cons record records =>
        exact h.stays rfl ⟨.polled hpolls, rfl⟩ fun _ => hunreported
  | @begun producer k b todo r hsink hstage htrans hopen =>
    rw [hstage] at hshows
    have hunreported := h.unreported (by simp [hstage])
    cases hr : r.result with
    | ok u =>
      refine h.stays rfl ?_ fun _ => ?_
      · show m.stage.Shows P _
        rw [hstage]
        exact ⟨hshows.1.begun r, hshows.2⟩
      · rintro k' ⟨⟩ hnot
        rw [show k.transactional = false from hnot] at htrans
        cases htrans
    | error exc =>
      refine h.stays rfl ?_ fun _ => ?_
      · show m.stage.Shows P _
        rw [hstage]
        exact ⟨hshows.1.begun r, hshows.2⟩
      · rintro k' ⟨⟩ hnot
        rw [(noteFatal_open k exc).2.1, htrans] at hnot
        cases hnot
  | @produced producer k b topic done todo v key r hsink hstage hopen =>
    rw [hstage] at hshows
    have hunreported := h.unreported (by simp [hstage])
    cases hr : r.result with
    | ok u =>
      refine h.stays rfl ⟨hshows.1.produced r hr, ?_⟩ fun _ => ?_
      · rw [hshows.2, List.append_assoc, List.singleton_append]
      · rintro k' ⟨⟩ htrans herrored
        exact hunreported k hsink htrans herrored
    | error exc =>
      obtain ⟨consumed, reply, rest, rfl, hreply, hrest⟩ := hshows.1.consumed
      refine h.stays rfl ⟨consumed, reply, rest ++ [_], rfl, hreply, forall_concat hrest rfl⟩
        fun _ => ?_
      rintro k' ⟨⟩ htrans herrored
      exact hunreported k hsink htrans herrored
  | @flushed producer timeout k b done r hr hsink hstage htrans herrored =>
    rw [hstage] at hshows
    obtain ⟨hsends, hvalues⟩ := hshows
    rw [List.append_nil] at hvalues
    have hunreported := h.unreported (by simp [hstage]) k hsink htrans herrored
    rw [← hvalues] at hsends
    refine h.stays rfl ⟨_, [], (List.append_nil _).symm, .flushed hsends r hr hunreported,
      fun e hmem => absurd hmem List.not_mem_nil⟩ fun _ => ?_
    rintro k' ⟨⟩ - -
    exact hunreported
  | @committed producer timeout k b done r hsink hstage hopen =>
    rw [hstage] at hshows
    obtain ⟨hsends, hvalues⟩ := hshows
    rw [List.append_nil] at hvalues
    have htrans := h.transactional k hsink hopen
    have hfinished := (commitResult_finished m k b r.result).1
    rcases commitResult_cases m k b r.result with
      ⟨hr, hdelivered, hended⟩ | ⟨exc, k₁, hr, hsink₁, hsame, -, -, hstage₁⟩
    · refine h.stays hfinished ?_ fun _ => ?_
      · rw [hdelivered]
        rw [← hvalues] at hsends
        exact ⟨_, [], (List.append_nil _).symm, .committed hsends r hr,
          fun e hmem => absurd hmem List.not_mem_nil⟩
      · intro k' hk' hnot
        rw [hended] at hk'
        cases hk'
        rw [show k.transactional = false from hnot] at htrans
        cases htrans
    · refine h.stays hfinished ?_ fun _ => ?_
      · rcases hstage₁ with hstays | habandoned
        · rw [hstays, hstage]
          refine ⟨?_, hvalues.trans (List.append_nil _).symm⟩
          rw [← hvalues] at hsends ⊢
          exact hsends.tried r hr
        · obtain ⟨consumed, reply, rest, rfl, hreply, hrest⟩ := hsends.consumed
          rw [habandoned]
          exact ⟨consumed, reply, rest ++ [_], rfl, hreply, forall_concat hrest rfl⟩
      · intro k' hk' hnot
        rw [hsink₁] at hk'
        cases hk'
        rw [hsame, htrans] at hnot
        cases hnot
  | @positioned b cursor r hr hstage =>
    rcases hstage with hstage | ⟨cursor', hstage⟩
    · rw [hstage] at hshows
      obtain ⟨front, waiting, rfl, hfront, hwaiting⟩ := hshows
      refine h.stays rfl ?_ fun _ => h.unreported (by simp [hstage])
      exact .intro hfront hwaiting r hr fun e hmem => absurd hmem List.not_mem_nil
    · rw [hstage] at hshows
      exact h.stays rfl (Positions.again hshows r hr) fun _ => h.unreported (by simp [hstage])
  | @notPositioned handle b exc r hr hstage =>
    have hnot : readsPosition ⟨_, r⟩ = false := by
      rw [readsPosition, hr]
      rfl
    rcases hstage with hstage | ⟨cursor', hstage⟩
    · rw [hstage] at hshows
      obtain ⟨front, waiting, rfl, hfront, hwaiting⟩ := hshows
      refine h.stays rfl ?_ h.unreported
      rw [hstage]
      exact ⟨front, waiting ++ [_], List.append_assoc _ _ _, hfront,
        forall_concat hwaiting (.position r)⟩
    · rw [hstage] at hshows
      refine h.stays rfl ?_ h.unreported
      rw [hstage]
      exact Positions.concat hshows (.position r) hnot
  | @checkpointed b cursor r hr hstage =>
    rw [hstage] at hshows
    refine h.stays rfl ?_ fun _ => h.unreported (by simp [hstage])
    exact .intro hshows r hr fun e hmem => absurd hmem List.not_mem_nil
  | @notCheckpointed b cursor exc r hr hstage =>
    rw [hstage] at hshows
    refine h.stays rfl ?_ h.unreported
    rw [hstage]
    exact Positions.concat hshows (.checkpoint r hr) rfl
  | @acknowledged b cursor r hr hstage =>
    refine ⟨_, [], ?_, h.replies.acknowledged (settles_of_stage hshows hstage) r hr,
      fun e hmem => absurd hmem List.not_mem_nil, fun hnot => absurd rfl hnot⟩
    rw [List.append_nil, List.append_assoc]
  | @notAcknowledged b cursor exc r hr hstage =>
    rcases hstage with hstage | ⟨hfile, hstage⟩
    · rw [hstage] at hshows
      refine h.stays rfl ?_ h.unreported
      rw [hstage]
      exact Checkpoints.concat hshows (.acknowledge r hr)
    · rw [hstage] at hshows
      refine h.stays rfl ?_ h.unreported
      rw [hstage]
      exact Positions.concat hshows (.acknowledge hfile r hr) rfl
  | @restored handle cursor r hrestoring =>
    have hidle : m.stage = .idle := by
      by_contra hnot
      rw [h.restoring hnot] at hrestoring
      cases hrestoring
    have hstage := restoreResult_idle P cursor r.result hidle
    have hbeside := (Protocol.restoreResult_eq m P cursor r.result).2.1
    rw [hidle] at hshows
    refine h.stays hbeside.finished ?_ fun hnot => absurd hstage hnot
    rw [hstage]
    exact forall_concat hshows (.restore r)

/-- What becomes of a position that is yet to be restored: only a call aside leaves it. -/
theorem restoring_cases (h : m.stage ≠ .idle → m.restoring = none) (hmoves : Moves P m e m') :
    m'.restoring = none ∨
      (e.call.isAside = true ∧ m'.restoring = m.restoring ∧ (m.stage = .idle → m'.stage = .idle)) ∨
      (m'.stage = .idle ∧ ∃ (cursor : PyCursor) (r : Response (.fdb (.resumeCdcConsumer cursor))),
        e = ⟨_, r⟩ ∧ m'.restoring = r.result.toOption.map fun h => (h, cursor)) := by
  cases hmoves with
  | aside he hflush htxn haside =>
    rcases haside.restoring with hsame | ⟨-, hnone⟩
    · refine .inr (.inl ⟨he, hsame, fun hidle => ?_⟩)
      rcases haside.stage with hstage | ⟨b, done, todo, hsending, -⟩
      · exact hstage.trans hidle
      · rw [hidle] at hsending
        cases hsending
    · exact .inl hnone
  | resumed r hstage => exact .inr (.inr ⟨hstage, _, r, rfl, rfl⟩)
  | consumed r hr hstage hclean => exact .inl rfl
  | notConsumed r hr hstage => exact .inl rfl
  | @polled handle reply t r hr hstage =>
    have hsame : (m.timeResult handle reply (P.render reply t)).restoring = m.restoring := by
      unfold Protocol.timeResult
      split <;> rfl
    exact .inl (hsame.trans (h (by simp [hstage])))
  | begun r hsink hstage htrans hopen =>
    have hnone := h (by simp [hstage])
    cases hr : r.result with
    | ok u => exact .inl hnone
    | error exc => exact .inl hnone
  | produced r hsink hstage hopen =>
    have hnone := h (by simp [hstage])
    cases hr : r.result with
    | ok u => exact .inl hnone
    | error exc => exact .inl hnone
  | flushed r hr hsink hstage htrans herrored => exact .inl (h (by simp [hstage]))
  | @committed producer timeout k b done r hsink hstage hopen =>
    exact .inl ((commitResult_finished m k b r.result).2.trans (h (by simp [hstage])))
  | positioned r hr hstage =>
    refine .inl (h ?_)
    rcases hstage with hstage | ⟨cursor', hstage⟩ <;> simp [hstage]
  | notPositioned r hr hstage =>
    refine .inl (h ?_)
    rcases hstage with hstage | ⟨cursor', hstage⟩ <;> simp [hstage]
  | checkpointed r hr hstage => exact .inl (h (by simp [hstage]))
  | notCheckpointed r hr hstage => exact .inl (h (by simp [hstage]))
  | acknowledged r hr hstage =>
    refine .inl (h ?_)
    rcases hstage with hstage | ⟨-, hstage⟩ <;> simp [hstage]
  | notAcknowledged r hr hstage =>
    refine .inl (h ?_)
    rcases hstage with hstage | ⟨-, hstage⟩ <;> simp [hstage]
  | @restored handle cursor r hrestoring =>
    left
    unfold Protocol.restoreResult
    split <;> rfl

theorem restoring_moves (h : m.stage ≠ .idle → m.restoring = none) (hmoves : Moves P m e m') :
    m'.stage ≠ .idle → m'.restoring = none := by
  intro hidle
  rcases restoring_cases h hmoves with hnone | ⟨-, hsame, hstays⟩ | ⟨hstage, -⟩
  · exact hnone
  · exact hsame.trans (h fun hnot => hidle (hstays hnot))
  · exact absurd hstage hidle

theorem Resumes.concat {h : Handle} (hr : Resumes h cursor tr) (he : e.call.isAside = true) :
    Resumes h cursor (tr ++ [e]) := by
  obtain ⟨r, hr, hrest⟩ := hr
  rw [List.append_assoc, List.cons_append]
  exact .intro r hr (forall_concat hrest he)

theorem resumes_moves (h : ∀ h cursor, m.restoring = some (h, cursor) → Resumes h cursor tr)
    (hrest : m.stage ≠ .idle → m.restoring = none) (hmoves : Moves P m e m') (handle : Handle)
    (cursor : PyCursor) (hrestoring : m'.restoring = some (handle, cursor)) :
    Resumes handle cursor (tr ++ [e]) := by
  rcases restoring_cases hrest hmoves with hnone | ⟨he, hsame, -⟩ | ⟨-, cursor', r, rfl, hresumed⟩
  · rw [hnone] at hrestoring
    cases hrestoring
  · rw [hsame] at hrestoring
    exact (h handle cursor hrestoring).concat he
  · rw [hresumed] at hrestoring
    cases hr : r.result with
    | ok handle' =>
      rw [hr] at hrestoring
      cases hrestoring
      exact .intro r hr fun e hmem => absurd hmem List.not_mem_nil
    | error exc =>
      rw [hr] at hrestoring
      cases hrestoring

/-- A call that is allowed keeps the trace and the protocol in agreement. -/
theorem Shown.next (hbound : P.bound = true) (h : Shown P tr m)
    (hnext : Protocol.next P m e = some m') : Shown P (tr ++ [e]) m' := by
  obtain ⟨c, r⟩ := e
  have hmoves := Protocol.next_moves hbound hnext
  obtain ⟨past, cur, rfl, hpast, hcur, hunreported⟩ := h.inHand
  have htxn := h.inTransaction.hear r
  have hrestoring : (m.hear r).stage ≠ .idle → (m.hear r).restoring = none := h.restoring
  have hnothing : Unreported m [] := fun _ _ _ _ e hmem => absurd hmem List.not_mem_nil
  have hbefore : Before P past cur (m.hear r) ⟨c, r⟩ :=
    ⟨hpast, hcur, fun hidle => (hunreported hidle).hear r, hnothing.hear r, htxn.transactional,
      hrestoring⟩
  have hresumed : ∀ h cursor, (m.hear r).restoring = some (h, cursor) →
      Resumes h cursor (past ++ cur) := h.resumed
  exact ⟨hbefore.moves hmoves, htxn.moves hrestoring hmoves, restoring_moves hrestoring hmoves,
    resumes_moves hresumed hrestoring hmoves⟩

/-- A whole trace shows what the protocol says after it. -/
theorem Shown.run (hbound : P.bound = true) {m₀ : Protocol} (h₀ : Shown P [] m₀)
    (hrun : (Protocol.monitor P).run m₀ tr = some m) : Shown P tr m :=
  (Protocol.monitor P).run_history hrun h₀ fun _ _ _ _ h hnext => h.next hbound hnext

/-! ## What is done with -/

namespace Protocol

end Protocol

/-! ## What may be called -/

/-- The batch of a delivered stage is with Kafka. -/
theorem Positions.delivers (h : Positions P b cursor tr) :
    ∃ front waiting, tr = front ++ waiting ∧ Delivers P b front := by
  obtain ⟨hfront, hwaiting, r, hr, hasking⟩ := h
  exact ⟨_, _, List.append_assoc _ _ _, hfront⟩

theorem Checkpoints.delivers (h : Checkpoints P b cursor tr) :
    ∃ front waiting, tr = front ++ waiting ∧ Delivers P b front := by
  obtain ⟨hposition, r, hr, hretries⟩ := h
  obtain ⟨front, waiting, rfl, hfront⟩ := hposition.delivers
  exact ⟨front, _, List.append_assoc _ _ _, hfront⟩

end FdbKafkaBridge
