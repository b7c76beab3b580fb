import FdbKafkaBridge.Bridge.Protocol
import FdbKafkaBridge.Kafka.Proofs.MethodProofs

/-!
# What the protocol shows of the producer

What the wrapper knows of its native producer agrees with what the calls show of it. Callbacks and
the methods of the wrapper keep it so.
-/

namespace FdbKafkaBridge

open Protobuf (Bytes)
open Serialization (FDBMutationRecord)
open Interaction

/-! ## What does not concern the producer -/

/-- No reply was finished in between, nothing was loaded, and the bridge was not told to stop. -/
structure Beside (m m' : Protocol) : Prop where
  loaded : m'.loaded = m.loaded
  stopping : m'.stopping = m.stopping
  finished : m'.finished = m.finished
  raised : m.raised ⊆ m'.raised
  rogue : m.rogue = true → m'.rogue = true

theorem Beside.refl (m : Protocol) : Beside m m :=
  ⟨rfl, rfl, rfl, List.Subset.refl _, id⟩

theorem Beside.trans {m m' m'' : Protocol} (h : Beside m m') (h' : Beside m' m'') :
    Beside m m'' where
  loaded := h'.loaded.trans h.loaded
  stopping := h'.stopping.trans h.stopping
  finished := h'.finished.trans h.finished
  raised := List.Subset.trans h.raised h'.raised
  rogue hr := h'.rogue (h.rogue hr)

theorem Stage.isDetached_close (stage : Stage) : stage.close.isDetached = true := by
  cases stage <;> rfl

namespace Protocol

variable {c : Call} (r : Response c) (m : Protocol)

@[simp] theorem hear_stage : (m.hear r).stage = m.stage := rfl

@[simp] theorem hear_sink : (m.hear r).sink = m.sink.map (Sink.hear r.callbacks) := rfl

theorem hear_beside : Beside m (m.hear r) :=
  ⟨rfl, rfl, rfl, List.subset_append_left _ _, id⟩

theorem setSink_beside (k : Sink) : Beside m (m.setSink k) :=
  ⟨rfl, rfl, rfl, List.Subset.refl _, id⟩

theorem setStage_beside (stage : Stage) : Beside m (m.setStage stage) :=
  ⟨rfl, rfl, rfl, List.Subset.refl _, id⟩

theorem setRestoring_beside (restoring : Option (Handle × PyCursor)) :
    Beside m (m.setRestoring restoring) :=
  ⟨rfl, rfl, rfl, List.Subset.refl _, id⟩

theorem addRestored_beside (records : List FDBMutationRecord) :
    Beside m (m.addRestored records) :=
  ⟨rfl, rfl, rfl, List.Subset.refl _, id⟩

theorem setDraft_beside (draft : Option JsonText) : Beside m (m.setDraft draft) :=
  ⟨rfl, rfl, rfl, List.Subset.refl _, id⟩

/-- Restoring a position leaves the producer alone. -/
theorem restoreResult_eq (P : Contract) (cursor : PyCursor) (result : Except PyExc Unit) :
    (m.restoreResult P cursor result).sink = m.sink ∧ Beside m (m.restoreResult P cursor result) ∧
      (m.restoreResult P cursor result).stage =
        match result with
        | .ok _ => .idle
        | .error _ => m.stage := by
  unfold restoreResult
  split
  · exact ⟨rfl, ⟨rfl, rfl, rfl, List.Subset.refl _, id⟩, rfl⟩
  · exact ⟨rfl, ⟨rfl, rfl, rfl, List.Subset.refl _, id⟩, rfl⟩
  · exact ⟨rfl, m.setRestoring_beside none, rfl⟩

theorem noteRogue_beside (rogue : Bool) : Beside m (m.noteRogue rogue) :=
  ⟨rfl, rfl, rfl, List.Subset.refl _, fun h => by simp [noteRogue, h]⟩

theorem abandon_beside : Beside m m.abandon := by
  unfold abandon
  split
  · exact setStage_beside m _
  · exact Beside.refl m

theorem mem_raised {exc : PyExc} (h : r.result = .error exc) : exc ∈ (m.hear r).raised := by
  show exc ∈ m.raised ++ raisedBy r
  rw [raisedBy, h]
  exact List.mem_append_right _ (List.mem_singleton_self _)

theorem abandon_sink : m.abandon.sink = m.sink := by
  unfold abandon
  split <;> rfl

theorem abandon_consumer : m.abandon.stage.consumer = m.stage.consumer := by
  unfold abandon
  split
  · rename_i h
    rw [h]
    rfl
  · rfl

theorem abandon_isDetached (h : m.stage.isDetached = true) : m.abandon.stage.isDetached = true := by
  unfold abandon
  split
  · rfl
  · exact h

theorem abandon_stage_congr {m m' : Protocol} (h : m'.stage = m.stage) :
    m'.abandon.stage = m.abandon.stage := by
  unfold abandon
  rw [h]
  split
  · rfl
  · exact h

theorem onBegin_eq {k : Sink} {b : Batch} {todo : List Bytes} (hstage : m.stage = .sending b [] todo)
    (htrans : k.transactional = true) (hopen : k.txnOpen = false) (result : Except PyExc Unit) :
    m.onBegin k result = some (m.beginResult k result) := by
  rw [onBegin, hstage]
  exact if_pos ⟨htrans, hopen⟩

theorem onProduce_eq {k : Sink} {b : Batch} {done todo : List Bytes} {value v : Bytes}
    (hstage : m.stage = .sending b done (v :: todo))
    (hready : value = v ∧ (k.transactional = true → k.txnOpen = true))
    (result : Except PyExc Unit) :
    m.onProduce k value result = some (m.produceResult k b done v todo result) := by
  rw [onProduce, hstage]
  exact if_pos hready

theorem onFlush_eq {P : Contract} {k : Sink} {fatalBefore : Bool} {b : Batch}
    {done todo : List Bytes} (hstage : m.stage = .sending b done todo)
    (htrans : k.transactional = false) (result : Except PyExc ℕ) :
    m.onFlush P k fatalBefore result = some (m.flushResult k fatalBefore b todo result) := by
  rw [onFlush, hstage]
  exact if_neg (by simp [htrans])

theorem flushResult_delivered {k : Sink} {b : Batch} (herrored : k.errored = false) :
    m.flushResult k false b [] (.ok 0) =
      (m.setSink { k with dirty := false }).setStage (.delivered b) :=
  if_pos ⟨rfl, rfl, herrored, rfl⟩

theorem flushResult_abandoned {k : Sink} {fatalBefore : Bool} {b : Batch} {todo : List Bytes}
    {result : Except PyExc ℕ}
    (h : todo ≠ [] ∨ flushed result = false ∨ k.errored = true) :
    m.flushResult k fatalBefore b todo result =
      (m.setStage (.abandoned b.consumer)).noteRogue (flushRogue result) := by
  refine if_neg ?_
  rintro ⟨htodo, hflushed, herrored, -⟩
  rcases h with h | h | h
  · exact h htodo
  · rw [hflushed] at h
    cases h
  · rw [herrored] at h
    cases h

theorem onCommit_eq {k : Sink} {b : Batch} {done : List Bytes} (hstage : m.stage = .sending b done [])
    (hopen : k.txnOpen = true) {fatalBefore : Bool} (hfatal : fatalBefore = false)
    (result : Except PyExc Unit) :
    m.onCommit k fatalBefore result = some (m.commitResult k b result) := by
  rw [onCommit, hstage]
  exact if_pos ⟨hopen, hfatal⟩

theorem onAbort_eq {k : Sink} (hopen : k.txnOpen = true) (hheld : k.held = false)
    (result : Except PyExc Unit) : m.onAbort k result = some (m.abortResult k result) :=
  if_pos ⟨hopen, .inl hheld⟩

theorem withSink_of {h : Handle} {k : Sink} {f : Sink → Option Protocol} (hsink : m.sink = some k)
    (hk : k.handle = h) : m.withSink h f = f k := by
  rw [withSink, hsink]
  simp only
  rw [if_pos hk]

end Protocol

/-! ## Ambiguous commits -/

/-- No ambiguous commit holds on to the producer. -/
def Unheld (m : Protocol) : Prop := m.sink.any Sink.held = false

theorem Sink.hear_kept (k : Sink) (callbacks : List Callback) :
    (k.hear callbacks).commitPending = k.commitPending ∧ (k.hear callbacks).dirty = k.dirty ∧
      (k.fatal = true → (k.hear callbacks).fatal = true) := by
  induction callbacks generalizing k with
  | nil => exact ⟨rfl, rfl, id⟩
  | cons c callbacks ih =>
    have hone : (k.hearOne c).commitPending = k.commitPending ∧ (k.hearOne c).dirty = k.dirty ∧
        (k.fatal = true → (k.hearOne c).fatal = true) := by
      cases c with
      | error err =>
        unfold Sink.hearOne
        simp only
        split
        · exact ⟨rfl, rfl, fun _ => rfl⟩
        · exact ⟨rfl, rfl, id⟩
      | delivery err => cases err <;> exact ⟨rfl, rfl, id⟩
    obtain ⟨hpending, hdirty, hfatal⟩ := ih (k.hearOne c)
    exact ⟨hpending.trans hone.1, hdirty.trans hone.2.1, fun h => hfatal (hone.2.2 h)⟩

theorem Sink.hear_static (k : Sink) (callbacks : List Callback) :
    (k.hear callbacks).handle = k.handle ∧ (k.hear callbacks).transactional = k.transactional ∧
      (k.hear callbacks).txnOpen = k.txnOpen := by
  induction callbacks generalizing k with
  | nil => exact ⟨rfl, rfl, rfl⟩
  | cons c callbacks ih =>
    have hone : (k.hearOne c).handle = k.handle ∧
        (k.hearOne c).transactional = k.transactional ∧ (k.hearOne c).txnOpen = k.txnOpen := by
      cases c with
      | error err =>
        unfold Sink.hearOne
        simp only
        split <;> exact ⟨rfl, rfl, rfl⟩
      | delivery err => cases err <;> exact ⟨rfl, rfl, rfl⟩
    obtain ⟨hhandle, htrans, hopen⟩ := ih (k.hearOne c)
    exact ⟨hhandle.trans hone.1, htrans.trans hone.2.1, hopen.trans hone.2.2⟩

theorem Sink.held_eq_false {k : Sink} :
    k.held = false ↔ k.commitPending = false ∨ k.fatal = true := by
  rw [Sink.held, Bool.and_eq_false_iff, Bool.not_eq_false']

theorem Sink.held_hear {k : Sink} (h : k.held = false) (callbacks : List Callback) :
    (k.hear callbacks).held = false := by
  obtain ⟨hpending, -, hfatal⟩ := k.hear_kept callbacks
  rw [Sink.held_eq_false] at h ⊢
  rcases h with h | h
  · exact .inl (hpending.trans h)
  · exact .inr (hfatal h)

theorem Sink.held_noteFatal {k : Sink} (h : k.held = false) (exc : PyExc) :
    (k.noteFatal exc).held = false := by
  unfold Sink.noteFatal
  split
  · exact Sink.held_eq_false.2 (.inr rfl)
  · exact h

theorem Unheld.hear {m : Protocol} (h : Unheld m) {c : Call} (r : Response c) :
    Unheld (m.hear r) := by
  unfold Unheld at *
  rw [Protocol.hear_sink]
  cases hsink : m.sink with
  | none => rfl
  | some k =>
    rw [hsink] at h
    exact Sink.held_hear h r.callbacks

theorem Unheld.sink {m : Protocol} (h : Unheld m) {k : Sink} (hsink : m.sink = some k) :
    k.held = false := by
  rw [Unheld, hsink] at h
  exact h

/-! ## What the calls show of the producer -/

/-- The wrapper and the calls agree on a native producer that is live. The wrapper may be marked fatal
when no call has shown it. -/
structure Matches (p : MutationProducer) (k : Sink) : Prop where
  handle : p.producer = some k.handle
  transactional : k.transactional = p.transactional
  fatal : k.fatal = true → p.fatalFlag = true
  unheld : p.fatalFlag = true → k.held = false
  txnOpen : k.txnOpen = p.txnOpen
  dirty : p.transactional = true → k.dirty = false
  errored : p.transactional = false → k.errored = !p.deliveryErrors.isEmpty
  ready_of_open : p.txnOpen = true → p.transactional = true ∧ p.txnInitialized = true

def ProducerSim (p : MutationProducer) : Option Sink → Prop
  | none => p.producer = none
  | some k => Matches p k

theorem Matches.runCallback {p : MutationProducer} {k : Sink} (h : Matches p k) (c : Callback) :
    Matches (p.runCallback c) (k.hearOne c) := by
  cases c with
  | error err =>
    by_cases hfatal : err.fatal = true
    · simp only [MutationProducer.runCallback, Sink.hearOne, if_pos hfatal]
      exact ⟨h.handle, h.transactional, fun _ => rfl, fun _ => Sink.held_eq_false.2 (.inr rfl),
        h.txnOpen, h.dirty, h.errored, h.ready_of_open⟩
    · simp only [MutationProducer.runCallback, Sink.hearOne, if_neg hfatal]
      exact h
  | delivery err =>
    cases err with
    | none => exact h
    | some err =>
      refine ⟨h.handle, h.transactional, h.fatal, h.unheld, h.txnOpen, h.dirty, fun _ => ?_,
        h.ready_of_open⟩
      simp [MutationProducer.runCallback, Sink.hearOne]

theorem Matches.runCallbacks {p : MutationProducer} {k : Sink} (h : Matches p k)
    (callbacks : List Callback) :
    Matches (HasCallbacks.runCallbacks callbacks p) (k.hear callbacks) := by
  induction callbacks generalizing p k with
  | nil => exact h
  | cons c callbacks ih => exact ih (h.runCallback c)

/-- A callback that marks the wrapper fatal shows it. -/
theorem Sink.hear_fatal (k : Sink) {p : MutationProducer} {callbacks : List Callback}
    (h : (HasCallbacks.runCallbacks callbacks p).fatalFlag = true) :
    p.fatalFlag = true ∨ (k.hear callbacks).fatal = true := by
  induction callbacks generalizing p k with
  | nil => exact .inl h
  | cons c callbacks ih =>
    rcases ih (k.hearOne c) h with hone | hone
    · cases c with
      | delivery err => cases err <;> exact .inl hone
      | error err =>
        by_cases hfatal : err.fatal = true
        · refine .inr (((k.hearOne _).hear_kept callbacks).2.2 ?_)
          simp only [Sink.hearOne, if_pos hfatal]
        · simp only [MutationProducer.runCallback, if_neg hfatal] at hone
          exact .inl hone
    · exact .inr hone

theorem ProducerSim.runCallbacks {p : MutationProducer} {sink : Option Sink}
    (h : ProducerSim p sink) (callbacks : List Callback) :
    ProducerSim (HasCallbacks.runCallbacks callbacks p) (sink.map (Sink.hear callbacks)) := by
  cases sink with
  | none => exact runCallbacks_closed h callbacks
  | some k => exact Matches.runCallbacks h callbacks

theorem ProducerSim.live {p : MutationProducer} {sink : Option Sink} {h : Handle}
    (hsim : ProducerSim p sink) (hp : p.producer = some h) :
    ∃ k, sink = some k ∧ k.handle = h ∧ Matches p k := by
  cases sink with
  | none =>
    rw [ProducerSim, hp] at hsim
    cases hsim
  | some k => exact ⟨k, rfl, Option.some.inj (hsim.handle.symm.trans hp), hsim⟩

/-! ## Callbacks alone -/

/-- The producer, if there is one, has only run callbacks in between. -/
structure Meanwhile (p : Option MutationProducer) (m : Protocol) (p' : Option MutationProducer)
    (m' : Protocol) : Prop where
  heard : ∃ callbacks : List Callback, p' = HasCallbacks.runCallbacks callbacks p ∧
    m'.sink = m.sink.map (Sink.hear callbacks)
  beside : Beside m m'

theorem Sink.hear_append (k : Sink) (cs cs' : List Callback) :
    (k.hear cs).hear cs' = k.hear (cs ++ cs') :=
  (List.foldl_append).symm

theorem Meanwhile.refl (p : Option MutationProducer) (m : Protocol) : Meanwhile p m p m := by
  refine ⟨⟨[], ?_, ?_⟩, Beside.refl m⟩
  · cases p <;> rfl
  · cases m.sink <;> rfl

theorem Meanwhile.trans {p p' p'' : Option MutationProducer} {m m' m'' : Protocol}
    (h : Meanwhile p m p' m') (h' : Meanwhile p' m' p'' m'') : Meanwhile p m p'' m'' := by
  obtain ⟨cs, rfl, hsink⟩ := h.heard
  obtain ⟨cs', rfl, hsink'⟩ := h'.heard
  refine ⟨⟨cs ++ cs', ?_, ?_⟩, h.beside.trans h'.beside⟩
  · cases p with
    | none => rfl
    | some p => exact congrArg some (runCallbacks_append p cs cs')
  · rw [hsink', hsink, Option.map_map]
    congr 1
    funext k
    exact k.hear_append cs cs'

theorem Meanwhile.hear (p : Option MutationProducer) (m : Protocol) {c : Call} (r : Response c) :
    Meanwhile p m (HasCallbacks.runCallbacks r.callbacks p) (m.hear r) :=
  ⟨⟨r.callbacks, rfl, rfl⟩, m.hear_beside r⟩

/-- The protocol may change otherwise, as long as it leaves the sink alone. -/
theorem Meanwhile.and {p p' : Option MutationProducer} {m m' m'' : Protocol}
    (h : Meanwhile p m p' m') (hsink : m''.sink = m'.sink) (hbeside : Beside m' m'') :
    Meanwhile p m p' m'' := by
  obtain ⟨cs, hp, hm⟩ := h.heard
  exact ⟨⟨cs, hp, hsink.trans hm⟩, h.beside.trans hbeside⟩

theorem Meanwhile.addFinished {p p' : Option MutationProducer} {m m' : Protocol}
    (h : Meanwhile p m p' m') (records : List FDBMutationRecord) :
    Meanwhile p (m.addFinished records) p' (m'.addFinished records) :=
  ⟨h.heard, h.beside.loaded, h.beside.stopping, congrArg (· ++ [records]) h.beside.finished,
    h.beside.raised, h.beside.rogue⟩

theorem Meanwhile.unheld {p p' : Option MutationProducer} {m m' : Protocol}
    (h : Meanwhile p m p' m') (hu : Unheld m) : Unheld m' := by
  obtain ⟨cs, -, hsink⟩ := h.heard
  rw [Unheld, hsink]
  cases hm : m.sink with
  | none => rfl
  | some k => exact Sink.held_hear (hu.sink hm) cs

theorem Meanwhile.clean {p p' : Option MutationProducer} {m m' : Protocol}
    (h : Meanwhile p m p' m') (hc : m.sink.all Sink.clean = true) :
    m'.sink.all Sink.clean = true := by
  obtain ⟨cs, -, hsink⟩ := h.heard
  rw [hsink]
  cases hm : m.sink with
  | none => rfl
  | some k =>
    rw [hm] at hc
    show Sink.clean (k.hear cs) = true
    rw [Sink.clean, (k.hear_kept cs).2.1, (k.hear_static cs).2.2]
    exact hc

theorem Meanwhile.some {p : MutationProducer} {p' : Option MutationProducer} {m m' : Protocol}
    (h : Meanwhile (some p) m p' m') : ∃ p₁, p' = .some p₁ ∧ SameProducer p p₁ ∧
      p₁.txnOpen = p.txnOpen ∧ (ProducerSim p m.sink → ProducerSim p₁ m'.sink) := by
  obtain ⟨cs, hp, hsink⟩ := h.heard
  obtain ⟨hsame, hopen⟩ := sameProducer_runCallbacks p cs
  refine ⟨_, hp, hsame, hopen, fun hsim => ?_⟩
  rw [hsink]
  exact hsim.runCallbacks cs

/-! ## Exceptions of the producer -/

/-- The texts of the guards that a transaction is, or is not, open already. -/
def guardMessages : List String :=
  ["A transaction is already open",
    "commit_transaction() called without an open transaction",
    "abort_transaction() called without an open transaction"]

def guardError (exc : PyExc) : Prop := exc.kind = .runtimeError ∧ exc.message ∈ guardMessages

theorem documented_of_rogue {m : Protocol} {exc : PyExc}
    (h : (m.noteRogue (!exc.isKafkaException)).rogue = false) : documented exc = true := by
  have hkafka : (m.rogue || !exc.isKafkaException) = false := h
  rw [Bool.or_eq_false_iff, Bool.not_eq_false'] at hkafka
  rw [documented, hkafka.2, Bool.true_or]

/-- The exception is not one of the guards, unless a native call raised it, and what Kafka is
documented to raise explains it, or a producer that is closed or fatal. -/
structure Blame (p : MutationProducer) (m : Protocol) (exc : PyExc) : Prop where
  guard : guardError exc → exc ∈ m.raised
  excused : m.rogue = false → (p.transactional = true → p.txnInitialized = true) →
    documented exc = true ∨ p.producer = none ∨ p.fatalFlag = true

/-- The state of a producer and of the protocol after a method. -/
structure Follows (p : MutationProducer) (m : Protocol) (p' : MutationProducer) (m' : Protocol) :
    Prop where
  sim : ProducerSim p' m'.sink
  beside : Beside m m'
  same : SameProducer p p'

theorem Follows.refl {p : MutationProducer} {m : Protocol} (h : ProducerSim p m.sink) :
    Follows p m p m :=
  ⟨h, Beside.refl m, SameProducer.refl p⟩

theorem Follows.trans {p p' p'' : MutationProducer} {m m' m'' : Protocol}
    (h : Follows p m p' m') (h' : Follows p' m' p'' m'') : Follows p m p'' m'' :=
  ⟨h'.sim, h.beside.trans h'.beside, h.same.trans h'.same⟩

theorem Follows.hear {p : MutationProducer} {m : Protocol} (h : ProducerSim p m.sink) {c : Call}
    (r : Response c) : Follows p m (HasCallbacks.runCallbacks r.callbacks p) (m.hear r) :=
  ⟨h.runCallbacks r.callbacks, Protocol.hear_beside r m, (sameProducer_runCallbacks p _).1⟩

end FdbKafkaBridge
