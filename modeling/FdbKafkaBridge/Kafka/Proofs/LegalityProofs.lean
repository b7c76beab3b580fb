import FdbKafkaBridge.Kafka.Methods

/-!
# The wrapper makes no illegal call

Between two methods the flags of the wrapper agree with what the calls so far show. Each method
keeps it so, however its native calls end and whatever callbacks run in them.
-/

namespace FdbKafkaBridge

open Serialization (FDBMutationRecord)
open Protobuf (Bytes)
open Interaction

namespace ProducerMark

variable {t : Bool} {p p' : MutationProducer} {marks : List ProducerMark}

/-! ## One more mark -/

section Concat

variable (marks) (mark : ProducerMark)

@[simp] theorem initialized_concat :
    initialized (marks ++ [mark]) = initializedStep (initialized marks) mark := by
  simp [initialized]

@[simp] theorem unresolved_concat :
    unresolved (marks ++ [mark]) = unresolvedStep (unresolved marks) mark := by
  simp [unresolved]

@[simp] theorem fatalNow_concat :
    fatalNow (marks ++ [mark]) = fatalStep (fatalNow marks) mark := by
  simp [fatalNow]

end Concat

theorem closeEnded_event {e : Event Response} :
    CloseEnded (marks ++ [.event e]) ↔ CloseEnded marks := by
  simp [CloseEnded]

theorem closeEnded_start {i : ProducerMethod} :
    CloseEnded (marks ++ [.start i p]) ↔ CloseEnded marks := by
  simp [CloseEnded]

theorem closeEnded_finish {i : ProducerMethod} {r : Except PyExc Unit} :
    CloseEnded (marks ++ [.finish i r p]) ↔ CloseEnded marks ∨ i.isClose = true := by
  constructor
  · rintro ⟨timeout, r', p', hmem⟩
    rcases List.mem_append.1 hmem with hmem | hmem
    · exact .inl ⟨timeout, r', p', hmem⟩
    · cases List.mem_singleton.1 hmem
      exact .inr rfl
  · rintro (⟨timeout, r', p', hmem⟩ | hclose)
    · exact ⟨timeout, r', p', List.mem_append_left _ hmem⟩
    · cases i with
      | close timeout => exact ⟨timeout, r, p, by simp⟩
      | _ => cases hclose

theorem Persists.mono (h : Persists marks p) (hfatal : p.fatal = true → p'.fatal = true)
    (hclosed : p.closed = true → p'.closed = true) : Persists marks p' :=
  fun q hq => ⟨fun hf => hfatal ((h q hq).1 hf), fun hc => hclosed ((h q hq).2 hc)⟩

theorem persists_event {e : Event Response} :
    Persists (marks ++ [.event e]) p ↔ Persists marks p := by
  simp [Persists]

theorem persists_start {i : ProducerMethod} (h : Persists marks p) :
    Persists (marks ++ [.start i p]) p := by
  intro q hq
  rw [states_start] at hq
  rcases List.mem_append.1 hq with hq | hq
  · exact h q hq
  · cases List.mem_singleton.1 hq
    exact ⟨id, id⟩

theorem persists_finish {i : ProducerMethod} {r : Except PyExc Unit} (h : Persists marks p) :
    Persists (marks ++ [.finish i r p]) p := by
  intro q hq
  rw [states_finish] at hq
  rcases List.mem_append.1 hq with hq | hq
  · exact h q hq
  · cases List.mem_singleton.1 hq
    exact ⟨id, id⟩

/-! ## The invariant -/

/-- The flags of the wrapper agree with the marks. -/
structure Agrees (t : Bool) (p : MutationProducer) (marks : List ProducerMark) : Prop where
  transactional : p.transactional = t
  initialized : p.txnInitialized = initialized marks
  unresolved : p.txnOpen = unresolved marks
  ready : p.txnOpen = true → p.transactional = true ∧ p.txnInitialized = true
  persists : Persists marks p
  closed : CloseEnded marks → p.closed = true

/-- What holds when a method ends. -/
def Ended (t : Bool) (i : ProducerMethod) (r : Except PyExc Unit) (p : MutationProducer)
    (marks : List ProducerMark) : Prop :=
  Agrees t p marks ∧ (i.isClose = true → r = .ok () ∧ p.closed = true)

/-- What holds when a method starts. -/
structure Started (t : Bool) (i : ProducerMethod) (p : MutationProducer)
    (marks : List ProducerMark) : Prop where
  agrees : Agrees t p marks
  running : running marks = some i
  fatal : fatalNow marks = p.fatal

theorem Agrees.start (h : Agrees t p marks) (i : ProducerMethod) :
    Started t i p (marks ++ [.start i p]) where
  agrees := by
    refine ⟨h.transactional, ?_, ?_, h.ready, persists_start h.persists,
      fun hended => h.closed (closeEnded_start.1 hended)⟩
    · rw [initialized_concat]
      exact h.initialized
    · rw [unresolved_concat]
      exact h.unresolved
  running := running_start marks i p
  fatal := by simp [fatalStep]

theorem methodKeeps_of_wp {i : ProducerMethod}
    (h : ∀ p marks, Started t i p marks →
      Proc.wp (recorder (LegalMark t)) (MutationProducer.perform i) (Ended t i) p marks) :
    MethodKeeps (LegalMark t) (Agrees t) MutationProducer.perform i := by
  intro p marks hagrees
  refine ⟨hagrees.persists, Proc.wp_mono (h p _ (hagrees.start i)) ?_⟩
  rintro r p' marks' ⟨h', hclose⟩
  refine ⟨⟨h'.persists, hclose⟩, h'.transactional, ?_, ?_, h'.ready,
    persists_finish h'.persists, ?_⟩
  · rw [initialized_concat]
    exact h'.initialized
  · rw [unresolved_concat]
    exact h'.unresolved
  · intro hended
    rcases closeEnded_finish.1 hended with hended | hi
    · exact h'.closed hended
    · exact (hclose hi).2

/-- The invariant after one more call. -/
theorem Agrees.step (h : Agrees t p marks) (e : Event Response)
    (hproducer : p'.producer = p.producer) (htransactional : p'.transactional = p.transactional)
    (hfatal : p.fatal = true → p'.fatal = true)
    (hinit : p'.txnInitialized = initializedStep p.txnInitialized (.event e))
    (hopen : p'.txnOpen = unresolvedStep p.txnOpen (.event e))
    (hready : p'.txnOpen = true → p'.transactional = true ∧ p'.txnInitialized = true) :
    Agrees t p' (marks ++ [.event e]) where
  transactional := htransactional.trans h.transactional
  initialized := by rw [initialized_concat, ← h.initialized, hinit]
  unresolved := by rw [unresolved_concat, ← h.unresolved, hopen]
  ready := hready
  persists := by
    have hclosed : p'.closed = p.closed := by rw [MutationProducer.closed, hproducer]; rfl
    exact persists_event.2 (h.persists.mono hfatal fun hc => hclosed.trans hc)
  closed hended := by
    rw [MutationProducer.closed, hproducer]
    exact h.closed (closeEnded_event.1 hended)

/-- A call that does not concern the transactions, or that failed. -/
theorem Agrees.neutral (h : Agrees t p marks) (e : Event Response)
    (hinit : initializedStep p.txnInitialized (.event e) = p.txnInitialized)
    (hopen : unresolvedStep p.txnOpen (.event e) = p.txnOpen) :
    Agrees t (HasCallbacks.runCallbacks e.response.callbacks p) (marks ++ [.event e]) := by
  obtain ⟨hsame, hsameOpen⟩ := sameProducer_runCallbacks p e.response.callbacks
  have hfatal := fatal_runCallbacks p e.response.callbacks
  refine h.step e hsame.producer hsame.transactional ?_ (hsame.txnInitialized.trans hinit.symm)
    (hsameOpen.trans hopen.symm) ?_
  · intro hf
    rw [MutationProducer.fatal, hfatal, show p.fatalFlag = true from hf, Bool.true_or]
  · rw [hsameOpen, hsame.transactional, hsame.txnInitialized]
    exact h.ready

theorem Agrees.setFatal (h : Agrees t p marks) : Agrees t p.setFatal marks :=
  ⟨h.transactional, h.initialized, h.unresolved, h.ready,
    h.persists.mono (fun _ => rfl) id, h.closed⟩

theorem Agrees.noteFatal (h : Agrees t p marks) (exc : PyExc) :
    Agrees t (if isFatalKafkaError exc then p.setFatal else p) marks := by
  split
  · exact h.setFatal
  · exact h

theorem Agrees.not_closeEnded (h : Agrees t p marks) (hopen : p.closed = false) :
    ¬ CloseEnded marks := by
  intro hended
  rw [h.closed hended] at hopen
  cases hopen

/-- The rule for a native call. -/
theorem wp_call {c : KafkaCall}
    {Q : Except PyExc (Call.kafka c).Value → MutationProducer → List ProducerMark → Prop}
    (hlegal : LegalCall t marks (.kafka c))
    (hfatal : Served marks → fatalNow marks = true →
      (running marks).any ProducerMethod.isClose = true)
    (hended : ¬ CloseEnded marks)
    (hQ : ∀ r : Response (.kafka c), Q r.result (HasCallbacks.runCallbacks r.callbacks p)
      (marks ++ [.event ⟨.kafka c, r⟩])) :
    Proc.wp (recorder (LegalMark t)) (native (.kafka c)) Q p marks := by
  rw [wp_native]
  intro r
  exact ⟨_, recorder_next.2 ⟨⟨hlegal, hfatal, hended⟩, rfl⟩, hQ r⟩

/-! ## The methods -/

section Methods

open MutationProducer

variable {i : ProducerMethod}

/-- A method that raises before it has called anything. -/
theorem Started.raises (h : Started t i p marks) (hi : i.isClose = false) (exc : PyExc) :
    Ended t i (.error exc) p marks :=
  ⟨h.agrees, fun hclose => nomatch hi.symm.trans hclose⟩

theorem Agrees.ended (h : Agrees t p marks) (hi : i.isClose = false) (r : Except PyExc Unit) :
    Ended t i r p marks :=
  ⟨h, fun hclose => nomatch hi.symm.trans hclose⟩

/-- The first call of a method whose guards have passed. -/
theorem Started.wp_call (h : Started t i p marks) {handle : Handle}
    (hproducer : p.producer = some handle) (hfatal : p.fatalFlag = false) {c : KafkaCall}
    {Q : Except PyExc (Call.kafka c).Value → MutationProducer → List ProducerMark → Prop}
    (hlegal : LegalCall t marks (.kafka c))
    (hQ : ∀ r : Response (.kafka c), Q r.result (HasCallbacks.runCallbacks r.callbacks p)
      (marks ++ [.event ⟨.kafka c, r⟩])) :
    Proc.wp (recorder (LegalMark t)) (native (.kafka c)) Q p marks := by
  refine ProducerMark.wp_call hlegal ?_ (h.agrees.not_closeEnded ?_) hQ
  · intro _ hf
    rw [h.fatal, MutationProducer.fatal, hfatal] at hf
    cases hf
  · rw [MutationProducer.closed, hproducer]
    rfl

theorem wp_initTransactions (h : Started t .initTransactions p marks) :
    Proc.wp (recorder (LegalMark t)) initTransactions (Ended t .initTransactions) p marks := by
  unfold initTransactions
  refine wp_requireTransactional_bind ?_ fun _ _ _ => h.raises rfl _
  intro handle hproducer hfatal htransactional _
  rw [Proc.wp_get_bind, wp_raiseIf_bind]
  split
  · exact h.raises rfl _
  rename_i hinit
  rw [Proc.wp_bind, Proc.wp_tryCatch]
  have hnot : p.txnInitialized = false := Bool.eq_false_iff.2 hinit
  refine h.wp_call hproducer hfatal (h.agrees.initialized.symm.trans hnot) ?_
  intro r
  cases hres : r.result with
  | error exc =>
    refine wp_markIfFatal (Agrees.ended (Agrees.noteFatal ?_ exc) rfl _)
    refine h.agrees.neutral ⟨_, r⟩ ?_ rfl
    simp [initializedStep, hres, Except.isOk, Except.toBool]
  | ok u =>
    obtain ⟨hsame, hopen⟩ := sameProducer_runCallbacks p r.callbacks
    refine Agrees.ended (i := .initTransactions) ?_ rfl _
    refine h.agrees.step ⟨_, r⟩ hsame.producer hsame.transactional ?_ ?_ hopen ?_
    · intro hf
      rw [MutationProducer.fatal, hfatal] at hf
      cases hf
    · simp [initializedStep, hres, Except.isOk, Except.toBool]
    · exact fun _ => ⟨hsame.transactional.trans htransactional, rfl⟩

/-- The transaction calls that raise leave the transaction as it was. -/
theorem Agrees.failed (h : Agrees t p marks) {c : Call} (r : Response c) (exc : PyExc)
    (hres : r.result = .error exc) :
    Agrees t (HasCallbacks.runCallbacks r.callbacks p) (marks ++ [.event ⟨c, r⟩]) := by
  refine h.neutral ⟨c, r⟩ ?_ ?_
  · unfold initializedStep
    split
    · rename_i heq
      cases heq
      simp [hres, Except.isOk, Except.toBool]
    · rfl
  · unfold unresolvedStep
    split <;> try rfl
    all_goals
      rename_i heq
      cases heq
      simp [hres, Except.isOk, Except.toBool]

theorem wp_beginTransaction (h : Started t .beginTransaction p marks) :
    Proc.wp (recorder (LegalMark t)) beginTransaction (Ended t .beginTransaction) p marks := by
  unfold beginTransaction
  refine wp_requireTransactional_bind ?_ fun _ _ _ => h.raises rfl _
  intro handle hproducer hfatal htransactional hinit
  rw [Proc.wp_get_bind, wp_raiseIf_bind]
  split
  · exact h.raises rfl _
  rename_i hopen
  have hinit' : p.txnInitialized = true := hinit (by decide)
  have hnot : p.txnOpen = false := Bool.eq_false_iff.2 hopen
  rw [Proc.wp_bind, Proc.wp_tryCatch]
  refine h.wp_call hproducer hfatal
    ⟨h.agrees.initialized.symm.trans hinit', h.agrees.unresolved.symm.trans hnot⟩ ?_
  intro r
  cases hres : r.result with
  | error exc =>
    exact wp_markIfFatal (((h.agrees.failed r exc hres).noteFatal exc).ended rfl _)
  | ok u =>
    obtain ⟨hsame, -⟩ := sameProducer_runCallbacks p r.callbacks
    refine Agrees.ended (i := .beginTransaction) ?_ rfl _
    refine h.agrees.step ⟨_, r⟩ hsame.producer hsame.transactional ?_ hsame.txnInitialized ?_ ?_
    · intro hf
      rw [MutationProducer.fatal, hfatal] at hf
      cases hf
    · simp [unresolvedStep, hres, Except.isOk, Except.toBool]
    · exact fun _ => ⟨hsame.transactional.trans htransactional, hsame.txnInitialized.trans hinit'⟩

/-- A commit or abort that succeeds. -/
theorem Agrees.resolved (h : Agrees t p marks) {c : Call} (r : Response c)
    (hopen : unresolvedStep p.txnOpen (.event ⟨c, r⟩) = false)
    (hinit : initializedStep p.txnInitialized (.event ⟨c, r⟩) = p.txnInitialized) :
    Agrees t (HasCallbacks.runCallbacks r.callbacks p).endTransaction
      (marks ++ [.event ⟨c, r⟩]) := by
  obtain ⟨hsame, -⟩ := sameProducer_runCallbacks p r.callbacks
  have hfatal := fatal_runCallbacks p r.callbacks
  refine h.step ⟨c, r⟩ hsame.producer hsame.transactional ?_ (hsame.txnInitialized.trans hinit.symm)
    hopen.symm (fun hready => nomatch hready)
  intro hf
  show (HasCallbacks.runCallbacks r.callbacks p : MutationProducer).fatalFlag = true
  rw [hfatal, show p.fatalFlag = true from hf, Bool.true_or]

theorem wp_commitTransaction (h : Started t .commitTransaction p marks) :
    Proc.wp (recorder (LegalMark t)) commitTransaction (Ended t .commitTransaction) p marks := by
  unfold commitTransaction
  refine wp_requireTransactional_bind ?_ fun _ _ _ => h.raises rfl _
  intro handle hproducer hfatal _ _
  rw [Proc.wp_get_bind, wp_raiseIf_bind]
  split
  · exact h.raises rfl _
  rename_i hopen
  have hopen' : p.txnOpen = true := by simpa using hopen
  rw [Proc.wp_bind, Proc.wp_tryCatch]
  refine h.wp_call hproducer hfatal (h.agrees.unresolved.symm.trans hopen') ?_
  intro r
  cases hres : r.result with
  | error exc =>
    exact wp_markIfFatal (((h.agrees.failed r exc hres).noteFatal exc).ended rfl _)
  | ok u =>
    refine Agrees.ended (i := .commitTransaction) (h.agrees.resolved r ?_ rfl) rfl _
    simp [unresolvedStep, hres, Except.isOk, Except.toBool]

theorem wp_abortTransaction (h : Started t .abortTransaction p marks) :
    Proc.wp (recorder (LegalMark t)) abortTransaction (Ended t .abortTransaction) p marks := by
  unfold abortTransaction
  refine wp_requireTransactional_bind ?_ fun _ _ _ => h.raises rfl _
  intro handle hproducer hfatal _ _
  rw [Proc.wp_get_bind, wp_raiseIf_bind]
  split
  · exact h.raises rfl _
  rename_i hopen
  have hopen' : p.txnOpen = true := by simpa using hopen
  rw [Proc.wp_bind, Proc.wp_tryCatch]
  refine h.wp_call hproducer hfatal (h.agrees.unresolved.symm.trans hopen') ?_
  intro r
  cases hres : r.result with
  | error exc => exact (h.agrees.failed r exc hres).setFatal.ended rfl _
  | ok u =>
    refine Agrees.ended (i := .abortTransaction) (h.agrees.resolved r ?_ rfl) rfl _
    simp [unresolvedStep, hres, Except.isOk, Except.toBool]

theorem wp_produce (topic : String) (record : FDBMutationRecord) (key : Option Bytes)
    (h : Started t (.produce topic record key) p marks) :
    Proc.wp (recorder (LegalMark t)) (produce topic record key)
      (Ended t (.produce topic record key)) p marks := by
  unfold produce
  rw [Proc.wp_get_bind]
  cases hproducer : p.producer with
  | none => exact h.raises rfl _
  | some handle =>
    simp only
    rw [wp_raiseIf_bind]
    split
    · exact h.raises rfl _
    rename_i hfatal
    rw [wp_raiseIf_bind]
    split
    · exact h.raises rfl _
    rename_i htxn
    have hnotFatal : p.fatalFlag = false := Bool.eq_false_iff.2 hfatal
    split
    · exact h.raises rfl _
    rw [Proc.wp_bind]
    refine h.wp_call hproducer hnotFatal ?_ ?_
    · intro ht
      rw [← h.agrees.unresolved]
      rw [h.agrees.transactional, ht] at htxn
      simpa using htxn
    intro r
    have hagrees := h.agrees.neutral ⟨.kafka (.produce handle topic record.serializeToString key), r⟩
      rfl rfl
    cases hres : r.result with
    | error exc => exact hagrees.ended rfl _
    | ok u =>
      refine wp_call trivial ?_ ?_ ?_
      · -- no callback runs in `produce` itself
        intro hserved hf
        have hnone : r.callbacks = [] := by
          by_contra hne
          have hserves := hserved ⟨_, r⟩ (by simp) hne
          cases hserves
        rw [fatalNow_concat, fatalStep, hnone, h.fatal, MutationProducer.fatal, hnotFatal] at hf
        cases hf
      · rw [closeEnded_event]
        refine h.agrees.not_closeEnded ?_
        rw [MutationProducer.closed, hproducer]
        rfl
      · intro r'
        exact (hagrees.neutral ⟨_, r'⟩ rfl rfl).ended rfl _

theorem wp_flush (timeout : ℚ) (h : Started t i p marks) :
    Proc.wp (recorder (LegalMark t)) (flush timeout) (fun _ => Agrees t) p marks := by
  unfold flush
  rw [Proc.wp_get_bind]
  cases hproducer : p.producer with
  | none => exact h.agrees
  | some handle =>
    simp only
    rw [wp_raiseIf_bind]
    split
    · exact h.agrees
    rename_i hfatal
    rw [Proc.wp_bind]
    refine h.wp_call hproducer (Bool.eq_false_iff.2 hfatal) trivial ?_
    intro r
    have hagrees := h.agrees.neutral ⟨.kafka (.flush handle timeout), r⟩ rfl rfl
    cases hres : r.result with
    | error exc => exact hagrees
    | ok remaining =>
      rw [Proc.andThen, Proc.wp_get_bind]
      split <;> exact hagrees

theorem wp_flushOrRaise (timeout : ℚ) (h : Started t i p marks) :
    Proc.wp (recorder (LegalMark t)) (flushOrRaise timeout) (fun _ => Agrees t) p marks := by
  unfold flushOrRaise
  refine Proc.wp_bind_of (wp_flush timeout h) ?_ fun _ _ _ hagrees => hagrees
  intro remaining p' marks' hagrees
  rw [wp_raiseIf]
  split <;> exact hagrees

theorem wp_length (h : Started t i p marks) :
    Proc.wp (recorder (LegalMark t)) length (fun _ => Agrees t) p marks := by
  unfold length
  rw [Proc.wp_get_bind]
  cases hproducer : p.producer with
  | none => exact h.agrees
  | some handle =>
    simp only
    rw [wp_raiseIf_bind]
    split
    · exact h.agrees
    rename_i hfatal
    refine h.wp_call hproducer (Bool.eq_false_iff.2 hfatal) trivial ?_
    exact fun r => h.agrees.neutral ⟨.kafka (.queueLength handle), r⟩ rfl rfl

/-! ## Closing -/

/-- What holds until `close` drops the native producer. -/
structure Closing (t : Bool) (p : MutationProducer) (marks : List ProducerMark) : Prop where
  agrees : Agrees t p marks
  running : (running marks).any ProducerMethod.isClose = true
  live : p.closed = false

theorem Closing.wp_call (h : Closing t p marks) {c : KafkaCall}
    {Q : Except PyExc (Call.kafka c).Value → MutationProducer → List ProducerMark → Prop}
    (hlegal : LegalCall t marks (.kafka c))
    (hQ : ∀ r : Response (.kafka c), Q r.result (HasCallbacks.runCallbacks r.callbacks p)
      (marks ++ [.event ⟨.kafka c, r⟩])) :
    Proc.wp (recorder (LegalMark t)) (native (.kafka c)) Q p marks :=
  ProducerMark.wp_call hlegal (fun _ _ => h.running) (h.agrees.not_closeEnded h.live) hQ

theorem Closing.event (h : Closing t p marks) (e : Event Response)
    (hagrees : Agrees t p' (marks ++ [.event e])) (hproducer : p'.producer = p.producer) :
    Closing t p' (marks ++ [.event e]) where
  agrees := hagrees
  running := by
    rw [running_event]
    exact h.running
  live := by
    rw [MutationProducer.closed, hproducer]
    exact h.live

/-- A call in `close` that does not concern the transactions. -/
theorem Closing.preserves {c : KafkaCall} (hlegal : ∀ marks, LegalCall t marks (.kafka c))
    (hinit : ∀ b r, initializedStep b (.event ⟨.kafka c, r⟩) = b)
    (hopen : ∀ b r, unresolvedStep b (.event ⟨.kafka c, r⟩) = b) :
    Proc.Preserves (recorder (LegalMark t)) (Closing t)
      (native (.kafka c) : Py MutationProducer (Call.kafka c).Value) := by
  intro p marks h
  refine h.wp_call (hlegal marks) fun r => ?_
  exact h.event _ (h.agrees.neutral ⟨_, r⟩ (hinit _ r) (hopen _ r))
    (sameProducer_runCallbacks p r.callbacks).1.producer

theorem preserves_flush (handle : Handle) (timeout : ℚ) :
    Proc.Preserves (recorder (LegalMark t)) (Closing t)
      (native (.kafka (.flush handle timeout)) : Py MutationProducer ℕ) :=
  Closing.preserves (fun _ => trivial) (fun _ _ => rfl) (fun _ _ => rfl)

theorem preserves_queueLength (handle : Handle) :
    Proc.Preserves (recorder (LegalMark t)) (Closing t)
      (native (.kafka (.queueLength handle)) : Py MutationProducer ℕ) :=
  Closing.preserves (fun _ => trivial) (fun _ _ => rfl) (fun _ _ => rfl)

theorem preserves_purge (handle : Handle) :
    Proc.Preserves (recorder (LegalMark t)) (Closing t)
      (native (.kafka (.purge handle)) : Py MutationProducer Unit) :=
  Closing.preserves (fun _ => trivial) (fun _ _ => rfl) (fun _ _ => rfl)

theorem wp_closeTransaction (handle : Handle) (timeout : ℚ) (h : Closing t p marks) :
    Proc.wp (recorder (LegalMark t)) (closeTransaction handle timeout)
      (fun r p' marks' => r = .ok () ∧ Closing t p' marks') p marks := by
  unfold closeTransaction
  rw [Proc.wp_get_bind, Proc.wp_when]
  split
  · rename_i hopen
    rw [Bool.and_eq_true] at hopen
    rw [Proc.wp_tryCatch, Proc.wp_bind]
    refine h.wp_call (h.agrees.unresolved.symm.trans hopen.2) fun r => ?_
    obtain ⟨hsame, -⟩ := sameProducer_runCallbacks p r.callbacks
    have hfatal := fatal_runCallbacks p r.callbacks
    cases hres : r.result with
    | error exc => exact ⟨rfl, h.event _ (h.agrees.failed r exc hres) hsame.producer⟩
    | ok u =>
      refine ⟨rfl, h.event _ ?_ hsame.producer⟩
      refine h.agrees.step ⟨_, r⟩ hsame.producer hsame.transactional ?_ hsame.txnInitialized ?_
        (fun hready => nomatch hready)
      · intro hf
        show (HasCallbacks.runCallbacks r.callbacks p : MutationProducer).fatalFlag = true
        rw [hfatal, show p.fatalFlag = true from hf, Bool.true_or]
      · simp [unresolvedStep, hres, Except.isOk, Except.toBool]
  · exact ⟨rfl, h⟩

theorem wp_closeFlush (handle : Handle) (timeout : ℚ) (h : Closing t p marks) :
    Proc.wp (recorder (LegalMark t)) (closeFlush handle timeout)
      (fun r p' marks' => (∃ a, r = .ok a) ∧ Closing t p' marks') p marks := by
  unfold closeFlush
  rw [Proc.wp_bind, Proc.wp_attempt]
  refine Proc.wp_mono (preserves_flush handle timeout p marks h) ?_
  intro r p₁ marks₁ h₁
  rw [Proc.andThen]
  cases r with
  | ok undelivered => exact ⟨⟨_, rfl⟩, h₁⟩
  | error exc =>
    simp only
    rw [Proc.wp_bind, Proc.wp_attempt]
    refine Proc.wp_mono (preserves_queueLength handle p₁ marks₁ h₁) ?_
    intro r p₂ marks₂ h₂
    rw [Proc.andThen]
    cases r with
    | ok undelivered => exact ⟨⟨_, rfl⟩, h₂⟩
    | error exc => exact ⟨⟨_, rfl⟩, h₂⟩

theorem wp_closePurge (handle : Handle) (timeout : ℚ) (h : Closing t p marks) :
    Proc.wp (recorder (LegalMark t)) (closePurge handle timeout)
      (fun r p' marks' => r = .ok () ∧ Closing t p' marks') p marks := by
  unfold closePurge
  rw [Proc.wp_tryCatch, Proc.wp_bind]
  refine Proc.wp_mono (preserves_purge handle p marks h) ?_
  intro r p₁ marks₁ h₁
  cases r with
  | error exc => exact ⟨rfl, h₁⟩
  | ok u =>
    rw [Proc.andThen, Proc.wp_bind]
    refine Proc.wp_mono (preserves_flush handle timeout p₁ marks₁ h₁) ?_
    intro r p₂ marks₂ h₂
    cases r with
    | ok n => exact ⟨rfl, h₂⟩
    | error exc => exact ⟨rfl, h₂⟩

/-- The native producer goes, and the wrapper is closed. -/
theorem wp_dropProducer (handle : Handle) (h : Closing t p marks) :
    Proc.wp (recorder (LegalMark t)) (do
        modify fun p => { p with producer := none }
        native (.kafka (.dropProducer handle)) : Py MutationProducer Unit)
      (fun r p' marks' => Agrees t p' marks' ∧ r = .ok () ∧ p'.closed = true) p marks := by
  rw [Proc.wp_modify_bind]
  refine ProducerMark.wp_call trivial (fun _ _ => h.running) (h.agrees.not_closeEnded h.live) ?_
  intro r
  obtain ⟨u, hok⟩ := r.returns rfl
  have hdropped : Agrees t { p with producer := none } marks :=
    ⟨h.agrees.transactional, h.agrees.initialized, h.agrees.unresolved, h.agrees.ready,
      h.agrees.persists.mono id fun _ => rfl, fun _ => rfl⟩
  refine ⟨hdropped.neutral ⟨_, r⟩ rfl rfl, hok, ?_⟩
  have hnone := runCallbacks_closed (p := { p with producer := none }) rfl r.callbacks
  exact Option.isNone_iff_eq_none.2 hnone

theorem wp_close (timeout : ℚ) (h : Started t (.close timeout) p marks) :
    Proc.wp (recorder (LegalMark t)) (close timeout) (Ended t (.close timeout)) p marks := by
  have hended : ∀ {r p' marks'}, (Agrees t p' marks' ∧ r = .ok () ∧ p'.closed = true) →
      Ended t (.close timeout) r p' marks' := fun h' => ⟨h'.1, fun _ => h'.2⟩
  unfold close
  rw [Proc.wp_get_bind]
  cases hproducer : p.producer with
  | none => exact ⟨h.agrees, fun _ => ⟨rfl, Option.isNone_iff_eq_none.2 hproducer⟩⟩
  | some handle =>
    have hclosing : Closing t p marks := by
      refine ⟨h.agrees, ?_, ?_⟩
      · rw [h.running]
        rfl
      · rw [MutationProducer.closed, hproducer]
        rfl
    simp only
    refine Proc.wp_bind_of (wp_closeTransaction handle timeout hclosing) ?_ ?_
    · rintro _ p₁ marks₁ ⟨-, h₁⟩
      refine Proc.wp_bind_of (wp_closeFlush handle timeout h₁) ?_ ?_
      · rintro ⟨undelivered, failed⟩ p₂ marks₂ ⟨-, h₂⟩
        have hdrop : ∀ {p₃ marks₃}, Closing t p₃ marks₃ → _ := fun {p₃ marks₃} h₃ =>
          Proc.wp_mono (wp_dropProducer handle h₃)
            fun _ _ _ h' => hended h'
        rw [Proc.wp_bind, Proc.wp_when]
        split
        · refine Proc.wp_mono (wp_closePurge handle timeout h₂) ?_
          rintro _ p₃ marks₃ ⟨rfl, h₃⟩
          exact hdrop h₃
        · exact hdrop h₂
      · rintro _ p₂ marks₂ ⟨⟨_, hok⟩, -⟩
        cases hok
    · rintro _ p₁ marks₁ ⟨hok, -⟩
      cases hok

/-! ## Runs -/

theorem perform_keeps (i : ProducerMethod) :
    MethodKeeps (LegalMark t) (Agrees t) MutationProducer.perform i := by
  refine methodKeeps_of_wp fun p marks h => ?_
  cases i with
  | initTransactions => exact wp_initTransactions h
  | beginTransaction => exact wp_beginTransaction h
  | produce topic record key => exact wp_produce topic record key h
  | flush timeout =>
    refine Proc.wp_bind_of (wp_flush timeout h) ?_ ?_
    · exact fun _ _ _ hagrees => Agrees.ended hagrees rfl _
    · exact fun _ _ _ hagrees => Agrees.ended hagrees rfl _
  | flushOrRaise timeout =>
    exact Proc.wp_mono (wp_flushOrRaise timeout h) fun _ _ _ hagrees => hagrees.ended rfl _
  | commitTransaction => exact wp_commitTransaction h
  | abortTransaction => exact wp_abortTransaction h
  | markFatal => exact h.agrees.setFatal.ended rfl _
  | length =>
    refine Proc.wp_bind_of (wp_length h) ?_ ?_
    · exact fun _ _ _ hagrees => Agrees.ended hagrees rfl _
    · exact fun _ _ _ hagrees => Agrees.ended hagrees rfl _
  | close timeout => exact wp_close timeout h

end Methods

end ProducerMark

end FdbKafkaBridge
