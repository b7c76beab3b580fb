import FdbKafkaBridge.Kafka.Producer

/-!
# The guards and the callbacks of `MutationProducer`

What the callbacks that run during a native call can change, and how a method that raises by itself
does so. All of it holds for any monitor of the native calls.
-/

namespace FdbKafkaBridge

open Interaction

/-! ## Callbacks -/

/-- What no callback and no method but `close` and `init_transactions` changes. -/
structure SameProducer (p p' : MutationProducer) : Prop where
  producer : p'.producer = p.producer
  transactional : p'.transactional = p.transactional
  txnInitialized : p'.txnInitialized = p.txnInitialized

theorem SameProducer.refl (p : MutationProducer) : SameProducer p p := ⟨rfl, rfl, rfl⟩

theorem SameProducer.trans {p p' p'' : MutationProducer} (h : SameProducer p p')
    (h' : SameProducer p' p'') : SameProducer p p'' :=
  ⟨h'.producer.trans h.producer, h'.transactional.trans h.transactional,
    h'.txnInitialized.trans h.txnInitialized⟩

/-- An `error_cb` about a fatal error. -/
def Callback.isFatal : Callback → Bool
  | .error err => err.fatal
  | .delivery _ => false

/-- The error of a failed delivery. -/
def Callback.deliveryError : Callback → Option KafkaError
  | .error _ => none
  | .delivery err => err

/-- What one callback does to the wrapper. -/
theorem runCallback_spec (p : MutationProducer) (c : Callback) :
    SameProducer p (p.runCallback c) ∧ (p.runCallback c).txnOpen = p.txnOpen ∧
      (p.runCallback c).fatalFlag = (p.fatalFlag || c.isFatal) ∧
      (p.runCallback c).deliveryErrors = p.deliveryErrors ++ c.deliveryError.toList := by
  cases c with
  | error err =>
    simp only [MutationProducer.runCallback]
    by_cases hfatal : err.fatal = true
    · rw [if_pos hfatal]
      exact ⟨⟨rfl, rfl, rfl⟩, rfl, by simp [Callback.isFatal, hfatal],
        (List.append_nil _).symm⟩
    · rw [if_neg hfatal]
      exact ⟨⟨rfl, rfl, rfl⟩, rfl, by simp [Callback.isFatal, hfatal],
        (List.append_nil _).symm⟩
  | delivery err =>
    cases err with
    | none => exact ⟨⟨rfl, rfl, rfl⟩, rfl, (Bool.or_false _).symm, (List.append_nil _).symm⟩
    | some err => exact ⟨⟨rfl, rfl, rfl⟩, rfl, (Bool.or_false _).symm, rfl⟩

theorem sameProducer_runCallbacks (p : MutationProducer) (callbacks : List Callback) :
    SameProducer p (HasCallbacks.runCallbacks callbacks p) ∧
      (HasCallbacks.runCallbacks callbacks p : MutationProducer).txnOpen = p.txnOpen := by
  induction callbacks generalizing p with
  | nil => exact ⟨SameProducer.refl p, rfl⟩
  | cons c callbacks ih =>
    obtain ⟨hone, hopen₁, -, -⟩ := runCallback_spec p c
    obtain ⟨hsame, hopen⟩ := ih (p.runCallback c)
    exact ⟨hone.trans hsame, hopen.trans hopen₁⟩

theorem fatal_runCallbacks (p : MutationProducer) (callbacks : List Callback) :
    (HasCallbacks.runCallbacks callbacks p : MutationProducer).fatalFlag =
      (p.fatalFlag || callbacks.any Callback.isFatal) := by
  induction callbacks generalizing p with
  | nil => exact (Bool.or_false _).symm
  | cons c callbacks ih =>
    obtain ⟨-, -, hfatal, -⟩ := runCallback_spec p c
    have hrest := ih (p.runCallback c)
    rw [hfatal, Bool.or_assoc] at hrest
    exact hrest

theorem deliveryErrors_runCallbacks (p : MutationProducer) (callbacks : List Callback) :
    (HasCallbacks.runCallbacks callbacks p : MutationProducer).deliveryErrors =
      p.deliveryErrors ++ callbacks.filterMap Callback.deliveryError := by
  induction callbacks generalizing p with
  | nil => exact (List.append_nil _).symm
  | cons c callbacks ih =>
    obtain ⟨-, -, -, herrors⟩ := runCallback_spec p c
    have hrest := ih (p.runCallback c)
    rw [herrors, List.append_assoc] at hrest
    refine hrest.trans ?_
    rw [List.filterMap_cons]
    cases c.deliveryError <;> rfl

theorem runCallbacks_closed {p : MutationProducer} (h : p.producer = none)
    (callbacks : List Callback) :
    (HasCallbacks.runCallbacks callbacks p : MutationProducer).producer = none :=
  (sameProducer_runCallbacks p callbacks).1.producer.trans h

theorem runCallbacks_append (p : MutationProducer) (cs cs' : List Callback) :
    HasCallbacks.runCallbacks cs' (HasCallbacks.runCallbacks cs p) =
      HasCallbacks.runCallbacks (cs ++ cs') p :=
  (List.foldl_append).symm

/-! ## Guards -/

namespace MutationProducer

variable {μ : Type} {M : Monitor Response μ} {p : MutationProducer} {m : μ}

theorem sameProducer_fatal (p : MutationProducer) (exc : PyExc) :
    SameProducer p (if isFatalKafkaError exc then p.setFatal else p) ∧
      (if isFatalKafkaError exc then p.setFatal else p).txnOpen = p.txnOpen := by
  split <;> exact ⟨⟨rfl, rfl, rfl⟩, rfl⟩

theorem wp_markIfFatal {exc : PyExc} {Q : Except PyExc Unit → MutationProducer → μ → Prop}
    (h : Q (.error exc) (if isFatalKafkaError exc then p.setFatal else p) m) :
    Proc.wp M (markIfFatal exc) Q p m := by
  unfold markIfFatal
  rw [Proc.wp_bind, Proc.wp_when]
  by_cases hfatal : isFatalKafkaError exc = true
  · rw [if_pos hfatal] at h ⊢
    exact h
  · rw [if_neg hfatal] at h ⊢
    exact h

/-- The ends of the texts that `_require_transactional` raises. -/
def requireMessages : List String :=
  [" cannot proceed: producer is closed", " cannot proceed: producer is in a fatal error state",
    " requires a transactional_id", " requires init_transactions() to be called first"]

/-- `_require_transactional` of a method makes no call. It fails only if the producer is closed, or
fatal, or not set up for transactions. -/
theorem wp_requireTransactional_bind {α : Type} {f : Handle → Py MutationProducer α}
    {method : String} {Q : Except PyExc α → MutationProducer → μ → Prop}
    (hok : ∀ h, p.producer = some h → p.fatalFlag = false → p.transactional = true →
      (method ≠ "init_transactions" → p.txnInitialized = true) → Proc.wp M (f h) Q p m)
    (herror : ∀ suffix ∈ requireMessages, (p.producer = none ∨ p.fatalFlag = true ∨
      p.transactional = false ∨ p.txnInitialized = false) →
      Q (.error (.runtimeError (method ++ suffix))) p m) :
    Proc.wp M (requireTransactional method >>= f) Q p m := by
  rw [Proc.wp_bind]
  unfold requireTransactional
  rw [Proc.wp_get_bind]
  cases hp : p.producer with
  | none => exact herror _ (by simp [requireMessages]) (.inl hp)
  | some h =>
    simp only
    rw [wp_raiseIf_bind]
    by_cases hfatal : p.fatal = true
    · rw [if_pos hfatal]
      exact herror _ (by simp [requireMessages]) (.inr (.inl hfatal))
    rw [if_neg hfatal, wp_raiseIf_bind]
    by_cases htrans : p.transactional = true
    · rw [if_neg (by simp [htrans]), wp_raiseIf_bind]
      split
      · rename_i hinit
        have hinit' : p.txnInitialized = false := by
          rw [Bool.and_eq_true] at hinit
          simpa using hinit.2
        exact herror _ (by simp [requireMessages]) (.inr (.inr (.inr hinit')))
      · rename_i hinit
        refine hok h hp (Bool.eq_false_iff.2 hfatal) htrans fun hne => ?_
        simpa [hne] using hinit
    · rw [if_pos (by simp [htrans])]
      exact herror _ (by simp [requireMessages]) (.inr (.inr (.inl (Bool.eq_false_iff.2 htrans))))

/-! ## Closing -/

/-- The calls that `close` makes. -/
def isClosingCall : KafkaCall → Bool
  | .abortTransaction .. => true
  | .flush .. => true
  | .purge _ => true
  | .queueLength _ => true
  | .dropProducer _ => true
  | _ => false

theorem preserves_close_of {I : MutationProducer → μ → Prop}
    (hcall : ∀ c, isClosingCall c = true →
      Proc.Preserves M I (native (.kafka c) : Py MutationProducer (Call.kafka c).Value))
    (htxn : ∀ p m, I p m → I { p with txnOpen := false } m)
    (hproducer : ∀ p m, I p m → I { p with producer := none } m) (timeout : ℚ) :
    Proc.Preserves M I (close timeout) := by
  refine Proc.preserves_get.bind fun p => ?_
  cases p.producer with
  | none => exact Proc.preserves_pure _
  | some handle =>
    refine Proc.Preserves.bind ?_ fun _ => Proc.Preserves.bind ?_ fun _ =>
      Proc.Preserves.bind ?_ fun _ => Proc.Preserves.bind ?_ fun _ => hcall (.dropProducer _) rfl
    · refine Proc.preserves_get.bind fun p => Proc.Preserves.when ?_ _
      refine Proc.Preserves.tryCatch ?_ fun _ => Proc.preserves_pure _
      exact (hcall (.abortTransaction _ _) rfl).bind fun _ => Proc.preserves_modify htxn
    · have hflush := hcall (.flush handle timeout) rfl
      refine hflush.attempt.bind fun r => ?_
      cases r with
      | ok undelivered => exact Proc.preserves_pure _
      | error exc =>
        have hlength := hcall (.queueLength handle) rfl
        refine hlength.attempt.bind fun r => ?_
        cases r <;> exact Proc.preserves_pure _
    · refine Proc.Preserves.when (Proc.Preserves.tryCatch ?_ fun _ => Proc.preserves_pure _) _
      refine (hcall (.purge _) rfl).bind fun _ => ?_
      exact (hcall (.flush _ _) rfl).bind fun _ => Proc.preserves_pure _
    · exact Proc.preserves_modify hproducer

/-! ## The constructor -/

/-- A new wrapper, for the native producer `h`. -/
def fresh (h : Handle) (transactional : Bool) : MutationProducer :=
  ⟨some h, [], transactional, false, false, false⟩

theorem new_returns {σ : Type} [HasCallbacks σ] {transactionalId : Option String} {s s' : σ}
    {tr : List (Event Response)}
    (h : (new transactionalId s).Returns tr (.ok p, s')) :
    ∃ h, p = fresh h transactionalId.isSome := by
  have hwp : Proc.wp Monitor.free (new transactionalId)
      (fun r _ _ => ∀ p, r = .ok p → ∃ h, p = fresh h transactionalId.isSome) s () := by
    unfold new
    rw [wp_raiseIf_bind]
    split
    · rintro p ⟨⟩
    rw [Proc.wp_bind, wp_native]
    intro r
    refine ⟨(), rfl, ?_⟩
    cases r.result with
    | error exc =>
      rintro p ⟨⟩
    | ok handle =>
      rintro p ⟨⟩
      exact ⟨handle, rfl⟩
  obtain ⟨_, -, hfresh⟩ := hwp.of_returns h
  exact hfresh p rfl

end MutationProducer

end FdbKafkaBridge
