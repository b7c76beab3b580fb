import FdbKafkaBridge.Cdc.Proofs.ClientProofs

/-!
# Starting a listener

Whatever watches the native calls, a listener starts the same way: lookups, one call that makes the
consumer, and for a resumed consumer one acknowledgement that restores its position. `Startable`
says what an invariant has to survive for that.
-/

namespace FdbKafkaBridge

open Protobuf (Bytes)
open Interaction

variable {μ : Type} {M : Monitor Response μ}

/-- The invariant, with the listener as it is. -/
def Fixed (I : ListenerState → μ → Prop) (l : FDBMutationListener) (s : ListenerState) (m : μ) :
    Prop :=
  I s m ∧ s.listener = l

theorem ListenerStable.fixed {I : ListenerState → μ → Prop} (hI : ListenerStable M I)
    (l : FDBMutationListener) : ListenerStable M (Fixed I l) where
  lookup c hc := by
    rintro s m ⟨hs, hl⟩ r
    obtain ⟨m', hnext, hs'⟩ := hI.lookup c hc s m hs r
    exact ⟨m', hnext, hs', hl⟩
  client s m client h := ⟨hI.client s m client h.1, h.2⟩

namespace FDBMutationListener

/-! ## The listener but for its consumer -/

def SameBut (l l' : FDBMutationListener) : Prop := l' = { l with consumer := l'.consumer }

theorem SameBut.refl (l : FDBMutationListener) : SameBut l l := rfl

/-- The listener, at most with a consumer that it did not have. -/
structure Activated (l l' : FDBMutationListener) : Prop where
  same : SameBut l l'
  kept : l.consumer.isSome = true → l' = l

theorem Activated.refl (l : FDBMutationListener) : Activated l l := ⟨rfl, fun _ => rfl⟩

/-! ## What has to survive -/

/-- `I restoring` survives what happens while a listener with this cursor is started. The consumer
`restoring` was resumed and has its position yet to be restored. `Ready` holds once the consumer may
be used. -/
structure Startable (M : Monitor Response μ) (cursor : Option PyCursor)
    (I : Option Handle → ListenerState → μ → Prop) (Ready : μ → Prop) : Prop where
  stable : ∀ restoring, ListenerStable M (I restoring)
  consumer : ∀ restoring s m consumer, I restoring s m → I restoring (s.setConsumer consumer) m
  create : ∀ restoring s m name, I restoring s m → ∀ r : Response (.fdb (.createCdcConsumer name)),
    ∃ m', M.next m ⟨_, r⟩ = some m' ∧ I none (HasCallbacks.runCallbacks r.callbacks s) m' ∧
      ∀ h, r.result = .ok h → Ready m'
  resume : ∀ restoring s m c, cursor = some c → I restoring s m →
    ∀ r : Response (.fdb (.resumeCdcConsumer c)), ∃ m', M.next m ⟨_, r⟩ = some m' ∧
      I r.result.toOption (HasCallbacks.runCallbacks r.callbacks s) m'
  restore : ∀ s m h, I (some h) s m → ∀ r : Response (.fdb (.acknowledge h)),
    ∃ m', M.next m ⟨_, r⟩ = some m' ∧ I none (HasCallbacks.runCallbacks r.callbacks s) m' ∧
      (r.result = .ok () → Ready m')
  close : ∀ restoring s m h, I restoring s m → ∀ r : Response (.fdb (.closeConsumer h)),
    ∃ m', M.next m ⟨_, r⟩ = some m' ∧ I none (HasCallbacks.runCallbacks r.callbacks s) m'

/-- What the parts of `start` leave behind. -/
def Started (I : Option Handle → ListenerState → μ → Prop) (Ready : μ → Prop)
    (l : FDBMutationListener) (r : Except PyExc Unit) (s : ListenerState) (m : μ) : Prop :=
  (∃ restoring, I restoring s m) ∧ SameBut l s.listener ∧
    (r = .ok () → s.listener.consumer.isSome = true ∧ (l.consumer = none → Ready m))

section Start

variable {cursor : Option PyCursor} {I : Option Handle → ListenerState → μ → Prop}
  {Ready : μ → Prop} {restoring : Option Handle} {l : FDBMutationListener} {s : ListenerState} {m : μ}

theorem wp_createCdcConsumer (hI : Startable M cursor I Ready) (name : Bytes)
    (h : Fixed (I restoring) l s m) :
    Proc.wp M (onClient (FDBClient.createCdcConsumer name))
      (fun r s m => ∃ restoring, Fixed (I restoring) l s m ∧ ∀ h, r = .ok h → Ready m) s m := by
  rw [wp_onClient]
  refine FDBClient.wp_makeConsumer (((hI.stable restoring).fixed l).clientStable s) h
    (fun c m _ h => ⟨restoring, h, fun _ h => nomatch h⟩) ?_
  rintro c m ⟨hs, hl⟩ r
  obtain ⟨m', hnext, hs', hready⟩ := hI.create restoring _ m name hs r
  refine ⟨m', hnext, ?_⟩
  cases hres : r.result with
  | ok h => exact ⟨none, ⟨hs', hl⟩, fun _ _ => hready h hres⟩
  | error e => exact fun _ => ⟨none, ⟨hs', hl⟩, fun _ h => nomatch h⟩

/-- A resumed consumer is the one to be restored. -/
theorem wp_resumeCdcConsumer (hI : Startable M cursor I Ready) {c : PyCursor} (hc : cursor = some c)
    (h : Fixed (I restoring) l s m) :
    Proc.wp M (onClient (FDBClient.resumeCdcConsumer c))
      (fun r s m => ∃ restoring, Fixed (I restoring) l s m ∧
        ∀ h, r = .ok h → restoring = some h) s m := by
  rw [wp_onClient]
  unfold FDBClient.resumeCdcConsumer
  split
  · rw [wp_raiseIf_bind]
    split
    · exact ⟨restoring, h, fun _ h => nomatch h⟩
    rw [wp_raiseIf_bind]
    split
    · exact ⟨restoring, h, fun _ h => nomatch h⟩
    refine FDBClient.wp_makeConsumer (((hI.stable restoring).fixed l).clientStable s) h
      (fun c m _ h => ⟨restoring, h, fun _ h => nomatch h⟩) ?_
    rintro t m ⟨hs, hl⟩ r
    obtain ⟨m', hnext, hs'⟩ := hI.resume restoring _ m _ hc hs r
    refine ⟨m', hnext, ?_⟩
    cases hres : r.result with
    | ok consumer =>
      rw [hres] at hs'
      refine ⟨some consumer, ⟨hs', hl⟩, fun h heq => ?_⟩
      cases heq
      rfl
    | error e =>
      rw [hres] at hs'
      exact fun e' => ⟨none, ⟨hs', hl⟩, fun _ h => nomatch h⟩
  · exact ⟨restoring, h, fun _ h => nomatch h⟩

/-- The position of a resumed consumer is restored before anything is polled. -/
theorem wp_reconcileResumedConsumer (hI : Startable M cursor I Ready) (fuel : ℕ) (c : PyCursor)
    (consumer : Handle) (h : Fixed (I (some consumer)) l s m) :
    Proc.wp M (reconcileResumedConsumer fuel c consumer)
      (fun r s m => ∃ restoring, Fixed (I restoring) l s m ∧ (r = .ok () → Ready m)) s m := by
  have hstable := (hI.stable (some consumer)).fixed l
  have hfail : ∀ (e : PyExc) s m, Fixed (I (some consumer)) l s m → ∃ restoring,
      Fixed (I restoring) l s m ∧ ((.error e : Except PyExc Unit) = .ok () → Ready m) :=
    fun _ _ _ h => ⟨some consumer, h, fun h => nomatch h⟩
  unfold reconcileResumedConsumer
  refine Proc.wp_bind_of ((hstable.lookup _ rfl).preserves s m h) ?_ hfail
  intro now s m h
  rw [Proc.wp_get_bind]
  refine Proc.wp_bind_of (preserves_waitForReadVersion hstable _ _ fuel s m h) ?_ hfail
  rintro _ s m ⟨hs, hl⟩
  rw [Proc.wp_tryCatch, wp_native]
  intro r
  obtain ⟨m', hnext, hs', hready⟩ := hI.restore s m consumer hs r
  refine ⟨m', hnext, ?_⟩
  cases hres : r.result with
  | ok u => exact ⟨none, ⟨hs', hl⟩, fun _ => hready hres⟩
  | error e => exact ⟨none, ⟨hs', hl⟩, fun h => nomatch h⟩

theorem wp_dropConsumer (hI : Startable M cursor I Ready) (consumer : Handle) (exc : PyExc)
    (h : I restoring s m) (hl : SameBut l s.listener) :
    Proc.wp M (dropConsumer consumer exc) (Started I Ready l) s m := by
  unfold dropConsumer
  rw [Proc.wp_modify_bind, Proc.wp_bind, wp_native]
  intro r
  have hl' : SameBut l { s.listener with consumer := none } := by
    rw [SameBut] at hl ⊢
    rw [hl]
  obtain ⟨m', hnext, hs'⟩ := hI.close restoring _ m consumer (hI.consumer _ _ _ none h) r
  refine ⟨m', hnext, ?_⟩
  cases r.result with
  | ok u => exact ⟨⟨none, hs'⟩, hl', fun h => nomatch h⟩
  | error e => exact ⟨⟨none, hs'⟩, hl', fun h => nomatch h⟩

theorem wp_startConsumer (hI : Startable M s.listener.initialCursor I Ready) (fuel : ℕ)
    (h : I restoring s m) :
    Proc.wp M (startConsumer fuel) (Started I Ready s.listener) s m := by
  unfold startConsumer
  rw [Proc.wp_get_bind]
  simp only
  split
  · refine Proc.wp_bind_of (wp_createCdcConsumer hI _ ⟨h, rfl⟩) ?_ ?_
    · rintro consumer s' m ⟨restoring, ⟨hs, hl⟩, hready⟩
      refine ⟨⟨restoring, hI.consumer _ _ _ _ hs⟩, ?_, fun _ => ⟨rfl, fun _ => hready _ rfl⟩⟩
      rw [← hl]
      rfl
    · rintro e s' m ⟨restoring, ⟨hs, hl⟩, -⟩
      exact ⟨⟨restoring, hs⟩, by rw [hl]; rfl, fun h => nomatch h⟩
  · rename_i c hc
    refine Proc.wp_bind_of (wp_resumeCdcConsumer hI hc ⟨h, rfl⟩) ?_ ?_
    · rintro consumer s' m ⟨restoring, ⟨hs, hl⟩, hrestoring⟩
      rw [hrestoring consumer rfl] at hs
      rw [Proc.wp_modify_bind]
      have hreconcile := wp_reconcileResumedConsumer hI fuel c consumer
        ⟨hI.consumer _ _ _ (some consumer) hs, rfl⟩
      refine Proc.wp_tryCatch_of hreconcile ?_ ?_
      · rintro _ s'' m ⟨restoring, ⟨hs, hl'⟩, hready⟩
        refine ⟨⟨restoring, hs⟩, ?_, fun _ => ⟨?_, fun _ => hready rfl⟩⟩
        · rw [hl', ← hl]
          rfl
        · rw [hl']
          rfl
      · rintro e s'' m ⟨restoring, ⟨hs, hl'⟩, -⟩
        refine wp_dropConsumer hI consumer e hs ?_
        rw [hl', ← hl]
        rfl
    · rintro e s' m ⟨restoring, ⟨hs, hl⟩, -⟩
      exact ⟨⟨restoring, hs⟩, by rw [hl]; rfl, fun h => nomatch h⟩

theorem wp_start (hI : s.listener.consumer = none → Startable M s.listener.initialCursor I Ready)
    (fuel : ℕ) (h : I restoring s m) :
    Proc.wp M (start fuel) (Started I Ready s.listener) s m := by
  unfold start
  rw [Proc.wp_get_bind]
  simp only
  split
  · rename_i hstarted
    refine ⟨⟨restoring, h⟩, rfl, fun _ => ⟨hstarted, fun hnone => ?_⟩⟩
    rw [hnone] at hstarted
    cases hstarted
  rename_i hstarted
  have hnone : s.listener.consumer = none := by
    rwa [Bool.not_eq_true, Option.isSome_eq_false_iff, Option.isNone_iff_eq_none] at hstarted
  have hI' := hI hnone
  have hstable := (hI'.stable restoring).fixed s.listener
  have hfail : ∀ (e : PyExc) s' m', Fixed (I restoring) s.listener s' m' →
      Started I Ready s.listener (.error e) s' m' :=
    fun e s' m' h => ⟨⟨restoring, h.1⟩, by rw [h.2]; rfl, fun h => nomatch h⟩
  have hrun : ∀ s' m', Fixed (I restoring) s.listener s' m' →
      Proc.wp M (startConsumer fuel) (Started I Ready s.listener) s' m' := by
    rintro s' m' ⟨hs, hl⟩
    rw [← hl] at hI' ⊢
    exact wp_startConsumer hI' fuel hs
  rw [wp_raiseIf_bind]
  split
  · exact hfail _ s m ⟨h, rfl⟩
  refine Proc.wp_bind_of (preserves_onClient (fun t =>
    FDBClient.preserves_open (hstable.clientStable t)) s m ⟨h, rfl⟩) ?_ hfail
  intro _ s' m' h
  split
  · exact Proc.wp_bind_of (preserves_onClient (fun t =>
      FDBClient.preserves_registerCdcStream (hstable.clientStable t) _ _ _) s' m' h)
      (fun _ s' m' h => hrun s' m' h) hfail
  · exact hrun s' m' h

/-- The active consumer, on first access started. -/
theorem wp_getConsumer (hI : s.listener.consumer = none → s.listener.isClosed = false →
      Startable M s.listener.initialCursor I Ready) (fuel : ℕ) (h : I restoring s m) :
    Proc.wp M (getConsumer fuel) (fun r s' m' =>
      (∃ restoring, I restoring s' m') ∧ Activated s.listener s'.listener ∧
        ∀ h, r = .ok h → s'.listener.consumer = some h) s m := by
  unfold getConsumer
  rw [Proc.wp_get_bind, wp_raiseIf_bind]
  split
  · exact ⟨⟨restoring, h⟩, .refl _, fun _ h => nomatch h⟩
  rename_i hopen
  rw [Proc.wp_get_bind]
  have hstart : Proc.wp M (Proc.when s.listener.consumer.isNone (start fuel)) (fun _ s' m' =>
      (∃ restoring, I restoring s' m') ∧ Activated s.listener s'.listener) s m := by
    rw [Proc.wp_when]
    split
    · rename_i hnone
      have hI' := fun hc => hI hc (Bool.eq_false_iff.2 hopen)
      refine Proc.wp_mono (wp_start hI' fuel h) ?_
      rintro r s' m' ⟨hs, hl, -⟩
      refine ⟨hs, hl, fun hsome => ?_⟩
      rw [← Option.not_isNone, hnone] at hsome
      cases hsome
    · exact ⟨⟨restoring, h⟩, .refl _⟩
  refine Proc.wp_bind_of hstart ?_ ?_
  · rintro _ s' m' ⟨hs, hl⟩
    rw [Proc.wp_get_bind]
    cases hc : s'.listener.consumer with
    | none => exact ⟨hs, hl, fun _ h => nomatch h⟩
    | some consumer =>
      refine ⟨hs, hl, fun h heq => ?_⟩
      cases heq
      exact hc
  · rintro e s' m' ⟨hs, hl⟩
    exact ⟨hs, hl, fun _ h => nomatch h⟩

variable {J : ListenerState → μ → Prop}

theorem preserves_getConsumer (hJ : ∀ cursor, Startable M cursor (fun _ => J) Ready) (fuel : ℕ) :
    Proc.Preserves M J (getConsumer fuel) := by
  intro s m h
  have hstart : s.listener.consumer = none → s.listener.isClosed = false →
      Startable M s.listener.initialCursor (fun _ => J) Ready := fun _ _ => hJ s.listener.initialCursor
  have hget := @wp_getConsumer _ M (fun _ => J) Ready none s m hstart fuel h
  refine Proc.wp_mono hget ?_
  rintro r s' m' ⟨⟨_, h'⟩, -⟩
  exact h'

theorem preserves_onConsumeFailure {α : Type} (action : String) (exc : PyExc) :
    Proc.Preserves M J (onConsumeFailure action exc : Py ListenerState α) := by
  refine Proc.preserves_get.bind fun s => ?_
  exact Proc.Preserves.ite (Proc.preserves_throw _) (Proc.preserves_throw _)

theorem preserves_acknowledge (hJ : ∀ cursor, Startable M cursor (fun _ => J) Ready)
    (hawaiting : ∀ s m, J s m → J (s.setAwaitingAck false) m) (fuel : ℕ) :
    Proc.Preserves M J (acknowledge fuel) := by
  have hack : ∀ h, Survives M J (.fdb (.acknowledge h)) := fun h s m hs r =>
    let ⟨m', hnext, h', _⟩ := (hJ none).restore s m h hs r
    ⟨m', hnext, h'⟩
  refine Proc.preserves_get.bind fun s => ?_
  refine (preserves_raiseIf _ _).bind fun _ => ?_
  refine (preserves_raiseIf _ _).bind fun _ => ?_
  refine (preserves_raiseIf _ _).bind fun _ => ?_
  refine Proc.Preserves.bind ?_ fun _ => Proc.preserves_modify hawaiting
  refine Proc.Preserves.tryCatch ?_ fun exc => preserves_onConsumeFailure _ exc
  exact (preserves_getConsumer hJ fuel).bind fun consumer => (hack consumer).preserves

end Start

end FDBMutationListener

end FdbKafkaBridge
