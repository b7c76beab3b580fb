import FdbKafkaBridge.Cdc.Methods

/-!
# The listener protects its cumulative acknowledgement

The native acknowledgement covers whatever was consumed last. The three flags of the listener and its
consumer say what became of that reply, over any sequence of calls and however each of them ends.
-/

namespace FdbKafkaBridge

open Serialization (FDBMutationRecord)
open Interaction

namespace ListenerMark

open FDBMutationListener ListenerState

variable {i : ListenerMethod} {past marks : List ListenerMark} {s₀ s s' : ListenerState}

theorem seen_concat (marks : List ListenerMark) (mark : ListenerMark) :
    seen (marks ++ [mark]) = (seen marks).next mark := by
  simp [seen]

theorem next_lookup {c : Call} (hc : c.isLookup = true) (v : Seen) (r : Response c) :
    v.next (.event ⟨c, r⟩) = v := by
  cases c with
  | fdb c => cases c <;> first | rfl | cases hc
  | kafka c => rfl
  | file c => rfl
  | host c => rfl

theorem allows_lookup {c : Call} (hc : c.isLookup = true) (v : Seen) : v.Allows c := by
  cases c with
  | fdb c =>
    cases c with
    | consume => cases hc
    | acknowledge => cases hc
    | _ => trivial
  | kafka c => trivial
  | file c => trivial
  | host c => trivial

/-! ## The invariant -/

/-- What the flags say of the last reply. -/
def Flags (l : FDBMutationListener) : ReplyStatus → Prop
  | .nothing => l.awaitingAck = false ∧ l.deliveryFailed = false
  | .consumed => False
  | .failed => l.deliveryFailed = true
  | .unacknowledged => l.awaitingAck = true ∧ l.deliveryFailed = false
  | .settled => l.awaitingAck = false ∧ l.deliveryFailed = false

/-- The listener agrees with what was seen. -/
structure Sound (l : FDBMutationListener) (v : Seen) : Prop where
  flags : Flags l v.status
  active : v.status ≠ .nothing → l.consumer.isSome = true ∨ l.isClosed = true
  failed : v.failed = true → v.status = .failed
  closed : v.closed = true → l.isClosed = true
  dropped : l.isClosed = true → l.consumer = none

theorem Sound.failed_eq_false {l : FDBMutationListener} {v : Seen} (h : Sound l v)
    (hstatus : v.status ≠ .failed) : v.failed = false :=
  Bool.eq_false_iff.2 fun hf => hstatus (h.failed hf)

theorem Sound.closed_eq_false {l : FDBMutationListener} {v : Seen} (h : Sound l v)
    (hopen : l.isClosed = false) : v.closed = false := by
  refine Bool.eq_false_iff.2 fun hc => ?_
  rw [h.closed hc] at hopen
  cases hopen

/-- Guards that let a poll through. -/
theorem Sound.pollable {l : FDBMutationListener} {v : Seen} (h : Sound l v)
    (hfailed : l.deliveryFailed = false) (hawaiting : l.awaitingAck = false) :
    v.status = .nothing ∨ v.status = .settled := by
  have hflags := h.flags
  cases hstatus : v.status with
  | nothing => exact .inl rfl
  | settled => exact .inr rfl
  | consumed =>
    rw [hstatus] at hflags
    exact hflags.elim
  | failed =>
    rw [hstatus] at hflags
    exact nomatch hfailed.symm.trans hflags
  | unacknowledged =>
    rw [hstatus] at hflags
    exact nomatch hawaiting.symm.trans hflags.1

/-- Guards that let an acknowledge through. -/
theorem Sound.ackable {l : FDBMutationListener} {v : Seen} (h : Sound l v)
    (hfailed : l.deliveryFailed = false) (hawaiting : l.awaitingAck = true) :
    v.status = .unacknowledged := by
  have hflags := h.flags
  cases hstatus : v.status with
  | unacknowledged => rfl
  | consumed =>
    rw [hstatus] at hflags
    exact hflags.elim
  | failed =>
    rw [hstatus] at hflags
    exact nomatch hfailed.symm.trans hflags
  | nothing =>
    rw [hstatus] at hflags
    exact nomatch hawaiting.symm.trans hflags.1
  | settled =>
    rw [hstatus] at hflags
    exact nomatch hawaiting.symm.trans hflags.1

/-- A listener that has consumed nothing may change its consumer. -/
theorem Sound.sameBut {l l' : FDBMutationListener} {v v' : Seen} (h : Sound l v)
    (hsame : SameBut l l') (hnothing : v.status = .nothing) (hopen : l.isClosed = false)
    (hstatus : v'.status = v.status) (hfailed : v'.failed = v.failed)
    (hclosed : v'.closed = v.closed) : Sound l' v' where
  flags := by
    rw [hstatus, hnothing, hsame]
    have hflags := h.flags
    rw [hnothing] at hflags
    exact hflags
  active hne := absurd (hstatus.trans hnothing) hne
  failed hf := hstatus.trans (h.failed (hfailed.symm.trans hf))
  closed hc := by
    rw [hsame]
    exact h.closed (hclosed.symm.trans hc)
  dropped hc := by
    rw [hsame] at hc
    exact nomatch hopen.symm.trans hc

/-- What holds while the method `i` runs, as long as it has not consumed a reply. -/
structure During (i : ListenerMethod) (past : List ListenerMark) (s₀ s : ListenerState)
    (marks : List ListenerMark) : Prop where
  sound : Sound s.listener (seen marks)
  opening : opening marks = some (past, s₀)
  running : running marks = some i
  activated : s₀.listener.Activated s.listener
  attempt : (seen marks).attempt = none

/-- The rule for a native call. -/
theorem wp_guarded_call {c : Call}
    {Q : Except PyExc c.Value → ListenerState → List ListenerMark → Prop}
    (hallows : (seen marks).Allows c) (hclosed : (seen marks).closed = false)
    (hrunning : running marks = some .close → isCloseConsumer c = true)
    (hQ : ∀ r : Response c, Q r.result (HasCallbacks.runCallbacks r.callbacks s)
      (marks ++ [.event ⟨c, r⟩])) :
    Proc.wp (recorder Guarded) (native c) Q s marks := by
  rw [wp_native]
  intro r
  exact ⟨_, recorder_next.2 ⟨⟨hallows, hclosed, hrunning⟩, rfl⟩, hQ r⟩

/-! ## Starting -/

/-- What holds while the consumer is being made: nothing has been consumed. -/
structure Making (i : ListenerMethod) (past : List ListenerMark) (s₀ : ListenerState)
    (restoring : Option Handle) (marks : List ListenerMark) : Prop where
  opening : opening marks = some (past, s₀)
  running : running marks = some i
  status : (seen marks).status = .nothing
  failed : (seen marks).failed = false
  closed : (seen marks).closed = false
  attempt : (seen marks).attempt = none
  restoring : ∀ h, restoring = some h → (seen marks).restoring = some h

theorem Making.step {restoring restoring' after : Option Handle} {c : Call} {r : Response c}
    (h : Making i past s₀ restoring marks)
    (hnext : (seen marks).next (.event ⟨c, r⟩) = { seen marks with restoring := after })
    (hrestoring : ∀ h, restoring' = some h → after = some h) :
    Making i past s₀ restoring' (marks ++ [.event ⟨c, r⟩]) := by
  refine ⟨(opening_event marks _).trans h.opening, (running_event marks _).trans h.running,
    ?_, ?_, ?_, ?_, ?_⟩
  all_goals rw [seen_concat, hnext]
  · exact h.status
  · exact h.failed
  · exact h.closed
  · exact h.attempt
  · exact hrestoring

theorem acknowledge_nothing {v : Seen} (h : v.status = .nothing) (c : Call) (ok : Bool) :
    v.acknowledge c ok = { v with restoring := none } := by
  unfold Seen.acknowledge
  rw [h]

theorem making_startable (hi : i ≠ .close) (cursor : Option PyCursor) :
    Startable (recorder Guarded) cursor (fun restoring _ => Making i past s₀ restoring)
      (fun _ => True) := by
  have hnext : ∀ {marks : List ListenerMark} {restoring : Option Handle} {c : Call} (r : Response c),
      Making i past s₀ restoring marks → (seen marks).Allows c →
      (recorder Guarded).next marks ⟨c, r⟩ = some (marks ++ [.event ⟨c, r⟩]) := by
    intro marks restoring c r h hallows
    refine recorder_next.2 ⟨⟨hallows, h.closed, fun hclose => ?_⟩, rfl⟩
    exact absurd (Option.some.inj (h.running.symm.trans hclose)) hi
  constructor
  case stable =>
    intro restoring
    refine ⟨fun c hc _ marks h r => ⟨_, hnext r h (allows_lookup hc _), ?_⟩, fun _ _ _ h => h⟩
    exact h.step (next_lookup hc _ r) h.restoring
  case consumer => exact fun _ _ _ _ h => h
  case create =>
    intro restoring _ marks name h r
    exact ⟨_, hnext r h trivial, h.step rfl fun _ h => (nomatch h), fun _ _ => trivial⟩
  case resume =>
    intro restoring _ marks c _ h r
    exact ⟨_, hnext r h trivial, h.step rfl fun _ h => h⟩
  case restore =>
    intro _ marks consumer h r
    exact ⟨_, hnext r h ⟨.inr ⟨h.status, h.restoring consumer rfl⟩, h.failed⟩,
      h.step (acknowledge_nothing h.status _ _) fun _ h => (nomatch h), fun _ => trivial⟩
  case close =>
    intro restoring _ marks consumer h r
    exact ⟨_, hnext r h trivial, h.step rfl fun _ h => nomatch h⟩

/-- A listener without a consumer has consumed nothing, unless it is closed. -/
theorem During.making (h : During i past s₀ s marks) (hnone : s.listener.consumer = none)
    (hopen : s.listener.isClosed = false) : Making i past s₀ none marks where
  opening := h.opening
  running := h.running
  status := by
    by_contra hne
    rcases h.sound.active hne with hsome | hclosed
    · rw [hnone] at hsome
      cases hsome
    · exact nomatch hopen.symm.trans hclosed
  failed := by
    refine h.sound.failed_eq_false fun hfailed => ?_
    rcases h.sound.active (by rw [hfailed]; decide) with hsome | hclosed
    · rw [hnone] at hsome
      cases hsome
    · exact nomatch hopen.symm.trans hclosed
  closed := h.sound.closed_eq_false hopen
  attempt := h.attempt
  restoring _ h := nomatch h

/-- The listener after its consumer was made, or was not. -/
theorem During.made {restoring : Option Handle} {marks' : List ListenerMark}
    (h : During i past s₀ s marks) (hnone : s.listener.consumer = none)
    (hopen : s.listener.isClosed = false) (hmaking : Making i past s₀ restoring marks')
    (hsame : SameBut s.listener s'.listener) : During i past s₀ s' marks' := by
  have hbefore := h.making hnone hopen
  refine ⟨h.sound.sameBut hsame hbefore.status hopen (hmaking.status.trans hbefore.status.symm)
    (hmaking.failed.trans hbefore.failed.symm) (hmaking.closed.trans hbefore.closed.symm),
    hmaking.opening, hmaking.running, ⟨?_, ?_⟩, hmaking.attempt⟩
  · have hfirst := h.activated.same
    rw [SameBut] at hfirst hsame ⊢
    rw [hsame, hfirst]
  · intro hsome
    rw [h.activated.kept hsome] at hnone
    rw [hnone] at hsome
    cases hsome

theorem wp_start_during (hi : i ≠ .close) (fuel : ℕ) (h : During i past s₀ s marks) :
    Proc.wp (recorder Guarded) (start fuel) (fun _ => During i past s₀) s marks := by
  by_cases hsome : s.listener.consumer.isSome = true
  · unfold start
    rw [Proc.wp_get_bind]
    simp only
    rw [if_pos hsome]
    exact h
  have hnone : s.listener.consumer = none := by
    rwa [Bool.not_eq_true, Option.isSome_eq_false_iff, Option.isNone_iff_eq_none] at hsome
  by_cases hclosed : s.listener.isClosed = true
  · unfold start
    rw [Proc.wp_get_bind]
    simp only
    rw [if_neg hsome, wp_raiseIf_bind, if_pos hclosed]
    exact h
  have hopen := Bool.eq_false_iff.2 hclosed
  have hstart := @wp_start _ (recorder Guarded) (fun restoring _ => Making i past s₀ restoring)
    (fun _ => True) none s marks (fun _ => making_startable hi _) fuel (h.making hnone hopen)
  refine Proc.wp_mono hstart ?_
  rintro r s' marks' ⟨⟨restoring, hmaking⟩, hsame, -⟩
  exact h.made hnone hopen hmaking hsame

/-- The consumer, started on first access, of a listener that is not closed. -/
theorem wp_getConsumer_during (hi : i ≠ .close) (fuel : ℕ) (h : During i past s₀ s marks) :
    Proc.wp (recorder Guarded) (getConsumer fuel) (fun r s' marks' =>
      During i past s₀ s' marks' ∧ ∀ consumer, r = .ok consumer →
        s'.listener.consumer = some consumer) s marks := by
  unfold getConsumer
  rw [Proc.wp_get_bind, wp_raiseIf_bind]
  split
  · exact ⟨h, fun _ h => nomatch h⟩
  rw [Proc.wp_get_bind]
  have hstart : Proc.wp (recorder Guarded) (Proc.when s.listener.consumer.isNone (start fuel))
      (fun _ => During i past s₀) s marks := by
    rw [Proc.wp_when]
    split
    · exact wp_start_during hi fuel h
    · exact h
  refine Proc.wp_bind_of hstart ?_ fun _ _ _ h => ⟨h, fun _ h => nomatch h⟩
  intro _ s' marks' h
  rw [Proc.wp_get_bind]
  cases hc : s'.listener.consumer with
  | none => exact ⟨h, fun _ h => nomatch h⟩
  | some consumer =>
    refine ⟨h, fun consumer' heq => ?_⟩
    cases heq
    exact hc

/-! ## The end of a method -/

/-- What has to hold when the method `i` ends. -/
def Ended (i : ListenerMethod) (r : Except PyExc (List FDBMutationRecord)) (s' : ListenerState)
    (marks : List ListenerMark) : Prop :=
  Guarded marks (.finish i r s') ∧ Sound s'.listener ((seen marks).next (.finish i r s'))

/-- What holds when a call has failed: the same method would make it again. -/
structure Refused (i : ListenerMethod) (past : List ListenerMark) (s₀ s : ListenerState)
    (marks : List ListenerMark) : Prop where
  sound : Sound s.listener (seen marks)
  opening : opening marks = some (past, s₀)
  retriable : Retriable i (seen marks).attempt s₀ s

theorem During.refused (h : During i past s₀ s marks) : Refused i past s₀ s marks where
  sound := h.sound
  opening := h.opening
  retriable := ⟨h.activated, fun _ hc => nomatch h.attempt.symm.trans hc⟩

theorem Sound.not_consumed {l : FDBMutationListener} {v : Seen} (h : Sound l v) :
    v.status ≠ .consumed := by
  intro hconsumed
  have hflags := h.flags
  rw [hconsumed] at hflags
  exact hflags

theorem polled_of_not_consumed {v : Seen} (h : v.status ≠ .consumed)
    (r : Except PyExc (List FDBMutationRecord)) : v.polled r = v := by
  unfold Seen.polled
  split <;> first | rfl | exact absurd ‹_› h

/-- A method that did not consume a reply. -/
theorem Refused.ended (h : Refused i past s₀ s marks) (hi : i ≠ .close)
    (r : Except PyExc (List FDBMutationRecord)) : Ended i r s marks := by
  constructor
  · intro _ _ _ past' s' hopening
    obtain ⟨rfl, rfl⟩ := Prod.mk.inj (Option.some.inj (h.opening.symm.trans hopening))
    exact h.retriable
  · have hsame : (seen marks).next (.finish i r s) = seen marks := by
      cases i with
      | pollRecords => exact polled_of_not_consumed h.sound.not_consumed r
      | close => exact absurd rfl hi
      | _ => rfl
    rw [hsame]
    exact h.sound

/-- The invariant after a method that returns. -/
theorem ended_of_ok {records : List FDBMutationRecord}
    (h : Sound s.listener ((seen marks).next (.finish i (.ok records) s))) :
    Ended i (.ok records) s marks :=
  ⟨fun _ hraised => (nomatch hraised.choose_spec), h⟩

/-! ## Polling -/

section Poll

variable {fuel : ℕ} {bridgeTimestampNs : Option PyVal}

/-- What holds once a reply has been consumed. -/
structure Received (s : ListenerState) (marks : List ListenerMark) : Prop where
  status : (seen marks).status = .consumed
  failed : (seen marks).failed = false
  closed : (seen marks).closed = false
  running : running marks ≠ some .close
  active : s.listener.consumer.isSome = true
  isClosed : s.listener.isClosed = false

theorem Received.sound {l : FDBMutationListener} {v : Seen} (h : Received s marks)
    (hconsumer : l.consumer = s.listener.consumer) (hopen : l.isClosed = s.listener.isClosed)
    (hclosed : v.closed = (seen marks).closed) (hflags : Flags l v.status)
    (hfailed : v.failed = true → v.status = .failed) : Sound l v where
  flags := hflags
  active _ := by
    rw [hconsumer]
    exact .inl h.active
  failed := hfailed
  closed hc := by
    rw [hclosed, h.closed] at hc
    cases hc
  dropped hc := by
    rw [hopen, h.isClosed] at hc
    cases hc

theorem call_pollRecords {h : Handle} (hconsumer : s.listener.consumer = some h)
    (hopen : s.listener.isClosed = false) (hfailed : s.listener.deliveryFailed = false)
    (hawaiting : s.listener.awaitingAck = false) :
    ∃ k, perform (.pollRecords fuel bridgeTimestampNs) s = .call (.fdb (.consume h)) k := by
  obtain ⟨⟨_, _, _, _, _, _, _, consumer, closed, awaiting, failed⟩, client, producer⟩ := s
  simp only at hconsumer hopen hfailed hawaiting
  subst hconsumer hopen hfailed hawaiting
  exact ⟨_, rfl⟩

theorem wp_consumeBatch_guarded
    (h : During (.pollRecords fuel bridgeTimestampNs) past s s marks) :
    Proc.wp (recorder Guarded) (consumeBatch fuel) (fun r s' marks' =>
      match r with
      | .ok _ => Received s' marks'
      | .error _ => Refused (.pollRecords fuel bridgeTimestampNs) past s s' marks') s marks := by
  unfold consumeBatch
  rw [Proc.wp_get_bind, wp_raiseIf_bind]
  split
  · exact h.refused
  rename_i hfailed
  rw [wp_raiseIf_bind]
  split
  · exact h.refused
  rename_i hawaiting
  rw [Proc.wp_tryCatch]
  refine Proc.wp_bind_of (wp_getConsumer_during (by simp) fuel h) ?_ ?_
  · rintro consumer s' marks' ⟨h', hconsumer⟩
    have hactive := hconsumer consumer rfl
    have hopen : s'.listener.isClosed = false := by
      refine Bool.eq_false_iff.2 fun hclosed => ?_
      exact nomatch hactive.symm.trans (h'.sound.dropped hclosed)
    have hfailed' : s'.listener.deliveryFailed = false := by
      rw [h'.activated.same]
      exact Bool.eq_false_iff.2 hfailed
    have hawaiting' : s'.listener.awaitingAck = false := by
      rw [h'.activated.same]
      exact Bool.eq_false_iff.2 hawaiting
    have hstatus := h'.sound.pollable hfailed' hawaiting'
    have hnotFailed : (seen marks').failed = false := by
      refine h'.sound.failed_eq_false fun hf => ?_
      rcases hstatus with hst | hst <;> exact nomatch hst.symm.trans hf
    have hclosed := h'.sound.closed_eq_false hopen
    refine wp_guarded_call ⟨hstatus, hnotFailed⟩ hclosed ?_ ?_
    · intro hclose
      exact absurd (Option.some.inj (h'.running.symm.trans hclose)) (by simp)
    intro r
    have hseen := seen_concat marks' (.event ⟨.fdb (.consume consumer), r⟩)
    cases hres : r.result with
    | ok reply =>
      have hnext : (seen marks').next (.event ⟨.fdb (.consume consumer), r⟩) =
          { seen marks' with status := .consumed } := by
        simp [Seen.next, Seen.consume, hres, Except.isOk, Except.toBool]
      rw [hnext] at hseen
      have hrunning : running (marks' ++ [.event ⟨.fdb (.consume consumer), r⟩]) ≠ some .close := by
        rw [running_event, h'.running]
        simp
      have hsome : s'.listener.consumer.isSome = true := by
        rw [hactive]
        rfl
      refine ⟨?_, ?_, ?_, hrunning, hsome, hopen⟩
      · rw [hseen]
      · rw [hseen]
        exact hnotFailed
      · rw [hseen]
        exact hclosed
    | error exc =>
      have hnext : (seen marks').next (.event ⟨.fdb (.consume consumer), r⟩) =
          { seen marks' with attempt := some (.fdb (.consume consumer)) } := by
        simp [Seen.next, Seen.consume, hres, Except.isOk, Except.toBool]
      rw [hnext] at hseen
      rw [Proc.orElse]
      refine wp_onConsumeFailure fun _ => ⟨?_, (opening_event marks' _).trans h'.opening,
        h'.activated, ?_⟩
      · rw [hseen]
        exact ⟨h'.sound.flags, h'.sound.active, h'.sound.failed, h'.sound.closed,
          h'.sound.dropped⟩
      · intro c hc
        rw [hseen] at hc
        cases hc
        exact call_pollRecords hactive hopen hfailed' hawaiting'
  · rintro exc s' marks' ⟨h', -⟩
    rw [Proc.orElse]
    exact wp_onConsumeFailure fun _ => h'.refused

theorem wp_deliver_guarded {reply : CdcReply} {timestampNs : PyVal}
    (h : Received s marks) (hfailed : s.listener.deliveryFailed = true) :
    Proc.wp (recorder Guarded) (deliver reply timestampNs)
      (Ended (.pollRecords fuel bridgeTimestampNs)) s marks := by
  unfold deliver
  rw [Proc.wp_get_bind]
  simp only
  split
  · refine ⟨fun _ _ hne => absurd h.status hne, ?_⟩
    have hnext : ∀ exc, (seen marks).polled (.error exc) =
        { seen marks with status := .failed, failed := true } := by
      intro exc
      unfold Seen.polled
      rw [h.status]
    show Sound s.listener ((seen marks).polled _)
    rw [hnext]
    exact h.sound rfl rfl rfl hfailed fun _ => rfl
  · rename_i records _
    refine ended_of_ok ?_
    show Sound _ ((seen marks).polled (.ok records))
    have hnot : ∀ {p : Prop}, (seen marks).failed = true → p := fun hf =>
      nomatch h.failed.symm.trans hf
    unfold Seen.polled
    rw [h.status]
    cases records with
    | nil => exact h.sound rfl rfl rfl ⟨rfl, rfl⟩ hnot
    | cons record records => exact h.sound rfl rfl rfl ⟨rfl, rfl⟩ hnot

theorem wp_pollRecords_guarded
    (h : During (.pollRecords fuel bridgeTimestampNs) past s s marks) :
    Proc.wp (recorder Guarded) (pollRecords fuel bridgeTimestampNs)
      (Ended (.pollRecords fuel bridgeTimestampNs)) s marks := by
  unfold pollRecords
  refine Proc.wp_bind_of (wp_consumeBatch_guarded h) ?_ ?_
  · intro reply s' marks' h'
    rw [Proc.wp_modify_bind]
    have hfailing : Received (setDeliveryFailed true s') marks' :=
      ⟨h'.status, h'.failed, h'.closed, h'.running, h'.active, h'.isClosed⟩
    cases bridgeTimestampNs with
    | some timestampNs => exact wp_deliver_guarded hfailing rfl
    | none =>
      simp only
      rw [Proc.wp_bind]
      refine wp_guarded_call trivial h'.closed (fun hclose => absurd hclose h'.running) fun r => ?_
      obtain ⟨timestampNs, hres⟩ := r.returns rfl
      rw [hres, Proc.andThen]
      refine wp_deliver_guarded ⟨?_, ?_, ?_, ?_, hfailing.active, hfailing.isClosed⟩ rfl
      · rw [seen_concat]
        exact h'.status
      · rw [seen_concat]
        exact h'.failed
      · rw [seen_concat]
        exact h'.closed
      · rw [running_event]
        exact h'.running
  · exact fun exc s' marks' h' => h'.ended (by simp) _

end Poll

/-! ## The other methods -/

theorem call_acknowledge {h : Handle} {fuel : ℕ} (hconsumer : s.listener.consumer = some h)
    (hopen : s.listener.isClosed = false) (hfailed : s.listener.deliveryFailed = false)
    (hawaiting : s.listener.awaitingAck = true) :
    ∃ k, perform (.acknowledge fuel) s = .call (.fdb (.acknowledge h)) k := by
  obtain ⟨⟨_, _, _, _, _, _, _, consumer, closed, awaiting, failed⟩, client, producer⟩ := s
  simp only at hconsumer hopen hfailed hawaiting
  subst hconsumer hopen hfailed hawaiting
  exact ⟨_, rfl⟩

theorem wp_acknowledge_guarded {fuel : ℕ} (h : During (.acknowledge fuel) past s s marks) :
    Proc.wp (recorder Guarded) (acknowledge fuel) (fun r s' marks' =>
      match r with
      | .ok _ => Sound s'.listener (seen marks')
      | .error _ => Refused (.acknowledge fuel) past s s' marks') s marks := by
  unfold acknowledge
  rw [Proc.wp_get_bind, wp_raiseIf_bind]
  split
  · exact h.refused
  rw [wp_raiseIf_bind]
  split
  · exact h.refused
  rename_i hfailed
  rw [wp_raiseIf_bind]
  split
  · exact h.refused
  rename_i hawaiting
  have hawaiting : s.listener.awaitingAck = true := by simpa using hawaiting
  rw [Proc.wp_bind, Proc.wp_tryCatch, Proc.wp_bind]
  refine Proc.wp_mono (wp_getConsumer_during (by simp) fuel h) ?_
  rintro r s' marks' ⟨h', hconsumer⟩
  cases r with
  | error exc =>
    show Proc.wp _ (onConsumeFailure _ _) _ s' marks'
    exact wp_onConsumeFailure fun _ => h'.refused
  | ok consumer =>
    have hactive := hconsumer consumer rfl
    have hopen : s'.listener.isClosed = false := by
      refine Bool.eq_false_iff.2 fun hclosed => ?_
      exact nomatch hactive.symm.trans (h'.sound.dropped hclosed)
    have hfailed' : s'.listener.deliveryFailed = false := by
      rw [h'.activated.same]
      exact Bool.eq_false_iff.2 hfailed
    have hawaiting' : s'.listener.awaitingAck = true := by
      rw [h'.activated.same]
      exact hawaiting
    have hstatus := h'.sound.ackable hfailed' hawaiting'
    have hnotFailed : (seen marks').failed = false :=
      h'.sound.failed_eq_false (by rw [hstatus]; decide)
    have hclosed := h'.sound.closed_eq_false hopen
    refine wp_guarded_call ⟨.inl hstatus, hnotFailed⟩ hclosed ?_ ?_
    · intro hclose
      exact absurd (Option.some.inj (h'.running.symm.trans hclose)) (by simp)
    intro r
    have hseen := seen_concat marks' (.event ⟨.fdb (.acknowledge consumer), r⟩)
    cases hres : r.result with
    | ok u =>
      have hnext : (seen marks').next (.event ⟨.fdb (.acknowledge consumer), r⟩) =
          { seen marks' with restoring := none, status := .settled } := by
        simp [Seen.next, Seen.acknowledge, hres, hstatus, Except.isOk, Except.toBool]
      rw [hnext] at hseen
      show Sound (setAwaitingAck false _).listener (seen _)
      rw [hseen]
      refine ⟨⟨rfl, hfailed'⟩, fun _ => .inl ?_, fun hf => ?_, fun hc => ?_, fun hc => ?_⟩
      · show s'.listener.consumer.isSome = true
        rw [hactive]
        rfl
      · exact nomatch hnotFailed.symm.trans hf
      · exact nomatch hclosed.symm.trans hc
      · exact nomatch hopen.symm.trans hc
    | error exc =>
      have hnext : (seen marks').next (.event ⟨.fdb (.acknowledge consumer), r⟩) =
          { seen marks' with restoring := none, attempt := some (.fdb (.acknowledge consumer)) } := by
        simp [Seen.next, Seen.acknowledge, hres, hstatus, Except.isOk, Except.toBool]
      rw [hnext] at hseen
      show Proc.wp _ (onConsumeFailure _ _) _ _ _
      refine wp_onConsumeFailure fun _ => ⟨?_, (opening_event marks' _).trans h'.opening,
        h'.activated, ?_⟩
      · rw [hseen]
        exact ⟨h'.sound.flags, h'.sound.active, h'.sound.failed, h'.sound.closed,
          h'.sound.dropped⟩
      · intro c hc
        rw [hseen] at hc
        cases hc
        exact call_acknowledge hactive hopen hfailed' hawaiting'

theorem wp_getPosition_guarded {fuel : ℕ} (h : During (.getPosition fuel) past s s marks) :
    Proc.wp (recorder Guarded) (getPosition fuel)
      (fun _ => During (.getPosition fuel) past s) s marks := by
  unfold getPosition
  refine Proc.wp_bind_of (wp_getConsumer_during (by simp) fuel h) ?_ fun _ _ _ h' => h'.1
  rintro consumer s' marks' ⟨h', hconsumer⟩
  have hopen : s'.listener.isClosed = false := by
    refine Bool.eq_false_iff.2 fun hclosed => ?_
    exact nomatch (hconsumer consumer rfl).symm.trans (h'.sound.dropped hclosed)
  refine wp_guarded_call trivial (h'.sound.closed_eq_false hopen) ?_ ?_
  · intro hclose
    exact absurd (Option.some.inj (h'.running.symm.trans hclose)) (by simp)
  intro r
  have hseen : seen (marks' ++ [.event ⟨.fdb (.getPosition consumer), r⟩]) = seen marks' :=
    seen_concat marks' _
  refine ⟨?_, (opening_event marks' _).trans h'.opening, (running_event marks' _).trans h'.running,
    h'.activated, ?_⟩
  · rw [hseen]
    exact h'.sound
  · rw [hseen]
    exact h'.attempt

/-- Whatever the native close does, the listener is closed. -/
theorem wp_close_guarded (h : During .close past s s marks) :
    Proc.wp (recorder Guarded) close (fun _ s' marks' =>
      Sound s'.listener { seen marks' with closed := true }) s marks := by
  have hsound : ∀ v : Seen, v.status = (seen marks).status → v.failed = (seen marks).failed →
      Sound { s.listener with isClosed := true, consumer := none } v := by
    intro v hstatus hfailed
    refine ⟨?_, fun _ => .inr rfl, ?_, fun _ => rfl, fun _ => rfl⟩
    · rw [hstatus]
      have hflags := h.sound.flags
      cases hst : (seen marks).status <;> rw [hst] at hflags <;> exact hflags
    · rw [hstatus, hfailed]
      exact h.sound.failed
  unfold close
  rw [Proc.wp_get_bind]
  simp only
  rw [Proc.wp_modify_bind]
  cases hconsumer : s.listener.consumer with
  | none => exact hsound _ rfl rfl
  | some consumer =>
    have hopen : s.listener.isClosed = false := by
      refine Bool.eq_false_iff.2 fun hclosed => ?_
      exact nomatch hconsumer.symm.trans (h.sound.dropped hclosed)
    refine wp_guarded_call trivial (h.sound.closed_eq_false hopen) (fun _ => rfl) fun r => ?_
    have hseen : seen (marks ++ [.event ⟨.fdb (.closeConsumer consumer), r⟩]) = seen marks :=
      seen_concat marks _
    rw [hseen]
    exact hsound _ rfl rfl

/-! ## Runs -/

theorem perform_guarded (i : ListenerMethod) :
    MethodKeeps Guarded (fun s marks => Sound s.listener (seen marks)) perform i := by
  intro s marks hsound
  refine ⟨trivial, ?_⟩
  have h : During i marks s s (marks ++ [.start i s]) := by
    have hseen : seen (marks ++ [.start i s]) = { seen marks with attempt := none } :=
      seen_concat marks _
    refine ⟨?_, opening_start marks i s, running_start marks i s, .refl _, ?_⟩
    · rw [hseen]
      exact ⟨hsound.flags, hsound.active, hsound.failed, hsound.closed, hsound.dropped⟩
    · rw [hseen]
  have hended : ∀ r s' marks', Ended i r s' marks' →
      Guarded marks' (.finish i r s') ∧ Sound s'.listener (seen (marks' ++ [.finish i r s'])) := by
    rintro r s' marks' ⟨hguarded, hsound'⟩
    refine ⟨hguarded, ?_⟩
    rw [seen_concat]
    exact hsound'
  suffices hwp : Proc.wp (recorder Guarded) (perform i) (Ended i) s (marks ++ [.start i s]) from
    Proc.wp_mono hwp hended
  cases i with
  | start fuel =>
    refine Proc.wp_bind_of (wp_start_during (by simp) fuel h) ?_ ?_
    · exact fun _ _ _ h' => h'.refused.ended (by simp) _
    · exact fun _ _ _ h' => h'.refused.ended (by simp) _
  | pollRecords fuel bridgeTimestampNs => exact wp_pollRecords_guarded h
  | acknowledge fuel =>
    refine Proc.wp_bind_of (wp_acknowledge_guarded h) ?_ ?_
    · exact fun _ _ _ h' => ended_of_ok h'
    · exact fun _ _ _ h' => h'.ended (by simp) _
  | getPosition fuel =>
    refine Proc.wp_bind_of (wp_getPosition_guarded h) ?_ ?_
    · exact fun _ _ _ h' => h'.refused.ended (by simp) _
    · exact fun _ _ _ h' => h'.refused.ended (by simp) _
  | close =>
    have hclose : ∀ r s' marks', Sound s'.listener { seen marks' with closed := true } →
        Ended .close r s' marks' := fun r s' marks' h' => ⟨fun hd => (nomatch hd), h'⟩
    refine Proc.wp_bind_of (wp_close_guarded h) ?_ ?_
    · exact fun _ _ _ h' => hclose _ _ _ h'
    · exact fun _ _ _ h' => hclose _ _ _ h'

/-- From a new listener on, in every sequence of calls of its methods. -/
theorem listener_guarded {s : ListenerState} {marks : List ListenerMark} (hnew : s.listener.IsNew)
    (hrun : Run perform s marks) : Keeps Guarded marks := by
  refine hrun.keeps perform_guarded ⟨⟨hnew.awaitingAck, hnew.deliveryFailed⟩,
    fun hne => absurd rfl hne, ?_, ?_, ?_⟩
  · exact fun hf => nomatch hf
  · exact fun hc => nomatch hc
  · exact fun _ => hnew.consumer

/-- A new listener of the stream `s`. -/
def unstarted : ListenerState where
  listener :=
    { rawStreamName := [115]
      streamName := PyStr.ofChars [ 's']
      keyRange := none
      initialCursor := none
      maxRecordBytes := 100
      resumeTimeoutSeconds := defaultResumeTimeoutSeconds
      resumePollIntervalSeconds := defaultResumePollIntervalSeconds
      consumer := none
      isClosed := false
      awaitingAck := false
      deliveryFailed := false }
  client := ⟨true⟩
  producer := none

/-- The first poll of a new listener creates a consumer and consumes from it. -/
theorem listener_guarded_consume :
    Guarded
      [.start (.pollRecords 0 none) unstarted,
        .event ⟨.fdb (.createCdcConsumer [115]), .value (0 : Handle)⟩]
      (.event ⟨.fdb (.consume 0), .value ⟨none, none⟩⟩) := by
  obtain ⟨q, hpoll⟩ : ∃ q, Prog.Path (perform (.pollRecords 0 none) unstarted)
      [⟨.fdb (.createCdcConsumer [115]), .value (0 : Handle)⟩,
        ⟨.fdb (.consume 0), .value ⟨none, none⟩⟩] q := ⟨_, .step _ (.step _ (.here _))⟩
  exact listener_guarded ⟨rfl, rfl, rfl, rfl⟩ (.cut hpoll) _ _ [] rfl

end ListenerMark

end FdbKafkaBridge
