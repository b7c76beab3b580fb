import FdbKafkaBridge.Cdc.Proofs.StartProofs
import FdbKafkaBridge.Cdc.Proofs.ReplyProofs

/-!
# Polling and acknowledging, over any number of replies

What a listener makes of a sequence of replies, with a poll and, when it returned records, an
acknowledgement for each. The monitor here only notes the native replies that were consumed.
-/

namespace FdbKafkaBridge

open Protobuf (Bytes)
open Serialization Interaction ReplayLog

/-- The native reply that an event delivered, if any. -/
def consumedReply : Event Response → List CdcReply
  | ⟨.fdb (.consume _), ⟨_, .ok reply, _⟩⟩ => [reply]
  | _ => []

/-- The native replies consumed in a trace. -/
def consumedReplies (tr : List (Event Response)) : List CdcReply := tr.flatMap consumedReply

/-- Notes the native replies. -/
def replyMonitor : Monitor Response (List CdcReply) where
  next replies e := some (replies ++ consumedReply e)

theorem replyMonitor_run (replies : List CdcReply) (tr : List (Event Response)) :
    replyMonitor.run replies tr = some (replies ++ consumedReplies tr) := by
  induction tr generalizing replies with
  | nil =>
    rw [consumedReplies, List.flatMap_nil, List.append_nil]
    rfl
  | cons e tr ih =>
    rw [Monitor.run_cons]
    show replyMonitor.run (replies ++ consumedReply e) tr = _
    rw [ih, List.append_assoc]
    rfl

/-! ## What leaves the replies and the configuration of the listener alone -/

/-- No call of this kind delivers a reply. -/
def Call.isConsume : Call → Bool
  | .fdb (.consume _) => true
  | _ => false

theorem consumedReply_eq_nil {c : Call} (h : c.isConsume = false) (r : Response c) :
    consumedReply ⟨c, r⟩ = [] := by
  unfold consumedReply
  split
  · rename_i heq
    cases heq
    cases h
  · rfl

/-- The configuration that `poll_records` reads. -/
def recordConfig (s : ListenerState) : PyStr × ℤ :=
  (s.listener.streamName, s.listener.maxRecordBytes)

/-- These replies were consumed, and the configuration is this one. -/
def Consumed (replies : List CdcReply) (config : PyStr × ℤ) (s : ListenerState)
    (m : List CdcReply) : Prop :=
  m = replies ∧ recordConfig s = config

section Quiet

variable {α : Type} {replies : List CdcReply} {config : PyStr × ℤ}

theorem survives_consumed {c : Call} (hc : c.isConsume = false) :
    Survives replyMonitor (Consumed replies config) c := by
  rintro s m ⟨rfl, rfl⟩ r
  refine ⟨m, ?_, rfl, rfl⟩
  show some (m ++ consumedReply ⟨c, r⟩) = some m
  rw [consumedReply_eq_nil hc, List.append_nil]

theorem consumed_stable : ListenerStable replyMonitor (Consumed replies config) where
  lookup c hc := by
    refine survives_consumed ?_
    cases c with
    | fdb c => cases c <;> first | rfl | cases hc
    | kafka c => rfl
    | file c => rfl
    | host c => rfl
  client _ _ _ h := h

theorem quiet_modify {f : ListenerState → ListenerState}
    (h : ∀ s, recordConfig (f s) = recordConfig s) :
    Proc.Preserves replyMonitor (Consumed replies config)
      (modify f : Py ListenerState PUnit) := by
  refine Proc.preserves_modify ?_
  rintro s m ⟨rfl, rfl⟩
  exact ⟨rfl, h s⟩

namespace FDBMutationListener

theorem consumed_startable (cursor : Option PyCursor) :
    Startable replyMonitor cursor (fun _ => Consumed replies config) (fun _ => True) where
  stable _ := consumed_stable
  consumer _ _ _ _ h := h
  create _ s m _ h r :=
    let ⟨m', hnext, h'⟩ := survives_consumed rfl s m h r
    ⟨m', hnext, h', fun _ _ => trivial⟩
  resume _ s m _ _ h r := survives_consumed rfl s m h r
  restore s m _ h r :=
    let ⟨m', hnext, h'⟩ := survives_consumed rfl s m h r
    ⟨m', hnext, h', fun _ => trivial⟩
  close _ s m _ h r := survives_consumed rfl s m h r

theorem quiet_getConsumer (fuel : ℕ) :
    Proc.Preserves replyMonitor (Consumed replies config) (getConsumer fuel) :=
  preserves_getConsumer consumed_startable fuel

theorem quiet_acknowledge (fuel : ℕ) :
    Proc.Preserves replyMonitor (Consumed replies config) (acknowledge fuel) :=
  preserves_acknowledge consumed_startable (fun _ _ h => h) fuel

end FDBMutationListener

end Quiet

/-! ## One poll -/

section Poll

variable {replies : List CdcReply} {config : PyStr × ℤ} {s s' : ListenerState}

namespace FDBMutationListener

theorem wp_consumeBatch_replies (fuel : ℕ) {m : List CdcReply} (h : Consumed replies config s m) :
    Proc.wp replyMonitor (consumeBatch fuel) (fun r s m =>
      ∀ reply, r = .ok reply → Consumed (replies ++ [reply]) config s m) s m := by
  unfold consumeBatch
  rw [Proc.wp_get_bind, wp_raiseIf_bind]
  split
  · exact fun _ he => nomatch he
  rw [wp_raiseIf_bind]
  split
  · exact fun _ he => nomatch he
  refine Proc.wp_tryCatch_of (P := fun r s m =>
    ∀ reply, r = .ok reply → Consumed (replies ++ [reply]) config s m) ?_
    (fun _ _ _ h => h) ?_
  · refine Proc.wp_bind_of (quiet_getConsumer fuel s m h) ?_ (fun _ _ _ _ _ he => nomatch he)
    rintro consumer s m ⟨rfl, rfl⟩
    rw [wp_native]
    rintro ⟨callbacks, result, hreturns⟩
    refine ⟨_, rfl, ?_⟩
    rintro reply ⟨rfl⟩
    exact ⟨rfl, rfl⟩
  · intro e s m _
    refine wp_onConsumeFailure ?_
    intro e' reply heq
    cases heq

theorem deliver_ok {reply : CdcReply} {timestampNs : PyVal} {s : ListenerState}
    {records : List FDBMutationRecord} (h : recordsOfReply s.listener.streamName
      s.listener.maxRecordBytes timestampNs reply = .ok records) :
    deliver reply timestampNs s =
      .ret (.ok records, ListenerState.setAwaitingAck (!records.isEmpty)
        (ListenerState.setDeliveryFailed false s)) := by
  rw [deliver, Proc.get_bind]
  simp only [h]
  rfl

theorem wp_deliver_replies {reply : CdcReply} {timestampNs : PyVal} {m : List CdcReply}
    (h : Consumed replies config s m) :
    Proc.wp replyMonitor (deliver reply timestampNs) (fun r s m =>
      ∀ records, r = .ok records → Consumed replies config s m ∧
        recordsOfReply config.1 config.2 timestampNs reply = .ok records) s m := by
  obtain ⟨rfl, rfl⟩ := h
  unfold deliver
  rw [Proc.wp_get_bind]
  simp only
  split
  · exact fun _ he => nomatch he
  · rename_i records hrecords
    rw [Proc.wp_modify_bind, Proc.wp_modify_bind, Proc.wp_pure]
    intro records' heq
    cases heq
    exact ⟨⟨rfl, rfl⟩, hrecords⟩

/-- A poll that returns has consumed one reply, and returns the records of that. -/
theorem wp_pollRecords_replies (fuel : ℕ) (bridgeTimestampNs : Option PyVal) {m : List CdcReply}
    (h : Consumed replies config s m) :
    Proc.wp replyMonitor (pollRecords fuel bridgeTimestampNs) (fun r s m =>
      ∀ records, r = .ok records → ∃ reply timestampNs, Consumed (replies ++ [reply]) config s m ∧
        recordsOfReply config.1 config.2 timestampNs reply = .ok records) s m := by
  refine Proc.wp_bind_of (wp_consumeBatch_replies fuel h) ?_ (fun _ _ _ _ _ he => nomatch he)
  intro reply s m h
  replace h := h reply rfl
  rw [Proc.wp_modify_bind]
  cases bridgeTimestampNs with
  | some timestampNs =>
    refine Proc.wp_mono (@wp_deliver_replies _ _ _ reply timestampNs _ h) ?_
    exact fun r s m hr records heq => ⟨reply, timestampNs, hr records heq⟩
  | none =>
    refine Proc.wp_bind_of ((survives_consumed rfl).preserves _ m h) ?_
      (fun _ _ _ _ _ he => nomatch he)
    intro timestampNs s m h
    refine Proc.wp_mono (@wp_deliver_replies _ _ _ reply (.int (timestampNs : ℕ)) _ h) ?_
    exact fun r s m hr records heq => ⟨reply, _, hr records heq⟩

end FDBMutationListener

end Poll

/-! ## The version ends of a sequence of replies -/

theorem closedVersions_append (log log' : List LogEntry) :
    closedVersions (log ++ log') = closedVersions log ++ closedVersions log' :=
  List.filterMap_append

theorem closedVersions_items (xs : List (Item MutationValue)) :
    closedVersions (xs.map .item) = [] := by
  induction xs with
  | nil => rfl
  | cons x xs ih => exact ih

theorem closedVersions_groupLog (group : Group) :
    closedVersions (groupLog group) = [group.1.toNat] := by
  rw [groupLog, closedVersions_append, closedVersions_items]
  rfl

theorem closedVersions_groups (groups : List Group) :
    closedVersions (groups.flatMap groupLog) = groups.map fun g => g.1.toNat := by
  induction groups with
  | nil => rfl
  | cons g groups ih =>
    rw [List.flatMap_cons, closedVersions_append, closedVersions_groupLog, ih]
    rfl

/-- The groups of a reply are not above the last of them. -/
theorem le_lastVersion {groups : List Group} (hsorted : groups.Pairwise fun g h => g.1 < h.1) :
    ∀ g ∈ groups, g.1 ≤ lastVersion groups := by
  induction groups using List.reverseRecOn with
  | nil => exact fun g hg => nomatch hg
  | append_singleton groups last _ =>
    intro g hg
    have hlast : lastVersion (groups ++ [last]) = last.1 := by simp [lastVersion]
    rw [hlast]
    rcases List.mem_append.1 hg with hg | hg
    · exact ((List.pairwise_append.1 hsorted).2.2 g hg last (List.mem_singleton_self _)).le
    · rw [List.mem_singleton.1 hg]

/-- The version ends of one reply increase, between its start and its watermark. -/
theorem closedVersions_replyEntries {start watermark : ℤ} {groups : List Group}
    (hahead : start < watermark) (hsorted : groups.Pairwise fun g h => g.1 < h.1)
    (hbounds : ∀ g ∈ groups, start < g.1 ∧ g.1 ≤ watermark) (hnonneg : ∀ g ∈ groups, 0 ≤ g.1) :
    (closedVersions (replyEntries groups watermark)).Pairwise (· < ·) ∧
      ∀ v ∈ closedVersions (replyEntries groups watermark), start < v ∧ (v : ℤ) ≤ watermark := by
  have hgroups : (groups.map fun g => g.1.toNat).Pairwise (· < ·) := by
    rw [List.pairwise_map]
    refine hsorted.imp_of_mem ?_
    intro g h hg hh hlt
    have := hnonneg g hg
    omega
  have hin : ∀ v : ℕ, v ∈ (groups.map fun g => g.1.toNat) →
      start < v ∧ (v : ℤ) ≤ watermark := by
    intro v hv
    obtain ⟨g, hg, rfl⟩ := List.mem_map.1 hv
    have := hnonneg g hg
    have := hbounds g hg
    omega
  rw [replyEntries, closedVersions_append, closedVersions_groups, watermarkLog]
  by_cases hpast : 0 ≤ watermark ∧ lastVersion groups < watermark
  · rw [if_pos hpast]
    show (_ ++ [watermark.toNat]).Pairwise _ ∧ ∀ v ∈ _ ++ [watermark.toNat], _
    have hw : (watermark.toNat : ℤ) = watermark := Int.toNat_of_nonneg hpast.1
    refine ⟨List.pairwise_append.2 ⟨hgroups, List.pairwise_singleton _ _, ?_⟩, ?_⟩
    · intro v hv w hw'
      obtain ⟨g, hg, rfl⟩ := List.mem_map.1 hv
      rw [List.mem_singleton.1 hw']
      have := hnonneg g hg
      have := le_lastVersion hsorted g hg
      omega
    · intro v hv
      rcases List.mem_append.1 hv with hv | hv
      · exact hin v hv
      · rw [List.mem_singleton.1 hv, hw]
        exact ⟨hahead, le_rfl⟩
  · rw [if_neg hpast]
    show (_ ++ []).Pairwise _ ∧ ∀ v ∈ _ ++ [], _
    rw [List.append_nil]
    exact ⟨hgroups, hin⟩

/-- Over a whole sequence of replies the version ends increase. -/
theorem Advancing.pairwise_closedVersions {start : ℤ} {replies : List (List Group × ℤ)}
    (h : Advancing start replies) (hnonneg : ∀ d ∈ replies, ∀ g ∈ d.1, 0 ≤ g.1) :
    (closedVersions (replies.flatMap fun d => replyEntries d.1 d.2)).Pairwise (· < ·) ∧
      ∀ v ∈ closedVersions (replies.flatMap fun d => replyEntries d.1 d.2),
        start < v := by
  induction h with
  | nil start => exact ⟨List.Pairwise.nil, fun v hv => nomatch hv⟩
  | @cons start watermark groups rest hahead hsorted hbounds _ ih =>
    obtain ⟨hrest, hlater⟩ := ih fun d hd => hnonneg d (List.mem_cons_of_mem _ hd)
    obtain ⟨hfirst, hin⟩ := closedVersions_replyEntries hahead hsorted hbounds
      (hnonneg _ List.mem_cons_self)
    rw [List.flatMap_cons, closedVersions_append]
    refine ⟨List.pairwise_append.2 ⟨hfirst, hrest, ?_⟩, ?_⟩
    · intro v hv w hw
      exact_mod_cast (hin v hv).2.trans_lt (hlater w hw)
    · intro v hv
      rcases List.mem_append.1 hv with hv | hv
      · exact (hin v hv).1
      · exact hahead.trans (hlater v hv)

/-! ## Any number of polls -/

namespace FDBMutationListener

/-- Successful polls of one listener, with calls of `acknowledge` in between, in any order and with
any outcome. `tr` is what was called, `records` what the polls returned. The listener itself sees
to it that a poll succeeds only after the reply before it was acknowledged. -/
inductive PollRun : ListenerState → List (Event Response) → List FDBMutationRecord →
    ListenerState → Prop
  | nil (s : ListenerState) : PollRun s [] [] s
  | poll {s s₁ s₂ : ListenerState} {tr tr' : List (Event Response)}
      {records new : List FDBMutationRecord} (h : PollRun s tr records s₁) (fuel : ℕ)
      (bridgeTimestampNs : Option PyVal)
      (hpoll : (pollRecords fuel bridgeTimestampNs s₁).Returns tr' (.ok new, s₂)) :
      PollRun s (tr ++ tr') (records ++ new) s₂
  | acknowledge {s s₁ s₂ : ListenerState} {tr tr' : List (Event Response)}
      {records : List FDBMutationRecord} {r : Except PyExc Unit} (h : PollRun s tr records s₁)
      (fuel : ℕ) (hack : (acknowledge fuel s₁).Returns tr' (r, s₂)) :
      PollRun s (tr ++ tr') records s₂

variable {s s' : ListenerState} {tr : List (Event Response)} {records : List FDBMutationRecord}

theorem pollRecords_returns {fuel : ℕ} {bridgeTimestampNs : Option PyVal}
    (h : (pollRecords fuel bridgeTimestampNs s).Returns tr (.ok records, s')) :
    recordConfig s' = recordConfig s ∧ ∃ reply timestampNs, consumedReplies tr = [reply] ∧
      recordsOfReply s.listener.streamName s.listener.maxRecordBytes timestampNs reply =
        .ok records := by
  have hwp := @wp_pollRecords_replies [] (recordConfig s) s fuel bridgeTimestampNs [] ⟨rfl, rfl⟩
  obtain ⟨m, hrun, hpost⟩ := hwp.of_returns h
  obtain ⟨reply, timestampNs, ⟨rfl, hconfig⟩, hrecords⟩ := hpost records rfl
  rw [replyMonitor_run] at hrun
  exact ⟨hconfig, reply, timestampNs, Option.some.inj hrun, hrecords⟩

theorem acknowledge_returns {fuel : ℕ} {r : Except PyExc Unit}
    (h : (acknowledge fuel s).Returns tr (r, s')) :
    recordConfig s' = recordConfig s ∧ consumedReplies tr = [] := by
  have hwp := @quiet_acknowledge [] (recordConfig s) fuel s [] ⟨rfl, rfl⟩
  obtain ⟨m, hrun, rfl, hconfig⟩ := hwp.of_returns h
  rw [replyMonitor_run] at hrun
  exact ⟨hconfig, Option.some.inj hrun⟩

/-- What the polls of a run consumed, with the records made of each reply. -/
theorem PollRun.batches (h : PollRun s tr records s') :
    recordConfig s' = recordConfig s ∧ ∃ batches : List (List FDBMutationRecord),
      records = batches.flatten ∧
        List.Forall₂ (fun reply batch => ∃ timestampNs, recordsOfReply s.listener.streamName
          s.listener.maxRecordBytes timestampNs reply = .ok batch) (consumedReplies tr) batches := by
  induction h with
  | nil => exact ⟨rfl, [], rfl, .nil⟩
  | @poll s₁ s₂ tr tr' records new _ fuel bridgeTimestampNs hpoll ih =>
    obtain ⟨hconfig, batches, rfl, hbatches⟩ := ih
    obtain ⟨hconfig', reply, timestampNs, hreply, hnew⟩ := pollRecords_returns hpoll
    obtain ⟨hname, hmax⟩ := Prod.mk.inj hconfig
    rw [hname, hmax] at hnew
    refine ⟨hconfig'.trans hconfig, batches ++ [new], by simp, ?_⟩
    rw [consumedReplies, List.flatMap_append]
    refine List.rel_append hbatches ?_
    show List.Forall₂ _ (consumedReplies tr') _
    rw [hreply]
    exact .cons ⟨timestampNs, hnew⟩ .nil
  | @acknowledge s₁ s₂ tr tr' records r _ fuel hack ih =>
    obtain ⟨hconfig, batches, rfl, hbatches⟩ := ih
    obtain ⟨hconfig', hnone⟩ := acknowledge_returns hack
    refine ⟨hconfig'.trans hconfig, batches, rfl, ?_⟩
    have happend : consumedReplies (tr ++ tr') = consumedReplies tr := by
      rw [consumedReplies, List.flatMap_append]
      show consumedReplies tr ++ consumedReplies tr' = _
      rw [hnone, List.append_nil]
    rwa [happend]

/-! ## Faithful polling -/

/-- What the batches of a run say, when it is known what the replies deliver. -/
theorem batches_say {streamName : PyStr} {maxRecordBytes : ℤ} {consumed : List CdcReply}
    {replies : List (List Group × ℤ)}
    (hreplies : List.Forall₂ (fun reply d => reply.Delivers d.1 d.2) consumed replies) :
    ∀ {batches : List (List FDBMutationRecord)},
      List.Forall₂ (fun reply batch => ∃ timestampNs,
        recordsOfReply streamName maxRecordBytes timestampNs reply = .ok batch) consumed batches →
      Says maxRecordBytes (payloads batches.flatten)
          (replies.flatMap fun d => replyEntries d.1 d.2) ∧
        (∀ d ∈ replies, ∀ g ∈ d.1, 0 ≤ g.1) ∧
        List.Forall₂ (fun reply bytes => ∃ timestampNs,
          serializeReply streamName maxRecordBytes timestampNs reply = .ok bytes) consumed
          (batches.map payloads) := by
  induction hreplies with
  | nil =>
    intro batches hbatches
    cases hbatches
    exact ⟨⟨rfl, fun _ hd => (nomatch hd), fun _ hd => (nomatch hd), fun _ hd => nomatch hd⟩,
      fun _ hd => (nomatch hd), .nil⟩
  | @cons reply d consumed replies hd _ ih =>
    intro batches hbatches
    cases hbatches with
    | @cons _ batch _ batches hbatch hbatches =>
      obtain ⟨timestampNs, hbatch⟩ := hbatch
      obtain ⟨hserialized, hrep, hnonneg⟩ := recordsOfReply_represents hd hbatch
      obtain ⟨hrest, hrestNonneg, hrestSerialized⟩ := ih hbatches
      refine ⟨?_, ?_, .cons ⟨timestampNs, hserialized⟩ hrestSerialized⟩
      · rw [List.flatten_cons, payloads, List.map_append, List.flatMap_cons]
        exact hrep.append hrest
      · intro d' hd'
        rcases List.mem_cons.1 hd' with rfl | hd'
        · exact hnonneg
        · exact hrestNonneg d' hd'

/-- Whatever replies the polls of a run consumed, the records that they returned decode, in order,
to the mutations of each version group and its version end, with a version end for each watermark
past the last group and nothing else. The version ends increase. What `produce` sends are the very
bytes of the serializer, within the budget. -/
theorem pollRun_faithful (h : PollRun s tr records s') {start : ℤ}
    {replies : List (List Group × ℤ)} (hadvancing : Advancing start replies)
    (hreplies : List.Forall₂ (fun reply d => reply.Delivers d.1 d.2) (consumedReplies tr) replies) :
    logEntries (payloads records) = replies.flatMap (fun d => replyEntries d.1 d.2) ∧
      (∀ payload ∈ payloads records, ∃ record, deserializeRecord (.bytes payload) = .ok record) ∧
      (closedVersions (logEntries (payloads records))).Pairwise (· < ·) ∧
      (∀ payload ∈ payloads records, (payload.length : ℤ) ≤ s.listener.maxRecordBytes) ∧
      ∃ serialized : List (List Bytes), payloads records = serialized.flatten ∧
        List.Forall₂ (fun reply bytes => ∃ timestampNs, serializeReply s.listener.streamName
          s.listener.maxRecordBytes timestampNs reply = .ok bytes)
          (consumedReplies tr) serialized := by
  obtain ⟨-, batches, rfl, hbatches⟩ := h.batches
  obtain ⟨hrep, hnonneg, hserialized⟩ := batches_say hreplies hbatches
  refine ⟨hrep.entries, hrep.decodes, ?_, hrep.fits, batches.map payloads, ?_, hserialized⟩
  · rw [hrep.entries]
    exact (hadvancing.pairwise_closedVersions hnonneg).1
  · rw [payloads, List.map_flatten]
    rfl

/-- A listener of the stream `s` whose consumer `0` is active. -/
def started (awaitingAck : Bool) : ListenerState where
  listener :=
    { rawStreamName := [115]
      streamName := PyStr.ofChars [ 's']
      keyRange := none
      initialCursor := none
      maxRecordBytes := 100
      resumeTimeoutSeconds := defaultResumeTimeoutSeconds
      resumePollIntervalSeconds := defaultResumePollIntervalSeconds
      consumer := some 0
      isClosed := false
      awaitingAck := awaitingAck
      deliveryFailed := false }
  client := ⟨true⟩
  producer := none

/-- A group at version 5 with one mutation, and the watermark 6. -/
def firstReply : CdcReply := ⟨some [⟨5, .items [NativeMutation.toPy ⟨0, [1], [2]⟩]⟩], some 6⟩

/-- No group, and the watermark 9. -/
def secondReply : CdcReply := ⟨none, some 9⟩

theorem pollRecords_started {reply : CdcReply} {timestampNs : PyVal}
    {records : List FDBMutationRecord}
    (h : recordsOfReply (PyStr.ofChars [ 's']) 100 timestampNs reply = .ok records) :
    (pollRecords 0 (some timestampNs) (started false)).Returns
      [⟨.fdb (.consume 0), ⟨[], .ok reply, fun h => nomatch h⟩⟩]
      (.ok records, started (!records.isEmpty)) := by
  refine .step _ ?_
  show Prog.Path (deliver reply timestampNs _) [] _
  rw [deliver_ok h]
  exact .here _

theorem acknowledge_started :
    (acknowledge 0 (started true)).Returns
      [⟨.fdb (.acknowledge 0), ⟨[], .ok (), fun h => nomatch h⟩⟩] (.ok (), started false) :=
  .step _ (.here _)

theorem exists_nonempty {x : Except PyExc (List FDBMutationRecord)}
    (h : x.toOption.any (fun records => !records.isEmpty) = true) :
    ∃ records, x = .ok records ∧ records.isEmpty = false := by
  cases x with
  | error e => cases h
  | ok records => exact ⟨records, rfl, by simpa [Except.toOption] using h⟩

/-- Two replies with an acknowledgement in between. -/
theorem pollRun_faithful_two :
    ∃ records : List FDBMutationRecord, logEntries (payloads records) =
      [.item ⟨5, 0, (0, [1], [2])⟩, .closed 5 1, .closed 6 0, .closed 9 0] := by
  obtain ⟨first, hfirst, hfirstNe⟩ : ∃ records, recordsOfReply (PyStr.ofChars [ 's']) 100 (.int 0)
      firstReply = .ok records ∧ records.isEmpty = false :=
    exists_nonempty (by decide +kernel)
  obtain ⟨second, hsecond, -⟩ : ∃ records, recordsOfReply (PyStr.ofChars [ 's']) 100 (.int 1)
      secondReply = .ok records ∧ records.isEmpty = false :=
    exists_nonempty (by decide +kernel)
  have hpoll := pollRecords_started hfirst
  rw [hfirstNe] at hpoll
  have hrun := ((PollRun.nil (started false)).poll 0 (some (.int 0)) hpoll).acknowledge 0
    acknowledge_started |>.poll 0 (some (.int 1)) (pollRecords_started hsecond)
  have hadvancing : Advancing (-1) [([(5, [⟨0, [1], [2]⟩])], 6), ([], 9)] :=
    .cons (by decide) (by simp) (by simp) (.cons (by decide) .nil (fun g hg => nomatch hg) (.nil 9))
  have hdelivers : firstReply.Delivers [(5, [⟨0, [1], [2]⟩])] 6 :=
    ⟨.cons ⟨rfl, _, rfl, .cons (NativeMutation.toPy_represents _) .nil⟩ .nil, rfl⟩
  have hfaithful := pollRun_faithful hrun hadvancing
    (.cons hdelivers (.cons ⟨.nil, rfl⟩ .nil))
  exact ⟨_, hfaithful.1⟩

end FDBMutationListener

end FdbKafkaBridge
