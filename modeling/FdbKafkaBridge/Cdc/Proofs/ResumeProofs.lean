import FdbKafkaBridge.Cdc.Proofs.GuardProofs
import FdbKafkaBridge.Interaction.Descriptions

/-!
# Resuming a listener

A run of `start` with a cursor is described in pieces: the lookups before the native resume, the
loop that waits for the read version, and what follows the loop.
-/

namespace FdbKafkaBridge

open Protobuf (Bytes)
open Serialization (FDBMutationRecord)
open Interaction

/-- A call that comes before a consumer is made. -/
def Call.isSetup : Call → Bool
  | .fdb .openDatabase => true
  | .fdb (.registerCdcStream ..) => true
  | _ => false

namespace FDBMutationListener

/-! ## The loop -/

/-- An answer that the cluster can read the version `target`. -/
def Observes (target : ℤ) (e : Event Response) : Prop :=
  ∃ (r : Response (.fdb .getReadVersion)) (v : ℤ), e = ⟨.fdb .getReadVersion, r⟩ ∧
    r.result = .ok v ∧ target ≤ v

/-- An answer that the cluster cannot read the version `target` yet. -/
def Behind (target : ℤ) (r : Response (.fdb .getReadVersion)) : Prop :=
  ∃ v : ℤ, r.result = .ok v ∧ v < target

def timedOut (target : ℤ) : PyExc :=
  .cdc .invalidCursor
    ("Timed out waiting for the cluster read version to reach resumed cursor version " ++
      toString target)

/-- The runs of the loop that waits for the read version, by the number of checks it may make. -/
inductive Waited (target : ℤ) (deadline interval : ℚ) :
    ℕ → Description Response (Except PyExc Unit)
  | checking (n : ℕ) : Waited target deadline interval n [] .cut
  | hung : Waited target deadline interval 0 [] .hung
  | behind {n : ℕ} {version : Response (.fdb .getReadVersion)} (hversion : Behind target version) :
    Waited target deadline interval (n + 1) [⟨_, version⟩] .cut
  | early {n : ℕ} {version : Response (.fdb .getReadVersion)} {clock : Response (.host .monotonic)}
      {now : ℚ} (hversion : Behind target version) (hclock : clock.result = .ok now)
      (hnow : now < deadline) :
    Waited target deadline interval (n + 1) [⟨_, version⟩, ⟨_, clock⟩] .cut
  | reached {n : ℕ} {version : Response (.fdb .getReadVersion)} {v : ℤ}
      (hversion : version.result = .ok v) (hv : target ≤ v) :
    Waited target deadline interval (n + 1) [⟨_, version⟩] (.returned (.ok ()))
  | failed {n : ℕ} {version : Response (.fdb .getReadVersion)} {exc : PyExc}
      (hversion : version.result = .error exc) :
    Waited target deadline interval (n + 1) [⟨_, version⟩] (.returned (.error exc))
  | late {n : ℕ} {version : Response (.fdb .getReadVersion)} {clock : Response (.host .monotonic)}
      {now : ℚ} (hversion : Behind target version) (hclock : clock.result = .ok now)
      (hnow : deadline ≤ now) :
    Waited target deadline interval (n + 1) [⟨_, version⟩, ⟨_, clock⟩]
      (.returned (.error (timedOut target)))
  | slept {n : ℕ} {version : Response (.fdb .getReadVersion)} {clock : Response (.host .monotonic)}
      {now : ℚ} {tr : List (Event Response)} {e : Ending (Except PyExc Unit)}
      (hversion : Behind target version) (hclock : clock.result = .ok now) (hnow : now < deadline)
      (nap : Response (.host (.sleep (min interval (deadline - now)))))
      (rest : Waited target deadline interval n tr e) :
    Waited target deadline interval (n + 1) (⟨_, version⟩ :: ⟨_, clock⟩ :: ⟨_, nap⟩ :: tr) e

/-- The description of the result, and the listener at the end of the run. -/
def Leaves {α : Type} (after : Except PyExc α → FDBMutationListener)
    (L : Description Response (Except PyExc α)) :
    Description Response (Except PyExc α × ListenerState) := fun tr e =>
  L tr (e.map Prod.fst) ∧ ∀ r s', e = .returned (r, s') → s'.listener = after r

section Loop

variable {s : ListenerState} {target : ℤ} {deadline : ℚ}

/-- With an open database, asking for the read version is one call. -/
theorem describes_getReadVersion {L : Description Response (Except PyExc ℤ × ListenerState)}
    (hdb : s.client.db = true) (hcut : L [] .cut)
    (h : ∀ r : Response (.fdb .getReadVersion),
      L [⟨_, r⟩] (.returned (r.result, HasCallbacks.runCallbacks r.callbacks s))) :
    Proc.Describes L (onClient FDBClient.getReadVersion) s := by
  obtain ⟨listener, ⟨db⟩, producer⟩ := s
  cases hdb
  exact describes_native (c := .fdb .getReadVersion) hcut h

theorem describes_waitForReadVersion (n : ℕ) (hdb : s.client.db = true) :
    Proc.Describes (Leaves (fun _ => s.listener)
        (Waited target deadline s.listener.resumePollIntervalSeconds n))
      (waitForReadVersion target deadline n) s := by
  induction n generalizing s with
  | zero => exact Proc.describes_hang ⟨.hung, fun _ _ h => nomatch h⟩
  | succ n ih =>
    unfold waitForReadVersion
    refine Proc.describes_bind (describes_getReadVersion hdb ?_ fun version => ?_)
    · exact ⟨.checking _, fun _ _ h => nomatch h⟩
    cases hversion : version.result with
    | error exc =>
      refine ⟨.failed hversion, ?_⟩
      rintro _ _ ⟨⟩
      rfl
    | ok v =>
      by_cases hv : v < target
      · show Proc.Describes _ (if v < target then _ else _) _
        rw [if_pos hv]
        have hbehind : Behind target version := ⟨v, hversion, hv⟩
        refine Proc.describes_bind (describes_native (c := .host .monotonic) ?_ fun clock => ?_)
        · exact ⟨.behind hbehind, fun _ _ h => nomatch h⟩
        obtain ⟨now, hclock⟩ := clock.returns rfl
        rw [hclock]
        refine describes_raiseIf_bind (fun hlate => ?_) (fun hearly => ?_)
        · have hnow : deadline ≤ now := sub_nonpos.1 (of_decide_eq_true hlate)
          refine ⟨.late hbehind hclock hnow, ?_⟩
          rintro _ _ ⟨⟩
          rfl
        · have hnow : now < deadline := sub_pos.1 (not_le.1 (of_decide_eq_false hearly))
          refine Proc.describes_get_bind (Proc.describes_bind (describes_native
            (c := .host (.sleep (min s.listener.resumePollIntervalSeconds (deadline - now)))) ?_
            fun nap => ?_))
          · exact ⟨.early hbehind hclock hnow, fun _ _ h => nomatch h⟩
          obtain ⟨_, hnap⟩ := nap.returns rfl
          rw [hnap]
          have hloop := @ih (HasCallbacks.runCallbacks nap.callbacks (HasCallbacks.runCallbacks
            clock.callbacks (HasCallbacks.runCallbacks version.callbacks s))) hdb
          refine hloop.mono ?_
          rintro rest e ⟨hrest, hleft⟩
          exact ⟨.slept hbehind hclock hnow nap hrest, hleft⟩
      · show Proc.Describes _ (if v < target then _ else _) _
        rw [if_neg hv]
        refine Proc.describes_pure ⟨.reached hversion (not_lt.1 hv), ?_⟩
        rintro _ _ ⟨⟩
        rfl

end Loop

/-! ## A resumed consumer -/

/-- The exception of a `close` that raises replaces the one that it cleans up after. -/
def raisedBy {consumer : Handle} (close : Response (.fdb (.closeConsumer consumer)))
    (exc : PyExc) : PyExc :=
  match close.result with
  | .ok _ => exc
  | .error e => e

/-- What follows the loop, by how it has ended. -/
inductive Settled (consumer : Handle) :
    Ending (Except PyExc Unit) → Description Response (Except PyExc Unit)
  | cut (e : Ending (Except PyExc Unit)) : Settled consumer e [] .cut
  | hung : Settled consumer .hung [] .hung
  | restored {ack : Response (.fdb (.acknowledge consumer))} (hack : ack.result = .ok ()) :
    Settled consumer (.returned (.ok ())) [⟨_, ack⟩] (.returned (.ok ()))
  | refused {ack : Response (.fdb (.acknowledge consumer))} {exc : PyExc}
      (hack : ack.result = .error exc) :
    Settled consumer (.returned (.ok ())) [⟨_, ack⟩] .cut
  | dropped {ack : Response (.fdb (.acknowledge consumer))} {exc : PyExc}
      (hack : ack.result = .error exc) (close : Response (.fdb (.closeConsumer consumer))) :
    Settled consumer (.returned (.ok ())) [⟨_, ack⟩, ⟨_, close⟩]
      (.returned (.error (raisedBy close (consumeFailure exc "restore resumed CDC position"))))
  | unreached {exc : PyExc} (close : Response (.fdb (.closeConsumer consumer))) :
    Settled consumer (.returned (.error exc)) [⟨_, close⟩] (.returned (.error (raisedBy close exc)))

/-- What follows the native resume. -/
inductive Reconciled (timeout interval : ℚ) (cursor : PyCursor) (n : ℕ) (consumer : Handle) :
    Description Response (Except PyExc Unit)
  | resumed : Reconciled timeout interval cursor n consumer [] .cut
  | waited {clock : Response (.host .monotonic)} {now : ℚ} {tr tr' : List (Event Response)}
      {w e : Ending (Except PyExc Unit)} (hclock : clock.result = .ok now)
      (hwait : Waited (cursorVersion cursor) (now + timeout) interval n tr w)
      (htail : Settled consumer w tr' e) :
    Reconciled timeout interval cursor n consumer (⟨.host .monotonic, clock⟩ :: (tr ++ tr')) e

/-- The listener after the attempt to restore the position of `consumer`. -/
def settle (l : FDBMutationListener) (consumer : Handle) : Except PyExc Unit → FDBMutationListener
  | .ok _ => { l with consumer := some consumer }
  | .error _ => { l with consumer := none }

section Resumed

variable {s : ListenerState} {consumer : Handle}
  {Q : Description Response (Except PyExc Unit × ListenerState)}

theorem describes_dropConsumer {exc : PyExc} (hcut : Q [] .cut)
    (h : ∀ close : Response (.fdb (.closeConsumer consumer)),
      Q [⟨_, close⟩] (.returned (.error (raisedBy close exc),
        HasCallbacks.runCallbacks close.callbacks (s.setConsumer none)))) :
    Proc.Describes Q (dropConsumer consumer exc) s := by
  refine Proc.describes_modify_bind (Proc.describes_bind (describes_native
    (c := .fdb (.closeConsumer consumer)) hcut fun close => ?_))
  have hclose := h close
  unfold raisedBy at hclose
  cases hresult : close.result with
  | ok u =>
    rw [hresult] at hclose
    exact Proc.describes_throw hclose
  | error e =>
    rw [hresult] at hclose
    exact hclose

theorem describes_restore (hcut : Q [] .cut)
    (hok : ∀ ack : Response (.fdb (.acknowledge consumer)), ack.result = .ok () →
      Q [⟨_, ack⟩] (.returned (.ok (), HasCallbacks.runCallbacks ack.callbacks s)))
    (herror : ∀ (ack : Response (.fdb (.acknowledge consumer))) exc, ack.result = .error exc →
      Q [⟨_, ack⟩] (.returned (.error (consumeFailure exc "restore resumed CDC position"),
        HasCallbacks.runCallbacks ack.callbacks s))) :
    Proc.Describes Q (tryCatch (native (.fdb (.acknowledge consumer))) fun exc =>
      throw (consumeFailure exc "restore resumed CDC position")) s := by
  refine Proc.describes_tryCatch (describes_native (c := .fdb (.acknowledge consumer)) hcut
    fun ack => ?_)
  cases hack : ack.result with
  | ok u => exact hok ack hack
  | error exc => exact Proc.describes_throw (herror ack exc hack)

theorem describes_reconcile (cursor : PyCursor) (n : ℕ) (hdb : s.client.db = true)
    (hconsumer : s.listener.consumer = some consumer) :
    Proc.Describes (Leaves (settle s.listener consumer) (Reconciled s.listener.resumeTimeoutSeconds
        s.listener.resumePollIntervalSeconds cursor n consumer))
      (tryCatch (reconcileResumedConsumer n cursor consumer) (dropConsumer consumer)) s := by
  have hkept : settle s.listener consumer (.ok ()) = s.listener := by
    rw [settle, ← hconsumer]
  refine Proc.describes_tryCatch (Proc.describes_bind (describes_native (c := .host .monotonic) ?_
    fun clock => ?_))
  · exact ⟨.resumed, fun _ _ h => nomatch h⟩
  obtain ⟨now, hclock⟩ := clock.returns rfl
  rw [hclock]
  refine Proc.describes_get_bind (Proc.describes_bind ?_)
  have hwait := @describes_waitForReadVersion (HasCallbacks.runCallbacks clock.callbacks s)
    (cursorVersion cursor) (now + s.listener.resumeTimeoutSeconds) n hdb
  refine hwait.mono ?_
  rintro tr e ⟨htr, hleft⟩
  cases e with
  | cut =>
    have hshape := Reconciled.waited hclock htr (Settled.cut _ : Settled consumer _ [] _)
    rw [List.append_nil] at hshape
    exact ⟨hshape, fun _ _ h => nomatch h⟩
  | hung =>
    have hshape := Reconciled.waited hclock htr (Settled.hung : Settled consumer _ [] _)
    rw [List.append_nil] at hshape
    exact ⟨hshape, fun _ _ h => nomatch h⟩
  | returned rs =>
    obtain ⟨r, s'⟩ := rs
    have hl : s'.listener = s.listener := hleft r s' rfl
    have hcut : Leaves (settle s.listener consumer) (Reconciled s.listener.resumeTimeoutSeconds
        s.listener.resumePollIntervalSeconds cursor n consumer)
        (⟨.host .monotonic, clock⟩ :: (tr ++ [])) .cut :=
      ⟨.waited hclock htr (.cut _), fun _ _ h => nomatch h⟩
    cases r with
    | ok u =>
      refine describes_restore hcut (fun ack hack => ?_) fun ack exc hack => ?_
      · have hshape := Reconciled.waited hclock htr (.restored hack)
        refine ⟨hshape, ?_⟩
        rintro _ _ ⟨⟩
        exact hl.trans hkept.symm
      · refine describes_dropConsumer ?_ fun close => ?_
        · have hshape := Reconciled.waited hclock htr (.refused hack)
          rw [List.append_nil]
          exact ⟨hshape, fun _ _ h => nomatch h⟩
        · have hshape := Reconciled.waited hclock htr (.dropped hack close)
          rw [List.append_cons] at hshape
          refine ⟨hshape, ?_⟩
          rintro _ _ ⟨⟩
          exact congrArg (fun l => { l with consumer := none }) hl
    | error exc =>
      refine describes_dropConsumer ?_ fun close => ?_
      · rw [List.append_nil]
        rw [List.append_nil] at hcut
        exact hcut
      · refine ⟨.waited hclock htr (.unreached close), ?_⟩
        rintro _ _ ⟨⟩
        exact congrArg (fun l => { l with consumer := none }) hl

end Resumed

/-! ## The whole of `start` -/

/-- The runs of `start` in a listener `l` with a cursor and no consumer. -/
inductive Starts (l : FDBMutationListener) (cursor : PyCursor) (n : ℕ) :
    Description Response (Except PyExc Unit × FDBMutationListener)
  | cut {tr : List (Event Response)} (hsetup : ∀ x ∈ tr, x.call.isSetup = true) :
    Starts l cursor n tr .cut
  | raised {tr : List (Event Response)} (hsetup : ∀ x ∈ tr, x.call.isSetup = true)
      (exc : PyExc) :
    Starts l cursor n tr (.returned (.error exc, l))
  | refused {tr : List (Event Response)} {resume : Response (.fdb (.resumeCdcConsumer cursor))}
      {exc : PyExc} (hsetup : ∀ x ∈ tr, x.call.isSetup = true)
      (hresume : resume.result = .error exc) (exc' : PyExc) :
    Starts l cursor n (tr ++ [⟨_, resume⟩]) (.returned (.error exc', l))
  | resumed {tr rest : List (Event Response)}
      {resume : Response (.fdb (.resumeCdcConsumer cursor))} {consumer : Handle}
      {e : Ending (Except PyExc Unit)} (hsetup : ∀ x ∈ tr, x.call.isSetup = true)
      (hresume : resume.result = .ok consumer) (hrest : Reconciled
        l.resumeTimeoutSeconds l.resumePollIntervalSeconds cursor n consumer rest e) :
    Starts l cursor n (tr ++ ⟨_, resume⟩ :: rest) (e.map fun r => (r, settle l consumer r))

/-- Only calls of this kind, after which the database is open unless one has raised. -/
inductive SetsUp : Description Response (Except PyExc Unit × ClientState)
  | cut {tr : List (Event Response)} (hsetup : ∀ x ∈ tr, x.call.isSetup = true) :
    SetsUp tr .cut
  | raised {tr : List (Event Response)} (hsetup : ∀ x ∈ tr, x.call.isSetup = true)
      (exc : PyExc) (c : ClientState) :
    SetsUp tr (.returned (.error exc, c))
  | found {tr : List (Event Response)} {c : ClientState}
      (hsetup : ∀ x ∈ tr, x.call.isSetup = true) (hdb : c.client.db = true) :
    SetsUp tr (.returned (.ok (), c))

section SetsUp

variable {tr tr' : List (Event Response)}

theorem isSetup_nil : ∀ x ∈ ([] : List (Event Response)), x.call.isSetup = true :=
  fun _ h => nomatch h

theorem isSetup_append (h : ∀ x ∈ tr, x.call.isSetup = true)
    (h' : ∀ x ∈ tr', x.call.isSetup = true) : ∀ x ∈ tr ++ tr', x.call.isSetup = true := by
  intro x hx
  rcases List.mem_append.1 hx with hx | hx
  · exact h x hx
  · exact h' x hx

theorem isSetup_singleton {c : Call} (h : c.isSetup = true) (r : Response c) :
    ∀ x ∈ [(⟨c, r⟩ : Event Response)], x.call.isSetup = true := by
  intro x hx
  rw [List.mem_singleton.1 hx]
  exact h

theorem describes_open (c : ClientState) : Proc.Describes SetsUp FDBClient.open c := by
  obtain ⟨⟨db⟩, producer⟩ := c
  refine Proc.describes_get_bind ?_
  cases db with
  | true => exact Proc.describes_pure (.found isSetup_nil rfl)
  | false =>
    refine Proc.describes_bind (describes_native (c := .fdb .openDatabase) ?_ fun r => ?_)
    · exact .cut isSetup_nil
    have hcall := isSetup_singleton (c := .fdb .openDatabase) rfl r
    cases r.result with
    | ok u => exact Proc.describes_pure (.found hcall rfl)
    | error exc => exact .raised hcall exc _

theorem describes_registerCdcStream (name beginKey endKey : Bytes) (c : ClientState) :
    Proc.Describes SetsUp (FDBClient.registerCdcStream name beginKey endKey) c := by
  refine describes_raiseIf_bind (fun _ => .raised isSetup_nil _ _) fun _ => ?_
  refine Proc.describes_tryCatch (Proc.describes_bind ((describes_open c).mono ?_))
  intro tr e htr
  cases htr with
  | cut htr => exact .cut htr
  | raised htr exc c' => exact Proc.describes_throw (.raised (isSetup_append htr isSetup_nil) _ _)
  | @found _ c' htr hdb =>
    refine Proc.describes_bind (describes_native
      (c := .fdb (.registerCdcStream name beginKey endKey)) ?_ fun r => ?_)
    · exact .cut (isSetup_append htr isSetup_nil)
    have hcall := isSetup_singleton (c := .fdb (.registerCdcStream name beginKey endKey)) rfl r
    cases r.result with
    | ok version =>
      have hall := isSetup_append htr (isSetup_append hcall isSetup_nil)
      exact Proc.describes_pure (.found hall hdb)
    | error exc =>
      have hall := isSetup_append (isSetup_append htr hcall) isSetup_nil
      exact Proc.describes_throw (.raised hall _ _)

end SetsUp

section Start

variable {s : ListenerState} {cursor : PyCursor}

/-- With an open database, resuming a consumer is at most one call. -/
theorem describes_resumeCdcConsumer {L : Description Response (Except PyExc Handle × ListenerState)}
    (hdb : s.client.db = true) (hcut : L [] .cut)
    (hraise : ∀ exc, L [] (.returned (.error exc, s)))
    (herror : ∀ (r : Response (.fdb (.resumeCdcConsumer cursor))) exc exc', r.result = .error exc →
      L [⟨_, r⟩] (.returned (.error exc', HasCallbacks.runCallbacks r.callbacks s)))
    (hok : ∀ (r : Response (.fdb (.resumeCdcConsumer cursor))) consumer,
      r.result = .ok consumer →
      L [⟨_, r⟩] (.returned (.ok consumer, HasCallbacks.runCallbacks r.callbacks s))) :
    Proc.Describes L (onClient (FDBClient.resumeCdcConsumer cursor)) s := by
  obtain ⟨listener, ⟨db⟩, producer⟩ := s
  cases hdb
  refine Proc.describes_zoom ?_
  unfold FDBClient.resumeCdcConsumer
  split
  · refine describes_raiseIf_bind (fun _ => hraise _) fun _ => ?_
    refine describes_raiseIf_bind (fun _ => hraise _) fun _ => ?_
    refine Proc.describes_tryCatch (Proc.describes_bind (Proc.describes_pure ?_))
    refine describes_native (c := .fdb (.resumeCdcConsumer _)) hcut fun r => ?_
    cases hr : r.result with
    | ok consumer => exact hok r consumer hr
    | error exc => exact Proc.describes_throw (herror r exc _ hr)
  · exact Proc.describes_throw (hraise _)

/-- What is seen of an ending from outside. -/
def withListener : Except PyExc Unit × ListenerState → Except PyExc Unit × FDBMutationListener :=
  fun r => (r.1, r.2.listener)

theorem describes_startConsumer {tr₀ : List (Event Response)} (n : ℕ)
    (hcursor : s.listener.initialCursor = some cursor) (hdb : s.client.db = true)
    (hsetup : ∀ x ∈ tr₀, x.call.isSetup = true) :
    Proc.Describes (fun tr e => Starts s.listener cursor n (tr₀ ++ tr) (e.map withListener))
      (startConsumer n) s := by
  have hnil := isSetup_append hsetup isSetup_nil
  refine Proc.describes_get_bind ?_
  simp only [hcursor]
  refine Proc.describes_bind (describes_resumeCdcConsumer hdb ?_ ?_ ?_ ?_)
  · exact .cut hnil
  · exact fun exc => .raised hnil exc
  · exact fun resume exc exc' hresume => .refused hsetup hresume exc'
  · intro resume consumer hresume
    refine Proc.describes_modify_bind ?_
    have hreconcile := @describes_reconcile ((HasCallbacks.runCallbacks resume.callbacks
      s).setConsumer (some consumer)) consumer cursor n hdb rfl
    refine hreconcile.mono ?_
    rintro tr e ⟨htr, hleft⟩
    have hshape := Starts.resumed (l := s.listener) hsetup hresume htr
    cases e with
    | cut => exact hshape
    | hung => exact hshape
    | returned rs =>
      obtain ⟨r, s'⟩ := rs
      have hsettled : s'.listener = settle s.listener consumer r := by
        refine (hleft r s' rfl).trans ?_
        cases r <;> rfl
      rw [Ending.map_returned, withListener, hsettled]
      exact hshape

theorem describes_start (n : ℕ) (hcursor : s.listener.initialCursor = some cursor)
    (hconsumer : s.listener.consumer = none) :
    Proc.Describes (fun tr e => Starts s.listener cursor n tr (e.map withListener)) (start n) s := by
  refine Proc.describes_get_bind ?_
  simp only [hconsumer, Option.isSome_none, Bool.false_eq_true, if_false]
  refine describes_raiseIf_bind (fun _ => .raised isSetup_nil _) fun _ => ?_
  refine Proc.describes_bind (Proc.describes_zoom ((describes_open s.clientState).mono ?_))
  intro tr e htr
  cases htr with
  | cut htr => exact .cut htr
  | raised htr exc c => exact .raised htr exc
  | @found _ c htr hdb =>
    split
    · refine Proc.describes_bind (Proc.describes_zoom
        ((describes_registerCdcStream _ _ _ _).mono ?_))
      intro tr' e htr'
      cases htr' with
      | cut htr' => exact .cut (isSetup_append htr htr')
      | raised htr' exc c' => exact .raised (isSetup_append htr htr') exc
      | @found _ c' htr' hdb =>
        have hrest := @describes_startConsumer (s.setClientState c') cursor (tr ++ tr') n hcursor
          hdb (isSetup_append htr htr')
        refine hrest.mono fun rest e hstarts => ?_
        rwa [List.append_assoc] at hstarts
    · exact @describes_startConsumer (s.setClientState c) cursor tr n hcursor hdb htr

end Start

end FDBMutationListener

end FdbKafkaBridge
