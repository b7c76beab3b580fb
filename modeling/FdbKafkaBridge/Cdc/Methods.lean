import FdbKafkaBridge.Cdc.Proofs.StartProofs
import FdbKafkaBridge.Interaction.Calls

/-!
# Sequences of calls on an `FDBMutationListener`

The methods of a listener in any order, and what the marks of such a run show of the last reply.
-/

namespace FdbKafkaBridge

open Protobuf (Bytes)
open Serialization (FDBMutationRecord)
open Interaction

/-- A method of the listener with its arguments. `fuel` bounds the wait for the read version. -/
inductive ListenerMethod
  | start (fuel : ℕ)
  | pollRecords (fuel : ℕ) (bridgeTimestampNs : Option PyVal)
  | acknowledge (fuel : ℕ)
  | getPosition (fuel : ℕ)
  | close

namespace FDBMutationListener

/-- A listener as `__init__` leaves it. -/
structure IsNew (l : FDBMutationListener) : Prop where
  consumer : l.consumer = none
  isClosed : l.isClosed = false
  awaitingAck : l.awaitingAck = false
  deliveryFailed : l.deliveryFailed = false

theorem new_isNew {σ : Type} {streamName : PyStr} {keyRange : Option (Bytes × Bytes)}
    {cursor : Option PyCursor} {maxRecordBytes : ℤ} {s s' : σ} {tr : List (Event Response)}
    {l : FDBMutationListener}
    (h : (new streamName keyRange cursor maxRecordBytes s).Returns tr (.ok l, s')) : l.IsNew := by
  unfold new at h
  cases hraw : streamName.encode? with
  | none =>
    rw [hraw] at h
    cases h
  | some raw =>
    rw [hraw] at h
    cases h
    exact ⟨rfl, rfl, rfl, rfl⟩

end FDBMutationListener

/-- A method and the end of it. What is returned are the records of a poll. -/
def FDBMutationListener.perform : ListenerMethod → Py ListenerState (List FDBMutationRecord)
  | .start fuel => do
    start fuel
    return []
  | .pollRecords fuel bridgeTimestampNs => pollRecords fuel bridgeTimestampNs
  | .acknowledge fuel => do
    acknowledge fuel
    return []
  | .getPosition fuel => do
    let _ ← getPosition fuel
    return []
  | .close => do
    close
    return []

abbrev ListenerMark := Mark Response ListenerMethod PyExc ListenerState (List FDBMutationRecord)

/-- What became of the last reply. -/
inductive ReplyStatus
  /-- Nothing has been consumed. -/
  | nothing
  /-- It was consumed, and the poll has not ended. -/
  | consumed
  /-- The poll raised after it was consumed. -/
  | failed
  /-- Its records, at least one, were returned. -/
  | unacknowledged
  /-- It had no records, or it was acknowledged. -/
  | settled
  deriving DecidableEq

structure Seen where
  status : ReplyStatus
  /-- The consumer that was resumed and not acknowledged since. -/
  restoring : Option Handle
  /-- A reply has failed to serialize. -/
  failed : Bool
  /-- `close` has ended. -/
  closed : Bool
  /-- The consume or acknowledge that failed in this method. -/
  attempt : Option Call
  deriving DecidableEq

namespace Seen

def consume (v : Seen) (c : Call) (ok : Bool) : Seen :=
  if ok then { v with status := .consumed } else { v with attempt := some c }

/-- An acknowledgement of the last reply, or else of a restored position. -/
def acknowledge (v : Seen) (c : Call) (ok : Bool) : Seen :=
  match v.status, ok with
  | .unacknowledged, true => { v with restoring := none, status := .settled }
  | .unacknowledged, false => { v with restoring := none, attempt := some c }
  | _, _ => { v with restoring := none }

/-- The end of a poll that has consumed a reply. -/
def polled (v : Seen) (r : Except PyExc (List FDBMutationRecord)) : Seen :=
  match v.status, r with
  | .consumed, .ok [] => { v with status := .settled }
  | .consumed, .ok (_ :: _) => { v with status := .unacknowledged }
  | .consumed, .error _ => { v with status := .failed, failed := true }
  | _, _ => v

def next (v : Seen) : ListenerMark → Seen
  | .start .. => { v with attempt := none }
  | .event ⟨.fdb (.resumeCdcConsumer _), r⟩ => { v with restoring := r.result.toOption }
  | .event ⟨.fdb (.consume h), r⟩ => v.consume (.fdb (.consume h)) r.result.isOk
  | .event ⟨.fdb (.acknowledge h), r⟩ => v.acknowledge (.fdb (.acknowledge h)) r.result.isOk
  | .event _ => v
  | .finish (.pollRecords ..) r _ => v.polled r
  | .finish .close _ _ => { v with closed := true }
  | .finish .. => v

def initial : Seen := ⟨.nothing, none, false, false, none⟩

/-- What may be called: no consume while a reply is unacknowledged or has failed, and no acknowledge
but of a reply that was returned or of a position to be restored. -/
def Allows (v : Seen) : Call → Prop
  | .fdb (.consume _) => (v.status = .nothing ∨ v.status = .settled) ∧ v.failed = false
  | .fdb (.acknowledge h) =>
    (v.status = .unacknowledged ∨ v.status = .nothing ∧ v.restoring = some h) ∧ v.failed = false
  | _ => True

end Seen

namespace ListenerMark

def seen (marks : List ListenerMark) : Seen := marks.foldl Seen.next .initial

def isCloseConsumer : Call → Bool
  | .fdb (.closeConsumer _) => true
  | _ => false

/-- A poll or an acknowledge. -/
def delivers : ListenerMethod → Bool
  | .pollRecords .. => true
  | .acknowledge _ => true
  | _ => false

/-- A failed call leaves the listener as it was, but for a consumer that it started, and the same
method makes the same call again. -/
def Retriable (i : ListenerMethod) (attempt : Option Call) (s s' : ListenerState) : Prop :=
  s.listener.Activated s'.listener ∧
    ∀ c, attempt = some c → ∃ k, FDBMutationListener.perform i s' = .call c k

/-- What a listener promises. -/
def Guarded (marks : List ListenerMark) : ListenerMark → Prop
  | .start .. => True
  | .event e =>
    (seen marks).Allows e.call ∧ (seen marks).closed = false ∧
      (running marks = some .close → isCloseConsumer e.call = true)
  | .finish i r s' =>
    delivers i = true → (∃ exc, r = .error exc) → (seen marks).status ≠ .consumed →
      ∀ past s, opening marks = some (past, s) → Retriable i (seen marks).attempt s s'

end ListenerMark

end FdbKafkaBridge
