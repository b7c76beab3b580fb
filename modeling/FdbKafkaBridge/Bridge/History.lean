import FdbKafkaBridge.Bridge.Protocol
import FdbKafkaBridge.Interaction.Calls

/-!
# What the calls show of the replies

A trace of native calls is read as one reply after another. A reply is polled, its records are
handed to the producer, Kafka has them, the position is read and checkpointed, and the reply is
acknowledged. Nothing here mentions a flag of the pipeline, of the listener or of the producer.
-/

namespace FdbKafkaBridge

open Protobuf (Bytes)
open Serialization (FDBMutationRecord)
open Interaction

/-! ## Single calls -/

/-- A call that takes no reply further. -/
def Call.isAside : Call → Bool
  | .fdb (.consume _) => false
  | .fdb (.acknowledge _) => false
  | .fdb (.getPosition _) => false
  | .kafka (.beginTransaction _) => false
  | .kafka (.produce ..) => false
  | .kafka (.commitTransaction ..) => false
  | .host .timeNs => false
  | .host (.checkpoint _) => false
  | _ => true

def Call.isFlush : Call → Bool
  | .kafka (.flush ..) => true
  | _ => false

/-- Polling a reply, checkpointing it or acknowledging it. -/
def Call.isSettling : Call → Bool
  | .fdb (.consume _) => true
  | .fdb (.acknowledge _) => true
  | .fdb (.getPosition _) => true
  | .host (.checkpoint _) => true
  | _ => false

def Callback.isDeliveryError : Callback → Bool
  | .delivery (some _) => true
  | _ => false

/-- A delivery callback has reported an error. -/
def reportsError (e : Event Response) : Bool := e.response.callbacks.any Callback.isDeliveryError

def readsPosition : Event Response → Bool
  | ⟨.fdb (.getPosition _), r⟩ => r.result.isOk
  | _ => false

/-! ## One reply -/

section Cycle

variable (P : Contract)

/-- The reply was consumed, and its records are those that the time read next makes of it. -/
inductive Polls : Batch → List (Event Response) → Prop
  | intro {h : Handle} {reply : CdcReply} {records : List FDBMutationRecord}
      {rest : List (Event Response)} {t : ℕ} (consumed : Response (.fdb (.consume h)))
      (time : Response (.host .timeNs)) (hreply : consumed.result = .ok reply)
      (hrest : ∀ e ∈ rest, e.call.isAside = true) (htime : time.result = .ok t)
      (hrecords : P.render reply t = some records) :
      Polls ⟨h, reply, records⟩ (⟨_, consumed⟩ :: (rest ++ [⟨_, time⟩]))

/-- `Sends b done tr`: the batch was polled and `done` was handed to the producer, each value by a
call that returned. A commit is only tried when nothing is left. -/
inductive Sends (b : Batch) : List Bytes → List (Event Response) → Prop
  | polled {tr : List (Event Response)} (h : Polls P b tr) : Sends b [] tr
  | aside {done : List Bytes} {tr : List (Event Response)} {e : Event Response}
      (h : Sends b done tr) (he : e.call.isAside = true) : Sends b done (tr ++ [e])
  | begun {tr : List (Event Response)} {producer : Handle} (h : Sends b [] tr)
      (r : Response (.kafka (.beginTransaction producer))) : Sends b [] (tr ++ [⟨_, r⟩])
  | produced {done : List Bytes} {tr : List (Event Response)} {producer : Handle} {topic : String}
      {value : Bytes} {key : Option Bytes} (h : Sends b done tr)
      (r : Response (.kafka (.produce producer topic value key))) (hr : r.result = .ok ()) :
      Sends b (done ++ [value]) (tr ++ [⟨_, r⟩])
  | tried {tr : List (Event Response)} {producer : Handle} {timeout : ℚ} {exc : PyExc}
      (h : Sends b b.values tr) (r : Response (.kafka (.commitTransaction producer timeout)))
      (hr : r.result = .error exc) : Sends b b.values (tr ++ [⟨_, r⟩])

/-- Kafka has the whole batch: a flush has left nothing behind and no delivery error was reported,
or the transaction was committed. -/
inductive Delivers (b : Batch) : List (Event Response) → Prop
  | flushed {tr : List (Event Response)} {producer : Handle} {timeout : ℚ}
      (h : Sends P b b.values tr) (r : Response (.kafka (.flush producer timeout)))
      (hr : r.result = .ok 0) (herrors : ∀ e ∈ tr ++ [⟨_, r⟩], reportsError e = false) :
      Delivers b (tr ++ [⟨_, r⟩])
  | committed {tr : List (Event Response)} {producer : Handle} {timeout : ℚ}
      (h : Sends P b b.values tr) (r : Response (.kafka (.commitTransaction producer timeout)))
      (hr : r.result = .ok ()) : Delivers b (tr ++ [⟨_, r⟩])

/-- The calls while a delivered batch waits: nothing more is published. -/
inductive Waits : Event Response → Prop
  | aside {e : Event Response} (h : e.call.isAside = true) (hflush : e.call.isFlush = false) : Waits e
  | position {h : Handle} (r : Response (.fdb (.getPosition h))) : Waits ⟨_, r⟩
  | checkpoint {cursor : PyCursor} {exc : PyExc} (r : Response (.host (.checkpoint cursor)))
      (hr : r.result = .error exc) : Waits ⟨_, r⟩
  /-- A position in the cursor file needs no callback. -/
  | acknowledge {h : Handle} {exc : PyExc} (hfile : P.checkpoint ≠ .callback)
      (r : Response (.fdb (.acknowledge h))) (hr : r.result = .error exc) : Waits ⟨_, r⟩

/-- The position was read after the delivery, and this is what it was the last time. -/
inductive Positions (b : Batch) (cursor : PyCursor) : List (Event Response) → Prop
  | intro {front waiting asking : List (Event Response)} (h : Delivers P b front)
      (hwaiting : ∀ e ∈ waiting, Waits P e) (r : Response (.fdb (.getPosition b.consumer)))
      (hr : r.result = .ok cursor)
      (hasking : ∀ e ∈ asking, Waits P e ∧ readsPosition e = false) :
      Positions b cursor (front ++ waiting ++ ⟨_, r⟩ :: asking)

/-- The calls while a checkpointed batch waits for its acknowledgement. -/
inductive Retries : Event Response → Prop
  | aside {e : Event Response} (h : e.call.isAside = true) (hflush : e.call.isFlush = false) :
      Retries e
  | acknowledge {h : Handle} {exc : PyExc} (r : Response (.fdb (.acknowledge h)))
      (hr : r.result = .error exc) : Retries ⟨_, r⟩

/-- The checkpoint has returned, once, for the position that was read last. -/
inductive Checkpoints (b : Batch) (cursor : PyCursor) : List (Event Response) → Prop
  | intro {tr retries : List (Event Response)} (h : Positions P b cursor tr)
      (r : Response (.host (.checkpoint cursor))) (hr : r.result = .ok ())
      (hretries : ∀ e ∈ retries, Retries e) : Checkpoints b cursor (tr ++ ⟨_, r⟩ :: retries)

/-- The batch may be acknowledged. -/
def Settles (b : Batch) (tr : List (Event Response)) : Prop :=
  ∃ cursor, Checkpoints P b cursor tr ∨ P.checkpoint ≠ .callback ∧ Positions P b cursor tr

/-- The calls between two replies. -/
inductive Rests : Event Response → Prop
  | aside {e : Event Response} (h : e.call.isAside = true) : Rests e
  | consume {h : Handle} {exc : PyExc} (r : Response (.fdb (.consume h)))
      (hr : r.result = .error exc) : Rests ⟨_, r⟩
  /-- A consumer that resumes acknowledges the position that it resumes from. -/
  | restore {h : Handle} (r : Response (.fdb (.acknowledge h))) : Rests ⟨_, r⟩

/-- The consumer was resumed from this position, and nothing was asked of it since. -/
inductive Resumes (h : Handle) (cursor : PyCursor) : List (Event Response) → Prop
  | intro {tr rest : List (Event Response)} (r : Response (.fdb (.resumeCdcConsumer cursor)))
      (hr : r.result = .ok h) (hrest : ∀ e ∈ rest, e.call.isAside = true) :
      Resumes h cursor (tr ++ ⟨_, r⟩ :: rest)

/-- What the calls since the last reply was done with show of the reply in hand. -/
def Stage.Shows : Stage → List (Event Response) → Prop
  | .idle, tr => ∀ e ∈ tr, Rests e
  | .received h reply, tr => ∃ (r : Response (.fdb (.consume h))) (rest : List (Event Response)),
      tr = ⟨_, r⟩ :: rest ∧ r.result = .ok reply ∧ ∀ e ∈ rest, e.call.isAside = true
  | .sending b done todo, tr => Sends P b done tr ∧ b.values = done ++ todo
  | .delivered b, tr => ∃ front waiting, tr = front ++ waiting ∧ Delivers P b front ∧
      ∀ e ∈ waiting, Waits P e
  | .positioned b cursor, tr => Positions P b cursor tr
  | .saved b cursor, tr => Checkpoints P b cursor tr
  | .orphaned _ _, _ => False
  | .abandoned h, tr => ∃ (r : Response (.fdb (.consume h))) (reply : CdcReply)
      (rest : List (Event Response)), tr = ⟨_, r⟩ :: rest ∧ r.result = .ok reply ∧
        ∀ e ∈ rest, e.call.isSettling = false

/-! ## One reply after another -/

/-- The trace goes through these replies, from the first call to the last. -/
inductive Replies : List (Event Response) → List (List FDBMutationRecord) → Prop
  | nil : Replies [] []
  | rest {tr cur : List (Event Response)} {done : List (List FDBMutationRecord)}
      (h : Replies tr done) (hcur : ∀ e ∈ cur, Rests e) : Replies (tr ++ cur) done
  /-- A reply without records needs no acknowledgement. -/
  | empty {tr cur : List (Event Response)} {done : List (List FDBMutationRecord)} {b : Batch}
      (h : Replies tr done) (hcur : Polls P b cur) (hempty : b.records = []) :
      Replies (tr ++ cur) (done ++ [[]])
  | acknowledged {tr cur : List (Event Response)} {done : List (List FDBMutationRecord)} {b : Batch}
      (h : Replies tr done) (hcur : Settles P b cur)
      (r : Response (.fdb (.acknowledge b.consumer))) (hr : r.result = .ok ()) :
      Replies (tr ++ (cur ++ [⟨_, r⟩])) (done ++ [b.records])

end Cycle

/-! ## Transactions -/

/-- What the open transaction holds, when there is one. -/
def transactionStep (held : Option (List Bytes)) : Event Response → Option (List Bytes)
  | ⟨.kafka (.beginTransaction _), r⟩ => if r.result.isOk then some [] else held
  | ⟨.kafka (.produce _ _ value _), r⟩ =>
    if r.result.isOk then held.map (· ++ [value]) else held
  | ⟨.kafka (.commitTransaction ..), r⟩ => if r.result.isOk then none else held
  | ⟨.kafka (.abortTransaction ..), r⟩ => if r.result.isOk then none else held
  | _ => held

def transaction (tr : List (Event Response)) : Option (List Bytes) := tr.foldl transactionStep none

/-- The marks of steps, each with the bound of the waits in it. -/
abbrev PipelineMark := Mark Response ℕ PyExc Session ℕ

namespace PipelineMark

/-- The mark is the end of a step that returned. -/
def returned? : PipelineMark → Option ℕ
  | .finish _ (.ok n) _ => some n
  | _ => none

/-- What the steps have returned. -/
def returned (marks : List PipelineMark) : List ℕ := marks.filterMap returned?

end PipelineMark

namespace Session

/-- What the calls of a pipeline are checked against. -/
def contract (s : Session) : Contract :=
  ⟨s.listener.streamName, s.listener.maxRecordBytes, s.pipeline.settings.checkpoint, true⟩

/-- A pipeline that was just made, over an open listener and a producer without a transaction. -/
structure IsNew (s : Session) : Prop where
  pipeline : s.pipeline = BridgePipeline.new s.pipeline.settings
  isClosed : s.listener.isClosed = false
  txnOpen : s.producer.txnOpen = false

end Session

end FdbKafkaBridge
