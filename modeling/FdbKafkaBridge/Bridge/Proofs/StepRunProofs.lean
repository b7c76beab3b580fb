import FdbKafkaBridge.Bridge.Proofs.HistoryProofs
import FdbKafkaBridge.Bridge.Proofs.StepProofs
import FdbKafkaBridge.Cdc.Proofs.PollProofs
import FdbKafkaBridge.Interaction.Followed

/-!
# Any number of steps

A pipeline that was just made is linked to the protocol, and every step keeps it so. The protocol
therefore follows every run of steps, whatever the calls return or raise.
-/

namespace FdbKafkaBridge

open Protobuf (Bytes)
open Serialization (FDBMutationRecord)
open Interaction

/-! ## Where a run starts -/

namespace Session

/-- The protocol of a pipeline that was just made. -/
def protocol (s : Session) : Protocol where
  stage := .idle
  sink := s.producer.producer.map fun h =>
    { Sink.fresh h s.producer.transactional with errored := !s.producer.deliveryErrors.isEmpty }
  restoring := none
  loaded := s.listener.initialCursor
  draft := none
  stopping := false
  rogue := false
  raised := []
  finished := []
  restored := []

variable {s : Session}

theorem protocol_sink {k : Sink} (h : s.protocol.sink = some k) :
    k.txnOpen = false ∧ k.clean = true ∧ k.held = false := by
  obtain ⟨handle, -, rfl⟩ := Option.map_eq_some_iff.1 h
  exact ⟨rfl, rfl, rfl⟩

theorem protocol_clean (s : Session) : s.protocol.sink.all Sink.clean = true := by
  cases hsink : s.protocol.sink with
  | none => rfl
  | some k => exact (protocol_sink hsink).2.1

theorem protocol_unheld (s : Session) : Unheld s.protocol := by
  unfold Unheld
  cases hsink : s.protocol.sink with
  | none => rfl
  | some k => exact (protocol_sink hsink).2.2

theorem protocol_sim (h : s.producer.txnOpen = false) : ProducerSim s.producer s.protocol.sink := by
  show ProducerSim s.producer (s.producer.producer.map _)
  cases hproducer : s.producer.producer with
  | none => exact hproducer
  | some handle =>
    refine ⟨hproducer, rfl, fun hnot => (by cases hnot), fun _ => rfl, h.symm, fun _ => rfl,
      fun _ => rfl, fun hopen => ?_⟩
    rw [h] at hopen
    cases hopen

/-- A pipeline that was just made is linked to the protocol. -/
theorem IsNew.linked (h : s.IsNew) : BridgePipeline.Linked s.contract s s.protocol := by
  have hunflagged : BridgePipeline.Unflagged s.pipeline := by
    rw [h.pipeline]
    exact ⟨rfl, rfl, rfl⟩
  have hsim := protocol_sim h.txnOpen
  refine ⟨⟨hsim, ⟨rfl, rfl, fun _ _ cursor hcursor => hcursor⟩, rfl⟩, ?_⟩
  by_cases hstuck : s.listener.awaitingAck = true ∨ s.listener.deliveryFailed = true
  · refine .parked ⟨⟨hunflagged, hstuck⟩, rfl, s.protocol_unheld, fun _ _ hopen => ?_⟩
    rw [h.txnOpen] at hopen
    cases hopen
  · rw [not_or, Bool.not_eq_true, Bool.not_eq_true] at hstuck
    exact .idle ⟨hunflagged, hstuck.1, hstuck.2, rfl, s.protocol_unheld, s.protocol_clean⟩

end Session

/-! ## What a run keeps -/

namespace PipelineMark

open BridgePipeline

variable {s₀ s : Session} {m : Protocol} {marks before after : List PipelineMark}

/-- What holds at the end of a step. -/
structure Ended (s₀ : Session) (r : Except PyExc ℕ) (s : Session) (m : Protocol) : Prop where
  linked : Linked s₀.contract s m
  static : Static s₀ s
  guard : ∀ exc, r = .error exc → guardError exc → exc ∈ m.raised

/-- A transactional pipeline with a callback, which tries a commit once in a step. -/
def committer : Session where
  listener := ⟨[115], [.scalar 's'], none, none, 100, 10, 1, some 3, false, false, false⟩
  client := ⟨true⟩
  producer := ⟨some 7, [], true, true, false, false⟩
  pipeline := BridgePipeline.new
    ⟨"fdb-cdc", .callback, [115], 1, 0, 1, 0, 10, Nat.one_pos, Nat.one_pos⟩
  counted := none

/-- A reply without a group, whose watermark is 9. -/
def watermark : CdcReply := ⟨none, some 9⟩

/-- The version end that is polled of it. -/
def polledRecord : FDBMutationRecord :=
  ((recordsOfReply [.scalar 's'] 100 (.int 0) watermark).toOption.getD []).headD .empty

def committed : PyCursor := .object (some (.str [.scalar 's'])) (some (.int 9))

/-- The pipeline once the reply was polled. -/
def polled : Session :=
  { committer with listener := { committer.listener with awaitingAck := true } }

/-- The pipeline after them. -/
def settled : Session :=
  { committer with pipeline := { committer.pipeline with pendingCount := 1 } }

end PipelineMark

end FdbKafkaBridge
