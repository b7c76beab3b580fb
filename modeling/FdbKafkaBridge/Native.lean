import FdbKafkaBridge.Exceptions
import FdbKafkaBridge.Interaction.Descriptions
import FdbKafkaBridge.Serialization.Model

/-!
# Native calls

Everything outside the package that the bridge calls: the FoundationDB binding, `confluent_kafka`,
files, clocks, the shutdown event, and the checkpoint callback that a pipeline may be given. While a
call runs, librdkafka may run callbacks of the producer; a response lists those that ran, in order,
before it gives the result or the exception of the call. Numbers of seconds are rational.
-/

namespace FdbKafkaBridge

open Protobuf (Bytes)
open Serialization (PyIterable)
open Interaction

/-- A native object, such as a `CdcConsumer` or a `Producer`. -/
abbrev Handle := ℕ

/-- A cursor object, as far as its coordinates are read. An attribute or a key that is missing is
`none`. -/
inductive PyCursor
  | none
  | object (streamId lastConsumedVersion : Option PyVal)
  | dict (streamId lastConsumedVersion : Option PyVal)
  deriving DecidableEq, Repr

/-- One version group of a native reply. -/
structure CdcVersionGroup where
  version : ℤ
  mutations : PyIterable
  deriving DecidableEq, Repr

/-- A native reply. An attribute that is missing is `none`. -/
structure CdcReply where
  mutations : Option (List CdcVersionGroup)
  lastConsumedVersion : Option ℤ
  deriving DecidableEq, Repr

/-- The content of a text file as `json.load` reads it. -/
inductive JsonText
  /-- Not JSON, or not UTF-8: `json.load` raises a `ValueError`. -/
  | malformed
  | notObject (typeName : String)
  | object (streamId lastConsumedVersion streamName : Option PyVal)
  deriving DecidableEq, Repr

inductive FdbCall
  | openDatabase
  | registerCdcStream (name beginKey endKey : Bytes)
  | createCdcConsumer (name : Bytes)
  | resumeCdcConsumer (cursor : PyCursor)
  | getReadVersion
  | consume (consumer : Handle)
  | acknowledge (consumer : Handle)
  | getPosition (consumer : Handle)
  | closeConsumer (consumer : Handle)
  deriving DecidableEq, Repr

inductive KafkaCall
  | newProducer (transactionalId : Option String)
  | initTransactions (producer : Handle) (timeout : ℚ)
  | beginTransaction (producer : Handle)
  | commitTransaction (producer : Handle) (timeout : ℚ)
  | abortTransaction (producer : Handle) (timeout : ℚ)
  | produce (producer : Handle) (topic : String) (value : Bytes) (key : Option Bytes)
  | poll (producer : Handle)
  | flush (producer : Handle) (timeout : ℚ)
  | purge (producer : Handle)
  | queueLength (producer : Handle)
  /-- The last reference to the producer is dropped. -/
  | dropProducer (producer : Handle)
  deriving DecidableEq, Repr

inductive FileCall
  | pathExists (path : String)
  | readJson (path : String)
  | openWrite (path : String)
  | dumpJson (path : String) (text : JsonText)
  | flushFile (path : String)
  | fsyncFile (path : String)
  | closeFile (path : String)
  | replace (source target : String)
  /-- Opens the parent directory of a path. -/
  | openParent (path : String)
  | fsyncParent (path : String)
  | closeParent (path : String)
  deriving DecidableEq, Repr

inductive HostCall
  | timeNs
  | monotonic
  | sleep (seconds : ℚ)
  | shutdownIsSet
  | shutdownSet
  | shutdownWait (timeout : ℚ)
  /-- The checkpoint callback that a pipeline was given. -/
  | checkpoint (cursor : PyCursor)
  deriving DecidableEq, Repr

inductive Call
  | fdb (c : FdbCall)
  | kafka (c : KafkaCall)
  | file (c : FileCall)
  | host (c : HostCall)
  deriving DecidableEq, Repr

/-- What a call returns when it does not raise. -/
@[reducible] def Call.Value : Call → Type
  | .fdb (.registerCdcStream ..) => ℤ
  | .fdb (.createCdcConsumer _) => Handle
  | .fdb (.resumeCdcConsumer _) => Handle
  | .fdb .getReadVersion => ℤ
  | .fdb (.consume _) => CdcReply
  | .fdb (.getPosition _) => PyCursor
  | .kafka (.newProducer _) => Handle
  | .kafka (.flush ..) => ℕ
  | .kafka (.queueLength _) => ℕ
  | .file (.pathExists _) => Bool
  | .file (.readJson _) => JsonText
  | .host .timeNs => ℕ
  | .host .monotonic => ℚ
  | .host .shutdownIsSet => Bool
  | _ => Unit

/-- A callback of the producer that ran during a call. -/
inductive Callback
  /-- `error_cb`. -/
  | error (err : KafkaError)
  /-- `on_delivery` of one message. -/
  | delivery (err : Option KafkaError)
  deriving DecidableEq, Repr

/-- Reading a clock, waiting, setting or reading an event, and destroying an object cannot raise. -/
def Call.canRaise : Call → Bool
  | .kafka (.dropProducer _) => false
  | .host (.checkpoint _) => true
  | .host _ => false
  | _ => true

structure Response (c : Call) where
  callbacks : List Callback
  result : Except PyExc c.Value
  returns : c.canRaise = false → ∃ v, result = .ok v

/-- The response that returns `v`. -/
def Response.value {c : Call} (v : c.Value) : Response c := ⟨[], .ok v, fun _ => ⟨v, rfl⟩⟩

/-- A part of the bridge, as a program over its state. -/
abbrev Py (σ α : Type) : Type := Proc Response PyExc σ α

/-- A state that contains a producer, or may do so, whose callbacks can run. -/
class HasCallbacks (σ : Type) where
  runCallbacks : List Callback → σ → σ

/-- A native call. -/
def native {σ : Type} [HasCallbacks σ] (c : Call) : Py σ c.Value := fun s =>
  .call c fun r => .ret (r.result, HasCallbacks.runCallbacks r.callbacks s)

/-- `if condition: raise exc`. -/
def raiseIf {σ : Type} (condition : Bool) (exc : PyExc) : Py σ Unit :=
  Proc.when condition (throw exc)

/-- A native call has one event, whose response is what it gives. -/
theorem returns_native {σ : Type} [HasCallbacks σ] {c : Call} {s : σ} {tr : List (Event Response)}
    {r : Except PyExc c.Value × σ} :
    ((native c : Py σ c.Value) s).Returns tr r ↔ ∃ response, tr = [⟨c, response⟩] ∧
      r = (response.result, HasCallbacks.runCallbacks response.callbacks s) := by
  constructor
  · intro h
    cases h with
    | step response h =>
      cases h
      exact ⟨response, rfl, rfl⟩
  · rintro ⟨response, rfl, rfl⟩
    exact .step response (.here _)

/-- A call that cannot raise, and what comes after it. -/
theorem returns_native_bind {σ β : Type} [HasCallbacks σ] {c : Call} (hc : c.canRaise = false)
    {f : c.Value → Py σ β} {s : σ} {tr : List (Event Response)} {r : Except PyExc β × σ}
    (h : ((native c >>= f) s).Returns tr r) :
    ∃ response v rest, tr = ⟨c, response⟩ :: rest ∧ response.result = .ok v ∧
      (f v (HasCallbacks.runCallbacks response.callbacks s)).Returns rest r := by
  obtain ⟨tr₁, tr₂, ⟨result, s₁⟩, rfl, hcall, hrest⟩ := Prog.Returns.of_bind h
  obtain ⟨response, rfl, heq⟩ := returns_native.1 hcall
  obtain ⟨rfl, rfl⟩ := Prod.mk.inj heq
  obtain ⟨v, hv⟩ := response.returns hc
  rw [hv] at hrest
  exact ⟨response, v, tr₂, rfl, hv, hrest⟩

theorem describes_native {σ : Type} [HasCallbacks σ] {c : Call} {s : σ}
    {L : Description Response (Except PyExc c.Value × σ)} (hcut : L [] .cut)
    (h : ∀ r : Response c,
      L [⟨c, r⟩] (.returned (r.result, HasCallbacks.runCallbacks r.callbacks s))) :
    Proc.Describes L (native c) s := by
  intro tr q hpath
  cases hpath with
  | here => exact hcut
  | step r hpath =>
    cases hpath
    exact h r

theorem describes_raiseIf_bind {σ β : Type} {condition : Bool} {exc : PyExc} {f : Unit → Py σ β}
    {s : σ} {Q : Description Response (Except PyExc β × σ)}
    (htrue : condition = true → Q [] (.returned (.error exc, s)))
    (hfalse : condition = false → Proc.Describes Q (f ()) s) :
    Proc.Describes Q (raiseIf condition exc >>= f) s := by
  cases condition with
  | true => exact Proc.describes_throw (htrue rfl)
  | false => exact hfalse rfl

section Rules

variable {σ α μ : Type} {M : Monitor Response μ} {s : σ} {m : μ}

/-- A call is allowed whatever its response, and the rest holds for each. -/
theorem wp_native [HasCallbacks σ] {c : Call} {Q : Except PyExc c.Value → σ → μ → Prop} :
    Proc.wp M (native c) Q s m ↔
      ∀ r : Response c, ∃ m', M.next m ⟨c, r⟩ = some m' ∧
        Q r.result (HasCallbacks.runCallbacks r.callbacks s) m' := Iff.rfl

theorem wp_raiseIf {condition : Bool} {exc : PyExc}
    {Q : Except PyExc Unit → σ → μ → Prop} :
    Proc.wp M (raiseIf condition exc) Q s m ↔
      if condition then Q (.error exc) s m else Q (.ok ()) s m := by
  cases condition <;> rfl

theorem wp_raiseIf_bind {β : Type} {condition : Bool} {exc : PyExc} {f : Unit → Py σ β}
    {Q : Except PyExc β → σ → μ → Prop} :
    Proc.wp M (raiseIf condition exc >>= f) Q s m ↔
      if condition then Q (.error exc) s m else Proc.wp M (f ()) Q s m := by
  cases condition <;> rfl

theorem preserves_native [HasCallbacks σ] {I : σ → μ → Prop} {c : Call}
    (h : ∀ s m, I s m → ∀ r : Response c, ∃ m', M.next m ⟨c, r⟩ = some m' ∧
      I (HasCallbacks.runCallbacks r.callbacks s) m') :
    Proc.Preserves M I (native c : Py σ c.Value) :=
  fun s m hs => wp_native.2 (h s m hs)

theorem preserves_raiseIf {I : σ → μ → Prop} (condition : Bool) (exc : PyExc) :
    Proc.Preserves M I (raiseIf condition exc) := by
  intro s m h
  rw [wp_raiseIf]
  cases condition <;> exact h

end Rules

end FdbKafkaBridge
