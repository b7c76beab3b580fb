import FdbKafkaBridge.Bridge.Components
import FdbKafkaBridge.Bridge.Proofs.LoadingProofs
import FdbKafkaBridge.Bridge.Proofs.SavedCursorProofs

/-!
# A cursor file that is never of use

The loop of `run` ends with an exception that is permanent. A cursor file that the load refuses, or
that belongs to a listener which cannot be constructed, raises one as soon as it has been read. One
whose coordinates only `resume_cdc_consumer` refuses raises a `CDCInvalidCursorError`, and the rebuild
is tried again.
-/

namespace FdbKafkaBridge

open Interaction

/-- The content is found in the file. -/
def Finds (path : String) (text : JsonText) (e : Event Response) : Prop :=
  ∃ r : Response (.file (.readJson path)), r.result = .ok text ∧ e = ⟨.file (.readJson path), r⟩

/-- What is found makes the load or the construction of the listener fail. -/
def BridgeConfig.Refuses (config : BridgeConfig) (path : String) (text : JsonText) : Prop :=
  (∃ exc, cursorOfText path (some config.streamName) text = .error exc) ∨
    config.maxRecordBytes < 1 ∨ config.streamName.encode? = none

namespace Bridge

variable {config : BridgeConfig} {path : String} {text : JsonText} {b : Bridge}

/-- Neither a listener nor a producer is held. -/
structure Bare (config : BridgeConfig) (b : Bridge) : Prop where
  config : b.config = config
  listener : b.listener = none
  producer : b.producer = none

theorem Bare.runCallbacks (h : b.Bare config) (callbacks : List Callback) :
    (HasCallbacks.runCallbacks callbacks b).Bare config := by
  refine ⟨h.config, h.listener, ?_⟩
  show HasCallbacks.runCallbacks callbacks b.producer = none
  rw [h.producer]
  rfl

/-- A permanent exception, and neither a listener nor a producer. -/
def Refused (config : BridgeConfig) (exc : PyExc) (b : Bridge) : Prop :=
  exc.isPermanent = true ∧ b.Bare config

/-- After what is found the run asks for shutdown and raises. -/
def Obeys (path : String) (text : JsonText) {σ : Type} :
    Description Response (Except PyExc Unit × σ) := fun tr e =>
  (∀ event ∈ tr, ¬ Finds path text event) ∨ ∃ before event after, tr = before ++ event :: after ∧
    (∀ event ∈ before, ¬ Finds path text event) ∧
      ((after = [] ∧ e = .cut) ∨
        ∃ set exc s, after = [⟨.host .shutdownSet, set⟩] ∧ e = .returned (.error exc, s))

theorem Obeys.append {σ : Type} {tr tr' : List (Event Response)}
    {e : Ending (Except PyExc Unit × σ)} (htr : ∀ event ∈ tr, ¬ Finds path text event)
    (h : Obeys path text tr' e) : Obeys path text (tr ++ tr') e := by
  rcases h with hnone | ⟨before, event, after, rfl, hbefore, hafter⟩
  · refine .inl fun event hevent => ?_
    exact (List.mem_append.1 hevent).elim (htr event) (hnone event)
  · refine .inr ⟨tr ++ before, event, after, (List.append_assoc _ _ _).symm, ?_, hafter⟩
    exact fun event hevent => (List.mem_append.1 hevent).elim (htr event) (hbefore event)

/-- After the trace the next call is not a request for shutdown, or the program has raised what the
loop does not end with. -/
def GoesOn {σ α : Type} (Q : σ → Prop) (tr : List (Event Response))
    (p : Prog Response (Except PyExc α × σ)) : Prop :=
  (∃ c k, Prog.Path p tr (.call c k) ∧ c ≠ .host .shutdownSet) ∨
    ∃ exc s, p.Returns tr (.error exc, s) ∧ endsRun exc = false ∧ Q s

theorem GoesOn.bind {σ τ α β : Type} {Q : σ → Prop} {Q' : τ → Prop} {tr : List (Event Response)}
    {p : Prog Response (Except PyExc α × σ)}
    {g : Except PyExc α × σ → Prog Response (Except PyExc β × τ)} (h : GoesOn Q tr p)
    (hg : ∀ exc s, endsRun exc = false → Q s → GoesOn Q' [] (g (.error exc, s))) :
    GoesOn Q' tr (p.bind g) := by
  rcases h with ⟨c, k, hpath, hc⟩ | ⟨exc, s, hret, hexc, hs⟩
  · exact .inl ⟨c, _, hpath.bind g, hc⟩
  · rcases hg exc s hexc hs with ⟨c, k, hpath, hc⟩ | ⟨exc', t, hret', hexc', ht⟩
    · refine .inl ⟨c, k, ?_, hc⟩
      have hall := Prog.Path.bind_of_returns hret hpath
      rwa [List.append_nil] at hall
    · refine .inr ⟨exc', t, ?_, hexc', ht⟩
      have hall := Prog.Path.bind_of_returns hret hret'
      rwa [List.append_nil] at hall

theorem GoesOn.raised {σ α : Type} {Q : σ → Prop} {exc : PyExc} {s : σ} (hexc : endsRun exc = false)
    (hs : Q s) : GoesOn Q [] (.ret (.error exc, s) : Prog Response (Except PyExc α × σ)) :=
  .inr ⟨exc, s, .here _, hexc, hs⟩

theorem GoesOn.after {σ τ α β : Type} {Q : τ → Prop} {tr tr' : List (Event Response)} {a : α × σ}
    {p : Prog Response (α × σ)} {f : α × σ → Prog Response (Except PyExc β × τ)}
    (hp : p.Returns tr a) (hf : GoesOn Q tr' (f a)) : GoesOn Q (tr ++ tr') (p.bind f) := by
  rcases hf with ⟨c, k, hpath, hc⟩ | ⟨exc, s, hret, hexc, hs⟩
  · exact .inl ⟨c, k, Prog.Path.bind_of_returns hp hpath, hc⟩
  · exact .inr ⟨exc, s, Prog.Path.bind_of_returns hp hret, hexc, hs⟩

theorem GoesOn.next {σ τ α β : Type} {Q : τ → Prop} {tr : List (Event Response)} {a : α × σ}
    {p : Prog Response (α × σ)} {f : α × σ → Prog Response (Except PyExc β × τ)}
    (hp : p.Returns tr a) (hf : GoesOn Q [] (f a)) : GoesOn Q tr (p.bind f) := by
  have hafter := GoesOn.after hp hf
  rwa [List.append_nil] at hafter

/-- Nothing that is held needs a call to be closed. -/
def Idle (b : Bridge) : Prop :=
  b.producer = none ∧ ∀ l, b.listener = some l → l.consumer = none

theorem GoesOn.step {σ α : Type} {Q : σ → Prop} {c : Call} {r : Response c}
    {tr : List (Event Response)} {k : Response c → Prog Response (Except PyExc α × σ)}
    (h : GoesOn Q tr (k r)) : GoesOn Q (⟨c, r⟩ :: tr) (.call c k) := by
  rcases h with ⟨c', k', hpath, hc⟩ | ⟨exc, s, hret, hexc, hs⟩
  · exact .inl ⟨c', k', .step r hpath, hc⟩
  · exact .inr ⟨exc, s, .step r hret, hexc, hs⟩

section Unserialized

variable {raw : Protobuf.Bytes} {errorsRetried fuel : ℕ}
  {tr : List (Event Response)}

end Unserialized

end Bridge

end FdbKafkaBridge
