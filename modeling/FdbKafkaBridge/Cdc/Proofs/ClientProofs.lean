import FdbKafkaBridge.Cdc.Listener

/-!
# What the client does to a monitor

Opening the database, registering a stream, reading versions and clocks, and sleeping are lookups:
monitors of the delivery only let their callbacks through. An invariant that no lookup breaks is
kept by everything that is built from lookups alone.
-/

namespace FdbKafkaBridge

open Protobuf (Bytes)
open Interaction

/-- A call that neither has to do with a consumer nor with the producer nor with a file. -/
def Call.isLookup : Call → Bool
  | .fdb .openDatabase => true
  | .fdb (.registerCdcStream ..) => true
  | .fdb .getReadVersion => true
  | .host .monotonic => true
  | .host (.sleep _) => true
  | _ => false

variable {α μ σ : Type} {M : Monitor Response μ}

/-- The invariant survives the call `c`. -/
def Survives [HasCallbacks σ] (M : Monitor Response μ) (I : σ → μ → Prop) (c : Call) : Prop :=
  ∀ s m, I s m → ∀ r : Response c, ∃ m', M.next m ⟨c, r⟩ = some m' ∧
    I (HasCallbacks.runCallbacks r.callbacks s) m'

theorem Survives.preserves [HasCallbacks σ] {I : σ → μ → Prop} {c : Call} (h : Survives M I c) :
    Proc.Preserves M I (native c : Py σ c.Value) :=
  preserves_native h

/-- The invariant survives lookups and says nothing of the database handle. -/
structure ClientStable (M : Monitor Response μ) (I : ClientState → μ → Prop) : Prop where
  lookup : ∀ c : Call, c.isLookup = true → Survives M I c
  client : ∀ s m client, I s m → I { s with client := client } m

namespace FDBClient

variable {I : ClientState → μ → Prop}

theorem preserves_open (hI : ClientStable M I) : Proc.Preserves M I FDBClient.open := by
  refine Proc.preserves_get.bind fun s => ?_
  refine Proc.Preserves.ite ?_ (Proc.preserves_pure _)
  refine (hI.lookup _ rfl).preserves.bind fun _ => ?_
  exact Proc.preserves_modify fun s m h => hI.client s m _ h

theorem preserves_close (hI : ClientStable M I) : Proc.Preserves M I FDBClient.close :=
  Proc.preserves_modify fun s m h => hI.client s m _ h

theorem preserves_registerCdcStream (hI : ClientStable M I) (name beginKey endKey : Bytes) :
    Proc.Preserves M I (registerCdcStream name beginKey endKey) := by
  refine (preserves_raiseIf _ _).bind fun _ => ?_
  refine Proc.Preserves.tryCatch ?_ fun exc => Proc.preserves_throw _
  refine (preserves_open hI).bind fun _ => ?_
  exact (hI.lookup _ rfl).preserves.bind fun _ => Proc.preserves_pure _

theorem preserves_getReadVersion (hI : ClientStable M I) :
    Proc.Preserves M I getReadVersion :=
  (preserves_open hI).bind fun _ => (hI.lookup _ rfl).preserves

/-- What `create_cdc_consumer` and `resume_cdc_consumer` have in common: an open database, then one
native call that makes the consumer. -/
theorem wp_makeConsumer (hI : ClientStable M I) {c : Call}
    {Q : Except PyExc c.Value → ClientState → μ → Prop} {s : ClientState} {m : μ} (hs : I s m)
    (hfail : ∀ s m e, I s m → Q (.error e) s m)
    (hmake : ∀ s m, I s m → ∀ r : Response c, ∃ m', M.next m ⟨c, r⟩ = some m' ∧
      match r.result with
      | .ok a => Q (.ok a) (HasCallbacks.runCallbacks r.callbacks s) m'
      | .error _ => ∀ e, Q (.error e) (HasCallbacks.runCallbacks r.callbacks s) m') :
    Proc.wp M (tryCatch (FDBClient.open >>= fun _ => native c) translateRuntimeError) Q s m := by
  rw [Proc.wp_tryCatch]
  refine Proc.wp_bind_of (preserves_open hI s m hs) ?_ ?_
  · intro _ s m h
    rw [wp_native]
    intro r
    obtain ⟨m', hnext, hr⟩ := hmake s m h r
    refine ⟨m', hnext, ?_⟩
    cases hres : r.result with
    | ok a =>
      rw [hres] at hr
      exact hr
    | error e =>
      rw [hres] at hr
      exact hr _
  · intro e s m h
    exact hfail s m _ h

theorem preserves_makeConsumer (hI : ClientStable M I) {c : Call} (hc : Survives M I c) :
    Proc.Preserves M I (tryCatch (FDBClient.open >>= fun _ => native c) translateRuntimeError) := by
  refine Proc.Preserves.tryCatch ?_ fun exc => Proc.preserves_throw _
  exact (preserves_open hI).bind fun _ => hc.preserves

end FDBClient

/-- The invariant survives lookups and says nothing of the database handle. -/
structure ListenerStable (M : Monitor Response μ) (I : ListenerState → μ → Prop) : Prop where
  lookup : ∀ c : Call, c.isLookup = true → Survives M I c
  client : ∀ s m client, I s m → I { s with client := client } m

/-- The invariant, as one of the client, with the listener as it is. -/
theorem ListenerStable.clientStable {I : ListenerState → μ → Prop} (hI : ListenerStable M I)
    (t : ListenerState) : ClientStable M fun c m => I (t.setClientState c) m where
  lookup c hc _ m h r := hI.lookup c hc _ m h r
  client _ m client h := hI.client _ m client h

namespace FDBMutationListener

variable {I : ListenerState → μ → Prop}

theorem wp_onClient {p : Py ClientState α} {Q : Except PyExc α → ListenerState → μ → Prop}
    {t : ListenerState} {m : μ} :
    Proc.wp M (onClient p) Q t m ↔
      Proc.wp M p (fun r c m => Q r (t.setClientState c) m) t.clientState m :=
  Proc.wp_zoom

theorem preserves_onClient {p : Py ClientState α}
    (hp : ∀ t : ListenerState, Proc.Preserves M (fun c m => I (t.setClientState c) m) p) :
    Proc.Preserves M I (onClient p) := by
  intro t m ht
  rw [wp_onClient]
  exact hp t t.clientState m ht

/-- A failed consume or acknowledge call always raises. -/
theorem wp_onConsumeFailure {action : String} {exc : PyExc}
    {Q : Except PyExc α → ListenerState → μ → Prop} {s : ListenerState} {m : μ}
    (h : ∀ e, Q (.error e) s m) : Proc.wp M (onConsumeFailure action exc) Q s m := by
  unfold onConsumeFailure
  rw [Proc.wp_get_bind]
  by_cases hclosed : s.listener.isClosed = true
  · rw [if_pos hclosed]
    exact h _
  · rw [if_neg hclosed]
    exact h _

theorem preserves_waitForReadVersion (hI : ListenerStable M I) (targetVersion : ℤ) (deadline : ℚ)
    (fuel : ℕ) : Proc.Preserves M I (waitForReadVersion targetVersion deadline fuel) := by
  induction fuel with
  | zero => exact Proc.preserves_hang
  | succ n ih =>
    have hread : Proc.Preserves M I (onClient FDBClient.getReadVersion) :=
      preserves_onClient fun t => FDBClient.preserves_getReadVersion (hI.clientStable t)
    refine hread.bind fun readVersion => ?_
    refine Proc.Preserves.ite ?_ (Proc.preserves_pure _)
    refine (hI.lookup _ rfl).preserves.bind fun now => ?_
    refine (preserves_raiseIf _ _).bind fun _ => ?_
    refine Proc.preserves_get.bind fun s => ?_
    exact (hI.lookup _ rfl).preserves.bind fun _ => ih

end FDBMutationListener

end FdbKafkaBridge
