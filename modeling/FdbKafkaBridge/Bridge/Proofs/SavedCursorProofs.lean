import FdbKafkaBridge.Bridge.Proofs.CursorFileProofs

/-!
# What is saved, loaded and resumed

A save that returns leaves a file with the coordinates of the position, which a load gives back.
`resume_cdc_consumer` accepts them only if they are in the ranges of FoundationDB, which neither the
save nor the load asks for.
-/

namespace FdbKafkaBridge

open Interaction Storage FileSystem

variable {σ : Type} [HasCallbacks σ]

/-- The ranges of `resume_cdc_consumer`: `uint64` and `int64`. -/
def InRange (streamId version : ℤ) : Prop :=
  0 ≤ streamId ∧ streamId < 2 ^ 64 ∧ -2 ^ 63 ≤ version ∧ version < 2 ^ 63

instance inRangeDecidable (streamId version : ℤ) : Decidable (InRange streamId version) :=
  inferInstanceAs (Decidable (_ ∧ _ ∧ _ ∧ _))

/-- The checks of `resume_cdc_consumer` pass: the native consumer is resumed next. -/
def PassesChecks (cursor : PyCursor) : Prop :=
  ∀ c : ClientState, c.client.db = true → ∃ k,
    FDBClient.resumeCdcConsumer cursor c = .call (.fdb (.resumeCdcConsumer cursor)) k

/-- The file system, in which it does not matter whether directories can be synced. -/
def AnswersAnyDirectory (fs : FileSystem) (e : Event Response) (fs' : FileSystem) : Prop :=
  Answers fs e fs' ∨ (OnParent e.call ∧ fs' = fs)

/-- The position has the coordinates, which a load for the stream gives back. For any other stream
the file is refused, and the cursor passes the checks of `resume_cdc_consumer`. Only reading itself
may fail. -/
structure Agrees (σ : Type) [HasCallbacks σ] (path : String) (position : PyCursor) (name : PyStr)
    (fs : FileSystem) (streamId version : ℤ) : Prop where
  saved : plainInt (coordinates position).1 = some streamId ∧
    plainInt (coordinates position).2 = some version
  ends : ∀ expected, Proc.Ends (loadCursorFromFile (some path) expected : Py σ (Option PyCursor))
  loaded : ∀ (s s' : σ) tr r fs', (loadCursorFromFile (some path) (some name) s).Returns tr (r, s') →
    Interaction.Evolves AnswersAnyDirectory fs tr fs' →
      (∃ exc errno, r = .error exc ∧ exc.kind = .osError errno) ∨
        r = .ok (some (.object (some (.int streamId)) (some (.int version))))
  refused : ∀ expected, expected ≠ name → ∀ (s s' : σ) tr r fs',
    (loadCursorFromFile (some path) (some expected) s).Returns tr (r, s') →
      Interaction.Evolves AnswersAnyDirectory fs tr fs' →
        ∃ exc, r = .error exc ∧ (exc.isPermanent = true ∨ ∃ errno, exc.kind = .osError errno)
  resumable : PassesChecks (.object (some (.int streamId)) (some (.int version)))

/-! ## The file after a save -/

section Saved

variable {path : String} {text : JsonText}

end Saved

end FdbKafkaBridge
