import FdbKafkaBridge.Bridge.Bridge
import FdbKafkaBridge.Interaction.Calls
import FdbKafkaBridge.Interaction.Runs

/-!
# The run thread and the thread that stops it

The loop of `run` takes the step lock twice in an iteration. It is cut into sections: one for each
region under the lock, and one for what lies between two regions. Another thread that holds the
lock, as `stop` does, comes between the sections.
-/

namespace FdbKafkaBridge

open Serialization (FDBMutationRecord)
open Interaction

/-- Where the run thread is. -/
inductive RunPhase
  | ended
  /-- At the condition of the loop. -/
  | head
  /-- About to take the lock for a step. -/
  | step
  /-- After a step that published this many records. -/
  | stepped (published : ℕ) (records : List FDBMutationRecord)
  /-- In the handlers. -/
  | failed (exc : PyExc)
  /-- About to take the lock in the last handler. -/
  | note (exc : PyExc)
  /-- About to wait, in the last handler. -/
  | wait
  deriving DecidableEq, Repr

structure Daemon where
  run : Bridge.RunState
  phase : RunPhase
  deriving DecidableEq, Repr

instance : HasCallbacks Daemon where
  runCallbacks callbacks d := { d with run := HasCallbacks.runCallbacks callbacks d.run }

namespace Daemon

open Bridge (RunState afterStep countRetry endsRun lockedStep noteError requestShutdown runState waitBackoff)

def setPhase (phase : RunPhase) (d : Daemon) : Daemon := { d with phase := phase }

def onRun {α : Type} (p : Py RunState α) : Py Daemon α :=
  Proc.zoom Daemon.run (fun d r => { d with run := r }) p

def onBridge {α : Type} (p : Py Bridge α) : Py Daemon α := onRun (Bridge.onBridge p)

/-- The daemon of a bridge on which `run` has not been called. -/
def new (b : Bridge) : Daemon := ⟨runState b, .ended⟩

/-- A call of `run` up to its loop, unless the run thread is there already. -/
def callRun : Py Daemon Unit := do
  if (← get).phase = .ended then
    onBridge Bridge.requireStarted
    modify fun d => ⟨runState d.run.bridge, .head⟩
  else return

/-- The condition of the loop. -/
def atHead : Py Daemon Unit := do
  let shutdown : Bool ← native (.host .shutdownIsSet)
  modify (setPhase (if shutdown then .ended else .step))

/-- The region under the lock that has the step. -/
def atStep (fuel : ℕ) : Py Daemon Unit := do
  match ← (onRun (lockedStep fuel)).attempt with
  | .ok none => modify (setPhase .ended)
  | .ok (some (published, records)) => modify (setPhase (.stepped published records))
  | .error exc => modify (setPhase (.failed exc))

/-- The rest of an iteration whose step returned. -/
def atStepped (published : ℕ) (records : List FDBMutationRecord) : Py Daemon Unit := do
  onRun (afterStep published records)
  modify (setPhase .head)

/-- The handlers up to the lock. -/
def atFailed (exc : PyExc) : Py Daemon Unit := do
  if endsRun exc then
    requestShutdown
    modify (setPhase .ended)
    throw exc
  else
    onRun (modify countRetry)
    modify (setPhase (.note exc))

/-- The region under the lock in the last handler. -/
def atNote (exc : PyExc) : Py Daemon Unit := do
  onRun (modify (noteError exc))
  modify (setPhase .wait)

def atWait : Py Daemon Unit := do
  onRun waitBackoff
  modify (setPhase .head)

/-- The next section of the run thread. -/
def resume (fuel : ℕ) : Py Daemon Unit := do
  match (← get).phase with
  | .ended => return
  | .head => atHead
  | .step => atStep fuel
  | .stepped published records => atStepped published records
  | .failed exc => atFailed exc
  | .note exc => atNote exc
  | .wait => atWait

end Daemon

/-! ## Interleavings -/

/-- What the threads do. `unblockStep` and `requestShutdown` need no lock. -/
inductive DaemonMethod
  | start
  | callRun
  | resume
  | requestShutdown
  | unblockStep
  | stop (iterations : ℕ)
  deriving DecidableEq, Repr

def Daemon.perform (fuel : ℕ) : DaemonMethod → Py Daemon Unit
  | .start => onBridge (Bridge.start fuel)
  | .callRun => callRun
  | .resume => resume fuel
  | .requestShutdown => Bridge.requestShutdown
  | .unblockStep => onBridge Bridge.unblockStep
  | .stop iterations => onBridge (Bridge.stop fuel iterations)

abbrev DaemonMark := Mark Response DaemonMethod PyExc Daemon Unit

/-! ## What a shutdown must not and must do -/

/-- Polling a reply, and opening or filling a transaction or a batch. -/
def Call.isNewWork : Call → Bool
  | .fdb (.consume _) => true
  | .kafka (.produce ..) => true
  | .kafka (.beginTransaction _) => true
  | _ => false

def Call.isShutdownSet : Call → Bool
  | .host .shutdownSet => true
  | _ => false

/-- Looking at the shutdown event, waiting for it or setting it. -/
def Call.isShutdownEvent : Call → Bool
  | .host .shutdownIsSet => true
  | .host (.shutdownWait _) => true
  | .host .shutdownSet => true
  | _ => false

/-- A commit attempt that raised. -/
def isFailedCommit : Event Response → Bool
  | ⟨.kafka (.commitTransaction ..), ⟨_, .error _, _⟩⟩ => true
  | _ => false

/-- An acknowledgement that has returned normally. -/
def acknowledges : Event Response → Bool
  | ⟨.fdb (.acknowledge _), r⟩ => r.result.isOk
  | _ => false

/-- The listener can poll, or there is a delivery to go on with. -/
structure Session.CanStep (s : Session) : Prop where
  deliveryFailed : s.listener.deliveryFailed = false
  awaitingAck : s.listener.awaitingAck = true →
    s.pipeline.commitOutstanding = true ∨ s.pipeline.deliveredUnacked = true

namespace Bridge

/-- A pipeline is there only with all that it is bound to. -/
def Bound (b : Bridge) : Prop := b.pipeline.isSome = true → b.session?.isSome = true

def commitOutstanding (b : Bridge) : Bool := b.pipeline.any (·.commitOutstanding)

end Bridge

/-! ## What the marks say -/

namespace DaemonMark

/-- `Event.is_set` returns `True` once `set` was called. -/
def EventIsSticky (marks : List DaemonMark) : Prop :=
  ∀ (before : List (Event Response)) (r : Response (.host .shutdownIsSet)) after,
    events marks = before ++ ⟨_, r⟩ :: after →
      before.any (·.call.isShutdownSet) = true → r.result = .ok true

/-- The mark is the end of `stop`. -/
def isStopped : DaemonMark → Bool
  | .finish (.stop _) _ _ => true
  | _ => false

/-- The methods that `stop` consists of. -/
def isPartOfStop : DaemonMethod → Bool
  | .requestShutdown => true
  | .unblockStep => true
  | .stop _ => true
  | _ => false

/-- `stop` starts no new work. Once it is over the run thread has no calls but those of the shutdown
event, and leaves the loop where it would come to the next iteration or take the lock for a step. -/
def ShutdownMark (before : List DaemonMark) : DaemonMark → Prop
  | .start .. => True
  | .event e =>
    ((running before).any isPartOfStop = true → e.call.isNewWork = false) ∧
      (before.any isStopped = true → running before = some .resume →
        e.call.isShutdownEvent = true)
  | .finish i r d' =>
    before.any isStopped = true → i = .resume → ∀ past d, opening before = some (past, d) →
      d.phase = .head ∨ d.phase = .step → r = .ok () ∧ d'.phase = .ended

/-- `run` is called on a pipeline that can step, as one that was just built can. -/
def FreshRuns (marks : List DaemonMark) : Prop :=
  ∀ d s, .start .callRun d ∈ marks → d.phase = .ended → d.run.bridge.session? = some s → s.CanStep

/-- `stop` acknowledges nothing. -/
def SettledStops (marks : List DaemonMark) : Prop :=
  ∀ before e after n, marks = before ++ .event e :: after → running before = some (.stop n) →
    acknowledges e = false

end DaemonMark

end FdbKafkaBridge
