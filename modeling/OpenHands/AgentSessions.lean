/-
# Starting and closing an agent session

A start makes the runtime, the memory and the controller one after the other and is suspended
between them.  A close waits in a loop while a start is in progress; it looks at the clock after
every sleep and leaves the loop when its test of the deadline says so.  Then it saves the state
of the controller and closes the controller and the runtime, as far as they exist.
-/
import Mathlib.Data.Nat.Notation
import OpenHands.Lib.Run

namespace OpenHands.AgentSessions

/-- Times are in microseconds. -/
def second : ℕ := 1000000

def waitTimeBeforeClose : ℕ := 90 * second

def waitTimeBeforeCloseInterval : ℕ := 5 * second

structure AgentController where
  stateSaved : Bool := false
  closed : Bool := false
  deriving DecidableEq, Repr

structure Runtime where
  closed : Bool := false
  deriving DecidableEq, Repr

/-- Where the start is suspended. -/
inductive StartStage where
  | notStarted
  /-- The environment of the runtime is read. -/
  | readingEnvironment
  /-- The runtime connects and is set up. -/
  | connecting
  | settingSecrets
  /-- The memory reads the microagents of the runtime. -/
  | creatingMemory
  | addingTools
  | finished
  /-- The session was closed before the start. -/
  | refused
  | raised
  deriving DecidableEq, Repr

/-- Where the close is suspended. -/
inductive CloseStage where
  | notCalled
  /-- It sleeps until a time. -/
  | sleeping (till : ℕ)
  | closingController
  | returned
  deriving DecidableEq, Repr

structure AgentSession where
  clock : ℕ := 0
  controller : Option AgentController := none
  runtime : Option Runtime := none
  starting : Bool := false
  startedAt : ℕ := 0
  closed : Bool := false
  start : StartStage := .notStarted
  close : CloseStage := .notCalled
  deriving DecidableEq, Repr

/-- The start begins or goes on after an `await`, which may raise; the close is called, wakes up
or goes on after the controller has closed; or time passes.  `shouldContinue` is false once the
server shuts down. -/
inductive Move where
  | start
  | resume (raises : Bool)
  | close (shouldContinue : Bool)
  | wake (shouldContinue : Bool)
  | controllerClosed
  | elapse (time : ℕ)

namespace AgentSession

variable (session : AgentSession)

/-- The start ends, whether it raises or not. -/
def endStart (stage : StartStage) : AgentSession :=
  { session with starting := false, start := stage }

/-- `start` up to its first `await`. -/
def beginStart : AgentSession :=
  match session.start with
  | .notStarted =>
    if session.controller.isSome ∨ session.runtime.isSome then { session with start := .raised }
    else if session.closed then { session with start := .refused }
    else
      { session with
        starting := true
        startedAt := session.clock
        start := .readingEnvironment }
  | _ => session

/-- `start` from one `await` to the next one. -/
def resumeStart (raises : Bool) : AgentSession :=
  match session.start with
  | .readingEnvironment =>
    if raises then session.endStart .raised
    else { session with runtime := some {}, start := .connecting }
  | .connecting =>
    if raises then session.endStart .raised else { session with start := .settingSecrets }
  | .settingSecrets =>
    if raises then session.endStart .raised else { session with start := .creatingMemory }
  | .creatingMemory =>
    if raises then session.endStart .raised else { session with start := .addingTools }
  | .addingTools =>
    -- the controller needs a runtime, and nothing is awaited after it
    if raises ∨ session.runtime.isNone then session.endStart .raised
    else { session.endStart .finished with controller := some {} }
  | _ => session

/-- `close` behind its loop, up to the `await` of the controller. -/
def finishClose : AgentSession :=
  match session.controller with
  | some controller =>
    { session with
      controller := some { controller with stateSaved := true }
      close := .closingController }
  | none =>
    { session with
      runtime := session.runtime.map fun runtime => { runtime with closed := true }
      close := .returned }

/-- The test of the loop in `close`. -/
def waitOrFinish (shouldContinue : Bool) : AgentSession :=
  if session.starting ∧ shouldContinue then
    { session with close := .sleeping (session.clock + waitTimeBeforeCloseInterval) }
  else session.finishClose

/-- `close` up to its first `await`. -/
def beginClose (shouldContinue : Bool) : AgentSession :=
  if session.closed then session
  else waitOrFinish { session with closed := true } shouldContinue

/-- `close` after a sleep, with the test of the deadline as it stands. -/
def wake (shouldContinue : Bool) : AgentSession :=
  match session.close with
  | .sleeping till =>
    if session.clock < till then session
    else if session.clock ≤ session.startedAt + waitTimeBeforeClose then session.finishClose
    else session.waitOrFinish shouldContinue
  | _ => session

/-- The rest of `close`. -/
def controllerClosed : AgentSession :=
  match session.close with
  | .closingController =>
    { session with
      controller := session.controller.map fun controller => { controller with closed := true }
      runtime := session.runtime.map fun runtime => { runtime with closed := true }
      close := .returned }
  | _ => session

def perform : Move → AgentSession
  | .start => session.beginStart
  | .resume raises => session.resumeStart raises
  | .close shouldContinue => session.beginClose shouldContinue
  | .wake shouldContinue => session.wake shouldContinue
  | .controllerClosed => session.controllerClosed
  | .elapse time => { session with clock := session.clock + time }

/-- When the close has returned and no start is in progress, nothing is left open, and the state
of the controller has been saved. -/
def Released : Prop :=
  session.close = .returned → session.starting = false →
    (∀ controller, session.controller = some controller →
      controller.closed = true ∧ controller.stateSaved = true) ∧
      ∀ runtime, session.runtime = some runtime → runtime.closed = true

/-- The close does not go on while a start is in progress: the start is over when the close wakes
up, unless more time than the deadline has passed since it began, and the server is not
shutting down. -/
def Waits : Move → Prop
  | .close shouldContinue => session.closed = false → session.starting = true →
      shouldContinue = true
  | .wake shouldContinue => ∀ till, session.close = .sleeping till → till ≤ session.clock →
      session.starting = true →
        session.startedAt + waitTimeBeforeClose < session.clock ∧ shouldContinue = true
  | _ => True

end AgentSession

end OpenHands.AgentSessions
