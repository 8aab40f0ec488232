/-
# The state of an agent

`State` of `openhands/controller/state/state.py` with the control flags of
`control_flags.py`: what the controller knows of a conversation, in part saved with the
session.  The history is not saved; it is rebuilt from the event stream.

The view of the history is cached under a checksum, the length of the history.
-/
import OpenHands.Lib.PyFloat
import OpenHands.View

namespace OpenHands

/-! ## Control flags -/

/-- `IterationControlFlag`. -/
structure IterationControlFlag where
  limitIncreaseAmount : ℤ := 100
  currentValue : ℤ := 0
  maxValue : ℤ := 100
  hitLimit : Bool := false
  deriving DecidableEq, Repr

/-- `IterationControlFlag.step`: the flag after the step, and the message of the
`RuntimeError` if the limit was reached. -/
def IterationControlFlag.step (f : IterationControlFlag) : IterationControlFlag × Option String :=
  if f.maxValue ≤ f.currentValue then
    ({ f with hitLimit := true },
      some (s!"Agent reached maximum iteration. "
        ++ s!"Current iteration: {f.currentValue}, max iteration: {f.maxValue}"))
  else
    ({ f with hitLimit := false, currentValue := f.currentValue + 1 }, none)

/-- `IterationControlFlag.increase_limit`. -/
def IterationControlFlag.increaseLimit (f : IterationControlFlag) (headlessMode : Bool) :
    IterationControlFlag :=
  if !headlessMode && f.hitLimit then
    { f with maxValue := f.maxValue + f.limitIncreaseAmount, hitLimit := false }
  else f

/-- `BudgetControlFlag`; the amounts are dollars. -/
structure BudgetControlFlag where
  limitIncreaseAmount : ℚ
  currentValue : ℚ := 0
  maxValue : ℚ
  hitLimit : Bool := false
  deriving DecidableEq, Repr

/-- An amount with two decimals, `:.2f`: of two that are equally near, the one with even cents. -/
def formatAmount (q : ℚ) : String :=
  let cents := (PyFloat.roundEven (|q| * 100)).toNat
  let fraction := toString (cents % 100)
  (if q < 0 then "-" else "") ++ toString (cents / 100) ++ "."
    ++ (if fraction.length < 2 then "0" ++ fraction else fraction)

/-- `BudgetControlFlag.step`: the value is updated from outside, the step only compares. -/
def BudgetControlFlag.step (f : BudgetControlFlag) : BudgetControlFlag × Option String :=
  if f.maxValue ≤ f.currentValue then
    ({ f with hitLimit := true },
      some ("Agent reached maximum budget for conversation."
        ++ "Current budget: " ++ formatAmount f.currentValue
        ++ ", max budget: " ++ formatAmount f.maxValue))
  else
    ({ f with hitLimit := false }, none)

/-- `BudgetControlFlag.increase_limit`. -/
def BudgetControlFlag.increaseLimit (f : BudgetControlFlag) : BudgetControlFlag :=
  if f.hitLimit then
    { f with maxValue := f.currentValue + f.limitIncreaseAmount, hitLimit := false }
  else f

/-! ## The state -/

/-- `State`.  `viewCache` is `_history_checksum` with `_view`, which are set together. -/
structure State where
  iterationFlag : IterationControlFlag := {}
  budgetFlag : Option BudgetControlFlag := none
  confirmationMode : Bool := false
  history : List Event := []
  inputs : List (String × String) := []
  outputs : List (String × String) := []
  agentState : AgentState := .loading
  resumeState : Option AgentState := none
  delegateLevel : ℕ := 0
  startId : ℤ := -1
  endId : ℤ := -1
  lastError : String := ""
  viewCache : Option (ℕ × View) := none
  deriving DecidableEq, Repr

namespace State

/-- Compute the view and cache it. -/
def rebuildView (s : State) : View × State :=
  let view := View.fromEvents s.history
  (view, { s with viewCache := some (s.history.length, view) })

/-- `State.view`: the cached view if the checksum has not changed, with the state after
the read. -/
def view (s : State) : View × State :=
  match s.viewCache with
  | some (checksum, cached) =>
    if s.history.length ≠ checksum then s.rebuildView else (cached, s)
  | none => s.rebuildView

/-- `RESUMABLE_STATES`. -/
def resumableStates : List AgentState := [.running, .paused, .awaitingUserInput, .finished]

/-- `__getstate__`: the history and the cached view are not saved. -/
def save (s : State) : State := { s with history := [], viewCache := none }

/-- `restore_from_session`, on the saved state. -/
def restore (saved : State) : State :=
  { saved with
    resumeState := if saved.agentState ∈ resumableStates then some saved.agentState else none
    agentState := .loading }

end State

end OpenHands
