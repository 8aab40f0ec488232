/-
# Replaying a trajectory

`ReplayManager` of `openhands/controller/replay.py` and the replay branch of
`AgentController._step`: as long as the manager has an action left, the controller puts that
action on the stream instead of asking its agent.

A `ReplayTurn` is a turn of a controller that was created with `replay_events`.  A delegate
gets no replay events, so it handles its events as `Turn.handleEvent` says.

  * `run_withoutReplay` — a controller that has nothing to replay is the controller of
    `Turn.controlMove`.
-/
import OpenHands.SessionLimits

namespace OpenHands

/-! ## The replay manager -/

/-- `isinstance(event, Action)`, with the action. -/
def Event.action? (e : Event) : Option Action :=
  match e.body with
  | .action action => some action
  | .observation _ => none

/-- `isinstance(event, NullObservation)`. -/
def Event.isNullObservation (e : Event) : Bool :=
  match e.body with
  | .observation { cls := .null, .. } => true
  | _ => false

/-- `event.wait_for_response = False`, for a `MessageAction`. -/
def Event.withoutWait (e : Event) : Event :=
  match e.body with
  | .action (.message m) => { e with body := .action (.message { m with waitForResponse := false }) }
  | _ => e

/-- `ReplayManager`. -/
structure ReplayManager where
  replayEvents : List Event := []
  replayIndex : ℕ := 0
  deriving DecidableEq, Repr

namespace ReplayManager

/-- The loop of `__init__`: no message but the last event waits for a response. -/
def ignoreWaits : List Event → List Event
  | [] => []
  | [event] => [event]
  | event :: event' :: events => event.withoutWait :: ignoreWaits (event' :: events)

/-- `ReplayManager.__init__`. -/
def init (events : List Event) : ReplayManager where
  replayEvents := ignoreWaits
    (events.filter fun event => event.source ≠ some .environment && !event.isNullObservation)

/-- `get_replay_events`, on the events of the trajectory. -/
def getReplayEvents (trajectory : List Event) : List Event :=
  (trajectory.filter fun event => event.source ≠ some .environment).map fun event =>
    { event with id := invalidId }

/-- `_replayable`, with the action that the index stands at. -/
def replayable? (m : ReplayManager) : Option (Event × Action) :=
  m.replayEvents[m.replayIndex]?.bind fun event => event.action?.map fun action => (event, action)

/-- The loop of `should_replay`: the index moves to the next action. -/
def skip (m : ReplayManager) : ReplayManager :=
  { m with
    replayIndex := m.replayIndex
      + ((m.replayEvents.drop m.replayIndex).takeWhile fun event => event.action?.isNone).length }

/-- `should_replay`, with the manager after it.  `replay_mode` says whether there are
events. -/
def shouldReplay (m : ReplayManager) : Bool × ReplayManager :=
  if m.replayEvents.isEmpty then (false, m) else (m.skip.replayable?.isSome, m.skip)

/-- `step`: the action at the index, with the manager after it. -/
def step (m : ReplayManager) : Option ((Event × Action) × ReplayManager) :=
  m.replayable?.map fun found => (found, { m with replayIndex := m.replayIndex + 1 })

/-- What `_step` of the controller takes from the manager: the next action, unless there is
none. -/
def next (m : ReplayManager) : Option (Event × Action) × ReplayManager :=
  let (replays, m) := m.shouldReplay
  match if replays then m.step else none with
  | some (found, m) => (some found, m)
  | none => (none, m)

end ReplayManager

/-! ## The parts of a step -/

namespace Turn

/-- `_step` up to the control flags; the second component says whether they let the agent
step. -/
def passFlags (t : Turn) (answers : Answers) : Turn × Bool :=
  if t.self.state.agentState ≠ .running then (t, false)
  else if t.self.pendingAction.isSome then (t, false)
  else
    let t := t.mapState (StateTracker.syncBudgetFlagWithMetrics · answers.accumulatedCost)
    if t.self.agent.enableStuckDetection && answers.isStuck then
      (t.reactToException .agentStuckInLoop, false)
    else
      let raised := (StateTracker.runControlFlags t.self.state).2
      let t := t.mapState fun s => (StateTracker.runControlFlags s).1
      match raised with
      | some message => (t.reactToException (.runtimeError message), false)
      | none => (t, true)

/-- `_on_event` up to the step; the second component says whether a step follows. -/
def beforeStep (t : Turn) (answers : Answers) (event : Event) : Turn × Bool :=
  let t := t.observe event
  if event.hidden then (t, false)
  else
    let t := t.mapState (StateTracker.addHistory · event)
    let handled := match event.body with
      | .action action => t.handleAction answers event action
      | .observation _ => some (t.handleObservation event)
    match handled with
    | none => (t, false)
    | some t => (t, t.self.shouldStep event)

/-- `_step_with_exception_handling`, behind the step. -/
def handleException : Turn × Option PyException → Turn
  | (t, none) => t
  | (t, some e) =>
    t.reactToException
      (if e.isReported then e
       else .runtimeError ("There was an unexpected error while running the agent: " ++ e.name
        ++ ". You can refresh the page or ask the agent to try again."))

theorem step_eq (t : Turn) (answers : Answers) :
    t.step answers =
      if (t.passFlags answers).2 then (t.passFlags answers).1.callAgent answers
      else ((t.passFlags answers).1, none) := by
  unfold step passFlags
  by_cases hstate : t.self.state.agentState ≠ .running
  · rw [if_pos hstate, if_pos hstate]
    rfl
  · rw [if_neg hstate, if_neg hstate]
    by_cases hpending : t.self.pendingAction.isSome
    · rw [if_pos hpending, if_pos hpending]
      rfl
    · rw [if_neg hpending, if_neg hpending]
      dsimp only
      generalize t.mapState (StateTracker.syncBudgetFlagWithMetrics · answers.accumulatedCost) = t₁
      by_cases hstuck : (t₁.self.agent.enableStuckDetection && answers.isStuck) = true
      · rw [if_pos hstuck, if_pos hstuck]
        rfl
      · rw [if_neg hstuck, if_neg hstuck]
        cases (StateTracker.runControlFlags t₁.self.state).2 <;> rfl

theorem stepWithExceptionHandling_eq (t : Turn) (answers : Answers) :
    t.stepWithExceptionHandling answers = handleException (t.step answers) := by
  unfold stepWithExceptionHandling handleException
  rcases t.step answers with ⟨t', _ | e⟩ <;> rfl

theorem handleEvent_eq (t : Turn) (answers : Answers) (event : Event) :
    t.handleEvent answers event =
      if (t.beforeStep answers event).2 then
        (t.beforeStep answers event).1.stepWithExceptionHandling answers
      else (t.beforeStep answers event).1 := by
  unfold handleEvent beforeStep
  by_cases hhidden : event.hidden = true
  · rw [if_pos hhidden, if_pos hhidden]
    rfl
  · rw [if_neg hhidden, if_neg hhidden]
    dsimp only
    generalize (t.observe event).mapState (StateTracker.addHistory · event) = t₂
    cases event.body with
    | action action =>
        cases hhandled : t₂.handleAction answers event action with
        | none => simp [hhandled]
        | some t₃ => simp only [hhandled]
    | observation observation => rfl

/-- The log at the call of `agent.step` by the handling of an event, if there is one. -/
def callLog? (t : Turn) (answers : Answers) (event : Event) : Option EventLog :=
  let before := t.beforeStep answers event
  let passed := before.1.passFlags answers
  if before.2 && passed.2 then some passed.1.bus.log else none

/-- The exception of `action._source` for an action without source. -/
def noSource : PyException :=
  ⟨"AttributeError", [], "object has no attribute '_source'", none⟩

/-- The end of `_step` for an action of the trajectory, which keeps its source; the second
component is the exception that `_step` raises. -/
def emitReplayed (t : Turn) (answers : Answers) (event : Event) (action : Action) :
    Turn × Option PyException :=
  match action with
  | .null => (t, none)
  | .run a =>
    let a := t.self.withConfirmation answers a
    let event := { event with body := .action (.run a) }
    let t := t.mapSelf fun c => { c with pendingAction := some event }
    let t :=
      if a.confirmationState = some .awaitingConfirmation then
        t.setAgentStateTo .awaitingUserConfirmation
      else t
    match event.source with
    | none => (t, some noSource)
    | some source =>
      let added := t.bus.addEvent event source
      let t := mapSelf { t with bus := added.1 } fun c =>
        { c with
          pendingAction := some added.2
          unobserved := c.unobserved ++ [added.2.id] }
      (t, none)
  | _ =>
    match event.source with
    | none => (t, some noSource)
    | some source => (t.addEvent event source, none)

end Turn

/-! ## Turns with a trajectory -/

/-- A turn of a controller with its replay manager.  Ghost fields: `replaySteps` counts the
calls of `_replay_manager.step`; `firstCall` is the stream with the manager at the first call
of `agent.step`, by the controller or by a delegate. -/
structure ReplayTurn where
  turn : Turn
  replayManager : ReplayManager := {}
  replaySteps : ℕ := 0
  firstCall : Option (EventLog × ReplayManager) := none

namespace ReplayTurn

/-- `_step` with the replay branch; the second component is the exception it raises. -/
def step (r : ReplayTurn) (answers : Answers) : ReplayTurn × Option PyException :=
  let (t, passed) := r.turn.passFlags answers
  if !passed then ({ r with turn := t }, none)
  else
    let (found, manager) := r.replayManager.next
    match found with
    | some (event, action) =>
      let (t, raised) := t.emitReplayed answers event action
      ({ r with
          turn := t
          replayManager := manager
          replaySteps := r.replaySteps + 1 }, raised)
    | none =>
      let (t', raised) := t.callAgent answers
      ({ r with
          turn := t'
          replayManager := manager
          firstCall := r.firstCall.or (some (t.bus.log, manager)) }, raised)

/-- `_step_with_exception_handling`. -/
def stepWithExceptionHandling (r : ReplayTurn) (answers : Answers) : ReplayTurn :=
  let (r, raised) := r.step answers
  { r with turn := Turn.handleException (r.turn, raised) }

/-- `_on_event`. -/
def handleEvent (r : ReplayTurn) (answers : Answers) (event : Event) : ReplayTurn :=
  let (t, steps) := r.turn.beforeStep answers event
  let r := { r with turn := t }
  if steps then r.stepWithExceptionHandling answers else r

/-- `on_event`; the delegate has nothing to replay. -/
def onEvent (r : ReplayTurn) (answers : Answers) (event : Event) : ReplayTurn :=
  match r.turn.self.delegate with
  | some d =>
    if d.isDone then { r with turn := r.turn.endDelegate }
    else
      { r with
        turn := r.turn.onDelegate (·.handleEvent answers event)
        firstCall := r.firstCall.or
          ((Turn.callLog? ⟨d, r.turn.bus⟩ answers event).map fun log => (log, r.replayManager)) }
  | none => r.handleEvent answers event

/-- Change the turn. -/
def mapTurn (r : ReplayTurn) (f : Turn → Turn) : ReplayTurn := { r with turn := f r.turn }

/-- The other threads are not at work. -/
def settle (r : ReplayTurn) : ReplayTurn :=
  r.mapTurn fun t => { t with bus := { t.bus with arrivals := [] } }

/-- The effect of a move of the conversation. -/
def move (r : ReplayTurn) : Move → ReplayTurn
  | .publish event source => r.mapTurn (·.move (.publish event source))
  | .deliver answers =>
    match r.turn.bus.queue with
    | [] => r
    | event :: queue => ((r.mapTurn (·.popped queue answers)).onEvent answers event).settle

/-- The effect of a move. -/
def controlMove (r : ReplayTurn) : ControlMove → ReplayTurn
  | .move m => r.move m
  | .step answers =>
    let r := r.mapTurn fun t => (t.popped t.bus.queue answers).readFlags
    ((r.stepWithExceptionHandling answers).mapTurn Turn.writeFlags).settle
  | .setAgentState newState answers =>
    r.mapTurn (·.controlMove (.setAgentState newState answers))

/-- A controller is created with `replay_events`. -/
def start (options : ControllerOptions) (initialState : Option State) (log : EventLog)
    (replayEvents : List Event) : ReplayTurn where
  turn := .start options initialState log
  replayManager := .init replayEvents

/-! ## Without a trajectory -/

variable {r : ReplayTurn} {answers : Answers}

/-- There is nothing to replay. -/
def WithoutReplay (r : ReplayTurn) : Prop := r.replayManager.replayEvents = []

/-- Nothing is replayed. -/
structure KeepsReplay (r r' : ReplayTurn) : Prop where
  replayManager : r'.replayManager = r.replayManager
  replaySteps : r'.replaySteps = r.replaySteps

theorem KeepsReplay.withoutReplay {r r' : ReplayTurn} (hkeeps : r.KeepsReplay r')
    (h : r.WithoutReplay) : r'.WithoutReplay := by
  unfold WithoutReplay
  rw [hkeeps.replayManager]
  exact h

theorem next_of_nil {m : ReplayManager} (h : m.replayEvents = []) : m.next = (none, m) := by
  unfold ReplayManager.next ReplayManager.shouldReplay
  rw [h]
  rfl

theorem step_withoutReplay (h : r.WithoutReplay) (answers : Answers) :
    ((r.step answers).1.turn, (r.step answers).2) = r.turn.step answers ∧
      r.KeepsReplay (r.step answers).1 := by
  rw [Turn.step_eq]
  unfold step
  rw [next_of_nil h]
  cases hpassed : (r.turn.passFlags answers).2 with
  | false =>
      simp only [hpassed, Bool.not_false, if_true, Bool.false_eq_true, if_false]
      exact ⟨trivial, rfl, rfl⟩
  | true =>
      simp only [hpassed, Bool.not_true, Bool.false_eq_true, if_true, if_false]
      exact ⟨trivial, rfl, rfl⟩

theorem stepWithExceptionHandling_withoutReplay (h : r.WithoutReplay) (answers : Answers) :
    (r.stepWithExceptionHandling answers).turn = r.turn.stepWithExceptionHandling answers ∧
      r.KeepsReplay (r.stepWithExceptionHandling answers) := by
  obtain ⟨heq, hkeeps⟩ := step_withoutReplay h answers
  rw [Turn.stepWithExceptionHandling_eq, ← heq]
  exact ⟨rfl, hkeeps.replayManager, hkeeps.replaySteps⟩

theorem handleEvent_withoutReplay (h : r.WithoutReplay) (answers : Answers) (event : Event) :
    (r.handleEvent answers event).turn = r.turn.handleEvent answers event ∧
      r.KeepsReplay (r.handleEvent answers event) := by
  rw [Turn.handleEvent_eq]
  unfold handleEvent
  cases hsteps : (r.turn.beforeStep answers event).2 with
  | false =>
      simp only [hsteps, Bool.false_eq_true, if_false]
      exact ⟨trivial, rfl, rfl⟩
  | true =>
      simp only [hsteps, if_true]
      obtain ⟨heq, hkeeps⟩ := stepWithExceptionHandling_withoutReplay
        (r := { r with turn := (r.turn.beforeStep answers event).1 }) h answers
      exact ⟨heq, hkeeps.replayManager, hkeeps.replaySteps⟩

theorem onEvent_withoutReplay (h : r.WithoutReplay) (answers : Answers) (event : Event) :
    (r.onEvent answers event).turn = r.turn.onEvent answers event ∧
      r.KeepsReplay (r.onEvent answers event) := by
  unfold onEvent Turn.onEvent
  cases hd : r.turn.self.delegate with
  | none => exact handleEvent_withoutReplay h answers event
  | some d =>
      by_cases hdone : d.isDone = true
      · simp only [hdone, if_true]
        exact ⟨trivial, rfl, rfl⟩
      · simp only [hdone, if_false, Bool.false_eq_true]
        exact ⟨trivial, rfl, rfl⟩

theorem controlMove_withoutReplay (h : r.WithoutReplay) (m : ControlMove) :
    (r.controlMove m).turn = r.turn.controlMove m ∧ r.KeepsReplay (r.controlMove m) := by
  cases m with
  | move m =>
      cases m with
      | publish event source => exact ⟨rfl, rfl, rfl⟩
      | deliver answers =>
          show (r.move (.deliver answers)).turn = r.turn.move (.deliver answers) ∧
            r.KeepsReplay (r.move (.deliver answers))
          cases hqueue : r.turn.bus.queue with
          | nil =>
              simp only [move, Turn.move, hqueue]
              exact ⟨trivial, rfl, rfl⟩
          | cons event queue =>
              obtain ⟨heq, hkeeps⟩ := onEvent_withoutReplay
                (r := r.mapTurn (·.popped queue answers)) h answers event
              simp only [move, Turn.move, hqueue, settle, mapTurn] at heq hkeeps ⊢
              rw [heq]
              exact ⟨rfl, hkeeps.replayManager, hkeeps.replaySteps⟩
  | step answers =>
      obtain ⟨heq, hkeeps⟩ := stepWithExceptionHandling_withoutReplay
        (r := r.mapTurn fun t => (t.popped t.bus.queue answers).readFlags) h answers
      simp only [controlMove, Turn.controlMove, Turn.onRoot, settle, mapTurn] at heq hkeeps ⊢
      rw [heq]
      exact ⟨rfl, hkeeps.replayManager, hkeeps.replaySteps⟩
  | setAgentState newState answers => exact ⟨rfl, rfl, rfl⟩

/-- **Without a trajectory** the controller runs as `Turn.controlMove` says. -/
theorem run_withoutReplay (h : r.WithoutReplay) (moves : List ControlMove) :
    (Run.run controlMove r moves).turn = Run.run Turn.controlMove r.turn moves := by
  induction moves generalizing r with
  | nil => rfl
  | cons m moves ih =>
      obtain ⟨heq, hkeeps⟩ := controlMove_withoutReplay h m
      rw [Run.run_cons, Run.run_cons, ih (hkeeps.withoutReplay h), heq]

end ReplayTurn

end OpenHands
