/-
# The agent controller

`AgentController` of `openhands/controller/agent_controller.py`: it gets the events of the
stream one by one, keeps the history and the state of the agent, lets the agent take its
steps and starts and ends delegates.

A `Turn` is a controller with the event bus it works on; the functions of the controller
are functions on turns.  What comes from outside while an event is handled (the answer of
the agent, the verdict of the stuck detector, the events of other threads) is given in an
`Answers`.

The two ghost fields of a controller record which runnable actions of its own are waiting
for their observation, now and at each call of the agent.
-/
import OpenHands.EventBus
import OpenHands.LoopRecovery

namespace OpenHands

/-! ## Exceptions of the agent -/

/-- The exception classes that the controller tells apart. -/
inductive ExceptionClass where
  | timeout | apiError | apiConnectionError | badRequestError | notFoundError
  | internalServerError | authenticationError | rateLimitError | serviceUnavailableError
  | contentPolicyViolationError | contextWindowExceededError | openAIError
  | llmContextWindowExceedError | llmMalformedActionError | llmNoActionError
  | llmResponseError | functionCallValidationError | functionCallNotExistsError
  deriving DecidableEq, Repr

/-- An exception: the name of its class, the classes above it is an instance of, its text,
and `retry_attempt` with `max_retries` where it has them. -/
structure PyException where
  name : String
  classes : List ExceptionClass
  text : String
  retry : Option (ℤ × ℤ) := none
  deriving DecidableEq, Repr

/-- The text occurs in the characters. -/
def occursIn (text : List Char) : List Char → Bool
  | [] => text.isEmpty
  | c :: cs => text.isPrefixOf (c :: cs) || occursIn text cs

/-- `sub in s`. -/
def containsText (s sub : String) : Bool := occursIn sub.toList s.toList

/-- `s.lower()`, for the letters of the texts searched for. -/
def lowerText (s : String) : String := String.ofList (s.toList.map Char.toLower)

namespace PyException

/-- `isinstance(e, (k1, k2, …))`. -/
def isinstance (e : PyException) (classes : List ExceptionClass) : Bool :=
  classes.any (· ∈ e.classes)

/-- A `RuntimeError`. -/
def runtimeError (text : String) : PyException := ⟨"RuntimeError", [], text, none⟩

/-- `AgentStuckInLoopError('Agent got stuck in a loop')`. -/
def agentStuckInLoop : PyException :=
  ⟨"AgentStuckInLoopError", [], "Agent got stuck in a loop", none⟩

/-- `LLMContextWindowExceedError()`. -/
def llmContextWindowExceed : PyException :=
  ⟨"LLMContextWindowExceedError", [.llmContextWindowExceedError],
    "Conversation history longer than LLM context window limit. Consider turning on enable_history_truncation config to avoid this error",
    none⟩

/-- The errors that are sent back to the agent as an observation. -/
def isMalformedAction (e : PyException) : Bool :=
  e.isinstance [.llmMalformedActionError, .llmNoActionError, .llmResponseError,
    .functionCallValidationError, .functionCallNotExistsError]

/-- The exceptions that the controller reports as they are. -/
def isReported (e : PyException) : Bool :=
  e.isinstance [.timeout, .apiError, .badRequestError, .notFoundError, .internalServerError,
    .authenticationError, .rateLimitError, .contentPolicyViolationError,
    .llmContextWindowExceedError]

/-- The exception says that the context window was exceeded. -/
def isContextWindowError (e : PyException) : Bool :=
  let errorStr := lowerText e.text
  e.isinstance [.contextWindowExceededError, .badRequestError, .openAIError] &&
    (containsText errorStr "contextwindowexceedederror" ||
      containsText errorStr "prompt is too long" ||
      containsText errorStr "input length and `max_tokens` exceed context limit" ||
      containsText errorStr "please reduce the length of" ||
      containsText errorStr "the request exceeds the available context size" ||
      containsText errorStr "context length exceeded" ||
      (containsText errorStr "sambanovaexception" &&
        containsText errorStr "maximum context length") ||
      e.isinstance [.contextWindowExceededError])

/-- The `RuntimeStatus` that stands for an error of the LLM. -/
def runtimeStatus (e : PyException) : Option String :=
  if e.isinstance [.authenticationError] then some "STATUS$ERROR_LLM_AUTHENTICATION"
  else if e.isinstance [.serviceUnavailableError, .apiConnectionError, .apiError] then
    some "STATUS$ERROR_LLM_SERVICE_UNAVAILABLE"
  else if e.isinstance [.internalServerError] then
    some "STATUS$ERROR_LLM_INTERNAL_SERVER_ERROR"
  else if e.isinstance [.badRequestError] && containsText e.text "ExceededBudget" then
    some "STATUS$ERROR_LLM_OUT_OF_CREDITS"
  else if e.isinstance [.contentPolicyViolationError] ||
      (e.isinstance [.badRequestError] && containsText e.text "ContentPolicyViolationError") then
    some "STATUS$ERROR_LLM_CONTENT_POLICY_VIOLATION"
  else none

/-- All retries of a rate-limited call are used up. -/
def retriesExhausted (e : PyException) : Bool :=
  e.retry.any fun (attempt, maxRetries) => maxRetries ≤ attempt

end PyException

/-! ## Controllers -/

/-- An agent as its controller sees it: its name, the options of its configuration and the
content of its system message. -/
structure Agent where
  name : String
  cliMode : Bool := false
  enableStuckDetection : Bool := true
  enableHistoryTruncation : Bool := true
  systemMessage : Option String := none
  deriving DecidableEq, Repr

/-- The arguments of `AgentController.__init__` that the controller keeps. -/
structure ControllerOptions where
  agent : Agent
  headlessMode : Bool := true
  confirmationMode : Bool := false
  securityAnalyzer : Bool := false
  statusCallback : Bool := false
  initialMaxIterations : ℤ
  initialMaxBudgetPerTask : Option ℚ := none
  deriving DecidableEq, Repr

/-- `AgentController`.  Ghost fields: `unobserved` holds the ids of the runnable actions
that the controller has put on the stream, that no confirmed or rejected copy supersedes
and whose observation has not been delivered to it; `agentCalls` is what `unobserved` was
at each call of `agent.step`. -/
structure AgentController extends ControllerOptions where
  state : State
  pendingAction : Option Event := none
  cachedFirstUserMessage : Option Event := none
  delegate : Option AgentController := none
  unobserved : List ℤ := []
  agentCalls : List (List ℤ) := []

/-- What the code outside of the controller answers while it handles one event: the events
of other threads, `is_stuck` and `stuck_analysis.loop_start_idx` of the stuck detector, the
accumulated cost, what `agent.step` returns or raises, the verdict of the security analyzer
and the agent registered under the name of a delegate. -/
structure Answers where
  arrivals : List (List (Event × EventSource)) := []
  isStuck : Bool := false
  stuckAnalysis : Option ℤ := none
  accumulatedCost : Option ℚ := none
  agentStep : Except PyException (Option (Action × Option ToolCallMetadata)) := .ok none
  securityRisk : ActionSecurityRisk := .unknown
  delegateAgent : Option Agent := none

/-- A controller with the event bus it works on. -/
structure Turn where
  self : AgentController
  bus : EventBus

/-- `MessageAction` of the user. -/
def Event.userMessage? (e : Event) : Option MessageAction :=
  match e.body with
  | .action (.message m) => if e.source = some .user then some m else none
  | _ => none

/-- `isinstance(event, SystemMessageAction)`. -/
def Event.isSystemMessage (e : Event) : Bool :=
  match e.body with
  | .action (.systemMessage _) => true
  | _ => false

namespace AgentController

/-- `_first_user_message`, with the cache after the call. -/
def firstUserMessage (c : AgentController) (stream : EventLog) : Option Event :=
  match c.cachedFirstUserMessage with
  | some message => some message
  | none => (stream.searchEvents c.state.startId none Event.isUserMessage).head?

/-- The loop of `_reset`: an observation of the history has the tool call metadata of the
pending action. -/
def foundObservation (c : AgentController) (pending : Event) : Bool :=
  c.state.history.any fun e =>
    e.isObservation && e.toolCallMetadata = pending.toolCallMetadata

/-- `should_step`. -/
def shouldStep (c : AgentController) (event : Event) : Bool :=
  c.delegate.isNone &&
    match event.body with
    | .action (.message _) =>
      event.source = some .user || c.state.agentState ≠ .awaitingUserInput
    | .action (.agentDelegate _) => true
    | .action (.condensation _) => true
    | .action .condensationRequest => true
    | .action _ => false
    | .observation { cls := .null, .. } => event.cause.any (0 < ·)
    | .observation { cls := .agentStateChanged _ _, .. } => false
    | .observation _ => true

/-- The delegate of `on_event` is done: it does not get the event. -/
def isDone (d : AgentController) : Bool :=
  d.state.agentState ∈ [AgentState.finished, .error, .rejected] &&
    !containsText d.state.lastError "RuntimeError: Agent reached maximum iteration." &&
    !containsText d.state.lastError
      "RuntimeError:Agent reached maximum budget for conversation"

/-- `_handle_security_analyzer` and the decision of `_step` whether a runnable action needs
a confirmation. -/
def withConfirmation (c : AgentController) (answers : Answers) (action : RunnableAction) :
    RunnableAction :=
  let confirmable := match action.cls with
    | .cmdRun _ | .ipythonRunCell | .browseInteractive | .fileEdit | .fileRead => true
    | _ => false
  if c.state.confirmationMode && confirmable then
    let risk := if c.securityAnalyzer then answers.securityRisk else .unknown
    let action := { action with securityRisk := risk }
    let isHighSecurityRisk := risk = .high
    let isAskForEveryAction := risk = .unknown && !c.securityAnalyzer
    if c.agent.cliMode || ((isHighSecurityRisk || isAskForEveryAction) && c.confirmationMode) then
      { action with confirmationState := some .awaitingConfirmation }
    else action
  else action

end AgentController

/-- The text and the id of the error that `_reset` gives for an action that was not
executed. -/
def errorActionNotExecuted (agentState : AgentState) : String × String :=
  if agentState = .stopped then
    ("Stop button pressed. The action has not been executed.",
      "AGENT_ERROR$ERROR_ACTION_NOT_EXECUTED_STOPPED")
  else
    ("The action has not been executed due to a runtime error. The runtime system may have crashed and restarted due to resource constraints. Any previously established system state, dependencies, or environment variables may have been lost.",
      "AGENT_ERROR$ERROR_ACTION_NOT_EXECUTED_ERROR")

/-- The `ErrorObservation` of `_reset`: it answers the pending action. -/
def actionNotExecuted (agentState : AgentState) (pending : Event) : Event :=
  let (content, errorId) := errorActionNotExecuted agentState
  { Event.ofObservation content (.error errorId) with
    toolCallMetadata := pending.toolCallMetadata
    cause := some pending.id }

/-- Set `tool_call_metadata`. -/
def Event.withToolCallMetadata (e : Event) (toolCallMetadata : Option ToolCallMetadata) : Event :=
  { e with toolCallMetadata := toolCallMetadata }

/-- The pending action as it is emitted again after the user has answered. -/
def Event.answered (e : Event) (status : ActionConfirmationStatus) : Event :=
  match e.body with
  | .action (.run a) =>
    { e with
      body := .action (.run { a with thought := "", confirmationState := some status }) }
  | .action (.recall r) => { e with body := .action (.recall { r with thought := "" }) }
  | _ => e

/-- The confirmation status that belongs to a new agent state. -/
def AgentState.confirmationStatus : AgentState → Option ActionConfirmationStatus
  | .userConfirmed => some .confirmed
  | .userRejected => some .rejected
  | _ => none

namespace Turn

/-! ## The state of the agent -/

/-- `event_stream.add_event`, where the event is not used afterwards. -/
def addEvent (t : Turn) (event : Event) (source : EventSource) : Turn :=
  { t with bus := (t.bus.addEvent event source).1 }

/-- Change the attributes of the controller. -/
def mapSelf (t : Turn) (f : AgentController → AgentController) : Turn :=
  { t with self := f t.self }

/-- Change the state object of the controller. -/
def mapState (t : Turn) (f : State → State) : Turn :=
  t.mapSelf fun c => { c with state := f c.state }

/-- `_reset`. -/
def reset (t : Turn) : Turn :=
  let t := match t.self.pendingAction with
    | none => t
    | some pending =>
      if t.self.foundObservation pending then t
      else t.addEvent (actionNotExecuted t.self.state.agentState pending) .agent
  t.mapSelf fun c => { c with pendingAction := none }

/-- The part of `set_agent_state_to` that emits the pending action again: the copy has a
new id and supersedes the action. -/
def emitAnswered (t : Turn) (status : ActionConfirmationStatus) : Turn :=
  match t.self.pendingAction with
  | none => t
  | some pending =>
    let added := t.bus.addEvent (pending.answered status) .agent
    mapSelf { t with bus := added.1 } fun c =>
      { c with
        pendingAction := some added.2
        unobserved := c.unobserved.erase pending.id
          ++ if pending.runnable then [added.2.id] else [] }

/-- `set_agent_state_to`. -/
def setAgentStateTo (t : Turn) (newState : AgentState) : Turn :=
  if newState = t.self.state.agentState then t
  else
    let oldState := t.self.state.agentState
    let t := t.mapState fun s => { s with agentState := newState }
    let t := if newState = .stopped ∨ newState = .error then t.reset else t
    let t :=
      if oldState = .error ∧ newState = .running then
        t.mapState (StateTracker.maybeIncreaseControlFlagsLimits · t.self.headlessMode)
      else t
    let t := match newState.confirmationStatus with
      | some status => t.emitAnswered status
      | none => t
    let reason := if newState = .error then t.self.state.lastError else ""
    t.addEvent (.ofObservation "" (.agentStateChanged t.self.state.agentState reason))
      .environment

/-- `_react_to_exception`. -/
def reactToException (t : Turn) (e : PyException) : Turn :=
  let setLastError (t : Turn) (text : String) : Turn :=
    t.mapState fun s => { s with lastError := text }
  let t := setLastError t (e.name ++ ": " ++ e.text)
  if !t.self.statusCallback then t.setAgentStateTo .error
  else
    match e.runtimeStatus with
    | some status => (setLastError t status).setAgentStateTo .error
    | none =>
      if e.isinstance [.rateLimitError] then
        if e.retriesExhausted then
          (setLastError t "CHAT_INTERFACE$AGENT_RATE_LIMITED_STOPPED_MESSAGE").setAgentStateTo
            .error
        else t.setAgentStateTo .rateLimited
      else t.setAgentStateTo .error

/-! ## The step of the agent -/

/-- The end of `_step`: the action becomes the pending action if it is runnable, and is
put on the stream. -/
def emitAction (t : Turn) (answers : Answers) (action : Action)
    (toolCallMetadata : Option ToolCallMetadata) : Turn :=
  match action with
  | .null => t
  | .run a =>
    let a := t.self.withConfirmation answers a
    let event := (Event.ofAction (.run a)).withToolCallMetadata toolCallMetadata
    let t := t.mapSelf fun c => { c with pendingAction := some event }
    let t :=
      if a.confirmationState = some .awaitingConfirmation then
        t.setAgentStateTo .awaitingUserConfirmation
      else t
    let added := t.bus.addEvent event .agent
    mapSelf { t with bus := added.1 } fun c =>
      { c with
        -- the stream sets the id of the action that is pending
        pendingAction := some added.2
        unobserved := c.unobserved ++ [added.2.id] }
  | action => t.addEvent ((Event.ofAction action).withToolCallMetadata toolCallMetadata) .agent

/-- The call of `agent.step` in `_step` with what follows; the second component is the
exception that `_step` raises. -/
def callAgent (t : Turn) (answers : Answers) : Turn × Option PyException :=
  let t := t.mapSelf fun c => { c with agentCalls := c.agentCalls ++ [c.unobserved] }
  match answers.agentStep with
  | .ok (some (action, toolCallMetadata)) => (t.emitAction answers action toolCallMetadata, none)
  | .ok none =>
    (t.addEvent (.ofObservation "No action was returned" (.error "")) .agent, none)
  | .error e =>
    if e.isMalformedAction then (t.addEvent (.ofObservation e.text (.error "")) .agent, none)
    else if e.isContextWindowError then
      if t.self.agent.enableHistoryTruncation then
        (t.addEvent (.ofAction .condensationRequest) .agent, none)
      else (t, some .llmContextWindowExceed)
    else (t, some e)

/-- `_step`; the second component is the exception it raises. -/
def step (t : Turn) (answers : Answers) : Turn × Option PyException :=
  if t.self.state.agentState ≠ .running then (t, none)
  else if t.self.pendingAction.isSome then (t, none)
  else
    let t := t.mapState (StateTracker.syncBudgetFlagWithMetrics · answers.accumulatedCost)
    if t.self.agent.enableStuckDetection && answers.isStuck then
      (t.reactToException .agentStuckInLoop, none)
    else
      let raised := (StateTracker.runControlFlags t.self.state).2
      let t := t.mapState fun s => (StateTracker.runControlFlags s).1
      match raised with
      | some message => (t.reactToException (.runtimeError message), none)
      | none => t.callAgent answers

/-- `_step_with_exception_handling`. -/
def stepWithExceptionHandling (t : Turn) (answers : Answers) : Turn :=
  match t.step answers with
  | (t, none) => t
  | (t, some e) =>
    t.reactToException
      (if e.isReported then e
       else .runtimeError ("There was an unexpected error while running the agent: " ++ e.name
        ++ ". You can refresh the page or ask the agent to try again."))

/-! ## Handling one event -/

/-- `_handle_message_action`. -/
def handleMessageAction (t : Turn) (event : Event) (message : MessageAction) : Turn :=
  if event.source = some .user then
    let firstUserMessage := t.self.firstUserMessage t.bus.log
    let isFirstUserMessage := firstUserMessage.any fun first => event.id = first.id
    let recallType := if isFirstUserMessage then RecallType.workspaceContext else .knowledge
    let recallAction : RecallAction := { recallType := recallType, query := message.content }
    let added := t.bus.addEvent (.ofAction (.recall recallAction)) .user
    let t := mapSelf { t with bus := added.1 } fun c =>
      { c with cachedFirstUserMessage := firstUserMessage, pendingAction := some added.2 }
    if t.self.state.agentState ≠ .running then t.setAgentStateTo .running else t
  else if event.source = some .agent then
    if message.waitForResponse then t.setAgentStateTo .awaitingUserInput else t
  else t

/-- `_truncate_memory_to_point`. -/
def truncateMemoryToPoint (t : Turn) (recoveryPoint : ℤ) : Turn :=
  if recoveryPoint ≥ t.self.state.history.length then t
  else
    t.mapSelf fun c =>
      { c with
        state := OpenHands.truncateMemoryToPoint c.state recoveryPoint
        cachedFirstUserMessage := none }

/-- `_perform_loop_recovery`. -/
def performLoopRecovery (t : Turn) (recoveryPoint : ℤ) : Turn :=
  ((t.truncateMemoryToPoint recoveryPoint).setAgentStateTo .awaitingUserInput).addEvent
    (.ofObservation "✅ Loop recovery completed. Agent has been reset to before the loop.\nYou can now provide new instructions to continue.\n"
      .loopDetection) .environment

/-- The last message of the user in the history. -/
def lastUserMessage (t : Turn) : Option MessageAction :=
  t.self.state.history.reverse.findSome? Event.userMessage?

/-- `_restart_with_last_user_message`. -/
def restartWithLastUserMessage (t : Turn) (recoveryPoint : ℤ) : Turn :=
  match t.lastUserMessage with
  | some last =>
    let t := (t.truncateMemoryToPoint recoveryPoint).setAgentStateTo .running
    let t := t.addEvent
      (.ofObservation ("\n✅ Restarting with your last instruction: " ++ last.content
        ++ "\nAgent is now continuing with the same task...\n") .loopDetection) .environment
    let newAction : MessageAction := { content := last.content }
    t.handleMessageAction { Event.ofAction (.message newAction) with source := some .user }
      newAction
  | none => t.performLoopRecovery recoveryPoint

/-- `_handle_loop_recovery_action`. -/
def handleLoopRecoveryAction (t : Turn) (answers : Answers) (option : ℤ) : Turn :=
  match answers.stuckAnalysis with
  | none => t
  | some loopStartIdx =>
    if option = 1 then t.performLoopRecovery loopStartIdx
    else if option = 2 then t.restartWithLastUserMessage loopStartIdx
    else if option = 3 then t.setAgentStateTo .stopped
    else t

/-- `_handle_observation`. -/
def handleObservation (t : Turn) (event : Event) : Turn :=
  match t.self.pendingAction with
  | none => t
  | some pending =>
    if some pending.id = event.cause then
      if t.self.state.agentState = .awaitingUserConfirmation then t
      else
        let t := t.mapSelf fun c => { c with pendingAction := none }
        let t := if t.self.state.agentState = .userConfirmed then t.setAgentStateTo .running
          else t
        if t.self.state.agentState = .userRejected then t.setAgentStateTo .awaitingUserInput
        else t
    else t

/-! ## Delegates -/

/-- `_add_system_message`. -/
def addSystemMessage (t : Turn) : Turn :=
  let seen := t.bus.log.searchEvents t.self.state.startId none fun e =>
    e.isUserMessage || e.isSystemMessage
  if !seen.isEmpty then t
  else
    match t.self.agent.systemMessage with
    | some content =>
      if content ≠ "" then t.addEvent (.ofAction (.systemMessage content)) .agent else t
    | none => t

/-- `AgentController.__init__`, with the state of an earlier session or of a parent. -/
def create (options : ControllerOptions) (initialState : Option State) (bus : EventBus) : Turn :=
  let state := StateTracker.setInitialState initialState options.initialMaxIterations
    options.initialMaxBudgetPerTask options.confirmationMode
  let state := StateTracker.initHistory state bus.log
  addSystemMessage { self := { options with state := state }, bus := bus.arrive }

/-- Let the delegate act on the bus of its parent. -/
def onDelegate (t : Turn) (f : Turn → Turn) : Turn :=
  match t.self.delegate with
  | none => t
  | some d =>
    let acted := f ⟨d, t.bus⟩
    mapSelf { t with bus := acted.bus } fun c => { c with delegate := some acted.self }

/-- `start_delegate`; it raises if there is no agent of the name. -/
def startDelegate (t : Turn) (answers : Answers) (action : AgentDelegateAction) :
    Option Turn :=
  answers.delegateAgent.map fun delegateAgent =>
    let state : State :=
      { inputs := action.inputs
        iterationFlag := t.self.state.iterationFlag
        budgetFlag := t.self.state.budgetFlag
        delegateLevel := t.self.state.delegateLevel + 1
        startId := t.bus.log.latestEventId + 1 }
    let delegate := create
      { agent := delegateAgent
        headlessMode := t.self.headlessMode
        securityAnalyzer := t.self.securityAnalyzer
        initialMaxIterations := t.self.initialMaxIterations
        initialMaxBudgetPerTask := t.self.initialMaxBudgetPerTask } (some state) t.bus.arrive
    mapSelf { t with bus := delegate.bus } fun c => { c with delegate := some delegate.self }

/-- What the parent gets to read of its delegate. -/
def delegateResult (d : AgentController) : String :=
  let content :=
    if d.state.agentState = .finished ∨ d.state.agentState = .rejected then
      let displayOutputs := d.state.outputs.filter fun output => output.1 ≠ "metrics"
      d.agent.name ++ " finishes task with "
        ++ ", ".intercalate (displayOutputs.map fun output => output.1 ++ ": " ++ output.2)
    else d.agent.name ++ " encountered an error during execution."
  "Delegated agent finished with result:\n\n" ++ content

/-- `end_delegate`.  The control flags are objects that the delegate shares. -/
def endDelegate (t : Turn) : Turn :=
  match t.self.delegate with
  | none => t
  | some d =>
    let closed := setAgentStateTo ⟨d, t.bus⟩ .stopped
    let delegateAction := t.self.state.history.reverse.find? Event.isDelegateAction
    let t := mapState { t with bus := closed.bus } fun s =>
      { s with
        iterationFlag := closed.self.state.iterationFlag
        budgetFlag := closed.self.state.budgetFlag }
    let t := t.mapSelf fun c => { c with agentCalls := c.agentCalls ++ closed.self.agentCalls }
    let t := t.addEvent
      { Event.ofObservation (delegateResult d) (.agentDelegate d.state.outputs) with
        toolCallMetadata := delegateAction.bind Event.toolCallMetadata } .agent
    t.mapSelf fun c => { c with delegate := none }

/-! ## Routing -/

/-- The end of the branch of `_handle_action` for delegate actions: post a message with the
task for the delegate. -/
def postTask (t : Turn) (action : AgentDelegateAction) : Turn :=
  match action.inputs.lookup "task" with
  | some task =>
    (t.addEvent (.ofAction (.message { content := "TASK: " ++ task })) .user).onDelegate
      (·.setAgentStateTo .running)
  | none => t

/-- `_handle_action`; it raises if a delegate cannot be started. -/
def handleAction (t : Turn) (answers : Answers) (event : Event) (action : Action) :
    Option Turn :=
  match action with
  | .changeAgentState agentState => some (t.setAgentStateTo agentState)
  | .message message => some (t.handleMessageAction event message)
  | .agentDelegate delegateAction =>
    (t.startDelegate answers delegateAction).map (·.postTask delegateAction)
  | .agentFinish outputs =>
    some ((t.mapState fun s => { s with outputs := outputs }).setAgentStateTo .finished)
  | .agentReject outputs =>
    some ((t.mapState fun s => { s with outputs := outputs }).setAgentStateTo .rejected)
  | .loopRecovery option => some (t.handleLoopRecoveryAction answers option)
  | _ => some t

/-- An observation is delivered: the action it answers is not waiting any more. -/
def observe (t : Turn) (event : Event) : Turn :=
  t.mapSelf fun c =>
    { c with
      unobserved := if event.isObservation then
          c.unobserved.filter fun id => some id ≠ event.cause
        else c.unobserved }

/-- `_on_event`. -/
def handleEvent (t : Turn) (answers : Answers) (event : Event) : Turn :=
  let t := t.observe event
  if event.hidden then t
  else
    let t := t.mapState (StateTracker.addHistory · event)
    let handled := match event.body with
      | .action action => t.handleAction answers event action
      | .observation _ => some (t.handleObservation event)
    match handled with
    | none => t
    | some t => if t.self.shouldStep event then t.stepWithExceptionHandling answers else t

/-- `on_event`, the callback of the root controller. -/
def onEvent (t : Turn) (answers : Answers) (event : Event) : Turn :=
  match t.self.delegate with
  | some d =>
    if d.isDone then t.endDelegate
    else t.onDelegate (·.handleEvent answers event)
  | none => t.handleEvent answers event

end Turn

/-! ## Runs -/

/-- What happens in a conversation: another thread adds an event, or the next event of the
queue is delivered. -/
inductive Move where
  | publish (event : Event) (source : EventSource)
  | deliver (answers : Answers)

namespace Turn

/-- A controller is created for a stream; what is on the stream already is not delivered. -/
def start (options : ControllerOptions) (initialState : Option State) (log : EventLog) : Turn :=
  create options initialState { log := log }

/-- The next event is taken from the queue, and other threads are at work meanwhile. -/
def popped (t : Turn) (queue : List Event) (answers : Answers) : Turn :=
  { t with bus := { t.bus with queue := queue, arrivals := answers.arrivals } }

/-- The effect of a move. -/
def move (t : Turn) : Move → Turn
  | .publish event source => { t with bus := t.bus.receive (event, source) }
  | .deliver answers =>
    match t.bus.queue with
    | [] => t
    | event :: queue =>
      let t := (t.popped queue answers).onEvent answers event
      { t with bus := { t.bus with arrivals := [] } }

end Turn

end OpenHands
