/-
# Events: actions, observations and their metadata

The event data model of `openhands/events`: every item of a conversation is an
`Event`, either an `Action` (something the agent or the user does) or an
`Observation` (what came back).  A class of the source is one constructor; a
class whose attributes are read by the modelled code carries them.

An event that has not been put on a stream has the id `invalidId = -1`.
-/
import Mathlib.Data.List.Basic
import Mathlib.Data.Int.Range

namespace OpenHands

/-! ## Errors -/

/-- The Python exceptions the modelled functions raise. -/
inductive PyError where
  | valueError (msg : String)
  | indexError
  | typeError
  | fileNotFoundError
  | osError
  | assertionError
  | keyError
  | attributeError
  | llmMalformedActionError
  deriving DecidableEq, Repr

/-- A list in order stays in order when an element behind all others is appended. -/
theorem pairwise_concat {α : Type*} {r : α → α → Prop} {l : List α} {x : α}
    (h : l.Pairwise r) (hx : ∀ a ∈ l, r a x) : (l ++ [x]).Pairwise r := by
  rw [List.pairwise_append]
  refine ⟨h, List.pairwise_singleton _ _, ?_⟩
  intro a ha b hb
  rw [List.mem_singleton.mp hb]
  exact hx a ha

/-! ## Enumerations of the event model -/

/-- `EventSource`: who put the event on the stream. -/
inductive EventSource where
  | agent | user | environment
  deriving DecidableEq, Repr

/-- `RecallType`: the kind of microagent information asked for. -/
inductive RecallType where
  | workspaceContext | knowledge
  deriving DecidableEq, Repr

/-- `AgentState` (`core/schema/agent.py`). -/
inductive AgentState where
  | loading | running | awaitingUserInput | paused | stopped | finished | rejected
  | error | awaitingUserConfirmation | userConfirmed | userRejected | rateLimited
  deriving DecidableEq, Repr

/-- `ActionConfirmationStatus`. -/
inductive ActionConfirmationStatus where
  | confirmed | rejected | awaitingConfirmation
  deriving DecidableEq, Repr

/-- `ActionSecurityRisk`. -/
inductive ActionSecurityRisk where
  | unknown | low | medium | high
  deriving DecidableEq, Repr

/-- `ToolCallMetadata`: the tool call of an LLM response that an action came
from; the response is represented by its id. -/
structure ToolCallMetadata where
  functionName : String
  toolCallId : String
  modelResponse : String
  totalCallsInResponse : ℕ
  deriving DecidableEq, Repr

/-! ## Condensation actions -/

/-- `CondensationAction._validate_field_polymorphism`: the forgotten events are
given by a list of ids or by a range (exactly one of the two), and a summary
comes with its offset. -/
def validateFieldPolymorphism (forgottenEventIds : Option (List ℤ))
    (forgottenEventsStartId forgottenEventsEndId : Option ℤ)
    (summary : Option String) (summaryOffset : Option ℤ) : Bool :=
  let usingEventIds := forgottenEventIds.isSome
  let usingEventRange := forgottenEventsStartId.isSome && forgottenEventsEndId.isSome
  let forgottenEventConfiguration := usingEventIds ^^ usingEventRange
  let summaryConfiguration :=
    (summary.isNone && summaryOffset.isNone) || (summary.isSome && summaryOffset.isSome)
  forgottenEventConfiguration && summaryConfiguration

/-- `CondensationAction`.  `__post_init__` refuses an invalid configuration of
the optional fields, so the configuration is a field of the structure. -/
structure CondensationAction where
  forgottenEventIds : Option (List ℤ) := none
  forgottenEventsStartId : Option ℤ := none
  forgottenEventsEndId : Option ℤ := none
  summary : Option String := none
  summaryOffset : Option ℤ := none
  valid : validateFieldPolymorphism forgottenEventIds forgottenEventsStartId
    forgottenEventsEndId summary summaryOffset = true
  deriving DecidableEq, Repr

/-- The constructor of `CondensationAction`, with the check of `__post_init__`. -/
def CondensationAction.create (forgottenEventIds : Option (List ℤ))
    (forgottenEventsStartId forgottenEventsEndId : Option ℤ)
    (summary : Option String) (summaryOffset : Option ℤ) :
    Except PyError CondensationAction :=
  if h : validateFieldPolymorphism forgottenEventIds forgottenEventsStartId
      forgottenEventsEndId summary summaryOffset = true then
    .ok ⟨forgottenEventIds, forgottenEventsStartId, forgottenEventsEndId, summary,
      summaryOffset, h⟩
  else
    .error (.valueError "Invalid configuration of the optional fields.")

/-- `CondensationAction.forgotten`: the ids of the events to forget.  The
validity of the fields leaves no other case than these two. -/
def CondensationAction.forgotten (c : CondensationAction) : List ℤ :=
  match c.forgottenEventIds with
  | some ids => ids
  | none =>
    match c.forgottenEventsStartId, c.forgottenEventsEndId with
    | some startId, some endId => Int.range startId (endId + 1)
    | _, _ => []

/-- The condensation action that forgets the range `[startId, endId]`. -/
def CondensationAction.forgetRange (startId endId : ℤ) : CondensationAction :=
  ⟨none, some startId, some endId, none, none, rfl⟩

/-- The condensation action that puts a summary in place of a range. -/
def CondensationAction.summarizeRange (startId endId : ℤ) (summary : String)
    (summaryOffset : ℤ) : CondensationAction :=
  ⟨none, some startId, some endId, some summary, some summaryOffset, rfl⟩

theorem create_forgetRange (startId endId : ℤ) :
    CondensationAction.create none (some startId) (some endId) none none
      = .ok (.forgetRange startId endId) := rfl

theorem create_summarizeRange (startId endId : ℤ) (summary : String) (summaryOffset : ℤ) :
    CondensationAction.create none (some startId) (some endId) (some summary)
      (some summaryOffset) = .ok (.summarizeRange startId endId summary summaryOffset) := rfl

/-- An offset without a summary is an invalid configuration. -/
theorem create_offset_without_summary (startId endId summaryOffset : ℤ) :
    CondensationAction.create none (some startId) (some endId) none (some summaryOffset)
      = .error (.valueError "Invalid configuration of the optional fields.") := rfl

/-- The ids a condensation action over the range `[startId, endId]` forgets. -/
theorem mem_forgotten_of_range {c : CondensationAction} {startId endId i : ℤ}
    (hids : c.forgottenEventIds = none) (hs : c.forgottenEventsStartId = some startId)
    (he : c.forgottenEventsEndId = some endId) :
    i ∈ c.forgotten ↔ startId ≤ i ∧ i ≤ endId := by
  rw [CondensationAction.forgotten, hids, hs, he]
  show i ∈ Int.range startId (endId + 1) ↔ _
  rw [Int.mem_range_iff, Int.lt_add_one_iff]

/-! ## Actions -/

/-- The action classes with `runnable = True`: the runtime executes them and
answers with an observation.  Only `CmdRunAction` has a `hidden` attribute. -/
inductive RunnableClass where
  | cmdRun (hidden : Bool)
  | ipythonRunCell
  | browseURL
  | browseInteractive
  | fileRead
  | fileWrite
  | fileEdit
  | mcp
  deriving DecidableEq, Repr

/-- A runnable action: its class, the text it runs (command, code, url, path), its
thought, its `confirmation_state` (`none` where the class has no such attribute
and none was set) and its security risk. -/
structure RunnableAction where
  cls : RunnableClass
  input : String
  thought : String := ""
  confirmationState : Option ActionConfirmationStatus := none
  securityRisk : ActionSecurityRisk := .unknown
  deriving DecidableEq, Repr

/-- `MessageAction`. -/
structure MessageAction where
  content : String
  waitForResponse : Bool := false
  deriving DecidableEq, Repr

/-- `RecallAction`: a microagent retrieval, triggered by a message. -/
structure RecallAction where
  recallType : RecallType
  query : String
  thought : String := ""
  deriving DecidableEq, Repr

/-- `AgentDelegateAction`; the inputs dictionary holds rendered values. -/
structure AgentDelegateAction where
  agent : String
  inputs : List (String × String)
  thought : String := ""
  deriving DecidableEq, Repr

/-- The `Action` classes.  `agentThink` and `taskTracking` are not runnable by
class, although the runtime answers them. -/
inductive Action where
  | null
  | message (m : MessageAction)
  | systemMessage (content : String)
  | changeAgentState (agentState : AgentState)
  | recall (r : RecallAction)
  | agentDelegate (d : AgentDelegateAction)
  | agentFinish (outputs : List (String × String))
  | agentReject (outputs : List (String × String))
  | agentThink (thought : String)
  | taskTracking (command : String)
  | condensation (c : CondensationAction)
  | condensationRequest
  | loopRecovery (option : ℤ)
  | run (a : RunnableAction)
  deriving DecidableEq, Repr

/-! ## Observations -/

/-- The `Observation` classes with the attributes the modelled code reads.  Only
`CmdOutputObservation` has a `hidden` attribute; `other` stands for the classes
the modelled code does not tell apart, under their `observation` type name. -/
inductive ObservationClass where
  | null
  | agentStateChanged (agentState : AgentState) (reason : String)
  | agentDelegate (outputs : List (String × String))
  | agentCondensation
  | error (errorId : String)
  | loopDetection
  | recall (recallType : RecallType)
  | browserOutput (url : String)
  | cmdOutput (command : String) (hidden : Bool)
  | other (observation : String)
  deriving DecidableEq, Repr

/-- `Observation`: every observation has a content. -/
structure Observation where
  content : String
  cls : ObservationClass
  deriving DecidableEq, Repr

/-! ## Events -/

/-- An event is an action or an observation. -/
inductive EventBody where
  | action (a : Action)
  | observation (o : Observation)
  deriving DecidableEq, Repr

/-- `Event.INVALID_ID`. -/
def invalidId : ℤ := -1

/-- `Event`: the body with the metadata the stream and the controller set. -/
structure Event where
  id : ℤ := invalidId
  source : Option EventSource := none
  cause : Option ℤ := none
  timestamp : Option String := none
  toolCallMetadata : Option ToolCallMetadata := none
  body : EventBody
  deriving DecidableEq, Repr

namespace Event

/-- A new event around an action, not yet on a stream. -/
def ofAction (a : Action) : Event := { body := .action a }

/-- A new event around an observation, not yet on a stream. -/
def ofObservation (content : String) (cls : ObservationClass) : Event :=
  { body := .observation ⟨content, cls⟩ }

/-- `getattr(event, 'hidden', False)`. -/
def hidden (e : Event) : Bool :=
  match e.body with
  | .action (.run { cls := .cmdRun hidden, .. }) => hidden
  | .observation { cls := .cmdOutput _ hidden, .. } => hidden
  | _ => false

/-- `isinstance(event, Observation)`. -/
def isObservation (e : Event) : Bool :=
  match e.body with
  | .observation _ => true
  | _ => false

/-- `action.runnable`. -/
def runnable (e : Event) : Bool :=
  match e.body with
  | .action (.run _) => true
  | _ => false

/-- `isinstance(event, MessageAction) and event.source == EventSource.USER`. -/
def isUserMessage (e : Event) : Bool :=
  match e.body with
  | .action (.message _) => e.source = some .user
  | _ => false

/-- The condensation action of an event that is one. -/
def condensation? (e : Event) : Option CondensationAction :=
  match e.body with
  | .action (.condensation c) => some c
  | _ => none

/-- `isinstance(event, CondensationRequestAction)`. -/
def isCondensationRequest (e : Event) : Bool :=
  match e.body with
  | .action .condensationRequest => true
  | _ => false

/-- `isinstance(event, AgentCondensationObservation)`. -/
def isAgentCondensation (e : Event) : Bool :=
  match e.body with
  | .observation { cls := .agentCondensation, .. } => true
  | _ => false

/-- `isinstance(event, AgentDelegateAction)`. -/
def isDelegateAction (e : Event) : Bool :=
  match e.body with
  | .action (.agentDelegate _) => true
  | _ => false

/-- `isinstance(event, AgentDelegateObservation)`. -/
def isDelegateObservation (e : Event) : Bool :=
  match e.body with
  | .observation { cls := .agentDelegate _, .. } => true
  | _ => false

/-- A user message is never hidden: its class has no such attribute. -/
theorem hidden_of_isUserMessage {e : Event} (h : e.isUserMessage) : e.hidden = false := by
  unfold isUserMessage at h
  unfold hidden
  split at h
  · rename_i hb
    rw [hb]
  · simp at h

end Event

end OpenHands
