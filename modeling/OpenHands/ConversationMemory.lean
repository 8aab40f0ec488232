/-
# From the history to the messages of the LLM

`ConversationMemory.process_events`: the events of a condensed history become the messages
that are sent to the LLM.  An action that came from a tool call is not shown by itself.  The
response of the LLM waits in `pending_tool_call_action_messages` until every one of its
calls has a result in `tool_call_id_to_message`; then the response and the results are
emitted together.  At the end calls and results without a counterpart are filtered out.

What the messages say about an event (the prompts, the images, the texts of the
observation classes) is given in an `EventTexts`.
-/
import OpenHands.Lib.PyDict
import OpenHands.Lib.PyStr
import OpenHands.AgentController
import OpenHands.Condenser

namespace OpenHands

/-! ## Messages -/

/-- The role of a message. -/
inductive Role where
  | system | user | assistant | tool
  deriving DecidableEq, Repr

/-- `TextContent` and `ImageContent`. -/
inductive Content where
  | text (text : String)
  | image (imageUrls : List String)
  deriving DecidableEq, Repr

/-- A tool call of an LLM response. -/
structure ToolCall where
  id : String
  name : String
  arguments : String
  deriving DecidableEq, Repr

/-- `Message`. -/
structure Message where
  role : Role
  content : List Content
  toolCalls : Option (List ToolCall) := none
  toolCallId : Option String := none
  name : Option String := none
  deriving DecidableEq, Repr

/-- `ModelResponse`: its id, and the content and the tool calls of its message. -/
structure ModelResponse where
  id : String
  content : Option String
  toolCalls : Option (List ToolCall)
  deriving DecidableEq, Repr

/-- What is read of events beyond the event model: the response that the metadata refer to,
the thought of a finish action, the attached images, and the texts and images that stand
for an event. -/
structure EventTexts where
  response : String → ModelResponse
  thought : Event → String
  imageUrls : Event → List String
  actionText : Event → String
  observationText : Event → String
  observationContent : Event → List Content
  recallContent : List Event → Event → List Content

/-- The options that `process_events` reads. -/
structure MemoryConfig where
  enablePromptExtensions : Bool := true
  visionIsActive : Bool := false
  maxMessageChars : Option ℤ := none
  systemPrompt : String := ""

/-! ## One event -/

/-- What an event turns into: messages, the response that requests tool calls, or the
result of a tool call. -/
inductive Processed where
  | shown (messages : List Message)
  | requests (responseId : String) (message : Message)
  | answers (toolCallId : String) (message : Message)

variable (texts : EventTexts) (config : MemoryConfig)

/-- The actions that tools stand for; commands only when the agent runs them. -/
def Action.isTool (action : Action) (source : Option EventSource) : Bool :=
  match action with
  | .agentDelegate _ | .agentThink _ | .taskTracking _ => true
  | .run a =>
    match a.cls with
    | .cmdRun _ => source = some .agent
    | .fileWrite => false
    | _ => true
  | _ => false

/-- The role of a message of the user or of the agent. -/
def Event.role (e : Event) : Role := if e.source = some .user then .user else .assistant

/-- The text of a finish action: its thought and what the LLM said with it. -/
def finishText (e : Event) : String :=
  match e.toolCallMetadata with
  | some metadata =>
    let content := (texts.response metadata.modelResponse).content.getD ""
    let thought := texts.thought e
    if thought ≠ "" then if thought ≠ content then thought ++ "\n" ++ content else thought
    else content
  | none => texts.thought e

/-- The content of a message with its images. -/
def messageContent (e : Event) (message : MessageAction) : List Content :=
  let imageUrls := texts.imageUrls e
  .text message.content ::
    if imageUrls.isEmpty then []
    else if e.source = some .user then
      imageUrls.zipIdx.flatMap fun (url, i) =>
        (if config.visionIsActive then [.text s!"Image {i + 1}:"] else []) ++ [.image [url]]
    else [.image imageUrls]

/-- `_process_action`. -/
def processAction (e : Event) (action : Action) : Except PyError Processed :=
  if action.isTool e.source then
    match e.toolCallMetadata with
    | none =>
      if e.source = some .user then
        .ok (.shown [⟨.user, [.text ("User requested to read file: " ++ texts.actionText e)],
          none, none, none⟩])
      else .error .assertionError
    | some metadata =>
      let response := texts.response metadata.modelResponse
      let content := match response.content with
        | some content => if PyStr.isBlank content then [] else [.text content]
        | none => []
      .ok (.requests response.id ⟨.assistant, content, response.toolCalls, none, none⟩)
  else
    match action with
    | .agentFinish _ => .ok (.shown [⟨e.role, [.text (finishText texts e)], none, none, none⟩])
    | .message message =>
      .ok (.shown [⟨e.role, messageContent texts config e message, none, none, none⟩])
    | .run a =>
      match a.cls with
      | .cmdRun _ =>
        if e.source = some .user then
          .ok (.shown [⟨.user, [.text ("User executed the command:\n" ++ a.input)], none, none,
            none⟩])
        else .ok (.shown [])
      | _ => .ok (.shown [])
    | .systemMessage content => .ok (.shown [⟨.system, [.text content], none, none, none⟩])
    | _ => .ok (.shown [])

/-- The end of `_process_observation`: the observation of a tool call is its result. -/
def toolResponse (e : Event) (content : List Content) : Processed :=
  match e.toolCallMetadata with
  | some metadata =>
    .answers metadata.toolCallId
      ⟨.tool, content, none, some metadata.toolCallId, some metadata.functionName⟩
  | none => .shown [⟨.user, content, none, none, none⟩]

/-- `_process_observation`; `earlier` are the events before this one. -/
def processObservation (earlier : List Event) (e : Event) (obs : Observation) :
    Except PyError Processed :=
  let truncated (text : String) : String :=
    config.maxMessageChars.elim text (truncateContent text)
  let respond (text : String) : Except PyError Processed := .ok (toolResponse e [.text text])
  match obs.cls with
  | .cmdOutput _ _ =>
    if e.toolCallMetadata.isNone then
      respond (truncated ("\nObserved result of command executed by user:\n"
        ++ texts.observationText e))
    else respond (truncated (texts.observationText e))
  | .browserOutput _ => .ok (toolResponse e (texts.observationContent e))
  | .agentDelegate outputs => respond (truncated ((outputs.lookup "content").getD obs.content))
  | .error _ =>
    respond (truncated obs.content ++ "\n[Error occurred in processing last action]")
  | .agentCondensation => respond (truncated obs.content)
  | .loopDetection => .ok (.shown [])
  | .recall recallType =>
    if !config.enablePromptExtensions then .ok (.shown [])
    else
      match texts.recallContent earlier e, recallType with
      | [], _ => .ok (.shown [])
      | content, .workspaceContext => .ok (toolResponse e content)
      | content, .knowledge => .ok (.shown [⟨.user, content, none, none, none⟩])
  | .other "run_ipython" => .ok (toolResponse e (texts.observationContent e))
  | .other "edit" => respond (truncated (texts.observationText e))
  | .other "read" => respond obs.content
  | .other "user_rejected" =>
    respond ("OBSERVATION:\n" ++ truncated obs.content
      ++ "\n[Last action has been rejected by the user]")
  | .other cls =>
    if cls ∈ ["mcp", "think", "task_tracking", "download"] then respond (truncated obs.content)
    else .error (.valueError "Unknown observation type")
  | .null | .agentStateChanged _ _ => .error (.valueError "Unknown observation type")

/-- An event is an action or an observation. -/
def processEvent (earlier : List Event) (e : Event) : Except PyError Processed :=
  match e.body with
  | .action action => processAction texts config e action
  | .observation obs => processObservation texts config earlier e obs

/-! ## The loop -/

/-- The two dictionaries of the loop. -/
structure MemoryState where
  pendingToolCallActionMessages : PyDict String Message := .empty
  toolCallIdToMessage : PyDict String Message := .empty

/-- The processed event is put into its dictionary, or shown. -/
def MemoryState.store (s : MemoryState) : Processed → MemoryState × List Message
  | .shown messages => (s, messages)
  | .requests responseId message =>
    ({ s with
        pendingToolCallActionMessages := s.pendingToolCallActionMessages.set responseId message },
      [])
  | .answers toolCallId message =>
    ({ s with toolCallIdToMessage := s.toolCallIdToMessage.set toolCallId message }, [])

/-- The results of the calls are taken out of the dictionary one by one. -/
def takeResults : List ToolCall → PyDict String Message →
    Except PyError (List Message × PyDict String Message)
  | [], results => .ok ([], results)
  | call :: calls, results =>
    match results.get? call.id with
    | none => .error .keyError
    | some message =>
      match takeResults calls (results.pop call.id) with
      | .error e => .error e
      | .ok (messages, results) => .ok (message :: messages, results)

/-- The check of the pending messages: those that are complete are emitted with the results
of their calls, and removed. -/
def completePending : List (String × Message) → MemoryState →
    Except PyError (List Message × MemoryState)
  | [], s => .ok ([], s)
  | (responseId, message) :: entries, s =>
    match message.toolCalls with
    | none => .error .assertionError
    | some calls =>
      if calls.all fun call => s.toolCallIdToMessage.contains call.id then
        match takeResults calls s.toolCallIdToMessage with
        | .error e => .error e
        | .ok (results, left) =>
          match completePending entries
              ⟨s.pendingToolCallActionMessages.pop responseId, left⟩ with
          | .error e => .error e
          | .ok (messages, s) => .ok (message :: results ++ messages, s)
      else completePending entries s

/-- One turn of the loop over the events. -/
def memoryStep (s : MemoryState) (processed : Processed) :
    Except PyError (List Message × MemoryState) :=
  let (s, shown) := s.store processed
  match completePending s.pendingToolCallActionMessages.entries s with
  | .error e => .error e
  | .ok (messages, s) => .ok (shown ++ messages, s)

/-- The loop over the events. -/
def processLoop (earlier : List Event) : List Event → MemoryState → Except PyError (List Message)
  | [], _ => .ok []
  | e :: events, s =>
    match processEvent texts config earlier e with
    | .error err => .error err
    | .ok processed =>
      match memoryStep s processed with
      | .error err => .error err
      | .ok (messages, s) =>
        match processLoop (earlier ++ [e]) events s with
        | .error err => .error err
        | .ok later => .ok (messages ++ later)

/-! ## The final passes -/

/-- The ids of the calls of a message of the assistant. -/
def Message.callIds (m : Message) : List String :=
  if m.role = .assistant then (m.toolCalls.getD []).map ToolCall.id else []

/-- The id that a tool message answers. -/
def Message.responseId (m : Message) : Option String :=
  if m.role = .tool then m.toolCallId else none

/-- `tool_call_ids` of the filter. -/
def toolCallIds (messages : List Message) : List String :=
  (messages.flatMap Message.callIds).filter (· ≠ "")

/-- `tool_response_ids` of the filter. -/
def toolResponseIds (messages : List Message) : List String :=
  (messages.filterMap Message.responseId).filter (· ≠ "")

/-- What the filter yields for one message. -/
def filterMessage (callIds responseIds : List String) (m : Message) : Option Message :=
  if m.role = .tool ∧ m.toolCallId.any (· ≠ "") then
    if m.toolCallId.any (· ∈ callIds) then some m else none
  else if m.role = .assistant ∧ m.toolCalls.any (· ≠ []) then
    let calls := m.toolCalls.getD []
    if calls.all fun call => call.id ∈ responseIds then some m
    else
      let matched := calls.filter fun call => call.id ∈ responseIds
      if matched ≠ [] then some { m with toolCalls := some matched } else none
  else some m

/-- `_filter_unmatched_tool_calls`. -/
def filterUnmatchedToolCalls (messages : List Message) : List Message :=
  messages.filterMap (filterMessage (toolCallIds messages) (toolResponseIds messages))

/-- Two newlines before the first text. -/
def separateText : List Content → List Content
  | [] => []
  | .text text :: contents => .text ("\n\n" ++ text) :: contents
  | .image urls :: contents => .image urls :: separateText contents

/-- `_apply_user_message_formatting`. -/
def applyUserMessageFormatting : Option Role → List Message → List Message
  | _, [] => []
  | prevRole, m :: messages =>
    (if m.role = .user ∧ prevRole = some .user then { m with content := separateText m.content }
      else m) :: applyUserMessageFormatting (some m.role) messages

/-- `_ensure_system_message`. -/
def ensureSystemMessage (events : List Event) : List Event :=
  if events.any Event.isSystemMessage then events
  else if config.systemPrompt = "" then events
  else .ofAction (.systemMessage config.systemPrompt) :: events

/-- `_ensure_initial_user_message`. -/
def ensureInitialUserMessage (initialUserAction : Event) : List Event → List Event
  | [] => []
  | [e] => [e, initialUserAction]
  | e :: second :: events =>
    if second.isUserMessage then e :: second :: events
    else e :: initialUserAction :: second :: events

/-- The events that the loop works on. -/
def ensuredEvents (condensedHistory : List Event) (initialUserAction : Event) : List Event :=
  ensureInitialUserMessage initialUserAction (ensureSystemMessage config condensedHistory)

/-- `process_events`. -/
def processEvents (condensedHistory : List Event) (initialUserAction : Event) :
    Except PyError (List Message) :=
  (processLoop texts config [] (ensuredEvents config condensedHistory initialUserAction) {}).map
    fun messages => applyUserMessageFormatting none (filterUnmatchedToolCalls messages)

end OpenHands
