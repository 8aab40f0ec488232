/-
# The classes of actions and observations

Every event on the wire belongs to one of the classes that are registered in
`serialization/action.py` and `serialization/observation.py`.  A class is a dataclass: an
ordered list of fields with their declared types and defaults, and a `message` computed
from the fields.
-/
import OpenHands.Event
import OpenHands.Lib.PyDict
import OpenHands.Lib.PyJson

namespace OpenHands

/-! ## The values of enumeration members -/

/-- `EventSource(...).value`. -/
def EventSource.value : EventSource → String
  | .agent => "agent"
  | .user => "user"
  | .environment => "environment"

/-- `ActionSecurityRisk(...).value`. -/
def ActionSecurityRisk.value : ActionSecurityRisk → ℤ
  | .unknown => -1
  | .low => 0
  | .medium => 1
  | .high => 2

/-- `ActionConfirmationStatus(...).value`. -/
def ActionConfirmationStatus.value : ActionConfirmationStatus → String
  | .confirmed => "confirmed"
  | .rejected => "rejected"
  | .awaitingConfirmation => "awaiting_confirmation"

/-- `RecallType(...).value`. -/
def RecallType.value : RecallType → String
  | .workspaceContext => "workspace_context"
  | .knowledge => "knowledge"

/-- `EventSource(value)`. -/
def EventSource.ofValue (value : String) : Option EventSource :=
  [EventSource.agent, .user, .environment].find? (·.value = value)

/-- `ActionSecurityRisk(value)`. -/
def ActionSecurityRisk.ofValue (value : ℤ) : Option ActionSecurityRisk :=
  [ActionSecurityRisk.unknown, .low, .medium, .high].find? (·.value = value)

/-- `RecallType(value)`. -/
def RecallType.ofValue (value : String) : Option RecallType :=
  [RecallType.workspaceContext, .knowledge].find? (·.value = value)

@[simp] theorem EventSource.ofValue_value (source : EventSource) :
    ofValue source.value = some source := by
  cases source <;> rfl

@[simp] theorem ActionSecurityRisk.ofValue_value (risk : ActionSecurityRisk) :
    ofValue risk.value = some risk := by
  cases risk <;> rfl

@[simp] theorem RecallType.ofValue_value (recallType : RecallType) :
    ofValue recallType.value = some recallType := by
  cases recallType <;> rfl

namespace Serialization

/-! ## Values of fields -/

/-- `CmdOutputMetadata`. -/
structure CmdOutputMetadata where
  exitCode : ℤ := -1
  pid : ℤ := -1
  username : Option String := none
  hostname : Option String := none
  workingDir : Option String := none
  pyInterpreterPath : Option String := none
  outputPrefix : String := ""
  outputSuffix : String := ""

/-- `MicroagentKnowledge`; a dataclass does not check the types of its fields. -/
structure MicroagentKnowledge where
  name : PyJson
  trigger : PyJson
  content : PyJson

/-- An item of `microagent_knowledge`. -/
inductive KnowledgeItem where
  | knowledge (item : MicroagentKnowledge)
  | other (item : PyJson)

/-- The value of a field: plain data, where a member of an enumeration stands as its value,
the metadata of a command, or a list of microagent knowledge. -/
inductive Value where
  | data (v : PyJson)
  | metadata (m : CmdOutputMetadata)
  | knowledge (items : List KnowledgeItem)

/-- The declared type of a field. -/
inductive FieldType where
  | any | str | bool | int
  | opt (type : FieldType)
  | list (item : FieldType)
  | dict (value : FieldType)
  | strEnum (values : List String)
  | securityRisk
  | metadata
  | knowledge

/-- The plain data of a type.  `security_risk` may be `None`: the encoder treats that case
and `FileEditAction` documents it. -/
def FieldType.admitsData : FieldType → PyJson → Bool
  | .any, _ => true
  | .str, .str _ => true
  | .bool, .bool _ => true
  | .int, .int _ => true
  | .opt _, .null => true
  | .opt type, v => type.admitsData v
  | .list item, .arr items => items.all item.admitsData
  | .dict value, .obj entries => entries.all fun entry => value.admitsData entry.2
  | .strEnum values, .str s => values.contains s
  | .securityRisk, .null => true
  | .securityRisk, .int i => (ActionSecurityRisk.ofValue i).isSome
  | _, _ => false

/-- An item of `microagent_knowledge` as it is declared. -/
def KnowledgeItem.isDeclared : KnowledgeItem → Bool
  | .knowledge ⟨.str _, .str _, .str _⟩ => true
  | _ => false

/-- The values of a type. -/
def FieldType.admits : FieldType → Value → Bool
  | .metadata, .metadata _ => true
  | .knowledge, .knowledge items => items.all KnowledgeItem.isDeclared
  | type, .data v => type.admitsData v
  | _, _ => false

/-! ## Fields -/

/-- A field of a dataclass. -/
structure Field where
  name : String
  type : FieldType
  default : Option Value

/-- A field without a default. -/
def Field.required (name : String) (type : FieldType) : Field := ⟨name, type, none⟩

/-- A field with plain data as its default. -/
def Field.optional (name : String) (type : FieldType) (default : PyJson) : Field :=
  ⟨name, type, some (.data default)⟩

/-- `thought: str = ''`. -/
def thoughtField : Field := .optional "thought" .str (.str "")

/-- `security_risk: ActionSecurityRisk = ActionSecurityRisk.UNKNOWN`. -/
def securityRiskField : Field :=
  .optional "security_risk" .securityRisk (.int ActionSecurityRisk.unknown.value)

/-- `confirmation_state: ActionConfirmationStatus = ActionConfirmationStatus.CONFIRMED`. -/
def confirmationStateField : Field :=
  .optional "confirmation_state"
    (.strEnum ([ActionConfirmationStatus.confirmed, .rejected, .awaitingConfirmation].map (·.value)))
    (.str ActionConfirmationStatus.confirmed.value)

/-- The values of `FileReadSource` and of `FileEditSource`. -/
def fileReadSources : List String := ["oh_aci", "default"]
def fileEditSources : List String := ["llm_based_edit", "oh_aci"]

/-- The values of `RecallType`. -/
def recallTypes : List String := [RecallType.workspaceContext, .knowledge].map (·.value)

/-! ## Actions -/

/-- The classes of `actions`, in the order in which they are registered. -/
inductive ActionClass where
  | null | cmdRun | ipythonRunCell | browseURL | browseInteractive | fileRead | fileWrite
  | fileEdit | agentThink | agentFinish | agentReject | agentDelegate | recall
  | changeAgentState | message | systemMessage | condensation | condensationRequest | mcp
  | taskTracking | loopRecovery
  deriving DecidableEq, Repr

/-- The `ActionType` of a class. -/
def ActionClass.kind : ActionClass → String
  | .null => "null"
  | .cmdRun => "run"
  | .ipythonRunCell => "run_ipython"
  | .browseURL => "browse"
  | .browseInteractive => "browse_interactive"
  | .fileRead => "read"
  | .fileWrite => "write"
  | .fileEdit => "edit"
  | .agentThink => "think"
  | .agentFinish => "finish"
  | .agentReject => "reject"
  | .agentDelegate => "delegate"
  | .recall => "recall"
  | .changeAgentState => "change_agent_state"
  | .message => "message"
  | .systemMessage => "system"
  | .condensation => "condensation"
  | .condensationRequest => "condensation_request"
  | .mcp => "call_tool_mcp"
  | .taskTracking => "task_tracking"
  | .loopRecovery => "loop_recovery"

/-- `actions`. -/
def actions : List ActionClass :=
  [.null, .cmdRun, .ipythonRunCell, .browseURL, .browseInteractive, .fileRead, .fileWrite,
    .fileEdit, .agentThink, .agentFinish, .agentReject, .agentDelegate, .recall,
    .changeAgentState, .message, .systemMessage, .condensation, .condensationRequest, .mcp,
    .taskTracking, .loopRecovery]

/-- `action: str = ActionType...`. -/
def ActionClass.actionField (cls : ActionClass) : Field :=
  .optional "action" .str (.str cls.kind)

/-- The fields of an action; `version` is what `get_version()` returns. -/
def ActionClass.fields (version : String) (cls : ActionClass) : List Field :=
  match cls with
  | .null => [cls.actionField]
  | .cmdRun =>
    [.required "command" .str, .optional "is_input" .bool (.bool false), thoughtField,
      .optional "blocking" .bool (.bool false), .optional "is_static" .bool (.bool false),
      .optional "cwd" (.opt .str) .null, .optional "hidden" .bool (.bool false),
      cls.actionField, confirmationStateField, securityRiskField]
  | .ipythonRunCell =>
    [.required "code" .str, thoughtField, .optional "include_extra" .bool (.bool true),
      cls.actionField, confirmationStateField, securityRiskField,
      .optional "kernel_init_code" .str (.str "")]
  | .browseURL =>
    [.required "url" .str, thoughtField, cls.actionField, securityRiskField,
      .optional "return_axtree" .bool (.bool false)]
  | .browseInteractive =>
    [.required "browser_actions" .str, thoughtField,
      .optional "browsergym_send_msg_to_user" .str (.str ""), cls.actionField,
      securityRiskField, .optional "return_axtree" .bool (.bool false)]
  | .fileRead =>
    [.required "path" .str, .optional "start" .int (.int 0), .optional "end" .int (.int (-1)),
      thoughtField, cls.actionField, securityRiskField,
      .optional "impl_source" (.strEnum fileReadSources) (.str "default"),
      .optional "view_range" (.opt (.list .int)) .null]
  | .fileWrite =>
    [.required "path" .str, .required "content" .str, .optional "start" .int (.int 0),
      .optional "end" .int (.int (-1)), thoughtField, cls.actionField, securityRiskField]
  | .fileEdit =>
    [.required "path" .str, .optional "command" .str (.str ""),
      .optional "file_text" (.opt .str) .null, .optional "old_str" (.opt .str) .null,
      .optional "new_str" (.opt .str) .null, .optional "insert_line" (.opt .int) .null,
      .optional "content" .str (.str ""), .optional "start" .int (.int 1),
      .optional "end" .int (.int (-1)), thoughtField, cls.actionField, securityRiskField,
      .optional "impl_source" (.strEnum fileEditSources) (.str "oh_aci")]
  | .agentThink => [thoughtField, cls.actionField]
  | .agentFinish =>
    [.optional "final_thought" .str (.str ""), .optional "outputs" (.dict .any) (.obj []),
      thoughtField, cls.actionField]
  | .agentReject =>
    [.optional "outputs" (.dict .any) (.obj []), thoughtField, cls.actionField]
  | .agentDelegate =>
    [.required "agent" .str, .required "inputs" (.dict .any), thoughtField, cls.actionField]
  | .recall =>
    [.required "recall_type" (.strEnum recallTypes), .optional "query" .str (.str ""),
      thoughtField, cls.actionField]
  | .changeAgentState => [.required "agent_state" .str, thoughtField, cls.actionField]
  | .message =>
    [.required "content" .str, .optional "file_urls" (.opt (.list .str)) .null,
      .optional "image_urls" (.opt (.list .str)) .null,
      .optional "wait_for_response" .bool (.bool false), cls.actionField, securityRiskField]
  | .systemMessage =>
    [.required "content" .str, .optional "tools" (.opt (.list .any)) .null,
      .optional "openhands_version" (.opt .str) (.str version),
      .optional "agent_class" (.opt .str) .null, cls.actionField]
  | .condensation =>
    [cls.actionField, .optional "forgotten_event_ids" (.opt (.list .int)) .null,
      .optional "forgotten_events_start_id" (.opt .int) .null,
      .optional "forgotten_events_end_id" (.opt .int) .null,
      .optional "summary" (.opt .str) .null, .optional "summary_offset" (.opt .int) .null]
  | .condensationRequest => [cls.actionField]
  | .mcp =>
    [.required "name" .str, .optional "arguments" (.dict .any) (.obj []), thoughtField,
      cls.actionField, securityRiskField]
  | .taskTracking =>
    [.optional "command" .str (.str "view"),
      .optional "task_list" (.list (.dict .any)) (.arr []), thoughtField, cls.actionField]
  | .loopRecovery => [.optional "option" .int (.int 1), cls.actionField]

/-! ## Observations -/

/-- The classes of `observations`, in the order in which they are registered. -/
inductive ObservationClass where
  | null | cmdOutput | ipythonRunCell | browserOutput | fileRead | fileWrite | fileEdit
  | agentDelegate | success | error | agentStateChanged | userReject | agentCondensation
  | agentThink | recall | mcp | fileDownload | taskTracking | loopDetection
  deriving DecidableEq, Repr

/-- The `ObservationType` of a class. -/
def ObservationClass.kind : ObservationClass → String
  | .null => "null"
  | .cmdOutput => "run"
  | .ipythonRunCell => "run_ipython"
  | .browserOutput => "browse"
  | .fileRead => "read"
  | .fileWrite => "write"
  | .fileEdit => "edit"
  | .agentDelegate => "delegate"
  | .success => "success"
  | .error => "error"
  | .agentStateChanged => "agent_state_changed"
  | .userReject => "user_rejected"
  | .agentCondensation => "condense"
  | .agentThink => "think"
  | .recall => "recall"
  | .mcp => "mcp"
  | .fileDownload => "download"
  | .taskTracking => "task_tracking"
  | .loopDetection => "loop_detection"

/-- `observations`. -/
def observations : List ObservationClass :=
  [.null, .cmdOutput, .ipythonRunCell, .browserOutput, .fileRead, .fileWrite, .fileEdit,
    .agentDelegate, .success, .error, .agentStateChanged, .userReject, .agentCondensation,
    .agentThink, .recall, .mcp, .fileDownload, .taskTracking, .loopDetection]

/-- `content: str`, the field that `Observation` declares. -/
def contentField : Field := .required "content" .str

/-- `observation: str = ObservationType...`. -/
def ObservationClass.observationField (cls : ObservationClass) : Field :=
  .optional "observation" .str (.str cls.kind)

/-- The fields of an observation. -/
def ObservationClass.fields (cls : ObservationClass) : List Field :=
  match cls with
  | .cmdOutput =>
    [contentField, .required "command" .str, cls.observationField,
      ⟨"metadata", .metadata, some (.metadata {})⟩, .optional "hidden" .bool (.bool false)]
  | .ipythonRunCell =>
    [contentField, .required "code" .str, cls.observationField,
      .optional "image_urls" (.opt (.list .str)) .null]
  | .browserOutput =>
    [contentField, .required "url" .str, .required "trigger_by_action" .str,
      .optional "screenshot" .str (.str ""), .optional "screenshot_path" (.opt .str) .null,
      .optional "set_of_marks" .str (.str ""), .optional "error" .bool (.bool false),
      cls.observationField, .optional "goal_image_urls" (.list .str) (.arr []),
      .optional "open_pages_urls" (.list .str) (.arr []),
      .optional "active_page_index" .int (.int (-1)),
      .optional "dom_object" (.dict .any) (.obj []),
      .optional "axtree_object" (.dict .any) (.obj []),
      .optional "extra_element_properties" (.dict .any) (.obj []),
      .optional "last_browser_action" .str (.str ""),
      .optional "last_browser_action_error" .str (.str ""),
      .optional "focused_element_bid" .str (.str ""),
      .optional "filter_visible_only" .bool (.bool false)]
  | .fileRead =>
    [contentField, .required "path" .str, cls.observationField,
      .optional "impl_source" (.strEnum fileReadSources) (.str "default")]
  | .fileWrite => [contentField, .required "path" .str, cls.observationField]
  | .fileEdit =>
    [contentField, .optional "path" .str (.str ""), .optional "prev_exist" .bool (.bool false),
      .optional "old_content" (.opt .str) .null, .optional "new_content" (.opt .str) .null,
      cls.observationField,
      .optional "impl_source" (.strEnum fileEditSources) (.str "llm_based_edit"),
      .optional "diff" (.opt .str) .null, .optional "_diff_cache" (.opt .str) .null]
  | .agentDelegate => [contentField, .required "outputs" (.dict .any), cls.observationField]
  | .error => [contentField, cls.observationField, .optional "error_id" .str (.str "")]
  | .agentStateChanged =>
    [contentField, .required "agent_state" .str, .optional "reason" .str (.str ""),
      cls.observationField]
  | .recall =>
    [contentField, .required "recall_type" (.strEnum recallTypes), cls.observationField,
      .optional "repo_name" .str (.str ""), .optional "repo_directory" .str (.str ""),
      .optional "repo_branch" .str (.str ""), .optional "repo_instructions" .str (.str ""),
      .optional "runtime_hosts" (.dict .int) (.obj []),
      .optional "additional_agent_instructions" .str (.str ""),
      .optional "date" .str (.str ""),
      .optional "custom_secrets_descriptions" (.dict .str) (.obj []),
      .optional "conversation_instructions" .str (.str ""),
      .optional "working_dir" .str (.str ""),
      ⟨"microagent_knowledge", .knowledge, some (.knowledge [])⟩]
  | .mcp =>
    [contentField, cls.observationField, .optional "name" .str (.str ""),
      .optional "arguments" (.dict .any) (.obj [])]
  | .fileDownload => [contentField, .required "file_path" .str, cls.observationField]
  | .taskTracking =>
    [contentField, cls.observationField, .optional "command" .str (.str ""),
      .optional "task_list" (.list (.dict .any)) (.arr [])]
  | .null | .success | .userReject | .agentCondensation | .agentThink | .loopDetection =>
    [contentField, cls.observationField]

/-! ## Events -/

/-- A registered class. -/
inductive EventClass where
  | action (cls : ActionClass)
  | observation (cls : ObservationClass)
  deriving DecidableEq, Repr

/-- The field that tells the class of an event on the wire. -/
def EventClass.kindKey : EventClass → String
  | .action _ => "action"
  | .observation _ => "observation"

/-- The value of that field for an event of the class. -/
def EventClass.kind : EventClass → String
  | .action cls => cls.kind
  | .observation cls => cls.kind

/-- The fields of a class. -/
def EventClass.fields (version : String) : EventClass → List Field
  | .action cls => cls.fields version
  | .observation cls => cls.fields

/-- `__dataclass_fields__`. -/
def EventClass.fieldNames (cls : EventClass) : List String := (cls.fields "").map (·.name)

/-- The names of the fields do not depend on the version. -/
theorem EventClass.map_name_fields (version : String) (cls : EventClass) :
    (cls.fields version).map (·.name) = cls.fieldNames := by
  rcases cls with cls | cls <;> cases cls <;> rfl

/-- A class declares every field once. -/
theorem EventClass.nodup_fieldNames (cls : EventClass) : cls.fieldNames.Nodup := by
  rcases cls with cls | cls <;> cases cls <;>
    simp [EventClass.fieldNames, EventClass.fields, ActionClass.fields, ObservationClass.fields,
      Field.required, Field.optional, thoughtField, contentField, securityRiskField,
      confirmationStateField, ActionClass.actionField, ObservationClass.observationField]

/-! ## Reading fields -/

/-- A string field. -/
def readStr (attrs : PyDict String Value) (name : String) : String :=
  match attrs.get? name with
  | some (.data (.str s)) => s
  | _ => ""

/-- The integer that a value is. -/
def intOf : PyJson → ℤ
  | .int i => i
  | _ => 0

/-- A field that holds an integer or `None`. -/
def readOptInt (attrs : PyDict String Value) (name : String) : Option ℤ :=
  match attrs.get? name with
  | some (.data (.int i)) => some i
  | _ => none

/-- The validation of the fields of a `CondensationAction`. -/
def condensationAction (attrs : PyDict String Value) : Except PyError CondensationAction :=
  let forgottenEventIds := match attrs.get? "forgotten_event_ids" with
    | some (.data (.arr items)) => some (items.map intOf)
    | _ => none
  let summary := match attrs.get? "summary" with
    | some (.data (.str s)) => some s
    | _ => none
  CondensationAction.create forgottenEventIds (readOptInt attrs "forgotten_events_start_id")
    (readOptInt attrs "forgotten_events_end_id") summary (readOptInt attrs "summary_offset")

/-- The text of a list of integers. -/
def strInts (ids : List ℤ) : String := "[" ++ ", ".intercalate (ids.map toString) ++ "]"

/-! ## Messages -/

/-- The property `message` of an action; `strDict` is `str()` of a dictionary. -/
def ActionClass.messageOf (strDict : List (String × PyJson) → String) (cls : ActionClass)
    (attrs : PyDict String Value) : Except PyError String :=
  match cls with
  | .null => .ok "No action"
  | .cmdRun => .ok ("Running command: " ++ readStr attrs "command")
  | .ipythonRunCell => .ok ("Running Python code interactively: " ++ readStr attrs "code")
  | .browseURL => .ok ("I am browsing the URL: " ++ readStr attrs "url")
  | .browseInteractive =>
    .ok ("I am interacting with the browser:\n```\n" ++ readStr attrs "browser_actions" ++ "\n```")
  | .fileRead => .ok ("Reading file: " ++ readStr attrs "path")
  | .fileWrite => .ok ("Writing file: " ++ readStr attrs "path")
  | .agentThink => .ok ("I am thinking...: " ++ readStr attrs "thought")
  | .agentFinish =>
    if readStr attrs "thought" ≠ "" then .ok (readStr attrs "thought")
    else .ok "All done! What's next on the agenda?"
  | .agentReject =>
    let msg := "Task is rejected by the agent."
    match attrs.get? "outputs" with
    | some (.data (.obj outputs)) =>
      match (PyDict.ofEntries outputs).get? "reason" with
      | none => .ok msg
      | some (.str reason) => .ok (msg ++ (" Reason: " ++ reason))
      -- a string and anything else cannot be concatenated
      | some _ => .error .typeError
    | _ => .ok msg
  | .agentDelegate => .ok ("I'm asking " ++ readStr attrs "agent" ++ " for help with this task.")
  | .recall =>
    .ok ("Retrieving content for: " ++ String.ofList ((readStr attrs "query").toList.take 50))
  | .changeAgentState => .ok ("Agent state changed to " ++ readStr attrs "agent_state")
  | .message | .systemMessage => .ok (readStr attrs "content")
  | .condensation =>
    if readStr attrs "summary" ≠ "" then .ok ("Summary: " ++ readStr attrs "summary")
    else (condensationAction attrs).map fun condensation =>
      "Condenser is dropping the events: " ++ strInts condensation.forgotten ++ "."
  | .condensationRequest => .ok "Requesting a condensation of the conversation history."
  | .mcp =>
    let arguments := match attrs.get? "arguments" with
      | some (.data (.obj entries)) => entries
      | _ => []
    .ok ("I am interacting with the MCP server with name:\n```\n" ++ readStr attrs "name"
      ++ "\n```\nand arguments:\n```\n" ++ strDict arguments ++ "\n```")
  | .taskTracking =>
    let numTasks := match attrs.get? "task_list" with
      | some (.data (.arr tasks)) => tasks.length
      | _ => 0
    if numTasks = 0 then .ok "Clearing the task list."
    else if numTasks = 1 then .ok "Managing 1 task item."
    else .ok (s!"Managing {numTasks} task items.")
  -- the property of `Event`, without a `_message`
  | .fileEdit | .loopRecovery => .ok ""

/-- `CmdOutputObservation.exit_code`. -/
def exitCode (attrs : PyDict String Value) : ℤ :=
  match attrs.get? "metadata" with
  | some (.metadata metadata) => metadata.exitCode
  | _ => -1

/-- The property `message` of an observation. -/
def ObservationClass.messageOf (cls : ObservationClass) (attrs : PyDict String Value) : String :=
  match cls with
  | .null => "No observation"
  | .cmdOutput =>
    "Command `" ++ readStr attrs "command" ++ "` executed with exit code "
      ++ toString (exitCode attrs) ++ "."
  | .ipythonRunCell => "Code executed in IPython cell."
  | .browserOutput => "Visited " ++ readStr attrs "url"
  | .fileRead => "I read the file " ++ readStr attrs "path" ++ "."
  | .fileWrite => "I wrote to the file " ++ readStr attrs "path" ++ "."
  | .fileEdit => "I edited the file " ++ readStr attrs "path" ++ "."
  | .success | .error | .userReject | .agentCondensation | .agentThink | .mcp | .taskTracking =>
    readStr attrs "content"
  | .recall =>
    if readStr attrs "recall_type" = RecallType.workspaceContext.value then
      "Added workspace context"
    else "Added microagent knowledge"
  | .fileDownload => "Downloaded the file at location: " ++ readStr attrs "file_path"
  | .agentDelegate | .agentStateChanged | .loopDetection => ""

/-- The property `message`. -/
def EventClass.messageOf (strDict : List (String × PyJson) → String) (cls : EventClass)
    (attrs : PyDict String Value) : Except PyError String :=
  match cls with
  | .action cls => cls.messageOf strDict attrs
  | .observation cls => .ok (cls.messageOf attrs)

end Serialization

end OpenHands
