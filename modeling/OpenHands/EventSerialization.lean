/-
# Events as dictionaries

`events/serialization`: `event_to_dict` puts the attributes that every event has at the top
level of a dictionary and the fields of its class under `args` (actions) or `extras`
(observations), and `event_from_dict` reads the dictionary back through the constructor of
the class that it names.

The libraries that the two functions call are given as `Externals`.
-/
import OpenHands.EventClasses
import OpenHands.Lib.PySeq

namespace OpenHands.Serialization

/-! ## What is not code of the repository -/

/-- Pydantic's validation of the primitive types, `ModelResponse` with its dump and its
validation, `str()` of a dictionary, `ast.literal_eval` (of a dictionary; `none` where it
raises), `get_version()` and the clock. -/
structure Externals (R : Type) where
  validateInt : PyJson → Except PyError ℤ
  validateStr : PyJson → Except PyError String
  validateFloat : PyJson → Except PyError ℚ
  dumpResponse : R → PyJson
  validateResponse : PyJson → Except PyError R
  strDict : List (String × PyJson) → String
  literalEval : String → Option (List (String × PyJson))
  version : String
  now : ℚ

variable {R : Type}

/-- Validation returns what already has the right type, and a dumped response validates to
the response. -/
structure Externals.Lawful (libs : Externals R) : Prop where
  int : ∀ i, libs.validateInt (.int i) = .ok i
  str : ∀ s, libs.validateStr (.str s) = .ok s
  float : ∀ x, libs.validateFloat (.float x) = .ok x
  response : ∀ r, libs.validateResponse (libs.dumpResponse r) = .ok r

variable (libs : Externals R)

/-- A field of a model: validated when it is given, otherwise its default. -/
def modelField {α : Type} (d : PyDict String PyJson) (name : String)
    (validate : PyJson → Except PyError α) (default : Except PyError α) : Except PyError α :=
  match d.get? name with
  | some v => validate v
  | none => default

/-- A field that must be given. -/
def requiredField {α : Type} : Except PyError α := .error (.valueError "Field required")

/-- `str | None`. -/
def Externals.validateOptStr (v : PyJson) : Except PyError (Option String) :=
  match v with
  | .null => .ok none
  | v => (libs.validateStr v).map some

/-! ## Models -/

/-- `CmdOutputMetadata.model_dump()`. -/
def CmdOutputMetadata.modelDump (m : CmdOutputMetadata) : PyDict String PyJson :=
  .ofEntries [("exit_code", .int m.exitCode), ("pid", .int m.pid),
    ("username", .ofOption .str m.username), ("hostname", .ofOption .str m.hostname),
    ("working_dir", .ofOption .str m.workingDir),
    ("py_interpreter_path", .ofOption .str m.pyInterpreterPath),
    ("prefix", .str m.outputPrefix), ("suffix", .str m.outputSuffix)]

/-- `CmdOutputMetadata(**d)`. -/
def CmdOutputMetadata.ofDict (d : PyDict String PyJson) : Except PyError CmdOutputMetadata := do
  let exitCode ← modelField d "exit_code" libs.validateInt (.ok (-1))
  let pid ← modelField d "pid" libs.validateInt (.ok (-1))
  let username ← modelField d "username" libs.validateOptStr (.ok none)
  let hostname ← modelField d "hostname" libs.validateOptStr (.ok none)
  let workingDir ← modelField d "working_dir" libs.validateOptStr (.ok none)
  let pyInterpreterPath ← modelField d "py_interpreter_path" libs.validateOptStr (.ok none)
  let outputPrefix ← modelField d "prefix" libs.validateStr (.ok "")
  let outputSuffix ← modelField d "suffix" libs.validateStr (.ok "")
  return { exitCode, pid, username, hostname, workingDir, pyInterpreterPath, outputPrefix,
           outputSuffix }

/-- `ToolCallMetadata`. -/
structure ToolCallMetadata (R : Type) where
  functionName : String
  toolCallId : String
  modelResponse : R
  totalCallsInResponse : ℤ

/-- `ToolCallMetadata.model_dump()`. -/
def ToolCallMetadata.modelDump (m : ToolCallMetadata R) : PyDict String PyJson :=
  .ofEntries [("function_name", .str m.functionName), ("tool_call_id", .str m.toolCallId),
    ("model_response", libs.dumpResponse m.modelResponse),
    ("total_calls_in_response", .int m.totalCallsInResponse)]

/-- `ToolCallMetadata(**d)`. -/
def ToolCallMetadata.ofDict (d : PyDict String PyJson) :
    Except PyError (ToolCallMetadata R) := do
  let functionName ← modelField d "function_name" libs.validateStr requiredField
  let toolCallId ← modelField d "tool_call_id" libs.validateStr requiredField
  let modelResponse ← modelField d "model_response" libs.validateResponse requiredField
  let totalCallsInResponse ←
    modelField d "total_calls_in_response" libs.validateInt requiredField
  return { functionName, toolCallId, modelResponse, totalCallsInResponse }

/-- `Cost`. -/
structure Cost where
  model : String
  cost : ℚ
  timestamp : ℚ

def Cost.modelDump (c : Cost) : PyDict String PyJson :=
  .ofEntries [("model", .str c.model), ("cost", .float c.cost), ("timestamp", .float c.timestamp)]

def Cost.ofDict (d : PyDict String PyJson) : Except PyError Cost := do
  let model ← modelField d "model" libs.validateStr requiredField
  let cost ← modelField d "cost" libs.validateFloat requiredField
  let timestamp ← modelField d "timestamp" libs.validateFloat (.ok libs.now)
  return { model, cost, timestamp }

/-- `ResponseLatency`. -/
structure ResponseLatency where
  model : String
  latency : ℚ
  responseId : String

def ResponseLatency.modelDump (l : ResponseLatency) : PyDict String PyJson :=
  .ofEntries [("model", .str l.model), ("latency", .float l.latency),
    ("response_id", .str l.responseId)]

def ResponseLatency.ofDict (d : PyDict String PyJson) : Except PyError ResponseLatency := do
  let model ← modelField d "model" libs.validateStr requiredField
  let latency ← modelField d "latency" libs.validateFloat requiredField
  let responseId ← modelField d "response_id" libs.validateStr requiredField
  return { model, latency, responseId }

/-- `TokenUsage`. -/
structure TokenUsage where
  model : String := ""
  promptTokens : ℤ := 0
  completionTokens : ℤ := 0
  cacheReadTokens : ℤ := 0
  cacheWriteTokens : ℤ := 0
  contextWindow : ℤ := 0
  perTurnToken : ℤ := 0
  responseId : String := ""

def TokenUsage.modelDump (u : TokenUsage) : PyDict String PyJson :=
  .ofEntries [("model", .str u.model), ("prompt_tokens", .int u.promptTokens),
    ("completion_tokens", .int u.completionTokens),
    ("cache_read_tokens", .int u.cacheReadTokens),
    ("cache_write_tokens", .int u.cacheWriteTokens), ("context_window", .int u.contextWindow),
    ("per_turn_token", .int u.perTurnToken), ("response_id", .str u.responseId)]

def TokenUsage.ofDict (d : PyDict String PyJson) : Except PyError TokenUsage := do
  let model ← modelField d "model" libs.validateStr (.ok "")
  let promptTokens ← modelField d "prompt_tokens" libs.validateInt (.ok 0)
  let completionTokens ← modelField d "completion_tokens" libs.validateInt (.ok 0)
  let cacheReadTokens ← modelField d "cache_read_tokens" libs.validateInt (.ok 0)
  let cacheWriteTokens ← modelField d "cache_write_tokens" libs.validateInt (.ok 0)
  let contextWindow ← modelField d "context_window" libs.validateInt (.ok 0)
  let perTurnToken ← modelField d "per_turn_token" libs.validateInt (.ok 0)
  let responseId ← modelField d "response_id" libs.validateStr (.ok "")
  return { model, promptTokens, completionTokens, cacheReadTokens, cacheWriteTokens,
           contextWindow, perTurnToken, responseId }

/-! ## Metrics -/

/-- `Metrics`. -/
structure Metrics where
  accumulatedCost : ℚ := 0
  maxBudgetPerTask : Option ℚ := none
  costs : List Cost := []
  responseLatencies : List ResponseLatency := []
  modelName : String := "default"
  tokenUsages : List TokenUsage := []
  accumulatedTokenUsage : TokenUsage := { model := "default" }

/-- The list of the dumps of models. -/
def dumpAll {α : Type} (dump : α → PyDict String PyJson) (items : List α) : PyJson :=
  .arr (items.map fun item => .obj (dump item).entries)

/-- `Metrics.get`. -/
def Metrics.get (m : Metrics) : PyDict String PyJson :=
  .ofEntries [("accumulated_cost", .float m.accumulatedCost),
    ("max_budget_per_task", .ofOption .float m.maxBudgetPerTask),
    ("accumulated_token_usage", .obj m.accumulatedTokenUsage.modelDump.entries),
    ("costs", dumpAll Cost.modelDump m.costs),
    ("response_latencies", dumpAll ResponseLatency.modelDump m.responseLatencies),
    ("token_usages", dumpAll TokenUsage.modelDump m.tokenUsages)]

/-- A number. -/
def numberOf : PyJson → Except PyError ℚ
  | .float x => .ok x
  | .int i => .ok i
  | _ => .error .typeError

/-- A number or `None`. -/
def optNumberOf : PyJson → Except PyError (Option ℚ)
  | .null => .ok none
  | v => (numberOf v).map some

/-- `Model(**v)`. -/
def ofJson {α : Type} (ofDict : PyDict String PyJson → Except PyError α) :
    PyJson → Except PyError α
  | .obj entries => ofDict (.ofEntries entries)
  | _ => .error .typeError

/-- `[Model(**item) for item in v]`. -/
def ofJsonList {α : Type} (ofDict : PyDict String PyJson → Except PyError α) :
    PyJson → Except PyError (List α)
  | .arr items => items.mapM (ofJson ofDict)
  | _ => .error .typeError

/-- The metrics that `event_from_dict` reads from a dictionary. -/
def Metrics.ofDict (value : PyDict String PyJson) : Except PyError Metrics := do
  let accumulatedCost ← modelField value "accumulated_cost" numberOf (.ok 0)
  -- the setter of `accumulated_cost`
  if accumulatedCost < 0 then .error (.valueError "Total cost cannot be negative.")
  else do
    let maxBudgetPerTask ← modelField value "max_budget_per_task" optNumberOf (.ok none)
    let costs ← modelField value "costs" (ofJsonList (Cost.ofDict libs)) (.ok [])
    let responseLatencies ← modelField value "response_latencies"
      (ofJsonList (ResponseLatency.ofDict libs)) (.ok [])
    let tokenUsages ←
      modelField value "token_usages" (ofJsonList (TokenUsage.ofDict libs)) (.ok [])
    let accumulatedTokenUsage ← modelField value "accumulated_token_usage"
      (ofJson (TokenUsage.ofDict libs)) (.ok { model := "default" })
    return { accumulatedCost, maxBudgetPerTask, costs, responseLatencies, tokenUsages,
             accumulatedTokenUsage }

/-- The metrics of an event: a fresh `Metrics()` when the value is no dictionary. -/
def Metrics.ofValue : PyJson → Except PyError Metrics
  | .obj entries => Metrics.ofDict libs (.ofEntries entries)
  | _ => .ok {}

/-! ## Constructors -/

/-- `MAX_CMD_OUTPUT_SIZE`. -/
def maxCmdOutputSize : ℕ := 30000

/-- `_maybe_truncate`. -/
def maybeTruncate (content : String) (maxSize : ℕ) : String :=
  if content.length ≤ maxSize then content
  else
    let half : ℤ := (maxSize / 2 : ℕ)
    String.ofList (PySeq.slice content.toList none (some half))
      ++ "\n[... Observation truncated due to length ...]\n"
      ++ String.ofList (PySeq.slice content.toList (some (-half)) none)

/-- The argument for a field: what is given, or the default. -/
def fieldArgument (kwargs : PyDict String Value) (field : Field) :
    Except PyError (String × Value) :=
  match (kwargs.get? field.name).or field.default with
  | some v => .ok (field.name, v)
  | none => .error .typeError

/-- The attributes that the constructor of a dataclass sets. -/
def bindFields (fields : List Field) (kwargs : PyDict String Value) :
    Except PyError (PyDict String Value) :=
  (fields.mapM (fieldArgument kwargs)).map PyDict.ofEntries

/-- The `metadata` argument of `CmdOutputObservation`. -/
def metadataArgument (kwargs : PyDict String Value) : Except PyError Value :=
  match kwargs.get? "metadata" with
  | some (.data (.obj entries)) => (CmdOutputMetadata.ofDict libs (.ofEntries entries)).map .metadata
  | some (.data .null) | none => .ok (.metadata {})
  | some v => .ok v

/-- `self.metadata.exit_code = kwargs['exit_code']`, `self.metadata.pid = kwargs['command_id']`. -/
def withLegacyAttribute (kwargs : PyDict String Value) (metadata : Value) : Value :=
  match metadata with
  | .metadata m =>
    let m := match kwargs.get? "exit_code" with
      | some (.data (.int exitCode)) => { m with exitCode }
      | _ => m
    match kwargs.get? "command_id" with
    | some (.data (.int pid)) => .metadata { m with pid }
    | _ => .metadata m
  | v => v

/-- The content of a command output, truncated unless the command is hidden. -/
def truncateOutput (attrs : PyDict String Value) : PyDict String Value :=
  match attrs.get? "hidden", attrs.get? "content" with
  | some (.data (.bool true)), _ => attrs
  | _, some (.data (.str content)) =>
    attrs.set "content" (.data (.str (maybeTruncate content maxCmdOutputSize)))
  | _, _ => attrs

/-- `CmdOutputObservation.__init__`: any further argument is accepted. -/
def cmdOutputInit (kwargs : PyDict String Value) : Except PyError (PyDict String Value) := do
  let attrs ← bindFields ObservationClass.cmdOutput.fields kwargs
  let metadata ← metadataArgument libs kwargs
  return (truncateOutput attrs).set "metadata" (withLegacyAttribute kwargs metadata)

/-- `__post_init__`. -/
def EventClass.postInit (cls : EventClass) (attrs : PyDict String Value) :
    Except PyError (PyDict String Value) :=
  match cls with
  | .action .condensation => (condensationAction attrs).map fun _ => attrs
  | _ => .ok attrs

/-- `cls(**kwargs)`: the attributes of the new object. -/
def EventClass.create (cls : EventClass) (kwargs : PyDict String Value) :
    Except PyError (PyDict String Value) :=
  if cls = .observation .cmdOutput then cmdOutputInit libs kwargs
  else if kwargs.keys.all fun name => name ∈ cls.fieldNames then
    bindFields (cls.fields libs.version) kwargs >>= cls.postInit
  else .error .typeError

/-! ## Events -/

/-- An event: the object of a class and the attributes of `Event`.  The id is `-1` while
`_id` is not set. -/
structure EventObject (R : Type) where
  cls : EventClass
  attrs : PyDict String Value
  id : ℤ := invalidId
  timestamp : Option String := none
  source : Option EventSource := none
  cause : Option ℤ := none
  timeout : Option ℚ := none
  toolCallMetadata : Option (ToolCallMetadata R) := none
  llmMetrics : Option Metrics := none

/-! ## `event_to_dict` -/

/-- `TOP_KEYS`. -/
def topKeys : List String :=
  ["id", "timestamp", "source", "message", "cause", "action", "observation",
    "tool_call_metadata", "llm_metrics"]

/-- An item of `microagent_knowledge` as `asdict` leaves it. -/
def KnowledgeItem.toJson : KnowledgeItem → PyJson
  | .knowledge item =>
    .obj [("name", item.name), ("trigger", item.trigger), ("content", item.content)]
  | .other item => item

/-- A field as it is written: `asdict` turns dataclasses into dictionaries, and
`_convert_pydantic_to_dict` models. -/
def Value.toJson : Value → PyJson
  | .data v => v
  | .metadata m => .obj m.modelDump.entries
  | .knowledge items => .arr (items.map KnowledgeItem.toJson)

/-- What the loop over `TOP_KEYS` puts under a key. -/
def EventObject.topValue (e : EventObject R) (message : String) (key : String) : Option PyJson :=
  match key with
  | "id" => if e.id = -1 then none else some (.int e.id)
  | "timestamp" => e.timestamp.map .str
  | "source" => e.source.map fun source => .str source.value
  | "message" => some (.str message)
  | "cause" => e.cause.map .int
  | "tool_call_metadata" => e.toolCallMetadata.map fun m => .obj (m.modelDump libs).entries
  | "llm_metrics" => e.llmMetrics.map fun m => .obj m.get.entries
  | key => (e.attrs.get? key).map Value.toJson

/-- The attribute `success`, where a class has it. -/
def EventObject.success (e : EventObject R) : Option Bool :=
  match e.cls with
  | .observation .cmdOutput => some (exitCode e.attrs = 0)
  | .observation .ipythonRunCell => some true
  | _ => none

/-- The entries at the top level. -/
def EventObject.topDict (e : EventObject R) (message : String) : PyDict String PyJson :=
  topKeys.foldl (fun d key => d.setOption key (e.topValue libs message key)) .empty

/-- The remaining fields: `None` under `security_risk` and `task_completed` is left out. -/
def EventObject.props (e : EventObject R) : PyDict String PyJson :=
  let props := topKeys.foldl PyDict.pop (e.attrs.mapValues Value.toJson)
  let props := match props.get? "security_risk" with
    | some .null => props.pop "security_risk"
    | _ => props
  match props.get? "task_completed" with
  | some .null => props.pop "task_completed"
  | _ => props

/-- `event_to_dict`. -/
def eventToDict (e : EventObject R) : Except PyError (PyDict String PyJson) :=
  match e.cls.messageOf libs.strDict e.attrs with
  | .error err => .error err
  | .ok message =>
    let d := e.topDict libs message
    let props := e.props
    if d.contains "action" then
      .ok ((d.set "args" (.obj props.entries)).setOption "timeout" (e.timeout.map .float))
    else if d.contains "observation" then
      let d := d.set "content" ((props.get? "content").getD (.str ""))
      let d := d.set "extras" (.obj (props.pop "content").entries)
      .ok (d.setOption "success" (e.success.map .bool))
    else .error (.valueError "Event must be either action or observation.")

/-! ## `action_from_dict` -/

/-- `handle_action_deprecated_args`. -/
def handleActionDeprecatedArgs (args : PyDict String PyJson) :
    Except PyError (PyDict String PyJson) :=
  let args := (args.pop "keep_prompt").pop "task_completed"
  match args.get? "translated_ipython_code" with
  | none => .ok args
  | some code =>
    let args := args.pop "translated_ipython_code"
    let fileEditorPrefix := "print(file_editor(**"
    match code with
    | .null | .str _ =>
      let args := match code with
        | .str code =>
          if code.startsWith fileEditorPrefix && code.endsWith "))" then
            match libs.literalEval (String.ofList
                (PySeq.slice code.toList (some fileEditorPrefix.length) (some (-2)))) with
            | some fileArgs =>
              fileArgs.foldl
                (fun (args : PyDict String PyJson) (entry : String × PyJson) =>
                  args.set entry.1 entry.2) args
            | none => args
          else args
        | _ => args
      match args.get? "command" with
      | some (.str "view") => .ok (args.pop "command")
      | _ => .ok args
    -- only strings have the method `startswith`
    | _ => .error .attributeError

/-- `ACTION_TYPE_TO_CLASS.get(kind)`. -/
def actionTypeToClass (kind : String) : Option ActionClass := actions.find? (·.kind = kind)

/-- The arguments with `is_confirmed` and `images_urls` under their new names. -/
def renameArgs (args : PyDict String PyJson) : PyDict String PyJson :=
  let args := match args.get? "is_confirmed" with
    | some .null => args.pop "is_confirmed"
    | some isConfirmed => (args.pop "is_confirmed").set "confirmation_state" isConfirmed
    | none => args
  match args.get? "images_urls" with
  | some imagesUrls => (args.pop "images_urls").set "image_urls" imagesUrls
  | none => args

/-- `ActionSecurityRisk(v)`: a member is found by any number equal to its value. -/
def securityRisk (v : PyJson) : Option ActionSecurityRisk :=
  match v with
  | .int i => ActionSecurityRisk.ofValue i
  | .bool b => ActionSecurityRisk.ofValue (if b then 1 else 0)
  | .float x => if x.den = 1 then ActionSecurityRisk.ofValue x.num else none
  | _ => none

/-- The arguments with `security_risk` converted to a member, or removed. -/
def convertSecurityRisk (args : PyDict String PyJson) : PyDict String PyJson :=
  match args.get? "security_risk" with
  | some .null | none => args
  | some v =>
    match securityRisk v with
    | some risk => args.set "security_risk" (.int risk.value)
    | none => args.pop "security_risk"

/-- `hasattr(self, 'blocking')`, and then `self.blocking = blocking`. -/
def setBlocking (attrs : PyDict String Value) (blocking : Value) : PyDict String Value :=
  if attrs.contains "blocking" then attrs.set "blocking" blocking else attrs

/-- A `TypeError` from within `action_from_dict`. -/
def wrongArguments {α : Type} : Except PyError α → Except PyError α
  | .error .typeError => .error .llmMalformedActionError
  | r => r

/-- `action_from_dict`. -/
def actionFromDict (action : PyDict String PyJson) : Except PyError (EventObject R) :=
  match action.get? "action" with
  | some (.str kind) =>
    match actionTypeToClass kind with
    | none => .error .llmMalformedActionError
    | some cls =>
      match (action.get? "args").getD (.obj []) with
      | .obj entries => do
        let args := PyDict.ofEntries entries
        let timestamp := args.get? "timestamp"
        let args := args.pop "timestamp"
        let args ← handleActionDeprecatedArgs libs (convertSecurityRisk (renameArgs args))
        let attrs ← wrongArguments ((EventClass.action cls).create libs (args.mapValues .data))
        let attrs := if action.contains "timeout" then
            setBlocking attrs (.data ((args.get? "blocking").getD (.bool false)))
          else attrs
        let timeout ← modelField action "timeout" optNumberOf (.ok none)
        return { cls := .action cls
                 attrs := attrs
                 timeout := timeout
                 timestamp := match timestamp with
                   | some (.str timestamp) => if timestamp = "" then none else some timestamp
                   | _ => none }
      | _ => .error .attributeError
  | _ => .error .llmMalformedActionError

/-! ## `observation_from_dict` -/

/-- `_update_cmd_output_metadata`, for an integer attribute. -/
def updateCmdOutputMetadata (metadata : Option Value) (key : String) (value : PyJson) :
    Except PyError Value :=
  match metadata with
  | none | some (.data .null) =>
    (CmdOutputMetadata.ofDict libs (.ofEntries [(key, value)])).map .metadata
  | some (.data (.obj entries)) =>
    .ok (.data (.obj ((PyDict.ofEntries entries).set key value).entries))
  | some (.metadata m) =>
    match key, value with
    | "exit_code", .int exitCode => .ok (.metadata { m with exitCode })
    | "pid", .int pid => .ok (.metadata { m with pid })
    | _, _ => .ok (.metadata m)
  | some v => .ok v

/-- One renamed extra: `extras[key]` goes into the metadata under `name`. -/
def moveToMetadata (extras : PyDict String Value) (key name : String) :
    Except PyError (PyDict String Value) :=
  match extras.get? key with
  | some value => do
    let metadata ← updateCmdOutputMetadata libs (extras.get? "metadata") name value.toJson
    return (extras.pop key).set "metadata" metadata
  | none => .ok extras

/-- `handle_observation_deprecated_extras`. -/
def handleObservationDeprecatedExtras (extras : PyDict String Value) :
    Except PyError (PyDict String Value) := do
  let extras ← moveToMetadata libs extras "exit_code" "exit_code"
  let extras ← moveToMetadata libs extras "command_id" "pid"
  return extras.pop "formatted_output_and_error"

/-- `OBSERVATION_TYPE_TO_CLASS.get(kind)`. -/
def observationTypeToClass (kind : String) : Option ObservationClass :=
  observations.find? (·.kind = kind)

/-- The metadata of a `CmdOutputObservation` as a model. -/
def convertMetadata (extras : PyDict String Value) : Except PyError (PyDict String Value) :=
  match extras.get? "metadata" with
  | some (.data (.obj entries)) => do
    let m ← CmdOutputMetadata.ofDict libs (.ofEntries entries)
    return extras.set "metadata" (.metadata m)
  | some (.metadata _) => .ok extras
  | _ => .ok (extras.set "metadata" (.metadata {}))

/-- `MicroagentKnowledge(**item) if isinstance(item, dict) else item`. -/
def knowledgeItem (item : PyJson) : Except PyError KnowledgeItem :=
  match item with
  | .obj entries =>
    let item := PyDict.ofEntries entries
    if item.keys.all fun name => name ∈ ["name", "trigger", "content"] then
      match item.get? "name", item.get? "trigger", item.get? "content" with
      | some name, some trigger, some content => .ok (.knowledge ⟨name, trigger, content⟩)
      | _, _, _ => .error .typeError
    else .error .typeError
  | item => .ok (.other item)

/-- The recall type and the microagent knowledge of a `RecallObservation`. -/
def convertRecall (extras : PyDict String Value) : Except PyError (PyDict String Value) := do
  let extras ← match extras.get? "recall_type" with
    | some (.data (.str value)) =>
      match RecallType.ofValue value with
      | some recallType => .ok (extras.set "recall_type" (.data (.str recallType.value)))
      | none => .error (.valueError "not a valid RecallType")
    | some _ => .error (.valueError "not a valid RecallType")
    | none => .ok extras
  match extras.get? "microagent_knowledge" with
  | some (.data (.arr items)) => do
    let items ← items.mapM knowledgeItem
    return extras.set "microagent_knowledge" (.knowledge items)
  | _ => return extras

/-- The conversions of the extras that depend on the class. -/
def convertExtras (cls : ObservationClass) (extras : PyDict String Value) :
    Except PyError (PyDict String Value) :=
  match cls with
  | .cmdOutput => convertMetadata libs extras
  | .recall => convertRecall extras
  | _ => .ok extras

/-- `observation_from_dict`. -/
def observationFromDict (observation : PyDict String PyJson) :
    Except PyError (EventObject R) :=
  match observation.get? "observation" with
  | some (.str kind) =>
    match observationTypeToClass kind with
    | none => .error .keyError
    | some cls =>
      let content := (observation.get? "content").getD (.str "")
      match (observation.get? "extras").getD (.obj []) with
      | .obj entries => do
        let extras ← handleObservationDeprecatedExtras libs
          ((PyDict.ofEntries entries).mapValues .data)
        let extras ← convertExtras libs cls extras
        -- `content` is given twice when it is among the extras
        if extras.contains "content" then .error .typeError
        else do
          let attrs ← (EventClass.observation cls).create libs
            (.ofEntries (("content", .data content) :: extras.entries))
          return { cls := .observation cls, attrs := attrs }
      | _ => .error .attributeError
  | _ => .error .keyError

/-! ## `event_from_dict` -/

/-- The value of a key, where `None` counts as no value. -/
def readOption {α : Type} (data : PyDict String PyJson) (key : String)
    (read : PyJson → Except PyError α) : Except PyError (Option α) :=
  match data.get? key with
  | none | some .null => .ok none
  | some v => (read v).map some

/-- An integer attribute; a value of another type is no attribute of the model. -/
def intAttribute : PyJson → Except PyError ℤ
  | .int i => .ok i
  | _ => .error .typeError

/-- A string attribute. -/
def strAttribute : PyJson → Except PyError String
  | .str s => .ok s
  | _ => .error .typeError

/-- `EventSource(value)`. -/
def eventSource : PyJson → Except PyError EventSource
  | .str value =>
    match EventSource.ofValue value with
    | some source => .ok source
    | none => .error (.valueError "not a valid EventSource")
  | _ => .error (.valueError "not a valid EventSource")

/-- The loop over `UNDERSCORE_KEYS`. -/
def setUnderscoreKeys (data : PyDict String PyJson) (e : EventObject R) :
    Except PyError (EventObject R) := do
  let id ← readOption data "id" intAttribute
  let timestamp ← readOption data "timestamp" strAttribute
  let source ← modelField data "source" (fun v => (eventSource v).map some) (.ok none)
  let cause ← readOption data "cause" intAttribute
  let toolCallMetadata ← modelField data "tool_call_metadata"
    (fun v => (ofJson (ToolCallMetadata.ofDict libs) v).map some) (.ok none)
  let llmMetrics ← modelField data "llm_metrics"
    (fun v => (Metrics.ofValue libs v).map some) (.ok none)
  return { e with
    id := id.getD invalidId
    timestamp := if data.contains "timestamp" then timestamp else e.timestamp
    source := source
    cause := cause
    toolCallMetadata := toolCallMetadata
    llmMetrics := llmMetrics }

/-- `event_from_dict`. -/
def eventFromDict (data : PyDict String PyJson) : Except PyError (EventObject R) :=
  (if data.contains "action" then actionFromDict libs data
    else if data.contains "observation" then observationFromDict libs data
    else .error (.valueError "Unknown event type")) >>= setUnderscoreKeys libs data

end OpenHands.Serialization
