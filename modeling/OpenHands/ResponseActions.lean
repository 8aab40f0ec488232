/-
# The actions of a response

`response_to_actions` (agenthub/codeact_agent/function_calling.py): every tool call of a
response of the LLM becomes an action.  The branch of the task tracker numbers its tasks with
the variable that counts the tool calls; which action gets the text of the assistant depends
on what is left in it.
-/
import OpenHands.FnCallArguments
import OpenHands.Lib.Fallible

namespace OpenHands.ResponseActions

open Fallible
open FnCall (Text formatValue)

/-! ## Responses -/

/-- What the conversion takes from the interpreter. -/
structure Host extends FnCall.Host where
  /-- The numbers of the interpreter, among them infinity and `nan`. -/
  Double : Type
  /-- `float(x)`; `none` where it raises `OverflowError`. -/
  ofNumber : ℚ → Option Double
  /-- `float(s)`; `none` where it raises `ValueError`. -/
  ofText : String → Option Double
  /-- `str(content)` of a list. -/
  contentText : List (String × Text) → Text

structure ToolCall where
  id : String
  name : String
  arguments : Text

/-- `assistant_msg.content`: a list consists of texts and of items of other types. -/
inductive Content
  | null
  | str (text : Text)
  | items (items : List (String × Text))

structure AssistantMessage where
  content : Content
  toolCalls : Option (List ToolCall)

structure ModelResponse where
  id : String
  choices : List AssistantMessage

/-- What the conversion raises, with what the message of the error shows. -/
inductive CallError
  /-- `FunctionCallValidationError`: "Failed to parse tool call arguments: …" -/
  | argumentsNotJson (arguments : Text)
  /-- `FunctionCallValidationError`: "Missing required argument "…" in tool call …" -/
  | missingArgument (key tool : String)
  /-- `FunctionCallValidationError`: "Invalid float passed to 'timeout' argument: …" -/
  | invalidTimeout (value : PyJson)
  /-- `FunctionCallValidationError`: "Unexpected argument … in tool call …. Allowed arguments
  are: …" -/
  | unexpectedArgument (key tool : String)
  /-- `FunctionCallValidationError`: "Missing required argument "task_list" for "plan" command
  in tool call …" -/
  | missingTaskList (tool : String)
  /-- `FunctionCallValidationError`: "Invalid format for "task_list". Expected a list but got
  …." -/
  | invalidTaskList (value : PyJson)
  /-- `FunctionCallValidationError`: "Unexpected task format in task_list: …. Each task should
  be a dictionary." -/
  | unexpectedTask (task : PyJson)
  /-- `FunctionCallNotExistsError`: "Tool … is not registered. (arguments: …). Please check
  the tool name and retry with an existing tool." -/
  | notRegistered (tool : String) (arguments : PyJson)
  | typeError
  | attributeError
  | keyError (key : String)
  | overflowError
  | assertionError

/-! ## Actions -/

/-- A task of the task list. -/
structure Task where
  id : PyJson
  title : PyJson
  status : PyJson
  notes : PyJson

/-- What is particular to the classes of actions. -/
inductive Body
  | cmdRun (command : PyJson) (isInput : Bool)
  | ipythonRunCell (code : PyJson)
  | agentDelegate (agent : String) (inputs : PyJson)
  | agentFinish (finalThought : PyJson)
  | fileEdit (path command fileText oldStr newStr insertLine content start end_ implSource : PyJson)
  | fileRead (path viewRange : PyJson) (implSource : String)
  | agentThink
  | condensationRequest
  | browseInteractive (browserActions : PyJson)
  | taskTracking (command : PyJson) (taskList : List Task)
  | mcp (name : String) (arguments : PyJson)
  | message (content : Text) (waitForResponse : Bool)

structure ToolCallMetadata where
  functionName : String
  toolCallId : String
  modelResponse : ModelResponse
  totalCallsInResponse : ℕ

/-- An action; a class without the attribute `thought` or `security_risk` has `none`. -/
structure Action (host : Host) where
  body : Body
  thought : Option PyJson := some (.str "")
  securityRisk : Option ActionSecurityRisk := none
  timeout : Option host.Double := none
  blocking : Bool := false
  toolCallMetadata : Option ToolCallMetadata := none
  responseId : Option String := none

variable (host : Host)

/-- `if v`. -/
def truthy : PyJson → Bool
  | .null => false
  | .bool b => b
  | .int i => i ≠ 0
  | .float x => x ≠ 0
  | .str s => s ≠ ""
  | .arr items => !items.isEmpty
  | .obj entries => !entries.isEmpty

/-- A thought behind the text of the assistant. -/
def withText (text : Text) (thought : PyJson) : PyJson :=
  if truthy thought then
    .str (String.ofList (text ++ '\n' :: formatValue host.toHost thought))
  else .str (String.ofList text)

/-- `combine_thought`. -/
def combineThought (action : Action host) (text : Text) : Action host :=
  match action.thought with
  | none => action
  | some thought =>
    if text = [] then action else { action with thought := some (withText host text thought) }

/-! ## Arguments -/

/-- `key in arguments`. -/
def contains (arguments : PyJson) (key : String) : Except CallError Bool :=
  match arguments with
  | .obj entries => .ok (entries.any (·.1 = key))
  | .arr items => .ok (items.any (PyJson.pyEq (.str key)))
  | .str s => .ok (decide (key.toList <:+: s.toList))
  | _ => .error .typeError

/-- `arguments[key]`. -/
def item (arguments : PyJson) (key : String) : Except CallError PyJson :=
  match arguments with
  | .obj entries =>
    match entries.find? (·.1 = key) with
    | some entry => .ok entry.2
    | none => .error (.keyError key)
  | _ => .error .typeError

/-- `arguments.get(key, default)`. -/
def getD (arguments : PyJson) (key : String) (default : PyJson) : Except CallError PyJson :=
  match arguments with
  | .obj entries => .ok ((entries.find? (·.1 = key)).elim default (·.2))
  | _ => .error .attributeError

/-- `if key not in arguments: raise`. -/
def require (tool : String) (arguments : PyJson) (key : String) : Except CallError Unit := do
  if ← contains arguments key then return () else throw (.missingArgument key tool)

/-- `getattr(ActionSecurityRisk, value)` for a value of `RISK_LEVELS`. -/
def riskLevel : PyJson → Option ActionSecurityRisk
  | .str "LOW" => some .low
  | .str "MEDIUM" => some .medium
  | .str "HIGH" => some .high
  | _ => none

/-- `set_security_risk`: other values are only logged. -/
def setSecurityRisk (action : Action host) (arguments : PyJson) :
    Except CallError (Action host) := do
  if ← contains arguments "security_risk" then
    match riskLevel (← item arguments "security_risk") with
    | some risk => return { action with securityRisk := action.securityRisk.map fun _ => risk }
    | none => return action
  else return action

/-- `float(arguments['timeout'])`. -/
def readTimeout (value : PyJson) : Except CallError host.Double :=
  match value with
  | .str s =>
    match host.ofText s with
    | some x => .ok x
    | none => .error (.invalidTimeout value)
  | _ =>
    match value.number? with
    | none => .error .typeError
    | some x =>
      match host.ofNumber x with
      | some x => .ok x
      | none => .error .overflowError

/-! ## The tools -/

/-- The command line. -/
def cmdRunAction (tool : String) (arguments : PyJson) : Except CallError (Action host) := do
  require tool arguments "command"
  let isInput ← getD arguments "is_input" (.str "false")
  let command ← item arguments "command"
  let action : Action host :=
    { body := .cmdRun command (isInput.pyEq (.str "true")), securityRisk := some .unknown }
  let action : Action host ←
    if ← contains arguments "timeout" then do
      let timeout ← readTimeout host (← item arguments "timeout")
      pure { action with timeout := some timeout, blocking := true }
    else pure action
  setSecurityRisk host action arguments

/-- The Python cell. -/
def ipythonAction (tool : String) (arguments : PyJson) : Except CallError (Action host) := do
  require tool arguments "code"
  let code ← item arguments "code"
  setSecurityRisk host { body := .ipythonRunCell code, securityRisk := some .unknown } arguments

/-- The delegation to the browsing agent. -/
def delegateAction (arguments : PyJson) : Except CallError (Action host) :=
  .ok { body := .agentDelegate "BrowsingAgent" arguments }

/-- The end of the task. -/
def finishAction (arguments : PyJson) : Except CallError (Action host) := do
  return { body := .agentFinish (← getD arguments "message" (.str "")) }

/-- The editor that is an LLM. -/
def editFileAction (tool : String) (arguments : PyJson) : Except CallError (Action host) := do
  require tool arguments "path"
  require tool arguments "content"
  let path ← item arguments "path"
  let content ← item arguments "content"
  let start ← getD arguments "start" (.int 1)
  let end_ ← getD arguments "end" (.int (-1))
  let implSource ← getD arguments "impl_source" (.str "llm_based_edit")
  return {
    body := .fileEdit path (.str "") .null .null .null .null content start end_ implSource
    securityRisk := some .unknown }

/-- The parameters of the editor. -/
def editorParams : List String :=
  ["command", "path", "file_text", "old_str", "new_str", "insert_line", "view_range",
    "security_risk"]

/-- `other_kwargs`: the arguments but for the command and the path. -/
def otherKwargs (arguments : PyJson) : Except CallError (List (String × PyJson)) :=
  match arguments with
  | .obj entries => .ok (entries.filter fun entry => entry.1 ≠ "command" ∧ entry.1 ≠ "path")
  | _ => .error .attributeError

/-- A file is viewed, or edited with the arguments that the editor knows. -/
def viewOrEditAction (tool : String) (path command : PyJson) (kwargs : List (String × PyJson)) :
    Except CallError (Action host) :=
  let kwarg key := (kwargs.find? (·.1 = key)).elim PyJson.null (·.2)
  if command.pyEq (.str "view") then
    .ok { body := .fileRead path (kwarg "view_range") "oh_aci", securityRisk := some .unknown }
  else
    match kwargs.find? fun entry => entry.1 ∉ editorParams with
    | some entry => .error (.unexpectedArgument entry.1 tool)
    | none =>
      .ok {
        body := .fileEdit path command (kwarg "file_text") (kwarg "old_str") (kwarg "new_str")
          (kwarg "insert_line") (.str "") (.int 1) (.int (-1)) (.str "oh_aci")
        securityRisk := some .unknown }

/-- The editor. -/
def strReplaceEditorAction (tool : String) (arguments : PyJson) :
    Except CallError (Action host) := do
  require tool arguments "command"
  require tool arguments "path"
  let path ← item arguments "path"
  let command ← item arguments "command"
  let kwargs ← otherKwargs arguments
  let action ← viewOrEditAction host tool path command kwargs
  setSecurityRisk host action arguments

/-- The note of a thought. -/
def thinkAction (arguments : PyJson) : Except CallError (Action host) := do
  return { body := .agentThink, thought := some (← getD arguments "thought" (.str "")) }

/-- The request of a condensation, which has no thought. -/
def condensationAction : Except CallError (Action host) :=
  .ok { body := .condensationRequest, thought := none }

/-- The browser. -/
def browserAction (tool : String) (arguments : PyJson) : Except CallError (Action host) := do
  require tool arguments "code"
  let code ← item arguments "code"
  setSecurityRisk host { body := .browseInteractive code, securityRisk := some .unknown } arguments

/-- A tool of an MCP server. -/
def mcpAction (tool : String) (arguments : PyJson) : Except CallError (Action host) :=
  .ok { body := .mcp tool arguments, securityRisk := some .unknown }

/-- A task with its required fields. -/
def normalizeTask (task : PyJson) (i : ℕ) : Except CallError Task :=
  match task with
  | .obj entries =>
    let get key default := (entries.find? (·.1 = key)).elim (PyJson.str default) (·.2)
    .ok {
      id := get "id" ("task-" ++ toString (i + 1))
      title := get "title" "Untitled task"
      status := get "status" "todo"
      notes := get "notes" "" }
  | _ => .error (.unexpectedTask task)

/-- What `for i, task in enumerate(tasks)` leaves in `i`. -/
def lastIndex (i tasks : ℕ) : ℕ := if tasks = 0 then i else tasks - 1

/-- `if command == 'plan' and 'task_list' not in arguments: raise`. -/
def requireTaskList (tool : String) (command arguments : PyJson) : Except CallError Unit := do
  let listed ← contains arguments "task_list"
  if command.pyEq (.str "plan") ∧ !listed then throw (.missingTaskList tool) else return ()

/-- `arguments.get('task_list', [])`, which has to be a list. -/
def rawTaskList (arguments : PyJson) : Except CallError (List PyJson) := do
  match ← getD arguments "task_list" (.arr []) with
  | .arr tasks => return tasks
  | value => throw (.invalidTaskList value)

/-- The task tracker.  Its loop over the tasks has the counter `i` of the tool calls as its
variable. -/
def taskTrackingAction (tool : String) (i : ℕ) (arguments : PyJson) :
    Except CallError (Action host × ℕ) := do
  require tool arguments "command"
  let command ← item arguments "command"
  requireTaskList tool command arguments
  let tasks ← rawTaskList arguments
  let taskList ← tasks.zipIdx.mapM fun task => normalizeTask task.1 task.2
  return ({ body := .taskTracking command taskList }, lastIndex i tasks.length)

/-! ## The loop over the tool calls -/

/-- The tools of the agent, but for the task tracker. -/
def agentTool (tool : String) (arguments : PyJson) : Option (Except CallError (Action host)) :=
  if tool = "execute_bash" then some (cmdRunAction host tool arguments)
  else if tool = "execute_ipython_cell" then some (ipythonAction host tool arguments)
  else if tool = "delegate_to_browsing_agent" then some (delegateAction host arguments)
  else if tool = "finish" then some (finishAction host arguments)
  else if tool = "edit_file" then some (editFileAction host tool arguments)
  else if tool = "str_replace_editor" then some (strReplaceEditorAction host tool arguments)
  else if tool = "think" then some (thinkAction host arguments)
  else if tool = "request_condensation" then some (condensationAction host)
  else if tool = "browser" then some (browserAction host tool arguments)
  else none

/-- The tools by their names, in the order of the code. -/
def toolAction (mcpToolNames : Option (List String)) (tool : String) (i : ℕ) (arguments : PyJson) :
    Except CallError (Action host × ℕ) :=
  match agentTool host tool arguments with
  | some action => action.map (·, i)
  | none =>
    if tool = "task_tracker" then taskTrackingAction host tool i arguments
    else if tool ∈ mcpToolNames.getD [] then (mcpAction host tool arguments).map (·, i)
    else .error (.notRegistered tool arguments)

/-- The action of the tool call at place `i`, and what is in `i` behind it. -/
def callToAction (mcpToolNames : Option (List String)) (i : ℕ) (call : ToolCall) :
    Except CallError (Action host × ℕ) :=
  match JsonText.loads host.toFloatFormat call.arguments with
  | some arguments => toolAction host mcpToolNames call.name i arguments
  | none => .error (.argumentsNotJson call.arguments)

/-- The text of the content. -/
def Content.text : Content → Text
  | .null => []
  | .str text => text
  | .items parts => parts.flatMap fun part => if part.1 = "text" then part.2 else []

/-- The content of a message without tool calls. -/
def Content.messageText : Content → Text
  | .null => []
  | .str text => text
  | .items parts => if parts = [] then [] else host.contentText parts

/-- The body of the loop. -/
def loopBody (mcpToolNames : Option (List String)) (response : ModelResponse) (text : Text)
    (total i : ℕ) (call : ToolCall) : Except CallError (Action host) :=
  (callToAction host mcpToolNames i call).map fun found =>
    let action := if found.2 = 0 then combineThought host found.1 text else found.1
    { action with
      toolCallMetadata := some {
        functionName := call.name
        toolCallId := call.id
        modelResponse := response
        totalCallsInResponse := total } }

/-- `response_to_actions`. -/
def responseToActions (response : ModelResponse) (mcpToolNames : Option (List String)) :
    Except CallError (List (Action host)) := do
  match response.choices with
  | [message] =>
    let actions ←
      match message.toolCalls.getD [] with
      | [] =>
        .ok [{
          body := .message (message.content.messageText host) true
          thought := none
          securityRisk := some .unknown }]
      | calls =>
        calls.zipIdx.mapM fun call =>
          loopBody host mcpToolNames response message.content.text calls.length call.2 call.1
    return actions.map fun action => { action with responseId := some response.id }
  | _ => throw .assertionError

/-! ## One call -/

section

variable {host : Host} {mcpToolNames : Option (List String)} {call first : ToolCall}
  {rest : List ToolCall} {own : Action host} {text : Text}

/-- The action of a tool call on its own. -/
def ownAction (host : Host) (mcpToolNames : Option (List String)) (call : ToolCall) :
    Except CallError (Action host) := (callToAction host mcpToolNames 0 call).map Prod.fst

/-- The number of tasks in the arguments of a call of the task tracker. -/
def taskCount (host : Host) (call : ToolCall) : ℕ :=
  if call.name = "task_tracker" then
    match JsonText.loads host.toFloatFormat call.arguments with
    | some (.obj entries) =>
      match entries.find? (·.1 = "task_list") with
      | some (_, .arr tasks) => tasks.length
      | _ => 0
    | _ => 0
  else 0

/-- The raw tasks are those that are counted. -/
theorem rawTaskList_spec {arguments : PyJson} {tasks : List PyJson}
    (hname : call.name = "task_tracker")
    (hloads : JsonText.loads host.toFloatFormat call.arguments = some arguments)
    (htasks : rawTaskList arguments = .ok tasks) : taskCount host call = tasks.length := by
  unfold taskCount
  rw [if_pos hname, hloads]
  unfold rawTaskList at htasks
  obtain ⟨value, hvalue, htasks⟩ := bind_eq_ok_iff.mp htasks
  cases arguments with
  | obj entries =>
    simp only
    have hget : (entries.find? (·.1 = "task_list")).elim (PyJson.arr []) (·.2) = value :=
      Except.ok.inj hvalue
    cases hfind : entries.find? (·.1 = "task_list") with
    | none =>
      rw [hfind] at hget
      subst hget
      cases htasks
      rfl
    | some entry =>
      obtain ⟨key, found⟩ := entry
      rw [hfind] at hget
      change found = value at hget
      subst hget
      cases found with
      | arr items =>
        cases htasks
        rfl
      | null => cases htasks
      | bool b => cases htasks
      | int n => cases htasks
      | float x => cases htasks
      | str t => cases htasks
      | obj entries => cases htasks
  | null => cases hvalue
  | bool b => cases hvalue
  | int n => cases hvalue
  | float x => cases hvalue
  | str t => cases hvalue
  | arr items => cases hvalue

/-- The task tracker makes the same action at every place and leaves the place of the last
task in the counter. -/
theorem taskTrackingAction_spec {arguments : PyJson} {found : Action host × ℕ}
    (hname : call.name = "task_tracker")
    (hloads : JsonText.loads host.toFloatFormat call.arguments = some arguments)
    (h : taskTrackingAction host call.name 0 arguments = .ok found) (i : ℕ) :
    found.1.thought = some (.str "") ∧ taskTrackingAction host call.name i arguments
      = .ok (found.1, lastIndex i (taskCount host call)) := by
  unfold taskTrackingAction at h ⊢
  obtain ⟨_, hrequire, h⟩ := bind_eq_ok_iff.mp h
  obtain ⟨command, hcommand, h⟩ := bind_eq_ok_iff.mp h
  obtain ⟨_, hplan, h⟩ := bind_eq_ok_iff.mp h
  obtain ⟨tasks, htasks, h⟩ := bind_eq_ok_iff.mp h
  obtain ⟨taskList, htaskList, h⟩ := bind_eq_ok_iff.mp h
  cases h
  rw [rawTaskList_spec hname hloads htasks]
  refine ⟨rfl, ?_⟩
  simp only [hrequire, hcommand, hplan, htasks, htaskList, bind, Except.bind]
  rfl

/-- Every other tool leaves the counter alone. -/
theorem toolAction_spec {arguments : PyJson}
    (hloads : JsonText.loads host.toFloatFormat call.arguments = some arguments)
    {found : Action host × ℕ}
    (h : toolAction host mcpToolNames call.name 0 arguments = .ok found) (i : ℕ) :
    (call.name = "task_tracker" → found.1.thought = some (.str "")) ∧
      toolAction host mcpToolNames call.name i arguments
        = .ok (found.1, lastIndex i (taskCount host call)) := by
  have halone : ∀ x : Except CallError (Action host), x.map (·, 0) = .ok found →
      x.map (·, i) = .ok (found.1, i) := by
    rintro (e | a) hx
    · cases hx
    · cases hx
      rfl
  unfold toolAction at h ⊢
  by_cases htracker : call.name = "task_tracker"
  · have hagent : agentTool host call.name arguments = none := by
      rw [htracker]
      rfl
    rw [hagent] at h ⊢
    simp only [htracker, if_true] at h ⊢
    rw [← htracker] at h ⊢
    have hspec := taskTrackingAction_spec htracker hloads h i
    exact ⟨fun _ => hspec.1, hspec.2⟩
  · have hcount : lastIndex i (taskCount host call) = i := by
      unfold taskCount lastIndex
      rw [if_neg htracker, if_pos rfl]
    refine ⟨fun hname => absurd hname htracker, ?_⟩
    rw [hcount]
    cases hagent : agentTool host call.name arguments with
    | some action =>
      rw [hagent] at h
      exact halone action h
    | none =>
      rw [hagent] at h
      simp only [htracker, if_false] at h ⊢
      split_ifs at h ⊢
      exact halone _ h

/-! ## The thought of an action -/

/-- What is made has a thought. -/
def Thinks (x : Except CallError (Action host)) : Prop := ∀ action, x = .ok action → action.thought.isSome

theorem Thinks.bind {β : Type} {x : Except CallError β} {f : β → Except CallError (Action host)}
    (h : ∀ b, Thinks (f b)) : Thinks (x >>= f) := by
  intro action haction
  obtain ⟨b, -, hb⟩ := bind_eq_ok_iff.mp haction
  exact h b action hb

theorem Thinks.ok {action : Action host} (h : action.thought.isSome) : Thinks (.ok action) := by
  rintro _ ⟨⟩
  exact h

/-- The security risk is set on the action that is there. -/
theorem thinks_setSecurityRisk {action : Action host} (h : action.thought.isSome)
    (arguments : PyJson) : Thinks (setSecurityRisk host action arguments) := by
  unfold setSecurityRisk
  refine .bind fun given => ?_
  cases given with
  | false => exact .ok h
  | true =>
    refine .bind fun value => ?_
    cases riskLevel value with
    | none => exact .ok h
    | some risk => exact .ok h

theorem thinks_cmdRunAction (tool : String) (arguments : PyJson) :
    Thinks (cmdRunAction host tool arguments) := by
  unfold cmdRunAction
  refine .bind fun _ => .bind fun _ => .bind fun _ => .bind fun given => ?_
  cases given with
  | false => exact thinks_setSecurityRisk rfl arguments
  | true => exact .bind fun _ => .bind fun _ => thinks_setSecurityRisk rfl arguments

theorem thinks_viewOrEditAction (tool : String) (path command : PyJson)
    (kwargs : List (String × PyJson)) :
    Thinks (viewOrEditAction host tool path command kwargs) := by
  unfold viewOrEditAction
  intro action haction
  by_cases hview : command.pyEq (.str "view")
  · rw [if_pos hview] at haction
    cases haction
    rfl
  · rw [if_neg hview] at haction
    split at haction
    · cases haction
    · cases haction
      rfl

theorem thinks_strReplaceEditorAction (tool : String) (arguments : PyJson) :
    Thinks (strReplaceEditorAction host tool arguments) := by
  intro action haction
  unfold strReplaceEditorAction at haction
  obtain ⟨_, -, haction⟩ := bind_eq_ok_iff.mp haction
  obtain ⟨_, -, haction⟩ := bind_eq_ok_iff.mp haction
  obtain ⟨path, -, haction⟩ := bind_eq_ok_iff.mp haction
  obtain ⟨command, -, haction⟩ := bind_eq_ok_iff.mp haction
  obtain ⟨kwargs, -, haction⟩ := bind_eq_ok_iff.mp haction
  obtain ⟨edit, hedit, haction⟩ := bind_eq_ok_iff.mp haction
  exact thinks_setSecurityRisk (thinks_viewOrEditAction tool path command kwargs edit hedit)
    arguments action haction

/-- The tools of the agent make actions with a thought, except for the request of a
condensation. -/
theorem thinks_agentTool {tool : String} {arguments : PyJson} {action : Except CallError (Action host)}
    (htool : agentTool host tool arguments = some action) (hname : tool ≠ "request_condensation") :
    Thinks action := by
  unfold agentTool at htool
  split_ifs at htool <;> cases htool
  · exact thinks_cmdRunAction tool arguments
  · exact .bind fun _ => .bind fun _ => thinks_setSecurityRisk rfl arguments
  · exact .ok rfl
  · exact .bind fun _ => .ok rfl
  · exact .bind fun _ => .bind fun _ => .bind fun _ => .bind fun _ => .bind fun _ => .bind fun _ =>
      .bind fun _ => .ok rfl
  · exact thinks_strReplaceEditorAction tool arguments
  · exact .bind fun _ => .ok rfl
  · exact .bind fun _ => .bind fun _ => thinks_setSecurityRisk rfl arguments

/-- The action of a call on its own, read from the arguments. -/
theorem ownAction_eq_ok (h : ownAction host mcpToolNames call = .ok own) :
    ∃ arguments found, JsonText.loads host.toFloatFormat call.arguments = some arguments ∧
      toolAction host mcpToolNames call.name 0 arguments = .ok found ∧ found.1 = own := by
  obtain ⟨found, hfound, hown⟩ := map_ok_iff.mp h
  unfold callToAction at hfound
  cases hloads : JsonText.loads host.toFloatFormat call.arguments with
  | none =>
    rw [hloads] at hfound
    cases hfound
  | some arguments =>
    rw [hloads] at hfound
    exact ⟨arguments, found, rfl, hfound, hown⟩

/-- An action has no thought exactly when it is the request of a condensation. -/
theorem isSome_thought_iff (h : ownAction host mcpToolNames call = .ok own) :
    own.thought.isSome ↔ call.name ≠ "request_condensation" := by
  obtain ⟨arguments, found, -, htool, rfl⟩ := ownAction_eq_ok h
  unfold toolAction at htool
  by_cases hname : call.name = "request_condensation"
  · have hagent : agentTool host call.name arguments = some (condensationAction host) := by
      rw [hname]
      rfl
    rw [hagent] at htool
    cases htool
    simp [hname]
  · refine iff_of_true ?_ hname
    cases hagent : agentTool host call.name arguments with
    | some action =>
      rw [hagent] at htool
      obtain ⟨made, hmade, rfl⟩ := map_ok_iff.mp htool
      exact thinks_agentTool hagent hname made hmade
    | none =>
      rw [hagent] at htool
      simp only at htool
      split_ifs at htool with htracker
      · unfold taskTrackingAction at htool
        obtain ⟨_, -, htool⟩ := bind_eq_ok_iff.mp htool
        obtain ⟨_, -, htool⟩ := bind_eq_ok_iff.mp htool
        obtain ⟨_, -, htool⟩ := bind_eq_ok_iff.mp htool
        obtain ⟨_, -, htool⟩ := bind_eq_ok_iff.mp htool
        obtain ⟨_, -, htool⟩ := bind_eq_ok_iff.mp htool
        cases htool
        rfl
      · cases htool
        rfl

/-! ## The loop -/

/-- The action of the call at place `i`, as it is returned. -/
def finished (host : Host) (response : ModelResponse) (text : Text) (total i : ℕ) (call : ToolCall)
    (own : Action host) : Action host :=
  { (if lastIndex i (taskCount host call) = 0 then combineThought host own text else own) with
    toolCallMetadata := some {
      functionName := call.name
      toolCallId := call.id
      modelResponse := response
      totalCallsInResponse := total }
    responseId := some response.id }

theorem callToAction_eq (h : ownAction host mcpToolNames call = .ok own) (i : ℕ) :
    callToAction host mcpToolNames i call = .ok (own, lastIndex i (taskCount host call)) := by
  obtain ⟨arguments, found, hloads, htool, rfl⟩ := ownAction_eq_ok h
  unfold callToAction
  rw [hloads]
  exact (toolAction_spec hloads htool i).2

/-- A call of the task tracker makes an action with an empty thought. -/
theorem thought_of_taskCount (h : ownAction host mcpToolNames call = .ok own)
    (hcount : taskCount host call ≠ 0) : own.thought = some (.str "") := by
  obtain ⟨arguments, found, hloads, htool, rfl⟩ := ownAction_eq_ok h
  refine (toolAction_spec hloads htool 0).1 ?_
  by_contra hname
  exact hcount (if_neg hname)

/-- With valid calls there is one action for each call, made from the call and its place. -/
theorem mapM_loopBody (response : ModelResponse) (text : Text) (total : ℕ)
    {calls : List ToolCall} {owns : List (Action host)}
    (howns : List.Forall₂ (fun call own => ownAction host mcpToolNames call = .ok own) calls owns)
    (n : ℕ) :
    ∃ actions, (calls.zipIdx n).mapM (fun call =>
        loopBody host mcpToolNames response text total call.2 call.1) = .ok actions ∧
      actions.map (fun action => { action with responseId := some response.id })
        = ((calls.zip owns).zipIdx n).map fun entry =>
            finished host response text total entry.2 entry.1.1 entry.1.2 := by
  induction howns generalizing n with
  | nil => exact ⟨[], rfl, rfl⟩
  | @cons call own calls owns hown _ ih =>
    obtain ⟨actions, hactions, hmap⟩ := ih (n + 1)
    have hbody : ∃ action, loopBody host mcpToolNames response text total n call = .ok action ∧
        { action with responseId := some response.id }
          = finished host response text total n call own := by
      unfold loopBody
      rw [callToAction_eq hown n]
      exact ⟨_, rfl, rfl⟩
    obtain ⟨action, haction, hfinished⟩ := hbody
    refine ⟨action :: actions, ?_, ?_⟩
    · rw [List.zipIdx_cons, List.mapM_cons]
      simp only [haction, hactions, bind, Except.bind]
      rfl
    · rw [List.map_cons, hmap, hfinished]
      rfl

/-- The actions of the calls, as they are returned. -/
def finishedAll (host : Host) (response : ModelResponse) (text : Text) (calls : List ToolCall)
    (owns : List (Action host)) : List (Action host) :=
  (calls.zip owns).zipIdx.map fun entry =>
    finished host response text calls.length entry.2 entry.1.1 entry.1.2

theorem responseToActions_eq {response : ModelResponse} {content : Content}
    (hchoices : response.choices = [⟨content, some (first :: rest)⟩])
    {owns : List (Action host)}
    (howns : List.Forall₂ (fun call own => ownAction host mcpToolNames call = .ok own)
      (first :: rest) owns) :
    responseToActions host response mcpToolNames
      = .ok (finishedAll host response content.text (first :: rest) owns) := by
  obtain ⟨actions, hactions, hmap⟩ := mapM_loopBody response content.text (first :: rest).length
    howns 0
  unfold responseToActions finishedAll
  rw [hchoices]
  simp only [Option.getD_some, hactions, bind, Except.bind, ← hmap]
  rfl

/-- The action at a place is the finished action of the call at the place. -/
theorem getElem?_finishedAll {calls : List ToolCall} {owns : List (Action host)}
    (howns : List.Forall₂ (fun call own => ownAction host mcpToolNames call = .ok own) calls owns)
    (response : ModelResponse) (text : Text) {i : ℕ} (hcall : calls[i]? = some call) :
    ∃ own, ownAction host mcpToolNames call = .ok own ∧
      (finishedAll host response text calls owns)[i]?
        = some (finished host response text calls.length i call own) := by
  obtain ⟨hi, hget⟩ := List.getElem?_eq_some_iff.mp hcall
  have hlt : i < owns.length := howns.length_eq ▸ hi
  have hown := howns.get hi hlt
  have hzip : (calls.zip owns)[i]? = some (call, owns[i]) :=
    List.getElem?_zip_eq_some.mpr ⟨hcall, List.getElem?_eq_getElem hlt⟩
  refine ⟨owns[i], ?_, ?_⟩
  · rw [← hget]
    exact hown
  · unfold finishedAll
    rw [List.getElem?_map, List.getElem?_zipIdx, hzip]
    simp

/-! ## One action for each call -/

/-- The action is that of the call, with its metadata; only the thought may differ. -/
structure ActionOf (response : ModelResponse) (total : ℕ) (call : ToolCall)
    (own action : Action host) : Prop where
  unchanged : { action with
    thought := own.thought
    toolCallMetadata := own.toolCallMetadata
    responseId := own.responseId } = own
  metadata : action.toolCallMetadata = some {
    functionName := call.name
    toolCallId := call.id
    modelResponse := response
    totalCallsInResponse := total }
  responseId : action.responseId = some response.id

/-- The text of the assistant, where there is one, stands in front of the thought of the
action. -/
def Attached (text : Text) (own action : Action host) : Prop :=
  if text = [] then action.thought = own.thought
  else ∃ thought, own.thought = some thought ∧ action.thought = some (withText host text thought)

/-- There is one action for each call, in order, and the text is attached to the first action
and to no other. -/
structure OneActionPerCall (mcpToolNames : Option (List String)) (response : ModelResponse)
    (text : Text) (calls : List ToolCall) (actions : List (Action host)) : Prop where
  length : actions.length = calls.length
  ofCall : ∀ i call action, calls[i]? = some call → actions[i]? = some action →
    ∃ own, ownAction host mcpToolNames call = .ok own ∧
      ActionOf response calls.length call own action ∧
      if i = 0 then Attached text own action else action.thought = own.thought

theorem finished_thought (response : ModelResponse) (text : Text) (total i : ℕ)
    (call : ToolCall) (own : Action host) :
    (finished host response text total i call own).thought
      = if lastIndex i (taskCount host call) = 0 ∧ text ≠ [] then
          own.thought.map (withText host text)
        else own.thought := by
  unfold finished combineThought
  by_cases hlast : lastIndex i (taskCount host call) = 0 <;> by_cases htext : text = [] <;>
    cases hown : own.thought <;> simp [hlast, htext, hown]

theorem lastIndex_eq_zero_iff {i tasks : ℕ} :
    lastIndex i tasks = 0 ↔ if i = 0 then tasks ≤ 1 else tasks = 1 := by
  unfold lastIndex
  split_ifs <;> omega

/-- Whether the action at a place has the text it has to have. -/
theorem textPart_iff (h : ownAction host mcpToolNames call = .ok own) (response : ModelResponse)
    (total i : ℕ) :
    (if i = 0 then Attached text own (finished host response text total i call own)
      else (finished host response text total i call own).thought = own.thought)
      ↔ text = [] ∨ if i = 0 then call.name ≠ "request_condensation" ∧ taskCount host call ≤ 1
        else taskCount host call ≠ 1 := by
  unfold Attached
  simp only [finished_thought, lastIndex_eq_zero_iff, ← isSome_thought_iff h]
  by_cases htext : text = []
  · simp [htext]
  simp only [htext, if_false, false_or, not_false_eq_true, ne_eq, and_true]
  by_cases hi : i = 0
  · simp only [hi, if_true]
    by_cases hcount : taskCount host call ≤ 1
    · simp only [hcount, if_true, and_true]
      cases own.thought <;> simp
    · -- A list of more tasks leaves a later place in the counter.
      have hthought := thought_of_taskCount h (by omega)
      have hne : PyJson.str "" ≠ withText host text (.str "") := by
        unfold withText
        simp [truthy, htext]
      simp [hcount, hthought, hne]
  · simp only [hi, if_false]
    by_cases hcount : taskCount host call = 1
    · have hthought := thought_of_taskCount h (by omega)
      have hne : withText host text (.str "") ≠ PyJson.str "" := by
        unfold withText
        simp [truthy, htext]
      simp [hcount, hthought, hne]
    · simp [hcount]

theorem actionOf_finished (response : ModelResponse) (text : Text) (total i : ℕ)
    (call : ToolCall) (own : Action host) :
    ActionOf response total call own (finished host response text total i call own) := by
  refine ⟨?_, rfl, rfl⟩
  obtain ⟨body, thought, securityRisk, timeout, blocking, metadata, responseId⟩ := own
  unfold finished combineThought
  cases thought <;> by_cases hlast : lastIndex i (taskCount host call) = 0 <;>
    by_cases htext : text = [] <;> simp [hlast, htext]

/-- Where the text of the assistant goes to the first action and to no other: there is no text,
or the first call is no request of a condensation and has at most one task, and no later call
has exactly one task. -/
def TextGoesFirst (host : Host) (text : Text) (first : ToolCall) (rest : List ToolCall) : Prop :=
  text = [] ∨ (first.name ≠ "request_condensation" ∧ taskCount host first ≤ 1) ∧
    ∀ call ∈ rest, taskCount host call ≠ 1

theorem exists_owns {calls : List ToolCall}
    (hvalid : ∀ call ∈ calls, ∃ own, ownAction host mcpToolNames call = .ok own) :
    ∃ owns, List.Forall₂ (fun call own => ownAction host mcpToolNames call = .ok own) calls owns := by
  induction calls with
  | nil => exact ⟨[], .nil⟩
  | cons call calls ih =>
    rw [List.forall_mem_cons] at hvalid
    obtain ⟨own, hown⟩ := hvalid.1
    obtain ⟨owns, howns⟩ := ih hvalid.2
    exact ⟨own :: owns, .cons hown howns⟩

/-- The actions are one for each call with the text at the first one exactly when the counter
is right behind every call. -/
theorem oneActionPerCall_finishedAll_iff {calls : List ToolCall} {owns : List (Action host)}
    (howns : List.Forall₂ (fun call own => ownAction host mcpToolNames call = .ok own) calls owns)
    (response : ModelResponse) (text : Text) :
    OneActionPerCall mcpToolNames response text calls (finishedAll host response text calls owns)
      ↔ ∀ i call, calls[i]? = some call →
        text = [] ∨ if i = 0 then call.name ≠ "request_condensation" ∧ taskCount host call ≤ 1
          else taskCount host call ≠ 1 := by
  constructor
  · intro hone i call hcall
    obtain ⟨own, hown, hget⟩ := getElem?_finishedAll howns response text hcall
    obtain ⟨own', hown', -, htext⟩ := hone.ofCall i call _ hcall hget
    cases hown.symm.trans hown'
    exact (textPart_iff hown response _ i).mp htext
  · intro hpart
    refine ⟨?_, ?_⟩
    · unfold finishedAll
      simp [howns.length_eq]
    intro i call action hcall haction
    obtain ⟨own, hown, hget⟩ := getElem?_finishedAll howns response text hcall
    cases hget.symm.trans haction
    exact ⟨own, hown, actionOf_finished _ _ _ _ _ _,
      (textPart_iff hown response _ i).mpr (hpart i call hcall)⟩

/-- For valid calls there is one action for each call, and the text is attached to exactly the
first one, exactly when the counter of the calls is zero behind the first call and behind no
other. -/
theorem oneActionPerCall_iff {response : ModelResponse} {content : Content}
    (hchoices : response.choices = [⟨content, some (first :: rest)⟩])
    (hvalid : ∀ call ∈ first :: rest, ∃ own, ownAction host mcpToolNames call = .ok own) :
    (∃ actions, responseToActions host response mcpToolNames = .ok actions ∧
        OneActionPerCall mcpToolNames response content.text (first :: rest) actions)
      ↔ TextGoesFirst host content.text first rest := by
  obtain ⟨owns, howns⟩ := exists_owns hvalid
  have hactions := responseToActions_eq hchoices howns
  have hiff := oneActionPerCall_finishedAll_iff howns response content.text
  constructor
  · rintro ⟨actions, hok, hone⟩
    cases hactions.symm.trans hok
    have hpart := hiff.mp hone
    by_cases htext : content.text = []
    · exact Or.inl htext
    · refine Or.inr ⟨(hpart 0 first rfl).resolve_left htext, ?_⟩
      intro call hcall
      obtain ⟨i, hi⟩ := List.mem_iff_getElem?.mp hcall
      exact (hpart (i + 1) call hi).resolve_left htext
  · intro hfirst
    refine ⟨_, hactions, hiff.mpr ?_⟩
    intro i call hcall
    refine hfirst.imp_right fun h => ?_
    cases i with
    | zero =>
      cases hcall
      exact h.1
    | succ i => exact h.2 call (List.mem_of_getElem? hcall)

end

/-! ## A plan -/

/-- Without numbers there is nothing to write or to read. -/
def planHost : Host where
  toFloatFormat := JsonText.onlyIntegers
  containerText := fun _ => []
  win32 := false
  Double := Empty
  ofNumber := fun _ => none
  ofText := fun _ => none
  contentText := fun _ => []

/-- The arguments of a plan with the tasks. -/
def planArguments (tasks : List PyJson) : PyJson :=
  .obj [("command", .str "plan"), ("task_list", .arr tasks)]

def planCall (tasks : List PyJson) : ToolCall where
  id := "toolu_01"
  name := "task_tracker"
  arguments := JsonText.dumps planHost.toFloatFormat (planArguments tasks)

/-- A response with a text and a plan of empty tasks. -/
def planResponse (tasks : List PyJson) : ModelResponse where
  id := "msg_01"
  choices := [⟨.str "Planning.".toList, some [planCall tasks]⟩]

theorem loads_planCall (n : ℕ) :
    JsonText.loads planHost.toFloatFormat (planCall (List.replicate n (.obj []))).arguments
      = some (planArguments (List.replicate n (.obj []))) := by
  refine JsonText.loads_dumps _ (.obj (by simp) ?_)
  intro entry hentry
  simp only [List.mem_cons, List.not_mem_nil, or_false] at hentry
  rcases hentry with rfl | rfl
  · exact .str _
  · refine .arr fun task htask => ?_
    rw [List.eq_of_mem_replicate htask]
    exact .obj List.nodup_nil (by simp)

theorem mapM_normalizeTask (n k : ℕ) : ∃ taskList,
    ((List.replicate n (PyJson.obj [])).zipIdx k).mapM (fun task => normalizeTask task.1 task.2)
      = .ok taskList := by
  induction n generalizing k with
  | zero => exact ⟨[], rfl⟩
  | succ n ih =>
    obtain ⟨taskList, htaskList⟩ := ih (k + 1)
    rw [List.replicate_succ, List.zipIdx_cons, List.mapM_cons, htaskList]
    exact ⟨_, rfl⟩

theorem ownAction_planCall (n : ℕ) :
    ∃ own, ownAction planHost none (planCall (List.replicate n (.obj []))) = .ok own := by
  obtain ⟨taskList, htaskList⟩ := mapM_normalizeTask n 0
  have hloads := loads_planCall n
  refine ⟨{ body := .taskTracking (.str "plan") taskList }, map_ok_iff.mpr
    ⟨(_, lastIndex 0 n), ?_, rfl⟩⟩
  unfold callToAction
  rw [hloads]
  change taskTrackingAction planHost "task_tracker" 0 (planArguments (List.replicate n (.obj [])))
    = _
  unfold taskTrackingAction
  simp [planArguments, require, contains, item, requireTaskList, rawTaskList, getD, htaskList,
    bind, Except.bind, pure, Except.pure]

theorem taskCount_planCall (n : ℕ) :
    taskCount planHost (planCall (List.replicate n (.obj []))) = n := by
  unfold taskCount
  rw [loads_planCall]
  simp [planCall, planArguments]

/-- A plan of a task and a plan of two tasks. -/
def twoPlans : ModelResponse where
  id := "msg_01"
  choices := [⟨.str "Planning.".toList, some [planCall [.obj []], planCall [.obj [], .obj []]]⟩]

/-- The first of two plans gets the text if it has one task, and the second has not. -/
theorem oneActionPerCall_twoPlans :
    ∃ actions, responseToActions planHost twoPlans none = .ok actions ∧
      OneActionPerCall none twoPlans "Planning.".toList
        [planCall [.obj []], planCall [.obj [], .obj []]] actions := by
  have hchoices : twoPlans.choices = [⟨.str "Planning.".toList,
      some (planCall [.obj []] :: [planCall [.obj [], .obj []]])⟩] := rfl
  have hvalid : ∀ call ∈ planCall [.obj []] :: [planCall [.obj [], .obj []]],
      ∃ own, ownAction planHost none call = .ok own := by
    intro call hcall
    rcases List.mem_cons.mp hcall with rfl | hsecond
    · exact ownAction_planCall 1
    · rw [List.mem_singleton.mp hsecond]
      exact ownAction_planCall 2
  refine (oneActionPerCall_iff hchoices hvalid).mpr (Or.inr ⟨⟨?_, ?_⟩, ?_⟩)
  · exact fun h => absurd h (by decide)
  · exact (taskCount_planCall 1).le
  · intro call hcall hone
    rw [List.mem_singleton.mp hcall] at hone
    exact absurd ((taskCount_planCall 2).symm.trans hone) (by decide)

/-- A plan with two tasks loses the text. -/
theorem text_lost_plan :
    ¬ ∃ actions, responseToActions planHost (planResponse [.obj [], .obj []]) none = .ok actions ∧
      OneActionPerCall none (planResponse [.obj [], .obj []]) "Planning.".toList
        [planCall [.obj [], .obj []]] actions := by
  rintro ⟨actions, hok, hone⟩
  obtain ⟨own, hown⟩ := ownAction_planCall 2
  have howns : List.Forall₂ (fun call own => ownAction planHost none call = .ok own)
      [planCall [.obj [], .obj []]] [own] := .cons hown .nil
  have hchoices : (planResponse [.obj [], .obj []]).choices
      = [⟨.str "Planning.".toList, some (planCall [.obj [], .obj []] :: [])⟩] := rfl
  cases (responseToActions_eq hchoices howns).symm.trans hok
  rcases (oneActionPerCall_finishedAll_iff howns _ _).mp hone 0 _ rfl with htext | ⟨-, hcount⟩
  · exact absurd htext (by decide)
  · exact absurd ((taskCount_planCall 2).symm.le.trans hcount) (by decide)

end OpenHands.ResponseActions
