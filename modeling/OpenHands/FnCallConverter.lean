/-
# The function call converter

Models without function calling get their messages as plain text: the tools are described
in the system prompt, a call is written after the text of the assistant's message, and a
result becomes a user message.  The converter writes these messages and reads them back.
-/
import Mathlib
import OpenHands.FnCallPrompts
import OpenHands.Lib.JsonText
import OpenHands.Lib.PyRe

namespace OpenHands.FnCall

open PyStr PyRe JsonText

/-! ## Tools and messages -/

/-- A property in the schema of a tool. -/
structure ParamInfo where
  type : Option String
  description : Option String
  enum : Option (List PyJson)

structure Parameters where
  properties : Option (PyDict String ParamInfo)
  required : Option (List String)

structure Function where
  name : String
  description : Option String
  parameters : Option Parameters

structure Tool where
  type : String
  function : Function

/-- An item of a message's content; the flag stands for a `cache_control` entry. -/
inductive Item
  | text (text : Text) (cacheControl : Bool)
  | imageUrl (url : Text) (cacheControl : Bool)

inductive Content
  | null
  | str (text : Text)
  | items (items : List Item)

structure FunctionCall where
  name : Text
  arguments : Text

structure ToolCall where
  index : Option ℕ
  id : Option Text
  type : Option Text
  function : Option FunctionCall

inductive Message
  | system (content : Content)
  | user (content : Content)
  | assistant (content : Content) (toolCalls : Option (List ToolCall))
  | tool (content : Content) (name : Option Text) (toolCallId : Option Text)
      (cacheControl : Bool)
  | other (role : Text) (content : Content)

/-- What the converter raises, with what the message of the error shows. -/
inductive FnCallError
  /-- `FunctionCallConversionError`: "Tool call must contain '…' key." -/
  | toolCallWithoutKey (key : String)
  /-- `FunctionCallConversionError`: "Tool call type must be 'function'." -/
  | toolCallOfOtherType
  /-- `FunctionCallConversionError`: "Failed to parse arguments as JSON. Arguments: …" -/
  | argumentsNotJson (arguments : Text)
  /-- `FunctionCallConversionError`: "Failed to convert tool call to string. …" -/
  | toolCallNotConverted (call : ToolCall) (cause : FnCallError)
  /-- `FunctionCallConversionError`: "Expected exactly one tool call in the message. …" -/
  | notOneToolCall (count : ℕ) (content : Content)
  /-- `FunctionCallConversionError`: "Unexpected content type …. Expected str or list. …" -/
  | unexpectedContent (content : Content)
  /-- `FunctionCallConversionError`: "Unexpected role …. Expected …" -/
  | unexpectedRole (role : Text)
  /-- `FunctionCallConversionError`: "Expecting function call in the LAST index of content
  list. …" -/
  | functionCallNotLast (content : Content)
  /-- `FunctionCallValidationError`: "Function '…' not found in available tools: …" -/
  | functionNotFound (name : Text) (available : List String)
  /-- `FunctionCallValidationError`: "Parameter '…' is not allowed for function '…'. …" -/
  | parameterNotAllowed (name function : Text) (allowed : List String)
  /-- `FunctionCallValidationError`: "Parameter '…' is expected to be an integer." -/
  | parameterNotInteger (name : Text)
  /-- `FunctionCallValidationError`: "Parameter '…' is expected to be an array." -/
  | parameterNotArray (name : Text)
  /-- `FunctionCallValidationError`: "Parameter '…' is expected to be one of …." -/
  | parameterNotInEnum (name : Text) (enum : List PyJson)
  /-- `FunctionCallValidationError`: "Missing required parameters for function '…': …" -/
  | missingParameters (function : Text) (missing : List String)
  | assertionError
  | attributeError
  | keyError (key : Text)
  | typeError

/-- What the conversion takes from the interpreter and the platform. -/
structure Host extends FloatFormat where
  /-- `str(v)` of a list or a dictionary. -/
  containerText : PyJson → Text
  /-- `sys.platform == 'win32'`. -/
  win32 : Bool

/-! ## The texts of values and tools -/

/-- `f'{v}'`. -/
def formatValue (host : Host) : PyJson → Text
  | .null => "None".toList
  | .bool true => "True".toList
  | .bool false => "False".toList
  | .int i => intText i
  | .float x => host.text x
  | .str s => s.toList
  | .arr items => host.containerText (.arr items)
  | .obj entries => host.containerText (.obj entries)

/-- One line, or more with an enumeration, on the property at place `j`. -/
def describeParameter (host : Host) (required : List String) (param : String × ParamInfo)
    (j : ℕ) : Text :=
  let status := if param.1 ∈ required then "required" else "optional"
  let allowed :=
    match param.2.enum with
    | none => []
    | some values =>
      "\nAllowed values: [".toList
        ++ (", ".toList).intercalate
          (values.map fun v => "`".toList ++ formatValue host v ++ "`".toList)
        ++ "]".toList
  "  (".toList ++ Nat.toDigits 10 (j + 1) ++ ") ".toList ++ param.1.toList ++ " (".toList
    ++ (param.2.type.getD "string").toList ++ ", ".toList ++ status.toList ++ "): ".toList
    ++ (param.2.description.getD "No description provided").toList ++ allowed ++ "\n".toList

def describeParameters (host : Host) : Option Parameters → Text
  | none => "No parameters are required for this function.\n".toList
  | some parameters =>
    let properties := (parameters.properties.getD .empty).entries
    "Parameters:\n".toList ++ (properties.zipIdx.flatMap fun param =>
      describeParameter host (parameters.required.getD []) param.1 param.2)

/-- The description of the tool at place `i`. -/
def describeTool (host : Host) (tool : Tool) (i : ℕ) : Except FnCallError Text :=
  if tool.type ≠ "function" then .error .assertionError
  else
    match tool.function.description with
    | none => .error (.keyError "description".toList)
    | some description =>
      .ok ((if i > 0 then "\n".toList else []) ++ "---- BEGIN FUNCTION #".toList
        ++ Nat.toDigits 10 (i + 1) ++ ": ".toList ++ tool.function.name.toList ++ " ----\n".toList
        ++ "Description: ".toList ++ description.toList ++ "\n".toList
        ++ describeParameters host tool.function.parameters
        ++ "---- END FUNCTION #".toList ++ Nat.toDigits 10 (i + 1) ++ " ----\n".toList)

def convertToolsToDescription (host : Host) (tools : List Tool) : Except FnCallError Text :=
  (tools.zipIdx.mapM fun tool => describeTool host tool.1 tool.2).map List.flatten

/-- `refine_prompt`. -/
def refinePrompt (host : Host) (prompt : Text) : Text :=
  if host.win32 then
    replaceAll "bash".toList (by decide) "powershell".toList prompt
  else prompt

/-- The example for the tools that have one, or nothing. -/
def getExampleForTools (host : Host) (tools : List Tool) : Text :=
  let available (name : String) : Bool :=
    tools.any fun tool => tool.type = "function" && tool.function.name = name
  if ["execute_bash", "str_replace_editor", "browser", "finish", "edit_file"].any available then
    refinePrompt host (lstrip (exampleStart
      ++ (if available "execute_bash" then executeBashCheckDir else [])
      ++ (if available "str_replace_editor" then strReplaceEditorCreateFile
        else if available "edit_file" then editFileCreateFile else [])
      ++ (if available "execute_bash" then executeBashRunServer else [])
      ++ (if available "browser" then browserViewPage else [])
      ++ (if available "execute_bash" then executeBashKillServer else [])
      ++ (if available "str_replace_editor" then strReplaceEditorEditFile
        else if available "edit_file" then editFileEditFile else [])
      ++ (if available "execute_bash" then executeBashRunServerAgain else [])
      ++ (if available "finish" then finishExample else [])
      ++ exampleEnd))
  else []

/-! ## Writing messages without function calls -/

/-- A string value with a newline stands on lines of its own. -/
def isMultiline : PyJson → Bool
  | .str s => '\n' ∈ s.toList
  | _ => false

/-- A value as the text of a parameter. -/
def valueText (host : Host) : PyJson → Text
  | .arr items => dumps host.toFloatFormat (.arr items)
  | .obj entries => dumps host.toFloatFormat (.obj entries)
  | v => formatValue host v

/-- What stands between the tags. -/
def paramText (host : Host) (v : PyJson) : Text :=
  let padding := if isMultiline v then "\n".toList else []
  padding ++ valueText host v ++ padding

/-- One parameter of a call. -/
def paramTag (name text : Text) : Text :=
  "<parameter=".toList ++ name ++ ">".toList ++ text ++ "</parameter>".toList ++ "\n".toList

/-- A call: its name and its parameters. -/
def functionTag (name body : Text) : Text :=
  "<function=".toList ++ name ++ ">\n".toList ++ body ++ "</function>".toList

def convertToolCallToString (host : Host) (call : ToolCall) : Except FnCallError Text :=
  match call.function with
  | none => .error (.toolCallWithoutKey "function")
  | some function =>
    if call.id = none then .error (.toolCallWithoutKey "id")
    else if call.type = none then .error (.toolCallWithoutKey "type")
    else if call.type ≠ some "function".toList then .error .toolCallOfOtherType
    else
      match loads host.toFloatFormat function.arguments with
      | none => .error (.argumentsNotJson function.arguments)
      | some (.obj args) =>
        .ok (functionTag function.name
          (args.flatMap fun arg => paramTag arg.1.toList (paramText host arg.2)))
      -- only a dictionary has `items`
      | some _ => .error .attributeError

/-- The last item, when it is a text, replaced by `f` of its text. -/
def mapLastText (f : Text → Text) (items : List Item) : Option (List Item) :=
  match items.getLast? with
  | some (.text t cacheControl) => some (items.dropLast ++ [.text (f t) cacheControl])
  | _ => none

/-- The first text of a list, replaced by `f` of it. -/
def mapFirstText (f : Text → Text) : List Item → Option (List Item)
  | [] => none
  | .text t cacheControl :: items => some (.text (f t) cacheControl :: items)
  | item :: items => (mapFirstText f items).map (item :: ·)

/-- A content with a text of its own changed by `f`: the whole content, or the last item of a
list when that is a text; another list gets a new text. -/
def addText (f : Text → Text) (new : Text) : Content → Except FnCallError Content
  | .str t => .ok (.str (f t))
  | .items items => .ok (.items ((mapLastText f items).getD (items ++ [.text new false])))
  | .null => .error (.unexpectedContent .null)

/-- A system message's content with the description of the tools. -/
def addSystemPromptSuffix (suffix : Text) : Content → Except FnCallError Content :=
  addText (· ++ suffix) suffix

/-- An assistant message's content with a call after it. -/
def addToolCall (call : Text) : Content → Except FnCallError Content :=
  addText (fun t => lstrip (t ++ "\n\n".toList ++ call)) call

/-- The first user message's content with an example that is not empty. -/
def addExample (sample : Text) : Content → Except FnCallError Content
  | .str t => .ok (.str (sample ++ t ++ inContextLearningExampleSuffix))
  | .items (.text t cacheControl :: items) =>
    .ok (.items (.text (sample ++ t ++ inContextLearningExampleSuffix) cacheControl :: items))
  | .items items =>
    .ok (.items ([.text sample false] ++ items ++ [.text inContextLearningExampleSuffix false]))
  | .null => .error (.unexpectedContent .null)

/-- What stands before the result of a tool. -/
def resultHeader (name : Text) : Text :=
  "EXECUTION RESULT of [".toList ++ name ++ "]:\n".toList

/-- A tool message's content as the content of a user message. -/
def addResultHeader (header : Text) : Content → Except FnCallError Content
  | .str t => .ok (.str (header ++ t))
  | .items items =>
    .ok (.items ((mapFirstText (header ++ ·) items).getD (.text header false :: items)))
  | .null => .error (.unexpectedContent .null)

/-- `content[-1]['cache_control'] = {'type': 'ephemeral'}`. -/
def markLast : Content → Except FnCallError Content
  | .items items =>
    match items.getLast? with
    | some (.text t _) => .ok (.items (items.dropLast ++ [.text t true]))
    | some (.imageUrl url _) => .ok (.items (items.dropLast ++ [.imageUrl url true]))
    -- every list has an item here
    | none => .error .typeError
  -- a character takes no items
  | _ => .error .typeError

/-- An assistant's message without its call. -/
def withoutToolCalls (host : Host) (content : Content) :
    Option (List ToolCall) → Except FnCallError Content
  | none => .ok content
  | some [call] =>
    match convertToolCallToString host call with
    | .ok text => addToolCall text content
    | .error .attributeError => .error .attributeError
    | .error error => .error (.toolCallNotConverted call error)
  | some calls => .error (.notOneToolCall calls.length content)

def Message.isUser : Message → Bool
  | .user _ => true
  | _ => false

/-- One message in the format without function calls; `encountered` tells that the first
user message came before. -/
def convertFncallMessage (host : Host) (tools : List Tool) (suffix : Text)
    (addInContextLearningExample encountered : Bool) : Message → Except FnCallError Message
  | .system content => (addSystemPromptSuffix suffix content).map .system
  | .user content =>
    if !encountered && addInContextLearningExample && getExampleForTools host tools ≠ [] then
      (addExample (getExampleForTools host tools) content).map .user
    else .ok (.user content)
  | .assistant content toolCalls =>
    (withoutToolCalls host content toolCalls).map fun content => .assistant content none
  | .tool content name _ cacheControl =>
    (addResultHeader (resultHeader (name.getD "function".toList)) content).bind fun content =>
      (if cacheControl then markLast content else .ok content).map .user
  | .other role _ => .error (.unexpectedRole role)

def convertFncallMessages (host : Host) (tools : List Tool) (suffix : Text)
    (addInContextLearningExample : Bool) :
    Bool → List Message → Except FnCallError (List Message)
  | _, [] => .ok []
  | encountered, message :: messages =>
    (convertFncallMessage host tools suffix addInContextLearningExample encountered message).bind
      fun converted =>
        (convertFncallMessages host tools suffix addInContextLearningExample
          (encountered || (message.isUser && addInContextLearningExample)) messages).map
          (converted :: ·)

def convertFncallMessagesToNonFncallMessages (host : Host) (messages : List Message)
    (tools : List Tool) (addInContextLearningExample : Bool) :
    Except FnCallError (List Message) :=
  (convertToolsToDescription host tools).bind fun description =>
    convertFncallMessages host tools (systemPromptSuffix description)
      addInContextLearningExample false messages

/-! ## Patterns -/

/-- `<function=([^>]+)>\n(.*?)</function>`: the name and the body of a call. -/
def fnPattern : Pattern Char (Text × Text) where
  lead := "<function=".toList
  lead_ne_nil := by decide
  follow s :=
    (run (· ≠ '>') s).bind fun name =>
      (afterLiteral ">\n".toList name.2).bind fun s =>
        (cut "</function>".toList s).map fun body => ((name.1, body.1), body.2)
  follow_suffix := by
    intro s b rest h
    obtain ⟨name, hname, h⟩ := Option.bind_eq_some_iff.mp h
    obtain ⟨s', hliteral, h⟩ := Option.bind_eq_some_iff.mp h
    obtain ⟨body, hbody, h⟩ := Option.map_eq_some_iff.mp h
    cases h
    exact (cut_suffix hbody).trans ((afterLiteral_suffix hliteral).trans (run_suffix hname))

/-- `<parameter=([^>]+)>(.*?)</parameter>`: the name and the value of a parameter. -/
def paramPattern : Pattern Char (Text × Text) where
  lead := "<parameter=".toList
  lead_ne_nil := by decide
  follow s :=
    (run (· ≠ '>') s).bind fun name =>
      (afterLiteral ">".toList name.2).bind fun s =>
        (cut "</parameter>".toList s).map fun value => ((name.1, value.1), value.2)
  follow_suffix := by
    intro s b rest h
    obtain ⟨name, hname, h⟩ := Option.bind_eq_some_iff.mp h
    obtain ⟨s', hliteral, h⟩ := Option.bind_eq_some_iff.mp h
    obtain ⟨value, hvalue, h⟩ := Option.map_eq_some_iff.mp h
    cases h
    exact (cut_suffix hvalue).trans ((afterLiteral_suffix hliteral).trans (run_suffix hname))

/-- `EXECUTION RESULT of \[(.*?)\]:\n(.*)`: the name of the tool and its result. -/
def toolResultPattern : Pattern Char (Text × Text) where
  lead := "EXECUTION RESULT of [".toList
  lead_ne_nil := by decide
  follow s := (cut "]:\n".toList s).map fun name => ((name.1, name.2), [])
  follow_suffix := by
    intro s b rest h
    obtain ⟨name, -, h⟩ := Option.map_eq_some_iff.mp h
    cases h
    exact List.nil_suffix

/-- A character of `[a-zA-Z0-9_]`. -/
def isWord (c : Char) : Bool := c.isAlphanum || c = '_'

/-- `<parameter=([a-zA-Z0-9_]+)=([^<]*)</parameter>`: a name and a value without the bracket
between them. -/
def malformedPattern : Pattern Char (Text × Text) where
  lead := "<parameter=".toList
  lead_ne_nil := by decide
  follow s :=
    (run isWord s).bind fun name =>
      (afterLiteral "=".toList name.2).bind fun s =>
        (afterLiteral "</parameter>".toList (s.dropWhile (· ≠ '<'))).map fun rest =>
          ((name.1, s.takeWhile (· ≠ '<')), rest)
  follow_suffix := by
    intro s b rest h
    obtain ⟨name, hname, h⟩ := Option.bind_eq_some_iff.mp h
    obtain ⟨s', hliteral, h⟩ := Option.bind_eq_some_iff.mp h
    obtain ⟨after, hafter, h⟩ := Option.map_eq_some_iff.mp h
    cases h
    exact (afterLiteral_suffix hafter).trans ((List.dropWhile_suffix _).trans
      ((afterLiteral_suffix hliteral).trans (run_suffix hname)))

/-! ## Reading messages without function calls -/

/-- `_normalize_parameter_tags`. -/
def normalizeParameterTags (fnBody : Text) : Text :=
  malformedPattern.sub (fun found => "<parameter=".toList ++ found.1 ++ ">".toList ++ found.2
    ++ "</parameter>".toList) fnBody

/-- `_fix_stopword`. -/
def fixStopword (content : Text) : Text :=
  if "<function=".toList <:+: content ∧ count "<function=".toList (by decide) content = 1 then
    if "</".toList <:+ content then rstrip content ++ "function>".toList
    else content ++ "\n</function>".toList
  else content

/-- Digits, with single underscores between them. -/
def isDigits : Text → Bool
  | [] => false
  | c :: s =>
    c.isDigit &&
      match s with
      | [] => true
      | '_' :: s => isDigits s
      | s => isDigits s

/-- `int(s)` without its sign. -/
def parseDigits (s : Text) : Option ℤ :=
  if isDigits s then some (Nat.ofDigitChars 10 (s.filter (· ≠ '_')) 0) else none

/-- `int(s)`. -/
def parseInt (s : Text) : Option ℤ :=
  match strip s with
  | '-' :: digits => (parseDigits digits).map Neg.neg
  | '+' :: digits => parseDigits digits
  | digits => parseDigits digits

/-- `matching_tool['parameters']['properties']`, or the key that is missing. -/
def Function.properties (function : Function) : Except FnCallError (PyDict String ParamInfo) :=
  match function.parameters with
  | none => .error (.keyError "parameters".toList)
  | some parameters =>
    match parameters.properties with
    | none => .error (.keyError "properties".toList)
    | some properties => .ok properties

/-- The value of one parameter, of the type that the schema gives it. -/
def paramValue (host : Host) (info : ParamInfo) (name text : Text) : Except FnCallError PyJson :=
  if info.type.getD "string" = "integer" then
    match parseInt text with
    | some i => .ok (.int i)
    | none => .error (.parameterNotInteger name)
  else if info.type.getD "string" = "array" then
    match loads host.toFloatFormat text with
    | some v => .ok v
    | none => .error (.parameterNotArray name)
  else .ok (.str (String.ofList text))

/-- A value of the enumeration, if there is one. -/
def inEnum (info : ParamInfo) (v : PyJson) : Bool :=
  match info.enum with
  | none => true
  | some values => values.any fun w => v.pyEq w

/-- One parameter that was found, checked against the schema. -/
def validateParam (host : Host) (function : Function) (fnName : Text) (found : Text × Text) :
    Except FnCallError (String × PyJson) :=
  let name := String.ofList found.1
  match function.properties with
  | .error error => .error error
  | .ok properties =>
    match properties.get? name with
    | none =>
      if properties.keys ≠ [] then
        .error (.parameterNotAllowed found.1 fnName properties.keys)
      else .error (.keyError found.1)
    | some info =>
      (paramValue host info found.1 found.2).bind fun v =>
        if inEnum info v then .ok (name, v)
        else .error (.parameterNotInEnum found.1 (info.enum.getD []))

/-- `required` of the schema, or nothing. -/
def Function.required (function : Function) : List String :=
  (function.parameters.bind Parameters.required).getD []

/-- `_extract_and_validate_params`. -/
def extractAndValidateParams (host : Host) (function : Function)
    (paramMatches : List (Text × Text)) (fnName : Text) :
    Except FnCallError (PyDict String PyJson) :=
  (paramMatches.mapM (validateParam host function fnName)).bind fun found =>
    let params := PyDict.ofEntries found
    let missing := function.required.filter fun name => name ∉ params.keys
    if missing = [] then .ok params else .error (.missingParameters fnName missing)

/-- `content or ''`. -/
def Content.orEmpty : Content → Content
  | .null => .str []
  | .items [] => .str []
  | content => content

/-- The texts of a content, changed by `f`. -/
def Content.mapTexts (f : Text → Text) : Content → Content
  | .null => .null
  | .str t => .str (f t)
  | .items list => .items (list.map fun item =>
      match item with
      | .text t cacheControl => .text (f t) cacheControl
      | .imageUrl url cacheControl => .imageUrl url cacheControl)

/-- The texts of a content. -/
def Content.texts : Content → List Text
  | .null => []
  | .str t => [t]
  | .items list => list.filterMap fun item =>
      match item with
      | .text t _ => some t
      | .imageUrl _ _ => none

/-- A content with its text changed by `f`: the whole content, or the last item of a list. -/
def Content.mapLastText (f : Text → Text) : Content → Content
  | .null => .null
  | .str t => .str (f t)
  | .items list => .items ((FnCall.mapLastText f list).getD list)

/-- The text of a content: the whole content, or the last item of a list. -/
def Content.lastText : Content → Option Text
  | .null => none
  | .str t => some t
  | .items list =>
    match list.getLast? with
    | some (.text t _) => some t
    | _ => none

/-- A system message without the description of the tools. -/
def removeSystemPromptSuffix (suffix : Text) : Content → Content :=
  Content.mapLastText (splitHead suffix)

/-- The first user message without the example. -/
def removeExample (sample text : Text) : Text :=
  let text := if sample <+: text then replaceFirst sample [] text else text
  if inContextLearningExampleSuffix <:+ text then
    replaceFirst inContextLearningExampleSuffix [] text
  else text

/-- `f'toolu_{n:02d}'`. -/
def toolCallId (n : ℕ) : Text :=
  "toolu_".toList ++ (if n < 10 then ['0'] else []) ++ Nat.toDigits 10 n

/-- The loop's variables. -/
structure ReadState where
  firstUserMessageEncountered : Bool := false
  toolCallCounter : ℕ := 1

/-- A user message, or the result of a tool. -/
def readUserMessage (host : Host) (tools : List Tool) (state : ReadState) (content : Content) :
    Message :=
  let content :=
    if state.firstUserMessageEncountered then content.orEmpty
    else content.orEmpty.mapTexts (removeExample (getExampleForTools host tools))
  match content.texts.findSome? toolResultPattern.search with
  | none => .user content
  | some result =>
    .tool
      (match content with
        | .items _ => .items [.text (strip result.2) false]
        | _ => .str (strip result.2))
      (some result.1) (some (toolCallId (state.toolCallCounter - 1))) false

/-- The content in which an assistant's call is looked for. -/
def fixContent : Content → Content := Content.mapLastText fixStopword

/-- `content.split('<function=')[0].strip()`. -/
def textBeforeCall (content : Text) : Text := strip (splitHead "<function=".toList content)

/-- The content without the call. -/
def removeCall : Content → Content := Content.mapLastText textBeforeCall

/-- The tools of type `function`. -/
def functions (tools : List Tool) : List Function :=
  (tools.filter fun tool => tool.type = "function").map Tool.function

/-- The first function of a name. -/
def findFunction (tools : List Tool) (name : Text) : Option Function :=
  (functions tools).find? fun function => function.name.toList = name

/-- An assistant's message in which a call was found, and the counter after it. -/
def readCall (host : Host) (tools : List Tool) (counter : ℕ) (content : Content)
    (fnMatch : Text × Text) : Except FnCallError (Message × ℕ) :=
  match findFunction tools fnMatch.1 with
  | none => .error (.functionNotFound fnMatch.1 ((functions tools).map Function.name))
  | some function =>
    (extractAndValidateParams host function
      (paramPattern.finditer (normalizeParameterTags fnMatch.2)) fnMatch.1).map fun params =>
        (.assistant (removeCall content) (some [{
          index := some 1
          id := some (toolCallId counter)
          type := some "function".toList
          function := some {
            name := fnMatch.1
            arguments := dumps host.toFloatFormat (.obj params.entries) } }]),
          counter + 1)

/-- An assistant's message, and the counter after it. -/
def readAssistantMessage (host : Host) (tools : List Tool) (counter : ℕ) (content : Content)
    (toolCalls : Option (List ToolCall)) : Except FnCallError (Message × ℕ) :=
  let fixed := fixContent content.orEmpty
  match fixed.lastText.bind fnPattern.search with
  | some fnMatch => readCall host tools counter fixed fnMatch
  | none =>
    if fixed.texts.any fun t => (fnPattern.search t).isSome then
      .error (.functionCallNotLast fixed)
    else
      -- the message stays; only the items of a list were changed in place
      match content with
      | .items items => .ok (.assistant (fixContent (.items items)) toolCalls, counter)
      | content => .ok (.assistant content toolCalls, counter)

/-- One message, and the loop's variables after it. -/
def convertNonFncallMessage (host : Host) (tools : List Tool) (suffix : Text)
    (state : ReadState) : Message → Except FnCallError (Message × ReadState)
  | .system content => .ok (.system (removeSystemPromptSuffix suffix content.orEmpty), state)
  | .user content =>
    .ok (readUserMessage host tools state content,
      { state with firstUserMessageEncountered := true })
  | .assistant content toolCalls =>
    (readAssistantMessage host tools state.toolCallCounter content toolCalls).map fun read =>
      (read.1, { state with toolCallCounter := read.2 })
  | .tool .. => .error (.unexpectedRole "tool".toList)
  | .other role _ => .error (.unexpectedRole role)

def convertNonFncallMessages (host : Host) (tools : List Tool) (suffix : Text) :
    ReadState → List Message → Except FnCallError (List Message)
  | _, [] => .ok []
  | state, message :: messages =>
    (convertNonFncallMessage host tools suffix state message).bind fun converted =>
      (convertNonFncallMessages host tools suffix converted.2 messages).map (converted.1 :: ·)

def convertNonFncallMessagesToFncallMessages (host : Host) (messages : List Message)
    (tools : List Tool) : Except FnCallError (List Message) :=
  (convertToolsToDescription host tools).bind fun description =>
    convertNonFncallMessages host tools (systemPromptSuffix description) {} messages

end OpenHands.FnCall
