/-
# The function-calling format

The messages that the converter is made for, what it means that they come back, and which
of them do.
-/
import Mathlib
import OpenHands.FnCallArguments

namespace OpenHands.FnCall

open PyStr PyRe JsonText

/-! ## The same messages -/

/-- The same item, up to the whitespace around its text. -/
inductive SameItem : Item → Item → Prop
  | text {s t : Text} (cacheControl : Bool) (h : SameText s t) :
    SameItem (.text s cacheControl) (.text t cacheControl)
  | imageUrl (url : Text) (cacheControl : Bool) :
    SameItem (.imageUrl url cacheControl) (.imageUrl url cacheControl)

/-- The same content, up to the whitespace around its texts. -/
inductive SameContent : Content → Content → Prop
  | null : SameContent .null .null
  | str {s t : Text} (h : SameText s t) : SameContent (.str s) (.str t)
  | items {xs ys : List Item} (h : List.Forall₂ SameItem xs ys) :
    SameContent (.items xs) (.items ys)

/-- A call of the same function with the same arguments; its id may differ. -/
def SameCall (host : Host) (call call' : ToolCall) : Prop :=
  call.index = call'.index ∧ call.type = call'.type ∧
    ∃ function function', call.function = some function ∧ call'.function = some function' ∧
      function.name = function'.name ∧
        ∃ args, loads host.toFloatFormat function.arguments = some args
          ∧ loads host.toFloatFormat function'.arguments = some args

/-- The same message, up to ids and the whitespace around texts. -/
inductive SameMessage (host : Host) : Message → Message → Prop
  | system {c c' : Content} (h : SameContent c c') : SameMessage host (.system c) (.system c')
  | user {c c' : Content} (h : SameContent c c') : SameMessage host (.user c) (.user c')
  | assistant {c c' : Content} (h : SameContent c c') :
    SameMessage host (.assistant c none) (.assistant c' none)
  | call {c c' : Content} {call call' : ToolCall} (h : SameContent c c')
      (hcall : SameCall host call call') :
    SameMessage host (.assistant c (some [call])) (.assistant c' (some [call']))
  | tool {c c' : Content} (h : SameContent c c') (name id id' : Option Text)
      (cacheControl : Bool) :
    SameMessage host (.tool c name id cacheControl) (.tool c' name id' cacheControl)

/-- The id of the call in a message. -/
def Message.callId : Message → Option Text
  | .assistant _ (some (call :: _)) => call.id
  | _ => none

/-- Every result carries the id of the call made last. -/
def AnswersLatest : Option Text → List Message → Prop
  | _, [] => True
  | latest, message :: messages =>
    (match message with
      | .tool _ _ id _ => id ≠ none ∧ id = latest
      | _ => True) ∧ AnswersLatest (message.callId.or latest) messages

/-- The same messages, with the calls numbered anew. -/
structure SameMessages (host : Host) (messages converted : List Message) : Prop where
  each : List.Forall₂ (SameMessage host) messages converted
  answers : AnswersLatest none converted
  distinct : (converted.filterMap Message.callId).Nodup

/-- Written without function calls and read back, the messages are the same. -/
def ComesBack (host : Host) (tools : List Tool) (messages : List Message) : Prop :=
  ∃ written read, convertFncallMessagesToNonFncallMessages host messages tools true = .ok written
    ∧ convertNonFncallMessagesToFncallMessages host written tools = .ok read
    ∧ SameMessages host messages read

/-! ## The messages of the format -/

def Message.content : Message → Content
  | .system content => content
  | .user content => content
  | .assistant content _ => content
  | .tool content _ _ _ => content
  | .other _ content => content

def Message.isSystem : Message → Bool
  | .system _ => true
  | _ => false

/-- The function that a message calls. -/
def Message.functionCall : Message → Option FunctionCall
  | .assistant _ (some [call]) => call.function
  | _ => none

/-- The arguments are those of a function among the tools, and free of the markers. -/
def WellTyped (host : Host) (tools : List Tool) (call : FunctionCall) : Prop :=
  ∃ function, findFunction tools call.name = some function ∧
    ∀ args, loads host.toFloatFormat call.arguments = some (.obj args) →
      Fits function args ∧
        ∀ arg ∈ args, MarkerFree arg.1.toList ∧ MarkerFree (valueText host arg.2)

/-- A message with texts and arguments of the format. -/
structure InFormat (host : Host) (tools : List Tool) (message : Message) : Prop where
  texts : ∀ t ∈ message.content.texts, MarkerFree t
  call : ∀ call ∈ message.functionCall, WellTyped host tools call

/-- Messages in the function-calling format: the encoder accepts them, the system message
comes first, and every result answers the call made last. -/
structure Conversation (host : Host) (tools : List Tool) (messages : List Message) : Prop where
  accepted : ∃ written,
    convertFncallMessagesToNonFncallMessages host messages tools true = .ok written
  system : ∃ content others, messages = .system content :: others
    ∧ ∀ message ∈ others, message.isSystem = false
  answers : AnswersLatest none messages
  each : ∀ message ∈ messages, InFormat host tools message

/-! ## The messages that come back -/

/-- Neither the example nor its suffix seems to stand around the text. -/
def Untouched (sample t : Text) : Prop :=
  (sample = [] ∨ ¬ sample <+: t) ∧ ¬ inContextLearningExampleSuffix <:+ t

/-- The suffix that was put behind the text is found behind the text. -/
def SuffixRemoved (t : Text) : Prop :=
  SameText t (replaceFirst inContextLearningExampleSuffix []
    (t ++ inContextLearningExampleSuffix))

/-- A content that comes back from the first user message, which got the example. -/
def ExampleRemoved (sample : Text) : Content → Prop
  | .str t => SuffixRemoved t
  | .items (.text t _ :: items) =>
    SuffixRemoved t ∧ ∀ u ∈ (Content.items items).texts, Untouched sample u
  | _ => False

/-- A user message comes back when its content is neither missing nor an empty list and the
example, or nothing, is taken away from the first one; `asked` tells that a user message came
before, `answered` that a result did. -/
def UserKept (sample : Text) (asked answered : Bool) (content : Content) : Prop :=
  content.orEmpty = content ∧
    (asked = true
      ∨ (sample = [] ∧ (answered = true ∨ ∀ t ∈ content.texts, Untouched [] t))
      ∨ (sample ≠ [] ∧ answered = false ∧ ExampleRemoved sample content))

/-- A result comes back when it is one text under a name that does not look like the end of
the header, and, as the first message of the user's role, does not end with the example's
suffix. -/
def ToolKept (encountered : Bool) (content : Content) (name : Option Text)
    (cacheControl : Bool) : Prop :=
  cacheControl = false ∧ ∃ n t, name = some n ∧ ¬ "]:\n".toList <:+: n
    ∧ (content = .str t ∨ content = .items [.text t false])
    ∧ (encountered = true ∨ ¬ inContextLearningExampleSuffix <:+ resultHeader n ++ t)

/-- A call comes back with its name and all its arguments. -/
def CallKept (host : Host) (tools : List Tool) (call : ToolCall) : Prop :=
  call.index = some 1 ∧ ∃ functionCall function args, call.function = some functionCall
    ∧ findFunction tools functionCall.name = some function
    ∧ loads host.toFloatFormat functionCall.arguments = some (.obj args)
    ∧ WellNamed functionCall.name ∧ ArgumentsKept host function args

/-- An assistant's message comes back when its call does and has a text to stand behind. -/
def AssistantKept (host : Host) (tools : List Tool) (content : Content) :
    Option (List ToolCall) → Prop
  | none => True
  | some [call] => content.lastText.isSome ∧ CallKept host tools call
  | some _ => False

/-- The message comes back; `asked` tells that a user message came before, `answered` that a
result did. -/
def MessageKept (host : Host) (tools : List Tool) (asked answered : Bool) : Message → Prop
  | .system content => content.lastText.isSome
  | .user content => UserKept (getExampleForTools host tools) asked answered content
  | .assistant content toolCalls => AssistantKept host tools content toolCalls
  | .tool content name _ cacheControl => ToolKept (asked || answered) content name cacheControl
  | .other _ _ => False

def Message.isTool : Message → Bool
  | .tool .. => true
  | _ => false

/-- Each message comes back after those before it. -/
def MessagesKept (host : Host) (tools : List Tool) : Bool → Bool → List Message → Prop
  | _, _, [] => True
  | asked, answered, message :: messages =>
    MessageKept host tools asked answered message
      ∧ MessagesKept host tools (asked || message.isUser) (answered || message.isTool) messages

end OpenHands.FnCall
