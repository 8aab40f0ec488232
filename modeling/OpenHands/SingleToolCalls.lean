/-
# Single tool calls

A model that makes one call at a time gets a message with several calls as several
messages, each of them before the result of its call.  The calls wait in a dictionary until
their results come.
-/
import OpenHands.FnCallFormat
import OpenHands.Lib.PyDict
import Mathlib.Data.List.Pairwise
import Mathlib.Data.List.Perm.Lattice

namespace OpenHands.FnCall

open PyStr

/-! ## The splitting -/

/-- What the splitting raises, with what the message of the error shows. -/
inductive SplitError
  | keyError (key : String)
  /-- `AssertionError`: "Found pending tool calls but not found in pending list: …" -/
  | notInPendingList (pending : PyDict Text Message)
  /-- `AssertionError`: "Found pending tool calls but not expect to handle it with role …" -/
  | pendingAtOtherRole (pending : PyDict Text Message) (message : Message)
  /-- `FunctionCallConversionError`: "Found pending tool calls but no tool result: …" -/
  | noToolResult (pending : PyDict Text Message)

/-- The calls of a message, from the one at place `i`, as messages that wait for a result. -/
def addPendingToolCalls (content : Content) :
    ℕ → PyDict Text Message → List ToolCall → Except SplitError (PyDict Text Message)
  | _, pending, [] => .ok pending
  | i, pending, call :: calls =>
    match call.id with
    | none => .error (.keyError "id")
    | some id =>
      addPendingToolCalls content (i + 1)
        (pending.set id (.assistant (if i = 0 then content else .str []) (some [call]))) calls

/-- The messages that one message adds, and the calls that wait after it. -/
def splitMessage (pending : PyDict Text Message) :
    Message → Except SplitError (List Message × PyDict Text Message)
  | .assistant content toolCalls =>
    if (toolCalls.getD []).length > 1 then
      (addPendingToolCalls content 0 pending (toolCalls.getD [])).map fun pending => ([], pending)
    else .ok ([.assistant content toolCalls], pending)
  | .tool content name toolCallId cacheControl =>
    match toolCallId with
    | none => .error (.keyError "tool_call_id")
    | some id =>
      match pending.get? id with
      | some message =>
        .ok ([message, .tool content name toolCallId cacheControl], pending.pop id)
      | none =>
        if pending.keys = [] then .ok ([.tool content name toolCallId cacheControl], pending)
        else .error (.notInPendingList pending)
  | message =>
    if pending.keys = [] then .ok ([message], pending)
    else .error (.pendingAtOtherRole pending message)

def splitMessages : PyDict Text Message → List Message →
    Except SplitError (List Message × PyDict Text Message)
  | pending, [] => .ok ([], pending)
  | pending, message :: messages =>
    (splitMessage pending message).bind fun added =>
      (splitMessages added.2 messages).map fun rest => (added.1 ++ rest.1, rest.2)

def convertFromMultipleToolCallsToSingleToolCallMessages (messages : List Message)
    (ignoreFinalToolResult : Bool) : Except SplitError (List Message) :=
  (splitMessages .empty messages).bind fun converted =>
    if !ignoreFinalToolResult && converted.2.keys ≠ [] then .error (.noToolResult converted.2)
    else .ok converted.1

/-! ## Calls and their results -/

/-- The calls of a message. -/
def Message.toolCalls : Message → List ToolCall
  | .assistant _ toolCalls => toolCalls.getD []
  | _ => []

/-- The id of the call that a message is the result of. -/
def Message.resultId : Message → Option Text
  | .tool _ _ id _ => id
  | _ => none

/-- A message with several calls. -/
def Message.isSplit (message : Message) : Bool := message.toolCalls.length > 1

/-- Each message with calls is followed by one result for each of them, in any order. -/
inductive CallsAnswered : List Message → Prop
  | nil : CallsAnswered []
  | other {message : Message} {messages : List Message} (hcalls : message.toolCalls = [])
      (hresult : message.isTool → message.resultId ≠ none) (hrest : CallsAnswered messages) :
    CallsAnswered (message :: messages)
  | calls {message : Message} {results messages : List Message}
      (hcalls : message.toolCalls ≠ [])
      (hresults : (results.map Message.resultId).Perm (message.toolCalls.map ToolCall.id))
      (hrest : CallsAnswered messages) :
    CallsAnswered (message :: (results ++ messages))

/-- Messages whose calls have ids of their own and are answered. -/
structure ToolConversation (messages : List Message) : Prop where
  identified : ∀ call ∈ messages.flatMap Message.toolCalls, call.id ≠ none
  distinct : ((messages.flatMap Message.toolCalls).map ToolCall.id).Nodup
  answered : CallsAnswered messages

/-- The result of each single call comes directly after it. -/
def ResultsFollow : List Message → Prop
  | [] => True
  | message :: messages =>
    (∀ call, message.toolCalls = [call] →
      ∃ result rest, messages = result :: rest ∧ result.isTool ∧ result.resultId = call.id)
    ∧ ResultsFollow messages

/-- A message with a call of one of the messages that have several. -/
def isPartOf (messages : List Message) (message : Message) : Bool :=
  message.toolCalls.any fun call =>
    messages.any fun other => other.isSplit && other.toolCalls.any (·.id = call.id)

/-- The content of a message stands with one of its calls; the other calls come later, without
content and with their results. -/
def ContentFirst (message : Message) (converted : List Message) : Prop :=
  ∃ call ∈ message.toolCalls, ∃ before after,
    converted = before ++ .assistant message.content (some [call]) :: after
      ∧ ∀ other ∈ message.toolCalls, other ≠ call → ∃ between result rest,
        after = between ++ .assistant (.str []) (some [other]) :: result :: rest
          ∧ result.isTool ∧ result.resultId = other.id

/-- The messages with one call at a time. -/
structure SingleCalls (messages converted : List Message) : Prop where
  single : ∀ message ∈ converted, message.toolCalls.length ≤ 1
  results : ResultsFollow converted
  order : converted.filter (!isPartOf messages ·) = messages.filter (!·.isSplit)
  calls : (converted.flatMap Message.toolCalls).Perm (messages.flatMap Message.toolCalls)
  content : ∀ message ∈ messages, message.isSplit → ContentFirst message converted

/-- Directly after a message with several calls, and a content, comes the result of its first
call. -/
def FirstAnsweredFirst (messages : List Message) : Prop :=
  ∀ before message after, messages = before ++ message :: after → message.isSplit →
    message.content = .str []
      ∨ after.head?.bind Message.resultId = message.toolCalls.head?.bind ToolCall.id

end OpenHands.FnCall
