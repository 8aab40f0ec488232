/-
# The batch requests of the event webhook

`_process_batch_operations_background` takes the file operations of a nested runtime one
after the other.  The session key of the request is checked against that of a conversation
when an operation belongs to another conversation than the one before; two variables of the
loop remember which conversation that was and whose it is.
-/
import OpenHands.AgentLoops
import OpenHands.BatchOperation
import OpenHands.Lib.PyJson

namespace OpenHands.EventWebhook

open Saas WebHook

/-- What an operation does behind the check. -/
inductive Effect where
  | updateAgentState (userId : Option String) (conversationId : String) (content : ByteArray)
  | updateConversationStats (userId : Option String) (conversationId : String)
      (content : ByteArray)
  | updateConversationMetadata (conversationId : String) (content : PyJson)
  | processEvent (userId : Option String) (conversationId subpath : String) (content : PyJson)

/-- The conversation an effect is about. -/
def Effect.conversationId : Effect → String
  | updateAgentState _ conversationId _ => conversationId
  | updateConversationStats _ conversationId _ => conversationId
  | updateConversationMetadata conversationId _ => conversationId
  | processEvent _ conversationId _ _ => conversationId

/-- The user an effect is done for; metadata belong to the conversation alone. -/
def Effect.userId? : Effect → Option (Option String)
  | updateAgentState userId _ _ => some userId
  | updateConversationStats userId _ _ => some userId
  | updateConversationMetadata _ _ => none
  | processEvent userId _ _ _ => some userId

/-- Which lookups of an operation break down. -/
structure Faults where
  user : Bool := false
  key : Bool := false
  deriving DecidableEq, Repr

/-- An operation of the request with the faults it meets. -/
abbrev Item := BatchOperation × Faults

/-- `_parse_conversation_id_and_subpath`. -/
def parseConversationIdAndSubpath (path : String) : Option (String × String) :=
  let items := path.toList.splitOn '/'
  if items.head? = some "sessions".toList then
    (items[1]?).map fun conversationId =>
      (String.ofList conversationId, String.ofList (['/'].intercalate (items.drop 2)))
  else none

section Lookups

variable (S : Services) (faults : Faults)

/-- `_get_user_id`. -/
def getUserId (conversationId : String) : Except LookupError String :=
  if faults.user then .error .unavailable
  else
    match S.metadata.first conversationId with
    | some row => .ok row.userId
    | none => .error .attributeError

/-- `_get_session_api_key`. -/
def getSessionApiKey (userId conversationId : String) : Except LookupError (Option String) :=
  if faults.key then .error .unavailable
  else
    (S.getAgentLoopInfo (some userId) (some [conversationId])).bind fun infos =>
      match infos.head? with
      | some info => .ok info.sessionApiKey
      | none => .error .indexError

end Lookups

section Loop

variable (S : Services) (loads : ByteArray → Option PyJson) (xSessionApiKey : Option String)

/-- The call an operation leads to, if its content can be read. -/
def dispatch (userId : Option String) (conversationId subpath : String) (op : BatchOperation) :
    Option Effect :=
  let content := op.getContent.toOption
  let contentJson := content.bind loads
  if subpath = "agent_state.pkl" then content.map (.updateAgentState userId conversationId)
  else if subpath = "conversation_stats.pkl" then
    content.map (.updateConversationStats userId conversationId)
  else if subpath = "metadata.json" then
    contentJson.map (.updateConversationMetadata conversationId)
  else if "events/".toList.isPrefixOf subpath.toList then
    contentJson.map (.processEvent userId conversationId subpath)
  else none

/-- The conversation and the subpath of an operation that is not skipped. -/
def routed (op : BatchOperation) : Option (String × String) :=
  if op.method ≠ .POST then none
  else if op.path ∈ ["settings.json", "secrets.json"] then none
  else parseConversationIdAndSubpath op.path

/-- The variables of the loop. -/
structure LoopVars where
  prevConversationId : Option String := none
  userId : Option String := none
  deriving DecidableEq, Repr

/-- The check of the session key, and whether the operation goes on behind it. -/
def recheck (faults : Faults) (v : LoopVars) (conversationId : String) : LoopVars × Bool :=
  if some conversationId ≠ v.prevConversationId then
    match getUserId S faults conversationId with
    | .error _ => (v, false)
    | .ok userId =>
      let v := { v with userId := some userId }
      match getSessionApiKey S faults userId conversationId with
      | .error _ => (v, false)
      | .ok sessionApiKey =>
        ({ v with prevConversationId := some conversationId }, sessionApiKey = xSessionApiKey)
  else (v, true)

/-- The loop body: the variables behind an operation and what it did. -/
def processOperation (v : LoopVars) (item : Item) : LoopVars × Option Effect :=
  match routed item.1 with
  | none => (v, none)
  | some (conversationId, subpath) =>
    let (v, goesOn) := recheck S xSessionApiKey item.2 v conversationId
    (v, if goesOn then dispatch loads v.userId conversationId subpath item.1 else none)

/-- `_process_batch_operations_background`: the variables and everything that was done. -/
def processBatchOperationsBackground (items : List Item) : LoopVars × List Effect :=
  items.foldl (fun s item =>
    let (v, effect) := processOperation S loads xSessionApiKey s.1 item
    (v, s.2 ++ effect.toList)) ({}, [])

end Loop

end OpenHands.EventWebhook
