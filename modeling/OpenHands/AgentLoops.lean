/-
# The agent loops of the SaaS conversation manager

`SaasNestedConversationManager` keeps no list of conversations.  It asks redis for the
conversations that are starting, the runtime API for those that run, and the table of
conversation metadata for their users.
-/
import Mathlib.Data.Int.Notation
import Mathlib.Data.List.ReduceOption

namespace OpenHands.Saas

/-- A row of `conversation_metadata`, with the time of its last update. -/
structure StoredConversationMetadata where
  conversationId : String
  userId : String
  lastUpdatedAt : Option ℤ := none
  conversationVersion : String := "V0"
  deriving DecidableEq, Repr

/-- The table, whose primary key is the conversation id. -/
structure MetadataTable where
  rows : List StoredConversationMetadata
  nodup : (rows.map StoredConversationMetadata.conversationId).Nodup

/-- `.filter(conversation_id == conversation_id).first()`. -/
def MetadataTable.first (t : MetadataTable) (conversationId : String) :
    Option StoredConversationMetadata :=
  t.rows.find? fun row => row.conversationId = conversationId

/-- What the runtime API says of a runtime; any entry but the session id may be missing. -/
structure Runtime where
  sessionId : String
  runtimeId : Option String := none
  sessionApiKey : Option String := none
  status : Option String := none
  deriving DecidableEq, Repr

/-- The services behind the manager: the table, the runtimes as a list and one by one, the
redis keys that match a pattern, and the URL of a conversation in a runtime. -/
structure Services where
  metadata : MetadataTable
  runtimes : List Runtime := []
  runtimeOf : String → Option Runtime := fun _ => none
  scanIter : String → List String := fun _ => []
  nestedUrl : String → String → String := fun runtimeId conversationId =>
    runtimeId ++ "/api/conversations/" ++ conversationId

/-- The exceptions of the lookups. -/
inductive LookupError where
  | attributeError | valueError | keyError | indexError
  | unavailable
  deriving DecidableEq, Repr

/-- An `AgentLoopInfo` with the user of its event store. -/
structure AgentLoopInfo where
  conversationId : String
  url : Option String
  sessionApiKey : Option String
  userId : String
  deriving DecidableEq, Repr

/-- `_get_redis_conversation_key`. -/
def redisConversationKey (userId conversationId : String) : String :=
  "ohcnv:" ++ userId ++ ":" ++ conversationId

/-- `key.decode().split(':')[1:]`, unpacked into two. -/
def splitKey (key : String) : Except LookupError (String × String) :=
  match (key.toList.splitOn ':').tail with
  | [userId, conversationId] => .ok (String.ofList userId, String.ofList conversationId)
  | _ => .error .valueError

/-- `filter_to_sids is None or conversation_id in filter_to_sids`. -/
def inFilter (filterToSids : Option (List String)) (conversationId : String) : Bool :=
  match filterToSids with
  | none => true
  | some sids => conversationId ∈ sids

/-- A conversation of redis has no key yet. -/
def startingInfo (key : String × String) : AgentLoopInfo where
  conversationId := key.2
  url := none
  sessionApiKey := none
  userId := key.1

namespace Services

variable (S : Services)

/-- `_get_user_id_from_conversation`. -/
def getUserIdFromConversation (conversationId : String) : Except LookupError String :=
  match S.metadata.first conversationId with
  | some row => .ok row.userId
  | none => .error .valueError

/-- The info of a running conversation; one whose user is not found is left out. -/
def runningInfo (userId : Option String) (runtime : Runtime) :
    Except LookupError (Option AgentLoopInfo) :=
  let userIdForConvo :=
    match userId.filter (· ≠ "") with
    | some userId => some userId
    | none => (S.getUserIdFromConversation runtime.sessionId).toOption
  match userIdForConvo with
  | none => .ok none
  | some userId =>
    match runtime.runtimeId with
    | none => .error .keyError
    | some runtimeId =>
      .ok (some
        { conversationId := runtime.sessionId
          url := some (S.nestedUrl runtimeId runtime.sessionId)
          sessionApiKey := runtime.sessionApiKey
          userId := userId })

/-- The runtimes that are asked for. -/
def candidates (filterToSids : Option (List String)) : List Runtime :=
  match filterToSids with
  | some [sid] => ((S.runtimeOf sid).map fun runtime => { runtime with sessionId := sid }).toList
  | _ => S.runtimes

/-- `get_agent_loop_info`. -/
def getAgentLoopInfo (userId : Option String) (filterToSids : Option (List String)) :
    Except LookupError (List AgentLoopInfo) :=
  if filterToSids = some [] then .ok []
  else
    let pattern :=
      match userId.filter (· ≠ "") with
      | some userId => redisConversationKey userId "*"
      | none => redisConversationKey "*" "*"
    ((S.scanIter pattern).mapM splitKey).bind fun keys =>
      let conversationIds := keys.map Prod.snd
      let starting := (keys.filter fun key => inFilter filterToSids key.2).map startingInfo
      let runtimes := (S.candidates filterToSids).filter fun runtime =>
        runtime.sessionId ∉ conversationIds ∧ inFilter filterToSids runtime.sessionId
      (runtimes.mapM (S.runningInfo userId)).map fun running => starting ++ running.reduceOption

end Services

end OpenHands.Saas
