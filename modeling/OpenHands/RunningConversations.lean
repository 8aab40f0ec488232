/-
# The limit on running conversations

Before the manager starts a conversation it pauses the oldest ones of the user, so that
fewer than a limit are running.  Which ones run comes from the runtime API, by their session
ids; which ones belong to the user comes from a query of the metadata table.
-/
import Mathlib.Data.Finset.Card
import Mathlib.Data.Int.Order.Basic
import OpenHands.AgentLoops
import OpenHands.Lib.OldestFirst

namespace OpenHands.Saas

/-- A member of a set of conversation ids: a string, or a row of a query of one column, which
is never equal to a string. -/
inductive Element where
  | str (id : String)
  | row (id : String)
  deriving DecidableEq, Repr

/-- The order in which the members of a set are met. -/
structure IterationOrder where
  toList : Finset Element → List Element
  nodup : ∀ s, (toList s).Nodup
  mem : ∀ s x, x ∈ toList s ↔ x ∈ s

/-- `ConversationMetadata`, as far as the limit looks at it. -/
structure ConversationMetadata where
  conversationId : String
  lastUpdatedAt : Option ℤ := none
  deriving DecidableEq, Repr

/-- `_last_updated_at_key`, in microseconds. -/
def lastUpdatedAtKey (conversation : ConversationMetadata) : ℤ :=
  conversation.lastUpdatedAt.getD 0

/-- `timedelta(days=7)`, in microseconds. -/
def oneWeek : ℤ := 7 * 24 * 60 * 60 * 1000000

/-- `last_updated_at >= t` of a query, which no missing time fulfils. -/
def StoredConversationMetadata.updatedSince (row : StoredConversationMetadata) (t : ℤ) : Bool :=
  match row.lastUpdatedAt with
  | some u => t ≤ u
  | none => false

namespace Services

variable (S : Services) (order : IterationOrder) (now : ℤ)

/-- `_get_all_running_conversation_ids`. -/
def getAllRunningConversationIds : Finset Element :=
  ((S.runtimes.filter fun runtime => runtime.status = some "running").map fun runtime =>
    Element.str runtime.sessionId).toFinset

/-- `_get_recent_conversation_ids_for_user`: the set of the rows of the query. -/
def getRecentConversationIdsForUser (userId : String) : Finset Element :=
  ((S.metadata.rows.filter fun row =>
    row.userId = userId ∧ row.updatedSince (now - oneWeek)).map fun row =>
      Element.row row.conversationId).toFinset

/-- `get_running_agent_loops`. -/
def getRunningAgentLoops (userId : Option String) (filterToSids : Option (List String)) :
    Finset Element :=
  let conversationIds := S.getAllRunningConversationIds
  let conversationIds :=
    match filterToSids with
    | none => conversationIds
    | some sids => conversationIds.filter fun id => id ∈ sids.map Element.str
  match userId.filter (· ≠ "") with
  | some userId => conversationIds ∩ S.getRecentConversationIdsForUser now userId
  | none => conversationIds

/-- `get_metadata` of the store of a user; `none` where it raises, also for a row without a
time. -/
def getMetadata (userId : String) (id : Element) : Option ConversationMetadata :=
  match id with
  | .row _ => none
  | .str id =>
    (S.metadata.rows.find? fun row =>
      row.userId = userId ∧ row.conversationId = id ∧ row.conversationVersion = "V0").bind
        fun row => row.lastUpdatedAt.map fun t =>
          { conversationId := row.conversationId, lastUpdatedAt := some t }

/-- `get_all_metadata`, which raises if one of the lookups does. -/
def getAllMetadata (userId : String) (ids : List Element) : Option (List ConversationMetadata) :=
  ids.mapM (S.getMetadata userId)

/-- `close_session` where the pause succeeds. -/
def closeSession (sid : String) : Services :=
  { S with
    runtimes := S.runtimes.map fun runtime =>
      if runtime.sessionId = sid then { runtime with status := some "paused" } else runtime }

/-- `ensure_num_conversations_below_limit`: the services afterwards and the sessions closed,
unless it raises. -/
def ensureNumConversationsBelowLimit (userId : String) (maxConcurrentConversations : ℕ) :
    Option (Services × List String) :=
  let responseIds := S.getRunningAgentLoops now (some userId) none
  if maxConcurrentConversations ≤ responseIds.card then
    (S.getAllMetadata userId (order.toList responseIds)).bind fun conversations =>
      (OldestFirst.evict lastUpdatedAtKey maxConcurrentConversations conversations).map
        fun evicted =>
          let closed := evicted.1.map ConversationMetadata.conversationId
          (closed.foldl closeSession S, closed)
  else some (S, [])

/-! ## What the limit promises -/

/-- The conversations that run. -/
def runningIds : Finset String :=
  ((S.runtimes.filter fun runtime => runtime.status = some "running").map
    Runtime.sessionId).toFinset

/-- The conversations of a user that were updated in the past week. -/
def recentRows (userId : String) : List StoredConversationMetadata :=
  S.metadata.rows.filter fun row => row.userId = userId ∧ row.updatedSince (now - oneWeek)

/-- Those of them that run. -/
def recentRunning (userId : String) : Finset String :=
  S.runningIds ∩ ((S.recentRows now userId).map
    StoredConversationMetadata.conversationId).toFinset

/-- The time of the last update of a conversation. -/
def lastUpdate (conversationId : String) : Option ℤ :=
  (S.metadata.first conversationId).bind StoredConversationMetadata.lastUpdatedAt

/-- `get_running_agent_loops` gives the recent running conversations of the user; afterwards
fewer than the limit are running, and none that was closed is newer than one of them. -/
def LimitHolds (userId : String) (maxConcurrentConversations : ℕ) : Prop :=
  S.getRunningAgentLoops now (some userId) none
      = (S.recentRunning now userId).image Element.str ∧
    ∃ S' closed,
      S.ensureNumConversationsBelowLimit order now userId maxConcurrentConversations
          = some (S', closed) ∧
        (S'.recentRunning now userId).card < maxConcurrentConversations ∧
        ∀ id ∈ closed, id ∈ S.recentRunning now userId ∧
          ∀ other ∈ S'.recentRunning now userId, ∀ t u,
            S.lastUpdate id = some t → S.lastUpdate other = some u → t ≤ u

end Services

end OpenHands.Saas
