/-
# Starting one more conversation in a cluster

A start in a cluster sets its key in redis before it counts the conversations of the user, so
that the conversation being started is counted too, and the limit is raised by one to make
up for it.  If the limit is reached the oldest of the conversations that were counted are
closed.  Closing one reaches the servers that have registered it, and nothing else.
-/
import Mathlib.Data.Finset.Card
import OpenHands.ClusteredLoops
import OpenHands.RunningConversations

namespace OpenHands.Clustered

open Saas (ConversationMetadata lastUpdatedAtKey)

/-- The order in which the members of a set are met. -/
structure SetOrder (α : Type*) where
  toList : Finset α → List α
  nodup : ∀ s, (toList s).Nodup
  mem : ∀ s x, x ∈ toList s ↔ x ∈ s

/-- The conversation store of a user; `getMetadata` is `none` where it raises. -/
structure ConversationStore where
  getMetadata : String → Option ConversationMetadata
  conversationId_eq : ∀ id c, getMetadata id = some c → c.conversationId = id

/-- `get_all_metadata`, which raises if one of the lookups does. -/
def ConversationStore.getAllMetadata (store : ConversationStore) (ids : List String) :
    Option (List ConversationMetadata) :=
  ids.mapM store.getMetadata

/-- An agent loop: its conversation, and the user of its session, who has an id. -/
structure Loop where
  sid : String
  userId : String
  userId_ne : userId ≠ ""
  deriving DecidableEq, Repr

def Loop.key (loop : Loop) : ConversationKey := ⟨some loop.userId, loop.sid⟩

/-- The loops registered here and on the other servers, and the starts in progress; a key in
redis stands for each of them. -/
structure Cluster where
  here : List Loop := []
  elsewhere : List Loop := []
  starting : List Loop := []
  deriving DecidableEq, Repr

namespace Cluster

variable (cluster : Cluster)

def redisKeys : List ConversationKey :=
  (cluster.here ++ cluster.elsewhere ++ cluster.starting).map Loop.key

/-- `get_running_agent_loops_locally`. -/
def getRunningAgentLoopsLocally (userId : String) : Finset String :=
  ((cluster.here.filter fun loop => userId = "" ∨ loop.userId = userId).map Loop.sid).toFinset

/-- `_get_running_agent_loops_remotely`. -/
def getRunningAgentLoopsRemotely (userId : String) : Finset String :=
  ((cluster.redisKeys.filter fun key => userId = "" ∨ key.userId = some userId).map
    ConversationKey.conversationId).toFinset

/-- `get_running_agent_loops` without a filter. -/
def getRunningAgentLoops (userId : String) : Finset String :=
  cluster.getRunningAgentLoopsLocally userId ∪ cluster.getRunningAgentLoopsRemotely userId

/-- `close_session`: every server closes its loop of the conversation if it has one. -/
def closeSession (sid : String) : Cluster :=
  { cluster with
    here := cluster.here.filter (·.sid ≠ sid)
    elsewhere := cluster.elsewhere.filter (·.sid ≠ sid) }

/-- `config.max_concurrent_conversations` behind `__post_init__`. -/
def postInit (maxConcurrentConversations : ℕ) : ℕ := maxConcurrentConversations + 1

variable (store : ConversationStore) (order : SetOrder String)

/-- `_start_agent_loop` up to the registration: the cluster and what was closed, unless it
raises. -/
def closeOldest (maxConcurrentConversations : ℕ) (userId : String) :
    Option (Cluster × List String) :=
  let responseIds := cluster.getRunningAgentLoops userId
  if maxConcurrentConversations ≤ responseIds.card then
    (store.getAllMetadata (order.toList responseIds)).bind fun conversations =>
      (OldestFirst.evict lastUpdatedAtKey maxConcurrentConversations conversations).map
        fun evicted =>
          let closed := evicted.1.map ConversationMetadata.conversationId
          (closed.foldl closeSession cluster, closed)
  else some (cluster, [])

/-- The start has gone through. -/
def register (loop : Loop) : Cluster :=
  { cluster with here := loop :: cluster.here, starting := cluster.starting.erase loop }

/-- `maybe_start_agent_loop` on this server, with the closes that it makes. -/
def maybeStartAgentLoop (maxConcurrentConversations : ℕ) (loop : Loop) :
    Option (Cluster × List String) :=
  if loop.key ∈ cluster.redisKeys then some (cluster, [])
  else
    let marked : Cluster := { cluster with starting := loop :: cluster.starting }
    (marked.closeOldest store order (postInit maxConcurrentConversations) loop.userId).map
      fun result => (result.1.register loop, result.2)

/-! ## What the limit promises -/

/-- The conversations of a user that run or are being started. -/
def running (userId : String) : Finset String :=
  (((cluster.here ++ cluster.elsewhere ++ cluster.starting).filter (·.userId = userId)).map
    Loop.sid).toFinset

/-- Those that are being started. -/
def beingStarted (userId : String) : Finset String :=
  ((cluster.starting.filter (·.userId = userId)).map Loop.sid).toFinset

/-- One more conversation is started: at most as many run as the limit says, those that were
closed were not updated later than one that runs, and the one that is started is not closed. -/
def LimitHolds (maxConcurrentConversations : ℕ) (loop : Loop) : Prop :=
  ∃ cluster' closed,
    cluster.maybeStartAgentLoop store order maxConcurrentConversations loop
        = some (cluster', closed) ∧
      (cluster'.running loop.userId).card ≤ maxConcurrentConversations ∧
      (∀ id ∈ closed, ∀ other ∈ cluster'.running loop.userId, ∀ c d,
        store.getMetadata id = some c → store.getMetadata other = some d →
          lastUpdatedAtKey c ≤ lastUpdatedAtKey d) ∧
      loop.sid ∉ closed

end Cluster

end OpenHands.Clustered
