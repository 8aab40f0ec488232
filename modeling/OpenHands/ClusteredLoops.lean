/-
# Agent loops of a cluster

A server that starts an agent loop first sets the key of the conversation in redis, if it is
free, and registers the loop when the start has gone through.  A background task sets the keys
of registered loops again.  Closing a loop takes it out of the register, and deletes its key
some time later.  Between any two commands, and within a start or a close, any time may pass.
-/
import OpenHands.Lib.ExpiringKeys
import OpenHands.Lib.Run

namespace OpenHands.Clustered

/-- `ohcnv:{user_id}:{conversation_id}`. -/
structure ConversationKey where
  userId : Option String
  conversationId : String
  deriving DecidableEq, Repr

/-- `_REDIS_ENTRY_TIMEOUT_SECONDS`, in milliseconds. -/
def redisEntryTimeout : ℕ := 15000

/-- What a server does for a conversation of a user. -/
structure Job (Server : Type*) where
  server : Server
  sid : String
  userId : Option String
  deriving DecidableEq, Repr

namespace Job

variable {Server : Type*}

/-- `_get_redis_conversation_key`. -/
def key (job : Job Server) : ConversationKey := ⟨job.userId, job.sid⟩

end Job

/-- The keys in redis; the starts that have set their key; `_local_agent_loops_by_sid` of each
server, with the user of the session; the closes that have yet to delete their key; and the
pipeline that each server is about to execute. -/
structure World (Server : Type*) where
  redis : ExpiringKeys ConversationKey := {}
  starting : List (Job Server) := []
  localAgentLoops : Server → String → Option (Option String) := fun _ _ => none
  closing : List (Job Server) := []
  pipeline : Server → String → Option (Option String) := fun _ _ => none

/-- A step of a start, of a close, of the background task of a server, or of the clock. -/
inductive Move (Server : Type*) where
  | maybeStartAgentLoop (job : Job Server)
  | register (job : Job Server)
  | fail (job : Job Server)
  | popSession (server : Server) (sid : String)
  | deleteKey (job : Job Server)
  | cancelClose (job : Job Server)
  | collect (server : Server)
  | execute (server : Server)
  | elapse (milliseconds : ℕ)

namespace World

variable {Server : Type*} [DecidableEq Server] (w : World Server)

/-- The entry of a conversation in the register of a server is replaced. -/
def setLoop (server : Server) (sid : String) (loop : Option (Option String)) : World Server :=
  { w with
    localAgentLoops := Function.update w.localAgentLoops server
      (Function.update (w.localAgentLoops server) sid loop) }

/-- `SET NX EX`; a start goes on only if it has set the key. -/
def maybeStartAgentLoop (job : Job Server) : World Server :=
  if w.redis.Present job.key then w
  else { w with redis := w.redis.set job.key redisEntryTimeout, starting := job :: w.starting }

/-- The session of a start is put into the register. -/
def register (job : Job Server) : World Server :=
  if job ∈ w.starting then
    { w.setLoop job.server job.sid (some job.userId) with starting := w.starting.erase job }
  else w

/-- A start raises; its key stays until it expires. -/
def fail (job : Job Server) : World Server := { w with starting := w.starting.erase job }

/-- `_close_session` takes a session out of the register. -/
def popSession (server : Server) (sid : String) : World Server :=
  match w.localAgentLoops server sid with
  | none => w
  | some userId =>
    { w.setLoop server sid none with closing := ⟨server, sid, userId⟩ :: w.closing }

/-- `_close_session` deletes the key of the session that it took out. -/
def deleteKey (job : Job Server) : World Server :=
  if job ∈ w.closing then
    { w with redis := w.redis.delete job.key, closing := w.closing.erase job }
  else w

/-- A close raises or is cancelled before it deletes its key, which stays until it expires. -/
def cancelClose (job : Job Server) : World Server :=
  { w with closing := w.closing.erase job }

/-- `_update_state_in_redis` fills its pipeline from the register. -/
def collect (server : Server) : World Server :=
  { w with
    pipeline := Function.update w.pipeline server fun sid =>
      if sid = "" then none else w.localAgentLoops server sid }

/-- The pipeline is executed. -/
def execute (server : Server) : World Server :=
  { w with
    redis := w.redis.setAll
      (fun key => w.pipeline server key.conversationId = some key.userId) redisEntryTimeout
    pipeline := Function.update w.pipeline server fun _ => none }

def perform : Move Server → World Server
  | .maybeStartAgentLoop job => w.maybeStartAgentLoop job
  | .register job => w.register job
  | .fail job => w.fail job
  | .popSession server sid => w.popSession server sid
  | .deleteKey job => w.deleteKey job
  | .cancelClose job => w.cancelClose job
  | .collect server => w.collect server
  | .execute server => w.execute server
  | .elapse milliseconds => { w with redis := w.redis.elapse milliseconds }

omit [DecidableEq Server] in
/-- No two servers hold the same conversation. -/
def MutualExclusion : Prop :=
  ∀ a b sid, w.localAgentLoops a sid ≠ none → w.localAgentLoops b sid ≠ none → a = b

/-- A server starts, holds or closes a conversation of the user. -/
def Busy (sid : String) (userId : Option String) : Prop :=
  (∃ server, ⟨server, sid, userId⟩ ∈ w.starting) ∨
    (∃ server, w.localAgentLoops server sid = some userId) ∨
    ∃ server, ⟨server, sid, userId⟩ ∈ w.closing

/-- No key expires while a server is busy with its conversation, and a conversation that a
server is busy with is started for the same user. -/
def KeepsKeys : Move Server → Prop
  | .maybeStartAgentLoop job => ∀ userId, w.Busy job.sid userId → userId = job.userId
  | .elapse milliseconds => ∀ sid userId, w.Busy sid userId →
      (w.redis.elapse milliseconds).Present ⟨userId, sid⟩
  | _ => True

end World

end OpenHands.Clustered
