/-
# Starting a nested conversation

`maybe_start_agent_loop` of the SaaS conversation manager looks for the starting mark in
redis, asks for the runtime, and where both say that the conversation is stopped it sets the
mark and starts the conversation in the background.  The start deletes the mark when it is
through.  Every redis command and every query of the runtime is one step, in any order with
those of the other calls and starts, on any server.

A runtime is reported stopped as long as no start has connected it, and a start takes less
time than the mark lives.
-/
import OpenHands.AgentLoops
import OpenHands.Lib.ExpiringKeys
import OpenHands.Lib.Run

namespace OpenHands.Saas

/-- `ConversationStatus`. -/
inductive ConversationStatus where
  | starting | running | stopped | archived | error
  deriving DecidableEq, Repr

/-- `ConversationStatus[name]`, for the names that are `in ConversationStatus`. -/
def ConversationStatus.ofName : String → Option ConversationStatus
  | "STARTING" => some .starting
  | "RUNNING" => some .running
  | "STOPPED" => some .stopped
  | "ARCHIVED" => some .archived
  | "ERROR" => some .error
  | _ => none

/-- `str.upper`, for ASCII letters. -/
def upper (s : String) : String := String.ofList (s.toList.map Char.toUpper)

/-- The status that a query of the runtime stands for; other names count as stopped. -/
def conversationStatus (runtime : Option Runtime) : ConversationStatus :=
  match runtime with
  | none => .stopped
  | some runtime =>
    let statusStr := (runtime.status.filter (· ≠ "")).getD "stopped"
    (ConversationStatus.ofName (upper statusStr)).getD .stopped

/-- `AgentLoopInfo` with its status. -/
structure LoopInfo extends AgentLoopInfo where
  status : ConversationStatus
  deriving DecidableEq, Repr

/-- What a call is given: the user and the initial message. -/
structure StartRequest where
  userId : String
  initialUserMsg : Option String := none
  deriving DecidableEq, Repr

namespace NestedStart

/-- Where a call of `maybe_start_agent_loop` stands. -/
inductive Pc where
  | called
  /-- `redis.get` has answered. -/
  | looked (starting : Bool)
  /-- The runtime has answered. -/
  | found (info : LoopInfo)
  | returned (info : LoopInfo)
  | raised (error : LookupError)
  deriving DecidableEq, Repr

/-- Where a background start stands. -/
inductive Stage where
  /-- `_create_runtime` and `connect`. -/
  | creating
  | connected
  /-- The nested conversation has the initial message. -/
  | posted
  | done
  deriving DecidableEq, Repr

/-- A call with the start that it made, and the time at which it set the mark. -/
structure CallState where
  pc : Pc := .called
  task : Option Stage := none
  since : ℕ := 0
  deriving DecidableEq, Repr

/-- The start of the call is in progress. -/
def CallState.InProgress (c : CallState) : Prop := c.task ≠ none ∧ c.task ≠ some .done

instance (c : CallState) : Decidable c.InProgress := inferInstanceAs (Decidable (_ ∧ _))

/-- The marks in redis, the calls, whether a start has connected the runtime, and the initial
messages that the nested conversation has got. -/
structure World (C : Type*) where
  redis : ExpiringKeys String := {}
  calls : C → CallState := fun _ => {}
  connected : Bool := false
  messages : List String := []

/-- A step of a call, of its start, or of the clock. -/
inductive Move (C : Type*) where
  | get (c : C)
  | query (c : C) (runtime : Option Runtime)
  | mark (c : C)
  | connect (c : C)
  | post (c : C)
  | finish (c : C)
  | elapse (seconds : ℕ)

/-- `_REDIS_ENTRY_TIMEOUT_SECONDS`. -/
def redisEntryTimeout : ℕ := 300

variable {C : Type*}

/-- The conversation, the URLs of conversations in runtimes, and what the calls are given. -/
structure Setup (C : Type*) where
  sid : String
  nestedUrl : String → String → String
  requests : C → StartRequest

variable (S : Setup C)

/-- `_get_redis_conversation_key` for a call. -/
def Setup.key (c : C) : String := redisConversationKey (S.requests c).userId S.sid

/-- What a call makes of the mark and the runtime. -/
def Setup.infoFor (c : C) (starting : Bool) (runtime : Option Runtime) :
    Except LookupError LoopInfo :=
  let status := conversationStatus runtime
  let status := if status = .stopped ∧ starting then .starting else status
  let info : LoopInfo :=
    { conversationId := S.sid, url := none, sessionApiKey := none
      userId := (S.requests c).userId, status := status }
  match runtime with
  | none => .ok info
  | some runtime =>
    match runtime.runtimeId with
    | none => .error .keyError
    | some runtimeId =>
      .ok { info with
        url := some (S.nestedUrl runtimeId S.sid)
        sessionApiKey := runtime.sessionApiKey }

namespace World

/-- At most one start is in progress, and the nested conversation has at most one initial
message. -/
structure StartsOnce (w : World C) : Prop where
  oneStart : ∀ c d, (w.calls c).InProgress → (w.calls d).InProgress → c = d
  oneMessage : w.messages.length ≤ 1

/-- What the environment promises: the runtime is reported stopped until a start has
connected it, and no start is older than its mark can be. -/
def Admissible (w : World C) : Move C → Prop
  | .query _ runtime => conversationStatus runtime = .stopped ↔ w.connected = false
  | .elapse seconds => ∀ c, (w.calls c).InProgress →
      w.redis.clock + seconds < (w.calls c).since + redisEntryTimeout
  | _ => True

variable [DecidableEq C]

/-- A call and its start change. -/
def set (w : World C) (c : C) (state : CallState) : World C :=
  { w with calls := Function.update w.calls c state }

/-- `redis.get(key)`. -/
def get (w : World C) (c : C) : World C :=
  match (w.calls c).pc with
  | .called => w.set c { w.calls c with pc := .looked (w.redis.Present (S.key c)) }
  | _ => w

/-- `_get_runtime(sid)`, and the status that follows. -/
def query (w : World C) (c : C) (runtime : Option Runtime) : World C :=
  match (w.calls c).pc with
  | .looked starting =>
    match S.infoFor c starting runtime with
    | .ok info => w.set c { w.calls c with pc := .found info }
    | .error error => w.set c { w.calls c with pc := .raised error }
  | _ => w

/-- Where the conversation is stopped, the mark is set and the start begins. -/
def mark (w : World C) (c : C) : World C :=
  match (w.calls c).pc with
  | .found info =>
    if info.status = .stopped then
      { w.set c { pc := .returned info, task := some .creating, since := w.redis.clock } with
        redis := w.redis.set (S.key c) redisEntryTimeout }
    else w.set c { w.calls c with pc := .returned info }
  | _ => w

/-- `runtime.connect()` of the start. -/
def connect (w : World C) (c : C) : World C :=
  if (w.calls c).task = some .creating then
    { w.set c { w.calls c with task := some .connected } with connected := true }
  else w

/-- `_create_nested_conversation` of the start. -/
def post (w : World C) (c : C) : World C :=
  if (w.calls c).task = some .connected then
    { w.set c { w.calls c with task := some .posted } with
      messages := w.messages ++ (S.requests c).initialUserMsg.toList }
  else w

/-- The `finally` of the start, which any exception leads to as well. -/
def finish (w : World C) (c : C) : World C :=
  if (w.calls c).InProgress then
    { w.set c { w.calls c with task := some .done } with redis := w.redis.delete (S.key c) }
  else w

/-- One step. -/
def perform (w : World C) : Move C → World C
  | .get c => w.get S c
  | .query c runtime => w.query S c runtime
  | .mark c => w.mark S c
  | .connect c => w.connect c
  | .post c => w.post S c
  | .finish c => w.finish S c
  | .elapse seconds => { w with redis := w.redis.elapse seconds }

end World

end NestedStart

end OpenHands.Saas
