/-
# Polling the events of nested runtimes

Without a webhook the app server polls: for every running conversation it takes the first
event id that has no file, reads the events from there on, writes their files and processes
them.  It reads them from the event store that `get_agent_loop_info` puts into the info of
the conversation, and that store lies on the app server's own files.
-/
import OpenHands.NestedStarts
import OpenHands.StreamRuns

namespace OpenHands.Saas

/-- `_parse_status`. -/
def parseStatus (runtime : Runtime) : ConversationStatus :=
  let status := upper (runtime.status.getD "")
  if status = "PAUSED" then .stopped
  else if status = "STOPPED" then .archived
  else (ConversationStatus.ofName status).getD .stopped

namespace Services

variable (S : Services)

/-- `runningInfo` with the status of the runtime. -/
def runningLoopInfo (userId : Option String) (runtime : Runtime) :
    Except LookupError (Option LoopInfo) :=
  (S.runningInfo userId runtime).map (Option.map fun info =>
    { toAgentLoopInfo := info, status := parseStatus runtime })

/-- `get_agent_loop_info` with the status of every conversation. -/
def getLoopInfos (userId : Option String) (filterToSids : Option (List String)) :
    Except LookupError (List LoopInfo) :=
  if filterToSids = some [] then .ok []
  else
    let pattern :=
      match userId.filter (· ≠ "") with
      | some userId => redisConversationKey userId "*"
      | none => redisConversationKey "*" "*"
    ((S.scanIter pattern).mapM splitKey).bind fun keys =>
      let conversationIds := keys.map Prod.snd
      let starting := (keys.filter fun key => inFilter filterToSids key.2).map fun key =>
        ({ toAgentLoopInfo := startingInfo key, status := .starting } : LoopInfo)
      let runtimes := (S.candidates filterToSids).filter fun runtime =>
        runtime.sessionId ∉ conversationIds ∧ inFilter filterToSids runtime.sessionId
      (runtimes.mapM (S.runningLoopInfo userId)).map fun running => starting ++ running.reduceOption

end Services

/-! ## A pass -/

variable {E D : Type*} (codec : Codec E D)

/-- The event stores of the nested runtimes, the files of the app server for a user and a
conversation, and the events that it has processed. -/
structure Polling (D : Type*) where
  nested : String → FileStore D := fun _ => .empty
  files : String → String → FileStore D := fun _ _ => .empty
  processed : List (String × ℤ) := []

/-- The steps of a pass that raise; those of an event are found by its id. -/
structure PassFaults where
  list : Bool := false
  convert : ℤ → Bool := fun _ => false
  write : ℤ → Bool := fun _ => false
  process : ℤ → Bool := fun _ => false
  metadata : Bool := false

/-- The first id behind the ids of the files. -/
def nextEventId (files : FileStore D) : ℤ := files.events.keys.max?.getD (-1) + 1

/-- `file_store.write` of an event file. -/
def Polling.writeEvent (p : Polling D) (userId sid : String) (id : ℤ) (contents : D) :
    Polling D :=
  let files := p.files userId sid
  let files := { files with events := files.events.insert id contents }
  { p with files := Function.update p.files userId (Function.update (p.files userId) sid files) }

/-- `process_event`, after its write of the same file. -/
def Polling.processEvent (p : Polling D) (sid : String) (id : ℤ) : Polling D :=
  { p with processed := p.processed ++ [(sid, id)] }

/-- The loop over the events of the store of `reader`, which are read one by one; the files
are those of `writer`. -/
def copyLoop (sid reader writer : String) (faults : PassFaults) :
    List ℤ → CachePage D → Polling D → Polling D × Bool
  | [], _, p => (p, true)
  | index :: indices, page, p =>
    match readIndex codec (p.files reader sid) page index with
    | (_, .error _) => (p, false)
    | (page, .ok none) => copyLoop sid reader writer faults indices page p
    | (page, .ok (some event)) =>
      let id := codec.eventId event
      match codec.eventToDict event id with
      | .error _ => (p, false)
      | .ok contents =>
        if faults.convert id ∨ faults.write id then (p, false)
        else
          let p := p.writeEvent writer sid id contents
          if faults.process id then (p, false)
          else copyLoop sid reader writer faults indices page (p.processEvent sid id)

/-- `_poll_agent_loop_events`, and whether it returns. -/
def pollAgentLoopEvents (S : Services) (info : LoopInfo) (faults : PassFaults) (p : Polling D) :
    Polling D × Bool :=
  if info.status ≠ .running then (p, true)
  else
    match S.metadata.first info.conversationId with
    | none => (p, true)
    | some row =>
      if faults.list then (p, false)
      else
        let sid := info.conversationId
        let startId := nextEventId (p.files row.userId sid)
        let store : EventStore D := { fileStore := p.files info.userId sid }
        let indices := searchIndices startId (store.exclusiveEnd none) false
        let (p, ok) := copyLoop codec sid info.userId row.userId faults indices .dummy p
        (p, ok && !faults.metadata)

/-- The passes of `_poll_events` over the running conversations, which go on when one of them
raises.  The infos of those that return are listed. -/
def pollInfos (S : Services) (faults : String → PassFaults) :
    List LoopInfo → Polling D → Polling D × List LoopInfo
  | [], p => (p, [])
  | info :: infos, p =>
    if info.status ≠ .running then pollInfos S faults infos p
    else
      match pollAgentLoopEvents codec S info (faults info.conversationId) p with
      | (p, false) => pollInfos S faults infos p
      | (p, true) =>
        let (p, polled) := pollInfos S faults infos p
        (p, info :: polled)

/-- `_poll_events`, once. -/
def pollEvents (S : Services) (faults : String → PassFaults) (p : Polling D) :
    Polling D × List LoopInfo :=
  match S.getLoopInfos none none with
  | .error _ => (p, [])
  | .ok infos => pollInfos codec S faults infos p

/-! ## Runs -/

/-- A nested runtime appends an event to its store, or the app server polls. -/
inductive PollMove (D : Type*) where
  | append (sid : String) (data : D)
  | poll (S : Services) (faults : String → PassFaults)

/-- One step. -/
def Polling.perform (p : Polling D) : PollMove D → Polling D
  | .append sid data =>
    let files := p.nested sid
    let files := { files with events := files.events.insert (calculateCurId files) data }
    { p with nested := Function.update p.nested sid files }
  | .poll S faults => (pollEvents codec S faults p).1

/-- The conversations over which a step passes with success. -/
def Polling.polled (p : Polling D) : PollMove D → List LoopInfo
  | .append _ _ => []
  | .poll S faults => (pollEvents codec S faults p).2

/-- The app server has a file of every event of the nested runtime and of no other, and it has
processed them. -/
structure Polling.Mirrored (p : Polling D) (info : LoopInfo) : Prop where
  files : ∀ id, id ∈ (p.files info.userId info.conversationId).events.keys
    ↔ id ∈ (p.nested info.conversationId).events.keys
  processed : ∀ id ∈ (p.nested info.conversationId).events.keys,
    (info.conversationId, id) ∈ p.processed

end OpenHands.Saas
