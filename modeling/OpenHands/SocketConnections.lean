/-
# Clients that connect to a conversation

The events of a conversation are stored and then dispatched, through the queue of the stream
and that of the session, to the clients in its room.  A client that connects has the stored
events replayed first: the end of the replay is fixed when it starts, and only after it the
client enters the room.
-/
import Mathlib.Data.Int.Order.Basic
import OpenHands.Lib.Run

namespace OpenHands.Sockets

/-- The classes of events that are told apart. -/
inductive EventKind where
  | nullAction | nullObservation | recallAction | agentStateChanged | cmdOutput
  | recallObservation | errorObservation | other
  deriving DecidableEq, Repr

inductive EventSource where
  | agent | user | environment
  deriving DecidableEq, Repr

structure Event where
  id : ℤ
  kind : EventKind
  source : Option EventSource
  deriving DecidableEq, Repr

namespace Event

variable (event : Event)

/-- `_on_event` sends the event to the clients. -/
def dispatched : Bool :=
  if event.kind = .nullAction ∨ event.kind = .nullObservation then false
  else if event.source = some .agent ∨ event.source = some .user then true
  else if event.source = some .environment ∧ (event.kind = .cmdOutput ∨
      event.kind = .agentStateChanged ∨ event.kind = .recallObservation) then true
  else event.kind = .errorObservation

/-- `connect` leaves the event out. -/
def skipped : Bool :=
  event.kind = .nullAction ∨ event.kind = .nullObservation ∨ event.kind = .recallAction

/-- The event is shown to clients whichever way it takes.  Of the changes of the agent's state a
replay shows the last one only. -/
def visible : Bool := event.dispatched ∧ ¬ event.skipped ∧ event.kind ≠ .agentStateChanged

end Event

/-- How far the connection of the client is. -/
inductive Connection where
  | connecting
  /-- The next index, the index at which the replay ends, and the last change of the agent's
  state. -/
  | replaying (index stop : ℤ) (agentStateChanged : Option Event)
  | replayed
  | joined
  deriving DecidableEq, Repr

/-- The stored events, the calls of `add_event` that are about to write a file and those that are
about to put their event on the queue, the queues, and the client with what it was sent. -/
structure World where
  files : List Event
  curId : ℤ
  writing : List Event := []
  putting : List Event := []
  queue : List Event := []
  publishQueue : List Event := []
  waitWebsocketInitialComplete : Bool
  connection : Connection := .connecting
  sent : List Event := []

/-- A conversation with stored events, and a client that has seen the events up to one of them. -/
structure Setup where
  latestEventId : ℤ
  files : List Event
  curId : ℤ
  waitWebsocketInitialComplete : Bool
  nodup : (files.map Event.id).Nodup
  lt_curId : ∀ event ∈ files, event.id < curId

def Setup.start (S : Setup) : World where
  files := S.files
  curId := S.curId
  waitWebsocketInitialComplete := S.waitWebsocketInitialComplete

/-- `_calculate_cur_id`. -/
def calculateCurId (files : List Event) : ℤ :=
  files.foldl (fun maxId event => max maxId event.id) (-1) + 1

/-- The threads that add events, the loop of the stream, the session, and the client. -/
inductive Move where
  /-- An event gets its id under the lock. -/
  | add (kind : EventKind) (source : Option EventSource)
  /-- The `n`-th call that is about to write the file of its event does so. -/
  | writeFile (n : ℕ)
  /-- The `n`-th call that is about to put its event on the queue does so. -/
  | put (n : ℕ)
  /-- The callback of the session gets the first event of the queue. -/
  | handle
  /-- The session sends the first event of its queue; `ready` says that another client is in the
  room, or that there has been none for too long. -/
  | send (ready : Bool)
  /-- The replay starts. -/
  | snapshot
  /-- The replay takes its next index; an event without a file may be on a cache page. -/
  | replay (onPage : Bool)
  | enterRoom

namespace World

variable (w : World)

/-- The event of an index. -/
def read (index : ℤ) (onPage : Bool) : Option Event :=
  (w.files.find? (·.id = index)).or
    (if onPage then w.writing.find? (·.id = index) else none)

/-- `_send`. -/
def send (ready : Bool) : World :=
  match w.publishQueue with
  | [] => w
  | event :: publishQueue =>
    if w.waitWebsocketInitialComplete ∧ w.connection ≠ .joined ∧ ¬ ready then w
    else
      { w with
        publishQueue
        waitWebsocketInitialComplete := false
        sent := if w.connection = .joined then w.sent ++ [event] else w.sent }

/-- The loop of `connect` over the stored events. -/
def replay (onPage : Bool) : World :=
  match w.connection with
  | .replaying index stop agentStateChanged =>
    if index < stop then
      match w.read index onPage with
      | none => { w with connection := .replaying (index + 1) stop agentStateChanged }
      | some event =>
        if event.skipped then { w with connection := .replaying (index + 1) stop agentStateChanged }
        else if event.kind = .agentStateChanged then
          { w with connection := .replaying (index + 1) stop (some event) }
        else
          { w with
            connection := .replaying (index + 1) stop agentStateChanged
            sent := w.sent ++ [event] }
    else { w with connection := .replayed, sent := w.sent ++ agentStateChanged.toList }
  | _ => w

def perform (latestEventId : ℤ) : Move → World
  | .add kind source =>
    { w with curId := w.curId + 1, writing := w.writing ++ [⟨w.curId, kind, source⟩] }
  | .writeFile n =>
    match w.writing[n]? with
    | none => w
    | some event =>
      { w with
        writing := w.writing.eraseIdx n
        files := w.files ++ [event]
        putting := w.putting ++ [event] }
  | .put n =>
    match w.putting[n]? with
    | none => w
    | some event => { w with putting := w.putting.eraseIdx n, queue := w.queue ++ [event] }
  | .handle =>
    match w.queue with
    | [] => w
    | event :: queue =>
      { w with
        queue
        publishQueue := if event.dispatched then w.publishQueue ++ [event] else w.publishQueue }
  | .send ready => w.send ready
  | .snapshot =>
    match w.connection with
    | .connecting =>
      { w with connection := .replaying (latestEventId + 1) (calculateCurId w.files) none }
    | _ => w
  | .replay onPage => w.replay onPage
  | .enterRoom =>
    match w.connection with
    | .replayed => { w with connection := .joined }
    | _ => w

/-- The event is stored and has not been sent to the room yet. -/
def OnTheWay (event : Event) : Prop :=
  event ∈ w.putting ∨ event ∈ w.queue ∨ event ∈ w.publishQueue

/-- The replay has not come to the event yet. -/
def StillReplays (event : Event) : Prop :=
  match w.connection with
  | .connecting => True
  | .replaying index stop _ => index ≤ event.id ∧ event.id < stop
  | .replayed | .joined => False

/-- A client in the room has been sent every visible event that is newer than the latest one it
had, unless the event is on its way to the room. -/
def Delivered (latestEventId : ℤ) : Prop :=
  w.connection = .joined → ∀ event ∈ w.files, event.visible = true → latestEventId < event.id →
    event ∈ w.sent ∨ w.OnTheWay event

/-- No visible event that is new to the client is sent to a room without the client, unless the
client has it or still gets it from the replay. -/
def InTime (latestEventId : ℤ) : Move → Prop
  | .send ready => ∀ event publishQueue, w.publishQueue = event :: publishQueue →
      (w.waitWebsocketInitialComplete = true → ready = true) →
        w.connection = .joined ∨ event.visible = false ∨ event.id ≤ latestEventId ∨
          event ∈ w.sent ∨ w.StillReplays event
  | _ => True

end World

end OpenHands.Sockets
