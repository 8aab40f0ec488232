/-
# The events that the app server fetches

Events of a conversation reach the app server in two ways.  The agent server posts them to
`on_event`, which saves them side by side and then runs their callbacks in the background.
`refresh_conversation` polls: it reads the events page by page, saves those that have no
file, and then runs the callbacks of the events of the page that it has saved.  Whatever
raises in it ends the poll.

Each poll and each delivery is a task, and the tasks run interleaved, from one call that is
awaited to the next.
-/
import OpenHands.Lib.Duties
import OpenHands.Lib.PyDict
import OpenHands.Lib.Run
import Mathlib.Logic.Function.Basic

namespace OpenHands.RefreshedEvents

/-! ## The agent server and the callbacks -/

/-- The id of an event. -/
abbrev EventId := String

/-- The name of an event file, `{timestamp}_{kind}_{id.hex}`. -/
structure EventName where
  timestamp : String
  kind : String
  id : EventId
  deriving DecidableEq, Repr

/-- The agent server of a conversation: its events do not change, so an id stands for one
event. -/
structure AgentServer where
  conversationId : String
  timestamp : EventId → String
  kind : EventId → String

/-- `_get_event_filename`. -/
def AgentServer.getEventFilename (server : AgentServer) (event : EventId) : EventName :=
  ⟨server.timestamp event, server.kind event, event⟩

/-- `EventCallbackStatus`. -/
inductive EventCallbackStatus where
  | active | disabled | completed | error
  deriving DecidableEq, Repr

/-- A row of the callbacks. -/
structure StoredEventCallback where
  id : String
  conversationId : Option String := none
  eventKind : Option String := none
  status : EventCallbackStatus := .active
  deriving DecidableEq, Repr

/-- The query of `execute_callbacks`. -/
def AgentServer.selects (server : AgentServer) (event : EventId) (row : StoredEventCallback) :
    Bool :=
  row.status = .active ∧ (row.eventKind = some (server.kind event) ∨ row.eventKind = none) ∧
    (row.conversationId = some server.conversationId ∨ row.conversationId = none)

/-! ## Tasks -/

/-- The saves of a delivery: the events that were posted, those whose save has not ended, and
whether a save has raised. -/
structure Delivery where
  events : List EventId
  left : List EventId
  failed : Bool := false
  posted : ∀ event ∈ left, event ∈ events
  deriving DecidableEq, Repr

/-- How a save of a delivery ends: it returns, or it raises before or while it writes. -/
inductive SaveOutcome where
  | returns | raises | cutOff
  deriving DecidableEq, Repr

/-- The delivery when the save of an event has ended. -/
def Delivery.endSave (delivery : Delivery) (event : EventId) (outcome : SaveOutcome) :
    Delivery where
  events := delivery.events
  left := delivery.left.erase event
  failed := delivery.failed || outcome ≠ .returns
  posted _ h := delivery.posted _ (List.mem_of_mem_erase h)

/-- Where a task waits.  The first six are those of `refresh_conversation`: before the
request for the conversation, before a request for a page, before `get_event` of the next
item, before `save_event`, and before `execute_callbacks` of the next event of `to_process`.
The others are those of `on_event`: while the saves run, and in the background task. -/
inductive Task where
  | starting
  | fetching (pageId : Option String)
  | checking (items toProcess : List EventId) (nextPageId : Option String)
  | saving (event : EventId) (items toProcess : List EventId) (nextPageId : Option String)
  | executing (toProcess : List EventId) (nextPageId : Option String)
  | delivering (delivery : Delivery)
  | background (events : List EventId)
  deriving DecidableEq, Repr

/-- The events whose callbacks the task is still going to run. -/
def Task.toRun : Task → List EventId
  | .starting | .fetching _ => []
  | .checking _ toProcess _ => toProcess
  | .saving event _ toProcess _ => event :: toProcess
  | .executing toProcess _ => toProcess
  | .delivering delivery => if delivery.failed then [] else delivery.events
  | .background events => events

/-- A query of `execute_callbacks` that returned: the table of that time, and the callbacks
that were executed. -/
structure CallbackRun where
  event : EventId
  table : List StoredEventCallback
  executed : List StoredEventCallback
  deriving DecidableEq, Repr

/-- The event files, each with whether it was written to its end, the table of the
callbacks, the runs of the callbacks, and the tasks. -/
structure World where
  files : PyDict EventName Bool := .empty
  callbacks : List StoredEventCallback := []
  runs : List CallbackRun := []
  tasks : ℕ → Option Task := fun _ => none

namespace World

variable (server : AgentServer) (w : World)

/-- `get_event`, and whether it finds the event.  The pattern `*_{id_hex}` leads to the file,
and what cannot be read is `None`. -/
def getEvent (event : EventId) : Bool :=
  (w.files.entries.find? fun file => file.1.id = event).any Prod.snd

/-- `_save_event_to_file`; a write that raises leaves a file that cannot be read. -/
def saveEvent (event : EventId) (written : Bool) : World :=
  { w with files := w.files.set (server.getEventFilename event) written }

/-- `execute_callbacks`: every callback that the query selects is executed. -/
def executeCallbacks (event : EventId) : World :=
  { w with
    runs := w.runs ++ [⟨event, w.callbacks, w.callbacks.filter (server.selects event)⟩] }

/-- The task goes on as `task`, or ends. -/
def goOn (i : ℕ) (task : Option Task) : World :=
  { w with tasks := Function.update w.tasks i task }

/-! ## Steps -/

/-- A poll starts, a request for a page is answered, the next call of a task returns or
raises, a delivery arrives, one of its saves ends, or the table of the callbacks is
changed. -/
inductive Move where
  | refresh (i : ℕ)
  | page (i : ℕ) (items : List EventId) (nextPageId : Option String)
  | returns (i : ℕ)
  | raises (i : ℕ) (cutOff : Bool)
  | onEvent (i : ℕ) (events : List EventId)
  | saved (i : ℕ) (event : EventId) (outcome : SaveOutcome)
  | setCallbacks (callbacks : List StoredEventCallback)
  deriving DecidableEq, Repr

/-- The next call of the task returns. -/
def advance (i : ℕ) : Task → World
  | .starting => w.goOn i (some (.fetching none))
  | .checking (event :: items) toProcess nextPageId =>
    if w.getEvent event then w.goOn i (some (.checking items toProcess nextPageId))
    else w.goOn i (some (.saving event items toProcess nextPageId))
  | .checking [] toProcess nextPageId => w.goOn i (some (.executing toProcess nextPageId))
  | .saving event items toProcess nextPageId =>
    (w.saveEvent server event true).goOn i
      (some (.checking items (toProcess ++ [event]) nextPageId))
  | .executing (event :: toProcess) nextPageId =>
    (w.executeCallbacks server event).goOn i (some (.executing toProcess nextPageId))
  | .executing [] (some pageId) => w.goOn i (some (.fetching (some pageId)))
  | .executing [] none => w.goOn i none
  | .background (event :: events) =>
    (w.executeCallbacks server event).goOn i (some (.background events))
  | .background [] => w.goOn i none
  -- a page comes with its items, and the saves of a delivery end one by one
  | .fetching _ | .delivering _ => w

/-- The next call of the task raises, which ends it.  Cut off, a save has begun to write its
file, and the callbacks have been executed when the commit raises. -/
def fail (i : ℕ) (cutOff : Bool) : Task → World
  | .saving event _ _ _ =>
    (if cutOff then w.saveEvent server event false else w).goOn i none
  | .executing (event :: _) _ | .background (event :: _) =>
    (if cutOff then w.executeCallbacks server event else w).goOn i none
  | .delivering _ => w
  | _ => w.goOn i none

/-- A save of a delivery ends.  When all have ended, the background task is created, unless
one of them has raised. -/
def endSave (i : ℕ) (event : EventId) (outcome : SaveOutcome) (delivery : Delivery) : World :=
  let w := match outcome with
    | .returns => w.saveEvent server event true
    | .raises => w
    | .cutOff => w.saveEvent server event false
  let delivery := delivery.endSave event outcome
  if delivery.left ≠ [] then w.goOn i (some (.delivering delivery))
  else w.goOn i (if delivery.failed then none else some (.background delivery.events))

/-- One step. -/
def perform (w : World) : Move → World
  | .refresh i => if w.tasks i = none then w.goOn i (some .starting) else w
  | .page i items nextPageId =>
    match w.tasks i with
    | some (.fetching _) => w.goOn i (some (.checking items [] nextPageId))
    | _ => w
  | .returns i =>
    match w.tasks i with
    | some task => w.advance server i task
    | none => w
  | .raises i cutOff =>
    match w.tasks i with
    | some task => w.fail server i cutOff task
    | none => w
  | .onEvent i events =>
    if w.tasks i = none then
      w.goOn i (some (if events = [] then .background []
        else .delivering ⟨events, events, false, fun _ h => h⟩))
    else w
  | .saved i event outcome =>
    match w.tasks i with
    | some (.delivering delivery) =>
      if event ∈ delivery.left then w.endSave server i event outcome delivery else w
    | _ => w
  | .setCallbacks callbacks => { w with callbacks := callbacks }

/-! ## A poll that nothing disturbs -/

/-- The loop over the items of a page, with `to_process`. -/
def checkItems : List EventId → World → World × List EventId
  | [], w => (w, [])
  | event :: items, w =>
    if w.getEvent event then checkItems items w
    else
      let (w, toProcess) := checkItems items (w.saveEvent server event true)
      (w, event :: toProcess)

/-- One page of `refresh_conversation`. -/
def refreshPage (w : World) (items : List EventId) : World :=
  let (w, toProcess) := checkItems server items w
  toProcess.foldl (executeCallbacks server) w

/-- `refresh_conversation`, from its first page to its last. -/
def refreshConversation (w : World) (pages : List (List EventId)) : World :=
  pages.foldl (refreshPage server) w

/-! ## What is to hold -/

/-- The callbacks have been run for the event: every one that was active at that time, and
is for the kind of the event and for the conversation, has been executed. -/
def Ran (event : EventId) : Prop :=
  ∃ run ∈ w.runs, run.event = event ∧
    ∀ row ∈ run.table, server.selects event row = true → row ∈ run.executed

/-- The events whose callbacks the task `i` is still going to run. -/
def toRun (i : ℕ) : List EventId := ((w.tasks i).map Task.toRun).getD []

/-- The event has one file, which can be read, and its callbacks have been run or are still
going to be. -/
structure Handled (before : World) (event : EventId) : Prop where
  once : (w.files.keys.filter fun name => name.id = event) = [server.getEventFilename event]
  readable : w.getEvent event = true
  ran : w.Ran server event ∨ ∃ i, event ∈ before.toRun i

/-- Whatever a later poll fetches is handled then: saved once, and the callbacks that were
active have been executed, unless a task that was there before the poll still has them to
run. -/
def LaterPollHandles : Prop :=
  ∀ pages : List (List EventId), ∀ items ∈ pages, ∀ event ∈ items,
    (w.refreshConversation server pages).Handled server w event

end World

end OpenHands.RefreshedEvents
