/-
# Events in files

`FilesystemEventService` (app_server/event/filesystem_event_service.py): one file for each
event, in one directory for each conversation.  A search takes the visible files, keeps those
of the conversations that may be read and those that meet the criteria, sorts them by name and
returns one page of them.

`load` stands for what reading an event file gives; the service for conversations is a parameter.
-/
import Mathlib
import OpenHands.Lib.PageTokens
import OpenHands.Lib.PyReplace

namespace OpenHands.EventFiles

/-! ## Identifiers -/

/-- The number of a UUID. -/
abbrev UUID := ℕ

/-- The value of a hexadecimal digit. -/
def hexValue? (c : Char) : Option ℕ :=
  if c.isDigit then some (c.toNat - '0'.toNat)
  else if 'a' ≤ c ∧ c ≤ 'f' then some (c.toNat - 'a'.toNat + 10)
  else if 'A' ≤ c ∧ c ≤ 'F' then some (c.toNat - 'A'.toNat + 10)
  else none

/-- `UUID(text)`: 32 hexadecimal digits; a prefix, braces and hyphens are optional. -/
def uuidOfString (text : String) : Option UUID :=
  let braces := ['\x7b', '\x7d']
  let hex := PyReplace.replace "uuid:".toList [] (PyReplace.replace "urn:".toList [] text.toList)
  let digits := ((hex.dropWhile (· ∈ braces)).rdropWhile (· ∈ braces)).filter (· ≠ '-')
  if digits.length = 32 then
    (digits.mapM hexValue?).map fun values => values.foldl (fun n value => 16 * n + value) 0
  else none

/-- `str(uuid)`. -/
def strOfUuid (uuid : UUID) : String :=
  let digits := Nat.toDigits 16 uuid
  let hex := List.replicate (32 - digits.length) '0' ++ digits
  String.ofList (hex.take 8 ++ '-' :: (hex.drop 8).take 4 ++ '-' :: (hex.drop 12).take 4
    ++ '-' :: (hex.drop 16).take 4 ++ '-' :: hex.drop 20)

/-! ## Times -/

/-- The fields of a `datetime`, from the year to the microsecond. -/
abbrev TimeFields := List ℕ

/-- A `datetime` that a search is bounded by: its fields, and whether it has a time zone. -/
structure Bound where
  fields : TimeFields
  aware : Bool
  deriving DecidableEq, Repr

/-- The ways in which a field of a time can be read: two digits, or one. -/
def readField (low high : ℕ) (text : List Char) : List (ℕ × List Char) :=
  let two :=
    match text with
    | a :: b :: rest =>
      let value := 10 * (a.toNat - '0'.toNat) + (b.toNat - '0'.toNat)
      if a.isDigit ∧ b.isDigit ∧ low ≤ value ∧ value ≤ high then [(value, rest)] else []
    | _ => []
  let one :=
    match text with
    | a :: rest =>
      let value := a.toNat - '0'.toNat
      if a.isDigit ∧ low ≤ value then [(value, rest)] else []
    | _ => []
  two ++ one

/-- The day of the month may also stand behind a blank. -/
def readDay (text : List Char) : List (ℕ × List Char) :=
  readField 1 31 text ++
    match text with
    | ' ' :: a :: rest =>
      if a.isDigit ∧ 1 ≤ a.toNat - '0'.toNat then [(a.toNat - '0'.toNat, rest)] else []
    | _ => []

/-- Four digits. -/
def readYear (text : List Char) : List (ℕ × List Char) :=
  if (text.take 4).length = 4 ∧ (text.take 4).all Char.isDigit then
    [((text.take 4).foldl (fun n c => 10 * n + (c.toNat - '0'.toNat)) 0, text.drop 4)]
  else []

/-- The number of days of a month. -/
def daysInMonth (year month : ℕ) : ℕ :=
  if month = 2 then
    if year % 4 = 0 ∧ (year % 100 ≠ 0 ∨ year % 400 = 0) then 29 else 28
  else if month ∈ [4, 6, 9, 11] then 30 else 31

/-- `datetime.strptime(text, '%Y%m%d%H%M%S')`: the first reading of the fields, which must use
up the text and be a time. -/
def strptime (text : List Char) : Option TimeFields :=
  let readings : List (TimeFields × List Char) := do
    let (year, text) ← readYear text
    let (month, text) ← readField 1 12 text
    let (day, text) ← readDay text
    let (hour, text) ← readField 0 23 text
    let (minute, text) ← readField 0 59 text
    let (second, text) ← readField 0 61 text
    pure ([year, month, day, hour, minute, second, 0], text)
  match readings.head? with
  | some ([year, month, day, hour, minute, second, micros], []) =>
    if 1 ≤ year ∧ day ≤ daysInMonth year month ∧ second ≤ 59 then
      some [year, month, day, hour, minute, second, micros]
    else none
  | _ => none

/-! ## Files -/

/-- A file below the directory of the events: its directory and its name. -/
structure EventFile where
  parent : String
  name : String
  deriving DecidableEq, Repr

/-- The directory of the events. -/
structure EventsDir where
  path : String
  files : List EventFile
  nodup : files.Nodup

/-- `str(file)`. -/
def EventsDir.pathOf (dir : EventsDir) (file : EventFile) : String :=
  dir.path ++ "/" ++ file.parent ++ "/" ++ file.name

/-- What a `*` of a pattern matches. -/
def isVisible (name : String) : Bool := name.toList.head? ≠ some '.'

/-- The order of paths: by directory, then by name. -/
def pathLe (f g : EventFile) : Bool :=
  f.parent < g.parent ∨ (f.parent = g.parent ∧ f.name ≤ g.name)

/-- `_get_event_files_by_pattern('*', conversation_id)`. -/
def EventsDir.getEventFiles (dir : EventsDir) (conversationId : Option UUID) : List EventFile :=
  let found : List EventFile :=
    match conversationId with
    | some id => dir.files.filter fun f => f.parent == strOfUuid id && isVisible f.name
    | none => dir.files.filter fun f => isVisible f.parent && isVisible f.name
  found.mergeSort pathLe

/-- The parts of a file name. -/
structure FilenameInfo where
  timestamp : List Char
  kind : List Char
  eventId : List Char
  deriving DecidableEq, Repr

/-- `_parse_filename`. -/
def parseFilename (name : String) : Option FilenameInfo :=
  let parts := name.toList.splitOn '_'
  if parts.length ≥ 3 then
    some {
      timestamp := parts.headD []
      kind := ['_'].intercalate (parts.drop 1).dropLast
      eventId := parts.getLastD [] }
  else none

/-- `_get_conversation_id`. -/
def getConversationId (file : EventFile) : Option UUID := uuidOfString file.parent

/-- `batch_get_app_conversation_info`: the ids of the conversations that may be read. -/
abbrev InfoService := List UUID → List (Option UUID)

/-- `_get_conversation_ids`. -/
def getConversationIds (files : List EventFile) : List UUID :=
  (files.filterMap getConversationId).dedup

/-- `_filter_files_by_conversation`. -/
def filterFilesByConversation (service : InfoService) (files : List EventFile) : List EventFile :=
  let permitted := (service (getConversationIds files)).filterMap id
  files.filter fun file =>
    match getConversationId file with
    | some id => id ∈ permitted
    | none => false

/-! ## Searching -/

/-- The criteria of a search. -/
structure Criteria where
  conversationIdEq : Option UUID := none
  kindEq : Option String := none
  timestampGte : Option Bound := none
  timestampLt : Option Bound := none

/-- `EventSortOrder`. -/
inductive EventSortOrder
  | TIMESTAMP
  | TIMESTAMP_DESC
  deriving DecidableEq, Repr

/-- A time without a time zone cannot be compared with one that has one. -/
inductive SearchError
  | typeError
  deriving DecidableEq, Repr

/-- `time < bound`, for a time without a time zone. -/
def isBefore (time : TimeFields) (bound : Bound) : Except SearchError Bool :=
  if bound.aware then .error .typeError else .ok (time < bound.fields)

/-- The body of the loop of `_filter_files_by_criteria`: whether a file is kept. -/
def meetsCriteria (dir : EventsDir) (q : Criteria) (file : EventFile) : Except SearchError Bool :=
  let inConversation :=
    match q.conversationIdEq with
    | some id => decide ((strOfUuid id).toList <:+: (dir.pathOf file).toList)
    | none => true
  if inConversation = false then .ok false
  else
    match parseFilename file.name with
    | none => .ok false
    | some info =>
      let otherKind :=
        match q.kindEq with
        | some kind => decide (kind ≠ "" ∧ info.kind ≠ kind.toList)
        | none => false
      if otherKind then .ok false
      else if q.timestampGte.isSome || q.timestampLt.isSome then
        match strptime info.timestamp with
        | none => .ok false
        | some time =>
          let early :=
            match q.timestampGte with
            | some bound => isBefore time bound
            | none => .ok false
          let inside :=
            match q.timestampLt with
            | some bound => isBefore time bound
            | none => .ok true
          early.bind fun early => if early then .ok false else inside
      else .ok true

/-- `_filter_files_by_criteria`. -/
def filterFilesByCriteria (dir : EventsDir) (q : Criteria) :
    List EventFile → Except SearchError (List EventFile)
  | [] => .ok []
  | file :: files => do
    let keep ← meetsCriteria dir q file
    let rest ← filterFilesByCriteria dir q files
    .ok (if keep then file :: rest else rest)

/-- The files that a search and a count begin with. -/
def selectFiles (dir : EventsDir) (service : InfoService) (q : Criteria) :
    Except SearchError (List EventFile) :=
  filterFilesByCriteria dir q
    (filterFilesByConversation service (dir.getEventFiles q.conversationIdEq))

/-- `files.sort(key=lambda f: f.name, reverse=...)`. -/
def sortByName (sortOrder : EventSortOrder) (files : List EventFile) : List EventFile :=
  match sortOrder with
  | .TIMESTAMP => files.mergeSort fun f g => f.name ≤ g.name
  | .TIMESTAMP_DESC => files.mergeSort fun f g => g.name ≤ f.name

/-- The index of the first file of a page. -/
def startIndex (files : List EventFile) : Option String → ℕ
  | some pageId => if pageId = "" then 0 else PageTokens.startAfter EventFile.name files pageId
  | none => 0

/-- The files of a page, with the id of the next page. -/
def searchFiles (dir : EventsDir) (service : InfoService) (q : Criteria)
    (sortOrder : EventSortOrder) (limit : ℕ) (pageId : Option String) :
    Except SearchError (List EventFile × Option String) := do
  let files ← selectFiles dir service q
  let files := sortByName sortOrder files
  let start := startIndex files pageId
  let nextPageId :=
    if h : start + limit < files.length then some files[start + limit].name else none
  .ok ((files.drop start).take limit, nextPageId)

section Loaded

variable {Event : Type*} (load : EventFile → Option Event)

/-- `EventPage`. -/
structure EventPage (Event : Type*) where
  items : List Event
  nextPageId : Option String

/-- `_load_events_from_files`. -/
def loadEventsFromFiles (files : List EventFile) : List Event := files.filterMap load

/-- `search_events`. -/
def searchEvents (dir : EventsDir) (service : InfoService) (q : Criteria)
    (sortOrder : EventSortOrder) (limit : ℕ) (pageId : Option String) :
    Except SearchError (EventPage Event) :=
  match searchFiles dir service q sortOrder limit pageId with
  | .ok (pageFiles, nextPageId) =>
    .ok { items := loadEventsFromFiles load pageFiles, nextPageId }
  | .error error => .error error

end Loaded

/-- `count_events`. -/
def countEvents (dir : EventsDir) (service : InfoService) (q : Criteria) :
    Except SearchError ℕ :=
  (selectFiles dir service q).map List.length

end OpenHands.EventFiles
