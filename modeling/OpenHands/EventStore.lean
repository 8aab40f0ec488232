/-
# The event store: event files, cache pages and `search_events`

`openhands/events/event_store.py` keeps a conversation as one JSON file
`events/{id}.json` per event, and reads it back either file by file or from cache
pages `event_cache/{start}-{end}.json` that hold the records of `cache_size`
consecutive ids.  The two directories are two finite maps here.

The model is generic in the event type `E` and in the type `D` of the JSON
dictionaries, tied by a `Codec` (`event_to_dict` and `event_from_dict`).
-/
import OpenHands.Event
import Mathlib.Data.List.AList
import Mathlib.Data.List.Sort

namespace OpenHands

/-! ## Serialisation -/

/-- `event_to_dict` (with `_replace_secrets`) and `event_from_dict`: both may
raise.  The dictionary of an event that was given an id carries that id under its
key `id`, and the event read back from a dictionary has the id found there. -/
structure Codec (E D : Type*) where
  eventId : E → ℤ
  eventToDict : E → ℤ → Except PyError D
  eventFromDict : D → Except PyError E
  dictId : D → ℤ
  dictId_eventToDict : ∀ {e i d}, eventToDict e i = .ok d → dictId d = i
  eventId_eventFromDict : ∀ {d e}, eventFromDict d = .ok e → eventId e = dictId d

/-- The codec of the event model: an event stands for its own dictionary. -/
def eventCodec : Codec Event Event where
  eventId := Event.id
  eventToDict := fun e i => .ok { e with id := i }
  eventFromDict := .ok
  dictId := Event.id
  dictId_eventToDict := by
    intro e i d h
    cases h
    rfl
  eventId_eventFromDict := by
    intro d e h
    cases h
    rfl

/-! ## Files -/

/-- The two directories of a conversation in the file store: `events/{id}.json`
and `event_cache/{start}-{end}.json`. -/
structure FileStore (D : Type*) where
  events : AList (fun _ : ℤ => D)
  eventCache : AList (fun _ : ℤ × ℤ => List D)

variable {E D : Type*}

/-- The store of a new conversation. -/
def FileStore.empty : FileStore D := ⟨∅, ∅⟩

/-- `cache_size`, as every `EventStore` and `EventStream` is created with. -/
def cacheSize : ℕ := 25

theorem cacheSize_pos : 0 < cacheSize := by decide

/-- `_calculate_cur_id`: one more than the highest id among the file names, `0`
without files. -/
def calculateCurId (files : FileStore D) : ℤ :=
  if files.events.keys = [] then 0
  else files.events.keys.foldl (fun maxId id => if id ≥ maxId then id else maxId) (-1) + 1

/-- `EventStore`: the files and the lazily computed `_cur_id`. -/
structure EventStore (D : Type*) where
  fileStore : FileStore D
  curIdField : Option ℤ := none

/-- The property `cur_id`. -/
def EventStore.curId (store : EventStore D) : ℤ :=
  store.curIdField.getD (calculateCurId store.fileStore)

/-! ## Cache pages -/

/-- `_CachePage`. -/
structure CachePage (D : Type*) where
  events : Option (List D)
  start : ℤ
  stop : ℤ

/-- `_DUMMY_PAGE`: covers no index. -/
def CachePage.dummy : CachePage D := ⟨none, 1, -1⟩

/-- `_CachePage.covers`. -/
def CachePage.covers (page : CachePage D) (globalIndex : ℤ) : Bool :=
  if globalIndex < page.start then false
  else if globalIndex ≥ page.stop then false
  else true

/-- `_CachePage.get_event`: `None` without a cached page, otherwise the record at
the local index, parsed. -/
def CachePage.getEvent (codec : Codec E D) (page : CachePage D) (globalIndex : ℤ) :
    Except PyError (Option E) :=
  match page.events with
  | none => .ok none
  | some [] => .ok none
  | some events =>
    let localIndex := globalIndex - page.start
    match events[localIndex.toNat]? with
    | none => .error .indexError
    | some data => (codec.eventFromDict data).map some

/-- `_load_cache_page`. -/
def loadCachePage (files : FileStore D) (start stop : ℤ) : CachePage D :=
  ⟨files.eventCache.lookup (start, stop), start, stop⟩

/-- `_load_cache_page_for_index`: the aligned page of the index. -/
def loadCachePageForIndex (files : FileStore D) (index : ℤ) : CachePage D :=
  let offset := index % cacheSize
  let index := index - offset
  loadCachePage files index (index + cacheSize)

/-! ## Searching -/

/-- `EventStore.get_event`. -/
def getEvent (codec : Codec E D) (files : FileStore D) (id : ℤ) : Except PyError E :=
  match files.events.lookup id with
  | none => .error .fileNotFoundError
  | some data => codec.eventFromDict data

/-- One index of the loop of `search_events`: the page it is read from, and the
event found.  A missing file is no error: the index is skipped. -/
def readIndex (codec : Codec E D) (files : FileStore D) (cachePage : CachePage D) (index : ℤ) :
    CachePage D × Except PyError (Option E) :=
  let cachePage :=
    if cachePage.covers index then cachePage else loadCachePageForIndex files index
  let event :=
    match cachePage.getEvent codec index with
    | .ok none =>
      match getEvent codec files index with
      | .ok event => .ok (some event)
      | .error .fileNotFoundError => .ok none
      | .error e => .error e
    | found => found
  (cachePage, event)

/-- `if limit and limit <= num_results`. -/
def limitReached (limit : Option ℤ) (numResults : ℕ) : Bool :=
  match limit with
  | none => false
  | some limit => limit ≠ 0 && limit ≤ numResults

/-- The loop of `search_events` over the indices that are left. -/
def searchLoop (codec : Codec E D) (files : FileStore D) (filter : E → Bool)
    (limit : Option ℤ) : List ℤ → CachePage D → ℕ → Except PyError (List E)
  | [], _, _ => .ok []
  | index :: indices, cachePage, numResults =>
    match readIndex codec files cachePage index with
    | (_, .error e) => .error e
    | (cachePage, .ok none) => searchLoop codec files filter limit indices cachePage numResults
    | (cachePage, .ok (some event)) =>
      if filter event then
        if limitReached limit (numResults + 1) then .ok [event]
        else (event :: ·) <$>
          searchLoop codec files filter limit indices cachePage (numResults + 1)
      else searchLoop codec files filter limit indices cachePage numResults

/-- The indices of `range(start_id, end_id, step)` after the direction has been
applied; `end_id` is exclusive. -/
def searchIndices (startId endId : ℤ) (reverse : Bool) : List ℤ :=
  if reverse then
    let (startId, endId) := (endId - 1, startId - 1)
    (List.range (startId - endId).toNat).map (fun k : ℕ => startId - (k : ℤ))
  else Int.range startId endId

/-- The exclusive end of a search: the current id, or one past the inclusive
`end_id`. -/
def EventStore.exclusiveEnd (store : EventStore D) (endId : Option ℤ) : ℤ :=
  match endId with
  | none => store.curId
  | some endId => endId + 1

/-- `EventStore.search_events`, the events yielded in order.  The process is taken
not to be shutting down (`should_continue()`). -/
def EventStore.searchEvents (codec : Codec E D) (store : EventStore D) (startId : ℤ)
    (endId : Option ℤ) (reverse : Bool) (filter : E → Bool) (limit : Option ℤ) :
    Except PyError (List E) :=
  searchLoop codec store.fileStore filter limit
    (searchIndices startId (store.exclusiveEnd endId) reverse) CachePage.dummy 0

end OpenHands
