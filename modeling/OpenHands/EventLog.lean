/-
# The event log: what an event stream is for

An event log is a list of events with strictly increasing ids, all below the next
id.  It is the abstract view of an event stream: `EventLog.ofStream` reads it off
the files of a stream, `searchEvents_ofStream` shows that a search of the stream is
a filter of the log, and `ofStream_addEvent` that `add_event` appends to it.

The controller and the state tracker are modelled over event logs.
-/
import OpenHands.StreamRuns

namespace OpenHands

/-- A stream of events as its readers see it. -/
@[ext] structure EventLog where
  events : List Event
  curId : ℤ
  sorted : events.Pairwise (fun a b => a.id < b.id)
  nonneg : ∀ e ∈ events, 0 ≤ e.id
  lt_curId : ∀ e ∈ events, e.id < curId
  curId_nonneg : 0 ≤ curId

namespace EventLog

/-- The log of a new conversation. -/
def empty : EventLog where
  events := []
  curId := 0
  sorted := .nil
  nonneg := by simp
  lt_curId := by simp
  curId_nonneg := le_refl 0

/-- `get_latest_event_id`. -/
def latestEventId (log : EventLog) : ℤ := log.curId - 1

/-- `search_events` without limit in increasing order: the events of the window that
pass the filter. -/
def searchEvents (log : EventLog) (startId : ℤ) (endId : Option ℤ) (filter : Event → Bool) :
    List Event :=
  log.events.filter fun e => (startId ≤ e.id ∧ ∀ last ∈ endId, e.id ≤ last) && filter e

/-- `add_event`: the event gets the next id and its source and is appended. -/
def addEvent (log : EventLog) (event : Event) (source : EventSource) : EventLog where
  events := log.events ++ [{ event with id := log.curId, source := some source }]
  curId := log.curId + 1
  sorted := pairwise_concat log.sorted log.lt_curId
  nonneg := by
    intro e he
    rcases List.mem_append.mp he with he | he
    · exact log.nonneg e he
    · rw [List.mem_singleton] at he
      subst he
      exact log.curId_nonneg
  lt_curId := by
    intro e he
    rcases List.mem_append.mp he with he | he
    · have := log.lt_curId e he
      omega
    · rw [List.mem_singleton] at he
      subst he
      exact Int.lt_succ log.curId
  curId_nonneg := by
    have := log.curId_nonneg
    omega

@[simp] theorem events_addEvent (log : EventLog) (event : Event) (source : EventSource) :
    (log.addEvent event source).events
      = log.events ++ [{ event with id := log.curId, source := some source }] := rfl

@[simp] theorem curId_addEvent (log : EventLog) (event : Event) (source : EventSource) :
    (log.addEvent event source).curId = log.curId + 1 := rfl

/-- The log after several events of one source. -/
def addEvents (log : EventLog) (events : List Event) (source : EventSource) : EventLog :=
  events.foldl (fun log event => log.addEvent event source) log

/-- The events of a window, by membership. -/
theorem mem_searchEvents {log : EventLog} {startId : ℤ} {endId : Option ℤ}
    {filter : Event → Bool} {e : Event} :
    e ∈ log.searchEvents startId endId filter ↔
      e ∈ log.events ∧ startId ≤ e.id ∧ (∀ last ∈ endId, e.id ≤ last) ∧ filter e = true := by
  simp only [searchEvents, List.mem_filter, Bool.and_eq_true, decide_eq_true_eq, and_assoc]

/-- A search keeps the order of the ids. -/
theorem sorted_searchEvents (log : EventLog) (startId : ℤ) (endId : Option ℤ)
    (filter : Event → Bool) :
    (log.searchEvents startId endId filter).Pairwise (fun a b => a.id < b.id) :=
  log.sorted.filter _

/-! ## The log of a stream -/

variable {stream : EventStream Event}

/-- The ids of the files of a stream in order. -/
def sortedIds (files : FileStore Event) : List ℤ := files.events.keys.insertionSort (· ≤ ·)

/-- The event read from the file of an id has that id. -/
theorem id_of_fileEvent {files : FileStore Event} (h : files.Coherent eventCodec) {id : ℤ}
    {e : Event} (he : fileEvent eventCodec files id = some e) : e.id = id := by
  cases hdata : files.events.lookup id with
  | none =>
    rw [fileEvent_eq_none hdata] at he
    cases he
  | some data =>
    obtain ⟨event, hparse, hevent⟩ := h.fileEvent_eq hdata
    rw [hevent] at he
    cases he
    have hid := (h.record id data hdata).1
    rw [← hid]
    exact eventCodec.eventId_eventFromDict hparse

/-- The events of a stream in increasing order of their ids. -/
theorem pairwise_filterMap_sortedIds {files : FileStore Event} (h : files.Coherent eventCodec)
    {ids : List ℤ} (hids : ids.Pairwise (· < ·)) :
    (ids.filterMap (fileEvent eventCodec files)).Pairwise (fun a b => a.id < b.id) := by
  refine List.Pairwise.filterMap _ ?_ hids
  intro i j hij a ha b hb
  rw [id_of_fileEvent h ha, id_of_fileEvent h hb]
  exact hij

theorem mem_filterMap_sortedIds {files : FileStore Event} (h : files.Coherent eventCodec)
    {e : Event} (he : e ∈ (sortedIds files).filterMap (fileEvent eventCodec files)) :
    e.id ∈ files.events.keys := by
  obtain ⟨id, hid, hevent⟩ := List.mem_filterMap.mp he
  rw [id_of_fileEvent h hevent]
  exact (List.mem_insertionSort _).mp hid

/-- The log of a stream that satisfies its invariant. -/
def ofStream (stream : EventStream Event) (h : StreamInvariant eventCodec stream) : EventLog where
  events := (sortedIds stream.fileStore).filterMap (fileEvent eventCodec stream.fileStore)
  curId := stream.curId
  sorted := pairwise_filterMap_sortedIds h.coherent
    (pairwise_lt_insertionSort stream.fileStore.events.keys_nodup)
  nonneg := fun _ he => h.coherent.nonneg _ (mem_filterMap_sortedIds h.coherent he)
  lt_curId := fun _ he => h.lt_curId _ (mem_filterMap_sortedIds h.coherent he)
  curId_nonneg := h.curId_nonneg

/-- The window can be cut before or after the ids are sorted. -/
theorem filter_plainEvents (h : StreamInvariant eventCodec stream) (startId : ℤ)
    (endId : Option ℤ) (filter : Event → Bool) :
    (plainEvents eventCodec stream.fileStore startId endId).filter filter
      = (ofStream stream h).searchEvents startId endId filter := by
  -- both sides of `hsort` are strictly increasing lists of the same ids
  have hsort : (stream.fileStore.events.keys.filter
        fun id => startId ≤ id ∧ ∀ last ∈ endId, id ≤ last).insertionSort (· ≤ ·)
      = (sortedIds stream.fileStore).filter
          fun id => startId ≤ id ∧ ∀ last ∈ endId, id ≤ last := by
    apply List.Pairwise.eq_of_mem_iff
      (pairwise_lt_insertionSort (stream.fileStore.events.keys_nodup.filter _))
      ((pairwise_lt_insertionSort stream.fileStore.events.keys_nodup).filter _)
    intro id
    simp only [List.mem_insertionSort, List.mem_filter]
  have hevents : plainEvents eventCodec stream.fileStore startId endId
      = (ofStream stream h).events.filter
          fun e => startId ≤ e.id ∧ ∀ last ∈ endId, e.id ≤ last := by
    rw [plainEvents]
    simp only [hsort, ofStream]
    rw [List.filterMap_filter, List.filter_filterMap]
    apply List.filterMap_congr
    intro id _
    -- the event read from the file of `id` has the id the window is asked about
    cases hevent : fileEvent eventCodec stream.fileStore id with
    | none => simp
    | some e => simp [id_of_fileEvent h.coherent hevent, Option.filter]
  rw [hevents, List.filter_filter, searchEvents]
  apply List.filter_congr
  intro e _
  rw [Bool.and_comm]

/-- **Refinement of the search**: searching the files and cache pages of a stream
forwards without limit is filtering its log. -/
theorem searchEvents_ofStream (h : StreamInvariant eventCodec stream) {store : EventStore Event}
    (hstore : ReadsStream store stream) (startId : ℤ) (endId : Option ℤ)
    (filter : Event → Bool) :
    store.searchEvents eventCodec startId endId false filter none
      = .ok ((ofStream stream h).searchEvents startId endId filter) := by
  rw [searchEvents_of_streamInvariant h hstore, plainSearch]
  simp only [Bool.false_eq_true, if_false, cutToLimit, filter_plainEvents h]

/-- The file of the event just written. -/
theorem fileEvent_insert (files : FileStore Event) (id i : ℤ) (e : Event) :
    fileEvent eventCodec { files with events := files.events.insert id e } i
      = if i = id then some e else fileEvent eventCodec files i := by
  unfold fileEvent
  by_cases hi : i = id
  · subst hi
    rw [if_pos rfl, AList.lookup_insert]
    rfl
  · rw [if_neg hi, AList.lookup_insert_ne hi]

/-- A new id above all others is sorted last. -/
theorem sortedIds_insert {files : FileStore Event} {id : ℤ}
    (h : ∀ i ∈ files.events.keys, i < id) (e : Event) :
    sortedIds { files with events := files.events.insert id e } = sortedIds files ++ [id] := by
  have hnew : id ∉ files.events.keys := fun hmem => lt_irrefl _ (h id hmem)
  have hkeys : (files.events.insert id e).keys = id :: files.events.keys := by
    rw [AList.keys_insert, List.erase_of_not_mem hnew]
  apply List.Pairwise.eq_of_mem_iff
    (pairwise_lt_insertionSort (files.events.insert id e).keys_nodup) (r := (· < ·))
  · refine pairwise_concat (pairwise_lt_insertionSort files.events.keys_nodup) ?_
    intro i hi
    exact h i ((List.mem_insertionSort _).mp hi)
  · intro i
    rw [List.mem_insertionSort, hkeys, List.mem_append, List.mem_singleton, sortedIds,
      List.mem_insertionSort, List.mem_cons]
    exact or_comm

/-- **Refinement of `add_event`**: the log of the stream after a call is the log
before it with the event appended under the next id. -/
theorem ofStream_addEvent (h : StreamInvariant eventCodec stream) (event : Event)
    (source : EventSource) (hid : event.id = invalidId)
    (h' : StreamInvariant eventCodec
      (OpenHands.addEvent eventCodec stream { event with source := some source }).1) :
    ofStream _ h' = (ofStream stream h).addEvent event source := by
  rcases addEvent_cases eventCodec stream { event with source := some source } with
    ⟨hne, -⟩ | ⟨hraise, -⟩ | ⟨data, queued, hdata, hqueued, heq⟩
  · exact absurd hid hne
  · -- the codec of the event model never raises
    refine absurd ?_ (hraise { event with id := stream.curId, source := some source })
    rw [OpenHands.addEvent, if_neg (fun hne => hne hid)]
    rfl
  · cases hdata
    cases hqueued
    have hevents : (OpenHands.addEvent eventCodec stream
        { event with source := some source }).1.fileStore.events
        = stream.fileStore.events.insert stream.curId
            { event with id := stream.curId, source := some source } := by
      rw [heq]
      exact events_storeCachePage _ _
    have hids : sortedIds (OpenHands.addEvent eventCodec stream
        { event with source := some source }).1.fileStore
        = sortedIds stream.fileStore ++ [stream.curId] := by
      rw [sortedIds, hevents]
      exact sortedIds_insert h.lt_curId _
    have hfile : fileEvent eventCodec (OpenHands.addEvent eventCodec stream
        { event with source := some source }).1.fileStore
        = fun i => if i = stream.curId then
            some { event with id := stream.curId, source := some source }
          else fileEvent eventCodec stream.fileStore i := by
      funext i
      rw [fileEvent, hevents]
      exact fileEvent_insert stream.fileStore stream.curId i _
    apply EventLog.ext
    · show (sortedIds _).filterMap (fileEvent eventCodec _) = _
      rw [hids, hfile, List.filterMap_append, events_addEvent]
      congr 1
      · apply List.filterMap_congr
        intro i hi
        have hlt := h.lt_curId i ((List.mem_insertionSort _).mp hi)
        rw [if_neg (ne_of_lt hlt)]
      · simp [ofStream]
    · show (OpenHands.addEvent eventCodec stream _).1.curId = stream.curId + 1
      rw [heq]
      rfl

end EventLog

end OpenHands
