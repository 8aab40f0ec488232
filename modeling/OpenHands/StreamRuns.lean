/-
# Searching a stored session

The stream of a session over a run of calls: events are added, and the stream is
closed and opened again any number of times.  `StreamInvariant` says that the files
stay coherent and that the write page holds the newest records; every admissible
call preserves it, so that a search after any run equals the plain reference.
-/
import OpenHands.EventStream

namespace OpenHands

open Run

variable {E D : Type*} {codec : Codec E D}

/-! ## The indices of a search -/

/-- Going down visits the same indices as going up, in the opposite order. -/
theorem searchIndices_eq (startId endId : ℤ) (reverse : Bool) :
    searchIndices startId endId reverse
      = if reverse then (Int.range startId endId).reverse else Int.range startId endId := by
  cases reverse with
  | false => rfl
  | true =>
    simp only [searchIndices, if_true, Int.range]
    apply List.ext_getElem
    · simp
    · intro k hk hk'
      simp only [List.length_map, List.length_range] at hk
      simp only [List.getElem_map, List.getElem_range, List.getElem_reverse, List.length_map,
        List.length_range]
      omega

theorem pairwise_lt_range (startId endId : ℤ) :
    (Int.range startId endId).Pairwise (· < ·) := by
  rw [Int.range, List.pairwise_map]
  exact List.pairwise_lt_range.imp (fun h => by omega)

/-- Sorting the distinct file names gives strictly increasing ids. -/
theorem pairwise_lt_insertionSort {ids : List ℤ} (h : ids.Nodup) :
    (ids.insertionSort (· ≤ ·)).Pairwise (· < ·) := by
  have hsorted : (ids.insertionSort (· ≤ ·)).Pairwise (· ≤ ·) := List.pairwise_insertionSort _ _
  have hnodup : (ids.insertionSort (· ≤ ·)).Pairwise (· ≠ ·) :=
    (List.perm_insertionSort (· ≤ ·) ids).nodup_iff.mpr h
  exact hsorted.imp₂ (fun a b hle hne => lt_of_le_of_ne hle hne) hnodup

/-- The files met while counting through the ids of a window are the files of the
window in the order of their names. -/
theorem filterMap_range_eq (files : FileStore D) (startId endId : ℤ) :
    (Int.range startId endId).filterMap (fileEvent codec files)
      = ((files.events.keys.filter fun id => startId ≤ id ∧ id < endId).insertionSort
          (· ≤ ·)).filterMap (fileEvent codec files) := by
  have hskip : (Int.range startId endId).filterMap (fileEvent codec files)
      = ((Int.range startId endId).filter (· ∈ files.events.keys)).filterMap
          (fileEvent codec files) := by
    rw [List.filterMap_filter]
    apply List.filterMap_congr
    intro id _
    by_cases hid : id ∈ files.events.keys
    · simp [hid]
    · rw [fileEvent_eq_none (AList.lookup_eq_none.mpr hid)]
      simp [hid]
  rw [hskip]
  congr 1
  apply List.Pairwise.eq_of_mem_iff ((pairwise_lt_range startId endId).filter _)
    (pairwise_lt_insertionSort (files.events.keys_nodup.filter _))
  intro id
  rw [List.mem_insertionSort]
  simp only [List.mem_filter, Int.mem_range_iff, decide_eq_true_eq]
  exact and_comm

/-- The ids below the current one are all ids: without `endId` the window is open. -/
theorem filter_window_eq (store : EventStore D)
    (hcur : ∀ id ∈ store.fileStore.events.keys, id < store.curId) (startId : ℤ)
    (endId : Option ℤ) :
    (store.fileStore.events.keys.filter fun id => startId ≤ id ∧ ∀ last ∈ endId, id ≤ last)
      = store.fileStore.events.keys.filter fun id =>
          startId ≤ id ∧ id < store.exclusiveEnd endId := by
  apply List.filter_congr
  intro id hid
  cases endId with
  | none => simp [EventStore.exclusiveEnd, hcur id hid]
  | some last =>
    simp only [EventStore.exclusiveEnd, Option.mem_def, Option.some.injEq, forall_eq',
      Int.lt_add_one_iff]

/-! ## A search of coherent files -/

/-- **Search over coherent files**: `search_events` of a store whose current id is
above all file names equals the plain reference, cut to the limit. -/
theorem searchEvents_of_coherent (store : EventStore D) (h : store.fileStore.Coherent codec)
    (hcur : ∀ id ∈ store.fileStore.events.keys, id < store.curId) (startId : ℤ)
    (endId : Option ℤ) (reverse : Bool) (filter : E → Bool) (limit : Option ℤ) :
    store.searchEvents codec startId endId reverse filter limit
      = .ok (cutToLimit limit
          (plainSearch codec store.fileStore startId endId reverse filter)) := by
  unfold EventStore.searchEvents
  rw [searchLoop_eq h filter limit _ _ 0 (pageSound_dummy _), cutFrom_zero, searchIndices_eq,
    plainSearch, plainEvents, filter_window_eq store hcur]
  cases reverse with
  | false => simp only [Bool.false_eq_true, if_false, filterMap_range_eq]
  | true => simp only [if_true, List.filterMap_reverse, filterMap_range_eq]

/-! ## The current id -/

theorem foldl_max_spec (ids : List ℤ) :
    ∀ m : ℤ, m ≤ ids.foldl (fun maxId id => if id ≥ maxId then id else maxId) m ∧
      ∀ id ∈ ids, id ≤ ids.foldl (fun maxId id => if id ≥ maxId then id else maxId) m := by
  induction ids with
  | nil => simp
  | cons x ids ih =>
    intro m
    rw [List.foldl_cons]
    obtain ⟨hle, hall⟩ := ih (if x ≥ m then x else m)
    have hm : m ≤ if x ≥ m then x else m := by split <;> omega
    have hx : x ≤ if x ≥ m then x else m := by split <;> omega
    refine ⟨hm.trans hle, ?_⟩
    intro id hid
    rcases List.mem_cons.mp hid with rfl | hid
    · exact hx.trans hle
    · exact hall id hid

/-- The id computed from the file names is above all of them. -/
theorem lt_calculateCurId {files : FileStore D} {id : ℤ} (h : id ∈ files.events.keys) :
    id < calculateCurId files := by
  rw [calculateCurId, if_neg (List.ne_nil_of_mem h)]
  have := (foldl_max_spec files.events.keys (-1)).2 id h
  omega

theorem calculateCurId_nonneg (files : FileStore D) : 0 ≤ calculateCurId files := by
  unfold calculateCurId
  split
  · exact le_refl 0
  · have := (foldl_max_spec files.events.keys (-1)).1
    omega

/-! ## The invariant of a stream -/

/-- The invariant of an open stream: coherent files, all below the current id, and
a write page that is not full and holds the records of the newest ids. -/
structure StreamInvariant (codec : Codec E D) (stream : EventStream D) : Prop where
  coherent : stream.fileStore.Coherent codec
  curId_nonneg : 0 ≤ stream.curId
  lt_curId : ∀ id ∈ stream.fileStore.events.keys, id < stream.curId
  page_length : stream.writePageCache.length < cacheSize
  page_record : ∀ (k : ℕ) data, stream.writePageCache[k]? = some data →
    stream.fileStore.events.lookup (stream.curId - stream.writePageCache.length + k) = some data

/-- A stream opened on coherent files satisfies the invariant. -/
theorem streamInvariant_ofFiles {files : FileStore D} (h : files.Coherent codec) :
    StreamInvariant codec (.ofFiles files) where
  coherent := h
  curId_nonneg := calculateCurId_nonneg files
  lt_curId := fun _ hid => lt_calculateCurId hid
  page_length := cacheSize_pos
  page_record := by
    intro k data hk
    simp [EventStream.ofFiles] at hk

/-- The files of a new conversation are coherent. -/
theorem coherent_empty : (FileStore.empty : FileStore D).Coherent codec where
  nonneg := by simp [FileStore.empty]
  record := by simp [FileStore.empty]
  page := by simp [FileStore.empty]

/-- Writing the file of a new id keeps the files coherent. -/
theorem coherent_insert {files : FileStore D} (h : files.Coherent codec) {id : ℤ}
    (hid : 0 ≤ id) (hnew : id ∉ files.events.keys) {data : D} (hdict : codec.dictId data = id)
    {event : E} (hparse : codec.eventFromDict data = .ok event) :
    ({ files with events := files.events.insert id data } : FileStore D).Coherent codec where
  nonneg := by
    intro i hi
    rw [← AList.mem_keys, AList.mem_insert, AList.mem_keys] at hi
    rcases hi with rfl | hi
    · exact hid
    · exact h.nonneg i hi
  record := by
    intro i d hd
    by_cases hi : i = id
    · subst hi
      rw [AList.lookup_insert] at hd
      cases hd
      exact ⟨hdict, event, hparse⟩
    · rw [AList.lookup_insert_ne hi] at hd
      exact h.record i d hd
  page := by
    intro start stop page hpage
    obtain ⟨hstop, hlength, hrecords⟩ := h.page start stop page hpage
    refine ⟨hstop, hlength, ?_⟩
    intro k d hk
    have hd := hrecords k d hk
    -- the records of a page have their files, the new id had none
    have hne : start + (k : ℤ) ≠ id := by
      rintro rfl
      exact hnew (mem_keys_of_lookup hd)
    show (files.events.insert id data).lookup _ = _
    rw [AList.lookup_insert_ne hne, hd]

/-- Storing a cache page leaves the event files alone. -/
theorem events_storeCachePage (files : FileStore D) (page : List D) :
    (storeCachePage codec files page).events = files.events := by
  unfold storeCachePage
  split
  · rfl
  · cases page <;> rfl

/-- Storing a full page whose records are in their files keeps the files coherent. -/
theorem coherent_storeCachePage {files : FileStore D} (h : files.Coherent codec)
    {page : List D} (hle : page.length ≤ cacheSize) {start : ℤ}
    (hrecords : ∀ (k : ℕ) data, page[k]? = some data →
      files.events.lookup (start + k) = some data) :
    (storeCachePage codec files page).Coherent codec := by
  unfold storeCachePage
  split
  · exact h
  · cases page with
    | nil => exact h
    | cons first rest =>
      refine ⟨h.nonneg, h.record, ?_⟩
      -- the page is named by the id of its first record
      have hfirst : codec.dictId first = start := by
        have hlookup := hrecords 0 first rfl
        have hdict := (h.record _ _ hlookup).1
        simpa using hdict
      intro start' stop' page' hpage'
      by_cases hkey : (start', stop') = (codec.dictId first, codec.dictId first + (cacheSize : ℤ))
      · obtain ⟨rfl, rfl⟩ := Prod.mk.inj hkey
        simp only [AList.lookup_insert, Option.some.injEq] at hpage'
        subst hpage'
        refine ⟨rfl, by omega, ?_⟩
        intro k data hk
        rw [hfirst]
        exact hrecords k data hk
      · simp only [AList.lookup_insert_ne hkey] at hpage'
        exact h.page start' stop' page' hpage'

/-! ## One call -/

/-- What `add_event` does to the stream: refused before it takes an id, it changes
nothing; raising later it has used up the id; otherwise it has written the record
under the id, and the page when that is full. -/
theorem addEvent_cases (codec : Codec E D) (stream : EventStream D) (event : E) :
    (codec.eventId event ≠ invalidId ∧ (addEvent codec stream event).1 = stream) ∨
    ((∀ queued, (addEvent codec stream event).2 ≠ .ok queued) ∧
      (addEvent codec stream event).1 = { stream with curIdField := some (stream.curId + 1) }) ∨
    ∃ data queued, codec.eventToDict event stream.curId = .ok data ∧
      codec.eventFromDict data = .ok queued ∧
      (addEvent codec stream event).1 =
        { fileStore := storeCachePage codec
            { stream.fileStore with
              events := stream.fileStore.events.insert stream.curId data }
            (stream.writePageCache ++ [data])
          curIdField := some (stream.curId + 1)
          writePageCache :=
            if (stream.writePageCache ++ [data]).length = cacheSize then []
            else stream.writePageCache ++ [data] } := by
  unfold addEvent
  by_cases hid : codec.eventId event ≠ invalidId
  · left
    rw [if_pos hid]
    exact ⟨hid, rfl⟩
  · right
    rw [if_neg hid]
    cases hdata : codec.eventToDict event stream.curId with
    | error e => exact Or.inl ⟨by simp [hdata], by simp [hdata]⟩
    | ok data =>
      cases hqueued : codec.eventFromDict data with
      | error e => exact Or.inl ⟨by simp [hdata, hqueued], by simp [hdata, hqueued]⟩
      | ok queued =>
        right
        -- the file is named by the id of the event as it is read back
        have hfile : codec.eventId queued = stream.curId := by
          rw [codec.eventId_eventFromDict hqueued, codec.dictId_eventToDict hdata]
        exact ⟨data, queued, rfl, hqueued, by simp only [hdata, hqueued, hfile]⟩

/-- The current id of a stream that has taken one is the one it has. -/
@[simp] theorem curId_some (files : FileStore D) (id : ℤ) :
    (EventStore.mk files (some id)).curId = id := rfl

/-- A call that raises with an empty write page loses its id and nothing else. -/
theorem streamInvariant_skip {stream : EventStream D} (h : StreamInvariant codec stream)
    (hpage : stream.writePageCache = []) :
    StreamInvariant codec { stream with curIdField := some (stream.curId + 1) } where
  coherent := h.coherent
  curId_nonneg := by
    have := h.curId_nonneg
    simp only [curId_some]
    omega
  lt_curId := by
    intro id hid
    have := h.lt_curId id hid
    simp only [curId_some]
    omega
  page_length := h.page_length
  page_record := by
    intro k data hk
    rw [hpage] at hk
    simp at hk

/-- The records of the page stand in their files, the new one in its own. -/
theorem pageRecord_insert {stream : EventStream D} (h : StreamInvariant codec stream) (data : D) :
    ∀ (k : ℕ) d, (stream.writePageCache ++ [data])[k]? = some d →
      (stream.fileStore.events.insert stream.curId data).lookup
        (stream.curId - stream.writePageCache.length + k) = some d := by
  intro k d hk
  by_cases hlt : k < stream.writePageCache.length
  · rw [List.getElem?_append_left hlt] at hk
    have hne : stream.curId - stream.writePageCache.length + (k : ℤ) ≠ stream.curId := by omega
    rw [AList.lookup_insert_ne hne]
    exact h.page_record k d hk
  · rw [List.getElem?_append_right (by omega)] at hk
    have hkeq : k = stream.writePageCache.length := by
      by_contra hne
      rw [List.getElem?_eq_none (by simp; omega)] at hk
      cases hk
    subst hkeq
    simp only [Nat.sub_self, List.getElem?_cons_zero, Option.some.injEq] at hk
    subst hk
    rw [show stream.curId - (stream.writePageCache.length : ℤ) + stream.writePageCache.length
      = stream.curId from by omega, AList.lookup_insert]

/-- **A call that writes its event keeps the invariant.** -/
theorem streamInvariant_write {stream : EventStream D} (h : StreamInvariant codec stream)
    {event queued : E} {data : D} (hdata : codec.eventToDict event stream.curId = .ok data)
    (hqueued : codec.eventFromDict data = .ok queued) :
    StreamInvariant codec
      { fileStore := storeCachePage codec
          { stream.fileStore with
            events := stream.fileStore.events.insert stream.curId data }
          (stream.writePageCache ++ [data])
        curIdField := some (stream.curId + 1)
        writePageCache :=
          if (stream.writePageCache ++ [data]).length = cacheSize then []
          else stream.writePageCache ++ [data] } := by
  have hnew : stream.curId ∉ stream.fileStore.events.keys := fun hmem =>
    lt_irrefl _ (h.lt_curId _ hmem)
  have hfiles := coherent_insert h.coherent h.curId_nonneg hnew
    (codec.dictId_eventToDict hdata) hqueued
  have hrecords := pageRecord_insert h data
  have hlength : (stream.writePageCache ++ [data]).length ≤ cacheSize := by
    have := h.page_length
    simp only [List.length_append, List.length_singleton]
    omega
  have hevents : (storeCachePage codec
      { stream.fileStore with events := stream.fileStore.events.insert stream.curId data }
      (stream.writePageCache ++ [data])).events
      = stream.fileStore.events.insert stream.curId data := events_storeCachePage _ _
  constructor
  · exact coherent_storeCachePage hfiles hlength hrecords
  · have := h.curId_nonneg
    simp only [curId_some]
    omega
  · intro id hid
    simp only [curId_some]
    simp only [hevents] at hid
    rw [← AList.mem_keys, AList.mem_insert, AList.mem_keys] at hid
    rcases hid with rfl | hid
    · omega
    · have := h.lt_curId id hid
      omega
  · show (if _ then _ else _ : List D).length < cacheSize
    split
    · exact cacheSize_pos
    · omega
  · intro k d hk
    simp only [curId_some, hevents]
    split at hk
    · simp at hk
    · rename_i hfull
      rw [if_neg hfull, ← hrecords k d hk]
      congr 1
      simp only [List.length_append, List.length_singleton]
      push_cast
      omega

/-- **Step lemma**: every admissible call keeps the invariant. -/
theorem streamInvariant_perform {stream : EventStream D} (h : StreamInvariant codec stream)
    (call : StreamCall E) (hcall : call.Admissible codec stream) :
    StreamInvariant codec (StreamCall.perform codec stream call) := by
  cases call with
  | reopen => exact streamInvariant_ofFiles h.coherent
  | add event =>
    show StreamInvariant codec (addEvent codec stream event).1
    rcases addEvent_cases codec stream event with
      ⟨-, heq⟩ | ⟨hraise, heq⟩ | ⟨data, queued, hdata, hqueued, heq⟩
    · rw [heq]
      exact h
    · rw [heq]
      rcases hcall with ⟨queued, hok⟩ | hid | hpage
      · exact absurd hok (hraise queued)
      · -- refused before an id was taken: both descriptions of the stream agree
        have hrefused : (addEvent codec stream event).1 = stream := by
          rw [addEvent, if_pos hid]
        rw [← heq, hrefused]
        exact h
      · exact streamInvariant_skip h hpage
    · rw [heq]
      exact streamInvariant_write h hdata hqueued

/-! ## Runs -/

/-- The calls of a run from an empty file store are all admissible. -/
def AdmissibleRun (codec : Codec E D) (calls : List (StreamCall E)) : Prop :=
  ∀ p ∈ steps (StreamCall.perform codec) (.ofFiles .empty) calls, p.2.Admissible codec p.1

/-- The stream after a run of calls from an empty file store. -/
def streamAfter (codec : Codec E D) (calls : List (StreamCall E)) : EventStream D :=
  run (StreamCall.perform codec) (.ofFiles .empty) calls

/-- **Run lemma**: the invariant holds after every run. -/
theorem streamInvariant_streamAfter {calls : List (StreamCall E)}
    (h : AdmissibleRun codec calls) : StreamInvariant codec (streamAfter codec calls) :=
  run_invariant (I := StreamInvariant codec)
    (fun _ call hs hcall => streamInvariant_perform hs call hcall)
    (streamInvariant_ofFiles coherent_empty) h

/-- A store that reads the files of a stream: the stream itself, or a store newly
created on its files. -/
def ReadsStream (store : EventStore D) (stream : EventStream D) : Prop :=
  store = stream.toEventStore ∨ store = { fileStore := stream.fileStore }

/-- Searching a stream that satisfies the invariant. -/
theorem searchEvents_of_streamInvariant {stream : EventStream D}
    (hinv : StreamInvariant codec stream) {store : EventStore D}
    (hstore : ReadsStream store stream) (startId : ℤ) (endId : Option ℤ) (reverse : Bool)
    (filter : E → Bool) (limit : Option ℤ) :
    store.searchEvents codec startId endId reverse filter limit
      = .ok (cutToLimit limit
          (plainSearch codec stream.fileStore startId endId reverse filter)) := by
  rcases hstore with rfl | rfl
  · exact searchEvents_of_coherent _ hinv.coherent hinv.lt_curId startId endId reverse filter limit
  · exact searchEvents_of_coherent { fileStore := stream.fileStore } hinv.coherent
      (fun _ hid => lt_calculateCurId hid) startId endId reverse filter limit

/-- **Searching after any run** equals the plain reference over the event files:
the events with their own file in the window, in the direction asked for, filtered
and cut to the limit.  The search never raises. -/
theorem searchEvents_streamAfter (calls : List (StreamCall E)) (hcalls : AdmissibleRun codec calls)
    (store : EventStore D) (hstore : ReadsStream store (streamAfter codec calls))
    (startId : ℤ) (endId : Option ℤ) (reverse : Bool) (filter : E → Bool) (limit : Option ℤ) :
    store.searchEvents codec startId endId reverse filter limit
      = .ok (cutToLimit limit (plainSearch codec (streamAfter codec calls).fileStore startId endId
          reverse filter)) :=
  searchEvents_of_streamInvariant (streamInvariant_streamAfter hcalls) hstore startId endId
    reverse filter limit

/-- A session in which two events are added, the stream reopened in between. -/
def twoEventCalls : List (StreamCall Event) :=
  [.add (.ofAction .null), .reopen, .add (.ofAction .condensationRequest)]

theorem admissibleRun_twoEventCalls : AdmissibleRun eventCodec twoEventCalls := by
  intro p hp
  simp only [twoEventCalls, steps_cons, steps_nil, List.mem_cons, List.not_mem_nil, or_false] at hp
  rcases hp with rfl | rfl | rfl
  · exact Or.inl ⟨_, rfl⟩
  · trivial
  · exact Or.inl ⟨_, rfl⟩

/-- A session of 26 events, of which the first 25 fill a page of the cache, opened again. -/
def fullPageCalls : List (StreamCall Event) :=
  List.replicate 26 (.add (.ofAction .null)) ++ [.reopen]

theorem admissibleRun_fullPageCalls : AdmissibleRun eventCodec fullPageCalls := by
  intro p hp
  have hcall : p.2 ∈ fullPageCalls := mem_of_mem_steps hp
  rcases List.mem_append.mp hcall with hadd | hreopen
  · rw [List.eq_of_mem_replicate hadd]
    exact Or.inl ⟨_, rfl⟩
  · rw [List.mem_singleton.mp hreopen]
    trivial

/-- The search theorem at this session, downwards with limit three. -/
theorem searchEvents_fullPageCalls :
    (streamAfter eventCodec fullPageCalls).toEventStore.searchEvents eventCodec 0 none true
        (fun _ => true) (some 3)
      = .ok (cutToLimit (some 3) (plainSearch eventCodec
          (streamAfter eventCodec fullPageCalls).fileStore 0 none true (fun _ => true))) :=
  searchEvents_streamAfter fullPageCalls admissibleRun_fullPageCalls _ (Or.inl rfl) 0 none true
    (fun _ => true) (some 3)

/-- A negative limit is not ignored: the search stops after the first event. -/
theorem searchEvents_negative_limit :
    ¬ ∀ (calls : List (StreamCall Event)), AdmissibleRun eventCodec calls →
      ∀ (startId : ℤ) (endId : Option ℤ) (reverse : Bool) (filter : Event → Bool)
        (limit : Option ℤ), 0 ≤ startId →
      (streamAfter eventCodec calls).toEventStore.searchEvents eventCodec startId endId reverse
          filter limit
        = .ok (cutToPositiveLimit limit (plainSearch eventCodec
            (streamAfter eventCodec calls).fileStore startId endId reverse filter)) := by
  intro h
  have hsearch := h twoEventCalls admissibleRun_twoEventCalls 0 none false (fun _ => true)
    (some (-1)) (le_refl 0)
  revert hsearch
  decide

end OpenHands
