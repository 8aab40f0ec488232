/-
# What the files of a conversation hold

A search reads an index from the aligned cache page when there is one, and otherwise from
the event file.  `indexEvent` is what it finds.  Files are *faithful* when every index
reads as an event with that id or as nothing; then a search yields the events of its
window in the order of their ids, whatever holes the ids have.

The second half follows the files over runs of `add_event` in which writes may fail:
  * `addEventWith_noFaults` — without faults this is `add_event`;
  * `faithful_storeAfter` — the files stay faithful as long as no event is lost to its
    serialisation while the write page is partly filled.
-/
import OpenHands.StreamRuns

namespace OpenHands

open Run

variable {E D : Type*} (codec : Codec E D)

/-! ## Reading an index -/

/-- The event a search finds at an index. -/
def indexEvent (files : FileStore D) (index : ℤ) : Option E :=
  match (readIndex codec files CachePage.dummy index).2 with
  | .ok found => found
  | .error _ => none

/-- The pages the loop of `search_events` holds: the dummy page, or an aligned one. -/
def HeldPage (files : FileStore D) (page : CachePage D) : Prop :=
  page = CachePage.dummy ∨ ∃ index, page = loadCachePageForIndex files index

variable {codec}

theorem covers_dummy (index : ℤ) : (CachePage.dummy : CachePage D).covers index = false := by
  rw [← Bool.not_eq_true, covers_iff]
  simp only [CachePage.dummy]
  omega

/-- An index lies on one aligned page only. -/
theorem loadCachePageForIndex_eq_of_covers {files : FileStore D} {index index' : ℤ}
    (h : (loadCachePageForIndex files index').covers index = true) :
    loadCachePageForIndex files index' = loadCachePageForIndex files index := by
  rw [covers_iff] at h
  simp only [loadCachePageForIndex, loadCachePage, cacheSize] at h ⊢
  have hstart : index' - index' % (25 : ℕ) = index - index % (25 : ℕ) := by omega
  rw [hstart]

/-- What an index reads as does not depend on the page the loop holds. -/
theorem readIndex_of_heldPage {files : FileStore D} {page : CachePage D}
    (h : HeldPage files page) (index : ℤ) :
    HeldPage files (readIndex codec files page index).1 ∧
      (readIndex codec files page index).2
        = (readIndex codec files CachePage.dummy index).2 := by
  have hpage : (if page.covers index then page else loadCachePageForIndex files index)
      = loadCachePageForIndex files index := by
    split
    · rename_i hcovers
      rcases h with rfl | ⟨index', rfl⟩
      · rw [covers_dummy] at hcovers
        cases hcovers
      · exact loadCachePageForIndex_eq_of_covers hcovers
    · rfl
  have hdummy : (if (CachePage.dummy : CachePage D).covers index then CachePage.dummy
      else loadCachePageForIndex files index) = loadCachePageForIndex files index := by
    rw [covers_dummy]
    rfl
  unfold readIndex
  rw [hpage, hdummy]
  exact ⟨Or.inr ⟨index, rfl⟩, rfl⟩

/-! ## Faithful files -/

/-- Files in which every index reads as the event of that id or as nothing, the ids all
below the one computed from the file names. -/
structure FileStore.Faithful (codec : Codec E D) (files : FileStore D) : Prop where
  reads : ∀ index, ∃ found, (readIndex codec files CachePage.dummy index).2 = .ok found
  own_id : ∀ index event, indexEvent codec files index = some event →
    codec.eventId event = index
  lt_curId : ∀ index event, indexEvent codec files index = some event →
    index < calculateCurId files

/-- The events a search meets in its window, in increasing order. -/
def eventsBetween (codec : Codec E D) (files : FileStore D) (startId : ℤ)
    (endId : Option ℤ) : List E :=
  (Int.range startId (({ fileStore := files } : EventStore D).exclusiveEnd endId)).filterMap
    (indexEvent codec files)

/-- A list of events in the direction of a search. -/
def directed (reverse : Bool) (events : List E) : List E :=
  if reverse then events.reverse else events

/-- Two lists of events in the order of their ids with the same members are equal. -/
theorem eq_of_mem_iff_of_pairwise_id {l l' : List E}
    (hl : l.Pairwise (fun a b => codec.eventId a < codec.eventId b))
    (hl' : l'.Pairwise (fun a b => codec.eventId a < codec.eventId b))
    (hmem : ∀ e, e ∈ l ↔ e ∈ l') : l = l' := by
  have : Std.Irrefl (fun a b : E => codec.eventId a < codec.eventId b) :=
    ⟨fun a => lt_irrefl _⟩
  have : Std.Antisymm (fun a b : E => codec.eventId a < codec.eventId b) :=
    ⟨fun a b hab hba => absurd hab (lt_asymm hba)⟩
  exact hl.eq_of_mem_iff hl' hmem

/-- The event lies in the window of a search. -/
def inWindow (codec : Codec E D) (startId : ℤ) (endId : Option ℤ) (event : E) : Bool :=
  startId ≤ codec.eventId event && endId.all fun last => codec.eventId event ≤ last

theorem inWindow_iff {startId : ℤ} {endId : Option ℤ} {event : E} :
    inWindow codec startId endId event = true ↔
      startId ≤ codec.eventId event ∧ ∀ last ∈ endId, codec.eventId event ≤ last := by
  cases endId <;> simp [inWindow]

section

variable {files : FileStore D} (h : files.Faithful codec)

include h

/-- Reading an index gives `indexEvent`. -/
theorem FileStore.Faithful.readIndex_eq (index : ℤ) :
    (readIndex codec files CachePage.dummy index).2 = .ok (indexEvent codec files index) := by
  obtain ⟨found, hfound⟩ := h.reads index
  rw [indexEvent, hfound]

/-- **Search over faithful files**: the events of the window in the direction asked for,
filtered and cut to the limit. -/
theorem searchEvents_of_faithful (startId : ℤ) (endId : Option ℤ) (reverse : Bool)
    (filter : E → Bool) (limit : Option ℤ) :
    ({ fileStore := files } : EventStore D).searchEvents codec startId endId reverse filter limit
      = .ok (cutToLimit limit
          ((directed reverse (eventsBetween codec files startId endId)).filter filter)) := by
  unfold EventStore.searchEvents
  have hread : ∀ page, HeldPage files page → ∀ index,
      HeldPage files (readIndex codec files page index).1 ∧
        (readIndex codec files page index).2 = .ok (indexEvent codec files index) := by
    intro page hpage index
    rw [← h.readIndex_eq index]
    exact readIndex_of_heldPage hpage index
  rw [searchLoop_of_reads hread filter limit _ _ 0 (Or.inl rfl), cutFrom_zero, searchIndices_eq,
    directed, eventsBetween]
  cases reverse with
  | false => rfl
  | true => simp only [if_true, List.filterMap_reverse]

/-- The events of a window are in the order of their ids. -/
theorem pairwise_eventsBetween (startId : ℤ) (endId : Option ℤ) :
    (eventsBetween codec files startId endId).Pairwise
      (fun a b => codec.eventId a < codec.eventId b) := by
  unfold eventsBetween
  rw [List.pairwise_filterMap]
  apply (pairwise_lt_range _ _).imp
  intro i j hij a ha b hb
  rw [h.own_id i a ha, h.own_id j b hb]
  exact hij

/-- The events of a window. -/
theorem mem_eventsBetween {startId : ℤ} {endId : Option ℤ} {event : E} :
    event ∈ eventsBetween codec files startId endId ↔
      indexEvent codec files (codec.eventId event) = some event ∧
        startId ≤ codec.eventId event ∧ ∀ last ∈ endId, codec.eventId event ≤ last := by
  unfold eventsBetween
  rw [List.mem_filterMap]
  constructor
  · rintro ⟨index, hindex, hevent⟩
    have hid := h.own_id index event hevent
    rw [Int.mem_range_iff] at hindex
    rw [hid]
    refine ⟨hevent, hindex.1, ?_⟩
    rintro last hlast
    rw [Option.mem_def] at hlast
    subst hlast
    have hlt : index < last + 1 := hindex.2
    omega
  · rintro ⟨hevent, hstart, hend⟩
    refine ⟨codec.eventId event, ?_, hevent⟩
    rw [Int.mem_range_iff]
    refine ⟨hstart, ?_⟩
    cases endId with
    | none => exact h.lt_curId _ _ hevent
    | some last =>
      have hle := hend last rfl
      show codec.eventId event < last + 1
      omega

/-- A smaller window holds the events of the larger one that lie in it. -/
theorem eventsBetween_eq_filter {startId startId' : ℤ} {endId endId' : Option ℤ}
    (hstart : startId ≤ startId') (hend : ∀ last ∈ endId, ∃ last' ∈ endId', last' ≤ last) :
    eventsBetween codec files startId' endId'
      = (eventsBetween codec files startId endId).filter (inWindow codec startId' endId') := by
  apply eq_of_mem_iff_of_pairwise_id (pairwise_eventsBetween h _ _)
    ((pairwise_eventsBetween h _ _).filter _)
  intro e
  rw [List.mem_filter, mem_eventsBetween h, mem_eventsBetween h, inWindow_iff]
  constructor
  · rintro ⟨hevent, hs, he⟩
    refine ⟨⟨hevent, hstart.trans hs, ?_⟩, hs, he⟩
    intro last hlast
    obtain ⟨last', hlast', hle⟩ := hend last hlast
    exact (he last' hlast').trans hle
  · rintro ⟨⟨hevent, -, -⟩, hs, he⟩
    exact ⟨hevent, hs, he⟩

end

/-! ## Writes that fail -/

/-- The writes of a call of `add_event` that raise. -/
structure WriteFaults where
  eventFile : Bool := false
  cachePage : Bool := false
  deriving DecidableEq, Repr

/-- `EventStream.add_event` with writes that may raise.  The id is taken and the record
stands on the write page before anything is written. -/
def addEventWith (codec : Codec E D) (faults : WriteFaults) (stream : EventStream D) (event : E) :
    EventStream D × Except PyError E :=
  if codec.eventId event ≠ invalidId then
    (stream, .error (.valueError s!"Event already has an ID:{codec.eventId event}. It was probably added back to the EventStream from inside a handler, triggering a loop."))
  else
    let id := stream.curId
    let stream := { stream with curIdField := some (id + 1) }
    match codec.eventToDict event id with
    | .error e => (stream, .error e)
    | .ok data =>
      match codec.eventFromDict data with
      | .error e => (stream, .error e)
      | .ok event =>
        let currentWritePage := stream.writePageCache ++ [data]
        let writePageCache :=
          if currentWritePage.length = cacheSize then [] else currentWritePage
        let stream := { stream with writePageCache := writePageCache }
        if faults.eventFile then (stream, .error .osError)
        else
          let files := { stream.fileStore with
            events := stream.fileStore.events.insert (codec.eventId event) data }
          if faults.cachePage ∧ cacheSize ≤ currentWritePage.length then
            ({ stream with fileStore := files }, .error .osError)
          else
            ({ stream with fileStore := storeCachePage codec files currentWritePage }, .ok event)

/-- Without faults this is the `add_event` whose writes succeed. -/
theorem addEventWith_noFaults (codec : Codec E D) (stream : EventStream D) (event : E) :
    addEventWith codec {} stream event = addEvent codec stream event := by
  unfold addEventWith addEvent
  split
  · rfl
  · cases hdata : codec.eventToDict event stream.curId with
    | error e => simp [hdata]
    | ok data =>
      cases hqueued : codec.eventFromDict data with
      | error e => simp [hdata, hqueued]
      | ok queued => simp [hdata, hqueued]

/-- What can happen to the stream of a session whose writes may fail. -/
inductive StoreCall (E : Type*) where
  | add (faults : WriteFaults) (event : E)
  | reopen

/-- The effect of a call on the stream. -/
def StoreCall.perform (codec : Codec E D) (stream : EventStream D) :
    StoreCall E → EventStream D
  | .add faults event => (addEventWith codec faults stream event).1
  | .reopen => .ofFiles stream.fileStore

/-- A page that a search reads, once it is stored: it begins at a multiple of the size. -/
def AlignedPage (codec : Codec E D) (page : List D) : Prop :=
  ∀ first ∈ page.head?, codec.dictId first % cacheSize = 0

/-- The call loses an event behind others of an aligned page: it takes an id, and the
dictionary of the event cannot be built or read while the write page is partly filled. -/
def StoreCall.LosesRecord (codec : Codec E D) (stream : EventStream D) : StoreCall E → Prop
  | .add _ event =>
    codec.eventId event = invalidId ∧ stream.writePageCache ≠ [] ∧
      AlignedPage codec stream.writePageCache ∧
      ∀ data queued, codec.eventToDict event stream.curId = .ok data →
        codec.eventFromDict data ≠ .ok queued
  | .reopen => False

/-- The stream after a run of calls from an empty file store. -/
def storeAfter (codec : Codec E D) (calls : List (StoreCall E)) : EventStream D :=
  run (StoreCall.perform codec) (.ofFiles .empty) calls

/-- No call of a run loses a record. -/
def LosslessRun (codec : Codec E D) (calls : List (StoreCall E)) : Prop :=
  ∀ p ∈ steps (StoreCall.perform codec) (.ofFiles .empty) calls, ¬ p.2.LosesRecord codec p.1

/-! ## Records -/

/-- The record of an id: it carries the id, it was made from an event, and it parses. -/
structure IsRecord (codec : Codec E D) (id : ℤ) (data : D) : Prop where
  dictId_eq : codec.dictId data = id
  written : ∃ event, codec.eventToDict event id = .ok data
  parses : ∃ event, codec.eventFromDict data = .ok event

/-- The invariant of files some of which may be missing: files and aligned pages hold
records, and an aligned page ends with an id that has its file. -/
structure FilesInvariant (codec : Codec E D) (files : FileStore D) : Prop where
  record : ∀ id data, files.events.lookup id = some data → IsRecord codec id data
  page : ∀ (start stop : ℤ) (page : List D), start % cacheSize = 0 →
    files.eventCache.lookup (start, stop) = some page →
    stop = start + cacheSize ∧ page.length = cacheSize ∧
      start + cacheSize - 1 ∈ files.events.keys ∧
      ∀ (k : ℕ) data, page[k]? = some data → IsRecord codec (start + k) data

/-- The write page of a stream: not full, and if it is aligned the records of the newest
ids. -/
structure WritePageInvariant (codec : Codec E D) (curId : ℤ) (page : List D) : Prop where
  length_lt : page.length < cacheSize
  record : AlignedPage codec page → ∀ (k : ℕ) data, page[k]? = some data →
    IsRecord codec (curId - page.length + k) data

/-- The invariant of a stream whose writes may fail. -/
structure ContentInvariant (codec : Codec E D) (stream : EventStream D) : Prop where
  files : FilesInvariant codec stream.fileStore
  lt_curId : ∀ id ∈ stream.fileStore.events.keys, id < stream.curId
  writePage : WritePageInvariant codec stream.curId stream.writePageCache

/-- A new file keeps the invariant. -/
theorem filesInvariant_insert {files : FileStore D} (h : FilesInvariant codec files) {id : ℤ}
    {data : D} (hdata : IsRecord codec id data) :
    FilesInvariant codec { files with events := files.events.insert id data } where
  record := by
    intro i d hd
    by_cases hi : i = id
    · subst hi
      rw [AList.lookup_insert] at hd
      cases hd
      exact hdata
    · rw [AList.lookup_insert_ne hi] at hd
      exact h.record i d hd
  page := by
    intro start stop page halign hpage
    obtain ⟨hstop, hlength, hlast, hrecords⟩ := h.page start stop page halign hpage
    refine ⟨hstop, hlength, ?_, hrecords⟩
    rw [← AList.mem_keys] at hlast ⊢
    exact (AList.mem_insert _).mpr (Or.inr hlast)

/-- A full page keeps the invariant, if it holds records whenever it is aligned. -/
theorem filesInvariant_storeCachePage {files : FileStore D} (h : FilesInvariant codec files)
    {page : List D} (hle : page.length ≤ cacheSize) {start : ℤ}
    (hlast : start + page.length - 1 ∈ files.events.keys)
    (hrecords : AlignedPage codec page → ∀ (k : ℕ) data, page[k]? = some data → IsRecord codec (start + k) data) :
    FilesInvariant codec (storeCachePage codec files page) := by
  unfold storeCachePage
  split
  · exact h
  · rename_i hfull
    have hlength : page.length = cacheSize := by omega
    cases page with
    | nil => exact h
    | cons first rest =>
      refine ⟨h.record, ?_⟩
      intro start' stop' page' halign hpage'
      by_cases hkey : (start', stop') = (codec.dictId first, codec.dictId first + (cacheSize : ℤ))
      · obtain ⟨rfl, rfl⟩ := Prod.mk.inj hkey
        simp only [AList.lookup_insert, Option.some.injEq] at hpage'
        subst hpage'
        have hrecords' := hrecords (by
          intro first' hfirst'
          cases hfirst'
          exact halign)
        -- the page is named by the id of its first record
        have hfirst : codec.dictId first = start := by
          have hdict := (hrecords' 0 first rfl).dictId_eq
          simpa using hdict
        rw [hlength] at hlast
        rw [hfirst]
        exact ⟨rfl, hlength, hlast, hrecords'⟩
      · simp only [AList.lookup_insert_ne hkey] at hpage'
        exact h.page start' stop' page' halign hpage'

/-- The records of the write page with one more. -/
theorem writePage_concat {curId : ℤ} {page : List D} (h : WritePageInvariant codec curId page)
    {data : D} (hdata : IsRecord codec curId data) (halign : AlignedPage codec (page ++ [data])) :
    ∀ (k : ℕ) d, (page ++ [data])[k]? = some d → IsRecord codec (curId - page.length + k) d := by
  intro k d hk
  by_cases hlt : k < page.length
  · rw [List.getElem?_append_left hlt] at hk
    refine h.record (fun first hfirst => halign first ?_) k d hk
    rw [List.head?_append, Option.mem_def.mp hfirst]
    rfl
  · rw [List.getElem?_append_right (by omega), List.getElem?_singleton] at hk
    split at hk
    · cases hk
      rw [show curId - (page.length : ℤ) + k = curId from by omega]
      exact hdata
    · cases hk

/-- The write page after a record was put on it. -/
theorem writePageInvariant_append {curId : ℤ} {page : List D}
    (h : WritePageInvariant codec curId page) {data : D} (hdata : IsRecord codec curId data) :
    WritePageInvariant codec (curId + 1)
      (if (page ++ [data]).length = cacheSize then [] else page ++ [data]) := by
  have hlength := h.length_lt
  split
  · exact ⟨cacheSize_pos, by simp⟩
  · rename_i hfull
    rw [List.length_append, List.length_singleton] at hfull
    refine ⟨by rw [List.length_append, List.length_singleton]; omega, ?_⟩
    intro halign k d hk
    have hrecord := writePage_concat h hdata halign k d hk
    rw [List.length_append, List.length_singleton]
    rw [show curId + 1 - ((page.length + 1 : ℕ) : ℤ) + k = curId - page.length + k from by
      push_cast
      omega]
    exact hrecord

/-! ## One call -/

/-- The files after a call that has made its record: nothing is written, the event file,
or the file and then the page. -/
def WrittenFiles (codec : Codec E D) (stream : EventStream D) (data : D) (files : FileStore D) :
    Prop :=
  let inserted := { stream.fileStore with
    events := stream.fileStore.events.insert stream.curId data }
  files = stream.fileStore ∨ files = inserted ∨
    files = storeCachePage codec inserted (stream.writePageCache ++ [data])

/-- What `add_event` does to the stream when writes may fail. -/
theorem addEventWith_cases (codec : Codec E D) (faults : WriteFaults) (stream : EventStream D)
    (event : E) :
    (codec.eventId event ≠ invalidId ∧ (addEventWith codec faults stream event).1 = stream) ∨
    (codec.eventId event = invalidId ∧
      (∀ data queued, codec.eventToDict event stream.curId = .ok data →
        codec.eventFromDict data ≠ .ok queued) ∧
      (addEventWith codec faults stream event).1
        = { stream with curIdField := some (stream.curId + 1) }) ∨
    ∃ data files, IsRecord codec stream.curId data ∧ WrittenFiles codec stream data files ∧
      (addEventWith codec faults stream event).1 =
        { fileStore := files
          curIdField := some (stream.curId + 1)
          writePageCache :=
            if (stream.writePageCache ++ [data]).length = cacheSize then []
            else stream.writePageCache ++ [data] } := by
  unfold addEventWith
  by_cases hid : codec.eventId event ≠ invalidId
  · left
    rw [if_pos hid]
    exact ⟨hid, rfl⟩
  · right
    rw [if_neg hid]
    rw [not_not] at hid
    cases hdata : codec.eventToDict event stream.curId with
    | error e =>
      left
      exact ⟨hid, by simp, by simp [hdata]⟩
    | ok data =>
      cases hqueued : codec.eventFromDict data with
      | error e =>
        left
        refine ⟨hid, ?_, by simp [hdata, hqueued]⟩
        intro data' queued hdata' hqueued'
        cases hdata'
        rw [hqueued] at hqueued'
        cases hqueued'
      | ok queued =>
        right
        have hrecord : IsRecord codec stream.curId data :=
          ⟨codec.dictId_eventToDict hdata, ⟨event, hdata⟩, ⟨queued, hqueued⟩⟩
        -- the file is named by the id of the event as it is read back
        have hfile : codec.eventId queued = stream.curId := by
          rw [codec.eventId_eventFromDict hqueued, codec.dictId_eventToDict hdata]
        simp only [hdata, hqueued, hfile]
        split
        · exact ⟨data, _, hrecord, Or.inl rfl, rfl⟩
        · split
          · exact ⟨data, _, hrecord, Or.inr (Or.inl rfl), rfl⟩
          · exact ⟨data, _, hrecord, Or.inr (Or.inr rfl), rfl⟩

/-- Files that a call has written keep their invariant, and have no id above its own. -/
theorem filesInvariant_written {stream : EventStream D} (h : ContentInvariant codec stream)
    {data : D} (hdata : IsRecord codec stream.curId data) {files : FileStore D}
    (hfiles : WrittenFiles codec stream data files) :
    FilesInvariant codec files ∧ ∀ id ∈ files.events.keys, id < stream.curId + 1 := by
  have hinserted := filesInvariant_insert h.files hdata
  have hkeys : ∀ id ∈ (stream.fileStore.events.insert stream.curId data).keys,
      id < stream.curId + 1 := by
    intro id hid
    rw [← AList.mem_keys, AList.mem_insert, AList.mem_keys] at hid
    rcases hid with rfl | hid
    · omega
    · have hlt := h.lt_curId id hid
      omega
  rcases hfiles with rfl | rfl | rfl
  · refine ⟨h.files, fun id hid => ?_⟩
    have hlt := h.lt_curId id hid
    omega
  · exact ⟨hinserted, hkeys⟩
  · have hlength := h.writePage.length_lt
    refine ⟨filesInvariant_storeCachePage hinserted (by simp; omega) ?_
      (writePage_concat h.writePage hdata), ?_⟩
    · -- the last id of the page is the one just written
      rw [← AList.mem_keys, AList.mem_insert]
      left
      simp only [List.length_append, List.length_singleton]
      push_cast
      omega
    · rw [events_storeCachePage]
      exact hkeys

/-- **Step lemma**: a call that loses no record keeps the invariant. -/
theorem contentInvariant_perform {stream : EventStream D} (h : ContentInvariant codec stream)
    (call : StoreCall E) (hcall : ¬ call.LosesRecord codec stream) :
    ContentInvariant codec (StoreCall.perform codec stream call) := by
  cases call with
  | reopen =>
    refine ⟨h.files, fun _ hid => lt_calculateCurId hid, ?_⟩
    exact ⟨cacheSize_pos, by simp [StoreCall.perform, EventStream.ofFiles]⟩
  | add faults event =>
    show ContentInvariant codec (addEventWith codec faults stream event).1
    rcases addEventWith_cases codec faults stream event with
      ⟨-, heq⟩ | ⟨hid, hraise, heq⟩ | ⟨data, files, hdata, hfiles, heq⟩
    · rw [heq]
      exact h
    · rw [heq]
      refine ⟨h.files, ?_, ?_⟩
      · intro id hmem
        have hlt := h.lt_curId id hmem
        simp only [curId_some]
        omega
      · refine ⟨h.writePage.length_lt, fun halign => ?_⟩
        -- nothing stands on an aligned write page, so the lost id leaves no gap on it
        have hpage : stream.writePageCache = [] := by
          by_contra hne
          exact hcall ⟨hid, hne, halign, hraise⟩
        simp [hpage]
    · rw [heq]
      obtain ⟨hinv, hlt⟩ := filesInvariant_written h hdata hfiles
      exact ⟨hinv, hlt, writePageInvariant_append h.writePage hdata⟩

/-- **Run lemma**: the invariant holds after every run that loses no record. -/
theorem contentInvariant_storeAfter {calls : List (StoreCall E)}
    (h : LosslessRun codec calls) : ContentInvariant codec (storeAfter codec calls) := by
  apply run_invariant (I := ContentInvariant codec)
    (C := fun stream call => ¬ StoreCall.LosesRecord codec stream call)
    (fun _ call hs hcall => contentInvariant_perform hs call hcall) _ h
  refine ⟨⟨by simp [EventStream.ofFiles, FileStore.empty],
    by simp [EventStream.ofFiles, FileStore.empty]⟩, ?_, ?_⟩
  · simp [EventStream.ofFiles, FileStore.empty]
  · exact ⟨cacheSize_pos, by simp [EventStream.ofFiles]⟩

/-! ## Faithful content -/

/-- The event of a record. -/
theorem IsRecord.exists_event {id : ℤ} {data : D} (h : IsRecord codec id data) :
    ∃ event, codec.eventFromDict data = .ok event ∧ codec.eventId event = id := by
  obtain ⟨event, hevent⟩ := h.parses
  exact ⟨event, hevent, by rw [codec.eventId_eventFromDict hevent, h.dictId_eq]⟩

/-- A cached record is what an index reads as. -/
theorem readIndex_of_cached {files : FileStore D} {index : ℤ} {event : E}
    (h : (loadCachePageForIndex files index).getEvent codec index = .ok (some event)) :
    (readIndex codec files CachePage.dummy index).2 = .ok (some event) := by
  unfold readIndex
  rw [covers_dummy]
  simp only [Bool.false_eq_true, if_false, h]

/-- Without a cached record the event file decides. -/
theorem readIndex_of_not_cached {files : FileStore D} (hfiles : FilesInvariant codec files)
    {index : ℤ} (h : (loadCachePageForIndex files index).getEvent codec index = .ok none) :
    (readIndex codec files CachePage.dummy index).2 = .ok none ∨
      ∃ data event, IsRecord codec index data ∧ codec.eventFromDict data = .ok event ∧
        (readIndex codec files CachePage.dummy index).2 = .ok (some event) ∧
        index ∈ files.events.keys := by
  unfold readIndex
  rw [covers_dummy]
  simp only [Bool.false_eq_true, if_false, h, getEvent]
  cases hdata : files.events.lookup index with
  | none => exact Or.inl rfl
  | some data =>
    right
    have hrecord := hfiles.record index data hdata
    obtain ⟨event, hevent, -⟩ := hrecord.exists_event
    refine ⟨data, event, hrecord, hevent, ?_, mem_keys_of_lookup hdata⟩
    simp only [hevent]

/-- **One index**: nothing is found, or the event of a record of that id. -/
theorem readIndex_cases {files : FileStore D} (h : FilesInvariant codec files) (index : ℤ) :
    (readIndex codec files CachePage.dummy index).2 = .ok none ∨
      ∃ data event, IsRecord codec index data ∧ codec.eventFromDict data = .ok event ∧
        (readIndex codec files CachePage.dummy index).2 = .ok (some event) ∧
        ∃ id ∈ files.events.keys, index ≤ id := by
  have hfile : (loadCachePageForIndex files index).getEvent codec index = .ok none →
      (readIndex codec files CachePage.dummy index).2 = .ok none ∨
        ∃ data event, IsRecord codec index data ∧ codec.eventFromDict data = .ok event ∧
          (readIndex codec files CachePage.dummy index).2 = .ok (some event) ∧
          ∃ id ∈ files.events.keys, index ≤ id := by
    intro hnone
    rcases readIndex_of_not_cached h hnone with hread | ⟨data, event, hrecord, hevent, hread, hmem⟩
    · exact Or.inl hread
    · exact Or.inr ⟨data, event, hrecord, hevent, hread, index, hmem, le_refl index⟩
  cases hpage : files.eventCache.lookup
      (index - index % cacheSize, index - index % cacheSize + cacheSize) with
  | none =>
    apply hfile
    simp only [CachePage.getEvent, loadCachePageForIndex, loadCachePage, hpage]
  | some page =>
    have halign : (index - index % cacheSize) % (cacheSize : ℤ) = 0 := by
      rw [Int.sub_emod, Int.emod_emod, sub_self, Int.zero_emod]
    obtain ⟨-, hlength, hlast, hrecords⟩ := h.page _ _ page halign hpage
    obtain ⟨hstart, hstop⟩ := covers_iff.mp (covers_loadCachePageForIndex files index)
    simp only [loadCachePageForIndex, loadCachePage] at hstart hstop
    cases page with
    | nil =>
      apply hfile
      simp only [CachePage.getEvent, loadCachePageForIndex, loadCachePage, hpage]
    | cons first rest =>
      right
      have hlt : (index - (index - index % (cacheSize : ℤ))).toNat < (first :: rest).length := by
        omega
      have hget := List.getElem?_eq_getElem hlt
      have hrecord := hrecords _ _ hget
      rw [show index - index % (cacheSize : ℤ)
        + ((index - (index - index % (cacheSize : ℤ))).toNat : ℤ) = index from by omega] at hrecord
      obtain ⟨event, hevent, -⟩ := hrecord.exists_event
      refine ⟨_, event, hrecord, hevent, ?_, _, hlast, by omega⟩
      apply readIndex_of_cached
      simp only [CachePage.getEvent, loadCachePageForIndex, loadCachePage, hpage, hget, hevent]
      rfl

/-- Files that hold records are faithful. -/
theorem faithful_of_filesInvariant {files : FileStore D} (h : FilesInvariant codec files) :
    files.Faithful codec where
  reads := by
    intro index
    rcases readIndex_cases h index with hnone | ⟨data, event, -, -, hsome, -⟩
    · exact ⟨_, hnone⟩
    · exact ⟨_, hsome⟩
  own_id := by
    intro index event hevent
    unfold indexEvent at hevent
    rcases readIndex_cases h index with hnone | ⟨data, event', hrecord, hparse, hsome, -⟩
    · rw [hnone] at hevent
      cases hevent
    · rw [hsome] at hevent
      cases hevent
      rw [codec.eventId_eventFromDict hparse, hrecord.dictId_eq]
  lt_curId := by
    intro index event hevent
    unfold indexEvent at hevent
    rcases readIndex_cases h index with hnone | ⟨data, event', -, -, -, id, hid, hle⟩
    · rw [hnone] at hevent
      cases hevent
    · exact lt_of_le_of_lt hle (lt_calculateCurId hid)

/-- **The content after a run** that loses no record is faithful. -/
theorem faithful_storeAfter {calls : List (StoreCall E)} (h : LosslessRun codec calls) :
    (storeAfter codec calls).fileStore.Faithful codec :=
  faithful_of_filesInvariant (contentInvariant_storeAfter h).files

end OpenHands
