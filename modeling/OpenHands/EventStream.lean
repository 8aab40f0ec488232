/-
# The event stream: `add_event` and the cache pages it writes

`EventStream.add_event` takes the next id, appends the record to the in-memory
write page, writes the event file and, when the page is full, the cache page.  The
write page starts empty whenever a stream is opened, so a page may begin at any
id, while `search_events` reads aligned pages only.

`Coherent` is the invariant that makes the two agree: a stored cache page holds
exactly the records of its ids.  Over it, `search_events` equals the plain
reference `plainSearch`, which only looks at the event files.
-/
import OpenHands.EventStore
import OpenHands.Lib.Run

namespace OpenHands

variable {E D : Type*} (codec : Codec E D)

/-! ## Opening and appending -/

/-- `EventStream`: an event store with the in-memory write page. -/
structure EventStream (D : Type*) extends EventStore D where
  writePageCache : List D := []

/-- A stream just opened on the files: `_cur_id` is not known yet, the write page
is empty. -/
def EventStream.ofFiles (files : FileStore D) : EventStream D := { fileStore := files }

/-- `_store_cache_page`. -/
def storeCachePage (files : FileStore D) (currentWritePage : List D) : FileStore D :=
  if currentWritePage.length < cacheSize then files
  else
    match currentWritePage with
    | [] => files
    | first :: _ =>
      let start := codec.dictId first
      let stop := start + cacheSize
      { files with eventCache := files.eventCache.insert (start, stop) currentWritePage }

/-- `EventStream.add_event`, with writes that succeed: the stream afterwards and
the event put on the queue, or the exception raised.  The id is taken before the
event is serialised, so a call that raises there has used up its id. -/
def addEvent (stream : EventStream D) (event : E) : EventStream D × Except PyError E :=
  if codec.eventId event ≠ invalidId then
    (stream, .error (.valueError s!"Event already has an ID:{codec.eventId event}. It was probably added back to the EventStream from inside a handler, triggering a loop."))
  else
    let id := stream.curId
    let stream := { stream with curIdField := some (id + 1) }
    match codec.eventToDict event id with
    | .error e => (stream, .error e)
    | .ok data =>
      match codec.eventFromDict data with
      | .error e => (stream, .error e)
      | .ok event =>
        let currentWritePage := stream.writePageCache ++ [data]
        let writePageCache :=
          if currentWritePage.length = cacheSize then [] else currentWritePage
        let files := { stream.fileStore with
          events := stream.fileStore.events.insert (codec.eventId event) data }
        let files := storeCachePage codec files currentWritePage
        ({ stream with fileStore := files, writePageCache := writePageCache }, .ok event)

/-- What can happen to the stream of a session: an event is added, or the stream
is closed and opened again. -/
inductive StreamCall (E : Type*) where
  | add (event : E)
  | reopen

/-- The effect of a call on the stream. -/
def StreamCall.perform (stream : EventStream D) : StreamCall E → EventStream D
  | .add event => (addEvent codec stream event).1
  | .reopen => .ofFiles stream.fileStore

/-- The calls of a run: an `add_event` writes its event and returns.  A call that
raises may stand among them when it is refused before it takes an id, or when the
write page is empty, so that no page has a gap. -/
def StreamCall.Admissible (stream : EventStream D) : StreamCall E → Prop
  | .add event =>
    (∃ queued, (addEvent codec stream event).2 = .ok queued) ∨
      codec.eventId event ≠ invalidId ∨ stream.writePageCache = []
  | .reopen => True

/-! ## The plain reference -/

/-- The event of an id as its own file has it. -/
def fileEvent (files : FileStore D) (id : ℤ) : Option E :=
  (files.events.lookup id).bind fun data => (codec.eventFromDict data).toOption

/-- The events whose own file exists with an id from `startId` to `endId` (without
`endId`, to the last one), in increasing order of the ids. -/
def plainEvents (files : FileStore D) (startId : ℤ) (endId : Option ℤ) : List E :=
  let ids := files.events.keys.filter fun id => startId ≤ id ∧ ∀ last ∈ endId, id ≤ last
  (ids.insertionSort (· ≤ ·)).filterMap (fileEvent codec files)

/-- The plain reference for a search without limit: the events in the direction
asked for, filtered. -/
def plainSearch (files : FileStore D) (startId : ℤ) (endId : Option ℤ) (reverse : Bool)
    (filter : E → Bool) : List E :=
  let events := plainEvents codec files startId endId
  (if reverse then events.reverse else events).filter filter

/-- The limit as it is documented: a limit of at least one cuts the result. -/
def cutToPositiveLimit (limit : Option ℤ) (events : List E) : List E :=
  match limit with
  | none => events
  | some limit => if 1 ≤ limit then events.take limit.toNat else events

/-- The limit as the loop applies it: `0` is no limit and a negative one stops
after the first event. -/
def cutToLimit (limit : Option ℤ) (events : List E) : List E :=
  match limit with
  | none => events
  | some limit => if limit = 0 then events else events.take (max 1 limit).toNat

/-! ## Coherent files -/

/-- The invariant of the files: an event file carries its own id and parses, and a
cache page holds exactly the records of the ids in its name. -/
structure FileStore.Coherent (files : FileStore D) : Prop where
  nonneg : ∀ id ∈ files.events.keys, 0 ≤ id
  record : ∀ id data, files.events.lookup id = some data →
    codec.dictId data = id ∧ ∃ event, codec.eventFromDict data = .ok event
  page : ∀ start stop page, files.eventCache.lookup (start, stop) = some page →
    stop = start + cacheSize ∧ page.length = cacheSize ∧
      ∀ (k : ℕ) data, page[k]? = some data → files.events.lookup (start + k) = some data

variable {codec}

/-- A file found by a lookup is a key of the event directory. -/
theorem mem_keys_of_lookup {files : FileStore D} {id : ℤ} {data : D}
    (h : files.events.lookup id = some data) : id ∈ files.events.keys := by
  rw [← AList.mem_keys, ← AList.lookup_isSome, h]
  rfl

/-- In coherent files an existing file gives its event. -/
theorem FileStore.Coherent.fileEvent_eq {files : FileStore D}
    (h : files.Coherent codec) {id : ℤ} {data : D} (hdata : files.events.lookup id = some data) :
    ∃ event, codec.eventFromDict data = .ok event ∧ fileEvent codec files id = some event := by
  obtain ⟨-, event, hevent⟩ := h.record id data hdata
  refine ⟨event, hevent, ?_⟩
  rw [fileEvent, hdata, Option.bind_some, hevent]
  rfl

/-- An id without a file gives no event. -/
theorem fileEvent_eq_none {files : FileStore D} {id : ℤ} (h : files.events.lookup id = none) :
    fileEvent codec files id = none := by
  rw [fileEvent, h, Option.bind_none]

/-! ## Reading one index -/

/-- A page the loop may hold: for every index it covers, it gives the event of the
file or nothing. -/
def PageSound (codec : Codec E D) (files : FileStore D) (page : CachePage D) : Prop :=
  ∀ index, page.covers index = true →
    page.getEvent codec index = .ok none ∨
      ∃ event, fileEvent codec files index = some event ∧
        page.getEvent codec index = .ok (some event)

theorem covers_iff {page : CachePage D} {index : ℤ} :
    page.covers index = true ↔ page.start ≤ index ∧ index < page.stop := by
  unfold CachePage.covers
  split
  · simp
    omega
  · split
    · simp
      omega
    · simp
      omega

/-- The dummy page covers nothing. -/
theorem pageSound_dummy (files : FileStore D) : PageSound codec files CachePage.dummy := by
  intro index hindex
  have hcovers := covers_iff.mp hindex
  simp only [CachePage.dummy] at hcovers
  omega

/-- A page loaded from coherent files is sound. -/
theorem pageSound_loadCachePage {files : FileStore D} (h : files.Coherent codec)
    (start stop : ℤ) : PageSound codec files (loadCachePage files start stop) := by
  intro index hindex
  obtain ⟨hstart, hstop⟩ := covers_iff.mp hindex
  simp only [loadCachePage] at hstart hstop
  unfold CachePage.getEvent loadCachePage
  cases hpage : files.eventCache.lookup (start, stop) with
  | none => exact Or.inl rfl
  | some page =>
    obtain ⟨hstop', hlength, hrecords⟩ := h.page start stop page hpage
    cases page with
    | nil => exact Or.inl rfl
    | cons first rest =>
      right
      have hlt : (index - start).toNat < (first :: rest).length := by omega
      have hget := List.getElem?_eq_getElem hlt
      have hdata := hrecords _ _ hget
      rw [show start + ((index - start).toNat : ℤ) = index from by omega] at hdata
      obtain ⟨event, hparse, hevent⟩ := h.fileEvent_eq hdata
      refine ⟨event, hevent, ?_⟩
      simp only [hget, hparse]
      rfl

/-- The aligned page of an index covers it. -/
theorem covers_loadCachePageForIndex (files : FileStore D) (index : ℤ) :
    (loadCachePageForIndex files index).covers index = true := by
  have hpos : (0 : ℤ) < cacheSize := by exact_mod_cast cacheSize_pos
  have hnonneg := Int.emod_nonneg index (ne_of_gt hpos)
  have hlt := Int.emod_lt_of_pos index hpos
  rw [covers_iff]
  simp only [loadCachePageForIndex, loadCachePage]
  omega

/-- **One index of the loop**: from a sound page the loop gets the event of the
file, and goes on with a sound page. -/
theorem readIndex_spec {files : FileStore D} (h : files.Coherent codec)
    {page : CachePage D} (hpage : PageSound codec files page) (index : ℤ) :
    PageSound codec files (readIndex codec files page index).1 ∧
      (readIndex codec files page index).2 = .ok (fileEvent codec files index) := by
  obtain ⟨page', hpage', hcovers, hread⟩ : ∃ page', PageSound codec files page' ∧
      page'.covers index = true ∧
      page' = if page.covers index then page else loadCachePageForIndex files index := by
    by_cases hc : page.covers index = true
    · exact ⟨page, hpage, hc, by rw [if_pos hc]⟩
    · exact ⟨loadCachePageForIndex files index, pageSound_loadCachePage h _ _,
        covers_loadCachePageForIndex files index, by rw [if_neg hc]⟩
  unfold readIndex
  rw [← hread]
  refine ⟨hpage', ?_⟩
  rcases hpage' index hcovers with hnone | ⟨event, hevent, hsome⟩
  · -- no cached record: the event file decides
    simp only [hnone, getEvent]
    cases hdata : files.events.lookup index with
    | none => simp only [fileEvent_eq_none hdata]
    | some data =>
      obtain ⟨event, hparse, hevent⟩ := h.fileEvent_eq hdata
      simp only [hparse, hevent]
  · simp only [hsome, hevent]

/-! ## The loop -/

/-- The limit applied when `num` events have been yielded already. -/
def cutFrom (limit : Option ℤ) (num : ℕ) (events : List E) : List E :=
  match limit with
  | none => events
  | some limit => if limit = 0 then events else events.take (max 1 (limit - num)).toNat

theorem cutFrom_zero (limit : Option ℤ) (events : List E) :
    cutFrom limit 0 events = cutToLimit limit events := by
  unfold cutFrom cutToLimit
  cases limit <;> simp

theorem cutFrom_nil (limit : Option ℤ) (num : ℕ) : cutFrom limit num ([] : List E) = [] := by
  unfold cutFrom
  cases limit <;> simp

/-- The first event is the last one when the limit is reached with it. -/
theorem cutFrom_cons_of_reached {limit : Option ℤ} {num : ℕ}
    (h : limitReached limit (num + 1) = true) (event : E) (events : List E) :
    cutFrom limit num (event :: events) = [event] := by
  cases limit with
  | none => simp [limitReached] at h
  | some limit =>
    simp only [limitReached, Bool.and_eq_true, decide_eq_true_eq] at h
    have hone : (max 1 (limit - num)).toNat = 1 := by omega
    simp only [cutFrom, if_neg h.1, hone]
    rfl

/-- Otherwise the limit applies to the rest, with one event more yielded. -/
theorem cutFrom_cons_of_not_reached {limit : Option ℤ} {num : ℕ}
    (h : ¬ limitReached limit (num + 1) = true) (event : E) (events : List E) :
    cutFrom limit num (event :: events) = event :: cutFrom limit (num + 1) events := by
  cases limit with
  | none => rfl
  | some limit =>
    simp only [limitReached, Bool.and_eq_true, decide_eq_true_eq, not_and, not_le] at h
    unfold cutFrom
    by_cases hzero : limit = 0
    · simp [hzero]
    · have hlt := h hzero
      have hsucc : (max 1 (limit - num)).toNat = (max 1 (limit - ↑(num + 1))).toNat + 1 := by
        omega
      simp only [if_neg hzero, hsucc, List.take_succ_cons]

/-- **The loop of `search_events`**: when every index reads as `found`, whatever page of
an invariant the loop holds, the loop yields the events found at the indices, filtered
and cut to the limit. -/
theorem searchLoop_of_reads {files : FileStore D} {held : CachePage D → Prop}
    {found : ℤ → Option E}
    (hread : ∀ page, held page → ∀ index, held (readIndex codec files page index).1 ∧
      (readIndex codec files page index).2 = .ok (found index))
    (filter : E → Bool) (limit : Option ℤ) (indices : List ℤ) :
    ∀ (page : CachePage D) (num : ℕ), held page →
      searchLoop codec files filter limit indices page num
        = .ok (cutFrom limit num ((indices.filterMap found).filter filter)) := by
  induction indices with
  | nil =>
    intro page num _
    simp [searchLoop, cutFrom_nil]
  | cons index indices ih =>
    intro page num hpage
    obtain ⟨hpage', hread'⟩ := hread page hpage index
    rw [searchLoop]
    -- the page the loop goes on with satisfies the invariant again, whichever it is
    rcases hr : readIndex codec files page index with ⟨page', result⟩
    rw [hr] at hpage' hread'
    simp only at hpage' hread'
    subst hread'
    cases hevent : found index with
    | none =>
      simp only [List.filterMap_cons, hevent]
      exact ih page' num hpage'
    | some event =>
      simp only [List.filterMap_cons, hevent]
      by_cases hfilter : filter event = true
      · -- one event more is yielded, and the loop stops if it was the last one
        rw [List.filter_cons_of_pos hfilter, if_pos hfilter]
        by_cases hlimit : limitReached limit (num + 1) = true
        · rw [if_pos hlimit, cutFrom_cons_of_reached hlimit]
        · rw [if_neg hlimit, cutFrom_cons_of_not_reached hlimit, ih page' (num + 1) hpage']
          rfl
      · rw [List.filter_cons_of_neg hfilter, if_neg hfilter]
        exact ih page' num hpage'

/-- The loop over coherent files: the events of the files at the indices, filtered and
cut to the limit; no index raises. -/
theorem searchLoop_eq {files : FileStore D} (h : files.Coherent codec) (filter : E → Bool)
    (limit : Option ℤ) (indices : List ℤ) :
    ∀ (page : CachePage D) (num : ℕ), PageSound codec files page →
      searchLoop codec files filter limit indices page num
        = .ok (cutFrom limit num ((indices.filterMap (fileEvent codec files)).filter filter)) :=
  searchLoop_of_reads (fun _ hpage index => readIndex_spec h hpage index) filter limit indices

end OpenHands
