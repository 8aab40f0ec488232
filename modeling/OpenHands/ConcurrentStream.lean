/-
# Events added from several threads

`EventStream.add_event` holds the lock only while it takes the id and puts the record on
the write page.  The event file, the cache page and the queue come after it, so that the
calls of several threads may pass them in any order.  The queue loop hands each event to
the pool of every callback, and the single worker of a pool calls it in that order.

  * `assigned_run` — the ids are unique and consecutive in every run;
  * `Delivery.run` — in every run each callback gets the queued events once, in the order
    of the queue;
  * `delivers_run` — the order is that of the ids in every run in which no call puts its
    event on the queue while another one with a smaller id has not.
-/
import Mathlib
import OpenHands.StreamRuns

namespace OpenHands

open Run

variable {E D : Type*} (codec : Codec E D)

/-! ## The state of the threads -/

/-- Where a call of `add_event` stands behind the lock. -/
inductive AddStep where
  | writeFile | storePage | put
  deriving DecidableEq, Repr

/-- A call of `add_event` behind the lock: the event as it was read back, its record, the
page object the record stands on, and what the call does next. -/
structure AddCall (E D : Type*) where
  event : E
  data : D
  page : ℕ
  next : AddStep

/-- A subscribed callback with its thread pool of one worker: the events submitted and not
yet handled, and those the callback has been called with. -/
structure Pool (E : Type*) where
  subscriberId : String
  callbackId : String
  pending : List E := []
  received : List E := []

/-- The worker of a pool takes the next event and calls the callback. -/
def Pool.work (p : Pool E) : Pool E :=
  match p.pending with
  | [] => p
  | event :: pending => { p with pending := pending, received := p.received ++ [event] }

/-- The stream between the steps of the threads.  `pages` holds the write pages by the
order of their creation, the current one last; `assigned`, `failed` and `queued` record
which ids were taken, which calls raised behind the lock, and what was put on the queue. -/
structure ConcurrentStream (E D : Type*) where
  files : FileStore D
  curId : ℤ
  pages : List (List D) := [[]]
  calls : List (AddCall E D) := []
  queue : List E := []
  pools : List (Pool E) := []
  assigned : List ℤ := []
  failed : List ℤ := []
  queued : List E := []

namespace ConcurrentStream

/-- A stream opened on the files with some callbacks subscribed. -/
def ofFiles (files : FileStore D) (subscribers : List (String × String)) :
    ConcurrentStream E D where
  files := files
  curId := calculateCurId files
  pools := subscribers.map fun s => { subscriberId := s.1, callbackId := s.2 }

/-- The critical section of `add_event`.  An event that has an id is refused before it. -/
def enter (s : ConcurrentStream E D) (event : E) : ConcurrentStream E D :=
  if codec.eventId event ≠ invalidId then s
  else
    let id := s.curId
    let s := { s with curId := id + 1, assigned := s.assigned ++ [id] }
    match codec.eventToDict event id with
    | .error _ => { s with failed := s.failed ++ [id] }
    | .ok data =>
      match codec.eventFromDict data with
      | .error _ => { s with failed := s.failed ++ [id] }
      | .ok event =>
        let page := s.pages.length - 1
        let currentWritePage := s.pages.getD page [] ++ [data]
        let pages := s.pages.set page currentWritePage
        { s with
          pages := if currentWritePage.length = cacheSize then pages ++ [[]] else pages
          calls := s.calls ++ [{ event := event, data := data, page := page, next := .writeFile }] }

/-- The call of the event with this id, if it is about to do the given step. -/
def callAt (s : ConcurrentStream E D) (id : ℤ) (next : AddStep) : Option (AddCall E D) :=
  s.calls.find? fun c => codec.eventId c.event = id ∧ c.next = next

/-- The call goes on to its next step. -/
def goOn (s : ConcurrentStream E D) (id : ℤ) (next : AddStep) : ConcurrentStream E D :=
  { s with
    calls := s.calls.map fun c => if codec.eventId c.event = id then { c with next := next } else c }

/-- The call is over. -/
def leave (s : ConcurrentStream E D) (id : ℤ) : ConcurrentStream E D :=
  { s with calls := s.calls.filter fun c => codec.eventId c.event ≠ id }

/-- The call is over by an exception. -/
def fail (s : ConcurrentStream E D) (id : ℤ) : ConcurrentStream E D :=
  { s.leave codec id with failed := s.failed ++ [id] }

/-- The write of the event file, which may raise. -/
def writeFile (s : ConcurrentStream E D) (id : ℤ) (ok : Bool) : ConcurrentStream E D :=
  match s.callAt codec id .writeFile with
  | none => s
  | some c =>
    if ok then
      { s.goOn codec id .storePage with
        files := { s.files with events := s.files.events.insert (codec.eventId c.event) c.data } }
    else s.fail codec id

/-- `_store_cache_page` of the page as it is now; its write may raise. -/
def storePage (s : ConcurrentStream E D) (id : ℤ) (ok : Bool) : ConcurrentStream E D :=
  match s.callAt codec id .storePage with
  | none => s
  | some c =>
    let currentWritePage := s.pages.getD c.page []
    if ok ∨ currentWritePage.length < cacheSize then
      { s.goOn codec id .put with files := storeCachePage codec s.files currentWritePage }
    else s.fail codec id

/-- `self._queue.put(event)`. -/
def put (s : ConcurrentStream E D) (id : ℤ) : ConcurrentStream E D :=
  match s.callAt codec id .put with
  | none => s
  | some c =>
    { s.leave codec id with queue := s.queue ++ [c.event], queued := s.queued ++ [c.event] }

/-- One round of `_process_queue`: the first event goes to the pool of every callback. -/
def deliver (s : ConcurrentStream E D) : ConcurrentStream E D :=
  match s.queue with
  | [] => s
  | event :: queue =>
    { s with
      queue := queue
      pools := s.pools.map fun p => { p with pending := p.pending ++ [event] } }

/-- The worker of the `k`-th pool has its turn. -/
def receive (s : ConcurrentStream E D) (k : ℕ) : ConcurrentStream E D :=
  { s with pools := s.pools.modify k Pool.work }

end ConcurrentStream

/-- What a thread does next. -/
inductive ThreadStep (E : Type*) where
  | enter (event : E)
  | writeFile (id : ℤ) (ok : Bool)
  | storePage (id : ℤ) (ok : Bool)
  | put (id : ℤ)
  | deliver
  | receive (k : ℕ)

/-- One step of one thread. -/
def ThreadStep.perform (s : ConcurrentStream E D) : ThreadStep E → ConcurrentStream E D
  | enter event => s.enter codec event
  | writeFile id ok => s.writeFile codec id ok
  | storePage id ok => s.storePage codec id ok
  | put id => s.put codec id
  | deliver => s.deliver
  | receive k => s.receive k

/-- The stream after the steps of all threads. -/
def streamAfterSteps (files : FileStore D) (subscribers : List (String × String))
    (steps : List (ThreadStep E)) : ConcurrentStream E D :=
  run (ThreadStep.perform codec) (.ofFiles files subscribers) steps

variable {codec}

/-! ## One call without others -/

/-- The stream as a single thread sees it. -/
def ConcurrentStream.toStream (s : ConcurrentStream E D) : EventStream D where
  fileStore := s.files
  curIdField := some s.curId
  writePageCache := s.pages.getLast?.getD []

/-- The steps of a call whose writes succeed. -/
def callSteps (id : ℤ) (event : E) : List (ThreadStep E) :=
  [.enter event, .writeFile id true, .storePage id true, .put id]

/-- Without calls behind the lock these steps do nothing. -/
theorem run_idle (s : ConcurrentStream E D) (hcalls : s.calls = []) (id : ℤ) :
    run (ThreadStep.perform codec) s [.writeFile id true, .storePage id true, .put id] = s := by
  simp [run, ThreadStep.perform, ConcurrentStream.writeFile, ConcurrentStream.storePage,
    ConcurrentStream.put, ConcurrentStream.callAt, hcalls]

/-- The only call behind the lock goes through its steps. -/
theorem run_only_call (s : ConcurrentStream E D) {event : E} {data : D} {page : ℕ}
    (hcalls : s.calls = [{ event := event, data := data, page := page, next := .writeFile }]) :
    run (ThreadStep.perform codec) s [.writeFile (codec.eventId event) true,
        .storePage (codec.eventId event) true, .put (codec.eventId event)]
      = { s with
          files := storeCachePage codec
            { s.files with events := s.files.events.insert (codec.eventId event) data }
            (s.pages.getD page [])
          calls := []
          queue := s.queue ++ [event]
          queued := s.queued ++ [event] } := by
  simp [run, ThreadStep.perform, ConcurrentStream.writeFile, ConcurrentStream.storePage,
    ConcurrentStream.put, ConcurrentStream.callAt, ConcurrentStream.goOn, ConcurrentStream.leave,
    hcalls]

/-- **A call without others** is `add_event`: the same files, ids and write page, and the
event it returns is put on the queue. -/
theorem run_callSteps (s : ConcurrentStream E D) (hcalls : s.calls = []) (hpages : s.pages ≠ [])
    (event : E) :
    (run (ThreadStep.perform codec) s (callSteps s.curId event)).toStream
        = (addEvent codec s.toStream event).1 ∧
      (run (ThreadStep.perform codec) s (callSteps s.curId event)).queue
        = s.queue ++ (addEvent codec s.toStream event).2.toOption.toList := by
  obtain ⟨pages, page, hsplit⟩ : ∃ pages page, s.pages = pages ++ [page] :=
    ⟨_, _, (List.dropLast_append_getLast hpages).symm⟩
  have hcur : s.toStream.curId = s.curId := rfl
  have hwrite : s.toStream.writePageCache = page := by
    simp [ConcurrentStream.toStream, hsplit]
  rw [callSteps, run_cons]
  simp only [ThreadStep.perform, ConcurrentStream.enter, addEvent, hcur]
  by_cases hid : codec.eventId event ≠ invalidId
  · rw [if_pos hid, if_pos hid, run_idle s hcalls]
    exact ⟨rfl, by simp [Except.toOption]⟩
  · rw [if_neg hid, if_neg hid]
    cases hdata : codec.eventToDict event s.curId with
    | error e =>
      rw [run_idle _ (by exact hcalls)]
      exact ⟨rfl, by simp [Except.toOption]⟩
    | ok data =>
      cases hqueued : codec.eventFromDict data with
      | error e =>
        simp only [hqueued]
        rw [run_idle _ (by exact hcalls)]
        exact ⟨rfl, by simp [Except.toOption]⟩
      | ok queued =>
        have hqueuedId : codec.eventId queued = s.curId := by
          rw [codec.eventId_eventFromDict hqueued, codec.dictId_eventToDict hdata]
        have hlast : s.pages.length - 1 = pages.length := by
          rw [hsplit, List.length_append, List.length_singleton]
          omega
        have hget : s.pages.getD pages.length [] = page := by
          rw [hsplit]
          simp
        have hset : s.pages.set pages.length (page ++ [data]) = pages ++ [page ++ [data]] := by
          rw [hsplit]
          simp
        simp only [hqueued, hlast, hget, hset, hcalls, hwrite, List.nil_append, ← hqueuedId]
        rw [run_only_call _ rfl]
        -- the page object of the call is the current one, or the full one before it
        by_cases hfull : (page ++ [data]).length = cacheSize
        · simp only [if_pos hfull]
          constructor
          · simp [ConcurrentStream.toStream]
          · simp [Except.toOption]
        · simp only [if_neg hfull]
          constructor
          · simp [ConcurrentStream.toStream]
          · simp [Except.toOption]

/-! ## What a step does -/

/-- The ids of the calls behind the lock. -/
def ConcurrentStream.callIds (codec : Codec E D) (s : ConcurrentStream E D) : List ℤ :=
  s.calls.map fun c => codec.eventId c.event

/-- Entering takes an id: for a call behind the lock, or for one that raised there. -/
theorem enter_cases (s : ConcurrentStream E D) (event : E) :
    s.enter codec event = s ∨
    ∃ files pages calls failed,
      s.enter codec event = { s with
        files := files
        curId := s.curId + 1
        pages := pages
        calls := s.calls ++ calls
        assigned := s.assigned ++ [s.curId]
        failed := s.failed ++ failed } ∧
      ((calls = [] ∧ failed = [s.curId]) ∨
        (failed = [] ∧ ∃ c, calls = [c] ∧ codec.eventId c.event = s.curId)) := by
  unfold ConcurrentStream.enter
  by_cases hid : codec.eventId event ≠ invalidId
  · left
    rw [if_pos hid]
  · right
    rw [if_neg hid]
    cases hdata : codec.eventToDict event s.curId with
    | error e => exact ⟨s.files, s.pages, [], [s.curId], by simp [hdata], Or.inl ⟨rfl, rfl⟩⟩
    | ok data =>
      cases hqueued : codec.eventFromDict data with
      | error e =>
        exact ⟨s.files, s.pages, [], [s.curId], by simp [hdata, hqueued], Or.inl ⟨rfl, rfl⟩⟩
      | ok queued =>
        simp only [hdata, hqueued]
        refine ⟨s.files, _, [_], [], by rw [List.append_nil], Or.inr ⟨rfl, _, rfl, ?_⟩⟩
        rw [codec.eventId_eventFromDict hqueued, codec.dictId_eventToDict hdata]

/-- A call found behind the lock is one of the calls, with its id. -/
theorem callAt_eq_some {s : ConcurrentStream E D} {id : ℤ} {next : AddStep} {c : AddCall E D}
    (h : s.callAt codec id next = some c) : c ∈ s.calls ∧ codec.eventId c.event = id := by
  have hprop := List.find?_some h
  rw [decide_eq_true_iff] at hprop
  exact ⟨List.mem_of_find?_eq_some h, hprop.1⟩

/-- Going on changes no id. -/
theorem callIds_goOn (s : ConcurrentStream E D) (id : ℤ) (next : AddStep) :
    (s.goOn codec id next).callIds codec = s.callIds codec := by
  simp only [ConcurrentStream.callIds, ConcurrentStream.goOn, List.map_map]
  apply List.map_congr_left
  intro c _
  simp only [Function.comp_apply]
  split <;> rfl

/-- A write keeps the calls behind the lock, or one of them is over by an exception. -/
structure Writes (codec : Codec E D) (s s' : ConcurrentStream E D) : Prop where
  curId_eq : s'.curId = s.curId
  queue_eq : s'.queue = s.queue
  pools_eq : s'.pools = s.pools
  assigned_eq : s'.assigned = s.assigned
  queued_eq : s'.queued = s.queued
  calls : (s'.callIds codec = s.callIds codec ∧ s'.failed = s.failed) ∨
    ∃ c ∈ s.calls, s'.calls = s.calls.filter (fun c' =>
        codec.eventId c'.event ≠ codec.eventId c.event) ∧
      s'.failed = s.failed ++ [codec.eventId c.event]

theorem writes_refl (s : ConcurrentStream E D) : Writes codec s s :=
  ⟨rfl, rfl, rfl, rfl, rfl, Or.inl ⟨rfl, rfl⟩⟩

/-- The write of an event file. -/
theorem writes_writeFile (s : ConcurrentStream E D) (id : ℤ) (ok : Bool) :
    Writes codec s (s.writeFile codec id ok) := by
  unfold ConcurrentStream.writeFile
  cases hc : s.callAt codec id .writeFile with
  | none => exact writes_refl s
  | some c =>
    obtain ⟨hmem, rfl⟩ := callAt_eq_some hc
    cases ok with
    | true =>
      exact ⟨rfl, rfl, rfl, rfl, rfl, Or.inl ⟨callIds_goOn s _ _, rfl⟩⟩
    | false => exact ⟨rfl, rfl, rfl, rfl, rfl, Or.inr ⟨c, hmem, rfl, rfl⟩⟩

/-- The write of a cache page. -/
theorem writes_storePage (s : ConcurrentStream E D) (id : ℤ) (ok : Bool) :
    Writes codec s (s.storePage codec id ok) := by
  unfold ConcurrentStream.storePage
  cases hc : s.callAt codec id .storePage with
  | none => exact writes_refl s
  | some c =>
    obtain ⟨hmem, rfl⟩ := callAt_eq_some hc
    simp only
    split
    · exact ⟨rfl, rfl, rfl, rfl, rfl, Or.inl ⟨callIds_goOn s _ _, rfl⟩⟩
    · exact ⟨rfl, rfl, rfl, rfl, rfl, Or.inr ⟨c, hmem, rfl, rfl⟩⟩

/-- A call puts its event on the queue. -/
theorem put_cases (s : ConcurrentStream E D) (id : ℤ) :
    s.put codec id = s ∨
    ∃ c ∈ s.calls, codec.eventId c.event = id ∧
      s.put codec id = { s with
        calls := s.calls.filter fun c' => codec.eventId c'.event ≠ id
        queue := s.queue ++ [c.event]
        queued := s.queued ++ [c.event] } := by
  unfold ConcurrentStream.put
  cases hc : s.callAt codec id .put with
  | none => exact Or.inl rfl
  | some c =>
    obtain ⟨hmem, hid⟩ := callAt_eq_some hc
    exact Or.inr ⟨c, hmem, hid, rfl⟩

/-! ## Every run -/

/-- The invariant of every run: the ids taken are consecutive, each of them belongs to one
call behind the lock, one that raised or one event of the queue, and the pools have the
queued events in the order of the queue. -/
structure Delivery (codec : Codec E D) (firstId : ℤ) (s : ConcurrentStream E D) : Prop where
  firstId_le : firstId ≤ s.curId
  assigned_eq : s.assigned = Int.range firstId s.curId
  taken : (s.callIds codec ++ s.failed ++ s.queued.map codec.eventId).Perm s.assigned
  pools : ∀ p ∈ s.pools, p.received ++ p.pending ++ s.queue = s.queued

theorem Delivery.nodup {firstId : ℤ} {s : ConcurrentStream E D} (h : Delivery codec firstId s) :
    (s.callIds codec ++ s.failed ++ s.queued.map codec.eventId).Nodup := by
  rw [h.taken.nodup_iff, h.assigned_eq]
  exact (pairwise_lt_range firstId s.curId).imp ne_of_lt

/-- The ids of the calls that are left when one is over. -/
theorem callIds_filter (calls : List (AddCall E D)) (id : ℤ) :
    (calls.filter fun c => codec.eventId c.event ≠ id).map (fun c => codec.eventId c.event)
      = (calls.map fun c => codec.eventId c.event).filter (· ≠ id) := by
  rw [List.filter_map]
  rfl

/-- A call that is over takes its id along. -/
theorem count_callIds_filter {firstId : ℤ} {s : ConcurrentStream E D}
    (h : Delivery codec firstId s) {c : AddCall E D} (hc : c ∈ s.calls) (id : ℤ) :
    ((s.callIds codec).filter (· ≠ codec.eventId c.event)).count id
        + [codec.eventId c.event].count id = (s.callIds codec).count id := by
  have hnodup : (s.callIds codec).Nodup := by
    have hall := h.nodup
    rw [List.append_assoc] at hall
    exact (List.nodup_append.mp hall).1
  have hmem : codec.eventId c.event ∈ s.callIds codec := List.mem_map_of_mem hc
  by_cases hid : id = codec.eventId c.event
  · subst hid
    rw [List.count_eq_one_of_mem hnodup hmem, List.count_singleton_self,
      List.count_eq_zero.mpr (by simp)]
  · have hsingle : [codec.eventId c.event].count id = 0 := by
      rw [List.count_eq_zero, List.mem_singleton]
      exact hid
    rw [List.count_filter (by simpa using hid), hsingle, Nat.add_zero]

/-- A pool of the list in which one worker has had its turn. -/
theorem mem_modify_work {pools : List (Pool E)} {k : ℕ} {p : Pool E}
    (h : p ∈ pools.modify k Pool.work) :
    p ∈ pools ∨ ∃ q ∈ pools, p = Pool.work q := by
  obtain ⟨i, hi⟩ := List.mem_iff_getElem?.mp h
  rw [List.getElem?_modify] at hi
  obtain ⟨q, hq, hp⟩ := Option.map_eq_some_iff.mp hi
  have hmem := List.mem_of_getElem? hq
  split at hp
  · exact Or.inr ⟨q, hmem, hp.symm⟩
  · exact Or.inl (hp ▸ hmem)

/-- Entering takes the next id and puts it in one place. -/
theorem Delivery.enter {firstId : ℤ} {s : ConcurrentStream E D} (h : Delivery codec firstId s)
    (event : E) : Delivery codec firstId (s.enter codec event) := by
  rcases enter_cases s event with heq | ⟨files, pages, calls, failed, heq, hnew⟩
  · rw [heq]
    exact h
  · rw [heq]
    have hle := h.firstId_le
    refine ⟨by simp only; omega, ?_, ?_, h.pools⟩
    · show s.assigned ++ [s.curId] = Int.range firstId (s.curId + 1)
      rw [h.assigned_eq, Int.range, Int.range,
        show (s.curId + 1 - firstId).toNat = (s.curId - firstId).toNat + 1 from by omega,
        List.range_succ, List.map_append, List.map_singleton]
      congr 2
      omega
    · show (((s.calls ++ calls).map fun c => codec.eventId c.event) ++ (s.failed ++ failed)
        ++ s.queued.map codec.eventId).Perm (s.assigned ++ [s.curId])
      rw [List.perm_iff_count]
      intro id
      have hcount := h.taken.count_eq id
      rcases hnew with ⟨rfl, rfl⟩ | ⟨rfl, c, rfl, hc⟩
      · simp only [List.count_append, List.append_nil, ConcurrentStream.callIds] at hcount ⊢
        omega
      · simp only [List.map_append, List.map_singleton, hc, List.count_append, List.append_nil,
          ConcurrentStream.callIds] at hcount ⊢
        omega

/-- A write moves an id at most from the calls behind the lock to those that raised. -/
theorem Delivery.writes {firstId : ℤ} {s s' : ConcurrentStream E D}
    (h : Delivery codec firstId s) (hw : Writes codec s s') : Delivery codec firstId s' := by
  refine ⟨by rw [hw.curId_eq]; exact h.firstId_le, ?_, ?_, ?_⟩
  · rw [hw.assigned_eq, hw.curId_eq]
    exact h.assigned_eq
  · rw [hw.assigned_eq, hw.queued_eq]
    rcases hw.calls with ⟨hids, hfailed⟩ | ⟨c, hc, hcalls, hfailed⟩
    · rw [hids, hfailed]
      exact h.taken
    · rw [ConcurrentStream.callIds, hcalls, callIds_filter, hfailed, List.perm_iff_count]
      intro id
      have hcount := h.taken.count_eq id
      have hfilter := count_callIds_filter h hc id
      simp only [List.count_append, ConcurrentStream.callIds] at hcount hfilter ⊢
      omega
  · rw [hw.pools_eq, hw.queue_eq, hw.queued_eq]
    exact h.pools

/-- Putting an event on the queue moves its id there. -/
theorem Delivery.put {firstId : ℤ} {s : ConcurrentStream E D} (h : Delivery codec firstId s)
    (id : ℤ) : Delivery codec firstId (s.put codec id) := by
  have hcases : s.put codec id = s ∨ _ := put_cases s id
  rcases hcases with heq | ⟨c, hc, rfl, heq⟩
  · rw [heq]
    exact h
  · rw [heq]
    refine ⟨h.firstId_le, h.assigned_eq, ?_, ?_⟩
    · show ((s.calls.filter fun c' => codec.eventId c'.event ≠ codec.eventId c.event).map
        (fun c' => codec.eventId c'.event) ++ s.failed
        ++ (s.queued ++ [c.event]).map codec.eventId).Perm s.assigned
      rw [callIds_filter, List.perm_iff_count]
      intro i
      have hcount := h.taken.count_eq i
      have hfilter := count_callIds_filter h hc i
      simp only [List.count_append, List.map_append, List.map_singleton,
        ConcurrentStream.callIds] at hcount hfilter ⊢
      omega
    · intro p hp
      show p.received ++ p.pending ++ (s.queue ++ [c.event]) = s.queued ++ [c.event]
      rw [← List.append_assoc, h.pools p hp]

/-- The queue loop hands the first event on. -/
theorem Delivery.deliver {firstId : ℤ} {s : ConcurrentStream E D} (h : Delivery codec firstId s) :
    Delivery codec firstId s.deliver := by
  unfold ConcurrentStream.deliver
  cases hqueue : s.queue with
  | nil => exact h
  | cons event queue =>
    refine ⟨h.firstId_le, h.assigned_eq, h.taken, ?_⟩
    intro p hp
    obtain ⟨q, hq, rfl⟩ := List.mem_map.mp hp
    have hall := h.pools q hq
    rw [hqueue] at hall
    show q.received ++ (q.pending ++ [event]) ++ queue = s.queued
    rw [← hall]
    simp

/-- A callback is called with the next event of its pool. -/
theorem Delivery.receive {firstId : ℤ} {s : ConcurrentStream E D} (h : Delivery codec firstId s)
    (k : ℕ) : Delivery codec firstId (s.receive k) := by
  refine ⟨h.firstId_le, h.assigned_eq, h.taken, ?_⟩
  intro p hp
  rcases mem_modify_work hp with hmem | ⟨q, hq, rfl⟩
  · exact h.pools p hmem
  · have hall := h.pools q hq
    show (Pool.work q).received ++ (Pool.work q).pending ++ s.queue = s.queued
    rw [← hall]
    unfold Pool.work
    cases hpending : q.pending with
    | nil => simp [hpending]
    | cons event pending => simp

/-- **Step lemma**: every step of every thread keeps the invariant. -/
theorem Delivery.perform {firstId : ℤ} {s : ConcurrentStream E D} (h : Delivery codec firstId s)
    (step : ThreadStep E) : Delivery codec firstId (step.perform codec s) := by
  cases step with
  | enter event => exact h.enter event
  | writeFile id ok => exact h.writes (writes_writeFile s id ok)
  | storePage id ok => exact h.writes (writes_storePage s id ok)
  | put id => exact h.put id
  | deliver => exact h.deliver
  | receive k => exact h.receive k

/-- **Run lemma**: the invariant holds after every interleaving. -/
theorem delivery_streamAfterSteps (files : FileStore D) (subscribers : List (String × String))
    (steps : List (ThreadStep E)) :
    Delivery codec (calculateCurId files) (streamAfterSteps codec files subscribers steps) := by
  apply run_invariant (I := Delivery codec (calculateCurId files)) (C := fun _ _ => True)
    (fun _ step h _ => h.perform step) _ (fun _ _ => trivial)
  refine ⟨le_refl _, ?_, ?_, ?_⟩
  · simp [ConcurrentStream.ofFiles, Int.range]
  · simp [ConcurrentStream.ofFiles, ConcurrentStream.callIds]
  · intro p hp
    obtain ⟨subscriber, -, rfl⟩ := List.mem_map.mp hp
    rfl

/-! ## Runs in which the queue keeps the order of the ids -/

/-- A call puts its event on the queue while no call with a smaller id is behind the
lock. -/
def ThreadStep.InOrder (codec : Codec E D) (s : ConcurrentStream E D) : ThreadStep E → Prop
  | .put id => ∀ c ∈ s.calls, id ≤ codec.eventId c.event
  | _ => True

/-- The queued events are in the order of their ids, and before those of the calls that
are still behind the lock. -/
structure QueueInOrder (codec : Codec E D) (s : ConcurrentStream E D) : Prop where
  sorted : s.queued.Pairwise (fun a b => codec.eventId a < codec.eventId b)
  lt_calls : ∀ e ∈ s.queued, ∀ id ∈ s.callIds codec, codec.eventId e < id

/-- A step keeps the order of what is queued when the calls behind the lock become fewer. -/
theorem QueueInOrder.of_callIds {s s' : ConcurrentStream E D} (h : QueueInOrder codec s)
    (hqueued : s'.queued = s.queued) (hcalls : ∀ id ∈ s'.callIds codec, id ∈ s.callIds codec) :
    QueueInOrder codec s' := by
  refine ⟨by rw [hqueued]; exact h.sorted, ?_⟩
  rw [hqueued]
  exact fun e he id hid => h.lt_calls e he id (hcalls id hid)

/-- A write leaves no new call behind the lock. -/
theorem Writes.callIds_subset {s s' : ConcurrentStream E D} (h : Writes codec s s') :
    ∀ id ∈ s'.callIds codec, id ∈ s.callIds codec := by
  intro id hid
  rcases h.calls with ⟨hids, -⟩ | ⟨c, -, hcalls, -⟩
  · rw [← hids]
    exact hid
  · rw [ConcurrentStream.callIds, hcalls, callIds_filter] at hid
    exact List.mem_of_mem_filter hid

/-- The id of a queued event has been taken. -/
theorem Delivery.lt_curId {firstId : ℤ} {s : ConcurrentStream E D} (h : Delivery codec firstId s)
    {e : E} (he : e ∈ s.queued) : codec.eventId e < s.curId := by
  have hmem : codec.eventId e ∈ s.assigned :=
    h.taken.subset (List.mem_append_right _ (List.mem_map_of_mem he))
  rw [h.assigned_eq, Int.mem_range_iff] at hmem
  exact hmem.2

/-- **Step lemma**: a step in order keeps the queue in order. -/
theorem QueueInOrder.perform {firstId : ℤ} {s : ConcurrentStream E D}
    (hd : Delivery codec firstId s) (h : QueueInOrder codec s) (step : ThreadStep E)
    (hstep : step.InOrder codec s) : QueueInOrder codec (step.perform codec s) := by
  cases step with
  | enter event =>
    show QueueInOrder codec (s.enter codec event)
    rcases enter_cases s event with heq | ⟨files, pages, calls, failed, heq, hnew⟩
    · rw [heq]
      exact h
    · rw [heq]
      refine ⟨h.sorted, ?_⟩
      intro e he id hid
      simp only [ConcurrentStream.callIds, List.map_append, List.mem_append] at hid
      rcases hid with hid | hid
      · exact h.lt_calls e he id hid
      · -- the call that has entered has the newest id
        rcases hnew with ⟨rfl, -⟩ | ⟨-, c, rfl, hc⟩
        · cases hid
        · rw [List.map_singleton, List.mem_singleton, hc] at hid
          rw [hid]
          exact hd.lt_curId he
  | writeFile id ok =>
    have hw : Writes codec s (s.writeFile codec id ok) := writes_writeFile s id ok
    exact h.of_callIds hw.queued_eq hw.callIds_subset
  | storePage id ok =>
    have hw : Writes codec s (s.storePage codec id ok) := writes_storePage s id ok
    exact h.of_callIds hw.queued_eq hw.callIds_subset
  | put id =>
    show QueueInOrder codec (s.put codec id)
    have hcases : s.put codec id = s ∨ _ := put_cases s id
    rcases hcases with heq | ⟨c, hc, rfl, heq⟩
    · rw [heq]
      exact h
    · rw [heq]
      have hcId : codec.eventId c.event ∈ s.callIds codec := List.mem_map_of_mem hc
      refine ⟨pairwise_concat h.sorted fun e he => h.lt_calls e he _ hcId, ?_⟩
      intro e he id hid
      simp only [ConcurrentStream.callIds] at hid
      rw [callIds_filter, List.mem_filter, decide_eq_true_iff] at hid
      obtain ⟨hmem, hne⟩ := hid
      rcases List.mem_append.mp he with he | he
      · exact h.lt_calls e he id hmem
      · -- the calls that are left all have larger ids
        rw [List.mem_singleton.mp he]
        obtain ⟨c', hc', rfl⟩ := List.mem_map.mp hmem
        have hle := hstep c' hc'
        omega
  | deliver =>
    refine h.of_callIds ?_ ?_
    · show s.deliver.queued = s.queued
      unfold ConcurrentStream.deliver
      split <;> rfl
    · show ∀ id ∈ s.deliver.callIds codec, id ∈ s.callIds codec
      unfold ConcurrentStream.deliver
      split <;> exact fun id hid => hid
  | receive k => exact ⟨h.sorted, h.lt_calls⟩

/-! ## Delivery -/

/-- Every callback gets every added event once, in the order of the ids.  An event is added
when its call has put it on the queue; `drained` says that the queue loop and the workers
alone bring every such event to every callback. -/
structure Delivers (codec : Codec E D) (firstId : ℤ) (s : ConcurrentStream E D) : Prop where
  consecutive : s.assigned = Int.range firstId s.curId
  added : s.calls = [] → ∀ id ∈ s.assigned, id ∈ s.failed ∨ ∃ e ∈ s.queued, codec.eventId e = id
  once : ∀ p ∈ s.pools, (p.received.map codec.eventId).Nodup
  received : ∀ p ∈ s.pools, ∀ e ∈ p.received, e ∈ s.queued
  inOrder : ∀ p ∈ s.pools, p.received.Pairwise (fun a b => codec.eventId a < codec.eventId b)
  drained : ∃ steps : List (ThreadStep E),
    (∀ step ∈ steps, step = .deliver ∨ ∃ k, step = .receive k) ∧
    ∀ p ∈ (run (ThreadStep.perform codec) s steps).pools, p.received = s.queued

/-- The queue loop empties the queue. -/
theorem exists_delivered {firstId : ℤ} (queue : List E) :
    ∀ s : ConcurrentStream E D, s.queue = queue → Delivery codec firstId s →
      ∃ steps : List (ThreadStep E), (∀ step ∈ steps, step = .deliver) ∧
        (run (ThreadStep.perform codec) s steps).queue = [] ∧
        (run (ThreadStep.perform codec) s steps).queued = s.queued ∧
        Delivery codec firstId (run (ThreadStep.perform codec) s steps) := by
  induction queue with
  | nil => exact fun s hqueue h => ⟨[], by simp, hqueue, rfl, h⟩
  | cons event queue ih =>
    intro s hqueue h
    have hstep : s.deliver = { s with
        queue := queue
        pools := s.pools.map fun p => { p with pending := p.pending ++ [event] } } := by
      rw [ConcurrentStream.deliver, hqueue]
    obtain ⟨steps, hsteps, hempty, hqueued, hd⟩ :=
      ih s.deliver (by rw [hstep]) h.deliver
    refine ⟨.deliver :: steps, List.forall_mem_cons.mpr ⟨rfl, hsteps⟩, hempty, ?_, hd⟩
    rw [hstep] at hqueued
    rw [run_cons]
    show (run (ThreadStep.perform codec) s.deliver steps).queued = s.queued
    rw [hstep]
    exact hqueued

/-- One element of a list gets smaller by one, and so does the sum. -/
theorem sum_modify {α : Type*} {f : α → α} {size : α → ℕ} {l : List α} {k : ℕ} {a : α}
    (ha : l[k]? = some a) (hf : size (f a) + 1 = size a) :
    ((l.modify k f).map size).sum + 1 = (l.map size).sum := by
  induction l generalizing k with
  | nil => simp at ha
  | cons b l ih =>
    cases k with
    | zero =>
      simp only [List.getElem?_cons_zero, Option.some.injEq] at ha
      subst ha
      simp only [List.modify_zero_cons, List.map_cons, List.sum_cons]
      omega
    | succ k =>
      simp only [List.getElem?_cons_succ] at ha
      have hsum := ih ha
      simp only [List.modify_succ_cons, List.map_cons, List.sum_cons]
      omega

/-- The workers empty their pools. -/
theorem exists_received {firstId : ℤ} (n : ℕ) :
    ∀ s : ConcurrentStream E D, s.queue = [] →
      (s.pools.map fun p => p.pending.length).sum = n → Delivery codec firstId s →
      ∃ steps : List (ThreadStep E), (∀ step ∈ steps, ∃ k, step = .receive k) ∧
        ∀ p ∈ (run (ThreadStep.perform codec) s steps).pools, p.received = s.queued := by
  induction n with
  | zero =>
    intro s hqueue hsum h
    refine ⟨[], by simp, ?_⟩
    intro p hp
    have hpending : p.pending.length = 0 :=
      List.sum_eq_zero_iff_forall_eq_nat.mp hsum _ (List.mem_map_of_mem hp)
    have hall := h.pools p hp
    rw [List.length_eq_zero_iff.mp hpending, hqueue, List.append_nil, List.append_nil] at hall
    exact hall
  | succ n ih =>
    intro s hqueue hsum h
    -- some pool has an event left
    obtain ⟨p, hp, hne⟩ : ∃ p ∈ s.pools, p.pending.length ≠ 0 := by
      by_contra hnone
      push Not at hnone
      have hzero : (s.pools.map fun p => p.pending.length).sum = 0 := by
        rw [List.sum_eq_zero_iff_forall_eq_nat]
        intro i hi
        obtain ⟨p, hp, rfl⟩ := List.mem_map.mp hi
        exact hnone p hp
      omega
    obtain ⟨k, hk⟩ := List.mem_iff_getElem?.mp hp
    have hwork : (Pool.work p).pending.length + 1 = p.pending.length := by
      unfold Pool.work
      cases hpending : p.pending with
      | nil => simp [hpending] at hne
      | cons event pending => simp
    have hsum' : ((s.pools.modify k Pool.work).map fun p => p.pending.length).sum + 1
        = (s.pools.map fun p => p.pending.length).sum := sum_modify hk hwork
    obtain ⟨steps, hsteps, hall⟩ := ih (s.receive k) hqueue (by
      show ((s.pools.modify k Pool.work).map fun p => p.pending.length).sum = n
      omega) (h.receive k)
    exact ⟨.receive k :: steps, List.forall_mem_cons.mpr ⟨⟨k, rfl⟩, hsteps⟩, hall⟩

/-- The queue loop and the workers bring every queued event to every callback. -/
theorem Delivery.exists_drained {firstId : ℤ} {s : ConcurrentStream E D}
    (h : Delivery codec firstId s) :
    ∃ steps : List (ThreadStep E), (∀ step ∈ steps, step = .deliver ∨ ∃ k, step = .receive k) ∧
      ∀ p ∈ (run (ThreadStep.perform codec) s steps).pools, p.received = s.queued := by
  obtain ⟨steps, hsteps, hempty, hqueued, hd⟩ := exists_delivered s.queue s rfl h
  obtain ⟨steps', hsteps', hall⟩ := exists_received _ _ hempty rfl hd
  refine ⟨steps ++ steps', ?_, ?_⟩
  · intro step hstep
    rcases List.mem_append.mp hstep with hmem | hmem
    · exact Or.inl (hsteps step hmem)
    · exact Or.inr (hsteps' step hmem)
  · rw [run, List.foldl_append]
    rw [hqueued] at hall
    exact hall

/-- A callback has got a part of the queued events, in the order of the queue. -/
theorem Delivery.received_isPrefix {firstId : ℤ} {s : ConcurrentStream E D}
    (h : Delivery codec firstId s) {p : Pool E} (hp : p ∈ s.pools) : p.received <+: s.queued := by
  have hall := h.pools p hp
  rw [List.append_assoc] at hall
  exact ⟨_, hall⟩

/-- **Delivery over every interleaving** whose calls put their events on the queue in the
order of the ids: the ids are consecutive, and every callback gets every added event once
and in increasing order. -/
theorem delivers_streamAfterSteps (codec : Codec E D) (files : FileStore D)
    (subscribers : List (String × String)) (steps : List (ThreadStep E))
    (hsteps : ∀ p ∈ Run.steps (ThreadStep.perform codec) (.ofFiles files subscribers) steps,
      p.2.InOrder codec p.1) :
    Delivers codec (calculateCurId files) (streamAfterSteps codec files subscribers steps) := by
  have hd : Delivery codec (calculateCurId files)
      (streamAfterSteps codec files subscribers steps) :=
    delivery_streamAfterSteps files subscribers steps
  obtain ⟨-, horder⟩ : Delivery codec (calculateCurId files)
      (streamAfterSteps codec files subscribers steps) ∧
      QueueInOrder codec (streamAfterSteps codec files subscribers steps) := by
    apply run_invariant
      (I := fun s => Delivery codec (calculateCurId files) s ∧ QueueInOrder codec s)
      (C := fun s step => step.InOrder codec s)
      (fun s step h hstep => ⟨h.1.perform step, h.2.perform h.1 step hstep⟩) _ hsteps
    exact ⟨delivery_streamAfterSteps files subscribers [], .nil, by simp [ConcurrentStream.ofFiles]⟩
  refine ⟨hd.assigned_eq, ?_, ?_, ?_, ?_, hd.exists_drained⟩
  · intro hcalls id hid
    have hmem := hd.taken.symm.subset hid
    rw [ConcurrentStream.callIds, hcalls, List.map_nil, List.nil_append, List.mem_append] at hmem
    rcases hmem with hfailed | hqueued
    · exact Or.inl hfailed
    · exact Or.inr (List.mem_map.mp hqueued)
  · intro p hp
    have hpart := (hd.received_isPrefix hp).map codec.eventId
    exact hpart.sublist.nodup (List.nodup_append.mp hd.nodup).2.1
  · intro p hp e he
    exact (hd.received_isPrefix hp).subset he
  · intro p hp
    exact horder.sorted.sublist (hd.received_isPrefix hp).sublist

/-- Two threads add an event each, one after the other. -/
def turnByTurn : List (ThreadStep Event) :=
  callSteps 0 (.ofAction .null) ++ callSteps 1 (.ofAction .condensationRequest)
    ++ [.deliver, .receive 0, .deliver, .receive 0]

theorem inOrder_turnByTurn : ∀ p ∈ Run.steps (ThreadStep.perform eventCodec)
    (.ofFiles .empty [("main", "print")]) turnByTurn, p.2.InOrder eventCodec p.1 := by
  simp only [turnByTurn, callSteps, List.cons_append, List.nil_append, Run.steps_cons,
    Run.steps_nil, List.forall_mem_cons]
  refine ⟨trivial, trivial, trivial, ?_, trivial, trivial, trivial, ?_, trivial, trivial, trivial,
    trivial, by simp⟩
  · show ∀ c ∈ _, _
    decide
  · show ∀ c ∈ _, _
    decide

/-- Delivery when the threads take turns. -/
theorem delivers_turnByTurn : Delivers eventCodec 0
    (streamAfterSteps eventCodec .empty [("main", "print")] turnByTurn) :=
  delivers_streamAfterSteps eventCodec .empty [("main", "print")] turnByTurn inOrder_turnByTurn

/-- The second thread overtakes the first one behind the lock. -/
def overtaken : List (ThreadStep Event) :=
  [.enter (.ofAction .null), .enter (.ofAction .condensationRequest),
    .writeFile 1 true, .storePage 1 true, .put 1, .writeFile 0 true, .storePage 0 true, .put 0,
    .deliver, .deliver, .receive 0, .receive 0]

/-- The callback gets the event 1 before the event 0. -/
theorem overtaken_out_of_order :
    ((streamAfterSteps eventCodec .empty [("main", "print")] overtaken).pools.map
      fun p => p.received.map Event.id) = [[1, 0]] ∧
    ¬ Delivers eventCodec 0 (streamAfterSteps eventCodec .empty [("main", "print")] overtaken) := by
  have hreceived : ((streamAfterSteps eventCodec .empty [("main", "print")] overtaken).pools.map
      fun p => p.received.map Event.id) = [[1, 0]] := by decide
  refine ⟨hreceived, fun h => ?_⟩
  have hsorted : ∀ ids ∈ ((streamAfterSteps eventCodec .empty [("main", "print")]
      overtaken).pools.map fun p => p.received.map Event.id), ids.Pairwise (· < ·) := by
    intro ids hids
    obtain ⟨p, hp, rfl⟩ := List.mem_map.mp hids
    rw [List.pairwise_map]
    exact h.inOrder p hp
  rw [hreceived] at hsorted
  have hpair := hsorted [1, 0] List.mem_cons_self
  revert hpair
  decide

end OpenHands
