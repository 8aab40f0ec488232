/-
# Searching a nested conversation

`NestedEventStore.search_events` reads the events of a conversation that runs behind
another server: it asks the endpoint `/events` for one page after the other, and the
endpoint answers from `EventStore.search_events` with one event more than the page, to
know whether there are others.

  * `searchPages_eq` — over faithful files the pages put together are the plain list of
    the events, read once by the client;
  * `nestedSearch_eq_searchEvents` — without `end_id` the client yields the events of
    `EventStore.search_events`, after finitely many pages.
-/
import Mathlib
import OpenHands.Lib.PySeq
import OpenHands.StoreContent

namespace OpenHands

variable {E D : Type*}

/-- A codec with `event_to_dict` as the endpoint applies it, without the replacement of
secrets.  What a stream has written can be read, written again and read again. -/
structure WireCodec (E D : Type*) extends Codec E D where
  toJson : E → Except PyError D
  readAgain : ∀ {event i data event'}, eventToDict event i = .ok data →
    eventFromDict data = .ok event' →
    ∃ data', toJson event' = .ok data' ∧ eventFromDict data' = .ok event'

/-- The codec of the event model. -/
def eventWireCodec : WireCodec Event Event where
  toCodec := eventCodec
  toJson := .ok
  readAgain := by
    intro event i data event' _ hread
    cases hread
    exact ⟨data, rfl, rfl⟩

variable (codec : WireCodec E D)

/-! ## The endpoint -/

/-- The answer of the endpoint. -/
structure ResultSet (D : Type*) where
  events : List D
  hasMore : Bool
  deriving DecidableEq, Repr

/-- The endpoint `GET /events` (`search_events` of `server/routes/conversation.py`); the
client sends no filter. -/
def eventsEndpoint (files : FileStore D) (startId : ℤ := 0) (endId : Option ℤ := none)
    (reverse : Bool := false) (limit : ℤ := 20) : Except PyError (ResultSet D) :=
  if limit < 0 ∨ limit > 100 then .error (.valueError "Invalid limit")
  else
    let eventStore : EventStore D := { fileStore := files }
    match eventStore.searchEvents codec.toCodec startId endId reverse (fun _ => true)
      (some (limit + 1)) with
    | .error e => .error e
    | .ok events =>
      let hasMore : Bool := events.length > limit
      let events := if hasMore then PySeq.slice events none (some limit) else events
      (events.mapM codec.toJson).map fun eventsJson => ⟨eventsJson, hasMore⟩

/-! ## The client -/

/-- The variables of the client while it reads a page. -/
structure PageState where
  limit : Option ℤ
  pageMinId : Option ℤ := none
  forwardNextStart : ℤ
  deriving DecidableEq, Repr

/-- The cursors with one event more. -/
def PageState.see (st : PageState) (reverse : Bool) (id : ℤ) : PageState :=
  if reverse then
    { st with pageMinId := some (match st.pageMinId with
      | none => id
      | some pageMinId => min pageMinId id) }
  else { st with forwardNextStart := max st.forwardNextStart (id + 1) }

/-- The `for` loop over the results of a page: the events yielded, whether the search
returns, and the variables afterwards. -/
def readPage (endId : Option ℤ) (reverse : Bool) (filter : E → Bool) :
    List D → PageState → Except PyError (List E × Bool × PageState)
  | [], st => .ok ([], false, st)
  | result :: results, st =>
    match codec.eventFromDict result with
    | .error e => .error e
    | .ok event =>
      let st := st.see reverse (codec.eventId event)
      if endId = some (codec.eventId event) then
        .ok (if filter event then [event] else [], true, st)
      else if !filter event then readPage endId reverse filter results st
      else
        match st.limit with
        | none =>
          (readPage endId reverse filter results st).map fun (yielded, rest) =>
            (event :: yielded, rest)
        | some limit =>
          let limit := limit - 1
          let st := { st with limit := some limit }
          if limit ≤ 0 then .ok ([event], true, st)
          else
            (readPage endId reverse filter results st).map fun (yielded, rest) =>
              (event :: yielded, rest)

/-- The limit of a request: at most `100`, and the default of the endpoint without one. -/
def requestLimit : Option ℤ → ℤ
  | none => 20
  | some limit => min 100 limit

/-- The `while` loop of `search_events`, for at most `fuel` pages; `none` when more are
needed.  The conversation is taken to exist, so no answer is a 404. -/
def searchPages (files : FileStore D) (endId : Option ℤ) (reverse : Bool) (filter : E → Bool) :
    ℕ → ℤ → Option ℤ → Option ℤ → Option (Except PyError (List E))
  | 0, _, _, _ => none
  | fuel + 1, startCursor, endCursor, limit =>
    let response :=
      eventsEndpoint codec files startCursor (if reverse then endCursor else none) reverse
        (requestLimit limit)
    match response with
    | .error e => some (.error e)
    | .ok resultSet =>
      match readPage codec endId reverse filter resultSet.events
          { limit := limit, forwardNextStart := startCursor } with
      | .error e => some (.error e)
      | .ok (yielded, true, _) => some (.ok yielded)
      | .ok (yielded, false, st) =>
        let endCursor :=
          match st.pageMinId with
          | some pageMinId => if reverse then some (pageMinId - 1) else endCursor
          | none => endCursor
        let startCursor := if reverse then startCursor else st.forwardNextStart
        if !resultSet.hasMore then some (.ok yielded)
        else
          (searchPages files endId reverse filter fuel startCursor endCursor st.limit).map
            (Except.map (yielded ++ ·))

/-- `NestedEventStore.search_events`, for at most `fuel` pages. -/
def nestedSearch (files : FileStore D) (fuel : ℕ) (startId : ℤ) (endId : Option ℤ)
    (reverse : Bool) (filter : E → Bool) (limit : Option ℤ) :
    Option (Except PyError (List E)) :=
  searchPages codec files endId reverse filter fuel startId none limit

variable {codec}

/-! ## What the client makes of the events -/

/-- The events up to the first one with the id `endId`, that one included. -/
def takeThrough (codec : WireCodec E D) (endId : Option ℤ) : List E → List E
  | [] => []
  | event :: events =>
    if endId = some (codec.eventId event) then [event]
    else event :: takeThrough codec endId events

/-- The client over events that are not cut into pages. -/
def consume (codec : WireCodec E D) (endId : Option ℤ) (filter : E → Bool) :
    Option ℤ → List E → List E
  | _, [] => []
  | limit, event :: events =>
    if endId = some (codec.eventId event) then
      if filter event then [event] else []
    else if !filter event then consume codec endId filter limit events
    else
      match limit with
      | none => event :: consume codec endId filter none events
      | some limit =>
        if limit - 1 ≤ 0 then [event]
        else event :: consume codec endId filter (some (limit - 1)) events

section Consume

variable {endId : Option ℤ} {filter : E → Bool} {event : E}

/-- The event asked for as the last one ends the search. -/
theorem consume_cons_of_end (h : endId = some (codec.eventId event)) (limit : Option ℤ)
    (events : List E) :
    consume codec endId filter limit (event :: events)
      = if filter event then [event] else [] := by
  cases limit <;> simp [consume, h]

/-- An event that the filter excludes is passed over. -/
theorem consume_cons_of_excluded (h : ¬ endId = some (codec.eventId event))
    (hfilter : ¬ filter event = true) (limit : Option ℤ) (events : List E) :
    consume codec endId filter limit (event :: events)
      = consume codec endId filter limit events := by
  cases limit <;> simp [consume, h, hfilter]

/-- Without a limit an event is yielded and the search goes on. -/
theorem consume_cons_of_no_limit (h : ¬ endId = some (codec.eventId event))
    (hfilter : filter event = true) (events : List E) :
    consume codec endId filter none (event :: events)
      = event :: consume codec endId filter none events := by
  simp [consume, h, hfilter]

/-- The event that uses up the limit ends the search. -/
theorem consume_cons_of_last (h : ¬ endId = some (codec.eventId event))
    (hfilter : filter event = true) {limit : ℤ} (hlast : limit - 1 ≤ 0) (events : List E) :
    consume codec endId filter (some limit) (event :: events) = [event] := by
  rw [consume, if_neg h, if_neg (by simp [hfilter]), if_pos hlast]

/-- An event before that leaves one less. -/
theorem consume_cons_of_more (h : ¬ endId = some (codec.eventId event))
    (hfilter : filter event = true) {limit : ℤ} (hmore : ¬ limit - 1 ≤ 0) (events : List E) :
    consume codec endId filter (some limit) (event :: events)
      = event :: consume codec endId filter (some (limit - 1)) events := by
  rw [consume, if_neg h, if_neg (by simp [hfilter]), if_neg hmore]

end Consume

/-- A limit of one keeps one event. -/
theorem cutToLimit_cons_of_le_one {limit : ℤ} (hlimit : 1 ≤ limit) (h : limit - 1 ≤ 0)
    (event : E) (events : List E) : cutToLimit (some limit) (event :: events) = [event] := by
  have hone : limit = 1 := by omega
  subst hone
  rfl

/-- A larger limit keeps the first event and leaves one less for the others. -/
theorem cutToLimit_cons_of_one_lt {limit : ℤ} (h : ¬ limit - 1 ≤ 0) (event : E)
    (events : List E) : cutToLimit (some limit) (event :: events)
      = event :: cutToLimit (some (limit - 1)) events := by
  have hsucc : (max 1 limit).toNat = (max 1 (limit - 1)).toNat + 1 := by omega
  simp only [cutToLimit]
  rw [if_neg (by omega), if_neg (by omega), hsucc, List.take_succ_cons]

theorem cutToLimit_nil (limit : Option ℤ) : cutToLimit limit ([] : List E) = [] := by
  rw [← cutFrom_zero, cutFrom_nil]

theorem cutToLimit_singleton {limit : Option ℤ} (hlimit : ∀ n ∈ limit, 1 ≤ n) (event : E) :
    cutToLimit limit [event] = [event] := by
  cases limit with
  | none => rfl
  | some n =>
    have hn := hlimit n rfl
    simp only [cutToLimit]
    rw [if_neg (by omega), List.take_of_length_le]
    simp

/-- **The client over all events**: those up to `endId`, filtered and cut to the limit. -/
theorem consume_eq (endId : Option ℤ) (filter : E → Bool) (events : List E) :
    ∀ limit : Option ℤ, (∀ n ∈ limit, 1 ≤ n) →
      consume codec endId filter limit events
        = cutToLimit limit ((takeThrough codec endId events).filter filter) := by
  induction events with
  | nil =>
    intro limit _
    rw [consume, takeThrough, List.filter_nil, cutToLimit_nil]
  | cons event events ih =>
    intro limit hlimit
    rw [takeThrough]
    by_cases hend : endId = some (codec.eventId event)
    · rw [if_pos hend, consume_cons_of_end hend]
      by_cases hfilter : filter event = true
      · rw [if_pos hfilter, List.filter_cons_of_pos hfilter, List.filter_nil,
          cutToLimit_singleton hlimit]
      · rw [if_neg hfilter, List.filter_cons_of_neg hfilter, List.filter_nil, cutToLimit_nil]
    · rw [if_neg hend]
      by_cases hfilter : filter event = true
      · rw [List.filter_cons_of_pos hfilter]
        cases limit with
        | none =>
          rw [consume_cons_of_no_limit hend hfilter, ih none hlimit]
          rfl
        | some n =>
          have hn := hlimit n rfl
          by_cases hlast : n - 1 ≤ 0
          · rw [consume_cons_of_last hend hfilter hlast, cutToLimit_cons_of_le_one hn hlast]
          · rw [consume_cons_of_more hend hfilter hlast, cutToLimit_cons_of_one_lt hlast, ih]
            intro m hm
            cases hm
            omega
      · rw [List.filter_cons_of_neg hfilter, consume_cons_of_excluded hend hfilter,
          ih limit hlimit]

/-- Without `endId` the client reads to the end. -/
theorem takeThrough_none (events : List E) : takeThrough codec none events = events := by
  induction events with
  | nil => rfl
  | cons event events ih => rw [takeThrough, if_neg (by simp), ih]

/-! ## One page -/

/-- The results of a page and the events they are read as. -/
def ReadAs (codec : WireCodec E D) (results : List D) (events : List E) : Prop :=
  List.Forall₂ (fun data event => codec.eventFromDict data = .ok event) results events

/-- The cursors after some events. -/
def PageState.seeAll (codec : WireCodec E D) (reverse : Bool) (st : PageState)
    (events : List E) : PageState :=
  events.foldl (fun st event => st.see reverse (codec.eventId event)) st

/-- The cursors do not depend on the limit. -/
theorem seeAll_limit (reverse : Bool) (events : List E) (limit limit' : Option ℤ) :
    ∀ st : PageState,
      { PageState.seeAll codec reverse { st with limit := limit } events with limit := limit' }
        = { PageState.seeAll codec reverse st events with limit := limit' } := by
  induction events with
  | nil =>
    intro st
    rfl
  | cons event events ih =>
    intro st
    have hsee : ({ st with limit := limit } : PageState).see reverse (codec.eventId event)
        = { st.see reverse (codec.eventId event) with limit := limit } := by
      unfold PageState.see
      split <;> rfl
    show { PageState.seeAll codec reverse
      (({ st with limit := limit } : PageState).see reverse (codec.eventId event)) events
        with limit := limit' } = _
    rw [hsee, ih]
    rfl

theorem see_limit (st : PageState) (reverse : Bool) (id : ℤ) :
    (st.see reverse id).limit = st.limit := by
  unfold PageState.see
  split <;> rfl

/-- What a page comes to: either the search returns with what the client makes of these events,
whatever follows, or it goes on behind them. -/
structure PageRead (codec : WireCodec E D) (endId : Option ℤ) (reverse : Bool)
    (filter : E → Bool) (st : PageState) (events yielded : List E) (returned : Bool)
    (st' : PageState) : Prop where
  returns : returned = true → ∀ rest,
    consume codec endId filter st.limit (events ++ rest) = yielded
  continues : returned = false → (∀ n ∈ st'.limit, 1 ≤ n) ∧
    st' = { PageState.seeAll codec reverse st events with limit := st'.limit } ∧
    ∀ rest, consume codec endId filter st.limit (events ++ rest)
      = yielded ++ consume codec endId filter st'.limit rest

section PageRead

variable {endId : Option ℤ} {reverse : Bool} {filter : E → Bool} {st st' : PageState}
  {event : E} {events yielded : List E} {returned : Bool}

/-- A page that ends the search at its first event. -/
theorem PageRead.last (h : ∀ rest, consume codec endId filter st.limit
      (event :: (events ++ rest)) = yielded) :
    PageRead codec endId reverse filter st (event :: events) yielded true st' :=
  ⟨fun _ rest => by rw [List.cons_append, h], by simp⟩

/-- An event in front of the rest of the page: what it yields, and the limit that it leaves
for the others. -/
theorem PageRead.cons {limit : Option ℤ} {front : List E}
    (h : PageRead codec endId reverse filter
      { st.see reverse (codec.eventId event) with limit := limit } events yielded returned st')
    (hconsume : ∀ behind, consume codec endId filter st.limit (event :: behind)
      = front ++ consume codec endId filter limit behind) :
    PageRead codec endId reverse filter st (event :: events) (front ++ yielded) returned st' := by
  refine ⟨fun hr rest => ?_, fun hr => ?_⟩
  · rw [List.cons_append, hconsume, h.returns hr rest]
  · obtain ⟨hpos, hst, hbehind⟩ := h.continues hr
    rw [seeAll_limit] at hst
    refine ⟨hpos, hst, fun rest => ?_⟩
    rw [List.cons_append, hconsume, hbehind rest, List.append_assoc]

/-- **One page** is read to its end, or to the event that ends the search. -/
theorem readPage_spec {results : List D} (h : ReadAs codec results events) :
    ∀ st : PageState, (∀ n ∈ st.limit, 1 ≤ n) →
      ∃ yielded returned st', readPage codec endId reverse filter results st
          = .ok (yielded, returned, st') ∧
        PageRead codec endId reverse filter st events yielded returned st' := by
  induction h with
  | nil =>
    intro st hlimit
    exact ⟨[], false, st, rfl, by simp, fun _ => ⟨hlimit, rfl, fun rest => rfl⟩⟩
  | @cons data event results events hread hrest ih =>
    intro st hlimit
    rw [readPage, hread]
    simp only
    by_cases hend : endId = some (codec.eventId event)
    · -- the last event asked for
      rw [if_pos hend]
      exact ⟨_, true, _, rfl, .last fun rest => consume_cons_of_end hend _ _⟩
    · rw [if_neg hend]
      by_cases hfilter : filter event = true
      · rw [if_neg (by simp [hfilter]), see_limit]
        cases hl : st.limit with
        | none =>
          have hseen : ({ st.see reverse (codec.eventId event) with limit := none } : PageState)
              = st.see reverse (codec.eventId event) := by
            rw [← hl, ← see_limit st reverse (codec.eventId event)]
          obtain ⟨yielded, returned, st', heq, hpage⟩ :=
            ih (st.see reverse (codec.eventId event)) (by rw [see_limit]; exact hlimit)
          rw [← hseen] at hpage
          refine ⟨[event] ++ yielded, returned, st', by rw [heq]; rfl,
            hpage.cons fun behind => ?_⟩
          rw [hl, consume_cons_of_no_limit hend hfilter, List.singleton_append]
        | some n =>
          by_cases hlast : n - 1 ≤ 0
          · -- the limit is used up
            simp only [if_pos hlast]
            refine ⟨_, true, _, rfl, .last fun rest => ?_⟩
            rw [hl, consume_cons_of_last hend hfilter hlast]
          · simp only [if_neg hlast]
            obtain ⟨yielded, returned, st', heq, hpage⟩ :=
              ih { st.see reverse (codec.eventId event) with limit := some (n - 1) } (by
                intro m hm
                cases hm
                omega)
            refine ⟨[event] ++ yielded, returned, st', by rw [heq]; rfl,
              hpage.cons fun behind => ?_⟩
            rw [hl, consume_cons_of_more hend hfilter hlast, List.singleton_append]
      · rw [if_pos (by simp [hfilter])]
        have hseen : ({ st.see reverse (codec.eventId event) with limit := st.limit } : PageState)
            = st.see reverse (codec.eventId event) := by
          rw [← see_limit st reverse (codec.eventId event)]
        obtain ⟨yielded, returned, st', heq, hpage⟩ :=
          ih (st.see reverse (codec.eventId event)) (by rw [see_limit]; exact hlimit)
        rw [← hseen] at hpage
        refine ⟨[] ++ yielded, returned, st', heq, hpage.cons fun behind => ?_⟩
        rw [consume_cons_of_excluded hend hfilter, List.nil_append]

end PageRead

/-! ## The cursors behind a page -/

theorem seeAll_append_singleton (reverse : Bool) (st : PageState) (events : List E) (event : E) :
    PageState.seeAll codec reverse st (events ++ [event])
      = (PageState.seeAll codec reverse st events).see reverse (codec.eventId event) := by
  rw [PageState.seeAll, List.foldl_append]
  rfl

/-- Going forward, the cursor stays below every bound of the page. -/
theorem forwardNextStart_le {st : PageState} {events : List E} {bound : ℤ}
    (hst : st.forwardNextStart ≤ bound) (hevents : ∀ e ∈ events, codec.eventId e < bound) :
    (PageState.seeAll codec false st events).forwardNextStart ≤ bound := by
  induction events generalizing st with
  | nil => exact hst
  | cons event events ih =>
    rw [List.forall_mem_cons] at hevents
    apply ih _ hevents.2
    show max st.forwardNextStart (codec.eventId event + 1) ≤ bound
    omega

/-- Going backward, the smallest id stays above every bound of the page. -/
theorem le_pageMinId {st : PageState} {events : List E} {bound : ℤ}
    (hst : ∀ m ∈ st.pageMinId, bound ≤ m) (hevents : ∀ e ∈ events, bound < codec.eventId e) :
    ∀ m ∈ (PageState.seeAll codec true st events).pageMinId, bound ≤ m := by
  induction events generalizing st with
  | nil => exact hst
  | cons event events ih =>
    rw [List.forall_mem_cons] at hevents
    apply ih _ hevents.2
    intro m hm
    cases hmin : st.pageMinId with
    | none =>
      simp only [PageState.see, hmin, if_true, Option.mem_def, Option.some.injEq] at hm
      omega
    | some m' =>
      have hm' := hst m' hmin
      simp only [PageState.see, hmin, if_true, Option.mem_def, Option.some.injEq] at hm
      omega

/-- The forward cursor behind a page in increasing order: one past its last id. -/
theorem forwardNextStart_eq {st : PageState} {events : List E} {event : E}
    (hst : st.forwardNextStart ≤ codec.eventId event)
    (hevents : ∀ e ∈ events, codec.eventId e < codec.eventId event) :
    (PageState.seeAll codec false st (events ++ [event])).forwardNextStart
      = codec.eventId event + 1 := by
  have hle := forwardNextStart_le hst hevents
  rw [seeAll_append_singleton]
  show max _ (codec.eventId event + 1) = _
  omega

/-- The smallest id of a page in decreasing order: its last one. -/
theorem pageMinId_eq {st : PageState} {events : List E} {event : E}
    (hst : st.pageMinId = none)
    (hevents : ∀ e ∈ events, codec.eventId event < codec.eventId e) :
    (PageState.seeAll codec true st (events ++ [event])).pageMinId
      = some (codec.eventId event) := by
  have hle : ∀ m ∈ (PageState.seeAll codec true st events).pageMinId, codec.eventId event ≤ m :=
    le_pageMinId (by simp [hst]) hevents
  rw [seeAll_append_singleton, PageState.see, if_pos rfl]
  cases hmin : (PageState.seeAll codec true st events).pageMinId with
  | none => rfl
  | some m =>
    have hm := hle m hmin
    simp only [Option.some.injEq]
    omega

/-! ## The endpoint over faithful files -/

/-- Every event of the files can be sent to the client. -/
def FileStore.Sendable (codec : WireCodec E D) (files : FileStore D) : Prop :=
  ∀ index event, indexEvent codec.toCodec files index = some event →
    ∃ data, codec.toJson event = .ok data ∧ codec.eventFromDict data = .ok event

/-- A list of events is sent when each of them is. -/
theorem exists_mapM_readAs {events : List E}
    (h : ∀ e ∈ events, ∃ data, codec.toJson e = .ok data ∧ codec.eventFromDict data = .ok e) :
    ∃ results, events.mapM codec.toJson = .ok results ∧ ReadAs codec results events := by
  induction events with
  | nil => exact ⟨[], rfl, .nil⟩
  | cons event events ih =>
    rw [List.forall_mem_cons] at h
    obtain ⟨data, hdata, hread⟩ := h.1
    obtain ⟨results, hresults, hreads⟩ := ih h.2
    refine ⟨data :: results, ?_, .cons hread hreads⟩
    rw [List.mapM_cons, hdata, hresults]
    rfl

/-- The client asks for one to a hundred events. -/
theorem exists_requestLimit_eq {limit : Option ℤ} (hlimit : ∀ n ∈ limit, 1 ≤ n) :
    ∃ n : ℕ, requestLimit limit = n ∧ 0 < n ∧ n ≤ 100 := by
  cases limit with
  | none => exact ⟨20, rfl, by omega, by omega⟩
  | some l =>
    have hl := hlimit l rfl
    exact ⟨(min 100 l).toNat, by rw [requestLimit]; omega, by omega, by omega⟩

section Faithful

variable {files : FileStore D} (h : files.Faithful codec.toCodec) (hsend : files.Sendable codec)

include h

/-- The events of a window can be sent. -/
theorem sendable_eventsBetween (hsend : files.Sendable codec) {startId : ℤ} {endId : Option ℤ}
    {reverse : Bool} {event : E}
    (hevent : event ∈ directed reverse (eventsBetween codec.toCodec files startId endId)) :
    ∃ data, codec.toJson event = .ok data ∧ codec.eventFromDict data = .ok event := by
  have hmem : event ∈ eventsBetween codec.toCodec files startId endId := by
    cases reverse with
    | false => exact hevent
    | true => exact List.mem_reverse.mp hevent
  exact hsend _ event ((mem_eventsBetween h).mp hmem).1

include hsend

/-- **One answer of the endpoint**: the first events of the window, with the word whether
there are more. -/
theorem eventsEndpoint_spec (startId : ℤ) (endId : Option ℤ) (reverse : Bool) {limit : ℕ}
    (hlimit : limit ≤ 100) :
    ∃ results, eventsEndpoint codec files startId endId reverse limit
        = .ok ⟨results, limit <
            (directed reverse (eventsBetween codec.toCodec files startId endId)).length⟩ ∧
      ReadAs codec results
        ((directed reverse (eventsBetween codec.toCodec files startId endId)).take limit) := by
  obtain ⟨results, hresults, hread⟩ :=
    exists_mapM_readAs
      (fun e he => sendable_eventsBetween h hsend (List.mem_of_mem_take he))
  refine ⟨results, ?_, hread⟩
  rw [eventsEndpoint, if_neg (by omega)]
  simp only [searchEvents_of_faithful h]
  set events := directed reverse (eventsBetween codec.toCodec files startId endId) with hevents
  have hcut : cutToLimit (some ((limit : ℤ) + 1)) (events.filter fun _ => true)
      = events.take (limit + 1) := by
    have hmax : (max 1 ((limit : ℤ) + 1)).toNat = limit + 1 := by omega
    simp only [cutToLimit]
    rw [List.filter_true, if_neg (by omega), hmax]
  have hmore : (((events.take (limit + 1)).length : ℤ) > limit) ↔ limit < events.length := by
    rw [List.length_take]
    omega
  rw [hcut]
  simp only [hmore]
  by_cases hlt : limit < events.length
  · -- the event too many tells that there are more
    simp only [hlt, decide_true, if_true]
    rw [PySeq.slice_stop_of_nonneg _ (by omega), Int.toNat_natCast, List.take_take,
      Nat.min_eq_left (by omega), hresults]
    rfl
  · simp only [hlt, decide_false, Bool.false_eq_true, if_false]
    rw [List.take_of_length_le (by omega)]
    rw [List.take_of_length_le (by omega)] at hresults
    rw [hresults]
    rfl

omit hsend in
/-- Going forward, the window behind a page starts one past its last id. -/
theorem eventsBetween_behind_page {startId : ℤ} {page rest : List E} {event : E}
    (hpage : eventsBetween codec.toCodec files startId none = page ++ event :: rest) :
    eventsBetween codec.toCodec files (codec.eventId event + 1) none = rest ∧
      startId ≤ codec.eventId event ∧ ∀ e ∈ page, codec.eventId e < codec.eventId event := by
  have hsorted := pairwise_eventsBetween h startId none
  rw [hpage, List.pairwise_append, List.pairwise_cons] at hsorted
  obtain ⟨-, ⟨hbehind, -⟩, hbefore⟩ := hsorted
  have hmem : event ∈ eventsBetween codec.toCodec files startId none := by
    rw [hpage]
    simp
  have hstart := ((mem_eventsBetween h).mp hmem).2.1
  refine ⟨?_, hstart, fun e he => hbefore e he event List.mem_cons_self⟩
  have hfilter : eventsBetween codec.toCodec files (codec.eventId event + 1) none
      = (eventsBetween codec.toCodec files startId none).filter
          (inWindow codec.toCodec (codec.eventId event + 1) none) :=
    eventsBetween_eq_filter h (by omega) (by simp)
  rw [hfilter, hpage,
    List.filter_append, List.filter_eq_nil_iff.mpr, List.nil_append, List.filter_cons_of_neg,
    List.filter_eq_self.mpr]
  · intro e he
    have hlt := hbehind e he
    rw [inWindow_iff]
    exact ⟨by omega, by simp⟩
  · rw [inWindow_iff]
    omega
  · intro e he
    have hlt := hbefore e he event List.mem_cons_self
    rw [inWindow_iff]
    omega

omit hsend in
/-- Going backward, the window behind a page ends one before its last id. -/
theorem eventsBetween_before_page {startId : ℤ} {endId : Option ℤ} {page rest : List E}
    {event : E} (hpage : (eventsBetween codec.toCodec files startId endId).reverse
      = page ++ event :: rest) :
    (eventsBetween codec.toCodec files startId (some (codec.eventId event - 1))).reverse = rest ∧
      ∀ e ∈ page, codec.eventId event < codec.eventId e := by
  have hsorted := pairwise_eventsBetween h startId endId
  rw [← List.pairwise_reverse, hpage, List.pairwise_append, List.pairwise_cons] at hsorted
  obtain ⟨-, ⟨hbehind, -⟩, hbefore⟩ := hsorted
  have hmem : event ∈ eventsBetween codec.toCodec files startId endId := by
    rw [← List.mem_reverse, hpage]
    simp
  have hend := ((mem_eventsBetween h).mp hmem).2.2
  have hstart : ∀ e ∈ rest, startId ≤ codec.eventId e := by
    intro e he
    have hmem' : e ∈ eventsBetween codec.toCodec files startId endId := by
      rw [← List.mem_reverse, hpage]
      simp [he]
    exact ((mem_eventsBetween h).mp hmem').2.1
  refine ⟨?_, fun e he => hbefore e he event List.mem_cons_self⟩
  have hends : ∀ last ∈ endId, ∃ last' ∈ some (codec.eventId event - 1), last' ≤ last := by
    intro last hlast
    have hle := hend last hlast
    exact ⟨codec.eventId event - 1, rfl, by omega⟩
  rw [eventsBetween_eq_filter h (le_refl startId) hends, ← List.filter_reverse, hpage, List.filter_append, List.filter_eq_nil_iff.mpr,
    List.nil_append, List.filter_cons_of_neg, List.filter_eq_self.mpr]
  · intro e he
    have hlt := hbehind e he
    rw [inWindow_iff]
    refine ⟨hstart e he, fun last hlast => ?_⟩
    cases hlast
    omega
  · rw [inWindow_iff]
    rintro ⟨-, hle⟩
    have hle' := hle _ rfl
    omega
  · intro e he
    have hlt := hbefore e he event List.mem_cons_self
    rw [inWindow_iff]
    rintro ⟨-, hle⟩
    have hle' := hle _ rfl
    omega

/-- The events left to the client at its cursors. -/
def eventsLeft (codec : WireCodec E D) (files : FileStore D) (reverse : Bool) (startCursor : ℤ)
    (endCursor : Option ℤ) : List E :=
  directed reverse
    (eventsBetween codec.toCodec files startCursor (if reverse then endCursor else none))

omit hsend in
/-- Behind a page the cursors leave the rest. -/
theorem eventsLeft_next {reverse : Bool} {startCursor : ℤ} {endCursor limit : Option ℤ}
    {page rest : List E} (hne : page ≠ [])
    (hpage : eventsLeft codec files reverse startCursor endCursor = page ++ rest)
    {st : PageState} (hst : st = { PageState.seeAll codec reverse
      { limit := limit, forwardNextStart := startCursor } page with limit := st.limit }) :
    eventsLeft codec files reverse (if reverse then startCursor else st.forwardNextStart)
      (match st.pageMinId with
        | some pageMinId => if reverse then some (pageMinId - 1) else endCursor
        | none => endCursor) = rest := by
  obtain ⟨init, event, rfl⟩ := List.eq_nil_or_concat page |>.resolve_left hne
  rw [List.concat_eq_append] at hpage hst
  rw [List.append_assoc, List.singleton_append] at hpage
  cases reverse with
  | false =>
    obtain ⟨hrest, hstart, hbefore⟩ := eventsBetween_behind_page h hpage
    have hnext : st.forwardNextStart = codec.eventId event + 1 := by
      rw [hst]
      exact forwardNextStart_eq hstart hbefore
    simp only [Bool.false_eq_true, if_false]
    show eventsBetween codec.toCodec files st.forwardNextStart none = rest
    rw [hnext, hrest]
  | true =>
    obtain ⟨hrest, hbefore⟩ := eventsBetween_before_page h hpage
    have hmin : st.pageMinId = some (codec.eventId event) := by
      rw [hst]
      exact pageMinId_eq rfl hbefore
    rw [hmin]
    exact hrest

/-- **The pages put together**: with one page more than there are events left, the client
has read them all, as if they had come in one piece. -/
theorem searchPages_eq (endId : Option ℤ) (reverse : Bool) (filter : E → Bool) (fuel : ℕ) :
    ∀ (startCursor : ℤ) (endCursor limit : Option ℤ), (∀ n ∈ limit, 1 ≤ n) →
      (eventsLeft codec files reverse startCursor endCursor).length < fuel →
      searchPages codec files endId reverse filter fuel startCursor endCursor limit
        = some (.ok (consume codec endId filter limit
            (eventsLeft codec files reverse startCursor endCursor))) := by
  induction fuel with
  | zero =>
    intro startCursor endCursor limit _ hfuel
    omega
  | succ fuel ih =>
    intro startCursor endCursor limit hlimit hfuel
    -- the size of the page
    obtain ⟨n, hn, hpos, hle⟩ := exists_requestLimit_eq hlimit
    obtain ⟨results, hresponse, hread⟩ := eventsEndpoint_spec h hsend startCursor
      (if reverse then endCursor else none) reverse hle
    obtain ⟨yielded, returned, st, hpage, ⟨hreturned, hcontinued⟩⟩ :
        ∃ yielded returned st', readPage codec endId reverse filter results
            { limit := limit, forwardNextStart := startCursor }
          = .ok (yielded, returned, st') ∧ _ :=
      readPage_spec hread { limit := limit, forwardNextStart := startCursor } hlimit
    change eventsEndpoint codec files startCursor (if reverse then endCursor else none) reverse n
      = .ok ⟨results, (n < (eventsLeft codec files reverse startCursor endCursor).length : Bool)⟩
      at hresponse
    set events := eventsLeft codec files reverse startCursor endCursor with hevents
    have hsplit : events.take n ++ events.drop n = events := List.take_append_drop n events
    rw [searchPages, hn, hresponse]
    simp only [hpage]
    cases returned with
    | true =>
      simp only
      rw [← hreturned rfl (events.drop n)]
      exact congrArg (fun l => some (Except.ok (consume codec endId filter limit l))) hsplit
    | false =>
      obtain ⟨hpos', hst, hconsume⟩ := hcontinued rfl
      have hall := hconsume (events.drop n)
      change consume codec endId filter limit (events.take n ++ events.drop n) = _ at hall
      rw [hsplit] at hall
      by_cases hmore : n < events.length
      · -- there are more events: the cursors leave those behind the page
        have hne : events.take n ≠ [] := by
          intro hnil
          have hlen := congrArg List.length hnil
          rw [List.length_take, List.length_nil] at hlen
          omega
        have hnext := eventsLeft_next h hne hsplit.symm hst
        simp only [hmore, decide_true, Bool.not_true, Bool.false_eq_true, if_false]
        rw [ih _ _ _ hpos' (by rw [hnext, List.length_drop]; omega), hnext, hall]
        rfl
      · simp only [hmore, decide_false, Bool.not_false, if_true]
        rw [hall, List.drop_of_length_le (by omega), consume, List.append_nil]

/-- **Nested search over faithful files**: the events up to `endId`, filtered and cut to
the limit, after at most one page more than there are events. -/
theorem nestedSearch_of_faithful (startId : ℤ) (endId : Option ℤ) (reverse : Bool)
    (filter : E → Bool) (limit : Option ℤ) (hlimit : ∀ n ∈ limit, 1 ≤ n) (fuel : ℕ)
    (hfuel : (eventsBetween codec.toCodec files startId none).length < fuel) :
    nestedSearch codec files fuel startId endId reverse filter limit
      = some (.ok (cutToLimit limit ((takeThrough codec endId
          (directed reverse (eventsBetween codec.toCodec files startId none))).filter filter))) := by
  have hleft : eventsLeft codec files reverse startId none
      = directed reverse (eventsBetween codec.toCodec files startId none) := by
    rw [eventsLeft, ite_self]
  rw [nestedSearch, searchPages_eq h hsend endId reverse filter fuel startId none limit hlimit,
    hleft, consume_eq endId filter _ limit hlimit]
  rw [hleft]
  cases reverse with
  | false => exact hfuel
  | true =>
    rw [directed, if_pos rfl, List.length_reverse]
    exact hfuel

end Faithful

/-! ## Over runs of the stream -/

/-- What a stream has written can be sent. -/
theorem sendable_of_filesInvariant {files : FileStore D}
    (h : FilesInvariant codec.toCodec files) : files.Sendable codec := by
  intro index event hevent
  unfold indexEvent at hevent
  rcases readIndex_cases h index with hnone | ⟨data, event', hrecord, hparse, hsome, -⟩
  · rw [hnone] at hevent
    cases hevent
  · rw [hsome] at hevent
    cases hevent
    obtain ⟨original, horiginal⟩ := hrecord.written
    exact codec.readAgain horiginal hparse

/-- **Nested search after a run**: after any run of a stream that loses no record, and for
all arguments without `end_id`, the client stops and yields the events that
`EventStore.search_events` yields with the same arguments. -/
theorem nestedSearch_storeAfter (codec : WireCodec E D) (calls : List (StoreCall E))
    (hcalls : LosslessRun codec.toCodec calls) (startId : ℤ) (reverse : Bool)
    (filter : E → Bool) (limit : Option ℤ) (hlimit : ∀ n ∈ limit, 1 ≤ n) :
    ∃ events enough,
      ({ fileStore := (storeAfter codec.toCodec calls).fileStore } : EventStore D).searchEvents
        codec.toCodec startId none reverse filter limit = .ok events ∧
      ∀ fuel, enough ≤ fuel →
        nestedSearch codec (storeAfter codec.toCodec calls).fileStore fuel startId none reverse
          filter limit = some (.ok events) := by
  have hfiles := (contentInvariant_storeAfter hcalls).files
  have hfaithful := faithful_of_filesInvariant hfiles
  refine ⟨_, (eventsBetween codec.toCodec (storeAfter codec.toCodec calls).fileStore startId
    none).length + 1, searchEvents_of_faithful hfaithful startId none reverse filter limit, ?_⟩
  intro fuel hfuel
  rw [nestedSearch_of_faithful hfaithful (sendable_of_filesInvariant hfiles) startId none reverse
    filter limit hlimit fuel (by omega), takeThrough_none]

/-- A session of three events, the second of which could not be written to its file. -/
def holeCalls : List (StoreCall Event) :=
  [.add {} (.ofAction .null), .add { eventFile := true } (.ofAction .null),
    .add {} (.ofAction .condensationRequest), .reopen]

theorem losslessRun_holeCalls : LosslessRun eventCodec holeCalls := by
  intro p hp
  simp only [holeCalls, Run.steps_cons, Run.steps_nil, List.mem_cons, List.not_mem_nil,
    or_false] at hp
  rcases hp with rfl | rfl | rfl | rfl
  · rintro ⟨-, hne, -⟩
    exact hne rfl
  · rintro ⟨-, -, -, hlost⟩
    exact hlost _ _ rfl rfl
  · rintro ⟨-, -, -, hlost⟩
    exact hlost _ _ rfl rfl
  · exact id

/-- The search downwards with limit one in a session with a hole. -/
theorem nestedSearch_holeCalls :
    ∃ events enough,
      ({ fileStore := (storeAfter eventCodec holeCalls).fileStore } :
        EventStore Event).searchEvents eventCodec 0 none true (fun _ => true) (some 1)
          = .ok events ∧
      ∀ fuel, enough ≤ fuel →
        nestedSearch eventWireCodec (storeAfter eventCodec holeCalls).fileStore fuel 0 none true
          (fun _ => true) (some 1) = some (.ok events) :=
  nestedSearch_storeAfter eventWireCodec holeCalls losslessRun_holeCalls 0 true (fun _ => true)
    (some 1) (by simp)

/-! ## A lost record -/

/-- More pages change nothing once the client has returned. -/
theorem searchPages_mono {files : FileStore D} {endId : Option ℤ} {reverse : Bool}
    {filter : E → Bool} {fuel : ℕ} {result : Except PyError (List E)} :
    ∀ {startCursor : ℤ} {endCursor limit : Option ℤ},
      searchPages codec files endId reverse filter fuel startCursor endCursor limit
        = some result → ∀ fuel', fuel ≤ fuel' →
      searchPages codec files endId reverse filter fuel' startCursor endCursor limit
        = some result := by
  induction fuel generalizing result with
  | zero =>
    intro startCursor endCursor limit h
    cases h
  | succ fuel ih =>
    intro startCursor endCursor limit h fuel' hle
    obtain ⟨fuel', rfl⟩ : ∃ n, fuel' = n + 1 := ⟨fuel' - 1, by omega⟩
    rw [searchPages] at h ⊢
    cases hresponse : eventsEndpoint codec files startCursor
        (if reverse then endCursor else none) reverse (requestLimit limit) with
    | error e =>
      rw [hresponse] at h
      exact h
    | ok resultSet =>
      rw [hresponse] at h
      simp only at h ⊢
      rcases hpage : readPage codec endId reverse filter resultSet.events
        { limit := limit, forwardNextStart := startCursor } with e | ⟨yielded, returned, st⟩
      · rw [hpage] at h
        exact h
      · rw [hpage] at h
        cases returned with
        | true => exact h
        | false =>
          simp only at h ⊢
          split_ifs at h ⊢ with hmore
          · exact h
          all_goals
            obtain ⟨rest, hrest, heq⟩ := Option.map_eq_some_iff.mp h
            rw [ih hrest fuel' (by omega), ← heq]
            rfl

/-- `event_to_dict` raises on a rejection: its `message` adds the reason to a text, and the
reason of this one is no text. -/
def rejectingCodec : WireCodec Event Event where
  eventId := Event.id
  eventToDict := fun e i =>
    match e.body with
    | .action (.agentReject _) => .error .typeError
    | _ => .ok { e with id := i }
  eventFromDict := .ok
  dictId := Event.id
  dictId_eventToDict := by
    intro e i d h
    split at h
    · cases h
    · cases h
      rfl
  eventId_eventFromDict := eventCodec.eventId_eventFromDict
  toJson := .ok
  readAgain := by
    intro event i data event' _ hread
    cases hread
    exact ⟨data, rfl, rfl⟩

/-- An event, a rejection that cannot be serialised, and twenty-four events: the id of the
rejection is missing on the page that is stored. -/
def lostRecordCalls : List (StoreCall Event) :=
  .add {} (.ofAction .null) :: .add {} (.ofAction (.agentReject []))
    :: List.replicate 24 (.add {} (.ofAction .null))

/-- The page with a gap puts every event behind it one index too early, so that the client,
which goes on behind the last id it has seen, never gets the event with the id 21. -/
theorem nestedSearch_loses_event :
    (({ fileStore := (storeAfter rejectingCodec.toCodec lostRecordCalls).fileStore } :
      EventStore Event).searchEvents rejectingCodec.toCodec 0 none false (fun _ => true)
        none).map (List.map Event.id)
      = .ok [0, 2, 3, 4, 5, 6, 7, 8, 9, 10, 11, 12, 13, 14, 15, 16, 17, 18, 19, 20, 21, 22, 23,
        24, 25, 25] ∧
    ∀ fuel, 2 ≤ fuel →
      (nestedSearch rejectingCodec (storeAfter rejectingCodec.toCodec lostRecordCalls).fileStore
        fuel 0 none false (fun _ => true) none).map (Except.map (List.map Event.id))
      = some (.ok [0, 2, 3, 4, 5, 6, 7, 8, 9, 10, 11, 12, 13, 14, 15, 16, 17, 18, 19, 20, 22, 23,
        24, 25, 25]) := by
  refine ⟨by decide +kernel, ?_⟩
  have htwo : (nestedSearch rejectingCodec
      (storeAfter rejectingCodec.toCodec lostRecordCalls).fileStore 2 0 none false
        (fun _ => true) none).map (Except.map (List.map Event.id))
      = some (.ok [0, 2, 3, 4, 5, 6, 7, 8, 9, 10, 11, 12, 13, 14, 15, 16, 17, 18, 19, 20, 22, 23,
        24, 25, 25]) := by decide +kernel
  intro fuel hfuel
  obtain ⟨result, hresult, hids⟩ := Option.map_eq_some_iff.mp htwo
  rw [nestedSearch, searchPages_mono hresult fuel hfuel]
  exact congrArg some hids

end OpenHands
