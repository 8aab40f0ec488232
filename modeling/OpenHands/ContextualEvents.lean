/-
# The events around a chosen one

`_get_contextual_events` (server/routes/manage_conversations.py) searches the store twice, for the
events up to the chosen one and for those behind it.  The first search goes backwards from the
end of the conversation and has the chosen id as the bound at which it stops: it gives the last
events of the conversation, not those before the chosen one.

Nothing is assumed of the files but that the records that can be read have the ids under which
they are read; a record that cannot be read ends a search that comes to it.
-/
import OpenHands.Lib.Fallible
import OpenHands.StateTracker
import OpenHands.StoreContent
import Mathlib.Data.List.DropRight

namespace OpenHands

/-! ## The two searches -/

/-- `agent_event_filter`. -/
def agentEventFilter : EventFilter := { excludeHidden := true, excludeTypes := [isBackendEvent] }

/-- `context_size`. -/
def contextSize : ℤ := 4

variable {D : Type*} (codec : Codec Event D)

/-- `context_before`. -/
def contextBefore (eventStore : EventStore D) (eventId : ℤ) : Except PyError (List Event) :=
  eventStore.searchEvents codec eventId none true agentEventFilter.include (some contextSize)

/-- `context_after`. -/
def contextAfter (eventStore : EventStore D) (eventId : ℤ) : Except PyError (List Event) :=
  eventStore.searchEvents codec (eventId + 1) none false agentEventFilter.include
    (some (contextSize + 1))

/-- `all_events`. -/
def allEvents (eventStore : EventStore D) (eventId : ℤ) : Except PyError (List Event) := do
  let orderedContextBefore ← contextBefore codec eventStore eventId
  let orderedContextBefore := orderedContextBefore.reverse
  let contextAfter ← contextAfter codec eventStore eventId
  return orderedContextBefore ++ contextAfter

/-- `_get_contextual_events`, for any `str` of the events that raises for none. -/
def getContextualEvents (str : Event → String) (eventStore : EventStore D) (eventId : ℤ) :
    Except PyError String := do
  let allEvents ← allEvents codec eventStore eventId
  return "\n".intercalate (allEvents.map str)

/-! ## What the context should be -/

/-- The events of the store that the filter includes, in the order of their ids. -/
def visibleEvents (files : FileStore D) : List Event :=
  (eventsBetween codec files 0 none).filter agentEventFilter.include

/-- The last four visible events up to the chosen id and the first five behind it. -/
def surroundingEvents (files : FileStore D) (eventId : ℤ) : List Event :=
  ((visibleEvents codec files).filter fun event => codec.eventId event ≤ eventId).rtake 4
    ++ ((visibleEvents codec files).filter fun event => eventId < codec.eventId event).take 5

/-- The context of an event is rendered: the text is that of the surrounding events, which are in
the order of their ids. -/
def RendersContext (str : Event → String) (files : FileStore D) (eventId : ℤ) : Prop :=
  ∃ events, allEvents codec { fileStore := files } eventId = .ok events ∧
    getContextualEvents codec str { fileStore := files } eventId
      = .ok ("\n".intercalate (events.map str)) ∧
    events.Pairwise (fun a b => codec.eventId a < codec.eventId b) ∧
    events = surroundingEvents codec files eventId

/-- The record of an index can be read, or there is none. -/
def Readable (files : FileStore D) (index : ℤ) : Prop :=
  ∃ found, (readIndex codec files CachePage.dummy index).2 = .ok found

/-- What is read under an index has it as its id. -/
def OwnIds (files : FileStore D) : Prop :=
  ∀ index event, indexEvent codec files index = some event → codec.eventId event = index

/-! ## The ends of a sorted list -/

section

variable {α : Type*} {key : α → ℤ} {l : List α} {n : ℕ}

theorem mem_of_mem_rtake {a : α} (h : a ∈ l.rtake n) : a ∈ l :=
  List.mem_of_mem_drop h

theorem length_rtake (l : List α) (n : ℕ) : (l.rtake n).length = min n l.length := by
  unfold List.rtake
  rw [List.length_drop]
  omega

/-- Only one element of a strictly sorted list has a given key. -/
theorem length_le_one_of_key_eq {i : ℤ} (hl : l.Pairwise fun a b => key a < key b)
    (h : ∀ a ∈ l, key a = i) : l.length ≤ 1 := by
  match l with
  | [] => exact Nat.zero_le _
  | [a] => exact le_refl _
  | a :: b :: l =>
    have hlt : key a < key b := List.rel_of_pairwise_cons hl List.mem_cons_self
    have ha := h a List.mem_cons_self
    have hb := h b (List.mem_cons_of_mem _ List.mem_cons_self)
    omega

/-- The last elements from a key on are the last ones up to it only if there are no others. -/
theorem rtake_filter_eq_iff (hl : l.Pairwise fun a b => key a < key b) (hn : 1 < n) (i : ℤ) :
    (l.filter fun a => i ≤ key a).rtake n = (l.filter fun a => key a ≤ i).rtake n ↔
      ∀ a ∈ l, key a = i := by
  constructor
  · intro heq
    -- The last one from the key on is also one up to it.
    have hfrom : ∀ a ∈ l.filter fun a => i ≤ key a, key a = i := by
      intro a ha
      rcases List.eq_nil_or_concat (l.filter fun a => i ≤ key a) with hnil | ⟨init, last, hlast⟩
      · rw [hnil] at ha
        exact absurd ha List.not_mem_nil
      · have hmem : last ∈ (l.filter fun a => i ≤ key a).rtake n := by
          rw [hlast, List.concat_eq_append, show n = n - 1 + 1 by omega,
            List.rtake_concat_succ]
          exact List.mem_append_right _ (List.mem_singleton_self _)
        rw [heq] at hmem
        have hupto := List.mem_filter.mp (mem_of_mem_rtake hmem)
        have hle : key a ≤ key last := by
          have hsorted := hl.filter fun a => decide (i ≤ key a)
          rw [hlast, List.concat_eq_append, List.pairwise_append] at hsorted
          rw [hlast, List.concat_eq_append, List.mem_append, List.mem_singleton] at ha
          rcases ha with ha | rfl
          · exact le_of_lt (hsorted.2.2 a ha last (List.mem_singleton_self _))
          · exact le_refl _
        have hge := (List.mem_filter.mp ha).2
        simp only [decide_eq_true_eq] at hge hupto
        omega
    have hone : (l.filter fun a => i ≤ key a).length ≤ 1 :=
      length_le_one_of_key_eq (hl.filter _) hfrom
    have hlength := congrArg List.length heq
    rw [length_rtake, length_rtake] at hlength
    -- So there is at most one up to the key, which is the same.
    have hwhole : (l.filter fun a => key a ≤ i).rtake n = l.filter fun a => key a ≤ i := by
      unfold List.rtake
      rw [show (l.filter fun a => key a ≤ i).length - n = 0 by omega, List.drop_zero]
    intro a ha
    rcases le_total i (key a) with hge | hle
    · exact hfrom a (List.mem_filter.mpr ⟨ha, by simpa using hge⟩)
    · apply hfrom
      apply mem_of_mem_rtake (n := n)
      rw [heq, hwhole]
      exact List.mem_filter.mpr ⟨ha, by simpa using hle⟩
  · intro h
    have hleft : (l.filter fun a => i ≤ key a) = l :=
      List.filter_eq_self.mpr fun a ha => by simp [h a ha]
    have hright : (l.filter fun a => key a ≤ i) = l :=
      List.filter_eq_self.mpr fun a ha => by simp [h a ha]
    rw [hleft, hright]

end

/-! ## Searches that may raise -/

section

variable {codec} {files : FileStore D} {filter : Event → Bool} {limit : Option ℤ}

/-- The loop gives what can be read, as long as it is not ended by a record that cannot; it has
come to all indices if the limit has not been reached. -/
theorem searchLoop_eq_ok {indices : List ℤ} {page : CachePage D} {num : ℕ} {events : List Event}
    (hpage : HeldPage files page)
    (h : searchLoop codec files filter limit indices page num = .ok events) :
    events = cutFrom limit num ((indices.filterMap (indexEvent codec files)).filter filter) ∧
      (limitReached limit (num + events.length) = false →
        ∀ index ∈ indices, Readable codec files index) := by
  induction indices generalizing page num events with
  | nil =>
    cases h
    exact ⟨(cutFrom_nil limit num).symm, fun _ index hindex => absurd hindex List.not_mem_nil⟩
  | cons index indices ih =>
    obtain ⟨hheld, hsame⟩ := @readIndex_of_heldPage Event D codec files page hpage index
    rw [searchLoop] at h
    rcases hread : readIndex codec files page index with ⟨page', result⟩
    rw [hread] at h hheld hsame
    cases result with
    | error e => cases h
    | ok found =>
      have hevent : indexEvent codec files index = found := by
        unfold indexEvent
        rw [← hsame]
      have hreadable : Readable codec files index := ⟨found, hsame.symm⟩
      cases found with
      | none =>
        obtain ⟨hcut, hrest⟩ := ih hheld h
        rw [List.filterMap_cons_none hevent]
        exact ⟨hcut, fun hlimit => List.forall_mem_cons.mpr ⟨hreadable, hrest hlimit⟩⟩
      | some event =>
        rw [List.filterMap_cons_some hevent]
        simp only at h
        by_cases hfilter : filter event = true
        · rw [if_pos hfilter] at h
          rw [List.filter_cons_of_pos hfilter]
          by_cases hlimit : limitReached limit (num + 1) = true
          · rw [if_pos hlimit] at h
            cases h
            refine ⟨(cutFrom_cons_of_reached hlimit _ _).symm, fun hnot => ?_⟩
            -- The limit has been reached with this event.
            rw [List.length_singleton, hlimit] at hnot
            cases hnot
          · rw [if_neg hlimit] at h
            obtain ⟨rest, hsearch, rfl⟩ := Fallible.map_ok_iff.mp h
            obtain ⟨hcut, hrest⟩ := ih hheld hsearch
            rw [cutFrom_cons_of_not_reached hlimit, ← hcut, List.length_cons,
              show num + (rest.length + 1) = num + 1 + rest.length by omega]
            exact ⟨rfl, fun hnot => List.forall_mem_cons.mpr ⟨hreadable, hrest hnot⟩⟩
        · rw [if_neg hfilter] at h
          obtain ⟨hcut, hrest⟩ := ih hheld h
          rw [List.filter_cons_of_neg hfilter]
          exact ⟨hcut, fun hlimit => List.forall_mem_cons.mpr ⟨hreadable, hrest hlimit⟩⟩

/-- A loop over indices that can be read does not raise. -/
theorem exists_searchLoop {indices : List ℤ} {page : CachePage D} (num : ℕ)
    (hpage : HeldPage files page) (h : ∀ index ∈ indices, Readable codec files index) :
    ∃ events, searchLoop codec files filter limit indices page num = .ok events := by
  induction indices generalizing page num with
  | nil => exact ⟨[], rfl⟩
  | cons index indices ih =>
    rw [List.forall_mem_cons] at h
    obtain ⟨⟨found, hfound⟩, hrest⟩ := h
    obtain ⟨hheld, hsame⟩ := @readIndex_of_heldPage Event D codec files page hpage index
    rw [hfound] at hsame
    rw [searchLoop]
    rcases hread : readIndex codec files page index with ⟨page', result⟩
    rw [hread] at hheld hsame
    obtain rfl : result = .ok found := hsame
    cases found with
    | none => exact ih num hheld hrest
    | some event =>
      simp only
      split_ifs
      · exact ⟨[event], rfl⟩
      · obtain ⟨events, hevents⟩ := ih (num + 1) hheld hrest
        rw [hevents]
        exact ⟨event :: events, rfl⟩
      · exact ih num hheld hrest

/-- The indices of a search without an end. -/
theorem mem_searchIndices {startId endId index : ℤ} {reverse : Bool} :
    index ∈ searchIndices startId endId reverse ↔ startId ≤ index ∧ index < endId := by
  rw [searchIndices_eq]
  cases reverse with
  | false => simp [Int.mem_range_iff]
  | true => simp [Int.mem_range_iff]

/-- A search up to the end of the store gives what can be read from the start on; with fewer
events than the limit, everything can be read. -/
theorem searchEvents_eq_ok {startId : ℤ} {reverse : Bool} {events : List Event}
    (h : ({ fileStore := files } : EventStore D).searchEvents codec startId none reverse filter
      limit = .ok events) :
    events = cutToLimit limit
        ((directed reverse (eventsBetween codec files startId none)).filter filter) ∧
      (limitReached limit events.length = false →
        ∀ index, startId ≤ index → index < calculateCurId files → Readable codec files index) := by
  obtain ⟨hevents, hreadable⟩ := searchLoop_eq_ok (Or.inl rfl) h
  rw [cutFrom_zero, searchIndices_eq] at hevents
  constructor
  · rw [hevents, directed, eventsBetween]
    cases reverse with
    | false => rfl
    | true => simp only [if_true, List.filterMap_reverse]
  · intro hlimit index hstart hend
    rw [Nat.zero_add] at hreadable
    exact hreadable hlimit index (mem_searchIndices.mpr ⟨hstart, hend⟩)

/-- A search does not raise if everything from its start on can be read. -/
theorem exists_searchEvents {startId : ℤ} {reverse : Bool}
    (h : ∀ index, startId ≤ index → index < calculateCurId files → Readable codec files index) :
    ∃ events, ({ fileStore := files } : EventStore D).searchEvents codec startId none reverse filter
      limit = .ok events := by
  apply exists_searchLoop 0 (Or.inl rfl)
  intro index hindex
  obtain ⟨hstart, hend⟩ := mem_searchIndices.mp hindex
  exact h index hstart hend

/-! ## The events of the store -/

variable (hids : OwnIds codec files)

include hids

/-- The events from an id on are in the order of their ids. -/
theorem pairwise_eventsBetween_of_ownIds (startId : ℤ) :
    (eventsBetween codec files startId none).Pairwise
      (fun a b => codec.eventId a < codec.eventId b) := by
  unfold eventsBetween
  rw [List.pairwise_filterMap]
  apply (pairwise_lt_range _ _).imp
  intro i j hij a ha b hb
  rw [hids i a ha, hids j b hb]
  exact hij

theorem mem_eventsBetween_of_ownIds {startId : ℤ} {event : Event} :
    event ∈ eventsBetween codec files startId none ↔
      indexEvent codec files (codec.eventId event) = some event ∧
        startId ≤ codec.eventId event ∧ codec.eventId event < calculateCurId files := by
  unfold eventsBetween
  rw [List.mem_filterMap]
  constructor
  · rintro ⟨index, hindex, hevent⟩
    rw [hids index event hevent]
    exact ⟨hevent, Int.mem_range_iff.mp hindex⟩
  · rintro ⟨hevent, hwindow⟩
    exact ⟨codec.eventId event, Int.mem_range_iff.mpr hwindow, hevent⟩

/-- The visible events from an id on. -/
theorem filter_eventsBetween {startId : ℤ} (hstart : 0 ≤ startId) :
    (eventsBetween codec files startId none).filter agentEventFilter.include
      = (visibleEvents codec files).filter fun event => startId ≤ codec.eventId event := by
  apply eq_of_mem_iff_of_pairwise_id
    ((pairwise_eventsBetween_of_ownIds hids startId).filter _)
    (((pairwise_eventsBetween_of_ownIds hids 0).filter _).filter _)
  intro event
  simp only [List.mem_filter, mem_eventsBetween_of_ownIds hids, decide_eq_true_eq]
  constructor
  · rintro ⟨⟨hevent, hge, hlt⟩, hvisible⟩
    exact ⟨⟨⟨hevent, by omega, hlt⟩, hvisible⟩, hge⟩
  · rintro ⟨⟨⟨hevent, -, hlt⟩, hvisible⟩, hge⟩
    exact ⟨⟨hevent, hge, hlt⟩, hvisible⟩

/-- The context begins with the last visible events from the chosen one on. -/
theorem contextBefore_eq_ok {eventId : ℤ} (hid : 0 ≤ eventId) {events : List Event}
    (h : contextBefore codec { fileStore := files } eventId = .ok events) :
    events.reverse
        = ((visibleEvents codec files).filter fun event => eventId ≤ codec.eventId event).rtake 4 ∧
      (events.length < 4 →
        ∀ index, eventId ≤ index → index < calculateCurId files → Readable codec files index) := by
  obtain ⟨hevents, hreadable⟩ := searchEvents_eq_ok h
  constructor
  · rw [hevents, List.rtake_eq_reverse_take_reverse, ← filter_eventsBetween hids hid,
      ← List.filter_reverse]
    rfl
  · intro hlt
    apply hreadable
    have hmore : ¬ (4 : ℤ) ≤ events.length := by omega
    simp [limitReached, contextSize, hmore]

theorem contextAfter_eq_ok {eventId : ℤ} (hid : 0 ≤ eventId) {events : List Event}
    (h : contextAfter codec { fileStore := files } eventId = .ok events) :
    events
      = ((visibleEvents codec files).filter fun event => eventId < codec.eventId event).take 5 := by
  have hafter := filter_eventsBetween hids (show 0 ≤ eventId + 1 by omega)
  rw [(searchEvents_eq_ok h).1]
  show (List.filter _ _).take 5 = _
  rw [directed, if_neg Bool.false_ne_true, hafter]
  rfl

/-- What is rendered: the last visible events from the chosen one on, and the first ones behind
it. -/
theorem allEvents_eq_ok {eventId : ℤ} (hid : 0 ≤ eventId) {events : List Event}
    (h : allEvents codec { fileStore := files } eventId = .ok events) :
    events = ((visibleEvents codec files).filter fun event => eventId ≤ codec.eventId event).rtake 4
        ++ ((visibleEvents codec files).filter fun event => eventId < codec.eventId event).take 5 ∧
      (((visibleEvents codec files).filter fun event => eventId ≤ codec.eventId event).length < 4 →
        ∀ index, eventId ≤ index → index < calculateCurId files → Readable codec files index) := by
  obtain ⟨before, hbefore, hrest⟩ := Fallible.bind_eq_ok_iff.mp h
  obtain ⟨after, hafter, hevents⟩ := Fallible.bind_eq_ok_iff.mp hrest
  cases hevents
  obtain ⟨heq, hreadable⟩ := contextBefore_eq_ok hids hid hbefore
  constructor
  · rw [heq, contextAfter_eq_ok hids hid hafter]
  · intro hlt
    apply hreadable
    have hlength := congrArg List.length heq
    rw [List.length_reverse, length_rtake] at hlength
    omega

/-- **The context of an event is rendered** exactly if no other event of the store is visible, and
no record from the event on fails to be read. -/
theorem rendersContext_iff (str : Event → String) (eventId : ℤ) (hid : 0 ≤ eventId) :
    RendersContext codec str files eventId ↔
      (∀ event ∈ visibleEvents codec files, codec.eventId event = eventId) ∧
        ∀ index, eventId ≤ index → index < calculateCurId files →
          Readable codec files index := by
  have hsorted : (visibleEvents codec files).Pairwise
      (fun a b => codec.eventId a < codec.eventId b) :=
    (pairwise_eventsBetween_of_ownIds hids 0).filter _
  have hends := rtake_filter_eq_iff hsorted (show 1 < 4 by omega) eventId
  constructor
  · rintro ⟨events, hall, -, -, hsurround⟩
    obtain ⟨hevents, hreadable⟩ := allEvents_eq_ok hids hid hall
    rw [hsurround, surroundingEvents] at hevents
    have honly := hends.mp (List.append_cancel_right hevents).symm
    refine ⟨honly, hreadable ?_⟩
    have hone := length_le_one_of_key_eq hsorted honly
    have hle := List.length_filter_le (fun event => decide (eventId ≤ codec.eventId event))
      (visibleEvents codec files)
    omega
  · rintro ⟨honly, hreadable⟩
    obtain ⟨before, hbefore⟩ := @exists_searchEvents D codec files agentEventFilter.include
      (some contextSize) eventId true hreadable
    obtain ⟨after, hafter⟩ := @exists_searchEvents D codec files agentEventFilter.include
      (some (contextSize + 1)) (eventId + 1) false
      fun index hge hlt => hreadable index (by omega) hlt
    have hall : allEvents codec { fileStore := files } eventId = .ok (before.reverse ++ after) :=
      Fallible.bind_eq_ok_iff.mpr ⟨before, hbefore,
        Fallible.bind_eq_ok_iff.mpr ⟨after, hafter, rfl⟩⟩
    have hevents := (allEvents_eq_ok hids hid hall).1
    have hsurround : before.reverse ++ after = surroundingEvents codec files eventId := by
      rw [hevents, surroundingEvents, hends.mpr honly]
    refine ⟨_, hall, ?_, ?_, hsurround⟩
    · unfold getContextualEvents
      rw [hall]
      rfl
    · rw [hevents]
      have hnone : ((visibleEvents codec files).filter fun event =>
          eventId < codec.eventId event) = [] := by
        rw [List.filter_eq_nil_iff]
        intro event hevent
        rw [honly event hevent]
        simp
      rw [hnone, List.take_nil, List.append_nil]
      exact (hsorted.filter _).sublist (List.drop_sublist _ _)

end

/-! ## Short conversations -/

/-- A user message. -/
def userMessage (content : String) : Event :=
  { source := some .user, body := .action (.message { content := content }) }

/-- The files after messages of the user. -/
def messageFiles (contents : List String) : FileStore Event :=
  (storeAfter eventCodec (contents.map fun content => .add {} (userMessage content))).fileStore

theorem faithful_messageFiles (contents : List String) :
    (messageFiles contents).Faithful eventCodec := by
  apply faithful_storeAfter
  rintro p - hloses
  obtain ⟨stream, call⟩ := p
  cases call with
  | reopen => exact hloses
  | add faults event => exact hloses.2.2.2 _ _ rfl rfl

/-- A single message is rendered. -/
theorem rendersContext_singleMessage :
    RendersContext eventCodec (fun event => toString event.id) (messageFiles ["hello"]) 0 := by
  have hfaithful := faithful_messageFiles ["hello"]
  apply (rendersContext_iff hfaithful.own_id _ 0 (le_refl 0)).mpr
  refine ⟨?_, fun index _ _ => hfaithful.reads index⟩
  have hvisible : visibleEvents eventCodec (messageFiles ["hello"])
      = [{ userMessage "hello" with id := 0 }] := by
    rfl
  rw [hvisible]
  intro event hevent
  rw [List.mem_singleton.mp hevent]
  rfl

/-- Of two messages the second one is rendered twice with the first. -/
theorem not_rendersContext_twoMessages :
    ¬ ∀ (codec : Codec Event Event) (str : Event → String) (files : FileStore Event) (eventId : ℤ),
      files.Faithful codec →
      (∃ event ∈ eventsBetween codec files 0 none, codec.eventId event = eventId) →
      RendersContext codec str files eventId := by
  intro h
  obtain ⟨events, hall, -, hsorted, -⟩ := h eventCodec (fun event => toString event.id)
    (messageFiles ["hello", "again"]) 0 (faithful_messageFiles _)
    ⟨{ userMessage "hello" with id := 0 }, List.mem_cons_self, rfl⟩
  have htwice : allEvents eventCodec { fileStore := messageFiles ["hello", "again"] } 0
      = .ok [{ userMessage "hello" with id := 0 }, { userMessage "again" with id := 1 },
        { userMessage "again" with id := 1 }] := by
    rfl
  rw [htwice] at hall
  cases hall
  revert hsorted
  decide

end OpenHands
