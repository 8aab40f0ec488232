/-
# The window of a conversation

`ConversationWindowCondenser.get_condensation`: the essential events at the start of a
conversation stay, and the recent half of the other events.

The events to forget are put into the action as a range when their ids are contiguous and as
a list otherwise; either way the action forgets these ids and no others
(`getCondensation_spec`).
-/
import Mathlib.Data.Int.Interval
import OpenHands.Lib.FirstFound
import OpenHands.CondensedViews
import OpenHands.CondenserPipeline

namespace OpenHands.ConversationWindowCondenser

open FirstFound

/-! ## The essential events -/

/-- The system message. -/
def systemMessage? (events : List Event) : Option Event := events.find? isSystemMessage

/-- The first message of the user. -/
def firstUserMessage? (events : List Event) : Option Event := events.find? Event.isUserMessage

/-- The recall for the first message of the user. -/
def firstRecall? (events : List Event) : Option Event :=
  (firstUserMessage? events).bind fun message =>
    (behind Event.isUserMessage events).find? (isRecallOf (messageContent message))

/-- An observation that the event caused. -/
def isObservationOf (cause : Event) (e : Event) : Bool :=
  e.isObservation && e.cause = some cause.id

/-- The observation of the recall for the first message of the user. -/
def recallObservation? (events : List Event) : Option Event :=
  (firstUserMessage? events).bind fun message =>
    (firstRecall? events).bind fun asked =>
      (behind (isRecallOf (messageContent message)) (behind Event.isUserMessage events)).find?
        (isObservationOf asked)

/-- The essential events of a history. -/
def essentials (events : List Event) : List Event :=
  (systemMessage? events).toList ++ (firstUserMessage? events).toList ++ (firstRecall? events).toList
    ++ (recallObservation? events).toList

variable {events : List Event}

/-- The essential events are events of the view. -/
theorem essentials_subset (events : List Event) : essentials events ⊆ events := by
  intro e he
  unfold essentials systemMessage? firstUserMessage? at he
  simp only [List.mem_append, Option.mem_toList] at he
  rcases he with ((he | he) | he) | he
  · exact List.mem_of_find?_eq_some he
  · exact List.mem_of_find?_eq_some he
  · obtain ⟨message, -, he⟩ := Option.bind_eq_some_iff.mp he
    exact mem_of_mem_behind (List.mem_of_find?_eq_some he)
  · obtain ⟨message, -, he⟩ := Option.bind_eq_some_iff.mp he
    obtain ⟨asked, -, he⟩ := Option.bind_eq_some_iff.mp he
    exact mem_of_mem_behind (mem_of_mem_behind
      (List.mem_of_find?_eq_some he))

/-- The loop behind the index of the first found event. -/
theorem drop_findIdx_eq_behind (p : Event → Bool) (events : List Event) :
    events.drop (events.findIdx p + 1) = behind p events := by
  induction events with
  | nil => rfl
  | cons e events ih =>
      rw [List.findIdx_cons]
      cases h : p e with
      | true =>
          rw [behind_cons_of_pos h]
          rfl
      | false =>
          rw [behind_cons_of_neg h, ← ih]
          rfl

/-- The two nested loops find the recall and its observation. -/
theorem recallIds_eq (query : Option String) (events : List Event) :
    recallIds query events = ((events.find? (isRecallOf query)).map Event.id).toList ++
      (((events.find? (isRecallOf query)).bind fun asked =>
        (behind (isRecallOf query) events).find? (isObservationOf asked)).map Event.id).toList := by
  induction events with
  | nil => rfl
  | cons e events ih =>
      rw [List.find?_cons, recallIds]
      cases h : isRecallOf query e with
      | true =>
          rw [if_pos rfl, behind_cons_of_pos h]
          have hfind : events.find? (fun obs => obs.isObservation && obs.cause = some e.id)
              = events.find? (isObservationOf e) := rfl
          rw [hfind]
          dsimp only [Option.bind_some]
          cases events.find? (isObservationOf e) <;> rfl
      | false =>
          rw [if_neg (by decide), behind_cons_of_neg h]
          exact ih

/-- The ids that the condenser collects are those of the essential events. -/
theorem essentialEvents_eq {message : Event} (h : firstUserMessage? events = some message) :
    essentialEvents events message = (essentials events).map Event.id := by
  unfold essentialEvents essentials recallObservation? firstRecall?
  rw [drop_findIdx_eq_behind, recallIds_eq, h]
  simp only [List.map_append, Option.toList_map, systemMessage?]
  simp

/-! ## The encoding of the forgotten ids -/

/-- A strictly increasing list of integers that is as long as its span is an interval. -/
theorem mem_iff_of_contiguous {l : List ℤ} (hsorted : l.Pairwise (· < ·)) {first last : ℤ}
    (hfirst : l.head? = some first) (hlast : l.getLast? = some last)
    (hspan : last - first = l.length - 1) (i : ℤ) : first ≤ i ∧ i ≤ last ↔ i ∈ l := by
  have hbounds : ∀ j ∈ l, first ≤ j ∧ j ≤ last := by
    intro j hj
    obtain ⟨tail, rfl⟩ := List.head?_eq_some_iff.mp hfirst
    obtain ⟨init, hinit⟩ := List.getLast?_eq_some_iff.mp hlast
    constructor
    · rcases List.mem_cons.mp hj with rfl | hj
      · exact le_rfl
      · exact (List.rel_of_pairwise_cons hsorted hj).le
    · rw [hinit] at hj hsorted
      rcases List.mem_append.mp hj with hj | hj
      · exact ((List.pairwise_append.mp hsorted).2.2 j hj last (List.mem_singleton_self last)).le
      · exact (List.mem_singleton.mp hj).le
  have hnodup : l.Nodup := hsorted.imp fun hlt => ne_of_lt hlt
  -- the interval has no room for more
  have hinterval : l.toFinset = Finset.Icc first last := by
    apply Finset.eq_of_subset_of_card_le
    · intro j hj
      exact Finset.mem_Icc.mpr (hbounds j (List.mem_toFinset.mp hj))
    · rw [Int.card_Icc, List.toFinset_card_of_nodup hnodup]
      omega
  rw [← List.mem_toFinset, hinterval, Finset.mem_Icc]

/-- **The encoding is exact**: as a range or as a list, the action forgets the given ids. -/
theorem forgetSorted_spec {ids : List ℤ} (hsorted : ids.Pairwise (· < ·)) :
    ∃ action, forgetSorted ids = .ok action ∧ action.summary = none ∧
      ∀ i, i ∈ action.forgotten ↔ i ∈ ids := by
  unfold forgetSorted
  cases hfirst : ids.head? with
  | none =>
      rw [List.head?_eq_none_iff] at hfirst
      subst hfirst
      exact ⟨_, create_forgetIds [], rfl, fun _ => Iff.rfl⟩
  | some first =>
      cases hlast : ids.getLast? with
      | none =>
          rw [List.getLast?_eq_none_iff] at hlast
          subst hlast
          cases hfirst
      | some last =>
          by_cases hrange : ids.length > 1 ∧ last - first = ids.length - 1
          · refine ⟨.forgetRange first last, ?_, rfl, ?_⟩
            · exact (if_pos hrange).trans (create_forgetRange first last)
            · intro i
              rw [mem_forgotten_of_range (c := .forgetRange first last) rfl rfl rfl]
              exact mem_iff_of_contiguous hsorted hfirst hlast hrange.2 i
          · refine ⟨.forgetIds ids, ?_, rfl, fun _ => Iff.rfl⟩
            exact (if_neg hrange).trans (create_forgetIds ids)

/-! ## What is dropped -/

/-- The ids of the events that the condenser keeps: the essential and the recent ones. -/
def eventsToKeep (events : List Event) (message : Event) : List ℤ :=
  essentialEvents events message
    ++ (recentEvents events (essentialEvents events message).length).map Event.id

/-- The ids of the events that the condenser chooses to drop; none without a user message. -/
def dropped (view : View) : List ℤ :=
  match firstUserMessage? view.events with
  | none => []
  | some message =>
    (view.events.map Event.id).filter (· ∉ eventsToKeep view.events message)

theorem mem_forgottenEventIds {message : Event} {i : ℤ} :
    i ∈ forgottenEventIds events message ↔
      i ∈ (events.map Event.id).filter (· ∉ eventsToKeep events message) := by
  unfold forgottenEventIds
  rw [List.mem_insertionSort, List.mem_dedup]
  rfl

theorem pairwise_forgottenEventIds (events : List Event) (message : Event) :
    (forgottenEventIds events message).Pairwise (· < ·) := by
  have hsorted : (forgottenEventIds events message).Pairwise (· ≤ ·) :=
    List.pairwise_insertionSort _ _
  have hnodup : (forgottenEventIds events message).Nodup :=
    (List.perm_insertionSort _ _).nodup_iff.mpr (List.nodup_dedup _)
  exact (hsorted.and hnodup).imp fun h => lt_of_le_of_ne h.1 h.2

/-- **The condensation** forgets what the condenser chooses to drop. -/
theorem getCondensation_spec (view : View) :
    ∃ action, getCondensation view = .ok action ∧ action.summary = none ∧
      ∀ i, i ∈ action.forgotten ↔ i ∈ dropped view := by
  unfold getCondensation dropped firstUserMessage?
  cases view.events.find? Event.isUserMessage with
  | none => exact ⟨_, create_forgetIds [], rfl, fun _ => Iff.rfl⟩
  | some message =>
      obtain ⟨action, haction, hsummary, hmem⟩ :=
        forgetSorted_spec (pairwise_forgottenEventIds view.events message)
      exact ⟨action, haction, hsummary, fun i => (hmem i).trans mem_forgottenEventIds⟩

end OpenHands.ConversationWindowCondenser
