/-
# Condensed views

What the next view of a history has of the view before, once the action of a condensation is
appended.  A view has no two events of one id when the history has none.
-/
import OpenHands.View

namespace OpenHands.View

/-- The events of a view that an action does not forget. -/
def condensed (view : View) (action : CondensationAction) : List Event :=
  view.events.filter fun e => e.id ∉ action.forgotten

variable {events : List Event} {e : Event} {action : CondensationAction}

/-- An action without a summary shows none. -/
theorem summaryOf_eq_none_of_summary (haction : e.condensation? = some action)
    (hsummary : action.summary = none) : summaryOf e = none := by
  unfold summaryOf
  rw [haction]
  show (do let s ← action.summary; let o ← action.summaryOffset; return (s, o)) = none
  rw [hsummary]
  rfl

/-- An action without a summary only takes events out. -/
theorem fromEvents_append_of_condensation (haction : e.condensation? = some action)
    (hsummary : action.summary = none) (hid : ∀ e' ∈ events, e'.id ≠ e.id) :
    (fromEvents (events ++ [e])).events
      = insertSummary ((keptEvents events).filter fun e' => e'.id ∉ action.forgotten)
          (lastSummary events) := by
  show insertSummary (keptEvents (events ++ [e])) (lastSummary (events ++ [e])) = _
  rw [keptEvents_append_of_condensation haction hid, lastSummary_append_singleton,
    summaryOf_eq_none_of_summary haction hsummary]
  rfl

/-- **The next view**, where the history has no summary to show again. -/
theorem fromEvents_append_eq_condensed (haction : e.condensation? = some action)
    (hsummary : action.summary = none) (hid : ∀ e' ∈ events, e'.id ≠ e.id)
    (hnone : lastSummary events = none) :
    (fromEvents (events ++ [e])).events = (fromEvents events).condensed action := by
  rw [fromEvents_append_of_condensation haction hsummary hid, hnone, condensed, fromEvents, hnone]
  rfl

/-- Apart from the summary no event is inserted. -/
theorem mem_insertSummary_iff {kept : List Event} {summary : Option (String × ℤ)} {e' : Event}
    (he' : ∀ content, e' ≠ agentCondensationObservation content) :
    e' ∈ insertSummary kept summary ↔ e' ∈ kept := by
  cases summary with
  | none => exact Iff.rfl
  | some s =>
      show e' ∈ PySeq.insert kept s.2 (agentCondensationObservation s.1) ↔ _
      rw [PySeq.mem_insert]
      exact or_iff_right (he' s.1)

/-- Apart from the summary the next view has the events that the action does not forget. -/
theorem mem_fromEvents_append_iff (haction : e.condensation? = some action)
    (hsummary : action.summary = none) (hid : ∀ e' ∈ events, e'.id ≠ e.id) {e' : Event}
    (he' : ∀ content, e' ≠ agentCondensationObservation content) :
    e' ∈ (fromEvents (events ++ [e])).events ↔
      e' ∈ (fromEvents events).events ∧ e'.id ∉ action.forgotten := by
  have hold : e' ∈ (fromEvents events).events ↔ e' ∈ keptEvents events :=
    mem_insertSummary_iff he'
  rw [fromEvents_append_of_condensation haction hsummary hid, mem_insertSummary_iff he', hold,
    List.mem_filter, decide_eq_true_eq]

/-- The summary of a history is an event of its view. -/
theorem exists_mem_fromEvents (hsome : (lastSummary events).isSome) :
    ∃ content, agentCondensationObservation content ∈ (fromEvents events).events := by
  obtain ⟨s, hs⟩ := Option.isSome_iff_exists.mp hsome
  refine ⟨s.1, ?_⟩
  show _ ∈ insertSummary (keptEvents events) (lastSummary events)
  rw [hs]
  exact PySeq.mem_insert.mpr (Or.inl rfl)

/-- What the action does not forget is in the next view. -/
theorem condensed_subset (haction : e.condensation? = some action)
    (hsummary : action.summary = none) (hid : ∀ e' ∈ events, e'.id ≠ e.id) :
    (fromEvents events).condensed action ⊆ (fromEvents (events ++ [e])).events := by
  intro e' he'
  rw [condensed, List.mem_filter] at he'
  rw [fromEvents_append_of_condensation haction hsummary hid]
  obtain ⟨hmem, hkept⟩ := he'
  unfold fromEvents insertSummary at hmem
  unfold insertSummary
  cases hlast : lastSummary events with
  | none =>
      rw [hlast] at hmem
      exact List.mem_filter.mpr ⟨hmem, hkept⟩
  | some s =>
      rw [hlast] at hmem
      refine PySeq.mem_insert.mpr ((PySeq.mem_insert.mp hmem).imp_right ?_)
      exact fun hold => List.mem_filter.mpr ⟨hold, hkept⟩

/-- A summary that the action forgets is counted by the next view all the same. -/
theorem length_fromEvents_append (haction : e.condensation? = some action)
    (hsummary : action.summary = none) (hid : ∀ e' ∈ events, e'.id ≠ e.id) :
    (fromEvents (events ++ [e])).events.length
      = ((fromEvents events).condensed action).length
        + if (lastSummary events).isSome ∧ invalidId ∈ action.forgotten then 1 else 0 := by
  rw [fromEvents_append_of_condensation haction hsummary hid, condensed, fromEvents]
  cases lastSummary events with
  | none => simp [insertSummary]
  | some s =>
      have hobs : (agentCondensationObservation s.1).id = invalidId := rfl
      have hfilter := ((PySeq.insert_perm (keptEvents events) s.2
        (agentCondensationObservation s.1)).filter fun e' =>
          decide (e'.id ∉ action.forgotten)).length_eq
      show (PySeq.insert _ s.2 _).length
        = ((PySeq.insert (keptEvents events) s.2 _).filter _).length + _
      rw [hfilter, (PySeq.insert_perm _ _ _).length_eq, List.length_cons]
      by_cases hforgotten : invalidId ∈ action.forgotten
      · simp [hobs, hforgotten]
      · simp [hobs, hforgotten]

/-- The ids of a view are different; the summary has the id of no event of the stream. -/
theorem nodup_fromEvents (hids : (events.map Event.id).Nodup)
    (hvalid : ∀ e ∈ events, e.id ≠ invalidId) :
    ((fromEvents events).events.map Event.id).Nodup := by
  have hnodup : ((keptEvents events).map Event.id).Nodup :=
    hids.sublist (List.filter_sublist.map Event.id)
  unfold fromEvents insertSummary
  cases hsummary : lastSummary events with
  | none => exact hnodup
  | some s =>
      show ((PySeq.insert (keptEvents events) s.2 (agentCondensationObservation s.1)).map
        Event.id).Nodup
      refine (((PySeq.insert_perm _ _ _).map Event.id).nodup_iff).mpr ?_
      rw [List.map_cons, List.nodup_cons]
      refine ⟨?_, hnodup⟩
      intro hmem
      obtain ⟨e, he, hid⟩ := List.mem_map.mp hmem
      exact hvalid e (mem_keptEvents.mp he).1 hid

end OpenHands.View
