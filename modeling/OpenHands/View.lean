/-
# Views of a history

`View` and `View.from_events` of `openhands/memory/view.py`: what the agent sees of a
history once the condensation events in it are carried out.  The forgotten events,
the condensation actions and the condensation requests are left out, and the summary
of the last condensation action that has one is inserted at its offset.

The second half of the module says what one more event at the end of the history does
to the view.
-/
import OpenHands.Event
import OpenHands.Lib.PySeq

namespace OpenHands

/-- `View`. -/
@[ext] structure View where
  events : List Event
  unhandledCondensationRequest : Bool := false
  deriving DecidableEq, Repr

/-- `AgentCondensationObservation(content)`: an event that is on no stream. -/
def agentCondensationObservation (content : String) : Event :=
  .ofObservation content .agentCondensation

namespace View

/-- The ids one event of the history asks to forget: a condensation action forgets
its events and itself, a condensation request forgets itself. -/
def forgottenBy (e : Event) : List ℤ :=
  match e.condensation? with
  | some c => c.forgotten ++ [e.id]
  | none => if e.isCondensationRequest then [e.id] else []

/-- `forgotten_event_ids`. -/
def forgottenEventIds (events : List Event) : List ℤ := events.flatMap forgottenBy

/-- `kept_events`. -/
def keptEvents (events : List Event) : List Event :=
  events.filter fun e => e.id ∉ forgottenEventIds events

/-- The summary of an event with its offset. -/
def summaryOf (e : Event) : Option (String × ℤ) := do
  let c ← e.condensation?
  let summary ← c.summary
  let summaryOffset ← c.summaryOffset
  return (summary, summaryOffset)

/-- The loop over `reversed(events)` for the summary of the most recent condensation
action that has one. -/
def lastSummary (events : List Event) : Option (String × ℤ) := events.reverse.findSome? summaryOf

/-- The loop over `reversed(events)` for a condensation request that no condensation
action follows. -/
def unhandledRequest : List Event → Bool
  | [] => false
  | e :: es =>
    if e.condensation?.isSome then false
    else if e.isCondensationRequest then true
    else unhandledRequest es

/-- The kept events with the summary, where there is one. -/
def insertSummary (kept : List Event) : Option (String × ℤ) → List Event
  | some (summary, summaryOffset) =>
    PySeq.insert kept summaryOffset (agentCondensationObservation summary)
  | none => kept

/-- `View.from_events`. -/
def fromEvents (events : List Event) : View where
  events := insertSummary (keptEvents events) (lastSummary events)
  unhandledCondensationRequest := unhandledRequest events.reverse

/-! ## What is forgotten -/

theorem forgottenEventIds_append (events events' : List Event) :
    forgottenEventIds (events ++ events')
      = forgottenEventIds events ++ forgottenEventIds events' := List.flatMap_append

/-- An event that is neither a condensation action nor a request forgets nothing. -/
theorem forgottenBy_of_ordinary {e : Event} (hc : e.condensation? = none)
    (hr : e.isCondensationRequest = false) : forgottenBy e = [] := by
  rw [forgottenBy, hc, hr]
  rfl

/-- A condensation action forgets its events and itself. -/
theorem forgottenBy_of_condensation {e : Event} {c : CondensationAction}
    (hc : e.condensation? = some c) : forgottenBy e = c.forgotten ++ [e.id] := by
  rw [forgottenBy, hc]

/-- The kept events are events of the history. -/
theorem mem_keptEvents {events : List Event} {e : Event} :
    e ∈ keptEvents events ↔ e ∈ events ∧ e.id ∉ forgottenEventIds events := by
  simp [keptEvents]

/-! ## One more event -/

/-- The summary is looked up from the end. -/
theorem lastSummary_append_singleton (events : List Event) (e : Event) :
    lastSummary (events ++ [e]) = (summaryOf e).or (lastSummary events) := by
  rw [lastSummary, List.reverse_append, List.reverse_singleton, List.singleton_append,
    List.findSome?_cons]
  cases summaryOf e with
  | none => rfl
  | some s => rfl

/-- An event without condensation has no summary. -/
theorem summaryOf_eq_none {e : Event} (hc : e.condensation? = none) : summaryOf e = none := by
  rw [summaryOf, hc]
  rfl

/-- The summary of a condensation action that has one. -/
theorem summaryOf_eq_some {e : Event} {c : CondensationAction} {summary : String}
    {summaryOffset : ℤ} (hc : e.condensation? = some c) (hs : c.summary = some summary)
    (ho : c.summaryOffset = some summaryOffset) :
    summaryOf e = some (summary, summaryOffset) := by
  rw [summaryOf, hc]
  show (do let s ← c.summary; let o ← c.summaryOffset; return (s, o)) = _
  rw [hs, ho]
  rfl

/-- An ordinary event with an id of its own is kept at the end. -/
theorem keptEvents_append_of_ordinary {events : List Event} {e : Event}
    (hc : e.condensation? = none) (hr : e.isCondensationRequest = false)
    (hid : e.id ∉ forgottenEventIds events) :
    keptEvents (events ++ [e]) = keptEvents events ++ [e] := by
  have hids : forgottenEventIds (events ++ [e]) = forgottenEventIds events := by
    rw [forgottenEventIds_append, forgottenEventIds, forgottenEventIds, List.flatMap_singleton,
      forgottenBy_of_ordinary hc hr, List.append_nil]
  rw [keptEvents, hids, List.filter_append]
  congr 1
  simp [hid]

/-- A condensation action takes its forgotten events out of the kept ones. -/
theorem keptEvents_append_of_condensation {events : List Event} {e : Event}
    {c : CondensationAction} (hc : e.condensation? = some c)
    (hid : ∀ e' ∈ events, e'.id ≠ e.id) :
    keptEvents (events ++ [e]) = (keptEvents events).filter fun e' => e'.id ∉ c.forgotten := by
  have hids : forgottenEventIds (events ++ [e])
      = forgottenEventIds events ++ (c.forgotten ++ [e.id]) := by
    rw [forgottenEventIds_append]
    congr 1
    rw [forgottenEventIds, List.flatMap_singleton, forgottenBy_of_condensation hc]
  have hself : ([e].filter fun e' => e'.id ∉ forgottenEventIds (events ++ [e])) = [] := by
    rw [hids]
    simp
  rw [keptEvents, List.filter_append, hself, List.append_nil, keptEvents, List.filter_filter]
  apply List.filter_congr
  intro e' he'
  rw [hids, ← Bool.decide_and]
  apply decide_eq_decide.mpr
  simp only [List.mem_append, List.mem_singleton, not_or]
  constructor
  · rintro ⟨h1, h2, -⟩
    exact ⟨h2, h1⟩
  · rintro ⟨h2, h1⟩
    exact ⟨h1, h2, hid e' he'⟩

end View

end OpenHands
