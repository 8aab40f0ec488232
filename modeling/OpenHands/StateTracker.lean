/-
# The state tracker

`StateTracker` of `openhands/controller/state/state_tracker.py`: it appends events to
the history of a state and rebuilds the history from the event stream, without the
events between a delegate action and the observation that ends the delegate.

The rebuilt history is compared with `withoutDelegates`, the events that are not strictly
inside a matched pair of a delegate action and a delegate observation.
-/
import OpenHands.EventLog
import OpenHands.State
import OpenHands.Lib.Bracket

namespace OpenHands

/-! ## The event filter -/

/-- A type of events, by its `isinstance`. -/
abbrev EventType := Event → Bool

/-- `EventFilter`, without the text query. -/
structure EventFilter where
  excludeHidden : Bool := false
  includeTypes : List EventType := []
  excludeTypes : List EventType := []
  source : Option EventSource := none
  startDate : String := ""
  endDate : String := ""

/-- `EventFilter.include`.  Empty types and dates filter nothing. -/
def EventFilter.include (f : EventFilter) (event : Event) : Bool :=
  let dated (outside : String → Bool) : Bool := event.timestamp.any outside
  if !f.includeTypes.isEmpty && !f.includeTypes.any (· event) then false
  else if f.excludeTypes.any (· event) then false
  else if f.source.isSome && event.source != f.source then false
  else if f.startDate != "" && dated (fun t => t < f.startDate) then false
  else if f.endDate != "" && dated (fun t => f.endDate < t) then false
  else if f.excludeHidden && event.hidden then false
  else true

/-- `NullAction`, `NullObservation`, `ChangeAgentStateAction` and
`AgentStateChangedObservation`. -/
def isBackendEvent (event : Event) : Bool :=
  match event.body with
  | .action .null | .action (.changeAgentState _) => true
  | .observation { cls := .null, .. } => true
  | .observation { cls := .agentStateChanged _ _, .. } => true
  | _ => false

/-- `agent_history_filter`. -/
def agentHistoryFilter : EventFilter := { excludeTypes := [isBackendEvent], excludeHidden := true }

/-- The history leaves out backend events and hidden events, nothing else. -/
theorem include_agentHistoryFilter (event : Event) :
    agentHistoryFilter.include event = (!isBackendEvent event && !event.hidden) := by
  cases hbackend : isBackendEvent event <;> cases hhidden : event.hidden <;>
    simp [EventFilter.include, agentHistoryFilter, hbackend, hhidden]

/-! ## Rebuilding the history -/

/-- The loop that matches delegate observations with the most recent unmatched delegate
action, on the stack `delegate_action_ids`. -/
def delegateRanges : List ℤ → List Event → List (ℤ × ℤ)
  | _, [] => []
  | stack, event :: events =>
    if event.isDelegateAction then delegateRanges (event.id :: stack) events
    else if event.isDelegateObservation then
      match stack with
      | [] => delegateRanges [] events
      | actionId :: stack => (actionId, event.id) :: delegateRanges stack events
    else delegateRanges stack events

/-- The order of pairs of ids. -/
def rangeLE (a b : ℤ × ℤ) : Prop := a.1 < b.1 ∨ a.1 = b.1 ∧ a.2 ≤ b.2

instance : DecidableRel rangeLE := fun _ _ => inferInstanceAs (Decidable (_ ∨ _))

/-- The variables of the loop over the sorted ranges.  `startId` is the function's own
`start_id`, which the loop assigns. -/
structure RangeLoop where
  filteredEvents : List Event
  currentIdx : ℕ
  startId : ℤ
  deriving DecidableEq, Repr

/-- One turn of the loop: the events before the range from the current index on, then the
delegate action and observation themselves. -/
def RangeLoop.step (events : List Event) (loop : RangeLoop) (range : ℤ × ℤ) : RangeLoop where
  filteredEvents := loop.filteredEvents
    ++ (events.drop loop.currentIdx).filter (fun event => event.id < range.1)
    ++ events.filter (fun event => event.id = range.1 ∨ event.id = range.2)
  currentIdx := events.findIdx (fun event => range.2 < event.id)
  startId := range.1

namespace State

/-- The first id of the history. -/
def firstId (state : State) : ℤ := if state.startId ≥ 0 then state.startId else 0

/-- The last id of the history. -/
def lastId (state : State) (stream : EventLog) : ℤ :=
  if state.endId ≥ 0 then state.endId else stream.latestEventId

/-- The events of the stream from the first to the last id that belong to the history. -/
def window (state : State) (stream : EventLog) : List Event :=
  stream.searchEvents state.firstId (some (state.lastId stream)) agentHistoryFilter.include

end State

namespace StateTracker

/-- `StateTracker._init_history`. -/
def initHistory (state : State) (stream : EventLog) : State :=
  let startId := state.firstId
  let endId := state.lastId stream
  if startId > endId + 1 then { state with history := [] }
  else
    let events := stream.searchEvents startId (some endId) agentHistoryFilter.include
    let ranges := delegateRanges [] events
    if ranges.isEmpty then { state with history := events, startId := startId }
    else
      let loop := (ranges.insertionSort rangeLE).foldl (RangeLoop.step events) ⟨[], 0, startId⟩
      { state with
        history := loop.filteredEvents ++ events.drop loop.currentIdx
        startId := loop.startId }

/-- `StateTracker.close`: the final history, with the events of the delegates. -/
def close (state : State) (stream : EventLog) : State :=
  { state with history := state.window stream }

/-- `StateTracker.add_history`. -/
def addHistory (state : State) (event : Event) : State :=
  if agentHistoryFilter.include event then { state with history := state.history ++ [event] }
  else state

/-- `StateTracker.set_initial_state`: a new state, or the state of an earlier session or
of a parent agent. -/
def setInitialState (state : Option State) (maxIterations : ℤ) (maxBudgetPerTask : Option ℚ)
    (confirmationMode : Bool) : State :=
  match state with
  | none =>
    { iterationFlag := ⟨maxIterations, 0, maxIterations, false⟩
      budgetFlag := match maxBudgetPerTask with
        | some budget => if budget = 0 then none else some ⟨budget, 0, budget, false⟩
        | none => none
      confirmationMode := confirmationMode
      startId := 0 }
  | some state => if state.startId ≤ -1 then { state with startId := 0 } else state

/-- `StateTracker.maybe_increase_control_flags_limits`. -/
def maybeIncreaseControlFlagsLimits (state : State) (headlessMode : Bool) : State :=
  { state with
    iterationFlag := state.iterationFlag.increaseLimit headlessMode
    budgetFlag := state.budgetFlag.map BudgetControlFlag.increaseLimit }

/-- `StateTracker.run_control_flags`: the state after the step of the flags, and the message
of the `RuntimeError` of the first flag that has reached its limit. -/
def runControlFlags (state : State) : State × Option String :=
  let (iterationFlag, raised) := state.iterationFlag.step
  let state := { state with iterationFlag := iterationFlag }
  match raised, state.budgetFlag with
  | some message, _ => (state, some message)
  | none, none => (state, none)
  | none, some budgetFlag =>
    let (budgetFlag, raised) := budgetFlag.step
    ({ state with budgetFlag := some budgetFlag }, raised)

/-- `StateTracker.sync_budget_flag_with_metrics`; the accumulated cost is known only with
the conversation statistics. -/
def syncBudgetFlagWithMetrics (state : State) (accumulatedCost : Option ℚ) : State :=
  match accumulatedCost with
  | some cost =>
    { state with budgetFlag := state.budgetFlag.map fun f => { f with currentValue := cost } }
  | none => state

/-! The history is all that an event changes. -/

variable (state : State) (event : Event)

theorem agentState_addHistory : (addHistory state event).agentState = state.agentState := by
  unfold addHistory
  split_ifs <;> rfl

theorem iterationFlag_addHistory :
    (addHistory state event).iterationFlag = state.iterationFlag := by
  unfold addHistory
  split_ifs <;> rfl

variable {state event}

theorem mem_addHistory {e : Event} (he : e ∈ (addHistory state event).history) :
    e ∈ state.history ∨ e = event := by
  unfold addHistory at he
  split_ifs at he
  · exact (List.mem_append.mp he).imp_right List.mem_singleton.mp
  · exact Or.inl he

/-- An event that is not what is searched for does not change which one is the last. -/
theorem findSome?_addHistory {β : Type*} {f : Event → Option β} (hevent : f event = none) :
    (addHistory state event).history.reverse.findSome? f
      = state.history.reverse.findSome? f := by
  unfold addHistory
  split_ifs
  · rw [List.reverse_append, List.reverse_singleton, List.singleton_append,
      List.findSome?_cons, hevent]
  · rfl

end StateTracker

/-! ## The events outside the delegates -/

/-- A delegate action opens, a delegate observation closes. -/
def delegateRole (event : Event) : Bracket.Role :=
  if event.isDelegateAction then .opening
  else if event.isDelegateObservation then .closing
  else .plain

/-- The event lies strictly inside a matched pair of a delegate action and a delegate
observation. -/
def InsideDelegate (events : List Event) (event : Event) : Prop :=
  ∃ action observation, Bracket.Matched delegateRole events action observation ∧
    action.id < event.id ∧ event.id < observation.id

/-- The pairs that the stack finds. -/
def delegatePairs (events : List Event) : List (Event × Event) :=
  Bracket.matchPairs delegateRole [] events

/-- The events of the source that lie strictly inside one of the pairs. -/
theorem insideDelegate_iff {events : List Event} {event : Event} :
    InsideDelegate events event ↔
      ∃ p ∈ delegatePairs events, p.1.id < event.id ∧ event.id < p.2.id := by
  constructor
  · rintro ⟨a, o, hmatched, hlt⟩
    exact ⟨(a, o), Bracket.mem_matchPairs_iff.mpr hmatched, hlt⟩
  · rintro ⟨⟨a, o⟩, hmem, hlt⟩
    exact ⟨a, o, Bracket.mem_matchPairs_iff.mp hmem, hlt⟩

instance (events : List Event) : DecidablePred (InsideDelegate events) :=
  fun _ => decidable_of_iff _ insideDelegate_iff.symm

/-- The events that are not strictly inside a delegate: what the history is meant to be. -/
def withoutDelegates (events : List Event) : List Event :=
  events.filter fun event => ¬ InsideDelegate events event

/-- No matched pair opens inside another one. -/
def NotNested (events : List Event) : Prop :=
  ∀ a o a' o', Bracket.Matched delegateRole events a o →
    Bracket.Matched delegateRole events a' o' → ¬ (a.id < a'.id ∧ a'.id < o.id)

/-- `delegate_ranges` holds the ids of the matched pairs. -/
theorem delegateRanges_eq (events : List Event) :
    ∀ stack : List Event, delegateRanges (stack.map Event.id) events
      = (Bracket.matchPairs delegateRole stack events).map fun p => (p.1.id, p.2.id) := by
  induction events with
  | nil =>
    intro stack
    simp [delegateRanges, Bracket.matchPairs]
  | cons event events ih =>
    intro stack
    by_cases haction : event.isDelegateAction
    · have hrole : delegateRole event = .opening := if_pos haction
      have hstep : delegateRanges (stack.map Event.id) (event :: events)
          = delegateRanges ((event :: stack).map Event.id) events := by
        cases stack <;> simp [delegateRanges, haction]
      rw [hstep, Bracket.matchPairs_opening hrole, ih]
    · by_cases hobservation : event.isDelegateObservation
      · have hrole : delegateRole event = .closing := by
          rw [delegateRole, if_neg haction, if_pos hobservation]
        cases stack with
        | nil =>
          have hstep : delegateRanges [] (event :: events) = delegateRanges [] events := by
            simp [delegateRanges, haction, hobservation]
          rw [List.map_nil, hstep, Bracket.matchPairs_closing_nil hrole]
          exact ih []
        | cons a stack =>
          have hstep : delegateRanges (a.id :: stack.map Event.id) (event :: events)
              = (a.id, event.id) :: delegateRanges (stack.map Event.id) events := by
            simp [delegateRanges, haction, hobservation]
          rw [List.map_cons, hstep, Bracket.matchPairs_closing_cons hrole, List.map_cons, ih]
      · have hrole : delegateRole event = .plain := by
          rw [delegateRole, if_neg haction, if_neg hobservation]
        have hstep : delegateRanges (stack.map Event.id) (event :: events)
            = delegateRanges (stack.map Event.id) events := by
          cases stack <;> simp [delegateRanges, haction, hobservation]
        rw [hstep, Bracket.matchPairs_plain hrole, ih]

/-! ## The loop over the sorted ranges -/

section Loop

variable {events : List Event}

/-- Dropping up to the first larger id leaves the events with larger ids. -/
theorem drop_findIdx_eq_filter (hsorted : events.Pairwise (fun a b => a.id < b.id)) (x : ℤ) :
    events.drop (events.findIdx fun event => x < event.id)
      = events.filter fun event => x < event.id := by
  induction events with
  | nil => rfl
  | cons e es ih =>
    obtain ⟨hlt, hes⟩ := List.pairwise_cons.mp hsorted
    rw [List.findIdx_cons]
    by_cases hx : x < e.id
    · have hall : ∀ e' ∈ e :: es, x < e'.id := by
        intro e' he'
        rcases List.mem_cons.mp he' with rfl | he'
        · exact hx
        · exact lt_trans hx (hlt e' he')
      rw [List.filter_eq_self.mpr fun e' he' => decide_eq_true (hall e' he')]
      simp [hx]
    · simp only [hx, decide_false, cond_false, List.drop_succ_cons]
      rw [ih hes, List.filter_cons_of_neg (by simpa using hx)]

/-- A sorted list splits at an id. -/
theorem filter_split (hsorted : events.Pairwise (fun a b => a.id < b.id)) (x : ℤ)
    (p : Event → Bool) :
    events.filter p
      = events.filter (fun e => p e && decide (e.id < x))
        ++ events.filter (fun e => p e && decide (x ≤ e.id)) := by
  induction events with
  | nil => rfl
  | cons e es ih =>
    obtain ⟨hlt, hes⟩ := List.pairwise_cons.mp hsorted
    by_cases hx : e.id < x
    · have hge : ¬ x ≤ e.id := by omega
      cases hp : p e with
      | true => simp [hp, hx, hge, ih hes]
      | false => simp [hp, ih hes]
    · -- from here on all ids are at least `x`
      have hnone : (e :: es).filter (fun e => p e && decide (e.id < x)) = [] := by
        rw [List.filter_eq_nil_iff]
        intro e' he'
        have hge : x ≤ e'.id := by
          rcases List.mem_cons.mp he' with rfl | he'
          · omega
          · have hlt' := hlt e' he'
            omega
        simp [hge]
      rw [hnone, List.nil_append]
      apply List.filter_congr
      intro e' he'
      have hge : x ≤ e'.id := by
        rcases List.mem_cons.mp he' with rfl | he'
        · omega
        · have hlt' := hlt e' he'
          omega
      simp [hge]

/-- The state of the loop with the rest of the events that is still to come. -/
def RangeLoop.total (events : List Event) (loop : RangeLoop) : List Event :=
  loop.filteredEvents ++ events.drop loop.currentIdx

/-- Strictly inside none of the ranges. -/
def OutsideRanges (ranges : List (ℤ × ℤ)) (event : Event) : Prop :=
  ∀ r ∈ ranges, ¬ (r.1 < event.id ∧ event.id < r.2)

instance (ranges : List (ℤ × ℤ)) : DecidablePred (OutsideRanges ranges) :=
  fun _ => inferInstanceAs (Decidable (∀ r ∈ ranges, _))

/-- The events behind `b` and outside of the ranges: those before the first range, the two at
its ends, and those behind it that are outside of the others. -/
theorem filter_outsideRanges_cons (hsorted : events.Pairwise (fun a b => a.id < b.id))
    {r : ℤ × ℤ} {ranges : List (ℤ × ℤ)} {b : ℤ} (hr : r.1 < r.2) (hbr : b < r.1)
    (hbehind : ∀ s ∈ ranges, r.2 < s.1) :
    events.filter (fun event => b < event.id ∧ OutsideRanges (r :: ranges) event)
      = (events.filter fun event => b < event.id).filter (fun event => event.id < r.1)
        ++ (events.filter (fun event => event.id = r.1 ∨ event.id = r.2)
          ++ events.filter (fun event => r.2 < event.id ∧ OutsideRanges ranges event)) := by
  rw [filter_split hsorted r.1 fun event =>
    decide (b < event.id ∧ OutsideRanges (r :: ranges) event)]
  congr 1
  · -- before the range no other range is near
    rw [List.filter_filter]
    apply List.filter_congr
    intro e _
    rw [← Bool.decide_and, ← Bool.decide_and, decide_eq_decide, OutsideRanges,
      List.forall_mem_cons]
    constructor
    · rintro ⟨⟨hgt, -⟩, hlt⟩
      exact ⟨hlt, hgt⟩
    · rintro ⟨hlt, hgt⟩
      refine ⟨⟨hgt, by omega, fun s hs => ?_⟩, hlt⟩
      have hrs := hbehind s hs
      omega
  · rw [filter_split hsorted (r.2 + 1) fun event =>
      decide (b < event.id ∧ OutsideRanges (r :: ranges) event) && decide (r.1 ≤ event.id)]
    congr 1
    · apply List.filter_congr
      intro e _
      rw [← Bool.decide_and, ← Bool.decide_and, decide_eq_decide, OutsideRanges,
        List.forall_mem_cons]
      constructor
      · rintro ⟨⟨⟨-, hout, -⟩, hge⟩, hlt⟩
        omega
      · intro hor
        refine ⟨⟨⟨by omega, by omega, fun s hs => ?_⟩, by omega⟩, by omega⟩
        have hrs := hbehind s hs
        omega
    · apply List.filter_congr
      intro e _
      rw [← Bool.decide_and, ← Bool.decide_and, decide_eq_decide, OutsideRanges, OutsideRanges,
        List.forall_mem_cons]
      constructor
      · rintro ⟨⟨⟨-, -, hout⟩, -⟩, hge⟩
        exact ⟨by omega, hout⟩
      · rintro ⟨hgt, hout⟩
        exact ⟨⟨⟨by omega, by omega, hout⟩, by omega⟩, by omega⟩

/-- **Loop invariant**: over ranges one behind the other the loop adds the events from the
current index on that are outside of the ranges. -/
theorem total_foldl_step (hsorted : events.Pairwise (fun a b => a.id < b.id))
    {ranges : List (ℤ × ℤ)} (hdisjoint : ranges.Pairwise (fun r s => r.2 < s.1))
    (hpos : ∀ r ∈ ranges, r.1 < r.2) :
    ∀ (loop : RangeLoop) (b : ℤ),
      events.drop loop.currentIdx = events.filter (fun event => b < event.id) →
      (∀ r ∈ ranges, b < r.1) →
      (ranges.foldl (RangeLoop.step events) loop).total events
        = loop.filteredEvents
          ++ events.filter (fun event => b < event.id ∧ OutsideRanges ranges event) := by
  induction ranges with
  | nil =>
    intro loop b hdrop _
    simp [RangeLoop.total, hdrop, OutsideRanges]
  | cons r ranges ih =>
    intro loop b hdrop hb
    obtain ⟨hbehind, hdisjoint'⟩ := List.pairwise_cons.mp hdisjoint
    have hr : r.1 < r.2 := hpos r List.mem_cons_self
    have hbr : b < r.1 := hb r List.mem_cons_self
    rw [List.foldl_cons, ih hdisjoint' (fun s hs => hpos s (List.mem_cons_of_mem r hs))
      (RangeLoop.step events loop r) r.2 (drop_findIdx_eq_filter hsorted r.2) hbehind,
      filter_outsideRanges_cons hsorted hr hbr hbehind]
    show loop.filteredEvents ++ _ ++ _ ++ _ = _
    rw [hdrop, List.append_assoc, List.append_assoc]

end Loop

end OpenHands
