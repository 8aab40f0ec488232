/-
# The history a restart rebuilds

What `StateTracker._init_history` makes of the events of the stream.  The loop over the
delegate ranges is right when no range opens inside another one; with nested ranges it
puts the inner delegate action back and moves its index backwards.  `mem_initHistory_iff`
says which events it brings back, whatever the ranges.

The loop variables shadow `start_id`, which is written to the state at the end: a restart
after a delegation starts at the last delegate action.
-/
import OpenHands.StateTracker

namespace OpenHands

/-! ## The sorted ranges -/

/-- `sorted(delegate_ranges)`. -/
def sortedRanges (events : List Event) : List (ℤ × ℤ) :=
  (delegateRanges [] events).insertionSort rangeLE

theorem mem_sortedRanges {events : List Event} {r : ℤ × ℤ} :
    r ∈ sortedRanges events ↔
      ∃ a o, Bracket.Matched delegateRole events a o ∧ r = (a.id, o.id) := by
  have hranges := delegateRanges_eq events []
  rw [List.map_nil] at hranges
  rw [sortedRanges, List.mem_insertionSort, hranges, List.mem_map]
  constructor
  · rintro ⟨⟨a, o⟩, hmem, rfl⟩
    exact ⟨a, o, Bracket.mem_matchPairs_iff.mp hmem, rfl⟩
  · rintro ⟨a, o, hmatched, rfl⟩
    exact ⟨(a, o), Bracket.mem_matchPairs_iff.mpr hmatched, rfl⟩

/-- Outside of the sorted ranges is outside of the delegates. -/
theorem outsideRanges_sortedRanges {events : List Event} {event : Event} :
    OutsideRanges (sortedRanges events) event ↔ ¬ InsideDelegate events event := by
  constructor
  · rintro hout ⟨a, o, hmatched, hlt⟩
    exact hout (a.id, o.id) (mem_sortedRanges.mpr ⟨a, o, hmatched, rfl⟩) hlt
  · intro hout r hr hlt
    obtain ⟨a, o, hmatched, rfl⟩ := mem_sortedRanges.mp hr
    exact hout ⟨a, o, hmatched, hlt⟩

instance : Std.Total rangeLE where
  total a b := by
    unfold rangeLE
    omega

instance : IsTrans (ℤ × ℤ) rangeLE where
  trans a b c := by
    unfold rangeLE
    omega

/-- Increasing ids are different. -/
theorem nodup_map_id {events : List Event} (hsorted : events.Pairwise (fun a b => a.id < b.id)) :
    (events.map Event.id).Nodup := List.pairwise_map.mpr (hsorted.imp fun h => h.ne)

/-- Events with increasing ids are told apart by their ids. -/
theorem eq_of_id_eq {events : List Event} (hsorted : events.Pairwise (fun a b => a.id < b.id))
    {a b : Event} (ha : a ∈ events) (hb : b ∈ events) (hid : a.id = b.id) : a = b :=
  List.inj_on_of_nodup_map (nodup_map_id hsorted) ha hb hid

/-- The delegate actions of the sorted ranges come in increasing order. -/
theorem pairwise_sortedRanges {events : List Event}
    (hsorted : events.Pairwise (fun a b => a.id < b.id)) :
    (sortedRanges events).Pairwise (fun r s => r.1 < s.1) := by
  have hids := nodup_map_id hsorted
  have hnodup : ([] ++ events).Nodup := List.Nodup.of_map _ hids
  obtain ⟨hfst, hmem⟩ := Bracket.nodup_map_fst_matchPairs delegateRole hnodup
  have hstarts : ((delegateRanges [] events).map Prod.fst).Nodup := by
    have hranges := delegateRanges_eq events []
    rw [List.map_nil] at hranges
    rw [hranges, List.map_map]
    have hcomp : (Prod.fst ∘ fun p : Event × Event => (p.1.id, p.2.id)) = Event.id ∘ Prod.fst := by
      funext p
      rfl
    rw [hcomp, ← List.map_map]
    refine List.Nodup.map_on ?_ hfst
    intro a ha b hb hid
    obtain ⟨p, hp, rfl⟩ := List.mem_map.mp ha
    obtain ⟨q, hq, rfl⟩ := List.mem_map.mp hb
    exact eq_of_id_eq hsorted (hmem p hp) (hmem q hq) hid
  -- sorting permutes the ranges, so their starts stay distinct
  have hdiffer : (sortedRanges events).Pairwise (fun r s => r.1 ≠ s.1) := by
    refine List.pairwise_map.mp ?_
    exact ((List.perm_insertionSort rangeLE _).map Prod.fst).nodup_iff.mpr hstarts
  have hle : (sortedRanges events).Pairwise rangeLE := List.pairwise_insertionSort _ _
  refine hle.imp₂ (fun r s hrs hne => ?_) hdiffer
  rcases hrs with hlt | ⟨heq, -⟩
  · exact hlt
  · exact absurd heq hne

/-- A delegate action stands before its observation. -/
theorem lt_of_mem_sortedRanges {events : List Event}
    (hsorted : events.Pairwise (fun a b => a.id < b.id)) {r : ℤ × ℤ}
    (hr : r ∈ sortedRanges events) : r.1 < r.2 := by
  obtain ⟨a, o, hmatched, rfl⟩ := mem_sortedRanges.mp hr
  exact hmatched.rel hsorted

/-- Without nesting the sorted ranges lie one behind the other. -/
theorem disjoint_sortedRanges {events : List Event}
    (hsorted : events.Pairwise (fun a b => a.id < b.id)) (hnested : NotNested events) :
    (sortedRanges events).Pairwise (fun r s => r.2 < s.1) := by
  refine (pairwise_sortedRanges hsorted).imp_of_mem ?_
  intro r s hr hs hlt
  obtain ⟨a, o, hmatched, rfl⟩ := mem_sortedRanges.mp hr
  obtain ⟨a', o', hmatched', rfl⟩ := mem_sortedRanges.mp hs
  have hout := hnested a o a' o' hmatched hmatched'
  have hne : o.id ≠ a'.id := by
    -- an observation is no action
    intro hid
    have heq := eq_of_id_eq hsorted hmatched.mem_right hmatched'.mem_left hid
    obtain ⟨-, -, -, -, -, hclosing, -⟩ := hmatched
    obtain ⟨-, -, -, -, hopening, -, -⟩ := hmatched'
    rw [heq, hopening] at hclosing
    contradiction
  simp only at hlt ⊢
  omega

/-! ## One formula for `_init_history` -/

/-- The loop of `_init_history` over the events of the window. -/
def rangeLoop (state : State) (stream : EventLog) : RangeLoop :=
  (sortedRanges (state.window stream)).foldl (RangeLoop.step (state.window stream))
    ⟨[], 0, state.firstId⟩

/-- The window holds stored events in increasing order of their ids. -/
theorem pairwise_window (state : State) (stream : EventLog) :
    (state.window stream).Pairwise (fun a b => a.id < b.id) :=
  stream.sorted_searchEvents _ _ _

theorem firstId_le_of_mem_window {state : State} {stream : EventLog} {event : Event}
    (h : event ∈ state.window stream) : state.firstId ≤ event.id :=
  (EventLog.mem_searchEvents.mp h).2.1

/-- `_init_history` sets the history and `start_id` as the loop leaves them; without
ranges the loop makes no turn. -/
theorem initHistory_eq (state : State) (stream : EventLog) :
    StateTracker.initHistory state stream
      = { state with
          history := (rangeLoop state stream).total (state.window stream)
          startId := (rangeLoop state stream).startId } := by
  show (if state.firstId > state.lastId stream + 1 then _
    else if (delegateRanges [] (state.window stream)).isEmpty then _ else _) = _
  split_ifs with hsanity hempty
  · -- an empty window: the history is empty, and `start_id` was not negative
    have hwindow : state.window stream = [] := by
      rw [State.window, List.eq_nil_iff_forall_not_mem]
      intro event hevent
      obtain ⟨-, hfirst, hlast, -⟩ := EventLog.mem_searchEvents.mp hevent
      have hle := hlast _ rfl
      omega
    have hfirst : state.firstId = state.startId := by
      have hlatest : -1 ≤ state.lastId stream := by
        have hcur := stream.curId_nonneg
        unfold State.lastId EventLog.latestEventId
        split_ifs <;> omega
      unfold State.firstId at hsanity ⊢
      split_ifs at hsanity ⊢ with hpos
      · rfl
      · omega
    have hloop : rangeLoop state stream = ⟨[], 0, state.startId⟩ := by
      rw [rangeLoop, hwindow, hfirst]
      rfl
    rw [hloop, hwindow]
    rfl
  · have hranges : sortedRanges (state.window stream) = [] := by
      rw [sortedRanges, List.isEmpty_iff.mp hempty]
      rfl
    rw [rangeLoop, hranges]
    rfl
  · rfl

/-! ## When the rebuilt history is right -/

/-- The loop keeps what it has filtered. -/
theorem mem_filteredEvents_foldl {events : List Event} {event : Event} (ranges : List (ℤ × ℤ)) :
    ∀ loop : RangeLoop, event ∈ loop.filteredEvents →
      event ∈ (ranges.foldl (RangeLoop.step events) loop).filteredEvents := by
  induction ranges with
  | nil => exact fun loop h => h
  | cons r ranges ih =>
    intro loop h
    refine ih _ ?_
    exact List.mem_append_left _ (List.mem_append_left _ h)

/-- The delegate action of every range is put into the history. -/
theorem mem_filteredEvents_of_range {events : List Event} {event : Event}
    (hevent : event ∈ events) {ranges : List (ℤ × ℤ)} {r : ℤ × ℤ} (hr : r ∈ ranges)
    (hid : event.id = r.1) :
    ∀ loop : RangeLoop,
      event ∈ (ranges.foldl (RangeLoop.step events) loop).filteredEvents := by
  induction ranges with
  | nil => cases hr
  | cons s ranges ih =>
    intro loop
    rcases List.mem_cons.mp hr with rfl | hr
    · refine mem_filteredEvents_foldl ranges _ (List.mem_append_right _ ?_)
      simp [hevent, hid]
    · exact ih hr _

/-- The end of the last range that begins before the id; `b` without such a range. -/
def lastEnd (b : ℤ) (ranges : List (ℤ × ℤ)) (id : ℤ) : ℤ :=
  ((ranges.filter fun r => r.1 < id).map Prod.snd).getLastD b

theorem lastEnd_of_forall_le {b id : ℤ} {ranges : List (ℤ × ℤ)} (h : ∀ r ∈ ranges, id ≤ r.1) :
    lastEnd b ranges id = b := by
  have hnone : ranges.filter (fun r => r.1 < id) = [] := by
    rw [List.filter_eq_nil_iff]
    intro r hr
    simpa using h r hr
  rw [lastEnd, hnone]
  rfl

theorem lastEnd_cons_of_lt {b id : ℤ} {r : ℤ × ℤ} (h : r.1 < id) (ranges : List (ℤ × ℤ)) :
    lastEnd b (r :: ranges) id = lastEnd r.2 ranges id := by
  rw [lastEnd, List.filter_cons_of_pos (by simpa using h), List.map_cons, List.getLastD_cons]
  rfl

/-- The last range that begins before the id, if one does. -/
theorem lastEnd_cases {id : ℤ} {ranges : List (ℤ × ℤ)}
    (hstarts : ranges.Pairwise (fun r s => r.1 < s.1)) (b : ℤ) :
    (∀ r ∈ ranges, id ≤ r.1) ∨ ∃ l ∈ ranges, l.1 < id ∧ lastEnd b ranges id = l.2 ∧
      ∀ r ∈ ranges, r.1 < id → r = l ∨ r.1 < l.1 := by
  induction ranges generalizing b with
  | nil => exact Or.inl fun r hr => absurd hr List.not_mem_nil
  | cons r ranges ih =>
      obtain ⟨hbehind, hstarts'⟩ := List.pairwise_cons.mp hstarts
      by_cases hbefore : r.1 < id
      · rw [lastEnd_cons_of_lt hbefore]
        right
        rcases ih hstarts' r.2 with hnone | ⟨l, hl, hlt, hend, hlast⟩
        · refine ⟨r, List.mem_cons_self, hbefore, lastEnd_of_forall_le hnone, ?_⟩
          exact List.forall_mem_cons.mpr
            ⟨fun _ => Or.inl rfl, fun s hs hlt => absurd hlt (not_lt.mpr (hnone s hs))⟩
        · refine ⟨l, List.mem_cons_of_mem _ hl, hlt, hend, ?_⟩
          exact List.forall_mem_cons.mpr ⟨fun _ => Or.inr (hbehind l hl), hlast⟩
      · have hle := not_lt.mp hbefore
        exact Or.inl (List.forall_mem_cons.mpr ⟨hle, fun s hs => hle.trans (hbehind s hs).le⟩)

/-- **What the loop keeps**, whatever the nesting: the two ends of every range, and an event
behind the end of the last range that begins before it. -/
theorem mem_total_foldl_step_iff {events : List Event}
    (hsorted : events.Pairwise (fun a b => a.id < b.id)) {event : Event}
    (hevent : event ∈ events) {ranges : List (ℤ × ℤ)}
    (hstarts : ranges.Pairwise (fun r s => r.1 < s.1)) (hpos : ∀ r ∈ ranges, r.1 < r.2) :
    ∀ (loop : RangeLoop) (b : ℤ),
      events.drop loop.currentIdx = events.filter (fun e => b < e.id) →
      (event ∈ (ranges.foldl (RangeLoop.step events) loop).total events ↔
        event ∈ loop.filteredEvents ∨ (∃ r ∈ ranges, event.id = r.1 ∨ event.id = r.2) ∨
          lastEnd b ranges event.id < event.id) := by
  induction ranges with
  | nil =>
      intro loop b hdrop
      rw [List.foldl_nil, RangeLoop.total, hdrop, List.mem_append, List.mem_filter]
      simp [hevent, lastEnd]
  | cons r ranges ih =>
      intro loop b hdrop
      obtain ⟨hbehind, hstarts'⟩ := List.pairwise_cons.mp hstarts
      obtain ⟨hr, hpos'⟩ := List.forall_mem_cons.mp hpos
      have hfiltered : event ∈ (RangeLoop.step events loop r).filteredEvents ↔
          event ∈ loop.filteredEvents ∨ (b < event.id ∧ event.id < r.1) ∨
            (event.id = r.1 ∨ event.id = r.2) := by
        show event ∈ loop.filteredEvents ++ _ ++ _ ↔ _
        rw [hdrop, List.mem_append, List.mem_append, List.mem_filter, List.mem_filter,
          List.mem_filter]
        simp [hevent, or_assoc]
      rw [List.foldl_cons, ih hstarts' hpos' _ r.2 (drop_findIdx_eq_filter hsorted r.2), hfiltered,
        List.exists_mem_cons_iff]
      by_cases hbefore : r.1 < event.id
      · -- the range begins before the event: only its end counts from now on
        have hnot : ¬ (b < event.id ∧ event.id < r.1) := by omega
        simp only [lastEnd_cons_of_lt hbefore, hnot, false_or, or_assoc]
      · -- no later range begins before the event
        have hlater : ∀ s ∈ ranges, event.id ≤ s.1 :=
          fun s hs => (not_lt.mp hbefore).trans (hbehind s hs).le
        have hend : ¬ r.2 < event.id := by omega
        rw [lastEnd_of_forall_le (List.forall_mem_cons.mpr ⟨not_lt.mp hbefore, hlater⟩),
          lastEnd_of_forall_le hlater]
        constructor
        · rintro ((hloop | hgap | hends) | hlater | hbehind)
          · exact Or.inl hloop
          · exact Or.inr (Or.inr hgap.1)
          · exact Or.inr (Or.inl (Or.inl hends))
          · exact Or.inr (Or.inl (Or.inr hlater))
          · exact absurd hbehind hend
        · rintro (hloop | (hends | hlater) | hb)
          · exact Or.inl (Or.inl hloop)
          · exact Or.inl (Or.inr (Or.inr hends))
          · exact Or.inr (Or.inl hlater)
          · rcases lt_or_eq_of_le (not_lt.mp hbefore) with hlt | heq
            · exact Or.inl (Or.inr (Or.inl ⟨hb, hlt⟩))
            · exact Or.inl (Or.inr (Or.inr (Or.inl heq)))

/-- The event is lost inside a delegate: the last delegate that begins before it ends behind
it, and the event is itself neither end of a delegate. -/
def LostInDelegate (events : List Event) (event : Event) : Prop :=
  (∀ p ∈ delegatePairs events, event.id ≠ p.1.id ∧ event.id ≠ p.2.id) ∧
    ∃ p ∈ delegatePairs events, p.1.id < event.id ∧ event.id < p.2.id ∧
      ∀ q ∈ delegatePairs events, q.1.id < event.id → q.1.id ≤ p.1.id

instance (events : List Event) : DecidablePred (LostInDelegate events) :=
  fun _ => inferInstanceAs (Decidable (_ ∧ _))

/-- The sorted ranges are those of the pairs. -/
theorem mem_sortedRanges_iff_pair {events : List Event} {r : ℤ × ℤ} :
    r ∈ sortedRanges events ↔ ∃ p ∈ delegatePairs events, r = (p.1.id, p.2.id) := by
  rw [mem_sortedRanges]
  constructor
  · rintro ⟨a, o, hmatched, rfl⟩
    exact ⟨(a, o), Bracket.mem_matchPairs_iff.mpr hmatched, rfl⟩
  · rintro ⟨⟨a, o⟩, hmem, rfl⟩
    exact ⟨a, o, Bracket.mem_matchPairs_iff.mp hmem, rfl⟩

/-- In the ranges, an event is lost exactly when the last one that begins before it has not
ended, and it is at no end. -/
theorem lostInDelegate_iff {events : List Event}
    (hsorted : events.Pairwise (fun a b => a.id < b.id)) {event : Event} {b : ℤ}
    (hb : b < event.id) :
    LostInDelegate events event ↔
      ¬ ((∃ r ∈ sortedRanges events, event.id = r.1 ∨ event.id = r.2) ∨
        lastEnd b (sortedRanges events) event.id < event.id) := by
  have hends : (∀ p ∈ delegatePairs events, event.id ≠ p.1.id ∧ event.id ≠ p.2.id) ↔
      ¬ ∃ r ∈ sortedRanges events, event.id = r.1 ∨ event.id = r.2 := by
    push Not
    constructor
    · intro h r hr
      obtain ⟨p, hp, rfl⟩ := mem_sortedRanges_iff_pair.mp hr
      exact h p hp
    · exact fun h p hp => h _ (mem_sortedRanges_iff_pair.mpr ⟨p, hp, rfl⟩)
  rw [LostInDelegate, hends, not_or]
  refine and_congr_right fun hnoEnd => ?_
  rcases lastEnd_cases (pairwise_sortedRanges hsorted) b with
    hnone | ⟨l, hl, hbefore, hend, hlast⟩
  · -- no delegate begins before the event
    rw [lastEnd_of_forall_le hnone]
    refine iff_of_false ?_ (fun h => h hb)
    rintro ⟨p, hp, hlt, -⟩
    exact absurd hlt (not_lt.mpr (hnone _ (mem_sortedRanges_iff_pair.mpr ⟨p, hp, rfl⟩)))
  · rw [hend, not_lt]
    obtain ⟨p, hp, rfl⟩ := mem_sortedRanges_iff_pair.mp hl
    constructor
    · rintro ⟨q, hq, hlt, hgt, hmax⟩
      rcases hlast _ (mem_sortedRanges_iff_pair.mpr ⟨q, hq, rfl⟩) hlt with heq | hlater
      · rw [← heq]
        exact hgt.le
      · exact absurd (hmax p hp hbefore) (not_le.mpr hlater)
    · intro hopen
      refine ⟨p, hp, hbefore, lt_of_le_of_ne hopen ?_, ?_⟩
      · exact fun heq => hnoEnd ⟨_, hl, Or.inr heq⟩
      · intro q hq hlt
        rcases hlast _ (mem_sortedRanges_iff_pair.mpr ⟨q, hq, rfl⟩) hlt with heq | hlater
        · exact (congrArg Prod.fst heq).le
        · exact hlater.le

/-- **What `_init_history` brings back**: the events of the window that are not lost inside a
delegate. -/
theorem mem_initHistory_iff {state : State} {stream : EventLog} {event : Event}
    (hevent : event ∈ state.window stream) :
    event ∈ (StateTracker.initHistory state stream).history ↔
      ¬ LostInDelegate (state.window stream) event := by
  have hsorted := pairwise_window state stream
  have hfirst : ∀ e ∈ state.window stream, state.firstId - 1 < e.id := by
    intro e he
    have hle := firstId_le_of_mem_window he
    omega
  have hall : (state.window stream).filter (fun e => state.firstId - 1 < e.id)
      = state.window stream :=
    List.filter_eq_self.mpr fun e he => decide_eq_true (hfirst e he)
  rw [initHistory_eq, lostInDelegate_iff hsorted (hfirst event hevent), not_not, rangeLoop]
  have hloop := mem_total_foldl_step_iff hsorted hevent (pairwise_sortedRanges hsorted)
    (fun r hr => lt_of_mem_sortedRanges hsorted hr) ⟨[], 0, state.firstId⟩ (state.firstId - 1)
    hall.symm
  rw [hloop, or_iff_right (List.not_mem_nil)]

/-- The rebuilt history is exactly the events that are not strictly inside a delegate. -/
structure HistoryIsExact (history events : List Event) : Prop where
  eq_withoutDelegates : history = withoutDelegates events
  /-- The ids are strictly increasing. -/
  increasing : history.Pairwise (fun a b => a.id < b.id)
  /-- No event occurs twice. -/
  nodup : history.Nodup
  /-- No event outside of the delegates is dropped. -/
  complete : ∀ event ∈ events, ¬ InsideDelegate events event → event ∈ history

/-- **When `_init_history` rebuilds the right history**: exactly when no delegate is
started inside another one. -/
theorem historyIsExact_initHistory_iff (state : State) (stream : EventLog) :
    HistoryIsExact (StateTracker.initHistory state stream).history (state.window stream) ↔
      NotNested (state.window stream) := by
  have hsorted := pairwise_window state stream
  rw [initHistory_eq]
  constructor
  · rintro hexact a o a' o' hmatched hmatched' hlt
    -- the inner delegate action is put back although it lies inside the outer range
    have hmem : a' ∈ (rangeLoop state stream).total (state.window stream) := by
      refine List.mem_append_left _ ?_
      exact mem_filteredEvents_of_range hmatched'.mem_left
        (mem_sortedRanges.mpr ⟨a', o', hmatched', rfl⟩) rfl _
    have heq := hexact.eq_withoutDelegates
    simp only at heq
    rw [heq, withoutDelegates, List.mem_filter, decide_eq_true_eq] at hmem
    exact hmem.2 ⟨a, o, hmatched, hlt⟩
  · intro hnested
    have htotal : (rangeLoop state stream).total (state.window stream)
        = withoutDelegates (state.window stream) := by
      have hall : ∀ event ∈ state.window stream, state.firstId - 1 < event.id := by
        intro event hevent
        have hle := firstId_le_of_mem_window hevent
        omega
      rw [rangeLoop, total_foldl_step hsorted (disjoint_sortedRanges hsorted hnested)
        (fun r hr => lt_of_mem_sortedRanges hsorted hr) _ (state.firstId - 1)]
      · -- the loop leaves the events outside all ranges, and nothing before `start_id`
        rw [List.nil_append, withoutDelegates]
        apply List.filter_congr
        intro event hevent
        rw [decide_eq_decide, outsideRanges_sortedRanges]
        exact and_iff_right (hall event hevent)
      · rw [List.drop_zero, List.filter_eq_self.mpr fun event hevent => decide_eq_true
          (hall event hevent)]
      · intro r hr
        obtain ⟨a, o, hmatched, rfl⟩ := mem_sortedRanges.mp hr
        exact hall a hmatched.mem_left
    have hincreasing : (withoutDelegates (state.window stream)).Pairwise
        (fun a b => a.id < b.id) := hsorted.filter _
    simp only [htotal]
    refine ⟨rfl, hincreasing, List.Nodup.of_map _ (nodup_map_id hincreasing), ?_⟩
    intro event hevent hout
    exact List.mem_filter.mpr ⟨hevent, decide_eq_true hout⟩

/-- The start of a delegate. -/
def delegateAction : Event := .ofAction (.agentDelegate { agent := "BrowsingAgent", inputs := [] })

/-- The end of a delegate. -/
def delegateObservation : Event := .ofObservation "" (.agentDelegate [])

/-- A stream with a delegate that delegates in turn. -/
def nestedDelegates : EventLog :=
  EventLog.empty.addEvents
    [delegateAction, delegateAction, delegateObservation, delegateObservation] .agent

/-- With nested delegates the inner events come back, out of order, and the end of the
outer delegate comes twice. -/
theorem initHistory_nestedDelegates :
    (StateTracker.initHistory {} nestedDelegates).history.map Event.id = [0, 3, 1, 2, 3] ∧
    ¬ HistoryIsExact (StateTracker.initHistory {} nestedDelegates).history
        (State.window {} nestedDelegates) := by
  refine ⟨by decide, fun h => ?_⟩
  have hincreasing := h.increasing
  revert hincreasing
  decide

/-! ## Repeated restarts -/

/-- The first id of the history is `start_id`, but not a negative one. -/
theorem firstId_eq_max (state : State) : state.firstId = max state.startId 0 := by
  unfold State.firstId
  split_ifs <;> omega

/-- A session restored from the saved state, its history rebuilt from the stream. -/
def restart (stream : EventLog) (state : State) : State :=
  StateTracker.initHistory (StateTracker.setInitialState (some state.save.restore) 0 none false)
    stream

/-- Restoring changes nothing more: `start_id` is the one the state had, running
`_init_history` again gives the same history, and so does any number of restarts. -/
structure RestoreIsIdempotent (state : State) (stream : EventLog) : Prop where
  startId_eq : (StateTracker.initHistory state stream).startId = max state.startId 0
  history_eq : (StateTracker.initHistory (StateTracker.initHistory state stream) stream).history
    = (StateTracker.initHistory state stream).history
  restarts_eq : ∀ n : ℕ,
    ((restart stream)^[n] (StateTracker.initHistory state stream)).history
      = (StateTracker.initHistory state stream).history

/-- The loop depends on the two ids only. -/
theorem rangeLoop_congr {state state' : State} (stream : EventLog)
    (hfirst : state.firstId = state'.firstId) (hend : state.endId = state'.endId) :
    state.window stream = state'.window stream ∧
      rangeLoop state stream = rangeLoop state' stream := by
  have hlast : state.lastId stream = state'.lastId stream := by
    unfold State.lastId
    rw [hend]
  have hwindow : state.window stream = state'.window stream := by
    unfold State.window
    rw [hfirst, hlast]
  refine ⟨hwindow, ?_⟩
  rw [rangeLoop, rangeLoop, hwindow, hfirst]

/-- The rebuilt history and `start_id` depend on the two ids only. -/
theorem initHistory_congr {state state' : State} (stream : EventLog)
    (hfirst : state.firstId = state'.firstId) (hend : state.endId = state'.endId) :
    (StateTracker.initHistory state stream).history
        = (StateTracker.initHistory state' stream).history ∧
      (StateTracker.initHistory state stream).startId
        = (StateTracker.initHistory state' stream).startId := by
  obtain ⟨hwindow, hloop⟩ := rangeLoop_congr stream hfirst hend
  rw [initHistory_eq, initHistory_eq]
  simp only [hwindow, hloop, and_self]

@[simp] theorem endId_initHistory (state : State) (stream : EventLog) :
    (StateTracker.initHistory state stream).endId = state.endId := by
  rw [initHistory_eq]

/-- The loop leaves `start_id` at the start of its last range. -/
theorem startId_foldl_step (events : List Event) {ranges : List (ℤ × ℤ)}
    (hranges : ranges.Pairwise (fun r s => r.1 < s.1)) (loop : RangeLoop) :
    ((ranges.foldl (RangeLoop.step events) loop).startId = loop.startId ∧ ranges = []) ∨
      ∃ last ∈ ranges, (ranges.foldl (RangeLoop.step events) loop).startId = last.1 ∧
        ∀ r ∈ ranges, r.1 ≤ last.1 := by
  induction ranges generalizing loop with
  | nil => exact Or.inl ⟨rfl, rfl⟩
  | cons r ranges ih =>
    right
    obtain ⟨hbehind, hranges'⟩ := List.pairwise_cons.mp hranges
    rcases ih hranges' (RangeLoop.step events loop r) with ⟨hstart, rfl⟩ | ⟨last, hlast, hstart, hle⟩
    · refine ⟨r, List.mem_cons_self, hstart, ?_⟩
      intro s hs
      rw [List.mem_singleton.mp hs]
    · refine ⟨last, List.mem_cons_of_mem r hlast, hstart, ?_⟩
      intro s hs
      rcases List.mem_cons.mp hs with rfl | hs
      · exact (hbehind last hlast).le
      · exact hle s hs

/-- `start_id` stays where it was exactly when no delegate was started behind it. -/
theorem startId_initHistory_eq_iff (state : State) (stream : EventLog) :
    (StateTracker.initHistory state stream).startId = max state.startId 0 ↔
      ∀ a o, Bracket.Matched delegateRole (state.window stream) a o →
        a.id = max state.startId 0 := by
  rw [initHistory_eq, ← firstId_eq_max]
  show (rangeLoop state stream).startId = state.firstId ↔ _
  have hcases := startId_foldl_step (state.window stream)
    (pairwise_sortedRanges (pairwise_window state stream)) ⟨[], 0, state.firstId⟩
  constructor
  · intro hstart a o hmatched
    have hr : (a.id, o.id) ∈ sortedRanges (state.window stream) :=
      mem_sortedRanges.mpr ⟨a, o, hmatched, rfl⟩
    have hge := firstId_le_of_mem_window hmatched.mem_left
    rcases hcases with ⟨-, hempty⟩ | ⟨last, -, hlast, hle⟩
    · rw [hempty] at hr
      cases hr
    · -- the last start is the largest one
      have hmax := hle _ hr
      rw [← hlast, ← rangeLoop, hstart] at hmax
      exact le_antisymm hmax hge
  · intro hall
    rcases hcases with ⟨hstart, -⟩ | ⟨last, hmem, hlast, -⟩
    · exact hstart
    · obtain ⟨a, o, hmatched, rfl⟩ := mem_sortedRanges.mp hmem
      rw [rangeLoop, hlast]
      exact hall a o hmatched

/-- Saving, restoring and setting the initial state leave the two ids as they are, up to
a negative `start_id`. -/
theorem initHistory_restart (stream : EventLog) (state : State) :
    (restart stream state).history = (StateTracker.initHistory state stream).history ∧
      (restart stream state).startId = (StateTracker.initHistory state stream).startId := by
  have hfirst : (StateTracker.setInitialState (some state.save.restore) 0 none false).firstId
      = state.firstId := by
    rw [firstId_eq_max, firstId_eq_max]
    show max (if state.startId ≤ -1 then _ else _ : State).startId 0 = _
    split_ifs with hneg
    · show max 0 0 = max state.startId 0
      omega
    · rfl
  have hend : (StateTracker.setInitialState (some state.save.restore) 0 none false).endId
      = state.endId := by
    show (if state.startId ≤ -1 then _ else _ : State).endId = _
    split_ifs <;> rfl
  exact initHistory_congr stream hfirst hend

@[simp] theorem endId_restart (stream : EventLog) (state : State) :
    (restart stream state).endId = state.endId := by
  rw [restart, endId_initHistory]
  show (if state.startId ≤ -1 then _ else _ : State).endId = _
  split_ifs <;> rfl

/-- **When restoring is idempotent**: exactly when every delegate of the window was started
by its first event. -/
theorem restoreIsIdempotent_iff (state : State) (stream : EventLog) :
    RestoreIsIdempotent state stream ↔
      ∀ a o, Bracket.Matched delegateRole (state.window stream) a o →
        a.id = max state.startId 0 := by
  rw [← startId_initHistory_eq_iff]
  constructor
  · exact fun h => h.startId_eq
  · intro hstart
    -- every restart finds the same two ids, hence rebuilds the same history
    have hsame : ∀ state' : State, state'.firstId = state.firstId → state'.endId = state.endId →
        (StateTracker.initHistory state' stream).history
          = (StateTracker.initHistory state stream).history ∧
        (StateTracker.initHistory state' stream).firstId = state.firstId := by
      intro state' hfirst hend
      obtain ⟨hhistory, hstart'⟩ := initHistory_congr stream hfirst hend
      refine ⟨hhistory, ?_⟩
      rw [firstId_eq_max, hstart', hstart, firstId_eq_max]
      omega
    obtain ⟨-, hfirst⟩ := hsame state rfl rfl
    have hrestarts : ∀ n : ℕ,
        ((restart stream)^[n] (StateTracker.initHistory state stream)).history
            = (StateTracker.initHistory state stream).history ∧
          ((restart stream)^[n] (StateTracker.initHistory state stream)).firstId
            = state.firstId ∧
          ((restart stream)^[n] (StateTracker.initHistory state stream)).endId
            = state.endId := by
      intro n
      induction n with
      | zero => exact ⟨rfl, hfirst, endId_initHistory state stream⟩
      | succ n ih =>
        obtain ⟨-, hfirstn, hendn⟩ := ih
        rw [Function.iterate_succ_apply', endId_restart]
        obtain ⟨hhistory, hstart'⟩ := initHistory_restart stream
          ((restart stream)^[n] (StateTracker.initHistory state stream))
        obtain ⟨hhistory', hfirst'⟩ := hsame _ hfirstn hendn
        refine ⟨hhistory.trans hhistory', ?_, hendn⟩
        rw [← hfirst', firstId_eq_max, firstId_eq_max, hstart']
    refine ⟨hstart, ?_, fun n => (hrestarts n).1⟩
    exact (hsame _ hfirst (endId_initHistory state stream)).1

/-- A conversation with one delegate, started by the second event. -/
def taskThenDelegate : EventLog :=
  (EventLog.empty.addEvent (.ofAction (.message { content := "task" })) .user).addEvents
    [delegateAction, delegateObservation] .agent

/-- The first restart moves `start_id` to the delegate action, and the second one loses
the task. -/
theorem initHistory_taskThenDelegate :
    (StateTracker.initHistory {} taskThenDelegate).startId = 1 ∧
    (StateTracker.initHistory {} taskThenDelegate).history.map Event.id = [0, 1, 2] ∧
    (StateTracker.initHistory (StateTracker.initHistory {} taskThenDelegate)
      taskThenDelegate).history.map Event.id = [1, 2] ∧
    ¬ RestoreIsIdempotent {} taskThenDelegate := by
  refine ⟨by decide, by decide, by decide, fun h => ?_⟩
  have hstart := h.startId_eq
  revert hstart
  decide

end OpenHands