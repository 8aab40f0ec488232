/-
# Loop recovery and restarts

`AgentController._truncate_memory_to_point` cuts the history and records the cut in
`end_id`, which nothing resets: a history rebuilt from the stream ends there, whatever
was appended after the recovery.

A live session publishes events on the stream, delivers them in order and recovers from
loops, in any order.  Two ghost fields say what a restart has to bring back and whether
the id window is cut.
-/
import OpenHands.Lib.Run
import OpenHands.RestoredHistory

namespace OpenHands

/-- `AgentController._truncate_memory_to_point`. -/
def truncateMemoryToPoint (state : State) (recoveryPoint : ℤ) : State :=
  if recoveryPoint ≥ state.history.length then state
  else
    let eventsToKeep := PySeq.slice state.history none (some recoveryPoint)
    { state with
      history := eventsToKeep
      endId := match eventsToKeep.getLast? with
        | some last => last.id
        | none => -1 }

/-! ## Live sessions -/

/-- A controller at work: the stream, the events not yet delivered and the state.  The last
two fields are ghosts: the events appended to the history since the last call of the
recovery, and whether the id window of the state is cut. -/
structure LiveSession where
  stream : EventLog
  queue : List Event
  state : State
  appendedSince : List Event
  windowCut : Bool

/-- What can happen in a session.  An event is delivered to the controller or, while a
delegate is active, to the delegate. -/
inductive SessionStep where
  | publish (event : Event) (source : EventSource)
  | deliver (handled : Bool)
  | recover (recoveryPoint : ℤ)
  deriving DecidableEq, Repr

namespace LiveSession

/-- A session starts with the history of the stream; its window is cut from the start if
an earlier session was. -/
def start (state : State) (stream : EventLog) : LiveSession where
  stream := stream
  queue := []
  state := StateTracker.initHistory state stream
  appendedSince := []
  windowCut := decide (0 ≤ state.endId)

/-- The recovery keeps something of a history that it shortens, and so cuts the window. -/
def cutsWindow (s : LiveSession) (recoveryPoint : ℤ) : Bool :=
  if recoveryPoint ≥ s.state.history.length then s.windowCut
  else !(PySeq.slice s.state.history none (some recoveryPoint)).isEmpty

/-- One step of a session. -/
def step (s : LiveSession) : SessionStep → LiveSession
  | .publish event source =>
    { s with
      stream := s.stream.addEvent event source
      queue := s.queue ++ [{ event with id := s.stream.curId, source := some source }] }
  | .deliver handled =>
    match s.queue with
    | [] => s
    | event :: queue =>
      if handled && agentHistoryFilter.include event then
        { s with
          queue := queue
          state := StateTracker.addHistory s.state event
          appendedSince := s.appendedSince ++ [event] }
      else { s with queue := queue }
  | .recover recoveryPoint =>
    { s with
      state := truncateMemoryToPoint s.state recoveryPoint
      appendedSince := []
      windowCut := s.cutsWindow recoveryPoint }

end LiveSession

/-- The ids of the state are ids of the stream: the history begins no later than the next
event and ends before it. -/
def FitsStream (state : State) (stream : EventLog) : Prop :=
  state.firstId ≤ stream.curId ∧ state.endId < stream.curId

/-! ## The invariant -/

/-- What holds in a live session. -/
structure SessionInvariant (s : LiveSession) : Prop where
  history_stream : ∀ e ∈ s.state.history, e ∈ s.stream.events
  queue_stream : ∀ q ∈ s.queue, q ∈ s.stream.events
  appended_stream : ∀ e ∈ s.appendedSince, e ∈ s.stream.events ∧
    agentHistoryFilter.include e = true
  queue_sorted : s.queue.Pairwise (fun a b => a.id < b.id)
  /-- What is delivered later has larger ids. -/
  history_lt : ∀ e ∈ s.state.history, ∀ q ∈ s.queue, e.id < q.id
  first_le : s.state.firstId ≤ s.stream.curId ∧ (∀ q ∈ s.queue, s.state.firstId ≤ q.id) ∧
    ∀ e ∈ s.appendedSince, s.state.firstId ≤ e.id
  end_of_cut : s.windowCut = true → 0 ≤ s.state.endId ∧ s.state.endId < s.stream.curId ∧
    (∀ q ∈ s.queue, s.state.endId < q.id) ∧ ∀ e ∈ s.appendedSince, s.state.endId < e.id
  end_of_uncut : s.windowCut = false → s.state.endId < 0

/-- The rebuilt history holds events of the window only. -/
theorem mem_window_of_mem_initHistory {state : State} {stream : EventLog} {event : Event}
    (h : event ∈ (StateTracker.initHistory state stream).history) :
    event ∈ state.window stream := by
  have hfoldl : ∀ (ranges : List (ℤ × ℤ)) (loop : RangeLoop),
      (∀ e ∈ loop.filteredEvents, e ∈ state.window stream) →
      ∀ e ∈ (ranges.foldl (RangeLoop.step (state.window stream)) loop).filteredEvents,
        e ∈ state.window stream := by
    intro ranges
    induction ranges with
    | nil => exact fun loop hloop => hloop
    | cons r ranges ih =>
      intro loop hloop
      refine ih _ ?_
      intro e he
      rcases List.mem_append.mp he with he | he
      · rcases List.mem_append.mp he with he | he
        · exact hloop e he
        · exact List.mem_of_mem_drop (List.mem_filter.mp he).1
      · exact (List.mem_filter.mp he).1
  rw [initHistory_eq] at h
  rcases List.mem_append.mp h with h | h
  · exact hfoldl _ _ (by simp) event h
  · exact List.mem_of_mem_drop h

/-- The window holds events of the stream. -/
theorem mem_stream_of_mem_window {state : State} {stream : EventLog} {event : Event}
    (h : event ∈ state.window stream) : event ∈ stream.events :=
  (EventLog.mem_searchEvents.mp h).1

/-- The rebuilt history begins no later than the next event of the stream. -/
theorem firstId_initHistory_le {state : State} {stream : EventLog}
    (hfirst : state.firstId ≤ stream.curId) :
    (StateTracker.initHistory state stream).firstId ≤ stream.curId := by
  rw [firstId_eq_max, initHistory_eq]
  show max (rangeLoop state stream).startId 0 ≤ stream.curId
  have hcur := stream.curId_nonneg
  rcases startId_foldl_step (state.window stream)
    (pairwise_sortedRanges (pairwise_window state stream)) ⟨[], 0, state.firstId⟩ with
    ⟨hstart, -⟩ | ⟨r, hr, hstart, -⟩
  · rw [rangeLoop, hstart]
    exact max_le hfirst hcur
  · obtain ⟨a, o, hmatched, rfl⟩ := mem_sortedRanges.mp hr
    have hlt := stream.lt_curId a (mem_stream_of_mem_window hmatched.mem_left)
    rw [rangeLoop, hstart]
    exact max_le hlt.le hcur

/-- A session starts with the invariant. -/
theorem sessionInvariant_start {state : State} {stream : EventLog}
    (hfits : FitsStream state stream) : SessionInvariant (.start state stream) := by
  refine ⟨?_, ?_, ?_, .nil, ?_, ⟨?_, ?_, ?_⟩, ?_, ?_⟩
  · exact fun e he => mem_stream_of_mem_window (mem_window_of_mem_initHistory he)
  · simp [LiveSession.start]
  · simp [LiveSession.start]
  · simp [LiveSession.start]
  · exact firstId_initHistory_le hfits.1
  · simp [LiveSession.start]
  · simp [LiveSession.start]
  · intro hcut
    have hend : (LiveSession.start state stream).state.endId = state.endId :=
      endId_initHistory state stream
    rw [hend]
    refine ⟨of_decide_eq_true hcut, hfits.2, ?_, ?_⟩
    · simp [LiveSession.start]
    · simp [LiveSession.start]
  · intro hcut
    have hend : (LiveSession.start state stream).state.endId = state.endId :=
      endId_initHistory state stream
    have hneg := of_decide_eq_false hcut
    rw [hend]
    omega

variable {s : LiveSession}

/-- Publishing an event. -/
theorem sessionInvariant_publish (h : SessionInvariant s) (event : Event)
    (source : EventSource) : SessionInvariant (s.step (.publish event source)) := by
  -- the published event comes behind everything that is queued
  have hnew : ∀ q ∈ s.queue, q.id < s.stream.curId :=
    fun q hq => s.stream.lt_curId q (h.queue_stream q hq)
  refine ⟨?_, ?_, ?_, ?_, ?_, ⟨?_, ?_, h.first_le.2.2⟩, ?_, h.end_of_uncut⟩
  · exact fun e he => List.mem_append_left _ (h.history_stream e he)
  · intro q hq
    rcases List.mem_append.mp hq with hq | hq
    · exact List.mem_append_left _ (h.queue_stream q hq)
    · exact List.mem_append_right _ hq
  · exact fun e he => ⟨List.mem_append_left _ (h.appended_stream e he).1,
      (h.appended_stream e he).2⟩
  · exact pairwise_concat h.queue_sorted hnew
  · intro e he q hq
    rcases List.mem_append.mp hq with hq | hq
    · exact h.history_lt e he q hq
    · rw [List.mem_singleton.mp hq]
      exact s.stream.lt_curId e (h.history_stream e he)
  · have hle := h.first_le.1
    show s.state.firstId ≤ s.stream.curId + 1
    omega
  · intro q hq
    rcases List.mem_append.mp hq with hq | hq
    · exact h.first_le.2.1 q hq
    · rw [List.mem_singleton.mp hq]
      exact h.first_le.1
  · intro hcut
    obtain ⟨hnonneg, hlt, hqueue, happended⟩ := h.end_of_cut hcut
    refine ⟨hnonneg, ?_, ?_, happended⟩
    · show s.state.endId < s.stream.curId + 1
      omega
    · intro q hq
      rcases List.mem_append.mp hq with hq | hq
      · exact hqueue q hq
      · rw [List.mem_singleton.mp hq]
        exact hlt

/-- Delivering the next event. -/
theorem sessionInvariant_deliver (h : SessionInvariant s) (handled : Bool) :
    SessionInvariant (s.step (.deliver handled)) := by
  cases hqueue : s.queue with
  | nil =>
    have hsame : s.step (.deliver handled) = s := by
      simp only [LiveSession.step, hqueue]
    rw [hsame]
    exact h
  | cons event queue =>
    have hmem : event ∈ s.queue := by
      rw [hqueue]
      exact List.mem_cons_self
    have hrest : ∀ q ∈ queue, q ∈ s.queue := by
      intro q hq
      rw [hqueue]
      exact List.mem_cons_of_mem event hq
    have hsorted := h.queue_sorted
    rw [hqueue, List.pairwise_cons] at hsorted
    by_cases hhandled : (handled && agentHistoryFilter.include event) = true
    · rw [Bool.and_eq_true] at hhandled
      obtain ⟨rfl, hinclude⟩ := hhandled
      have hstep : s.step (.deliver true) =
          { s with
            queue := queue
            state := { s.state with history := s.state.history ++ [event] }
            appendedSince := s.appendedSince ++ [event] } := by
        simp only [LiveSession.step, hqueue, Bool.true_and, hinclude, if_true,
          StateTracker.addHistory]
      -- what held of the event in the queue now holds of it in the history
      rw [hstep]
      refine ⟨?_, fun q hq => h.queue_stream q (hrest q hq), ?_, hsorted.2, ?_,
        ⟨h.first_le.1, fun q hq => h.first_le.2.1 q (hrest q hq), ?_⟩, ?_, h.end_of_uncut⟩
      · exact List.forall_mem_append.mpr
          ⟨h.history_stream, List.forall_mem_singleton.mpr (h.queue_stream event hmem)⟩
      · exact List.forall_mem_append.mpr
          ⟨h.appended_stream, List.forall_mem_singleton.mpr ⟨h.queue_stream event hmem, hinclude⟩⟩
      · exact List.forall_mem_append.mpr
          ⟨fun e he q hq => h.history_lt e he q (hrest q hq),
            List.forall_mem_singleton.mpr hsorted.1⟩
      · exact List.forall_mem_append.mpr
          ⟨h.first_le.2.2, List.forall_mem_singleton.mpr (h.first_le.2.1 event hmem)⟩
      · intro hcut
        obtain ⟨hnonneg, hlt, hqueue', happended⟩ := h.end_of_cut hcut
        exact ⟨hnonneg, hlt, fun q hq => hqueue' q (hrest q hq), List.forall_mem_append.mpr
          ⟨happended, List.forall_mem_singleton.mpr (hqueue' event hmem)⟩⟩
    · have hstep : s.step (.deliver handled) = { s with queue := queue } := by
        simp only [LiveSession.step, hqueue, hhandled, Bool.false_eq_true, if_false]
      rw [hstep]
      refine ⟨h.history_stream, fun q hq => h.queue_stream q (hrest q hq), h.appended_stream,
        hsorted.2, fun e he q hq => h.history_lt e he q (hrest q hq),
        ⟨h.first_le.1, fun q hq => h.first_le.2.1 q (hrest q hq), h.first_le.2.2⟩, ?_,
        h.end_of_uncut⟩
      intro hcut
      obtain ⟨hnonneg, hlt, hqueue', happended⟩ := h.end_of_cut hcut
      exact ⟨hnonneg, hlt, fun q hq => hqueue' q (hrest q hq), happended⟩

/-- A recovery point behind the history cuts nothing. -/
theorem sessionInvariant_recover_behind (h : SessionInvariant s) {recoveryPoint : ℤ}
    (hshort : recoveryPoint ≥ s.state.history.length) :
    SessionInvariant (s.step (.recover recoveryPoint)) := by
  have hstep : s.step (.recover recoveryPoint) = { s with appendedSince := [] } := by
    simp only [LiveSession.step, truncateMemoryToPoint, LiveSession.cutsWindow, if_pos hshort]
  rw [hstep]
  refine ⟨h.history_stream, h.queue_stream, by simp, h.queue_sorted, h.history_lt,
    ⟨h.first_le.1, h.first_le.2.1, by simp⟩, ?_, h.end_of_uncut⟩
  intro hcut
  obtain ⟨hnonneg, hlt, hqueue, -⟩ := h.end_of_cut hcut
  exact ⟨hnonneg, hlt, hqueue, by simp⟩

/-- The `end_id` of a history that is cut: the id of the last event that is kept, or -1. -/
theorem endId_truncateMemoryToPoint {state : State} {recoveryPoint : ℤ}
    (hshort : ¬ recoveryPoint ≥ state.history.length) :
    (truncateMemoryToPoint state recoveryPoint).endId
      = match (PySeq.slice state.history none (some recoveryPoint)).getLast? with
        | some last => last.id
        | none => -1 := by
  rw [truncateMemoryToPoint, if_neg hshort]

/-- Recovering from a loop. -/
theorem sessionInvariant_recover (h : SessionInvariant s) (recoveryPoint : ℤ) :
    SessionInvariant (s.step (.recover recoveryPoint)) := by
  by_cases hshort : recoveryPoint ≥ s.state.history.length
  · exact sessionInvariant_recover_behind h hshort
  · have hend := endId_truncateMemoryToPoint hshort
    set kept := PySeq.slice s.state.history none (some recoveryPoint) with hkept
    have hkeptMem : ∀ e ∈ kept, e ∈ s.state.history := by
      intro e he
      rw [hkept, PySeq.slice_stop_eq_take] at he
      exact List.mem_of_mem_take he
    have hstate : (s.step (.recover recoveryPoint)).state = truncateMemoryToPoint s.state
        recoveryPoint := rfl
    have hcutDef : (s.step (.recover recoveryPoint)).windowCut = !kept.isEmpty := by
      show s.cutsWindow recoveryPoint = _
      rw [LiveSession.cutsWindow, if_neg hshort]
    have hhistory : (truncateMemoryToPoint s.state recoveryPoint).history = kept := by
      rw [truncateMemoryToPoint, if_neg hshort]
    have hfirst : (truncateMemoryToPoint s.state recoveryPoint).firstId = s.state.firstId := by
      rw [truncateMemoryToPoint, if_neg hshort]
      rfl
    refine ⟨?_, h.queue_stream, by simp [LiveSession.step], h.queue_sorted, ?_, ⟨?_, ?_, ?_⟩,
      ?_, ?_⟩
    · rw [hstate, hhistory]
      exact fun e he => h.history_stream e (hkeptMem e he)
    · rw [hstate, hhistory]
      exact fun e he => h.history_lt e (hkeptMem e he)
    · rw [hstate, hfirst]
      exact h.first_le.1
    · rw [hstate, hfirst]
      exact h.first_le.2.1
    · simp [LiveSession.step]
    · -- the window ends at the last kept event
      intro hcut
      rw [hcutDef] at hcut
      cases hlast : kept.getLast? with
      | none =>
        rw [List.getLast?_eq_none_iff.mp hlast] at hcut
        cases hcut
      | some last =>
        have hmem : last ∈ s.state.history := hkeptMem last (List.mem_of_getLast? hlast)
        have hstream := h.history_stream last hmem
        rw [hlast] at hend
        rw [hstate, hend]
        refine ⟨s.stream.nonneg last hstream, s.stream.lt_curId last hstream,
          h.history_lt last hmem, ?_⟩
        simp [LiveSession.step]
    · -- without kept events `end_id` is set to -1, and the window stays open
      intro hcut
      rw [hcutDef, Bool.not_eq_false'] at hcut
      rw [List.isEmpty_iff.mp hcut] at hend
      rw [hstate, hend]
      decide

/-- **Step lemma** for live sessions. -/
theorem sessionInvariant_step (s : LiveSession) (l : SessionStep) (h : SessionInvariant s) :
    SessionInvariant (s.step l) := by
  cases l with
  | publish event source => exact sessionInvariant_publish h event source
  | deliver handled => exact sessionInvariant_deliver h handled
  | recover recoveryPoint => exact sessionInvariant_recover h recoveryPoint

/-- The session after a run of steps. -/
def sessionAfter (state : State) (stream : EventLog) (ls : List SessionStep) : LiveSession :=
  Run.run LiveSession.step (.start state stream) ls

/-- **Run lemma** for live sessions. -/
theorem sessionInvariant_sessionAfter {state : State} {stream : EventLog}
    (hfits : FitsStream state stream) (ls : List SessionStep) :
    SessionInvariant (sessionAfter state stream ls) :=
  Run.run_invariant (C := fun _ _ => True) (fun s l h _ => sessionInvariant_step s l h)
    (sessionInvariant_start hfits) (fun _ _ => trivial)

/-- A new state fits every stream. -/
theorem fitsStream_new (stream : EventLog) : FitsStream {} stream := by
  have hcur := stream.curId_nonneg
  refine ⟨hcur, ?_⟩
  show (-1 : ℤ) < stream.curId
  omega

/-- **Sessions one after the other**: what is saved at any moment of a session fits its
stream, and the next session may start from it. -/
theorem fitsStream_sessionAfter {state : State} {stream : EventLog}
    (hfits : FitsStream state stream) (ls : List SessionStep) :
    FitsStream (sessionAfter state stream ls).state (sessionAfter state stream ls).stream := by
  have h := sessionInvariant_sessionAfter hfits ls
  refine ⟨h.first_le.1, ?_⟩
  cases hcut : (sessionAfter state stream ls).windowCut with
  | true => exact (h.end_of_cut hcut).2.1
  | false =>
    have hneg := h.end_of_uncut hcut
    have hcur := (sessionAfter state stream ls).stream.curId_nonneg
    omega

/-! ## What a restart brings back -/

/-- A restart brings back every event that was appended since the last recovery. -/
def KeepsAppended (s : LiveSession) : Prop :=
  ∀ e ∈ s.appendedSince, e ∈ (restart s.stream s.state).history

variable {s : LiveSession}

/-- A window that is cut ends before everything appended since the last recovery. -/
theorem notMem_window_of_cut (h : SessionInvariant s) (hcut : s.windowCut = true) {e : Event}
    (he : e ∈ s.appendedSince) : e ∉ s.state.window s.stream := by
  intro hwindow
  obtain ⟨hnonneg, -, -, hbehind⟩ := h.end_of_cut hcut
  obtain ⟨-, -, hlast, -⟩ := EventLog.mem_searchEvents.mp hwindow
  have hle := hlast _ rfl
  have hlt := hbehind e he
  rw [State.lastId, if_pos hnonneg] at hle
  omega

/-- With a negative `end_id` the window reaches up to the latest event. -/
theorem mem_window_of_uncut (h : SessionInvariant s) (hcut : s.windowCut = false) {e : Event}
    (he : e ∈ s.appendedSince) : e ∈ s.state.window s.stream := by
  have hneg := h.end_of_uncut hcut
  obtain ⟨hstream, hinclude⟩ := h.appended_stream e he
  refine EventLog.mem_searchEvents.mpr ⟨hstream, h.first_le.2.2 e he, ?_, hinclude⟩
  intro last hlast
  rw [Option.mem_some_iff] at hlast
  have hlt := s.stream.lt_curId e hstream
  rw [← hlast, State.lastId, if_neg (by omega), EventLog.latestEventId]
  omega

/-- **When a restart keeps the conversation**: at every moment of a session, a restart
brings back what was appended since the last recovery exactly when nothing was, or when the
window is not cut and no event of them is lost inside a delegate. -/
theorem keepsAppended_iff (state : State) (stream : EventLog) (hfits : FitsStream state stream)
    (ls : List SessionStep) :
    KeepsAppended (sessionAfter state stream ls) ↔
      (sessionAfter state stream ls).appendedSince = [] ∨
        (sessionAfter state stream ls).windowCut = false ∧
          ∀ e ∈ (sessionAfter state stream ls).appendedSince,
            ¬ LostInDelegate ((sessionAfter state stream ls).state.window
              (sessionAfter state stream ls).stream) e := by
  have h := sessionInvariant_sessionAfter hfits ls
  set s := sessionAfter state stream ls
  rw [KeepsAppended, (initHistory_restart s.stream s.state).1]
  constructor
  · intro hkeeps
    by_cases hnil : s.appendedSince = []
    · exact Or.inl hnil
    · right
      obtain ⟨e, he⟩ := List.exists_mem_of_ne_nil _ hnil
      have huncut : s.windowCut = false := by
        rw [← Bool.not_eq_true]
        intro hcut
        exact notMem_window_of_cut h hcut he (mem_window_of_mem_initHistory (hkeeps e he))
      refine ⟨huncut, ?_⟩
      intro e he
      exact (mem_initHistory_iff (mem_window_of_uncut h huncut he)).mp (hkeeps e he)
  · rintro (hnil | ⟨huncut, hkept⟩)
    · rw [hnil]
      simp
    · intro e he
      exact (mem_initHistory_iff (mem_window_of_uncut h huncut he)).mpr (hkept e he)

/-- A session that recovers from a loop after its first event and goes on. -/
def recoverAndContinue : List SessionStep :=
  [.publish (.ofAction (.message { content := "task" })) .user, .deliver true,
   .publish (.ofAction (.agentThink "")) .agent, .deliver true,
   .recover 1,
   .publish (.ofAction (.message { content := "go on" })) .user, .deliver true]

/-- The message sent after the recovery is in the live history, but a restart ends at the
event before the loop. -/
theorem recoverAndContinue_loses_message :
    (sessionAfter {} .empty recoverAndContinue).state.history.map Event.id = [0, 2] ∧
    (restart (sessionAfter {} .empty recoverAndContinue).stream
      (sessionAfter {} .empty recoverAndContinue).state).history.map Event.id = [0] ∧
    ∃ e ∈ (sessionAfter {} .empty recoverAndContinue).appendedSince,
      e ∉ (restart (sessionAfter {} .empty recoverAndContinue).stream
        (sessionAfter {} .empty recoverAndContinue).state).history := by
  decide

/-- A session that recovers to its very start and goes on. -/
def recoverToStart : List SessionStep :=
  [.publish (.ofAction (.agentThink "")) .agent, .deliver true, .recover 0,
   .publish (.ofAction (.message { content := "go on" })) .user, .deliver true]

/-- A recovery that keeps nothing cuts nothing: the conversation after it survives. -/
theorem keepsAppended_recoverToStart :
    (sessionAfter {} .empty recoverToStart).appendedSince.map Event.id = [1] ∧
      KeepsAppended (sessionAfter {} .empty recoverToStart) :=
  ⟨by decide, (keepsAppended_iff {} .empty ⟨by decide, by decide⟩ recoverToStart).mpr
    (Or.inr (by decide))⟩

/-- A user message that waits behind a delegate, and is delivered when the delegate has
ended. -/
def waitBehindDelegate : List SessionStep :=
  [.publish delegateAction .agent, .deliver true,
   .publish (.ofAction (.message { content := "wait" })) .user,
   .publish delegateObservation .agent, .deliver true, .deliver true]

/-- The waiting message is lost although no recovery cut the window. -/
example :
    (sessionAfter {} .empty waitBehindDelegate).appendedSince.map Event.id = [0, 1, 2] ∧
    (restart (sessionAfter {} .empty waitBehindDelegate).stream
      (sessionAfter {} .empty waitBehindDelegate).state).history.map Event.id = [0, 2] := by
  decide

end OpenHands
