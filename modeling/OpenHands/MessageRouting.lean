/-
# Which controller gets a user message

The root controller forwards the events to its delegate as long as the delegate is not
done.  The first event that comes in afterwards ends the delegate, and `on_event` returns:
the event itself is given to neither controller.  Mostly this is the notice of the
delegate's own change of state, but a user message that was already in the queue when the
delegate finished comes before the notice.

The main result says that this is the only way in which a user message gets lost.
-/
import OpenHands.Lib.Run
import OpenHands.TurnFrame

namespace OpenHands

/-- The event that a move delivers. -/
def Turn.delivered? (t : Turn) : Move → Option Event
  | .publish _ _ => none
  | .deliver _ => t.bus.queue.head?

/-- The parent has handled the event: it is the new end of its history. -/
def ParentHandles (t t' : Turn) (event : Event) : Prop :=
  t'.self.state.history = t.self.state.history ++ [event]

/-- The delegate has handled the event: it is the new end of its history. -/
def DelegateHandles (t t' : Turn) (event : Event) : Prop :=
  ∃ d ∈ t.self.delegate, ∃ d' ∈ t'.self.delegate,
    d'.state.history = d.state.history ++ [event]

instance (t t' : Turn) (event : Event) : Decidable (ParentHandles t t' event) :=
  inferInstanceAs (Decidable (_ = _))

instance (t t' : Turn) (event : Event) : Decidable (DelegateHandles t t' event) :=
  inferInstanceAs (Decidable (∃ d ∈ t.self.delegate, ∃ d' ∈ t'.self.delegate, _))

/-- Every user message that is delivered in the run is handled by exactly one controller. -/
def RoutesUserMessages (t : Turn) (moves : List Move) : Prop :=
  ∀ p ∈ Run.steps Turn.move t moves, ∀ m ∈ p.1.delivered? p.2, m.isUserMessage = true →
    Xor (ParentHandles p.1 (p.1.move p.2) m) (DelegateHandles p.1 (p.1.move p.2) m)

instance (t : Turn) (moves : List Move) : Decidable (RoutesUserMessages t moves) :=
  inferInstanceAs (Decidable (∀ p ∈ Run.steps Turn.move t moves, ∀ m ∈ p.1.delivered? p.2,
    m.isUserMessage = true → Xor _ _))

/-- No user message is delivered to a controller with a delegate that is done. -/
def NoMessageToDoneDelegate (t : Turn) (moves : List Move) : Prop :=
  ∀ p ∈ Run.steps Turn.move t moves, ∀ m ∈ p.1.delivered? p.2, m.isUserMessage = true →
    ∀ d ∈ p.1.self.delegate, d.isDone = false

/-! ## A user message that is handled -/

/-- A user message belongs to the history. -/
theorem include_of_isUserMessage {m : Event} (h : m.isUserMessage = true) :
    agentHistoryFilter.include m = true := by
  rw [include_agentHistoryFilter, Event.hidden_of_isUserMessage h]
  unfold Event.isUserMessage at h
  unfold isBackendEvent
  split at h
  · rename_i hbody
    rw [hbody]
    rfl
  · contradiction

namespace Turn

/-- **A controller that handles a user message** appends it to its history and keeps its
delegate. -/
theorem handleEvent_of_isUserMessage (t : Turn) (answers : Answers) {m : Event}
    (h : m.isUserMessage = true) :
    (t.handleEvent answers m).self.state.history = t.self.state.history ++ [m] ∧
      (t.handleEvent answers m).self.delegate = t.self.delegate := by
  obtain ⟨message, hbody⟩ : ∃ message, m.body = .action (.message message) := by
    unfold Event.isUserMessage at h
    split at h
    · rename_i message hbody
      exact ⟨message, hbody⟩
    · contradiction
  unfold handleEvent
  simp only [Event.hidden_of_isUserMessage h, hbody, Bool.false_eq_true, if_false, handleAction]
  set t₁ := (t.observe m).mapState (StateTracker.addHistory · m) with ht₁
  have hhistory : t₁.self.state.history = t.self.state.history ++ [m] := by
    show (StateTracker.addHistory t.self.state m).history = _
    rw [StateTracker.addHistory, if_pos (include_of_isUserMessage h)]
  -- whatever follows the handling of the message appends nothing to the history
  have hkeeps : t₁.Keeps (if (t₁.handleMessageAction m message).self.shouldStep m then
      (t₁.handleMessageAction m message).stepWithExceptionHandling answers
      else t₁.handleMessageAction m message) :=
    (keeps_handleMessageAction t₁ m message).trans
      (.ite (keeps_stepWithExceptionHandling _ answers) (.refl _))
  exact ⟨hkeeps.history.trans hhistory, hkeeps.delegate⟩

/-! ## Routing one message -/

/-- A delivery is a call of `on_event` on the bus without the event. -/
theorem self_move_deliver {t : Turn} {event : Event} {queue : List Event}
    (hqueue : t.bus.queue = event :: queue) (answers : Answers) :
    (t.move (.deliver answers)).self = ((t.popped queue answers).onEvent answers event).self := by
  simp only [move, hqueue]

variable (t : Turn) (answers : Answers) {m : Event}

/-- Without a delegate the parent handles the message. -/
theorem onEvent_of_no_delegate (hd : t.self.delegate = none) (h : m.isUserMessage = true) :
    ParentHandles t (t.onEvent answers m) m ∧ ¬ DelegateHandles t (t.onEvent answers m) m := by
  refine ⟨?_, ?_⟩
  · simp only [ParentHandles, onEvent, hd]
    exact (handleEvent_of_isUserMessage t answers h).1
  · rintro ⟨d, hmem, -⟩
    rw [hd] at hmem
    cases hmem

/-- A delegate that is not done handles the message, and the parent does not. -/
theorem onEvent_of_active_delegate {d : AgentController} (hd : t.self.delegate = some d)
    (hdone : d.isDone = false) (h : m.isUserMessage = true) :
    ¬ ParentHandles t (t.onEvent answers m) m ∧ DelegateHandles t (t.onEvent answers m) m := by
  have hself : (t.onEvent answers m).self
      = { t.self with delegate := some (handleEvent ⟨d, t.bus⟩ answers m).self } := by
    simp only [onEvent, hd, hdone, Bool.false_eq_true, if_false, onDelegate]
    rfl
  refine ⟨?_, ?_⟩
  · rw [ParentHandles, hself]
    simp
  · refine ⟨d, hd, _, ?_, (handleEvent_of_isUserMessage ⟨d, t.bus⟩ answers h).1⟩
    rw [hself]
    rfl

/-- A delegate that is done is ended: the message reaches neither history. -/
theorem onEvent_of_done_delegate {d : AgentController} (hd : t.self.delegate = some d)
    (hdone : d.isDone = true) :
    ¬ ParentHandles t (t.onEvent answers m) m ∧ ¬ DelegateHandles t (t.onEvent answers m) m := by
  have hended : t.onEvent answers m = t.endDelegate := by
    simp only [onEvent, hd, hdone, if_true]
  have hhistory : t.endDelegate.self.state.history = t.self.state.history := by
    simp only [endDelegate, hd]
    rfl
  have hnone : t.endDelegate.self.delegate = none := by
    simp only [endDelegate, hd]
    rfl
  -- `on_event` returns before the message is looked at
  rw [hended]
  refine ⟨?_, ?_⟩
  · rw [ParentHandles, hhistory]
    simp
  · rintro ⟨-, -, d', hmem, -⟩
    rw [hnone] at hmem
    cases hmem

/-- **Step lemma**: a delivered user message is handled by exactly one controller if and
only if no delegate is done. -/
theorem xor_handles_onEvent_iff (h : m.isUserMessage = true) :
    Xor (ParentHandles t (t.onEvent answers m) m) (DelegateHandles t (t.onEvent answers m) m) ↔
      ∀ d ∈ t.self.delegate, d.isDone = false := by
  cases hd : t.self.delegate with
  | none =>
    obtain ⟨hparent, hdelegate⟩ := onEvent_of_no_delegate t answers hd h
    exact iff_of_true (Or.inl ⟨hparent, hdelegate⟩) (by simp)
  | some d =>
    cases hdone : d.isDone with
    | false =>
      obtain ⟨hparent, hdelegate⟩ := onEvent_of_active_delegate t answers hd hdone h
      refine iff_of_true (Or.inr ⟨hdelegate, hparent⟩) ?_
      intro d' hd'
      rw [Option.mem_some_iff] at hd'
      rw [← hd']
      exact hdone
    | true =>
      obtain ⟨hparent, hdelegate⟩ := onEvent_of_done_delegate t answers (m := m) hd hdone
      refine iff_of_false ?_ ?_
      · rintro (⟨hhandled, -⟩ | ⟨hhandled, -⟩)
        · exact hparent hhandled
        · exact hdelegate hhandled
      · intro hall
        have hfalse := hall d rfl
        rw [hdone] at hfalse
        cases hfalse

end Turn

/-! ## Routing over a run -/

/-- **When no user message gets lost**: in a run every user message is handled by exactly
one controller if and only if none is delivered while the delegate is done. -/
theorem routesUserMessages_iff (t : Turn) (moves : List Move) :
    RoutesUserMessages t moves ↔ NoMessageToDoneDelegate t moves := by
  have hstep (t : Turn) (l : Move) (m : Event) (hm : m ∈ t.delivered? l)
      (h : m.isUserMessage = true) :
      Xor (ParentHandles t (t.move l) m) (DelegateHandles t (t.move l) m) ↔
        ∀ d ∈ t.self.delegate, d.isDone = false := by
    cases l with
    | publish event source => cases hm
    | deliver answers =>
      obtain ⟨queue, hqueue⟩ : ∃ queue, t.bus.queue = m :: queue :=
        List.head?_eq_some_iff.mp hm
      have hself := Turn.self_move_deliver hqueue answers
      rw [ParentHandles, DelegateHandles, hself]
      exact Turn.xor_handles_onEvent_iff (t.popped queue answers) answers h
  constructor
  · intro hroutes p hp m hm h
    exact (hstep p.1 p.2 m hm h).mp (hroutes p hp m hm h)
  · intro hnone p hp m hm h
    exact (hstep p.1 p.2 m hm h).mpr (hnone p hp m hm h)

/-- A run with a delegate that finishes while a message of the user is in the queue: the
message stands behind the action that finishes the delegate and before the notice of the
new state. -/
def messageBehindFinish : List Move :=
  let recallObservation (cause : ℤ) : Move :=
    .publish { Event.ofObservation "" (.recall .knowledge) with cause := some cause }
      .environment
  let delegateAction : Action :=
    .agentDelegate { agent := "BrowsingAgent", inputs := [("task", "look it up")] }
  [.publish (.ofAction (.message { content := "hello" })) .user,
    .deliver {}, .deliver {}, .deliver {},
    recallObservation 1, .deliver { agentStep := .ok (some (delegateAction, none)) },
    .deliver { delegateAgent := some { name := "BrowsingAgent" } },
    .deliver {}, .deliver {}, .deliver {},
    recallObservation 7, .deliver { agentStep := .ok (some (.agentFinish [], none)) },
    .publish (.ofAction (.message { content := "wait" })) .user,
    .deliver {}, .deliver {}]

/-- The message is handled by neither controller. -/
theorem messageBehindFinish_swallows_message :
    ¬ RoutesUserMessages
      (Turn.start { agent := { name := "CodeActAgent" }, initialMaxIterations := 100 } none .empty)
      messageBehindFinish := by
  decide +kernel

end OpenHands
