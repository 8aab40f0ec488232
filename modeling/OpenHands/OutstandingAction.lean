/-
# Runs with at most one outstanding action

The invariant of `PendingAction` is carried through the step of the agent and the handling
of an event to whole conversations.  An observation clears the slot only when it answers
the pending action; by the order of the queue the observations of all actions that were
outstanding before have been delivered by then.
-/
import OpenHands.PendingAction

namespace OpenHands

namespace Turn

/-- The invariant with the readiness of the agent. -/
structure Steady (t : Turn) : Prop extends Tracked t where
  ready : t.Ready

variable {t t' : Turn}

/-- Nothing is pending, so a reset forgets nothing. -/
theorem not_resetForgets_of_none (hp : t.self.pendingAction = none) : ¬ t.ResetForgets := by
  rintro ⟨-, p, hmem, -⟩
  rw [hp] at hmem
  cases hmem

/-! ## The step of the agent -/

/-- A change to a state other than running, with a free slot. -/
theorem Tracked.steady_setAgentStateTo (h : t.Tracked) (hp : t.self.pendingAction = none)
    {newState : AgentState} (hne : newState ≠ .running) : (t.setAgentStateTo newState).Steady where
  toTracked := h.setAgentStateTo fun _ _ => not_resetForgets_of_none hp
  ready := by
    apply ready_of_not_running
    rw [agentState_setAgentStateTo]
    exact hne

/-- An exception sets the agent to an error state; the slot is free. -/
theorem Tracked.reactToException (h : t.Tracked) (hp : t.self.pendingAction = none)
    (e : PyException) : (t.reactToException e).Steady := by
  have hlast (t : Turn) (h : t.Tracked) (hp : t.self.pendingAction = none) (text : String)
      (s : AgentState) (hne : s ≠ .running) :
      ((t.mapState fun s => { s with lastError := text }).setAgentStateTo s).Steady :=
    (h.mapState _).steady_setAgentStateTo hp hne
  unfold Turn.reactToException
  extract_lets setLastError t₁
  have h₁ : t₁.Tracked := h.mapState _
  by_cases hcallback : (!t₁.self.statusCallback) = true
  · rw [if_pos hcallback]
    exact hlast t h hp _ _ (by decide)
  · rw [if_neg hcallback]
    split
    · exact hlast t₁ h₁ hp _ _ (by decide)
    · split_ifs
      · exact hlast t₁ h₁ hp _ _ (by decide)
      · exact hlast t h hp _ _ (by decide)
      · exact hlast t h hp _ _ (by decide)

/-- **The action of the agent**, called with nothing outstanding, is the only one that is
outstanding afterwards. -/
theorem Tracked.emitAction (h : t.Tracked) (hu : t.self.unobserved = []) (answers : Answers)
    (action : Action) (toolCallMetadata : Option ToolCallMetadata) :
    (t.emitAction answers action toolCallMetadata).Steady := by
  unfold Turn.emitAction
  split
  · exact ⟨h, ready_of_unobserved hu⟩
  · extract_lets a event t₁ t₂ added
    have h₁ : t₁.Tracked :=
      { wellFormed := h.wellFormed
        pending_lt := by
          intro p hmem
          rw [← Option.mem_some_iff.mp hmem]
          -- the action is in the slot before it has an id
          have hnonneg := t.bus.log.curId_nonneg
          show (-1 : ℤ) < t.bus.log.curId
          omega
        pending_cause := by
          intro p hmem
          rw [← Option.mem_some_iff.mp hmem]
          rfl
        calls := h.calls
        answered := by simp [t₁, mapSelf, hu]
        of_runnable := by simp [t₁, mapSelf, hu]
        length_le := h.length_le }
    -- an action that awaits its confirmation changes the state, but not the slot
    have h₂ : t₂.Tracked ∧ t₂.self.unobserved = [] := by
      unfold t₂
      split_ifs
      · refine ⟨h₁.setAgentStateTo (by simp), ?_⟩
        rw [(slot_setAgentStateTo t₁ _ (by simp) rfl).2]
        exact hu
      · exact ⟨h₁, hu⟩
    refine ⟨Tracked.putPending h₂.1.toOrderly event .agent [] [added.2.id] rfl rfl rfl rfl
      ?_ ?_ ?_ ?_ ?_, ready_of_pending rfl⟩
    · show t₂.self.unobserved ++ [added.2.id] = _
      rw [h₂.2]
    · simp
    · intro i hi
      exact List.mem_singleton.mp hi
    · exact fun _ => rfl
    · exact le_refl 1
  · -- other actions have no observation to wait for
    refine ⟨h.addEvent ?_ .agent, ready_of_unobserved hu⟩
    simp [Event.withToolCallMetadata, Event.ofAction]

/-- The call of the agent with nothing outstanding; if it raises, the slot is free. -/
theorem Tracked.callAgent (h : t.Tracked) (hp : t.self.pendingAction = none)
    (hu : t.self.unobserved = []) (answers : Answers) :
    (t.callAgent answers).1.Steady ∧
      ((t.callAgent answers).2.isSome = true →
        (t.callAgent answers).1.self.pendingAction = none) := by
  unfold Turn.callAgent
  extract_lets t₁
  -- the call is recorded with what is outstanding: nothing
  have h₁ : t₁.Tracked := by
    refine tracked_of_idle h.wellFormed hp hu ?_
    intro call hcall
    rcases List.mem_append.mp hcall with hcall | hcall
    · exact h.calls call hcall
    · rw [List.mem_singleton.mp hcall]
      exact hu
  have hu₁ : t₁.self.unobserved = [] := hu
  have hadd (event : Event) (hcause : event.cause = none) :
      (t₁.addEvent event .agent).Steady :=
    ⟨h₁.addEvent (by simp [hcause]) .agent, ready_of_unobserved hu₁⟩
  split
  · exact ⟨h₁.emitAction hu₁ answers _ _, by simp⟩
  · exact ⟨hadd _ rfl, by simp⟩
  · split_ifs
    · exact ⟨hadd _ rfl, by simp⟩
    · exact ⟨hadd _ rfl, by simp⟩
    · exact ⟨⟨h₁, ready_of_unobserved hu₁⟩, fun _ => hp⟩
    · exact ⟨⟨h₁, ready_of_unobserved hu₁⟩, fun _ => hp⟩

/-- **One step**: the agent is only called when nothing is outstanding. -/
theorem Steady.step (h : t.Steady) (answers : Answers) :
    (t.step answers).1.Steady ∧
      ((t.step answers).2.isSome = true → (t.step answers).1.self.pendingAction = none) := by
  unfold Turn.step
  split_ifs with hstate hpending
  · exact ⟨h, by simp⟩
  · exact ⟨h, by simp⟩
  · rw [not_not] at hstate
    have hp : t.self.pendingAction = none := by simpa using hpending
    -- a running agent with a free slot has nothing outstanding
    have hu : t.self.unobserved = [] := h.ready hstate hp
    extract_lets t₁ raised t₂
    have h₁ : t₁.Tracked := h.mapState _
    have h₂ : t₂.Tracked := h₁.mapState _
    split_ifs
    · exact ⟨h₁.reactToException hp _, by simp⟩
    · clear_value raised
      cases raised with
      | some message => exact ⟨h₂.reactToException hp _, by simp⟩
      | none => exact h₂.callAgent hp hu answers

theorem Steady.stepWithExceptionHandling (h : t.Steady) (answers : Answers) :
    (t.stepWithExceptionHandling answers).Steady := by
  obtain ⟨hsteady, hraised⟩ := h.step answers
  unfold Turn.stepWithExceptionHandling
  split
  · rename_i heq
    rw [heq] at hsteady
    exact hsteady
  · rename_i heq
    rw [heq] at hsteady hraised
    exact hsteady.toTracked.reactToException (hraised rfl) _

/-! ## Messages and observations -/

/-- A user message puts a recall action into the slot. -/
theorem Tracked.handleUserMessage (h : t.Tracked) (hout : ¬ t.PendingOutstanding)
    {event : Event} (hsource : event.source = some .user) (message : MessageAction) :
    (t.handleMessageAction event message).Steady := by
  unfold Turn.handleMessageAction
  rw [if_pos hsource]
  extract_lets first isFirst recallType recallAction added t₁
  have h₁ : t₁.Tracked := by
    -- a recall is not runnable: what is outstanding stays so, with its answer in the queue
    refine Tracked.putPending h.toOrderly (.ofAction (.recall recallAction)) .user
      t.self.unobserved [] rfl rfl rfl rfl ?_ ?_ ?_ ?_ ?_
    · exact (List.append_nil _).symm
    · exact fun i hi => h.onItsWay hout hi
    · simp
    · simp [Event.runnable, Event.ofAction]
    · rw [List.append_nil]
      exact h.length_le
  have hp₁ : t₁.self.pendingAction = some added.2 := rfl
  split_ifs
  · refine ⟨h₁.setAgentStateTo (by simp), ?_⟩
    apply ready_of_pending
    rw [(slot_setAgentStateTo t₁ _ (by simp) rfl).1]
    exact hp₁
  · exact ⟨h₁, ready_of_pending hp₁⟩

/-- Other messages do not touch the slot. -/
theorem Steady.handleOtherMessage (h : t.Steady) {event : Event}
    (hsource : event.source ≠ some .user) (message : MessageAction) :
    (t.handleMessageAction event message).Steady := by
  unfold Turn.handleMessageAction
  rw [if_neg hsource]
  split_ifs
  · exact ⟨h.toTracked.setAgentStateTo (by simp), h.ready.setAgentStateTo (by simp)⟩
  · exact h
  · exact h

/-- **An observation** frees the slot if it answers the pending action; nothing is
outstanding then. -/
theorem Steady.handleObservation (h : t.Steady) {event : Event}
    (hcleared : ∀ p ∈ t.self.pendingAction, some p.id = event.cause → t.self.unobserved = []) :
    (t.handleObservation event).Steady := by
  unfold Turn.handleObservation
  split
  · exact h
  · rename_i p hp
    split_ifs with hcause hawaiting
    · exact h
    · -- the observation answers the pending action
      have hu : t.self.unobserved = [] := hcleared p hp hcause
      extract_lets t₁ t₂
      have h₁ : t₁.Tracked := h.toTracked.clearPending (by simp [hu])
      have h₂ : t₂.Tracked ∧ t₂.self.unobserved = [] := by
        unfold t₂
        split_ifs
        · refine ⟨h₁.setAgentStateTo (by simp), ?_⟩
          rw [(slot_setAgentStateTo t₁ _ (by simp) rfl).2]
          exact hu
        · exact ⟨h₁, hu⟩
      split_ifs
      · refine ⟨h₂.1.setAgentStateTo (by simp), ready_of_unobserved ?_⟩
        rw [(slot_setAgentStateTo t₂ _ (by simp) rfl).2]
        exact h₂.2
      · exact ⟨h₂.1, ready_of_unobserved h₂.2⟩
    · exact h

/-! ## Loop recovery -/

theorem Tracked.truncateMemoryToPoint (h : t.Tracked) (recoveryPoint : ℤ) :
    (t.truncateMemoryToPoint recoveryPoint).Tracked := by
  unfold Turn.truncateMemoryToPoint
  split_ifs
  · exact h
  · exact h.advance rfl rfl rfl (.refl t.bus) h.wellFormed

theorem slot_truncateMemoryToPoint (t : Turn) (recoveryPoint : ℤ) :
    (t.truncateMemoryToPoint recoveryPoint).self.pendingAction = t.self.pendingAction ∧
      (t.truncateMemoryToPoint recoveryPoint).self.unobserved = t.self.unobserved := by
  unfold Turn.truncateMemoryToPoint
  split_ifs <;> exact ⟨rfl, rfl⟩

/-- A recovery waits for the user. -/
theorem Tracked.performLoopRecovery (h : t.Tracked) (recoveryPoint : ℤ) :
    (t.performLoopRecovery recoveryPoint).Steady := by
  have hstate := agentState_setAgentStateTo (t.truncateMemoryToPoint recoveryPoint)
    .awaitingUserInput
  refine ⟨((h.truncateMemoryToPoint recoveryPoint).setAgentStateTo (by simp)).addEvent
    (by simp [Event.ofObservation]) .environment, ?_⟩
  apply ready_of_not_running
  show ((t.truncateMemoryToPoint recoveryPoint).setAgentStateTo
    .awaitingUserInput).self.state.agentState ≠ AgentState.running
  rw [hstate]
  decide

/-- A restart handles the last user message again. -/
theorem Tracked.restartWithLastUserMessage (h : t.Tracked)
    (hsafe : t.lastUserMessage.isSome = true → ¬ t.PendingOutstanding) (recoveryPoint : ℤ) :
    (t.restartWithLastUserMessage recoveryPoint).Steady := by
  unfold Turn.restartWithLastUserMessage
  split
  · rename_i last hlast
    rw [hlast] at hsafe
    extract_lets t₁ t₂ newAction
    have h₁ : t₁.Tracked := (h.truncateMemoryToPoint recoveryPoint).setAgentStateTo (by simp)
    have h₂ : t₂.Tracked := h₁.addEvent (by simp [Event.ofObservation]) .environment
    have hadvances : t.bus.Advances t₂.bus := by
      have hkeeps : (t.truncateMemoryToPoint recoveryPoint).Keeps t₂ :=
        (keeps_setAgentStateTo _ _).trans (keeps_addEvent t₁ _ _)
      rw [← bus_truncateMemoryToPoint t recoveryPoint]
      exact hkeeps.advances
    obtain ⟨hpending, hunobserved⟩ := slot_setAgentStateTo (t.truncateMemoryToPoint recoveryPoint)
      .running (by simp) rfl
    obtain ⟨hpending', hunobserved'⟩ := slot_truncateMemoryToPoint t recoveryPoint
    refine h₂.handleUserMessage ?_ rfl newAction
    -- neither the cut nor the change of state touches the slot
    intro hout
    exact hsafe rfl (hout.of_advances (hpending.trans hpending')
      (hunobserved.trans hunobserved') hadvances)
  · exact h.performLoopRecovery recoveryPoint

/-! ## The history does not matter -/

/-- An event that is no message does not change which message of the user is the last. -/
theorem lastUserMessage_addHistory {event : Event} (hevent : event.userMessage? = none) :
    (t.mapState (StateTracker.addHistory · event)).lastUserMessage = t.lastUserMessage :=
  StateTracker.findSome?_addHistory hevent

/-- A safe event stays safe when it has been appended to the history: the event is an
action, and no message. -/
theorem SafeEvent.addHistory {answers : Answers} {event : Event}
    (h : t.SafeEvent answers event) (haction : event.isObservation = false) :
    (t.mapState (StateTracker.addHistory · event)).SafeEvent answers event := by
  have hstate := StateTracker.agentState_addHistory t.self.state event
  -- an action in the history answers no tool call
  have hfound (p : Event) :
      AgentController.foundObservation
          (t.mapState (StateTracker.addHistory · event)).self p
        = t.self.foundObservation p := by
    show (StateTracker.addHistory t.self.state event).history.any _ = _
    unfold StateTracker.addHistory
    split_ifs
    · simp [AgentController.foundObservation, haction]
    · rfl
  have hforgets : (t.mapState (StateTracker.addHistory · event)).ResetForgets ↔
      t.ResetForgets := by
    constructor
    · rintro ⟨hout, p, hp, hf⟩
      exact ⟨hout, p, hp, (hfound p).symm.trans hf⟩
    · rintro ⟨hout, p, hp, hf⟩
      exact ⟨hout, p, hp, (hfound p).trans hf⟩
  have hsafeState (s : AgentState) (hs : t.SafeState s) :
      (t.mapState (StateTracker.addHistory · event)).SafeState s := by
    intro hne
    obtain ⟨hreset, hrunning⟩ := hs fun heq => hne (heq.trans hstate.symm)
    exact ⟨fun hs => mt hforgets.mp (hreset hs), hrunning⟩
  obtain ⟨hmessage, hchanged, hrecovery⟩ := h
  refine ⟨hmessage, fun s hs => hsafeState s (hchanged s hs), ?_⟩
  intro option hoption hstuck
  obtain ⟨hrestart, hstop⟩ := hrecovery option hoption hstuck
  refine ⟨?_, fun hthree => hsafeState _ (hstop hthree)⟩
  intro htwo hlast
  refine hrestart htwo ?_
  -- the loop recovery itself is no message of the user
  rw [← lastUserMessage_addHistory (Event.userMessage?_of_loopRecovery hoption)]
  exact hlast

/-- A safe change of state. -/
theorem Steady.setAgentStateTo (h : t.Steady) {newState : AgentState}
    (hsafe : t.SafeState newState) : (t.setAgentStateTo newState).Steady where
  toTracked := h.toTracked.setAgentStateTo fun hne hs => (hsafe hne).1 hs
  ready := h.ready.setAgentStateTo fun hne hs hp => (hsafe hne).2 hs hp

theorem Steady.handleLoopRecoveryAction (h : t.Steady) {answers : Answers} {event : Event}
    (hsafe : t.SafeEvent answers event) {option : ℤ}
    (hbody : event.body = .action (.loopRecovery option)) :
    (t.handleLoopRecoveryAction answers option).Steady := by
  have hoption : option ∈ event.loopRecovery? := by
    rw [Event.loopRecovery?, hbody]
    rfl
  unfold Turn.handleLoopRecoveryAction
  split
  · exact h
  · rename_i loopStartIdx hstuck
    obtain ⟨hrestart, hstop⟩ := hsafe.2.2 option hoption (by rw [hstuck]; rfl)
    split_ifs with hone htwo hthree
    · exact h.toTracked.performLoopRecovery loopStartIdx
    · exact h.toTracked.restartWithLastUserMessage (hrestart htwo) loopStartIdx
    · exact h.setAgentStateTo (hstop hthree)
    · exact h

/-! ## Delegates -/

/-- The invariant of a root controller: its delegate has the invariant, too. -/
structure Settled (t : Turn) : Prop extends Steady t where
  delegate : ∀ d ∈ t.self.delegate, Steady ⟨d, t.bus⟩

theorem Steady.settled_of_no_delegate (h : t.Steady) (hd : t.self.delegate = none) :
    t.Settled :=
  ⟨h, by simp [hd]⟩

/-- Events are added to the bus. -/
theorem Steady.advance (h : t.Steady) {bus : EventBus} (hadvances : t.bus.Advances bus)
    (hwellFormed : bus.WellFormed) : Steady { t with bus := bus } :=
  ⟨h.toTracked.advance rfl rfl rfl hadvances hwellFormed, h.ready⟩

theorem Settled.advance (h : t.Settled) {bus : EventBus} (hadvances : t.bus.Advances bus)
    (hwellFormed : bus.WellFormed) : Settled { t with bus := bus } :=
  ⟨h.toSteady.advance hadvances hwellFormed,
    fun d hd => (h.delegate d hd).advance hadvances hwellFormed⟩

/-- A new controller has nothing pending or outstanding. -/
theorem steady_create (options : ControllerOptions) (initialState : Option State)
    (bus : EventBus) (h : bus.WellFormed) :
    (create options initialState bus).Steady ∧
      (create options initialState bus).self.unobserved = [] ∧
      (create options initialState bus).self.delegate = none := by
  unfold create
  extract_lets state state'
  have hidle : Tracked ⟨{ options with state := state' }, bus.arrive⟩ :=
    tracked_of_idle h.arrive rfl rfl (by simp)
  rcases addSystemMessage_cases ⟨{ options with state := state' }, bus.arrive⟩ with
    heq | ⟨content, heq⟩
  · rw [heq]
    exact ⟨⟨hidle, ready_of_unobserved rfl⟩, rfl, rfl⟩
  · rw [heq]
    exact ⟨⟨hidle.addEvent (by simp [Event.ofAction]) .agent, ready_of_unobserved rfl⟩, rfl, rfl⟩

/-- Starting a delegate. -/
theorem Steady.startDelegate (h : t.Steady) {answers : Answers} {action : AgentDelegateAction}
    (hstarted : t.startDelegate answers action = some t') :
    t'.Settled ∧ ∀ d ∈ t'.self.delegate, d.unobserved = [] := by
  have hadvances := advances_startDelegate hstarted
  obtain ⟨agent, -, rfl⟩ := Option.map_eq_some_iff.mp hstarted
  dsimp only at hadvances ⊢
  generalize hdelegate : create _ _ _ = delegate at hadvances ⊢
  obtain ⟨hsteady, hunobserved, -⟩ := hdelegate ▸ steady_create _ _ _ h.wellFormed.arrive
  refine ⟨⟨⟨h.toTracked.advance rfl rfl rfl hadvances hsteady.wellFormed, h.ready⟩, ?_⟩, ?_⟩
  · intro d hd
    rw [← Option.mem_some_iff.mp hd]
    exact hsteady
  · intro d hd
    rw [← Option.mem_some_iff.mp hd]
    exact hunobserved

/-- The delegate acts, and the bus advances under its parent. -/
theorem Steady.onDelegate (h : t.Steady) {f : Turn → Turn}
    (hf : ∀ d ∈ t.self.delegate, (f ⟨d, t.bus⟩).Steady ∧ t.bus.Advances (f ⟨d, t.bus⟩).bus) :
    (t.onDelegate f).Settled := by
  unfold Turn.onDelegate
  cases hd : t.self.delegate with
  | none => exact h.settled_of_no_delegate hd
  | some d =>
    obtain ⟨hsteady, hadvances⟩ := hf d hd
    refine ⟨⟨h.toTracked.advance rfl rfl rfl hadvances hsteady.wellFormed, h.ready⟩, ?_⟩
    intro d' hd'
    rw [← Option.mem_some_iff.mp hd']
    exact hsteady

/-- The delegate is set running, with nothing outstanding. -/
theorem Settled.postTask (h : t.Settled) (hu : ∀ d ∈ t.self.delegate, d.unobserved = [])
    (action : AgentDelegateAction) : (t.postTask action).Settled := by
  unfold Turn.postTask
  split
  · rename_i task _
    have hposted := h.advance (EventBus.advances_addEvent t.bus
      (.ofAction (.message { content := "TASK: " ++ task })) .user)
      (h.wellFormed.addEvent (by simp [Event.ofAction]) .user)
    refine hposted.toSteady.onDelegate ?_
    intro d hd
    refine ⟨(hposted.delegate d hd).setAgentStateTo ?_,
      (keeps_setAgentStateTo ⟨d, _⟩ .running).advances⟩
    intro _
    exact ⟨by simp, fun _ _ => hu d hd⟩
  · exact h

/-- Ending a delegate.  Its calls of the agent become calls of the parent. -/
theorem Steady.endDelegate (h : t.Steady)
    (hd : ∀ d ∈ t.self.delegate, Orderly ⟨d, t.bus⟩) : t.endDelegate.Settled := by
  unfold Turn.endDelegate
  split
  · rename_i hnone
    exact h.settled_of_no_delegate hnone
  · rename_i d hsome
    extract_lets closed delegateAction t₁ t₂ src t₃
    have hclosed : closed.Orderly := (hd d hsome).setAgentStateTo .stopped
    have hadvances : t.bus.Advances closed.bus :=
      (keeps_setAgentStateTo ⟨d, t.bus⟩ .stopped).advances
    have h₁ : t₁.Tracked :=
      (h.toTracked.advance rfl rfl rfl hadvances hclosed.wellFormed :
        Tracked { t with bus := closed.bus }).mapState _
    -- the calls of the delegate were made with nothing outstanding, too
    have h₂ : t₂.Tracked :=
      { h₁ with
        calls := by
          intro call hcall
          rcases List.mem_append.mp hcall with hcall | hcall
          · exact h.calls call hcall
          · exact hclosed.calls call hcall }
    have h₃ : t₃.Tracked := h₂.addEvent (by simp [src, Event.ofObservation]) .agent
    exact Steady.settled_of_no_delegate
      ⟨h₃.advance rfl rfl rfl (.refl _) h₃.wellFormed, h.ready⟩ rfl

end Turn

end OpenHands
