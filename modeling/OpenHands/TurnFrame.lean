/-
# What a turn of the controller leaves alone

Setting the agent state, stepping the agent and handling a message change neither the
history nor the delegate of a controller; they add events to the bus.  Only a delivered
event extends the history, only a loop recovery cuts it, and only a delegate action starts
a delegate.
-/
import OpenHands.AgentController

namespace OpenHands

namespace Turn

/-- The history and the delegate are the same, and events were added. -/
structure Keeps (t t' : Turn) : Prop where
  history : t'.self.state.history = t.self.state.history
  delegate : t'.self.delegate = t.self.delegate
  advances : t.bus.Advances t'.bus

theorem Keeps.refl (t : Turn) : t.Keeps t :=
  ⟨rfl, rfl, .refl t.bus⟩

theorem Keeps.trans {a b c : Turn} (h : a.Keeps b) (h' : b.Keeps c) : a.Keeps c :=
  ⟨h'.history.trans h.history, h'.delegate.trans h.delegate, h.advances.trans h'.advances⟩

/-- Both branches of a case distinction keep. -/
theorem Keeps.ite {t a b : Turn} {p : Prop} [Decidable p] (ha : t.Keeps a) (hb : t.Keeps b) :
    t.Keeps (if p then a else b) := by
  split_ifs
  · exact ha
  · exact hb

/-- Changing the state object without its history. -/
theorem keeps_mapState (t : Turn) {f : State → State}
    (hf : (f t.self.state).history = t.self.state.history) : t.Keeps (t.mapState f) :=
  ⟨hf, rfl, .refl t.bus⟩

theorem keeps_addEvent (t : Turn) (event : Event) (source : EventSource) :
    t.Keeps (t.addEvent event source) :=
  ⟨rfl, rfl, EventBus.advances_addEvent t.bus event source⟩

/-! ## The state of the agent -/

theorem keeps_reset (t : Turn) : t.Keeps t.reset := by
  unfold reset
  extract_lets t'
  have hkeeps : t.Keeps t' := by
    unfold t'
    split
    · exact .refl t
    · exact .ite (.refl t) (keeps_addEvent t _ _)
  exact hkeeps.trans ⟨rfl, rfl, .refl t'.bus⟩

theorem keeps_emitAnswered (t : Turn) (status : ActionConfirmationStatus) :
    t.Keeps (t.emitAnswered status) := by
  unfold emitAnswered
  split
  · exact .refl t
  · exact ⟨rfl, rfl, EventBus.advances_addEvent t.bus _ _⟩

theorem keeps_setAgentStateTo (t : Turn) (newState : AgentState) :
    t.Keeps (t.setAgentStateTo newState) := by
  unfold setAgentStateTo
  refine .ite (.refl t) ?_
  extract_lets oldState t₁ t₂ t₃ t₄ reason
  have h₁ : t.Keeps t₁ := keeps_mapState t rfl
  have h₂ : t₁.Keeps t₂ := .ite (keeps_reset t₁) (.refl t₁)
  have h₃ : t₂.Keeps t₃ := .ite (keeps_mapState t₂ rfl) (.refl t₂)
  have h₄ : t₃.Keeps t₄ := by
    unfold t₄
    split
    · exact keeps_emitAnswered t₃ _
    · exact .refl t₃
  exact ((h₁.trans h₂).trans (h₃.trans h₄)).trans (keeps_addEvent t₄ _ _)

theorem state_reset (t : Turn) : t.reset.self.state = t.self.state := by
  unfold reset
  extract_lets t'
  show t'.self.state = t.self.state
  unfold t'
  split
  · rfl
  · split_ifs <;> rfl

theorem state_emitAnswered (t : Turn) (status : ActionConfirmationStatus) :
    (t.emitAnswered status).self.state = t.self.state := by
  unfold emitAnswered
  split <;> rfl

/-- The agent is in the state that was set. -/
theorem agentState_setAgentStateTo (t : Turn) (newState : AgentState) :
    (t.setAgentStateTo newState).self.state.agentState = newState := by
  unfold setAgentStateTo
  by_cases hsame : newState = t.self.state.agentState
  · rw [if_pos hsame, hsame]
  · rw [if_neg hsame]
    extract_lets oldState t₁ t₂ t₃ t₄ reason
    have h₂ : t₂.self.state = t₁.self.state := by
      unfold t₂
      split_ifs
      · exact state_reset t₁
      · rfl
    have h₃ : t₃.self.state.agentState = t₂.self.state.agentState := by
      unfold t₃
      split_ifs <;> rfl
    have h₄ : t₄.self.state = t₃.self.state := by
      unfold t₄
      split
      · exact state_emitAnswered t₃ _
      · rfl
    show t₄.self.state.agentState = newState
    rw [h₄, h₃, h₂]
    rfl

/-- A state that neither resets nor answers leaves the pending action alone, and with it
what is outstanding. -/
theorem slot_setAgentStateTo (t : Turn) (newState : AgentState)
    (hreset : ¬ (newState = .stopped ∨ newState = .error))
    (hanswer : newState.confirmationStatus = none) :
    (t.setAgentStateTo newState).self.pendingAction = t.self.pendingAction ∧
      (t.setAgentStateTo newState).self.unobserved = t.self.unobserved := by
  unfold setAgentStateTo
  by_cases hsame : newState = t.self.state.agentState
  · rw [if_pos hsame]
    exact ⟨rfl, rfl⟩
  · rw [if_neg hsame]
    extract_lets oldState t₁ t₂ t₃ t₄ reason
    have h₂ : t₂ = t₁ := if_neg hreset
    have h₃ : t₃.self.pendingAction = t₂.self.pendingAction ∧
        t₃.self.unobserved = t₂.self.unobserved := by
      unfold t₃
      split_ifs <;> exact ⟨rfl, rfl⟩
    have h₄ : t₄ = t₃ := by
      unfold t₄
      rw [hanswer]
    show t₄.self.pendingAction = _ ∧ t₄.self.unobserved = _
    rw [h₄, h₃.1, h₃.2, h₂]
    exact ⟨rfl, rfl⟩

theorem keeps_reactToException (t : Turn) (e : PyException) :
    t.Keeps (t.reactToException e) := by
  have hset (t : Turn) (text : String) (s : AgentState) :
      t.Keeps ((t.mapState fun s => { s with lastError := text }).setAgentStateTo s) :=
    (keeps_mapState t rfl).trans (keeps_setAgentStateTo _ _)
  have hlast := keeps_mapState t (f := fun s => { s with lastError := e.name ++ ": " ++ e.text })
    rfl
  unfold reactToException
  refine .ite (hset t _ _) ?_
  split
  · exact hlast.trans (hset _ _ _)
  · exact .ite (.ite (hlast.trans (hset _ _ _)) (hset t _ _)) (hset t _ _)

/-! ## The step of the agent -/

theorem keeps_emitAction (t : Turn) (answers : Answers) (action : Action)
    (toolCallMetadata : Option ToolCallMetadata) :
    t.Keeps (t.emitAction answers action toolCallMetadata) := by
  unfold emitAction
  split
  · exact .refl t
  · extract_lets a event t₁ t₂ added
    have h₁ : t.Keeps t₁ := ⟨rfl, rfl, .refl t.bus⟩
    have h₂ : t₁.Keeps t₂ := .ite (keeps_setAgentStateTo t₁ _) (.refl t₁)
    exact (h₁.trans h₂).trans ⟨rfl, rfl, EventBus.advances_addEvent t₂.bus _ _⟩
  · exact keeps_addEvent t _ _

theorem keeps_callAgent (t : Turn) (answers : Answers) : t.Keeps (t.callAgent answers).1 := by
  unfold callAgent
  extract_lets t₁
  have h₁ : t.Keeps t₁ := ⟨rfl, rfl, .refl t.bus⟩
  refine h₁.trans ?_
  split
  · exact keeps_emitAction t₁ answers _ _
  · exact keeps_addEvent t₁ _ _
  · split_ifs
    · exact keeps_addEvent t₁ _ _
    · exact keeps_addEvent t₁ _ _
    · exact .refl t₁
    · exact .refl t₁

/-- The control flags are a part of the state apart from the history. -/
theorem history_runControlFlags (s : State) :
    (StateTracker.runControlFlags s).1.history = s.history := by
  unfold StateTracker.runControlFlags
  rcases s.iterationFlag.step with ⟨flag, _ | message⟩
  · cases s.budgetFlag <;> rfl
  · rfl

theorem history_syncBudgetFlagWithMetrics (s : State) (accumulatedCost : Option ℚ) :
    (StateTracker.syncBudgetFlagWithMetrics s accumulatedCost).history = s.history := by
  cases accumulatedCost <;> rfl

theorem keeps_step (t : Turn) (answers : Answers) : t.Keeps (t.step answers).1 := by
  unfold step
  split_ifs with hstate hpending
  · exact .refl t
  · exact .refl t
  · extract_lets t₁ raised t₂
    have h₁ : t.Keeps t₁ := keeps_mapState t (history_syncBudgetFlagWithMetrics _ _)
    have h₂ : t₁.Keeps t₂ := keeps_mapState t₁ (history_runControlFlags _)
    split_ifs
    · exact h₁.trans (keeps_reactToException t₁ _)
    · clear_value raised
      cases raised with
      | some message => exact (h₁.trans h₂).trans (keeps_reactToException t₂ _)
      | none => exact (h₁.trans h₂).trans (keeps_callAgent t₂ answers)

theorem keeps_stepWithExceptionHandling (t : Turn) (answers : Answers) :
    t.Keeps (t.stepWithExceptionHandling answers) := by
  have hstep := keeps_step t answers
  unfold stepWithExceptionHandling
  split
  · rename_i heq
    rw [heq] at hstep
    exact hstep
  · rename_i heq
    rw [heq] at hstep
    exact hstep.trans (keeps_reactToException _ _)

/-! ## Messages and observations -/

theorem keeps_handleMessageAction (t : Turn) (event : Event) (message : MessageAction) :
    t.Keeps (t.handleMessageAction event message) := by
  unfold handleMessageAction
  refine .ite ?_ (.ite (.ite (keeps_setAgentStateTo t _) (.refl t)) (.refl t))
  extract_lets first isFirst recallType recallAction added t₁
  have h₁ : t.Keeps t₁ := ⟨rfl, rfl, EventBus.advances_addEvent t.bus _ _⟩
  exact h₁.trans (.ite (keeps_setAgentStateTo t₁ _) (.refl t₁))

theorem keeps_handleObservation (t : Turn) (event : Event) :
    t.Keeps (t.handleObservation event) := by
  unfold handleObservation
  split
  · exact .refl t
  · refine .ite (.ite (.refl t) ?_) (.refl t)
    extract_lets t₁ t₂
    have h₁ : t.Keeps t₁ := ⟨rfl, rfl, .refl t.bus⟩
    have h₂ : t₁.Keeps t₂ := .ite (keeps_setAgentStateTo t₁ _) (.refl t₁)
    exact (h₁.trans h₂).trans (.ite (keeps_setAgentStateTo t₂ _) (.refl t₂))

/-! ## Loop recovery and delegates

These change the history or the delegate.  The bus still only advances. -/

theorem delegate_truncateMemoryToPoint (t : Turn) (recoveryPoint : ℤ) :
    (t.truncateMemoryToPoint recoveryPoint).self.delegate = t.self.delegate := by
  unfold truncateMemoryToPoint
  split_ifs <;> rfl

theorem bus_truncateMemoryToPoint (t : Turn) (recoveryPoint : ℤ) :
    (t.truncateMemoryToPoint recoveryPoint).bus = t.bus := by
  unfold truncateMemoryToPoint
  split_ifs <;> rfl

/-- A loop recovery sets the agent state, adds events and handles a message, all after the
memory is truncated. -/
theorem keeps_handleLoopRecoveryAction (t : Turn) (answers : Answers) (option : ℤ) :
    t.Keeps (t.handleLoopRecoveryAction answers option) ∨
      ∃ recoveryPoint, (t.truncateMemoryToPoint recoveryPoint).Keeps
        (t.handleLoopRecoveryAction answers option) := by
  have hperform (recoveryPoint : ℤ) : (t.truncateMemoryToPoint recoveryPoint).Keeps
      (t.performLoopRecovery recoveryPoint) :=
    (keeps_setAgentStateTo _ _).trans (keeps_addEvent _ _ _)
  unfold handleLoopRecoveryAction
  split
  · exact Or.inl (.refl t)
  · rename_i loopStartIdx _
    split_ifs
    · exact Or.inr ⟨loopStartIdx, hperform loopStartIdx⟩
    · refine Or.inr ⟨loopStartIdx, ?_⟩
      unfold restartWithLastUserMessage
      split
      · exact ((keeps_setAgentStateTo _ _).trans (keeps_addEvent _ _ _)).trans
          (keeps_handleMessageAction _ _ _)
      · exact hperform loopStartIdx
    · exact Or.inl (keeps_setAgentStateTo t _)
    · exact Or.inl (.refl t)

theorem delegate_handleLoopRecoveryAction (t : Turn) (answers : Answers) (option : ℤ) :
    (t.handleLoopRecoveryAction answers option).self.delegate = t.self.delegate := by
  rcases keeps_handleLoopRecoveryAction t answers option with h | ⟨recoveryPoint, h⟩
  · exact h.delegate
  · rw [h.delegate, delegate_truncateMemoryToPoint]

theorem advances_handleLoopRecoveryAction (t : Turn) (answers : Answers) (option : ℤ) :
    t.bus.Advances (t.handleLoopRecoveryAction answers option).bus := by
  rcases keeps_handleLoopRecoveryAction t answers option with h | ⟨recoveryPoint, h⟩
  · exact h.advances
  · have hadvances := h.advances
    rw [bus_truncateMemoryToPoint] at hadvances
    exact hadvances

/-- The system message is added or not. -/
theorem addSystemMessage_cases (t : Turn) :
    t.addSystemMessage = t ∨ ∃ content,
      t.addSystemMessage = t.addEvent (.ofAction (.systemMessage content)) .agent := by
  unfold addSystemMessage
  extract_lets seen
  split_ifs
  · exact Or.inl rfl
  · split
    · rename_i content _
      split_ifs
      · exact Or.inr ⟨content, rfl⟩
      · exact Or.inl rfl
    · exact Or.inl rfl

theorem keeps_addSystemMessage (t : Turn) : t.Keeps t.addSystemMessage := by
  rcases addSystemMessage_cases t with heq | ⟨content, heq⟩
  · rw [heq]
    exact .refl t
  · rw [heq]
    exact keeps_addEvent t _ _

theorem advances_create (options : ControllerOptions) (initialState : Option State)
    (bus : EventBus) : bus.Advances (create options initialState bus).bus := by
  unfold create
  extract_lets state state'
  have hsystem := keeps_addSystemMessage ⟨{ options with state := state' }, bus.arrive⟩
  exact bus.advances_arrive.trans hsystem.advances

theorem advances_onDelegate (t : Turn) {f : Turn → Turn}
    (hf : ∀ t : Turn, t.bus.Advances (f t).bus) : t.bus.Advances (t.onDelegate f).bus := by
  unfold onDelegate
  split
  · exact .refl t.bus
  · rename_i d _
    exact hf ⟨d, t.bus⟩

theorem advances_startDelegate {t t' : Turn} {answers : Answers} {action : AgentDelegateAction}
    (h : t.startDelegate answers action = some t') : t.bus.Advances t'.bus := by
  obtain ⟨agent, -, rfl⟩ := Option.map_eq_some_iff.mp h
  exact t.bus.advances_arrive.trans (advances_create _ _ _)

theorem advances_postTask (t : Turn) (action : AgentDelegateAction) :
    t.bus.Advances (t.postTask action).bus := by
  unfold postTask
  split
  · exact (keeps_addEvent t _ _).advances.trans
      (advances_onDelegate _ fun t => (keeps_setAgentStateTo t _).advances)
  · exact .refl t.bus

theorem advances_handleAction {t t' : Turn} {answers : Answers} {event : Event}
    {action : Action} (h : t.handleAction answers event action = some t') :
    t.bus.Advances t'.bus := by
  unfold handleAction at h
  split at h
  case h_3 delegateAction =>
    obtain ⟨started, hstarted, rfl⟩ := Option.map_eq_some_iff.mp h
    exact (advances_startDelegate hstarted).trans (advances_postTask started delegateAction)
  all_goals
    cases h
  · exact (keeps_setAgentStateTo t _).advances
  · exact (keeps_handleMessageAction t event _).advances
  · exact (keeps_setAgentStateTo (t.mapState _) _).advances
  · exact (keeps_setAgentStateTo (t.mapState _) _).advances
  · exact advances_handleLoopRecoveryAction t answers _
  · exact .refl _

/-- **Handling an event** only adds events to the bus. -/
theorem advances_handleEvent (t : Turn) (answers : Answers) (event : Event) :
    t.bus.Advances (t.handleEvent answers event).bus := by
  unfold handleEvent
  extract_lets t₁ t₂ handled
  have hbus : t.bus.Advances t₁.bus := .refl t.bus
  split_ifs
  · exact hbus
  · have hhandled : ∀ t₃, handled = some t₃ → t₂.bus.Advances t₃.bus := by
      intro t₃ ht₃
      unfold handled at ht₃
      split at ht₃
      · exact advances_handleAction ht₃
      · cases ht₃
        exact (keeps_handleObservation t₂ event).advances
    have hstep (t₃ : Turn) : t₃.bus.Advances
        (if t₃.self.shouldStep event then t₃.stepWithExceptionHandling answers else t₃).bus :=
      (Keeps.ite (keeps_stepWithExceptionHandling t₃ answers) (.refl t₃)).advances
    clear_value handled
    cases handled with
    | none => exact hbus
    | some t₃ => exact (hbus.trans (hhandled t₃ rfl)).trans (hstep t₃)

end Turn

end OpenHands
