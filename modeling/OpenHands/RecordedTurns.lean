/-
# The stream of a turn only grows

Whatever the controller does with an event, the events on the stream stay there and what gets
into the queue is on the stream: `records_beforeStep`, `records_passFlags`,
`records_handleEvent` and `records_onEvent`.
-/
import OpenHands.AnsweredCalls
import OpenHands.Replay

namespace OpenHands

/-! ## Counting the events of a stream -/

theorem EventLog.nodup (log : EventLog) : log.events.Nodup :=
  log.sorted.imp fun hlt heq => by
    rw [heq] at hlt
    exact lt_irrefl _ hlt

namespace EventBus

variable {bus bus' : EventBus}

/-- No kind of event gets rarer. -/
theorem Records.countP_le (h : bus.Records bus') (p : Event → Bool) :
    bus.log.events.countP p ≤ bus'.log.events.countP p :=
  (List.subperm_of_subset bus.log.nodup h.grows).countP_le p

/-- An event of a kind is one more of the kind. -/
theorem countP_addEvent (bus : EventBus) {event : Event} {source : EventSource}
    {p : Event → Bool} (hp : p (bus.addEvent event source).2 = true) :
    bus.log.events.countP p + 1 ≤ (bus.addEvent event source).1.log.events.countP p := by
  have harrived := bus.records_arrive.countP_le p
  show _ ≤ (bus.arrive.log.events ++ [(bus.addEvent event source).2]).countP p
  rw [List.countP_append, List.countP_singleton, if_pos hp]
  omega

end EventBus

namespace Turn

variable {t t' : Turn} {answers : Answers}

theorem records_ite {t a b : Turn} {p : Prop} [Decidable p] (ha : t.bus.Records a.bus)
    (hb : t.bus.Records b.bus) : t.bus.Records (if p then a else b).bus := by
  split_ifs
  · exact ha
  · exact hb

theorem records_setAgentStateTo (t : Turn) (newState : AgentState) :
    t.bus.Records (t.setAgentStateTo newState).bus :=
  (carries_setAgentStateTo t newState).records

theorem records_reactToException (t : Turn) (e : PyException) :
    t.bus.Records (t.reactToException e).bus :=
  (carries_reactToException t e).records

theorem records_handleException (t : Turn) (raised : Option PyException) :
    t.bus.Records (handleException (t, raised)).bus := by
  cases raised with
  | none => exact .refl t.bus
  | some e => exact records_reactToException t _

/-! ## The step -/

theorem records_passFlags (t : Turn) (answers : Answers) :
    t.bus.Records (t.passFlags answers).1.bus := by
  unfold passFlags
  split_ifs with hstate hpending
  · exact .refl t.bus
  · exact .refl t.bus
  · extract_lets t₁ raised t₂
    split_ifs
    · exact records_reactToException t₁ _
    · clear_value raised
      cases raised with
      | some message => exact records_reactToException t₂ _
      | none => exact .refl t.bus

theorem records_emitAction (t : Turn) (answers : Answers) (action : Action)
    (toolCallMetadata : Option ToolCallMetadata) :
    t.bus.Records (t.emitAction answers action toolCallMetadata).bus := by
  unfold emitAction
  split
  · exact .refl t.bus
  · extract_lets a event t₁ t₂ added
    have h₂ : t₁.bus.Records t₂.bus :=
      records_ite (records_setAgentStateTo t₁ _) (.refl t₁.bus)
    exact h₂.trans (EventBus.records_addEvent t₂.bus _ _)
  · exact EventBus.records_addEvent t.bus _ _

theorem records_callAgent (t : Turn) (answers : Answers) :
    t.bus.Records (t.callAgent answers).1.bus := by
  unfold callAgent
  extract_lets t₁
  split
  · exact records_emitAction t₁ answers _ _
  · exact EventBus.records_addEvent t₁.bus _ _
  · split_ifs
    · exact EventBus.records_addEvent t₁.bus _ _
    · exact EventBus.records_addEvent t₁.bus _ _
    · exact .refl t.bus
    · exact .refl t.bus

theorem records_stepWithExceptionHandling (t : Turn) (answers : Answers) :
    t.bus.Records (t.stepWithExceptionHandling answers).bus :=
  (carries_stepWithExceptionHandling t answers).records

/-! ## Up to the step -/

theorem records_handleMessageAction (t : Turn) (event : Event) (message : MessageAction) :
    t.bus.Records (t.handleMessageAction event message).bus := by
  unfold handleMessageAction
  refine records_ite ?_ (records_ite (records_ite (records_setAgentStateTo t _) (.refl t.bus))
    (.refl t.bus))
  extract_lets first isFirst recallType recallAction added t₁
  have h₁ : t.bus.Records t₁.bus := EventBus.records_addEvent t.bus _ _
  exact h₁.trans (records_ite (records_setAgentStateTo t₁ _) (.refl t₁.bus))

theorem records_handleObservation (t : Turn) (event : Event) :
    t.bus.Records (t.handleObservation event).bus := by
  unfold handleObservation
  split
  · exact .refl t.bus
  · refine records_ite (records_ite (.refl t.bus) ?_) (.refl t.bus)
    extract_lets t₁ t₂
    have h₂ : t₁.bus.Records t₂.bus :=
      records_ite (records_setAgentStateTo t₁ _) (.refl t₁.bus)
    exact h₂.trans (records_ite (records_setAgentStateTo t₂ _) (.refl t₂.bus))

theorem records_handleLoopRecoveryAction (t : Turn) (answers : Answers) (option : ℤ) :
    t.bus.Records (t.handleLoopRecoveryAction answers option).bus := by
  have hperform (recoveryPoint : ℤ) : t.bus.Records (t.performLoopRecovery recoveryPoint).bus :=
    (carries_truncateMemoryToPoint t recoveryPoint).records.trans
      ((records_setAgentStateTo _ _).trans (EventBus.records_addEvent _ _ _))
  unfold handleLoopRecoveryAction
  split
  · exact .refl t.bus
  · refine records_ite (hperform _) (records_ite ?_ (records_ite (records_setAgentStateTo t _)
      (.refl t.bus)))
    unfold restartWithLastUserMessage
    split
    · extract_lets t₁ t₂ newAction
      have h₁ : t.bus.Records t₁.bus :=
        (carries_truncateMemoryToPoint t _).records.trans (records_setAgentStateTo _ _)
      have h₂ : t₁.bus.Records t₂.bus := EventBus.records_addEvent t₁.bus _ _
      exact (h₁.trans h₂).trans (records_handleMessageAction t₂ _ _)
    · exact hperform _

theorem records_handleAction {event : Event} {action : Action}
    (h : t.handleAction answers event action = some t') : t.bus.Records t'.bus := by
  unfold handleAction at h
  split at h
  case h_3 delegateAction =>
    obtain ⟨started, hstarted, rfl⟩ := Option.map_eq_some_iff.mp h
    exact (carries_startDelegate hstarted).1.records.trans
      (carries_postTask started delegateAction).1.records
  all_goals
    cases h
  · exact records_setAgentStateTo t _
  · exact records_handleMessageAction t event _
  · exact records_setAgentStateTo (t.mapState _) _
  · exact records_setAgentStateTo (t.mapState _) _
  · exact records_handleLoopRecoveryAction t answers _
  · exact .refl _

theorem records_beforeStep (t : Turn) (answers : Answers) (event : Event) :
    t.bus.Records (t.beforeStep answers event).1.bus := by
  unfold beforeStep
  extract_lets t₁ t₂ handled
  split_ifs
  · exact .refl t.bus
  · have hhandled : ∀ t₃, handled = some t₃ → t₂.bus.Records t₃.bus := by
      intro t₃ ht₃
      unfold handled at ht₃
      split at ht₃
      · exact records_handleAction ht₃
      · cases ht₃
        exact records_handleObservation t₂ event
    clear_value handled
    cases handled with
    | none => exact .refl t.bus
    | some t₃ => exact hhandled t₃ rfl

/-! ## Whole events -/

/-- **Handling an event** only adds events to the stream. -/
theorem records_handleEvent (t : Turn) (answers : Answers) (event : Event) :
    t.bus.Records (t.handleEvent answers event).bus := by
  rw [handleEvent_eq]
  exact records_ite ((records_beforeStep t answers event).trans
    (records_stepWithExceptionHandling _ answers)) (records_beforeStep t answers event)

theorem records_onDelegate (t : Turn) {f : Turn → Turn}
    (hf : ∀ t : Turn, t.bus.Records (f t).bus) : t.bus.Records (t.onDelegate f).bus := by
  unfold onDelegate
  split
  · exact .refl t.bus
  · rename_i d _
    exact hf ⟨d, t.bus⟩

theorem records_endDelegate (t : Turn) : t.bus.Records t.endDelegate.bus := by
  unfold endDelegate
  split
  · exact .refl t.bus
  · rename_i d _
    exact (records_setAgentStateTo ⟨d, t.bus⟩ .stopped).trans (EventBus.records_addEvent _ _ _)

theorem records_emitReplayed (t : Turn) (answers : Answers) (event : Event) (action : Action) :
    t.bus.Records (t.emitReplayed answers event action).1.bus := by
  unfold emitReplayed
  split
  · exact .refl t.bus
  · extract_lets a event' t₁ t₂
    have h₂ : t₁.bus.Records t₂.bus :=
      records_ite (records_setAgentStateTo t₁ _) (.refl t₁.bus)
    split
    · exact h₂
    · exact h₂.trans (EventBus.records_addEvent t₂.bus _ _)
  · split
    · exact .refl t.bus
    · exact EventBus.records_addEvent t.bus _ _

end Turn

end OpenHands
