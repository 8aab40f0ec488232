/-
# The tool call of the pending action

A pending action that came from a tool call must not leave the slot without an
observation of that call on the stream; otherwise the history keeps a call without a
result.  `Turn.Carries` says of a part of a turn that it loses no call: the slot still
holds it, or an observation of it is on the stream.

Everything carries the call, a reset because it adds the missing observation, except what
puts or clears the slot without a look at it: a user message, a restart with the last
user message, and an observation without the metadata.  `Turn.SafeForCalls` says of an
event that it does not meet such a call.
-/
import OpenHands.SessionLimits

namespace OpenHands

/-! ## The stream grows -/

namespace EventBus

/-- Events are added, and what is in the queue is on the stream. -/
structure Records (bus bus' : EventBus) : Prop where
  grows : ∀ e ∈ bus.log.events, e ∈ bus'.log.events
  queued : ∀ e ∈ bus'.queue, e ∈ bus.queue ∨ e ∈ bus'.log.events

theorem Records.refl (bus : EventBus) : bus.Records bus :=
  ⟨fun _ he => he, fun _ he => Or.inl he⟩

theorem Records.trans {a b c : EventBus} (h : a.Records b) (h' : b.Records c) : a.Records c := by
  refine ⟨fun e he => h'.grows e (h.grows e he), ?_⟩
  intro e he
  rcases h'.queued e he with he | he
  · rcases h.queued e he with he | he
    · exact Or.inl he
    · exact Or.inr (h'.grows e he)
  · exact Or.inr he

theorem records_put (bus : EventBus) (event : Event) (source : EventSource) :
    bus.Records (bus.put event source) := by
  refine ⟨fun e he => List.mem_append_left _ he, ?_⟩
  intro e he
  rcases List.mem_append.mp he with he | he
  · exact Or.inl he
  · exact Or.inr (List.mem_append_right _ he)

theorem records_receive (bus : EventBus) (arrival : Event × EventSource) :
    bus.Records (bus.receive arrival) := by
  unfold receive
  split_ifs
  · exact records_put bus _ _
  · exact .refl bus

theorem records_foldl_receive (batch : List (Event × EventSource)) :
    ∀ bus : EventBus, bus.Records (batch.foldl receive bus) := by
  induction batch with
  | nil => exact fun bus => .refl bus
  | cons arrival batch ih =>
      intro bus
      exact (records_receive bus arrival).trans (ih _)

theorem records_arrive (bus : EventBus) : bus.Records bus.arrive := by
  unfold arrive
  cases harrivals : bus.arrivals with
  | nil => exact .refl bus
  | cons batch arrivals =>
      have hfold := records_foldl_receive batch { bus with arrivals := arrivals }
      exact ⟨hfold.grows, hfold.queued⟩

theorem records_addEvent (bus : EventBus) (event : Event) (source : EventSource) :
    bus.Records (bus.addEvent event source).1 :=
  bus.records_arrive.trans (records_put bus.arrive event source)

/-- The added event is on the stream. -/
theorem mem_log_addEvent (bus : EventBus) (event : Event) (source : EventSource) :
    (bus.addEvent event source).2 ∈ (bus.addEvent event source).1.log.events :=
  List.mem_append_right _ (List.mem_singleton_self _)

end EventBus

namespace Turn

/-! ## Carrying a call -/

/-- The slot holds an action of the tool call. -/
def Holds (t : Turn) (call : ToolCallMetadata) : Prop :=
  ∃ p ∈ t.self.pendingAction, p.toolCallMetadata = some call

/-- An observation of the tool call is on the stream. -/
def Answered (t : Turn) (call : ToolCallMetadata) : Prop :=
  ∃ e ∈ t.bus.log.events, e.isObservation = true ∧ e.toolCallMetadata = some call

instance (t : Turn) (call : ToolCallMetadata) : Decidable (t.Holds call) :=
  inferInstanceAs (Decidable (∃ p ∈ t.self.pendingAction, _))

instance (t : Turn) (call : ToolCallMetadata) : Decidable (t.Answered call) :=
  inferInstanceAs (Decidable (∃ e ∈ t.bus.log.events, _))

/-- What is delivered, now or later, is on the stream. -/
structure OnStream (t : Turn) : Prop where
  queue : ∀ e ∈ t.bus.queue, e ∈ t.bus.log.events
  history : ∀ e ∈ t.self.state.history, e ∈ t.bus.log.events

/-- No tool call is lost. -/
structure Carries (t t' : Turn) : Prop where
  records : t.bus.Records t'.bus
  onStream : t.OnStream → t'.OnStream
  kept : t.OnStream → ∀ call, t.Holds call → t'.Holds call ∨ t'.Answered call

variable {t t' : Turn}

/-- What is answered stays answered. -/
theorem Answered.of_records {call : ToolCallMetadata} (h : t.Answered call)
    (hrecords : t.bus.Records t'.bus) : t'.Answered call := by
  obtain ⟨e, he, hanswers⟩ := h
  exact ⟨e, hrecords.grows e he, hanswers⟩

/-- The history is the same, and events were added. -/
theorem OnStream.of_records (h : t.OnStream) (hrecords : t.bus.Records t'.bus)
    (hhistory : ∀ e ∈ t'.self.state.history, e ∈ t.self.state.history) : t'.OnStream := by
  refine ⟨?_, fun e he => hrecords.grows e (h.history e (hhistory e he))⟩
  intro e he
  rcases hrecords.queued e he with he | he
  · exact hrecords.grows e (h.queue e he)
  · exact he

theorem Carries.refl (t : Turn) : t.Carries t :=
  ⟨.refl t.bus, id, fun _ _ h => Or.inl h⟩

theorem Carries.trans {a b c : Turn} (h : a.Carries b) (h' : b.Carries c) : a.Carries c := by
  refine ⟨h.records.trans h'.records, fun hon => h'.onStream (h.onStream hon), ?_⟩
  intro hon call hholds
  rcases h.kept hon call hholds with hholds | hanswered
  · exact h'.kept (h.onStream hon) call hholds
  · exact Or.inr (hanswered.of_records h'.records)

theorem Carries.ite {t a b : Turn} {p : Prop} [Decidable p] (ha : t.Carries a)
    (hb : t.Carries b) : t.Carries (if p then a else b) := by
  split_ifs
  · exact ha
  · exact hb

/-- The slot is left alone, the history at most cut. -/
theorem carries_of_slot (hrecords : t.bus.Records t'.bus)
    (hhistory : ∀ e ∈ t'.self.state.history, e ∈ t.self.state.history)
    (hslot : t'.self.pendingAction = t.self.pendingAction) : t.Carries t' := by
  refine ⟨hrecords, fun hon => hon.of_records hrecords hhistory, ?_⟩
  intro _ call hholds
  left
  unfold Holds
  rw [hslot]
  exact hholds

/-- The slot is written while every call it holds is answered. -/
theorem carries_of_answered (hrecords : t.bus.Records t'.bus)
    (hhistory : ∀ e ∈ t'.self.state.history, e ∈ t.self.state.history)
    (hanswered : ∀ call, t.Holds call → t.Answered call) : t.Carries t' := by
  refine ⟨hrecords, fun hon => hon.of_records hrecords hhistory, ?_⟩
  intro _ call hholds
  exact Or.inr ((hanswered call hholds).of_records hrecords)

/-- A free slot holds no call. -/
theorem not_holds_of_none (h : t.self.pendingAction = none) (call : ToolCallMetadata) :
    ¬ t.Holds call := by
  rintro ⟨p, hp, -⟩
  rw [h] at hp
  cases hp

theorem carries_mapState (t : Turn) {f : State → State}
    (hf : (f t.self.state).history = t.self.state.history) : t.Carries (t.mapState f) := by
  apply carries_of_slot
  · exact .refl t.bus
  · intro e he
    rw [← hf]
    exact he
  · rfl

theorem carries_addEvent (t : Turn) (event : Event) (source : EventSource) :
    t.Carries (t.addEvent event source) :=
  carries_of_slot (EventBus.records_addEvent t.bus event source) (fun _ he => he) rfl

/-! ## The state of the agent -/

/-- A reset adds the observation that is missing in the history. -/
theorem carries_reset (t : Turn) : t.Carries t.reset := by
  cases hp : t.self.pendingAction with
  | none =>
      have hreset : t.reset = t.mapSelf fun c => { c with pendingAction := none } := by
        unfold reset
        rw [hp]
      rw [hreset]
      exact carries_of_slot (.refl t.bus) (fun _ he => he) hp.symm
  | some pending =>
      unfold reset
      rw [hp]
      show t.Carries (mapSelf (if t.self.foundObservation pending then t
        else t.addEvent (actionNotExecuted t.self.state.agentState pending) .agent) _)
      have hcall : ∀ call, t.Holds call → pending.toolCallMetadata = some call := by
        rintro call ⟨p, hmem, hcall⟩
        rw [hp] at hmem
        cases hmem
        exact hcall
      split_ifs with hfound
      · refine ⟨.refl t.bus, fun hon => ⟨hon.queue, hon.history⟩, ?_⟩
        intro hon call hholds
        right
        unfold AgentController.foundObservation at hfound
        obtain ⟨e, he, hmatches⟩ := List.any_eq_true.mp hfound
        simp only [Bool.and_eq_true, decide_eq_true_eq] at hmatches
        exact ⟨e, hon.history e he, hmatches.1, hmatches.2.trans (hcall call hholds)⟩
      · have hadded := carries_addEvent t (actionNotExecuted t.self.state.agentState pending) .agent
        refine ⟨hadded.records, fun hon => ?_, ?_⟩
        · exact ⟨(hadded.onStream hon).queue, (hadded.onStream hon).history⟩
        · intro _ call hholds
          right
          refine ⟨_, EventBus.mem_log_addEvent t.bus
            (actionNotExecuted t.self.state.agentState pending) .agent, rfl, ?_⟩
          exact hcall call hholds

/-- The copy of the action that the user has answered carries its metadata. -/
theorem toolCallMetadata_answered (e : Event) (status : ActionConfirmationStatus) :
    (e.answered status).toolCallMetadata = e.toolCallMetadata := by
  unfold Event.answered
  split <;> rfl

theorem carries_emitAnswered (t : Turn) (status : ActionConfirmationStatus) :
    t.Carries (t.emitAnswered status) := by
  unfold emitAnswered
  cases hp : t.self.pendingAction with
  | none => exact .refl t
  | some pending =>
      have hadded := carries_addEvent t (pending.answered status) .agent
      refine ⟨hadded.records, fun hon => ?_, ?_⟩
      · exact ⟨(hadded.onStream hon).queue, (hadded.onStream hon).history⟩
      · rintro - call ⟨p, hmem, hcall⟩
        rw [hp] at hmem
        cases hmem
        left
        refine ⟨_, rfl, ?_⟩
        exact (toolCallMetadata_answered pending status).trans hcall

theorem carries_setAgentStateTo (t : Turn) (newState : AgentState) :
    t.Carries (t.setAgentStateTo newState) := by
  unfold setAgentStateTo
  refine .ite (.refl t) ?_
  extract_lets oldState t₁ t₂ t₃ t₄ reason
  have h₁ : t.Carries t₁ := carries_mapState t rfl
  have h₂ : t₁.Carries t₂ := .ite (carries_reset t₁) (.refl t₁)
  have h₃ : t₂.Carries t₃ := .ite (carries_mapState t₂ rfl) (.refl t₂)
  have h₄ : t₃.Carries t₄ := by
    unfold t₄
    split
    · exact carries_emitAnswered t₃ _
    · exact .refl t₃
  exact ((h₁.trans h₂).trans (h₃.trans h₄)).trans (carries_addEvent t₄ _ _)

/-- A controller that is stopped has no pending action. -/
theorem pendingAction_setAgentStateTo_stopped (h : t.self.state.agentState ≠ .stopped) :
    (t.setAgentStateTo .stopped).self.pendingAction = none := by
  unfold setAgentStateTo
  rw [if_neg (Ne.symm h)]
  extract_lets oldState t₁ t₂ t₃ t₄ reason
  have h₂ : t₂ = t₁.reset := if_pos (Or.inl rfl)
  have h₃ : t₃ = t₂ := if_neg (by simp)
  show t₃.self.pendingAction = none
  rw [h₃, h₂]
  rfl

theorem carries_reactToException (t : Turn) (e : PyException) :
    t.Carries (t.reactToException e) := by
  have hset (t : Turn) (text : String) (s : AgentState) :
      t.Carries ((t.mapState fun s => { s with lastError := text }).setAgentStateTo s) :=
    (carries_mapState t rfl).trans (carries_setAgentStateTo _ _)
  have hlast := carries_mapState t
    (f := fun s => { s with lastError := e.name ++ ": " ++ e.text }) rfl
  unfold reactToException
  refine .ite (hset t _ _) ?_
  split
  · exact hlast.trans (hset _ _ _)
  · exact .ite (.ite (hlast.trans (hset _ _ _)) (hset t _ _)) (hset t _ _)

/-! ## The step of the agent -/

/-- An agent is stepped only with a free slot, so the action that it emits takes the slot
of no other. -/
theorem carries_emitAction (hfree : t.self.pendingAction = none) (answers : Answers)
    (action : Action) (toolCallMetadata : Option ToolCallMetadata) :
    t.Carries (t.emitAction answers action toolCallMetadata) := by
  have hanswered (call : ToolCallMetadata) : t.Holds call → t.Answered call :=
    fun h => absurd h (not_holds_of_none hfree call)
  unfold emitAction
  split
  · exact .refl t
  · extract_lets a event t₁ t₂ added
    have h₁ : t.Carries t₁ := carries_of_answered (.refl t.bus) (fun _ he => he) hanswered
    have h₂ : t₁.Carries t₂ := .ite (carries_setAgentStateTo t₁ _) (.refl t₁)
    have hadded := (h₁.trans h₂).trans (carries_addEvent t₂ event .agent)
    refine ⟨hadded.records, fun hon => ?_, ?_⟩
    · exact ⟨(hadded.onStream hon).queue, (hadded.onStream hon).history⟩
    · intro _ call hholds
      exact absurd hholds (not_holds_of_none hfree call)
  · exact carries_addEvent t _ _

theorem carries_callAgent (hfree : t.self.pendingAction = none) (answers : Answers) :
    t.Carries (t.callAgent answers).1 := by
  unfold callAgent
  extract_lets t₁
  have h₁ : t.Carries t₁ := carries_of_slot (.refl t.bus) (fun _ he => he) rfl
  refine h₁.trans ?_
  split
  · exact carries_emitAction (t := t₁) hfree answers _ _
  · exact carries_addEvent t₁ _ _
  · split_ifs
    · exact carries_addEvent t₁ _ _
    · exact carries_addEvent t₁ _ _
    · exact .refl t₁
    · exact .refl t₁

theorem carries_step (t : Turn) (answers : Answers) : t.Carries (t.step answers).1 := by
  unfold step
  split_ifs with hstate hpending
  · exact .refl t
  · exact .refl t
  · have hfree : t.self.pendingAction = none := by simpa using hpending
    extract_lets t₁ raised t₂
    have h₁ : t.Carries t₁ := carries_mapState t (history_syncBudgetFlagWithMetrics _ _)
    have h₂ : t₁.Carries t₂ := carries_mapState t₁ (history_runControlFlags _)
    split_ifs
    · exact h₁.trans (carries_reactToException t₁ _)
    · clear_value raised
      cases raised with
      | some message => exact (h₁.trans h₂).trans (carries_reactToException t₂ _)
      | none => exact (h₁.trans h₂).trans (carries_callAgent (t := t₂) hfree answers)

theorem carries_stepWithExceptionHandling (t : Turn) (answers : Answers) :
    t.Carries (t.stepWithExceptionHandling answers) := by
  have hstep := carries_step t answers
  unfold stepWithExceptionHandling
  split
  · rename_i heq
    rw [heq] at hstep
    exact hstep
  · rename_i heq
    rw [heq] at hstep
    exact hstep.trans (carries_reactToException _ _)

/-! ## What takes the slot -/

/-- A message of the user puts its recall action into the slot, whatever is in it. -/
theorem carries_handleMessageAction {event : Event} {message : MessageAction}
    (hanswered : event.source = some .user → ∀ call, t.Holds call → t.Answered call) :
    t.Carries (t.handleMessageAction event message) := by
  unfold handleMessageAction
  split_ifs with huser hagent hwait
  · extract_lets first isFirst recallType recallAction added t₁
    have h₁ : t.Carries t₁ := carries_of_answered
      (EventBus.records_addEvent t.bus _ _) (fun _ he => he) (hanswered huser)
    exact h₁.trans (.ite (carries_setAgentStateTo t₁ _) (.refl t₁))
  · exact carries_setAgentStateTo t _
  · exact .refl t
  · exact .refl t

/-- An observation of the pending action clears the slot, unless the action waits for the
user. -/
theorem carries_handleObservation {event : Event}
    (hanswered : t.self.state.agentState ≠ .awaitingUserConfirmation →
      ∀ p ∈ t.self.pendingAction, event.cause = some p.id →
        ∀ call, t.Holds call → t.Answered call) :
    t.Carries (t.handleObservation event) := by
  unfold handleObservation
  split
  · exact .refl t
  · rename_i pending hp
    by_cases hcause : some pending.id = event.cause
    · rw [if_pos hcause]
      by_cases hawaiting : t.self.state.agentState = .awaitingUserConfirmation
      · rw [if_pos hawaiting]
        exact .refl t
      · rw [if_neg hawaiting]
        extract_lets t₁ t₂
        have h₁ : t.Carries t₁ := carries_of_answered (.refl t.bus) (fun _ he => he)
          (hanswered hawaiting pending hp hcause.symm)
        have h₂ : t₁.Carries t₂ := .ite (carries_setAgentStateTo t₁ _) (.refl t₁)
        exact (h₁.trans h₂).trans (.ite (carries_setAgentStateTo t₂ _) (.refl t₂))
    · rw [if_neg hcause]
      exact .refl t

/-- A cut of the history keeps a part of it. -/
theorem carries_truncateMemoryToPoint (t : Turn) (recoveryPoint : ℤ) :
    t.Carries (t.truncateMemoryToPoint recoveryPoint) := by
  unfold truncateMemoryToPoint
  split_ifs with hpoint
  · exact .refl t
  · apply carries_of_slot
    · exact .refl t.bus
    · intro e he
      have he : e ∈ (OpenHands.truncateMemoryToPoint t.self.state recoveryPoint).history := he
      unfold OpenHands.truncateMemoryToPoint at he
      rw [if_neg hpoint, PySeq.slice_stop_eq_take] at he
      exact List.mem_of_mem_take he
    · rfl

theorem pendingAction_truncateMemoryToPoint (t : Turn) (recoveryPoint : ℤ) :
    (t.truncateMemoryToPoint recoveryPoint).self.pendingAction = t.self.pendingAction := by
  unfold truncateMemoryToPoint
  split_ifs <;> rfl

/-- A restart with the last message of the user handles that message. -/
theorem carries_handleLoopRecoveryAction {answers : Answers} {option : ℤ}
    (hanswered : option = 2 → answers.stuckAnalysis.isSome = true →
      t.lastUserMessage.isSome = true → ∀ call, t.Holds call → t.Answered call) :
    t.Carries (t.handleLoopRecoveryAction answers option) := by
  have hperform (recoveryPoint : ℤ) : t.Carries (t.performLoopRecovery recoveryPoint) :=
    ((carries_truncateMemoryToPoint t recoveryPoint).trans
      (carries_setAgentStateTo _ _)).trans (carries_addEvent _ _ _)
  unfold handleLoopRecoveryAction
  cases hanalysis : answers.stuckAnalysis with
  | none => exact .refl t
  | some loopStartIdx =>
      show t.Carries (if _ then _ else if _ then _ else _)
      split_ifs with h1 h2 h3
      · exact hperform loopStartIdx
      · unfold restartWithLastUserMessage
        cases hlast : t.lastUserMessage with
        | none => exact hperform loopStartIdx
        | some last =>
            have hanswered := hanswered h2 (by rw [hanalysis]; rfl) (by rw [hlast]; rfl)
            have htruncated := carries_truncateMemoryToPoint t loopStartIdx
            set t₁ := t.truncateMemoryToPoint loopStartIdx
            have h₂ := htruncated.trans (carries_setAgentStateTo t₁ .running)
            have h₃ := h₂.trans (carries_addEvent (t₁.setAgentStateTo .running)
              (.ofObservation ("\n✅ Restarting with your last instruction: " ++ last.content
                ++ "\nAgent is now continuing with the same task...\n") .loopDetection)
              .environment)
            refine h₃.trans (carries_handleMessageAction fun _ call hholds => ?_)
            -- neither the cut nor the state running touches the slot
            have hslot : (t₁.setAgentStateTo .running).self.pendingAction
                = t.self.pendingAction := by
              rw [(slot_setAgentStateTo t₁ .running (by decide) rfl).1]
              exact pendingAction_truncateMemoryToPoint t loopStartIdx
            apply Answered.of_records (hanswered call ?_) h₃.records
            unfold Holds
            rw [← hslot]
            exact hholds
      · exact carries_setAgentStateTo t _
      · exact .refl t

end Turn

end OpenHands
