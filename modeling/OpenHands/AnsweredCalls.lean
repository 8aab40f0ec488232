/-
# No tool call is left unanswered

`answersCalls_of_safeMoves`: in a session in which no event takes the slot of a tool call
that is not answered, every move keeps the tool calls of the controller and of its
delegate: the call is still in the slot, or an observation of it is on the stream.  State
changes, resets, confirmations and the end of a delegate need no condition.
-/
import OpenHands.ToolCalls

namespace OpenHands

namespace Turn

variable {t t' : Turn} {answers : Answers} {event : Event}

/-! ## Delegates -/

theorem records_addSystemMessage (t : Turn) : t.bus.Records t.addSystemMessage.bus := by
  rcases addSystemMessage_cases t with heq | ⟨content, heq⟩
  · rw [heq]
    exact .refl t.bus
  · rw [heq]
    exact EventBus.records_addEvent t.bus _ _

/-- A new controller begins with a history that is on the stream. -/
theorem onStream_create (options : ControllerOptions) (initialState : Option State)
    (bus : EventBus) :
    bus.Records (create options initialState bus).bus ∧
      ((∀ e ∈ bus.queue, e ∈ bus.log.events) → (create options initialState bus).OnStream) := by
  unfold create
  extract_lets state₁ state₂
  set started : Turn := ⟨{ options with state := state₂ }, bus.arrive⟩
  have hsystem := records_addSystemMessage started
  have hrecords : bus.Records started.addSystemMessage.bus := bus.records_arrive.trans hsystem
  refine ⟨hrecords, fun hqueue => ⟨?_, ?_⟩⟩
  · intro e he
    rcases hrecords.queued e he with he | he
    · exact hrecords.grows e (hqueue e he)
    · exact he
  · rw [(keeps_addSystemMessage started).history]
    intro e he
    exact hrecords.grows e (mem_stream_of_mem_window (mem_window_of_mem_initHistory he))

/-- The history of the delegate is on the stream, too. -/
def DelegateOnStream (t : Turn) : Prop :=
  ∀ d, t.self.delegate = some d → OnStream ⟨d, t.bus⟩

theorem delegateOnStream_of_none (h : t.self.delegate = none) : t.DelegateOnStream := by
  intro d hd
  rw [h] at hd
  cases hd

/-- Starting a delegate leaves the slot of the parent alone. -/
theorem carries_startDelegate {action : AgentDelegateAction}
    (h : t.startDelegate answers action = some t') :
    t.Carries t' ∧ (t.OnStream → t'.DelegateOnStream) := by
  obtain ⟨agent, -, rfl⟩ := Option.map_eq_some_iff.mp h
  extract_lets state delegate
  obtain ⟨hrecords, hon⟩ := onStream_create
    { agent := agent
      headlessMode := t.self.headlessMode
      securityAnalyzer := t.self.securityAnalyzer
      initialMaxIterations := t.self.initialMaxIterations
      initialMaxBudgetPerTask := t.self.initialMaxBudgetPerTask } (some state) t.bus.arrive
  constructor
  · exact carries_of_slot (t.bus.records_arrive.trans hrecords) (fun _ he => he) rfl
  · intro honStream d hd
    cases hd
    apply hon
    intro e he
    rcases t.bus.records_arrive.queued e he with he | he
    · exact t.bus.records_arrive.grows e (honStream.queue e he)
    · exact he

theorem carries_postTask (t : Turn) (action : AgentDelegateAction) :
    t.Carries (t.postTask action) ∧
      (t.DelegateOnStream → (t.postTask action).DelegateOnStream) := by
  unfold postTask
  split
  · rename_i task _
    have hposted := carries_addEvent t (.ofAction (.message { content := "TASK: " ++ task })) .user
    set posted := t.addEvent (.ofAction (.message { content := "TASK: " ++ task })) .user
    unfold onDelegate
    cases hd : posted.self.delegate with
    | none => exact ⟨hposted, fun _ => delegateOnStream_of_none hd⟩
    | some d =>
        have hset := carries_setAgentStateTo ⟨d, posted.bus⟩ .running
        constructor
        · exact carries_of_slot (hposted.records.trans hset.records) (fun _ he => he) rfl
        · intro hon d' hd'
          cases hd'
          apply hset.onStream
          exact (hon d hd).of_records hposted.records (fun _ he => he)
  · exact ⟨.refl t, id⟩

/-! ## Events that meet no unanswered call -/

/-- The pending action's call is answered when a message of the user or a restart with the
last one takes the slot, and when an observation without the metadata clears it. -/
def SafeForCall (t : Turn) (answers : Answers) (event pending : Event)
    (call : ToolCallMetadata) : Prop :=
  (event.isUserMessage = true → t.Answered call) ∧
  (event.loopRecovery? = some 2 → answers.stuckAnalysis.isSome = true →
    t.lastUserMessage.isSome = true → t.Answered call) ∧
  (event.isObservation = true → event.cause = some pending.id →
    t.self.state.agentState ≠ .awaitingUserConfirmation →
    event.toolCallMetadata = some call ∨ t.Answered call)

instance (t : Turn) (answers : Answers) (event pending : Event) (call : ToolCallMetadata) :
    Decidable (t.SafeForCall answers event pending call) :=
  inferInstanceAs (Decidable ((_ → _) ∧ (_ → _ → _ → _) ∧ (_ → _ → _ → _ ∨ _)))

/-- **The condition on an event** that is not hidden. -/
def SafeForCalls (t : Turn) (answers : Answers) (event : Event) : Prop :=
  event.hidden = false → ∀ pending ∈ t.self.pendingAction,
    ∀ call ∈ pending.toolCallMetadata, t.SafeForCall answers event pending call

instance (t : Turn) (answers : Answers) (event : Event) :
    Decidable (t.SafeForCalls answers event) :=
  inferInstanceAs (Decidable (_ → ∀ pending ∈ t.self.pendingAction,
    ∀ call ∈ pending.toolCallMetadata, t.SafeForCall answers event pending call))

/-- A call that an observation on the stream carries is answered. -/
theorem SafeForCalls.answered_of_observation (hsafe : t.SafeForCalls answers event)
    (hhidden : event.hidden = false) (hevent : event ∈ t.bus.log.events)
    (hobservation : event.isObservation = true)
    (hstate : t.self.state.agentState ≠ .awaitingUserConfirmation) {p : Event}
    (hp : p ∈ t.self.pendingAction) (hcause : event.cause = some p.id) {call : ToolCallMetadata}
    (hholds : t.Holds call) : t.Answered call := by
  obtain ⟨p', hp', hcall⟩ := hholds
  have hsame : p' = p := Option.mem_unique hp' hp
  subst hsame
  rcases (hsafe hhidden p' hp call hcall).2.2 hobservation hcause hstate with hcarries | hanswered
  · exact ⟨event, hevent, hobservation, hcarries⟩
  · exact hanswered

/-! ## Handling one event -/

/-- An action carries the call when a message or a restart finds it answered. -/
theorem carries_handleAction {action : Action} (hbody : event.body = .action action)
    (hmessage : event.isUserMessage = true → ∀ call, t.Holds call → t.Answered call)
    (hrestart : event.loopRecovery? = some 2 → answers.stuckAnalysis.isSome = true →
      t.lastUserMessage.isSome = true → ∀ call, t.Holds call → t.Answered call)
    (h : t.handleAction answers event action = some t') :
    t.Carries t' ∧ (t.OnStream → t.self.delegate = none → t'.DelegateOnStream) := by
  unfold handleAction at h
  split at h
  case h_3 delegateAction =>
    obtain ⟨started, hstarted, rfl⟩ := Option.map_eq_some_iff.mp h
    obtain ⟨hcarries, hon⟩ := carries_startDelegate hstarted
    obtain ⟨hposted, hkept⟩ := carries_postTask started delegateAction
    exact ⟨hcarries.trans hposted, fun honStream _ => hkept (hon honStream)⟩
  all_goals
    cases h
  · refine ⟨carries_setAgentStateTo t _, fun _ hnone => delegateOnStream_of_none ?_⟩
    exact (keeps_setAgentStateTo t _).delegate.trans hnone
  · rename_i message
    refine ⟨carries_handleMessageAction fun huser => hmessage ?_,
      fun _ hnone => delegateOnStream_of_none ?_⟩
    · unfold Event.isUserMessage
      rw [hbody]
      exact decide_eq_true huser
    · exact (keeps_handleMessageAction t event _).delegate.trans hnone
  · refine ⟨(carries_mapState t rfl).trans (carries_setAgentStateTo _ _),
      fun _ hnone => delegateOnStream_of_none ?_⟩
    exact (keeps_setAgentStateTo (t.mapState _) _).delegate.trans hnone
  · refine ⟨(carries_mapState t rfl).trans (carries_setAgentStateTo _ _),
      fun _ hnone => delegateOnStream_of_none ?_⟩
    exact (keeps_setAgentStateTo (t.mapState _) _).delegate.trans hnone
  · refine ⟨carries_handleLoopRecoveryAction fun htwo => hrestart ?_,
      fun _ hnone => delegateOnStream_of_none ?_⟩
    · unfold Event.loopRecovery?
      rw [hbody, htwo]
    · exact (delegate_handleLoopRecoveryAction t answers _).trans hnone
  · exact ⟨.refl _, fun _ hnone => delegateOnStream_of_none hnone⟩

/-- An event of the stream is added to the history. -/
theorem carries_addHistory (hevent : event ∈ t.bus.log.events) :
    t.Carries (t.mapState (StateTracker.addHistory · event)) := by
  refine ⟨.refl t.bus, fun hon => ⟨hon.queue, fun e he => ?_⟩, fun _ _ hholds => Or.inl hholds⟩
  rcases StateTracker.mem_addHistory he with he | rfl
  · exact hon.history e he
  · exact hevent

/-- **Handling an event** that is safe for the calls. -/
theorem carries_handleEvent (hevent : event ∈ t.bus.log.events)
    (hsafe : t.SafeForCalls answers event) :
    t.Carries (t.handleEvent answers event) ∧
      (t.OnStream → t.self.delegate = none → (t.handleEvent answers event).DelegateOnStream) := by
  unfold handleEvent
  extract_lets t₁ t₂ handled
  have h₁ : t.Carries t₁ := carries_of_slot (.refl t.bus) (fun _ he => he) rfl
  by_cases hhidden : event.hidden = true
  · rw [if_pos hhidden]
    exact ⟨h₁, fun _ hnone => delegateOnStream_of_none hnone⟩
  · rw [if_neg hhidden]
    have hvisible : event.hidden = false := by simpa using hhidden
    have h₂ : t.Carries t₂ := h₁.trans (carries_addHistory hevent)
    have hstate : t₂.self.state.agentState = t.self.state.agentState :=
      StateTracker.agentState_addHistory t₁.self.state event
    have hhandled : ∀ t₃, handled = some t₃ → t₂.Carries t₃ ∧
        (t₂.OnStream → t₂.self.delegate = none → t₃.DelegateOnStream) := by
      intro t₃ ht₃
      unfold handled at ht₃
      split at ht₃
      · rename_i action hbody
        refine carries_handleAction hbody ?_ ?_ ht₃
        · rintro hmessage call ⟨p, hp, hcall⟩
          exact (hsafe hvisible p hp call hcall).1 hmessage
        · rintro htwo hanalysis hlast call ⟨p, hp, hcall⟩
          refine (hsafe hvisible p hp call hcall).2.1 htwo hanalysis ?_
          have hno := Event.userMessage?_of_loopRecovery htwo
          rw [← hlast]
          exact congrArg Option.isSome (lastUserMessage_addHistory (t := t₁) hno).symm
      · rename_i observation hbody
        cases ht₃
        constructor
        · apply carries_handleObservation
          intro hawaiting p hp hcause call hholds
          refine hsafe.answered_of_observation hvisible hevent ?_ ?_ hp hcause hholds
          · unfold Event.isObservation
            rw [hbody]
          · rw [← hstate]
            exact hawaiting
        · intro _ hnone
          apply delegateOnStream_of_none
          exact (keeps_handleObservation t₂ event).delegate.trans hnone
    clear_value handled
    cases handled with
    | none => exact ⟨h₂, fun _ hnone => delegateOnStream_of_none hnone⟩
    | some t₃ =>
        obtain ⟨hcarries, hdelegate⟩ := hhandled t₃ rfl
        have h₃ : t.Carries t₃ := h₂.trans hcarries
        show t.Carries (if _ then _ else _) ∧ (_ → _ → DelegateOnStream (if _ then _ else _))
        by_cases hstep : t₃.self.shouldStep event = true
        · rw [if_pos hstep]
          refine ⟨h₃.trans (carries_stepWithExceptionHandling t₃ answers), fun _ _ => ?_⟩
          apply delegateOnStream_of_none
          rw [(keeps_stepWithExceptionHandling t₃ answers).delegate]
          cases hd : t₃.self.delegate with
          | none => rfl
          | some d =>
              rw [shouldStep_of_delegate (by rw [hd]; rfl) event] at hstep
              cases hstep
        · rw [if_neg hstep]
          exact ⟨h₃, fun hon hnone => hdelegate (h₂.onStream hon) hnone⟩

/-! ## Moves -/

/-- What is delivered to the controller and to its delegate is on the stream. -/
structure WholeOnStream (t : Turn) : Prop where
  root : t.OnStream
  delegate : t.DelegateOnStream

/-- **The property of a move**: a call that the controller or its delegate holds is held
afterwards, or an observation of it is on the stream. -/
structure AnswersCalls (t t' : Turn) : Prop where
  root : ∀ call, t.Holds call → t'.Holds call ∨ t'.Answered call
  delegate : ∀ d, t.self.delegate = some d → ∀ call, Holds ⟨d, t.bus⟩ call →
    (∃ d', t'.self.delegate = some d' ∧ Holds ⟨d', t'.bus⟩ call) ∨ t'.Answered call

/-- **The condition on a move**: the controller that gets the event can handle it without
losing a call. -/
def SafeForCallsMove (t : Turn) : ControlMove → Prop
  | .move (.deliver answers) => ∀ event ∈ t.bus.queue.head?,
      (t.self.delegate.isNone = true →
        (t.popped t.bus.queue.tail answers).SafeForCalls answers event) ∧
      ∀ d ∈ t.self.delegate, d.isDone = false →
        (popped ⟨d, t.bus⟩ t.bus.queue.tail answers).SafeForCalls answers event
  | _ => True

instance (t : Turn) (m : ControlMove) : Decidable (t.SafeForCallsMove m) :=
  match m with
  | .move (.publish _ _) => inferInstanceAs (Decidable True)
  | .move (.deliver _) => inferInstanceAs (Decidable (∀ event ∈ t.bus.queue.head?, (_ → _) ∧
      ∀ d ∈ t.self.delegate, _ → _))
  | .step _ => inferInstanceAs (Decidable True)
  | .setAgentState _ _ => inferInstanceAs (Decidable True)

/-- Nothing but the bus changes, and the bus only grows. -/
theorem answersCalls_of_records (hrecords : t.bus.Records t'.bus) (hself : t'.self = t.self) :
    t.AnswersCalls t' ∧ (t.WholeOnStream → t'.WholeOnStream) := by
  refine ⟨⟨fun call hholds => ?_, fun d hd call hholds => ?_⟩, fun hon => ⟨?_, ?_⟩⟩
  · left
    unfold Holds
    rw [hself]
    exact hholds
  · left
    refine ⟨d, ?_, hholds⟩
    rw [hself]
    exact hd
  · apply hon.root.of_records hrecords
    rw [hself]
    exact fun _ he => he
  · intro d hd
    rw [hself] at hd
    exact (hon.delegate d hd).of_records hrecords (fun _ he => he)

theorem AnswersCalls.trans_records {a b c : Turn} (h : a.AnswersCalls b ∧ b.WholeOnStream)
    (hrecords : b.bus.Records c.bus) (hself : c.self = b.self) :
    a.AnswersCalls c ∧ c.WholeOnStream := by
  obtain ⟨hkept, hon⟩ := answersCalls_of_records hrecords hself
  refine ⟨⟨fun call hholds => ?_, fun d hd call hholds => ?_⟩, hon h.2⟩
  · rcases h.1.root call hholds with hholds | hanswered
    · exact hkept.root call hholds
    · exact Or.inr (hanswered.of_records hrecords)
  · rcases h.1.delegate d hd call hholds with ⟨d', hd', hholds⟩ | hanswered
    · exact hkept.delegate d' hd' call hholds
    · exact Or.inr (hanswered.of_records hrecords)

/-- A controller without a delegate carries its own calls. -/
theorem answersCalls_of_carries (hnone : t.self.delegate = none) (hon : t.WholeOnStream)
    (hcarries : t.Carries t') (hdelegate : t'.DelegateOnStream) :
    t.AnswersCalls t' ∧ t'.WholeOnStream := by
  refine ⟨⟨hcarries.kept hon.root, fun d hd => ?_⟩, hcarries.onStream hon.root, hdelegate⟩
  rw [hnone] at hd
  cases hd

/-- The delegate acts for its parent. -/
theorem answersCalls_onDelegate {d : AgentController} (hd : t.self.delegate = some d)
    (hon : t.WholeOnStream) {f : Turn → Turn} (hcarries : Carries ⟨d, t.bus⟩ (f ⟨d, t.bus⟩)) :
    t.AnswersCalls (t.onDelegate f) ∧ (t.onDelegate f).WholeOnStream := by
  unfold onDelegate
  rw [hd]
  refine ⟨⟨fun call hholds => Or.inl hholds, ?_⟩, ?_, ?_⟩
  · intro d' hd' call hholds
    rw [hd] at hd'
    cases hd'
    rcases hcarries.kept (hon.delegate d hd) call hholds with hholds | hanswered
    · exact Or.inl ⟨_, rfl, hholds⟩
    · exact Or.inr hanswered
  · exact hon.root.of_records hcarries.records (fun _ he => he)
  · intro d' hd'
    cases hd'
    exact hcarries.onStream (hon.delegate d hd)

/-- A delegate that is done is stopped, and its reset answers the pending action. -/
theorem answersCalls_endDelegate {d : AgentController} (hd : t.self.delegate = some d)
    (hdone : d.isDone = true) (hon : t.WholeOnStream) :
    t.AnswersCalls t.endDelegate ∧ t.endDelegate.WholeOnStream := by
  have hclosed := carries_setAgentStateTo ⟨d, t.bus⟩ .stopped
  have hstate : d.state.agentState ≠ .stopped := by
    unfold AgentController.isDone at hdone
    intro hstopped
    rw [hstopped] at hdone
    simp at hdone
  have hfree := pendingAction_setAgentStateTo_stopped (t := ⟨d, t.bus⟩) hstate
  set closed := setAgentStateTo ⟨d, t.bus⟩ .stopped with hclosed_eq
  have hended : t.endDelegate.self.delegate = none ∧
      t.endDelegate.self.pendingAction = t.self.pendingAction ∧
      t.endDelegate.self.state.history = t.self.state.history ∧
      closed.bus.Records t.endDelegate.bus := by
    unfold endDelegate
    rw [hd]
    refine ⟨rfl, rfl, rfl, ?_⟩
    exact EventBus.records_addEvent closed.bus _ _
  obtain ⟨hnone, hslot, hhistory, hadded⟩ := hended
  have hrecords := hclosed.records.trans hadded
  refine ⟨⟨?_, ?_⟩, ?_, delegateOnStream_of_none hnone⟩
  · intro call hholds
    left
    unfold Holds
    rw [hslot]
    exact hholds
  · intro d' hd' call hholds
    rw [hd] at hd'
    cases hd'
    right
    rcases hclosed.kept (hon.delegate d hd) call hholds with hholds | hanswered
    · exact absurd hholds (not_holds_of_none hfree call)
    · exact hanswered.of_records hadded
  · apply hon.root.of_records hrecords
    rw [hhistory]
    exact fun _ he => he

/-- The root acts while its delegate keeps its own slot. -/
theorem answersCalls_onRoot {f : Turn → Turn} (hcarries : ∀ t : Turn, t.Carries (f t))
    (hdelegate : ∀ t : Turn, (f t).self.delegate = t.self.delegate) (hon : t.WholeOnStream) :
    t.AnswersCalls (t.onRoot f) ∧ (t.onRoot f).WholeOnStream := by
  have hread : t.Carries t.readFlags ∧ t.readFlags.self.delegate = t.self.delegate := by
    unfold readFlags
    split
    · exact ⟨.refl t, rfl⟩
    · exact ⟨carries_mapState t rfl, rfl⟩
  have hacted := hread.1.trans (hcarries t.readFlags)
  have hsame := (hdelegate t.readFlags).trans hread.2
  unfold onRoot
  cases hd : t.self.delegate with
  | none =>
      have hnone : (f t.readFlags).self.delegate = none := hsame.trans hd
      have hwrite : (f t.readFlags).writeFlags = f t.readFlags := by
        unfold writeFlags
        rw [hnone]
      rw [hwrite]
      exact answersCalls_of_carries hd hon hacted (delegateOnStream_of_none hnone)
  | some d =>
      have hsome : (f t.readFlags).self.delegate = some d := hsame.trans hd
      unfold writeFlags
      rw [hsome]
      refine ⟨⟨hacted.kept hon.root, ?_⟩, ⟨(hacted.onStream hon.root).queue,
        (hacted.onStream hon.root).history⟩, ?_⟩
      · intro d' hd' call hholds
        rw [hd] at hd'
        cases hd'
        exact Or.inl ⟨_, rfl, hholds⟩
      · intro d' hd'
        cases hd'
        have hkept : OnStream ⟨d, (f t.readFlags).bus⟩ :=
          (hon.delegate d hd).of_records hacted.records (fun _ he => he)
        exact ⟨hkept.queue, hkept.history⟩

/-- A part of the queue is taken, and other threads are at work. -/
theorem WholeOnStream.popped (hon : t.WholeOnStream) {queue : List Event}
    (hqueue : ∀ e ∈ queue, e ∈ t.bus.queue) (answers : Answers) :
    (t.popped queue answers).WholeOnStream := by
  refine ⟨⟨fun e he => hon.root.queue e (hqueue e he), hon.root.history⟩, ?_⟩
  intro d hd
  exact ⟨fun e he => hon.root.queue e (hqueue e he), (hon.delegate d hd).history⟩

/-- Taking an event from the queue touches no slot. -/
theorem AnswersCalls.of_popped {queue : List Event}
    (h : (t.popped queue answers).AnswersCalls t') : t.AnswersCalls t' :=
  ⟨h.root, h.delegate⟩

/-- What a thread does with the events that it took, when the arrivals are emptied behind it. -/
theorem AnswersCalls.acted {queue : List Event} {acted : Turn}
    (h : (t.popped queue answers).AnswersCalls acted ∧ acted.WholeOnStream) :
    t.AnswersCalls ⟨acted.self, { acted.bus with arrivals := [] }⟩ ∧
      WholeOnStream ⟨acted.self, { acted.bus with arrivals := [] }⟩ := by
  have hdone := AnswersCalls.trans_records h
    (c := ⟨acted.self, { acted.bus with arrivals := [] }⟩)
    ⟨fun _ he => he, fun _ he => Or.inl he⟩ rfl
  exact ⟨hdone.1.of_popped, hdone.2⟩

/-- An event is handled by the controller, or by its delegate when it has one that goes on. -/
theorem answersCalls_onEvent (hon : t.WholeOnStream) (hevent : event ∈ t.bus.log.events)
    (hroot : t.self.delegate = none → t.SafeForCalls answers event)
    (hdelegate : ∀ d, t.self.delegate = some d → d.isDone = false →
      SafeForCalls ⟨d, t.bus⟩ answers event) :
    t.AnswersCalls (t.onEvent answers event) ∧ (t.onEvent answers event).WholeOnStream := by
  unfold onEvent
  cases hd : t.self.delegate with
  | none =>
      obtain ⟨hcarries, hkept⟩ := carries_handleEvent hevent (hroot hd)
      exact answersCalls_of_carries hd hon hcarries (hkept hon.root hd)
  | some d =>
      show t.AnswersCalls (if d.isDone then _ else _) ∧ WholeOnStream (if d.isDone then _ else _)
      by_cases hdone : d.isDone = true
      · rw [if_pos hdone]
        exact answersCalls_endDelegate hd hdone hon
      · rw [if_neg hdone]
        apply answersCalls_onDelegate hd hon
        exact (carries_handleEvent (t := ⟨d, t.bus⟩) hevent (hdelegate d hd (by simpa using hdone))).1

/-- **Every safe move** answers the calls. -/
theorem answersCalls_controlMove (hon : t.WholeOnStream) {m : ControlMove}
    (hsafe : t.SafeForCallsMove m) :
    t.AnswersCalls (t.controlMove m) ∧ (t.controlMove m).WholeOnStream := by
  cases m with
  | move m =>
      cases m with
      | publish event source =>
          have hrecords : t.bus.Records (t.controlMove (.move (.publish event source))).bus :=
            EventBus.records_receive t.bus (event, source)
          obtain ⟨hkept, hon'⟩ := answersCalls_of_records hrecords rfl
          exact ⟨hkept, hon' hon⟩
      | deliver answers =>
          show t.AnswersCalls (t.move (.deliver answers)) ∧
            (t.move (.deliver answers)).WholeOnStream
          cases hqueue : t.bus.queue with
          | nil =>
              simp only [move, hqueue]
              exact ⟨(answersCalls_of_records (.refl t.bus) rfl).1, hon⟩
          | cons event queue =>
              have hpopped : (t.popped queue answers).WholeOnStream := by
                apply hon.popped
                intro e he
                rw [hqueue]
                exact List.mem_cons_of_mem event he
              have hevent : event ∈ t.bus.log.events := by
                apply hon.root.queue
                rw [hqueue]
                exact List.mem_cons_self
              have hsafe := hsafe event (by rw [hqueue]; rfl)
              rw [hqueue] at hsafe
              simp only [move, hqueue]
              exact AnswersCalls.acted (answersCalls_onEvent hpopped hevent
                (fun hnone => hsafe.1 (Option.isNone_iff_eq_none.mpr hnone))
                fun d hd hdone => hsafe.2 d hd hdone)
  | step answers =>
      exact AnswersCalls.acted (answersCalls_onRoot (f := (·.stepWithExceptionHandling answers))
        (fun t => carries_stepWithExceptionHandling t answers)
        (fun t => (keeps_stepWithExceptionHandling t answers).delegate)
        (hon.popped (fun _ he => he) answers))
  | setAgentState newState answers =>
      exact AnswersCalls.acted (answersCalls_onRoot (f := (·.setAgentStateTo newState))
        (fun t => carries_setAgentStateTo t newState)
        (fun t => (keeps_setAgentStateTo t newState).delegate)
        (hon.popped (fun _ he => he) answers))

/-- A session begins on the stream. -/
theorem wholeOnStream_start (options : ControllerOptions) (initialState : Option State)
    (log : EventLog) : (start options initialState log).WholeOnStream := by
  obtain ⟨-, hon⟩ := onStream_create options initialState { log := log }
  obtain ⟨-, -, -, -, hnone⟩ := create_frame options initialState { log := log } rfl
  exact ⟨hon (by simp), delegateOnStream_of_none hnone⟩

end Turn

/-- **No tool call is left unanswered** in a session whose moves are all safe for the
calls. -/
theorem answersCalls_of_safeMoves (options : ControllerOptions) (initialState : Option State)
    (log : EventLog) (moves : List ControlMove)
    (hsafe : ∀ p ∈ Run.steps Turn.controlMove (.start options initialState log) moves,
      p.1.SafeForCallsMove p.2) :
    ∀ p ∈ Run.steps Turn.controlMove (.start options initialState log) moves,
      p.1.AnswersCalls (p.1.controlMove p.2) := by
  intro p hp
  have hon := Run.forall_steps_of_invariant
    (fun t m hon hm => (Turn.answersCalls_controlMove (t := t) hon hm).2)
    (Turn.wholeOnStream_start options initialState log) hsafe p hp
  exact (Turn.answersCalls_controlMove hon (hsafe p hp)).1

/-- The call of a tool. -/
def bashCall (toolCallId : String) : ToolCallMetadata :=
  { functionName := "execute_bash", toolCallId := toolCallId, modelResponse := "r1"
    totalCallsInResponse := 1 }

/-- The agent calls a tool that runs a command. -/
def callsTool (input toolCallId : String) : Answers :=
  { agentStep := .ok (some (.run { cls := .cmdRun false, input := input },
      some (bashCall toolCallId))) }

/-- The user asks for the files, and the agent calls a tool to list them. -/
def untilToolCall : List ControlMove :=
  [.publish (.ofAction (.message { content := "list the files" })) .user,
    .deliver {}, .deliver {}, .deliver {},
    observationOf 1 "" (.recall .workspaceContext), .deliver (callsTool "ls -R /" "c1"),
    .deliver {}].map .move

/-- The user stops the agent while the tool is at work. -/
theorem answersCalls_stopped :
    (Run.run Turn.controlMove (.start codeActOptions none .empty) untilToolCall).Holds
      (bashCall "c1") ∧
    ∀ p ∈ Run.steps Turn.controlMove (.start codeActOptions none .empty)
      (untilToolCall ++ [.setAgentState .stopped {}]), p.1.AnswersCalls (p.1.controlMove p.2) :=
  ⟨by decide, answersCalls_of_safeMoves codeActOptions none .empty
    (untilToolCall ++ [.setAgentState .stopped {}]) (by decide)⟩

/-- The user sends a message while the tool is at work. -/
def messageDuringToolCall : Turn :=
  Run.run Turn.controlMove (.start codeActOptions none .empty) (untilToolCall ++
    [.move (.publish (.ofAction (.message { content := "only the names" })) .user)])

/-- The recall action of the message takes the slot of the tool call, and no observation of
the call is on the stream. -/
theorem messageDuringToolCall_drops_call :
    messageDuringToolCall.Holds (bashCall "c1") ∧
    ¬ messageDuringToolCall.AnswersCalls
      (messageDuringToolCall.controlMove (.move (.deliver {}))) := by
  have hholds : messageDuringToolCall.Holds (bashCall "c1") := by decide
  refine ⟨hholds, fun hanswers => ?_⟩
  rcases hanswers.root (bashCall "c1") hholds with hkept | hanswered
  · revert hkept
    decide
  · revert hanswered
    decide

end OpenHands
