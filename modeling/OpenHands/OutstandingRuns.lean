/-
# Conversations with at most one outstanding action

A delivered event is popped from the queue and observed before it is handled.  What it
answers is not outstanding any more, and everything else that was answered is answered
behind it in the queue; so an observation that clears the slot leaves nothing outstanding.
-/
import OpenHands.OutstandingAction

namespace OpenHands

namespace Turn

variable {t t' : Turn} {answers : Answers} {event : Event}

/-! ## Taking an event from the queue -/

/-- The observed action is the only one that is not outstanding any more. -/
theorem mem_observe {i : ℤ} (hi : i ∈ (t.observe event).self.unobserved) :
    i ∈ t.self.unobserved ∧ (event.isObservation = true → event.cause ≠ some i) := by
  have hmem : i ∈ if event.isObservation then
      t.self.unobserved.filter fun id => some id ≠ event.cause else t.self.unobserved := hi
  split_ifs at hmem with hobservation
  · obtain ⟨hmem, hne⟩ := List.mem_filter.mp hmem
    refine ⟨hmem, fun _ heq => ?_⟩
    simp [heq] at hne
  · exact ⟨hmem, fun h => absurd h hobservation⟩

theorem length_observe_le : (t.observe event).self.unobserved.length ≤
    t.self.unobserved.length := by
  show (if event.isObservation then
    t.self.unobserved.filter fun id => some id ≠ event.cause else t.self.unobserved).length ≤ _
  split_ifs
  · exact List.length_filter_le _ _
  · exact le_refl _

/-- Observing an event makes fewer actions outstanding. -/
theorem Steady.observe (h : t.Steady) (event : Event) : (t.observe event).Steady where
  wellFormed := h.wellFormed
  pending_lt := h.pending_lt
  pending_cause := h.pending_cause
  calls := h.calls
  answered := fun i hi => h.answered i (mem_observe hi).1
  of_runnable := fun p hp hrun i hi => h.of_runnable p hp hrun i (mem_observe hi).1
  length_le := le_trans length_observe_le h.length_le
  ready := by
    intro hrunning hp
    rw [List.eq_nil_iff_forall_not_mem]
    intro i hi
    have hmem := (mem_observe hi).1
    rw [h.ready hrunning hp] at hmem
    cases hmem

/-- An action is no answer to any other. -/
theorem observe_of_action (haction : event.isObservation = false) : t.observe event = t := by
  unfold Turn.observe
  simp only [haction, Bool.false_eq_true, if_false]
  cases t with
  | mk c bus =>
    cases c
    rfl

/-- The rest of the queue is in order. -/
theorem wellFormed_popped (h : t.bus.WellFormed) {queue : List Event}
    (hqueue : t.bus.queue = event :: queue) (answers : Answers) :
    (t.popped queue answers).bus.WellFormed where
  sorted := by
    have hsorted := h.sorted
    rw [hqueue] at hsorted
    exact (List.pairwise_cons.mp hsorted).2
  lt_curId := by
    intro e he
    apply h.lt_curId
    rw [hqueue]
    exact List.mem_cons_of_mem event he
  cause_lt := by
    intro e he
    apply h.cause_lt
    rw [hqueue]
    exact List.mem_cons_of_mem event he

/-- Popping an event whose answers are not missed. -/
theorem Steady.popped (h : t.Steady) {queue : List Event}
    (hqueue : t.bus.queue = event :: queue) (hmisses : t.MissesNoAnswer event)
    (answers : Answers) : (t.popped queue answers).Steady where
  wellFormed := wellFormed_popped h.wellFormed hqueue answers
  pending_lt := h.pending_lt
  pending_cause := h.pending_cause
  calls := h.calls
  answered := by
    intro i hi
    rcases h.answered i hi with hpending | ⟨e, he, ⟨hobservation, hcause⟩, hlt⟩
    · exact Or.inl hpending
    · rw [hqueue] at he
      rcases List.mem_cons.mp he with rfl | he
      · exact Or.inl (hmisses hobservation i hi hcause)
      · exact Or.inr ⟨e, he, ⟨hobservation, hcause⟩, hlt⟩
  of_runnable := h.of_runnable
  length_le := h.length_le
  ready := h.ready

/-- **The order of the queue**: when the answer to the pending action is delivered, all
earlier answers have been. -/
theorem Steady.unobserved_eq_nil (h : t.Steady) {queue : List Event}
    (hqueue : t.bus.queue = event :: queue) (hobservation : event.isObservation = true)
    {p : Event} (hp : t.self.pendingAction = some p) (hcause : some p.id = event.cause) :
    (t.observe event).self.unobserved = [] := by
  have hmem : event ∈ t.bus.queue := by
    rw [hqueue]
    exact List.mem_cons_self
  have hlt : p.id < event.id := h.wellFormed.cause_lt event hmem p.id hcause.symm
  have hsorted := h.wellFormed.sorted
  rw [hqueue, List.pairwise_cons] at hsorted
  rw [List.eq_nil_iff_forall_not_mem]
  intro i hi
  obtain ⟨hi, hne⟩ := mem_observe hi
  rcases h.answered i hi with ⟨p', hp', rfl⟩ | ⟨e, he, ⟨-, hecause⟩, helt⟩
  · rw [hp, Option.mem_some_iff] at hp'
    subst hp'
    exact hne hobservation hcause.symm
  · rw [hqueue] at he
    rcases List.mem_cons.mp he with rfl | he
    · exact hne hobservation hecause
    · -- an answer older than the pending action cannot stand behind a newer event
      have hbefore := helt p hp
      have hbehind := hsorted.1 e he
      omega

/-- A controller that gets the event misses no answer. -/
theorem Steady.popped_observe (h : t.Steady) {queue : List Event}
    (hqueue : t.bus.queue = event :: queue) (answers : Answers) :
    ((t.popped queue answers).observe event).Steady := by
  refine (h.observe event).popped (t := t.observe event) hqueue ?_ answers
  intro hobservation i hi hcause
  exact absurd hcause ((mem_observe hi).2 hobservation)

/-! ## Handling an event -/

/-- States without side effects on the slot are safe. -/
theorem safeState_of_ne {newState : AgentState} (hstopped : newState ≠ .stopped)
    (herror : newState ≠ .error) (hrunning : newState ≠ .running) : t.SafeState newState := by
  intro _
  refine ⟨?_, fun h => absurd h hrunning⟩
  rintro (h | h)
  · exact absurd h hstopped
  · exact absurd h herror

/-- The state object changes apart from the state of the agent. -/
theorem Steady.mapState (h : t.Steady) {f : State → State}
    (hf : (f t.self.state).agentState = t.self.state.agentState) : (t.mapState f).Steady where
  toTracked := h.toTracked.mapState f
  ready := fun hrunning => h.ready (hf.symm.trans hrunning)

/-- **Handling an action** that is safe: the delegate stays, or a new one has begun. -/
theorem Steady.handleAction (h : t.Steady) (hsafe : t.SafeEvent answers event)
    {action : Action} (hbody : event.body = .action action)
    (hhandled : t.handleAction answers event action = some t') :
    t'.Steady ∧ (t'.self.delegate = t.self.delegate ∨ t'.Settled) := by
  unfold Turn.handleAction at hhandled
  split at hhandled
  case h_1 agentState =>
    cases hhandled
    have hchanged : agentState ∈ event.changedState? := by
      rw [Event.changedState?, hbody]
      rfl
    exact ⟨h.setAgentStateTo (hsafe.2.1 agentState hchanged),
      Or.inl (keeps_setAgentStateTo t agentState).delegate⟩
  case h_2 message =>
    cases hhandled
    refine ⟨?_, Or.inl (keeps_handleMessageAction t event message).delegate⟩
    by_cases hsource : event.source = some .user
    · refine h.toTracked.handleUserMessage (hsafe.1 ?_) hsource message
      simp [Event.isUserMessage, hbody, hsource]
    · exact h.handleOtherMessage hsource message
  case h_3 delegateAction =>
    obtain ⟨started, hstarted, rfl⟩ := Option.map_eq_some_iff.mp hhandled
    obtain ⟨hsettled, hunobserved⟩ := h.startDelegate hstarted
    have hposted := hsettled.postTask hunobserved delegateAction
    exact ⟨hposted.toSteady, Or.inr hposted⟩
  case h_4 outputs =>
    cases hhandled
    exact ⟨(h.mapState rfl).setAgentStateTo
      (safeState_of_ne (by decide) (by decide) (by decide)),
      Or.inl (keeps_setAgentStateTo (t.mapState _) _).delegate⟩
  case h_5 outputs =>
    cases hhandled
    exact ⟨(h.mapState rfl).setAgentStateTo
      (safeState_of_ne (by decide) (by decide) (by decide)),
      Or.inl (keeps_setAgentStateTo (t.mapState _) _).delegate⟩
  case h_6 option =>
    cases hhandled
    exact ⟨h.handleLoopRecoveryAction hsafe hbody,
      Or.inl (delegate_handleLoopRecoveryAction t answers option)⟩
  case h_7 =>
    cases hhandled
    exact ⟨h, Or.inl rfl⟩

/-- Appending to the history keeps the invariant. -/
theorem Steady.addHistory (h : t.Steady) (event : Event) :
    (t.mapState (StateTracker.addHistory · event)).Steady := by
  refine h.mapState ?_
  unfold StateTracker.addHistory
  split_ifs <;> rfl

/-- **Handling an event**: the controller keeps the invariant, and if it starts a delegate,
the delegate has it. -/
theorem Steady.handleEvent (h : t.Steady) {queue : List Event}
    (hqueue : t.bus.queue = event :: queue)
    (hsafe : (t.popped queue answers).SafeEvent answers event) :
    ((t.popped queue answers).handleEvent answers event).Steady ∧
      (t.self.delegate = none →
        ((t.popped queue answers).handleEvent answers event).Settled) := by
  unfold Turn.handleEvent
  extract_lets t₁ t₂ handled
  have h₁ : t₁.Steady := h.popped_observe hqueue answers
  have h₂ : t₂.Steady := h₁.addHistory event
  have hresult : ∀ t' : Turn, t'.Steady →
      (t'.self.delegate = t.self.delegate ∨ t'.Settled) →
      t'.Steady ∧ (t.self.delegate = none → t'.Settled) := by
    intro t' hsteady hdelegate
    refine ⟨hsteady, fun hnone => ?_⟩
    rcases hdelegate with hsame | hsettled
    · exact hsteady.settled_of_no_delegate (hsame.trans hnone)
    · exact hsettled
  by_cases hhidden : event.hidden = true
  · rw [if_pos hhidden]
    exact hresult t₁ h₁ (Or.inl rfl)
  · rw [if_neg hhidden]
    have hhandled : ∀ t₃, handled = some t₃ →
        t₃.Steady ∧ (t₃.self.delegate = t.self.delegate ∨ t₃.Settled) := by
      intro t₃ heq
      unfold handled at heq
      split at heq
      · rename_i action hbody
        have haction : event.isObservation = false := by
          rw [Event.isObservation, hbody]
        -- what is safe for the event before it is observed is safe afterwards
        have hsame : t₁ = t.popped queue answers := observe_of_action haction
        refine h₂.handleAction ?_ hbody heq
        unfold t₂
        rw [hsame]
        exact hsafe.addHistory haction
      · rename_i observation hbody
        have hobservation : event.isObservation = true := by
          rw [Event.isObservation, hbody]
        cases heq
        refine ⟨h₂.handleObservation ?_, Or.inl (keeps_handleObservation t₂ event).delegate⟩
        intro p hp hcause
        exact h.unobserved_eq_nil hqueue hobservation hp hcause
    clear_value handled
    cases handled with
    | none => exact hresult t₂ h₂ (Or.inl rfl)
    | some t₃ =>
      obtain ⟨h₃, hdelegate⟩ := hhandled t₃ rfl
      show (if _ then _ else _ : Turn).Steady ∧ (_ → (if _ then _ else _ : Turn).Settled)
      by_cases hstep : t₃.self.shouldStep event = true
      · rw [if_pos hstep]
        -- a controller with a delegate takes no step
        have hnone : t₃.self.delegate = none := by
          unfold AgentController.shouldStep at hstep
          rw [Bool.and_eq_true] at hstep
          exact Option.isNone_iff_eq_none.mp hstep.1
        have h₄ := h₃.stepWithExceptionHandling answers
        refine hresult _ h₄ (Or.inr (h₄.settled_of_no_delegate ?_))
        rw [(keeps_stepWithExceptionHandling t₃ answers).delegate]
        exact hnone
      · rw [if_neg hstep]
        exact hresult t₃ h₃ hdelegate

/-! ## Runs -/

/-- **Step lemma** for conversations. -/
theorem Settled.move (h : t.Settled) {l : Move} (hsafe : t.SafeMove l) : (t.move l).Settled := by
  cases l with
  | publish event source =>
    exact h.advance (EventBus.advances_receive t.bus (event, source))
      (h.wellFormed.receive (event, source))
  | deliver answers =>
    unfold Turn.move
    cases hqueue : t.bus.queue with
    | nil =>
      simp only
      exact h
    | cons event queue =>
      obtain ⟨hroot, hdelegate⟩ := hsafe event (by rw [hqueue]; rfl)
      rw [hqueue, List.tail_cons] at hroot hdelegate
      -- clearing the arrivals leaves the queue and the log as they are
      suffices hsettled : ((t.popped queue answers).onEvent answers event).Settled from
        hsettled.advance ⟨fun _ he => he, le_refl _⟩
          ⟨hsettled.wellFormed.sorted, hsettled.wellFormed.lt_curId,
            hsettled.wellFormed.cause_lt⟩
      unfold Turn.onEvent
      cases hd : t.self.delegate with
      | none =>
        have hd' : (t.popped queue answers).self.delegate = none := hd
        simp only [hd']
        exact (h.toSteady.handleEvent hqueue (hroot (by rw [hd]; rfl))).2 hd
      | some d =>
        obtain ⟨hmisses, hactive⟩ := hdelegate d hd
        have hd' : (t.popped queue answers).self.delegate = some d := hd
        have hpopped := h.toSteady.popped hqueue hmisses answers
        have hsteady : Steady ⟨d, t.bus⟩ := h.delegate d hd
        simp only [hd']
        split_ifs with hdone
        · -- the delegate is ended, whatever the event is
          refine hpopped.endDelegate ?_
          intro d' hd''
          rw [hd', Option.mem_some_iff] at hd''
          subst hd''
          exact ⟨hpopped.wellFormed, hsteady.pending_lt, hsteady.pending_cause, hsteady.calls⟩
        · refine hpopped.onDelegate ?_
          intro d' hd''
          rw [hd', Option.mem_some_iff] at hd''
          subst hd''
          exact ⟨(hsteady.handleEvent hqueue (hactive (by simpa using hdone))).1,
            advances_handleEvent ⟨d, _⟩ answers event⟩

/-- A conversation begins with the invariant. -/
theorem settled_start (options : ControllerOptions) (initialState : Option State)
    (log : EventLog) : (start options initialState log).Settled := by
  obtain ⟨hsteady, -, hdelegate⟩ :=
    steady_create options initialState { log := log } ⟨.nil, by simp, by simp⟩
  exact hsteady.settled_of_no_delegate hdelegate

/-- The invariant gives the property. -/
theorem Settled.oneOutstanding (h : t.Settled) : t.OneOutstanding :=
  ⟨⟨h.calls, h.length_le⟩, fun d hd => ⟨(h.delegate d hd).calls, (h.delegate d hd).length_le⟩⟩

end Turn

/-- **At most one outstanding action**: in a conversation whose moves are all safe, at every
moment the agent has only been called with nothing outstanding, and at most one runnable
action is without its observation. -/
theorem oneOutstanding_of_safeMoves (options : ControllerOptions) (initialState : Option State)
    (log : EventLog) (moves : List Move)
    (hsafe : ∀ p ∈ Run.steps Turn.move (.start options initialState log) moves,
      p.1.SafeMove p.2) :
    (∀ p ∈ Run.steps Turn.move (.start options initialState log) moves, p.1.OneOutstanding) ∧
      (Run.run Turn.move (.start options initialState log) moves).OneOutstanding := by
  have hstep (t : Turn) (l : Move) (h : t.Settled) (hl : t.SafeMove l) : (t.move l).Settled :=
    h.move hl
  have hstart := Turn.settled_start options initialState log
  constructor
  · intro p hp
    exact (Run.forall_steps_of_invariant hstep hstart hsafe p hp).oneOutstanding
  · exact (Run.run_invariant hstep hstart hsafe).oneOutstanding

/-- The options of a plain agent. -/
def codeActOptions : ControllerOptions :=
  { agent := { name := "CodeActAgent" }, initialMaxIterations := 100 }

/-- The agent runs a command when it is called. -/
def runsCommand (input : String) : Answers :=
  { agentStep := .ok (some (.run { cls := .cmdRun false, input := input }, none)) }

/-- An observation of the memory or the runtime. -/
def observationOf (cause : ℤ) (content : String) (cls : ObservationClass) : Move :=
  .publish { Event.ofObservation content cls with cause := some cause } .environment

/-- The agent runs a command and, when the command is done, another one. -/
def twoCommands : List Move :=
  [.publish (.ofAction (.message { content := "list the files" })) .user,
    .deliver {}, .deliver {}, .deliver {},
    observationOf 1 "" (.recall .workspaceContext), .deliver (runsCommand "ls"),
    .deliver {}, observationOf 4 "README.md" (.cmdOutput "ls" false),
    .deliver (runsCommand "cat README.md")]

/-- Every move of this run is safe, and the agent is called twice. -/
theorem oneOutstanding_twoCommands :
    (Run.run Turn.move (.start codeActOptions none .empty) twoCommands).self.agentCalls
      = [[], []] ∧
    (Run.run Turn.move (.start codeActOptions none .empty) twoCommands).OneOutstanding :=
  ⟨by decide, (oneOutstanding_of_safeMoves codeActOptions none .empty twoCommands
    (by decide)).2⟩

/-- The user sends a message while the first command runs, and the memory answers the
recall before the runtime answers the command. -/
def messageDuringCommand : List Move :=
  [.publish (.ofAction (.message { content := "list the files" })) .user,
    .deliver {}, .deliver {}, .deliver {},
    observationOf 1 "" (.recall .workspaceContext), .deliver (runsCommand "ls -R /"),
    .publish (.ofAction (.message { content := "only the names" })) .user,
    .deliver {}, .deliver {}, .deliver {},
    observationOf 6 "" (.recall .knowledge), .deliver (runsCommand "ls")]

/-- The recall action takes the slot of the command, its observation clears the slot, and
the agent is called while the command (event 4) has no observation; then two commands are
without one. -/
theorem messageDuringCommand_calls_agent :
    (Run.run Turn.move (.start codeActOptions none .empty) messageDuringCommand).self.agentCalls
      = [[], [4]] ∧
    (Run.run Turn.move (.start codeActOptions none .empty) messageDuringCommand).self.unobserved
      = [4, 8] ∧
    ¬ (Run.run Turn.move (.start codeActOptions none .empty) messageDuringCommand).OneOutstanding := by
  decide

end OpenHands
