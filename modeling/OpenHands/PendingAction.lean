/-
# At most one runnable action is outstanding

A controller remembers one pending action, and `_step` does not call the agent while there
is one.  The slot is written by the steps of the agent, by user messages (which put a
recall action there), by confirmations and by resets, and cleared by observations, so a
free slot does not always mean that every runnable action has its observation.

`Tracked` is the invariant that makes it mean that: a runnable action without its
observation is the pending action, or its observation is in the queue before the pending
action.  Four kinds of deliveries break it (`SafeMove` names them); the main result says
that in a run without them the agent is only called when nothing is outstanding.
-/
import OpenHands.Lib.Run
import OpenHands.TurnFrame

namespace OpenHands

/-! ## The property -/

/-- At every call of the agent every runnable action had its observation, and now at most
one runnable action is without. -/
def AgentController.OneOutstanding (c : AgentController) : Prop :=
  (∀ call ∈ c.agentCalls, call = []) ∧ c.unobserved.length ≤ 1

instance (c : AgentController) : Decidable c.OneOutstanding :=
  inferInstanceAs (Decidable (_ ∧ _))

/-- The property for the root controller and its delegate.  The calls of a delegate that
has ended are among those of its parent. -/
def Turn.OneOutstanding (t : Turn) : Prop :=
  t.self.OneOutstanding ∧ ∀ d ∈ t.self.delegate, d.OneOutstanding

instance (t : Turn) : Decidable t.OneOutstanding :=
  inferInstanceAs (Decidable (_ ∧ ∀ d ∈ t.self.delegate, _))

/-! ## The deliveries that break it -/

/-- An observation of the action with this id is in the queue. -/
def EventBus.OnItsWay (bus : EventBus) (id : ℤ) : Prop :=
  ∃ e ∈ bus.queue, e.isObservation = true ∧ e.cause = some id

instance (bus : EventBus) (id : ℤ) : Decidable (bus.OnItsWay id) :=
  inferInstanceAs (Decidable (∃ e ∈ bus.queue, _))

namespace Turn

/-- The pending action is a runnable action whose observation is still to come. -/
def PendingOutstanding (t : Turn) : Prop :=
  ∃ p ∈ t.self.pendingAction, p.id ∈ t.self.unobserved ∧ ¬ t.bus.OnItsWay p.id

instance (t : Turn) : Decidable t.PendingOutstanding :=
  inferInstanceAs (Decidable (∃ p ∈ t.self.pendingAction, _))

/-- `_reset` gives no observation to an outstanding action. -/
def ResetForgets (t : Turn) : Prop :=
  t.PendingOutstanding ∧ ∃ p ∈ t.self.pendingAction, t.self.foundObservation p = true

instance (t : Turn) : Decidable t.ResetForgets :=
  inferInstanceAs (Decidable (_ ∧ ∃ p ∈ t.self.pendingAction, _))

/-- Setting the agent to the state loses no outstanding action: a reset does not forget
it, and the agent is set running with a free slot only when nothing is outstanding. -/
def SafeState (t : Turn) (newState : AgentState) : Prop :=
  newState ≠ t.self.state.agentState →
    (newState = .stopped ∨ newState = .error → ¬ t.ResetForgets) ∧
    (newState = .running → t.self.pendingAction.isNone = true → t.self.unobserved = [])

instance (t : Turn) (newState : AgentState) : Decidable (t.SafeState newState) :=
  inferInstanceAs (Decidable (_ → _ ∧ _))

end Turn

/-- The state that a `ChangeAgentStateAction` asks for. -/
def Event.changedState? (e : Event) : Option AgentState :=
  match e.body with
  | .action (.changeAgentState agentState) => some agentState
  | _ => none

/-- The option of a `LoopRecoveryAction`. -/
def Event.loopRecovery? (e : Event) : Option ℤ :=
  match e.body with
  | .action (.loopRecovery option) => some option
  | _ => none

/-- A loop recovery is no message of the user. -/
theorem Event.userMessage?_of_loopRecovery {e : Event} {option : ℤ}
    (h : e.loopRecovery? = some option) : e.userMessage? = none := by
  unfold Event.loopRecovery? at h
  unfold Event.userMessage?
  split at h
  · rename_i hbody
    rw [hbody]
  · cases h

namespace Turn

/-- The controller can handle the event without losing an outstanding action: neither a
user message nor a restart takes the slot of an outstanding action, and the state is set
safely. -/
def SafeEvent (t : Turn) (answers : Answers) (event : Event) : Prop :=
  (event.isUserMessage = true → ¬ t.PendingOutstanding) ∧
  (∀ agentState ∈ event.changedState?, t.SafeState agentState) ∧
  (∀ option ∈ event.loopRecovery?, answers.stuckAnalysis.isSome = true →
    (option = 2 → t.lastUserMessage.isSome = true → ¬ t.PendingOutstanding) ∧
    (option = 3 → t.SafeState .stopped))

instance (t : Turn) (answers : Answers) (event : Event) :
    Decidable (t.SafeEvent answers event) :=
  inferInstanceAs (Decidable (_ ∧ (∀ agentState ∈ event.changedState?, _) ∧
    (∀ option ∈ event.loopRecovery?, _ → _ ∧ _)))

/-- An event that the parent does not get answers none of its outstanding actions, except
the pending one. -/
def MissesNoAnswer (t : Turn) (event : Event) : Prop :=
  event.isObservation = true → ∀ id ∈ t.self.unobserved, event.cause = some id →
    ∃ p ∈ t.self.pendingAction, p.id = id

instance (t : Turn) (event : Event) : Decidable (t.MissesNoAnswer event) :=
  inferInstanceAs (Decidable (_ → ∀ id ∈ t.self.unobserved, _ →
    ∃ p ∈ t.self.pendingAction, _))

/-- **The condition on a move**: the controller that gets the event can handle it safely,
and the parent of an active delegate misses no answer. -/
def SafeMove (t : Turn) : Move → Prop
  | .publish _ _ => True
  | .deliver answers => ∀ event ∈ t.bus.queue.head?,
      (t.self.delegate.isNone = true →
        (t.popped t.bus.queue.tail answers).SafeEvent answers event) ∧
      ∀ d ∈ t.self.delegate, t.MissesNoAnswer event ∧
        (d.isDone = false → (popped ⟨d, t.bus⟩ t.bus.queue.tail answers).SafeEvent answers event)

instance (t : Turn) (l : Move) : Decidable (t.SafeMove l) :=
  match l with
  | .publish _ _ => inferInstanceAs (Decidable True)
  | .deliver _ => inferInstanceAs (Decidable (∀ event ∈ t.bus.queue.head?, _ ∧
      ∀ d ∈ t.self.delegate, _ ∧ (_ → _)))

/-! ## The invariant -/

/-- The queue is in order, the pending action is on the stream, and the agent was called
only with nothing outstanding. -/
structure Orderly (t : Turn) : Prop where
  wellFormed : t.bus.WellFormed
  pending_lt : ∀ p ∈ t.self.pendingAction, p.id < t.bus.log.curId
  pending_cause : ∀ p ∈ t.self.pendingAction, p.cause = none
  calls : ∀ call ∈ t.self.agentCalls, call = []

/-- **The invariant of a controller**: an outstanding action is the pending action, or its
observation comes before those of the pending action. -/
structure Tracked (t : Turn) : Prop extends Orderly t where
  answered : ∀ i ∈ t.self.unobserved, (∃ p ∈ t.self.pendingAction, p.id = i) ∨
    ∃ e ∈ t.bus.queue, (e.isObservation = true ∧ e.cause = some i) ∧
      ∀ p ∈ t.self.pendingAction, e.id < p.id
  of_runnable : ∀ p ∈ t.self.pendingAction, p.runnable = true →
    ∀ i ∈ t.self.unobserved, i = p.id
  length_le : t.self.unobserved.length ≤ 1

/-- A running agent with a free slot has nothing outstanding. -/
def Ready (t : Turn) : Prop :=
  t.self.state.agentState = .running → t.self.pendingAction = none → t.self.unobserved = []

variable {t t' : Turn}

/-- Events are added to the bus. -/
theorem Orderly.advance (h : t.Orderly) (hp : t'.self.pendingAction = t.self.pendingAction)
    (hc : t'.self.agentCalls = t.self.agentCalls) (hadvances : t.bus.Advances t'.bus)
    (hwellFormed : t'.bus.WellFormed) : t'.Orderly where
  wellFormed := hwellFormed
  pending_lt := by
    intro p hmem
    rw [hp] at hmem
    exact lt_of_lt_of_le (h.pending_lt p hmem) hadvances.curId_le
  pending_cause := by
    rw [hp]
    exact h.pending_cause
  calls := by
    rw [hc]
    exact h.calls

theorem Tracked.advance (h : t.Tracked) (hp : t'.self.pendingAction = t.self.pendingAction)
    (hu : t'.self.unobserved = t.self.unobserved)
    (hc : t'.self.agentCalls = t.self.agentCalls) (hadvances : t.bus.Advances t'.bus)
    (hwellFormed : t'.bus.WellFormed) : t'.Tracked where
  toOrderly := h.toOrderly.advance hp hc hadvances hwellFormed
  answered := by
    intro i hi
    rw [hu] at hi
    rw [hp]
    rcases h.answered i hi with hpending | ⟨e, he, hanswer⟩
    · exact Or.inl hpending
    · exact Or.inr ⟨e, hadvances.mem_queue e he, hanswer⟩
  of_runnable := by
    rw [hp, hu]
    exact h.of_runnable
  length_le := by
    rw [hu]
    exact h.length_le

/-- A controller without a pending or outstanding action. -/
theorem tracked_of_idle (hwellFormed : t.bus.WellFormed) (hp : t.self.pendingAction = none)
    (hu : t.self.unobserved = []) (hc : ∀ call ∈ t.self.agentCalls, call = []) :
    t.Tracked where
  wellFormed := hwellFormed
  pending_lt := by simp [hp]
  pending_cause := by simp [hp]
  calls := hc
  answered := by simp [hu]
  of_runnable := by simp [hp]
  length_le := by simp [hu]

theorem Orderly.mapState (h : t.Orderly) (f : State → State) : (t.mapState f).Orderly :=
  h.advance rfl rfl (.refl t.bus) h.wellFormed

theorem Tracked.mapState (h : t.Tracked) (f : State → State) : (t.mapState f).Tracked :=
  h.advance rfl rfl rfl (.refl t.bus) h.wellFormed

theorem Orderly.addEvent (h : t.Orderly) {event : Event}
    (hcause : ∀ i ∈ event.cause, i < t.bus.log.curId) (source : EventSource) :
    (t.addEvent event source).Orderly :=
  h.advance rfl rfl (EventBus.advances_addEvent t.bus event source)
    (h.wellFormed.addEvent hcause source)

theorem Tracked.addEvent (h : t.Tracked) {event : Event}
    (hcause : ∀ i ∈ event.cause, i < t.bus.log.curId) (source : EventSource) :
    (t.addEvent event source).Tracked :=
  h.advance rfl rfl rfl (EventBus.advances_addEvent t.bus event source)
    (h.wellFormed.addEvent hcause source)

/-- An action that is outstanding after events were added was so before. -/
theorem PendingOutstanding.of_advances (h : t'.PendingOutstanding)
    (hp : t'.self.pendingAction = t.self.pendingAction)
    (hu : t'.self.unobserved = t.self.unobserved) (hadvances : t.bus.Advances t'.bus) :
    t.PendingOutstanding := by
  obtain ⟨p, hmem, hunobserved, hout⟩ := h
  rw [hp] at hmem
  rw [hu] at hunobserved
  refine ⟨p, hmem, hunobserved, ?_⟩
  rintro ⟨e, he, hanswer⟩
  exact hout ⟨e, hadvances.mem_queue e he, hanswer⟩

/-- If the pending action is not outstanding, the observations of all outstanding actions
are on their way. -/
theorem Tracked.onItsWay (h : t.Tracked) (hout : ¬ t.PendingOutstanding) {i : ℤ}
    (hi : i ∈ t.self.unobserved) : t.bus.OnItsWay i := by
  rcases h.answered i hi with ⟨p, hmem, rfl⟩ | ⟨e, he, hanswer, -⟩
  · by_contra hway
    exact hout ⟨p, hmem, hi, hway⟩
  · exact ⟨e, he, hanswer⟩

/-! ## Writing the slot -/

/-- The slot is cleared. -/
theorem Orderly.clearPending (h : t.Orderly) :
    (t.mapSelf fun c => { c with pendingAction := none }).Orderly :=
  ⟨h.wellFormed, by simp [mapSelf], by simp [mapSelf], h.calls⟩

theorem Tracked.clearPending (h : t.Tracked)
    (hway : ∀ i ∈ t.self.unobserved, t.bus.OnItsWay i) :
    (t.mapSelf fun c => { c with pendingAction := none }).Tracked where
  toOrderly := h.toOrderly.clearPending
  answered := by
    intro i hi
    obtain ⟨e, he, hanswer⟩ := hway i hi
    exact Or.inr ⟨e, he, hanswer, by simp [mapSelf]⟩
  of_runnable := by simp [mapSelf]
  length_le := h.length_le

/-- An action is put on the stream and into the slot. -/
theorem Orderly.putPending (h : t.Orderly) {event : Event} {source : EventSource}
    (hcause : event.cause = none) (hbus : t'.bus = (t.bus.addEvent event source).1)
    (hp : t'.self.pendingAction = some (t.bus.addEvent event source).2)
    (hc : t'.self.agentCalls = t.self.agentCalls) : t'.Orderly where
  wellFormed := by
    rw [hbus]
    exact h.wellFormed.addEvent (by simp [hcause]) source
  pending_lt := by
    rw [hp, hbus]
    intro p hmem
    rw [← Option.mem_some_iff.mp hmem]
    exact (EventBus.id_addEvent t.bus event source).2
  pending_cause := by
    rw [hp]
    intro p hmem
    rw [← Option.mem_some_iff.mp hmem]
    exact hcause
  calls := by
    rw [hc]
    exact h.calls

/-- **The slot is taken** by an action that was just put on the stream.  The actions that
stay outstanding (`rest`) have their observations in the queue, before those of the new
action. -/
theorem Tracked.putPending (h : t.Orderly) (event : Event) (source : EventSource)
    (rest new : List ℤ) (hcause : event.cause = none) (hbus : t'.bus = (t.bus.addEvent event source).1)
    (hp : t'.self.pendingAction = some (t.bus.addEvent event source).2)
    (hc : t'.self.agentCalls = t.self.agentCalls) (hu : t'.self.unobserved = rest ++ new)
    (hrest : ∀ i ∈ rest, t.bus.OnItsWay i)
    (hnew : ∀ i ∈ new, i = (t.bus.addEvent event source).2.id)
    (hrunnable : event.runnable = true → rest = []) (hlength : (rest ++ new).length ≤ 1) :
    t'.Tracked where
  toOrderly := h.putPending hcause hbus hp hc
  answered := by
    intro i hi
    rw [hu] at hi
    rw [hp]
    rcases List.mem_append.mp hi with hi | hi
    · obtain ⟨e, he, hanswer⟩ := hrest i hi
      -- what is in the queue already has a smaller id than the new action
      refine Or.inr ⟨e, ?_, hanswer, ?_⟩
      · rw [hbus]
        exact (EventBus.advances_addEvent t.bus event source).mem_queue e he
      · intro p hmem
        rw [← Option.mem_some_iff.mp hmem]
        exact lt_of_lt_of_le (h.wellFormed.lt_curId e he)
          (EventBus.id_addEvent t.bus event source).1
    · exact Or.inl ⟨_, rfl, (hnew i hi).symm⟩
  of_runnable := by
    intro p hmem hrun i hi
    rw [hp, Option.mem_some_iff] at hmem
    subst hmem
    rw [hu, hrunnable hrun, List.nil_append] at hi
    exact hnew i hi
  length_le := by
    rw [hu]
    exact hlength

/-! ## Setting the agent state -/

/-- **What a reset does**: without a pending action, or with an observation of its tool
call in the history, it clears the slot; otherwise it emits an observation of the pending
action first. -/
theorem reset_cases (t : Turn) :
    ((∀ p ∈ t.self.pendingAction, t.self.foundObservation p = true) ∧
      t.reset = t.mapSelf fun c => { c with pendingAction := none }) ∨
    ∃ p, t.self.pendingAction = some p ∧
      t.reset = (t.addEvent (actionNotExecuted t.self.state.agentState p) .agent).mapSelf
        fun c => { c with pendingAction := none } := by
  unfold reset
  cases hp : t.self.pendingAction with
  | none => exact Or.inl ⟨by simp, rfl⟩
  | some p =>
    by_cases hfound : t.self.foundObservation p = true
    · refine Or.inl ⟨?_, by simp [hfound]⟩
      intro p' hp'
      rw [← Option.mem_some_iff.mp hp']
      exact hfound
    · exact Or.inr ⟨p, rfl, by simp [hfound]⟩

/-- The observation of a reset answers an event of the stream. -/
theorem Orderly.cause_actionNotExecuted (h : t.Orderly) {p : Event}
    (hp : t.self.pendingAction = some p) (agentState : AgentState) :
    ∀ i ∈ (actionNotExecuted agentState p).cause, i < t.bus.log.curId := by
  intro i hi
  rw [← Option.mem_some_iff.mp hi]
  exact h.pending_lt p hp

theorem Orderly.reset (h : t.Orderly) : t.reset.Orderly := by
  rcases reset_cases t with ⟨-, heq⟩ | ⟨p, hp, heq⟩
  · rw [heq]
    exact h.clearPending
  · rw [heq]
    exact (h.addEvent (h.cause_actionNotExecuted hp _) .agent).clearPending

/-- A reset that forgets nothing: the observation it emits is the one that is missing. -/
theorem Tracked.reset (h : t.Tracked) (hsafe : ¬ t.ResetForgets) : t.reset.Tracked := by
  rcases reset_cases t with ⟨hfound, heq⟩ | ⟨p, hp, heq⟩
  · rw [heq]
    refine h.clearPending fun i hi => h.onItsWay ?_ hi
    rintro ⟨p, hp, hout⟩
    exact hsafe ⟨⟨p, hp, hout⟩, p, hp, hfound p hp⟩
  · -- the observation of the reset is itself on its way now
    rw [heq]
    refine (h.addEvent (h.cause_actionNotExecuted hp _) .agent).clearPending ?_
    intro i hi
    rcases h.answered i hi with ⟨p', hp', rfl⟩ | ⟨e, he, hanswer, -⟩
    · rw [hp, Option.mem_some_iff] at hp'
      subst hp'
      exact ⟨_, EventBus.mem_queue_addEvent t.bus _ .agent, rfl, rfl⟩
    · exact ⟨e, (EventBus.advances_addEvent t.bus _ .agent).mem_queue e he, hanswer⟩

/-- The copy of the pending action is of its class and answers nothing either. -/
theorem answered_eq (p : Event) (status : ActionConfirmationStatus) :
    (p.answered status).runnable = p.runnable ∧ (p.answered status).cause = p.cause := by
  unfold Event.answered
  split
  · rename_i a hbody
    exact ⟨by simp [Event.runnable, hbody], rfl⟩
  · rename_i r hbody
    exact ⟨by simp [Event.runnable, hbody], rfl⟩
  · exact ⟨rfl, rfl⟩

theorem Orderly.emitAnswered (h : t.Orderly) (status : ActionConfirmationStatus) :
    (t.emitAnswered status).Orderly := by
  unfold Turn.emitAnswered
  split
  · exact h
  · rename_i p hp
    have hcause : (p.answered status).cause = none := by
      rw [(answered_eq p status).2]
      exact h.pending_cause p hp
    exact h.putPending hcause rfl rfl rfl

/-- Only one action is outstanding, so no id is listed twice. -/
theorem Tracked.nodup_unobserved (h : t.Tracked) : t.self.unobserved.Nodup := by
  have hle := h.length_le
  cases hu : t.self.unobserved with
  | nil => exact List.nodup_nil
  | cons i is =>
    rw [hu, List.length_cons] at hle
    have his : is = [] := List.length_eq_zero_iff.mp (by omega)
    rw [his]
    exact List.nodup_singleton i

/-- The copy of a runnable action is outstanding in its place. -/
theorem Tracked.emitAnswered (h : t.Tracked) (status : ActionConfirmationStatus) :
    (t.emitAnswered status).Tracked := by
  unfold Turn.emitAnswered
  split
  · exact h
  · rename_i p hp
    obtain ⟨hrunnable, hcause⟩ := answered_eq p status
    rw [h.pending_cause p hp] at hcause
    have herase : ∀ i ∈ t.self.unobserved.erase p.id, i ≠ p.id ∧ i ∈ t.self.unobserved :=
      fun i hi => h.nodup_unobserved.mem_erase_iff.mp hi
    -- beside a runnable action nothing is outstanding
    have hnil : p.runnable = true → t.self.unobserved.erase p.id = [] := by
      intro hrun
      rw [List.eq_nil_iff_forall_not_mem]
      intro i hi
      obtain ⟨hne, hmem⟩ := herase i hi
      exact hne (h.of_runnable p hp hrun i hmem)
    refine Tracked.putPending h.toOrderly _ .agent _ _ hcause rfl rfl rfl rfl ?_ ?_ ?_ ?_
    · intro i hi
      obtain ⟨hne, hmem⟩ := herase i hi
      rcases h.answered i hmem with ⟨p', hp', rfl⟩ | ⟨e, he, hanswer, -⟩
      · rw [hp, Option.mem_some_iff] at hp'
        exact absurd (congrArg Event.id hp'.symm) hne
      · exact ⟨e, he, hanswer⟩
    · intro i hi
      split_ifs at hi
      · exact List.mem_singleton.mp hi
      · cases hi
    · rw [hrunnable]
      exact hnil
    · by_cases hrun : p.runnable = true
      · rw [hnil hrun, if_pos hrun]
        exact le_refl 1
      · rw [if_neg hrun, List.append_nil]
        exact le_trans List.length_erase_le h.length_le

/-- The controller stays in order in every state, safe or not. -/
theorem Orderly.setAgentStateTo (h : t.Orderly) (newState : AgentState) :
    (t.setAgentStateTo newState).Orderly := by
  unfold Turn.setAgentStateTo
  by_cases hsame : newState = t.self.state.agentState
  · rw [if_pos hsame]
    exact h
  · rw [if_neg hsame]
    extract_lets oldState t₁ t₂ t₃ t₄ reason
    have h₁ : t₁.Orderly := h.mapState _
    have h₂ : t₂.Orderly := by
      unfold t₂
      split_ifs
      · exact h₁.reset
      · exact h₁
    have h₃ : t₃.Orderly := by
      unfold t₃
      split_ifs
      · exact h₂.mapState _
      · exact h₂
    have h₄ : t₄.Orderly := by
      unfold t₄
      split
      · exact h₃.emitAnswered _
      · exact h₃
    exact h₄.addEvent (by simp [Event.ofObservation]) .environment

/-- **A safe change of state** loses no outstanding action. -/
theorem Tracked.setAgentStateTo (h : t.Tracked) {newState : AgentState}
    (hsafe : newState ≠ t.self.state.agentState →
      newState = .stopped ∨ newState = .error → ¬ t.ResetForgets) :
    (t.setAgentStateTo newState).Tracked := by
  unfold Turn.setAgentStateTo
  by_cases hsame : newState = t.self.state.agentState
  · rw [if_pos hsame]
    exact h
  · rw [if_neg hsame]
    extract_lets oldState t₁ t₂ t₃ t₄ reason
    have h₁ : t₁.Tracked := h.mapState _
    have h₂ : t₂.Tracked := by
      unfold t₂
      split_ifs with hreset
      · exact h₁.reset (hsafe hsame hreset)
      · exact h₁
    have h₃ : t₃.Tracked := by
      unfold t₃
      split_ifs
      · exact h₂.mapState _
      · exact h₂
    have h₄ : t₄.Tracked := by
      unfold t₄
      split
      · exact h₃.emitAnswered _
      · exact h₃
    exact h₄.addEvent (by simp [Event.ofObservation]) .environment

/-- An agent that is not running need not be ready. -/
theorem ready_of_not_running (h : t.self.state.agentState ≠ .running) : t.Ready :=
  fun hrunning => absurd hrunning h

/-- An agent with nothing outstanding is ready. -/
theorem ready_of_unobserved (h : t.self.unobserved = []) : t.Ready :=
  fun _ _ => h

theorem ready_of_pending {p : Event} (h : t.self.pendingAction = some p) : t.Ready := by
  intro _ hnone
  rw [h] at hnone
  cases hnone

/-- After a safe change of state the agent is ready. -/
theorem Ready.setAgentStateTo (h : t.Ready) {newState : AgentState}
    (hsafe : newState ≠ t.self.state.agentState → newState = .running →
      t.self.pendingAction.isNone = true → t.self.unobserved = []) :
    (t.setAgentStateTo newState).Ready := by
  by_cases hsame : newState = t.self.state.agentState
  · rw [Turn.setAgentStateTo, if_pos hsame]
    exact h
  · by_cases hrunning : newState = .running
    · subst hrunning
      obtain ⟨hpending, hunobserved⟩ := slot_setAgentStateTo t .running (by decide) rfl
      intro _ hnone
      rw [hpending] at hnone
      rw [hunobserved]
      exact hsafe hsame rfl (Option.isNone_iff_eq_none.mpr hnone)
    · apply ready_of_not_running
      rw [agentState_setAgentStateTo]
      exact hrunning

end Turn

end OpenHands
