/-
# Sessions that replay a trajectory

`AgentSession._run_replay` with the rest of `start`: the controller gets the events of the
trajectory but the first, which is put on the new stream as the message of the user.

A message of the user makes the controller put a recall action on the stream, with the source of
the message.  In a trajectory these recall actions are no events of the environment, so the
manager replays them, and the messages that it replays make the controller add new ones.

  * `not_replaysFaithfully` — when a replay has come to rest, the actions on the new stream are
    never the recorded ones: there is at least one more.
-/
import OpenHands.RecordedTurns

namespace OpenHands

/-! ## Starting a replay -/

/-- `AgentSession._run_replay`: the controller, and the message that the session begins with. -/
def runReplay (initialMessage : Option MessageAction) (options : ControllerOptions)
    (trajectory : List Event) : Except PyError (ReplayTurn × Event) :=
  if initialMessage.isSome then .error .assertionError
  else
    let replayEvents := ReplayManager.getReplayEvents trajectory
    let r := ReplayTurn.start { options with headlessMode := false } none .empty replayEvents.tail
    match replayEvents with
    | [] => .error .indexError
    | first :: _ =>
      match first.body with
      | .action (.message _) => .ok (r, first)
      | _ => .error .assertionError

/-- The replay branch of `AgentSession.start`, on a new stream. -/
def startReplay (options : ControllerOptions) (trajectory : List Event) :
    Except PyError ReplayTurn :=
  (runReplay none options trajectory).map fun (r, initialMessage) =>
    r.mapTurn fun t =>
      (t.addEvent initialMessage .user).addEvent (.ofAction (.changeAgentState .running))
        .environment

/-- A trajectory whose first event is not a message is not replayed; a controller whose agent has
a system message begins its stream with it. -/
theorem startReplay_of_first {options : ControllerOptions} {trajectory rest : List Event}
    {first : Event} (hevents : ReplayManager.getReplayEvents trajectory = first :: rest)
    (hfirst : first.isSystemMessage = true) :
    startReplay options trajectory = .error .assertionError := by
  unfold startReplay runReplay
  simp only [Option.isSome_none, Bool.false_eq_true, if_false, hevents]
  unfold Event.isSystemMessage at hfirst
  split at hfirst
  · rename_i content hbody
    rw [hbody]
    rfl
  · cases hfirst

/-- `get_trajectory` of the server: the events of the stream that are not hidden. -/
def getTrajectory (log : EventLog) : List Event := log.events.filter fun e => !e.hidden

/-! ## The actions of a stream -/

/-- An action that is not from the environment. -/
def Event.isOwnAction (e : Event) : Bool := e.action?.isSome && e.source ≠ some .environment

/-- The event up to its id and its timestamp. -/
def Event.anonymous (e : Event) : Event := { e with id := invalidId, timestamp := none }

/-- The actions of user and agent in a list of events, up to ids and timestamps. -/
def ownActions (events : List Event) : List Event :=
  (events.filter Event.isOwnAction).map Event.anonymous

namespace ReplayTurn

/-- The stream and the manager at the first call of `agent.step`, or now if the agent has not
been called. -/
def replayed (r : ReplayTurn) : EventLog × ReplayManager :=
  r.firstCall.getD (r.turn.bus.log, r.replayManager)

/-- **The property of a replay**: when the agent is called, all recorded actions have been issued
and the actions on the stream are the recorded ones. -/
structure Replays (r : ReplayTurn) (trajectory : List Event) : Prop where
  issued : r.replayed.2.next.1 = none
  actions : ownActions r.replayed.1.events = ownActions trajectory

end ReplayTurn

/-- The replay starts, and the moves replay the trajectory. -/
def ReplaysFaithfully (options : ControllerOptions) (trajectory : List Event)
    (moves : List Move) : Prop :=
  ∃ r, startReplay options trajectory = .ok r ∧
    (Run.run ReplayTurn.move r moves).Replays trajectory

/-! ## What is counted -/

/-- An action of user or agent that is put on the stream when it is issued. -/
def Event.countable (e : Event) : Bool :=
  e.isOwnAction && e.source.isSome && e.body ≠ .action .null

theorem countable_anonymous (e : Event) : e.anonymous.countable = e.countable := rfl

theorem countP_ownActions (events : List Event) :
    (ownActions events).countP Event.countable = events.countP Event.countable := by
  unfold ownActions
  rw [List.countP_map, List.countP_filter]
  apply List.countP_congr
  intro e _
  show (e.anonymous.countable && e.isOwnAction) = true ↔ _
  rw [countable_anonymous, Event.countable]
  cases e.isOwnAction <;> simp

theorem isSome_of_countable {e : Event} (h : e.countable = true) : e.action?.isSome = true := by
  unfold Event.countable Event.isOwnAction at h
  simp only [Bool.and_eq_true] at h
  exact h.1.1.1

namespace ReplayManager

variable {m : ReplayManager}

/-- The part of the trajectory that the index has passed. -/
def passed (m : ReplayManager) : List Event := m.replayEvents.take m.replayIndex

/-- The loop of `should_replay` passes no action, and stops at one unless there is none. -/
theorem takeWhile_spec (events : List Event) :
    (∀ e ∈ events.takeWhile (·.action?.isNone), e.action? = none) ∧
      ((∀ e ∈ events, e.action? = none) ∨
        ∃ e a, events[(events.takeWhile (·.action?.isNone)).length]? = some e ∧
          e.action? = some a) := by
  induction events with
  | nil => simp
  | cons e events ih =>
      cases haction : e.action? with
      | none =>
          have hnone : e.action?.isNone = true := by
            rw [haction]
            rfl
          have htakes : (e :: events).takeWhile (·.action?.isNone)
              = e :: events.takeWhile (·.action?.isNone) := List.takeWhile_cons_of_pos hnone
          rw [htakes]
          refine ⟨?_, ?_⟩
          · rw [List.forall_mem_cons]
            exact ⟨haction, ih.1⟩
          · rw [List.forall_mem_cons, List.length_cons, List.getElem?_cons_succ]
            exact ih.2.imp_left fun h => ⟨haction, h⟩
      | some a =>
          have hsome : ¬ e.action?.isNone = true := by
            rw [haction]
            simp
          have hstops : (e :: events).takeWhile (·.action?.isNone) = [] :=
            List.takeWhile_cons_of_neg hsome
          rw [hstops]
          exact ⟨by simp, Or.inr ⟨e, a, rfl, haction⟩⟩

/-- Events that are no actions are not counted. -/
theorem countP_of_forall_none {events : List Event} (h : ∀ e ∈ events, e.action? = none) :
    events.countP Event.countable = 0 := by
  rw [List.countP_eq_zero]
  intro e he hcountable
  have hsome := isSome_of_countable hcountable
  rw [h e he] at hsome
  cases hsome

theorem passed_skip (m : ReplayManager) :
    m.skip.passed = m.passed
      ++ (m.replayEvents.drop m.replayIndex).takeWhile (·.action?.isNone) := by
  show m.replayEvents.take (m.replayIndex + _) = _
  rw [List.take_add]
  congr 1
  exact (List.prefix_iff_eq_take.mp (List.takeWhile_prefix _)).symm

theorem countP_passed_skip (m : ReplayManager) :
    m.skip.passed.countP Event.countable = m.passed.countP Event.countable := by
  rw [passed_skip, List.countP_append, countP_of_forall_none (takeWhile_spec _).1, add_zero]

/-- Where the loop stands at no action, none is left. -/
theorem forall_none_of_skip {m : ReplayManager} (h : m.skip.replayable? = none) :
    ∀ e ∈ m.replayEvents.drop m.replayIndex, e.action? = none := by
  rcases (takeWhile_spec (m.replayEvents.drop m.replayIndex)).2 with hrest | ⟨e, a, he, ha⟩
  · exact hrest
  · exfalso
    rw [List.getElem?_drop] at he
    have hat : m.skip.replayable? = some (e, a) := by
      show (m.replayEvents[m.replayIndex + _]?).bind _ = _
      rw [he, Option.bind_some, ha]
      rfl
    rw [h] at hat
    cases hat

/-- Where the loop stands at an action, the next index is behind it. -/
theorem countP_passed_step {m : ReplayManager} {e : Event} {a : Action}
    (h : m.skip.replayable? = some (e, a)) :
    e.action? = some a ∧
      (m.replayEvents.take (m.skip.replayIndex + 1)).countP Event.countable
        = m.passed.countP Event.countable + if e.countable then 1 else 0 := by
  obtain ⟨e', he', hmap⟩ := Option.bind_eq_some_iff.mp h
  obtain ⟨a', ha', heq⟩ := Option.map_eq_some_iff.mp hmap
  cases heq
  refine ⟨ha', ?_⟩
  have htake : m.replayEvents.take m.skip.replayIndex = m.skip.passed := rfl
  have hat : m.replayEvents[m.skip.replayIndex]? = some e := he'
  rw [List.take_add_one, List.countP_append, htake, countP_passed_skip, hat, Option.toList_some,
    List.countP_singleton]

/-- What the controller takes from the manager: the events stay, an action is passed when it is
issued, and when none is issued, none is left. -/
theorem next_spec (m : ReplayManager) :
    m.next.2.replayEvents = m.replayEvents ∧
      match m.next.1 with
      | none => m.next.2.passed.countP Event.countable = m.passed.countP Event.countable ∧
          m.replayEvents.countP Event.countable = m.passed.countP Event.countable
      | some (event, action) => event.action? = some action ∧
          m.next.2.passed.countP Event.countable
            = m.passed.countP Event.countable + if event.countable then 1 else 0 := by
  unfold next shouldReplay
  by_cases hempty : m.replayEvents.isEmpty
  · have hnil : m.replayEvents = [] := List.isEmpty_iff.mp hempty
    rw [if_pos hempty]
    simp [passed, hnil]
  · rw [if_neg hempty]
    have hfound : m.skip.replayable? = none ∨ ∃ e a, m.skip.replayable? = some (e, a) := by
      rcases m.skip.replayable? with _ | ⟨e, a⟩
      · exact Or.inl rfl
      · exact Or.inr ⟨e, a, rfl⟩
    rcases hfound with hnone | ⟨e, a, hsome⟩
    · simp only [hnone, Option.isSome_none, Bool.false_eq_true, if_false]
      refine ⟨rfl, countP_passed_skip m, ?_⟩
      rw [← List.take_append_drop m.replayIndex m.replayEvents, List.countP_append,
        countP_of_forall_none (forall_none_of_skip hnone), add_zero]
      rfl
    · simp only [hsome, Option.isSome_some, if_true, step, Option.map_some]
      exact ⟨rfl, countP_passed_step hsome⟩

end ReplayManager

/-! ## What is issued is on the stream -/

namespace Turn

/-- What a countable event is. -/
theorem countable_spec {event : Event} {action : Action} (haction : event.action? = some action)
    (h : event.countable = true) : event.body = .action action ∧ event.body ≠ .action .null ∧
      ∃ source, source ≠ EventSource.environment ∧ event.source = some source := by
  have hbody : event.body = .action action := by
    unfold Event.action? at haction
    split at haction
    · rename_i a hb
      rw [hb, Option.some.inj haction]
    · cases haction
  unfold Event.countable Event.isOwnAction at h
  simp only [Bool.and_eq_true, decide_eq_true_eq] at h
  obtain ⟨⟨⟨-, hown⟩, hsome⟩, hnull⟩ := h
  obtain ⟨source, hsource⟩ := Option.isSome_iff_exists.mp hsome
  refine ⟨hbody, hnull, source, ?_, hsource⟩
  rintro rfl
  exact hown hsource

/-- An action of the user or the agent is countable on the stream. -/
theorem countable_addEvent (bus : EventBus) {source : EventSource} (hsource : source ≠ .environment)
    {action : Action} (haction : action ≠ .null) {event : Event} (hbody : event.body = .action action) :
    (bus.addEvent event source).2.countable = true := by
  simp [Event.countable, Event.isOwnAction, Event.action?, EventBus.addEvent, hbody, haction,
    hsource]

/-- An action that is issued is on the stream, if it is one that is put there. -/
theorem countP_emitReplayed (t : Turn) (answers : Answers) {event : Event} {action : Action}
    (haction : event.action? = some action) :
    t.bus.log.events.countP Event.countable + (if event.countable then 1 else 0)
      ≤ (t.emitReplayed answers event action).1.bus.log.events.countP Event.countable := by
  by_cases hcountable : event.countable = true
  · rw [if_pos hcountable]
    obtain ⟨hbody, hnull, source, henvironment, hsource⟩ := countable_spec haction hcountable
    unfold emitReplayed
    split
    · exact absurd hbody hnull
    · -- a command may have to wait for its confirmation, and is put there all the same
      extract_lets a event' t₁ t₂
      have h₂ : t₁.bus.Records t₂.bus :=
        records_ite (records_setAgentStateTo t₁ _) (.refl t₁.bus)
      have hcount := h₂.countP_le Event.countable
      have hsource' : event'.source = some source := hsource
      have hrun : event'.body = .action (.run a) := rfl
      have hadded : (t₂.bus.addEvent event' source).2.countable = true :=
        countable_addEvent t₂.bus henvironment (by simp) hrun
      rw [hsource']
      exact le_trans (Nat.add_le_add_right hcount 1) (EventBus.countP_addEvent t₂.bus hadded)
    · rw [hsource]
      have hadded : (t.bus.addEvent event source).2.countable = true :=
        countable_addEvent t.bus henvironment (fun h => hnull (by rw [hbody, h])) hbody
      exact EventBus.countP_addEvent t.bus hadded
  · rw [if_neg hcountable, add_zero]
    exact (records_emitReplayed t answers event action).countP_le _

/-- A message of the user is followed by a recall action. -/
theorem countP_beforeStep_userMessage (t : Turn) (answers : Answers) {event : Event}
    (h : event.isUserMessage = true) :
    t.bus.log.events.countP Event.countable + 1
      ≤ (t.beforeStep answers event).1.bus.log.events.countP Event.countable := by
  have hhidden := Event.hidden_of_isUserMessage h
  unfold Event.isUserMessage at h
  split at h
  · rename_i message hbody
    have hsource : event.source = some .user := by simpa using h
    unfold beforeStep
    rw [hhidden, hbody]
    simp only [Bool.false_eq_true, if_false, handleAction]
    generalize ht : (t.observe event).mapState (StateTracker.addHistory · event) = t₁
    have hbus : t.bus = t₁.bus := by
      rw [← ht]
      rfl
    rw [hbus]
    unfold handleMessageAction
    rw [if_pos hsource]
    extract_lets first isFirst recallType recallAction added t₂
    have hrecall : (t₁.bus.addEvent (.ofAction (.recall recallAction)) .user).2.countable
        = true := rfl
    have hmore := EventBus.countP_addEvent t₁.bus hrecall
    have hrest : t₂.bus.Records
        (if t₂.self.state.agentState ≠ .running then t₂.setAgentStateTo .running else t₂).bus :=
      records_ite (records_setAgentStateTo t₂ _) (.refl t₂.bus)
    exact le_trans hmore (hrest.countP_le _)
  · cases h

end Turn

namespace ReplayTurn

variable {r : ReplayTurn} {answers : Answers} {events : List Event}

/-- There are two more actions on the stream than the manager has issued. -/
def Ahead (events : List Event) (log : EventLog) (m : ReplayManager) : Prop :=
  m.replayEvents = events ∧
    m.passed.countP Event.countable + 2 ≤ log.events.countP Event.countable

/-- The manager is behind, now and at the first call of the agent. -/
structure Settled (r : ReplayTurn) (events : List Event) : Prop where
  now : Ahead events r.turn.bus.log r.replayManager
  atCall : ∀ p ∈ r.firstCall, Ahead events p.1 p.2

theorem Ahead.of_le {log log' : EventLog} {m m' : ReplayManager} (h : Ahead events log m)
    (hevents : m'.replayEvents = m.replayEvents)
    (hle : m'.passed.countP Event.countable + log.events.countP Event.countable
      ≤ log'.events.countP Event.countable + m.passed.countP Event.countable) :
    Ahead events log' m' := by
  obtain ⟨heq, hcount⟩ := h
  exact ⟨hevents.trans heq, by omega⟩

/-- The turn goes on without the manager. -/
theorem Settled.of_records (h : r.Settled events) {t : Turn}
    (hrecords : r.turn.bus.Records t.bus) : Settled { r with turn := t } events := by
  refine ⟨h.now.of_le rfl ?_, h.atCall⟩
  have hle := hrecords.countP_le Event.countable
  show r.replayManager.passed.countP Event.countable + _
    ≤ t.bus.log.events.countP Event.countable + r.replayManager.passed.countP Event.countable
  omega

theorem Settled.step (h : r.Settled events) (answers : Answers) :
    (r.step answers).1.Settled events := by
  have hflags := Turn.records_passFlags r.turn answers
  have hle := hflags.countP_le Event.countable
  unfold ReplayTurn.step
  cases hpassed : (r.turn.passFlags answers).2 with
  | false =>
      simp only [hpassed, Bool.not_false, if_true]
      exact h.of_records hflags
  | true =>
      simp only [hpassed, Bool.not_true, Bool.false_eq_true, if_false]
      have hnext := ReplayManager.next_spec r.replayManager
      rcases hfound : r.replayManager.next with ⟨_ | ⟨event, action⟩, manager⟩
      · -- no action is left, and the agent is called
        rw [hfound] at hnext
        obtain ⟨hevents, hsame, -⟩ := hnext
        have hcall : Ahead events (r.turn.passFlags answers).1.bus.log manager :=
          h.now.of_le hevents (by
            dsimp only at hsame
            omega)
        have hcalled :=
          (Turn.records_callAgent (r.turn.passFlags answers).1 answers).countP_le Event.countable
        refine ⟨hcall.of_le rfl (by
          rw [Nat.add_comm]
          exact Nat.add_le_add_right hcalled _), ?_⟩
        intro p hp
        have hfirst : r.firstCall.or (some ((r.turn.passFlags answers).1.bus.log, manager))
            = some p := hp
        rcases Option.or_eq_some_iff.mp hfirst with hearlier | ⟨-, hnow⟩
        · exact h.atCall p hearlier
        · cases hnow
          exact hcall
      · -- an action is issued, and it is put on the stream
        rw [hfound] at hnext
        obtain ⟨hevents, haction, hone⟩ := hnext
        have hemitted :=
          Turn.countP_emitReplayed (r.turn.passFlags answers).1 answers haction
        refine ⟨h.now.of_le hevents ?_, h.atCall⟩
        show manager.passed.countP Event.countable + _ ≤ _
        dsimp only at hone ⊢
        omega

theorem Settled.stepWithExceptionHandling (h : r.Settled events) (answers : Answers) :
    (r.stepWithExceptionHandling answers).Settled events :=
  (h.step answers).of_records (Turn.records_handleException _ _)

/-- What follows the handling of an event up to the step. -/
theorem Settled.of_beforeStep {event : Event}
    (h : Settled { r with turn := (r.turn.beforeStep answers event).1 } events) :
    (r.handleEvent answers event).Settled events := by
  unfold ReplayTurn.handleEvent
  cases hsteps : (r.turn.beforeStep answers event).2 with
  | false =>
      simp only [hsteps, Bool.false_eq_true, if_false]
      exact h
  | true =>
      simp only [hsteps, if_true]
      exact h.stepWithExceptionHandling answers

theorem callLog_records {t : Turn} {event : Event} {log : EventLog}
    (h : t.callLog? answers event = some log) :
    t.bus.log.events.countP Event.countable ≤ log.events.countP Event.countable := by
  unfold Turn.callLog? at h
  extract_lets before passed at h
  split_ifs at h
  cases h
  exact ((Turn.records_beforeStep t answers event).trans
    (Turn.records_passFlags _ answers)).countP_le _

theorem Settled.onEvent (h : r.Settled events) (answers : Answers) (event : Event) :
    (r.onEvent answers event).Settled events := by
  unfold ReplayTurn.onEvent
  cases hd : r.turn.self.delegate with
  | none =>
      exact Settled.of_beforeStep
        (h.of_records (Turn.records_beforeStep r.turn answers event))
  | some d =>
      simp only
      split_ifs with hdone
      · exact h.of_records (Turn.records_endDelegate r.turn)
      · have hdelegate := h.of_records (Turn.records_onDelegate r.turn
          (f := fun t => t.handleEvent answers event)
          fun t => Turn.records_handleEvent t answers event)
        refine ⟨hdelegate.now, ?_⟩
        intro p hp
        rcases Option.or_eq_some_iff.mp hp with hfirst | ⟨-, hlog⟩
        · exact h.atCall p hfirst
        · obtain ⟨log, hcalled, rfl⟩ := Option.map_eq_some_iff.mp hlog
          have hle := callLog_records hcalled
          refine h.now.of_le rfl ?_
          dsimp only at hle ⊢
          omega

theorem Settled.move (h : r.Settled events) (m : Move) : (r.move m).Settled events := by
  cases m with
  | publish event source =>
      exact h.of_records (EventBus.records_receive r.turn.bus (event, source))
  | deliver answers =>
      cases hqueue : r.turn.bus.queue with
      | nil =>
          simp only [ReplayTurn.move, hqueue]
          exact h
      | cons event queue =>
          simp only [ReplayTurn.move, hqueue]
          have hpopped : (r.mapTurn (·.popped queue answers)).Settled events :=
            ⟨h.now, h.atCall⟩
          have hevent := hpopped.onEvent answers event
          exact ⟨hevent.now, hevent.atCall⟩

/-! ## The message that is waiting -/

/-- The message of the user is in the queue, behind nothing but a system message, and nothing
has happened yet. -/
structure Waiting (r : ReplayTurn) (events : List Event) : Prop where
  firstCall : r.firstCall = none
  replayEvents : r.replayManager.replayEvents = events
  replayIndex : r.replayManager.replayIndex = 0
  delegate : r.turn.self.delegate = none
  queue : ∃ before message rest, r.turn.bus.queue = before ++ message :: rest ∧
    (∀ e ∈ before, e.isSystemMessage = true) ∧ message.isUserMessage = true
  counted : 1 ≤ r.turn.bus.log.events.countP Event.countable

/-- A system message is only read. -/
theorem beforeStep_systemMessage (t : Turn) (answers : Answers) {event : Event}
    (h : event.isSystemMessage = true) :
    t.beforeStep answers event
      = ((t.observe event).mapState (StateTracker.addHistory · event), false) := by
  unfold Event.isSystemMessage at h
  split at h
  · rename_i content hbody
    have hhidden : event.hidden = false := by
      unfold Event.hidden
      rw [hbody]
    unfold Turn.beforeStep
    rw [hhidden, hbody]
    simp only [Bool.false_eq_true, if_false, Turn.handleAction]
    unfold AgentController.shouldStep
    rw [hbody]
    simp
  · cases h

theorem Waiting.publish (h : r.Waiting events) (event : Event) (source : EventSource) :
    (r.move (.publish event source)).Waiting events := by
  obtain ⟨before, message, rest, hqueue, hbefore, hmessage⟩ := h.queue
  refine ⟨h.firstCall, h.replayEvents, h.replayIndex, h.delegate, ?_, ?_⟩
  · show ∃ before message rest, (r.turn.bus.receive (event, source)).queue = _ ∧ _
    unfold EventBus.receive
    split_ifs
    · refine ⟨before, message,
        rest ++ [{ event with id := r.turn.bus.log.curId, source := some source }], ?_, hbefore,
        hmessage⟩
      show r.turn.bus.queue ++ [_] = _
      rw [hqueue, List.append_assoc, List.cons_append]
    · exact ⟨before, message, rest, hqueue, hbefore, hmessage⟩
  · have hle := (EventBus.records_receive r.turn.bus (event, source)).countP_le Event.countable
    exact le_trans h.counted hle

/-- The message is delivered: it and its recall action are on the stream. -/
theorem Waiting.deliver_message (h : r.Waiting events) (answers : Answers) (rest : List Event)
    {message : Event} (hmessage : message.isUserMessage = true) :
    ((r.mapTurn (·.popped rest answers)).onEvent answers message).Settled events := by
  have hpopped : ReplayTurn.Settled
      { r with turn := ((r.turn.popped rest answers).beforeStep answers message).1 }
      events := by
    refine ⟨⟨h.replayEvents, ?_⟩, fun p hp => ?_⟩
    · have hmore := Turn.countP_beforeStep_userMessage (r.turn.popped rest answers) answers
        hmessage
      have hcounted : 1 ≤ (r.turn.popped rest answers).bus.log.events.countP
          Event.countable := h.counted
      have hpassed : r.replayManager.passed = [] := by
        unfold ReplayManager.passed
        rw [h.replayIndex, List.take_zero]
      show r.replayManager.passed.countP Event.countable + 2
        ≤ ((r.turn.popped rest answers).beforeStep answers
          message).1.bus.log.events.countP Event.countable
      rw [hpassed, List.countP_nil]
      omega
    · rw [Option.mem_def] at hp
      exact absurd (h.firstCall.symm.trans hp) (by simp)
  have hnone : (r.mapTurn (·.popped rest answers)).turn.self.delegate = none := h.delegate
  unfold ReplayTurn.onEvent
  simp only [hnone]
  exact Settled.of_beforeStep (r := r.mapTurn (·.popped rest answers)) hpopped

/-- A system message is read into the history, and nothing else happens. -/
theorem Waiting.deliver_systemMessage (h : r.Waiting events) (answers : Answers) {system : Event}
    {queue : List Event} (hsystem : system.isSystemMessage = true) :
    (r.mapTurn (·.popped queue answers)).onEvent answers system
      = r.mapTurn fun t => ((t.popped queue answers).observe
        system).mapState (StateTracker.addHistory · system) := by
  have hnone : (r.mapTurn (·.popped queue answers)).turn.self.delegate = none := h.delegate
  unfold ReplayTurn.onEvent
  simp only [hnone]
  unfold ReplayTurn.handleEvent
  rw [beforeStep_systemMessage _ answers hsystem]
  rfl

/-- **Until the message is delivered** nothing is issued; then the manager is behind. -/
theorem Waiting.move (h : r.Waiting events) (m : Move) :
    (r.move m).Waiting events ∨ (r.move m).Settled events := by
  cases m with
  | publish event source => exact Or.inl (h.publish event source)
  | deliver answers =>
      obtain ⟨before, message, rest, hqueue, hbefore, hmessage⟩ := h.queue
      -- in front of the message there are only system messages
      cases before with
      | nil =>
          right
          have hevent := h.deliver_message answers rest hmessage
          simp only [ReplayTurn.move, hqueue, List.nil_append]
          exact ⟨hevent.now, hevent.atCall⟩
      | cons system before =>
          left
          rw [List.forall_mem_cons] at hbefore
          simp only [ReplayTurn.move, hqueue, List.cons_append,
            h.deliver_systemMessage answers hbefore.1]
          exact ⟨h.firstCall, h.replayEvents, h.replayIndex, h.delegate,
            ⟨before, message, rest, rfl, hbefore.2, hmessage⟩, h.counted⟩

/-- **At every moment of a replay** the message is waiting or the manager is behind. -/
theorem Waiting.run (h : r.Waiting events) (moves : List Move) :
    (Run.run ReplayTurn.move r moves).Waiting events ∨
      (Run.run ReplayTurn.move r moves).Settled events :=
  Run.run_invariant (I := fun r : ReplayTurn => r.Waiting events ∨ r.Settled events) (C := fun _ _ => True)
    (fun _ m hi _ => hi.elim (fun hw => hw.move m) fun hs => Or.inr (hs.move m)) (Or.inl h)
    fun _ _ => trivial

end ReplayTurn

/-! ## The start of a replay -/

theorem countable_withoutWait (e : Event) : e.withoutWait.countable = e.countable := by
  unfold Event.withoutWait
  split
  · rename_i m hbody
    simp [Event.countable, Event.isOwnAction, Event.action?, hbody]
  · rfl

theorem countP_ignoreWaits (events : List Event) :
    (ReplayManager.ignoreWaits events).countP Event.countable
      = events.countP Event.countable := by
  induction events using ReplayManager.ignoreWaits.induct with
  | case1 => rfl
  | case2 event => rfl
  | case3 event event' events ih =>
      rw [ReplayManager.ignoreWaits, List.countP_cons, countable_withoutWait, ih,
        List.countP_cons (a := event)]

/-- What is filtered out does not count. -/
theorem countP_filter_of_countable {keeps : Event → Bool}
    (h : ∀ e, e.countable = true → keeps e = true) (events : List Event) :
    (events.filter keeps).countP Event.countable = events.countP Event.countable := by
  rw [List.countP_filter]
  apply List.countP_congr
  intro e _
  rw [Bool.and_eq_true]
  exact ⟨And.left, fun he => ⟨he, h e he⟩⟩

theorem source_of_countable {e : Event} (h : e.countable = true) :
    e.source ≠ some .environment := by
  unfold Event.countable Event.isOwnAction at h
  simp only [Bool.and_eq_true, decide_eq_true_eq] at h
  exact h.1.1.2

/-- The events that the manager keeps count as much as those that it gets. -/
theorem countP_init (replayEvents : List Event) :
    (ReplayManager.init replayEvents).replayEvents.countP Event.countable
      = replayEvents.countP Event.countable := by
  show (ReplayManager.ignoreWaits _).countP _ = _
  rw [countP_ignoreWaits]
  apply countP_filter_of_countable
  intro e he
  rw [Bool.and_eq_true]
  refine ⟨decide_eq_true (source_of_countable he), ?_⟩
  have hsome := isSome_of_countable he
  unfold Event.action? at hsome
  unfold Event.isNullObservation
  split at hsome
  · rename_i action hbody
    rw [hbody]
    rfl
  · cases hsome

theorem countP_getReplayEvents (trajectory : List Event) :
    (ReplayManager.getReplayEvents trajectory).countP Event.countable
      = trajectory.countP Event.countable := by
  unfold ReplayManager.getReplayEvents
  rw [List.countP_map]
  exact countP_filter_of_countable (fun e he => decide_eq_true (source_of_countable he)) trajectory

/-- The bus of a new controller holds a system message or nothing. -/
theorem create_bus (options : ControllerOptions) :
    (Turn.create options none { log := .empty }).bus = { log := .empty } ∨
      ∃ content, (Turn.create options none { log := .empty }).bus
        = (EventBus.addEvent { log := .empty } (.ofAction (.systemMessage content)) .agent).1 := by
  unfold Turn.create
  extract_lets state₁ state₂
  rcases Turn.addSystemMessage_cases
    ⟨{ options with state := state₂ }, EventBus.arrive { log := .empty }⟩ with heq | ⟨content, heq⟩
  · left
    rw [heq]
    rfl
  · right
    refine ⟨content, ?_⟩
    rw [heq]
    rfl

/-- The message is put on the stream of a new controller. -/
theorem waiting_start (options : ControllerOptions) (replayEvents : List Event) {first : Event}
    {message : MessageAction} (hbody : first.body = .action (.message message)) :
    ((ReplayTurn.start options none .empty replayEvents).mapTurn fun t =>
      (t.addEvent first .user).addEvent (.ofAction (.changeAgentState .running))
        .environment).Waiting (ReplayManager.init replayEvents).replayEvents := by
  set c := Turn.create options none { log := .empty } with hc
  have hmessage (bus : EventBus) : (bus.addEvent first .user).2.isUserMessage = true := by
    simp [Event.isUserMessage, EventBus.addEvent, hbody]
  refine ⟨rfl, rfl, rfl, ?_, ?_, ?_⟩
  · exact (Turn.create_frame options none { log := .empty } rfl).2.2.2.2
  · show ∃ before message rest, ((c.bus.addEvent first .user).1.addEvent
      (.ofAction (.changeAgentState .running)) .environment).1.queue = _ ∧ _
    rcases create_bus options with hbus | ⟨content, hbus⟩
    · rw [hbus]
      exact ⟨[], (EventBus.addEvent { log := .empty } first .user).2, [_], rfl, by simp, hmessage _⟩
    · rw [hbus]
      refine ⟨[(EventBus.addEvent { log := .empty } (.ofAction (.systemMessage content)) .agent).2],
        (EventBus.addEvent (EventBus.addEvent { log := .empty }
          (.ofAction (.systemMessage content)) .agent).1 first .user).2, [_], rfl, ?_, hmessage _⟩
      intro e he
      rw [List.mem_singleton.mp he]
      rfl
  · have hcountable : (c.bus.addEvent first .user).2.countable = true := by
      simp [Event.countable, Event.isOwnAction, Event.action?, EventBus.addEvent, hbody]
    have hone := EventBus.countP_addEvent c.bus hcountable
    have hmore := (EventBus.records_addEvent (c.bus.addEvent first .user).1
      (.ofAction (.changeAgentState .running)) .environment).countP_le Event.countable
    show 1 ≤ ((c.bus.addEvent first .user).1.addEvent
      (.ofAction (.changeAgentState .running)) .environment).1.log.events.countP Event.countable
    omega

/-- When the session has started, its message is waiting; the manager has the other events. -/
theorem waiting_of_startReplay {options : ControllerOptions} {trajectory : List Event}
    {r : ReplayTurn} (h : startReplay options trajectory = .ok r) :
    ∃ events, r.Waiting events ∧
      trajectory.countP Event.countable ≤ events.countP Event.countable + 1 := by
  unfold startReplay runReplay at h
  simp only [Option.isSome_none, Bool.false_eq_true, if_false] at h
  rw [← countP_getReplayEvents]
  cases hevents : ReplayManager.getReplayEvents trajectory with
  | nil =>
      rw [hevents] at h
      cases h
  | cons first rest =>
      rw [hevents] at h
      dsimp only at h
      split at h
      · rename_i message hbody
        cases h
        refine ⟨(ReplayManager.init rest).replayEvents, ?_, ?_⟩
        · exact waiting_start { options with headlessMode := false } rest hbody
        · rw [countP_init, List.countP_cons]
          split_ifs <;> omega
      · cases h

/-- **No replay is faithful**: when it has come to rest, there is one recorded action less than
there are actions on the stream, or more are missing. -/
theorem not_replaysFaithfully (options : ControllerOptions) (trajectory : List Event)
    (moves : List Move)
    (hrest : ∀ r, startReplay options trajectory = .ok r →
      (Run.run ReplayTurn.move r moves).turn.bus.queue = []) :
    ¬ ReplaysFaithfully options trajectory moves := by
  rintro ⟨r, hstart, hreplays⟩
  obtain ⟨events, hwaiting, hcount⟩ := waiting_of_startReplay hstart
  rcases hwaiting.run moves with hwaits | hsettled
  · obtain ⟨before, message, rest, hqueue, -, -⟩ := hwaits.queue
    rw [hrest r hstart] at hqueue
    simp at hqueue
  · have hahead : ReplayTurn.Ahead events (Run.run ReplayTurn.move r moves).replayed.1
        (Run.run ReplayTurn.move r moves).replayed.2 := by
      unfold ReplayTurn.replayed
      cases hfirst : (Run.run ReplayTurn.move r moves).firstCall with
      | none => exact hsettled.now
      | some p => exact hsettled.atCall p hfirst
    obtain ⟨hevents, hless⟩ := hahead
    have hnext := ReplayManager.next_spec (Run.run ReplayTurn.move r moves).replayed.2
    rw [hreplays.issued, hevents] at hnext
    have hequal := congrArg (·.countP Event.countable) hreplays.actions
    dsimp only at hequal hnext
    rw [countP_ownActions, countP_ownActions] at hequal
    omega

/-! ## A command that is replayed -/

/-- The agent lists the files and finishes. -/
def listedFiles : List Move :=
  [.publish (.ofAction (.message { content := "list the files" })) .user,
    .deliver {}, .deliver {}, .deliver {},
    observationOf 1 "" (.recall .workspaceContext), .deliver (runsCommand "ls"),
    .deliver {}, observationOf 4 "README.md" (.cmdOutput "ls" false),
    .deliver { agentStep := .ok (some (.agentFinish [], none)) }, .deliver {}, .deliver {}]

/-- The trajectory of that run. -/
def listedTrajectory : List Event :=
  getTrajectory (Run.run Turn.move (.start codeActOptions none .empty) listedFiles).bus.log

/-- Every action of the replay is observed. -/
def replayMoves : List Move :=
  [.deliver {}, .deliver {}, .deliver {}, .deliver {},
    observationOf 2 "" (.recall .workspaceContext), .deliver {},
    .deliver {}, observationOf 5 "" (.recall .workspaceContext), .deliver {}, .deliver {},
    observationOf 7 "README.md" (.cmdOutput "ls" false), .deliver {}, .deliver {}, .deliver {}]

/-- The new stream has come to rest with one recall action more than the trajectory. -/
theorem listedTrajectory_replayed :
    (startReplay codeActOptions listedTrajectory).map (fun r =>
        ((Run.run ReplayTurn.move r replayMoves).turn.bus.queue.length,
          (ownActions (Run.run ReplayTurn.move r replayMoves).replayed.1.events).length))
      = .ok (0, 5) ∧
    (ownActions listedTrajectory).length = 4 := by
  decide

/-- The replay has come to rest at the end of the moves. -/
theorem rest_replayMoves (r : ReplayTurn)
    (h : startReplay codeActOptions listedTrajectory = .ok r) :
    (Run.run ReplayTurn.move r replayMoves).turn.bus.queue = [] := by
  have hmap := listedTrajectory_replayed.1
  rw [h] at hmap
  have hpair := Except.ok.inj hmap
  exact List.length_eq_zero_iff.mp (congrArg Prod.fst hpair)

theorem not_faithful_listedTrajectory :
    ¬ ReplaysFaithfully codeActOptions listedTrajectory replayMoves :=
  not_replaysFaithfully codeActOptions listedTrajectory replayMoves rest_replayMoves

/-- The recall action of the message is issued twice. -/
theorem recall_issuedTwice :
    (startReplay codeActOptions listedTrajectory).map (fun r =>
        ownActions (Run.run ReplayTurn.move r replayMoves).turn.bus.log.events)
      = .ok ((ownActions listedTrajectory).take 2 ++ (ownActions listedTrajectory).drop 1) ∧
    ¬ ∀ (options : ControllerOptions) (recorded moves : List Move),
        (∀ r, startReplay options (getTrajectory (Run.run Turn.move
            (.start options none .empty) recorded).bus.log) = .ok r →
          (Run.run ReplayTurn.move r moves).turn.bus.queue = []) →
        ReplaysFaithfully options (getTrajectory (Run.run Turn.move
          (.start options none .empty) recorded).bus.log) moves := by
  refine ⟨by decide, fun hall => ?_⟩
  obtain ⟨r, hstart, hreplays⟩ := hall codeActOptions listedFiles replayMoves rest_replayMoves
  have hstart : startReplay codeActOptions listedTrajectory = .ok r := hstart
  have hmap := listedTrajectory_replayed.1
  rw [hstart] at hmap
  have hfive : (ownActions (Run.run ReplayTurn.move r replayMoves).replayed.1.events).length = 5 :=
    congrArg Prod.snd (Except.ok.inj hmap)
  have hactions : ownActions (Run.run ReplayTurn.move r replayMoves).replayed.1.events
      = ownActions listedTrajectory := hreplays.actions
  rw [hactions, listedTrajectory_replayed.2] at hfive
  cases hfive

end OpenHands
