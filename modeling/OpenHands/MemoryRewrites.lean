/-
# The events that `process_events` rewrites

`process_events` works on the events of the history themselves.  It inserts a system
message and the initial user message into the list when they are missing, takes the tool
call metadata of a finish action and puts what the LLM said into its thought, and fills the
cache of a file edit.  Here the call returns the messages together with the events as it
leaves them.  A second call, on the events that the first one left, returns the same messages
(`processEvents_again`).
-/
import OpenHands.FileEdits
import OpenHands.RecalledKnowledge

namespace OpenHands

/-! ## Events with their fields -/

/-- An event of the history with the fields that `process_events` reads or writes: the
thought of a finish action, the fields of a file edit and those of a recall. -/
structure HistoryEvent where
  event : Event
  thought : String := ""
  edit : FileEdit := {}
  details : RecallDetails := {}
  deriving DecidableEq, Repr

/-- The names of the microagents in a recall observation. -/
def HistoryEvent.recalledNames (r : HistoryEvent) : List String :=
  match r.event.body with
  | .observation { cls := .recall _, .. } => r.details.agentNames
  | _ => []

/-- `ConversationMemory`: its options and its prompt manager, with the texts that stand for
the other events and the differences that `difflib` finds. -/
structure ConversationMemory where
  config : MemoryConfig
  promptManager : PromptManager
  disabledMicroagents : List String
  texts : EventTexts
  groupedOpcodes : GroupedOpcodes

namespace ConversationMemory

variable (memory : ConversationMemory)

/-- The content of a recall behind `earlier`. -/
def recallContent (earlier : List HistoryEvent) (r : HistoryEvent) (recallType : RecallType) :
    List Content :=
  r.details.content memory.promptManager memory.disabledMicroagents
    (earlier.flatMap HistoryEvent.recalledNames) recallType

/-- The texts of an event behind `earlier`: its thought and what it recalls are its own. -/
def textsOf (earlier : List HistoryEvent) (r : HistoryEvent) : EventTexts :=
  { memory.texts with
    thought := fun _ => r.thought
    recallContent := fun _ e =>
      match e.body with
      | .observation { cls := .recall recallType, .. } =>
        memory.recallContent earlier r recallType
      | _ => [] }

/-! ## One event -/

/-- A finish action takes what the LLM said with it into its thought, and loses its
metadata. -/
def rewriteAction (r : HistoryEvent) : Action → HistoryEvent
  | .agentFinish _ =>
    match r.event.toolCallMetadata with
    | some _ =>
      { r with
        thought := finishText (memory.textsOf [] r) r.event
        event := { r.event with toolCallMetadata := none } }
    | none => r
  | _ => r

/-- `_process_action`, with the action as it leaves it. -/
def processAction (r : HistoryEvent) (action : Action) :
    Except PyError (Processed × HistoryEvent) :=
  (OpenHands.processAction (memory.textsOf [] r) memory.config r.event action).map
    fun processed => (processed, memory.rewriteAction r action)

/-- `_process_observation`, with the observation as it leaves it; `earlier` are the events
before this one. -/
def processObservation (earlier : List HistoryEvent) (r : HistoryEvent) (obs : Observation) :
    Except PyError (Processed × HistoryEvent) :=
  if obs.cls = .other "edit" then
    (r.edit.str memory.groupedOpcodes obs.content).map fun (text, edit) =>
      (toolResponse r.event
        [.text (memory.config.maxMessageChars.elim text (truncateContent text))],
        { r with edit := edit })
  else
    (OpenHands.processObservation (memory.textsOf earlier r) memory.config [] r.event obs).map
      fun processed => (processed, r)

/-- An event is an action or an observation. -/
def processEvent (earlier : List HistoryEvent) (r : HistoryEvent) :
    Except PyError (Processed × HistoryEvent) :=
  match r.event.body with
  | .action action => memory.processAction r action
  | .observation obs => memory.processObservation earlier r obs

/-! ## The call -/

/-- The loop over the events, with the events as it leaves them. -/
def processLoop (earlier : List HistoryEvent) : List HistoryEvent → MemoryState →
    Except PyError (List Message × List HistoryEvent)
  | [], _ => .ok ([], [])
  | r :: events, s =>
    match memory.processEvent earlier r with
    | .error err => .error err
    | .ok (processed, left) =>
      match memoryStep s processed with
      | .error err => .error err
      | .ok (messages, s) =>
        match processLoop (earlier ++ [left]) events s with
        | .error err => .error err
        | .ok (later, events) => .ok (messages ++ later, left :: events)

/-- `_ensure_system_message`. -/
def ensureSystemMessage (events : List HistoryEvent) : List HistoryEvent :=
  if events.any (·.event.isSystemMessage) then events
  else if memory.config.systemPrompt = "" then events
  else { event := .ofAction (.systemMessage memory.config.systemPrompt) } :: events

/-- `_ensure_initial_user_message`. -/
def ensureInitialUserMessage (initialUserAction : HistoryEvent) :
    List HistoryEvent → List HistoryEvent
  | [] => []
  | [r] => [r, initialUserAction]
  | r :: second :: events =>
    if second.event.isUserMessage then r :: second :: events
    else r :: initialUserAction :: second :: events

/-- The events that the loop works on. -/
def ensuredEvents (condensedHistory : List HistoryEvent) (initialUserAction : HistoryEvent) :
    List HistoryEvent :=
  ensureInitialUserMessage initialUserAction (memory.ensureSystemMessage condensedHistory)

/-- `process_events`: the messages, and the events as the call leaves them. -/
def processEvents (condensedHistory : List HistoryEvent) (initialUserAction : HistoryEvent) :
    Except PyError (List Message × List HistoryEvent) :=
  (memory.processLoop [] (memory.ensuredEvents condensedHistory initialUserAction) {}).map
    fun (messages, events) =>
      (applyUserMessageFormatting none (filterUnmatchedToolCalls messages), events)

/-! ## What stays of an event -/

section Rewritten

variable {memory} {earlier events left : List HistoryEvent} {r r' : HistoryEvent}
  {processed : Processed} {s : MemoryState} {messages : List Message}

/-- `r'` is `r` but for its thought, its metadata and its cache. -/
def Rewritten (r r' : HistoryEvent) : Prop :=
  r'.event.body = r.event.body ∧ r'.event.source = r.event.source ∧ r'.details = r.details

theorem rewritten_rewriteAction (r : HistoryEvent) (action : Action) :
    Rewritten r (memory.rewriteAction r action) := by
  unfold rewriteAction
  split
  · split <;> exact ⟨rfl, rfl, rfl⟩
  · exact ⟨rfl, rfl, rfl⟩

theorem processAction_ok {action : Action}
    (h : memory.processAction r action = .ok (processed, r')) :
    OpenHands.processAction (memory.textsOf [] r) memory.config r.event action = .ok processed ∧
      r' = memory.rewriteAction r action := by
  unfold processAction at h
  cases hprocess : OpenHands.processAction (memory.textsOf [] r) memory.config r.event action with
  | error err =>
      rw [hprocess] at h
      cases h
  | ok p =>
      rw [hprocess] at h
      cases h
      exact ⟨rfl, rfl⟩

theorem processObservation_ok {obs : Observation}
    (h : memory.processObservation earlier r obs = .ok (processed, r')) :
    (obs.cls = .other "edit" ∧ ∃ text edit,
      r.edit.str memory.groupedOpcodes obs.content = .ok (text, edit) ∧
      processed = toolResponse r.event
        [.text (memory.config.maxMessageChars.elim text (truncateContent text))] ∧
      r' = { r with edit := edit }) ∨
    (obs.cls ≠ .other "edit" ∧
      OpenHands.processObservation (memory.textsOf earlier r) memory.config [] r.event obs
        = .ok processed ∧ r' = r) := by
  unfold processObservation at h
  split_ifs at h with hedit
  · left
    cases hstr : r.edit.str memory.groupedOpcodes obs.content with
    | error err =>
        rw [hstr] at h
        cases h
    | ok read =>
        rw [hstr] at h
        cases h
        exact ⟨hedit, read.1, read.2, rfl, rfl, rfl⟩
  · right
    cases hprocess : OpenHands.processObservation (memory.textsOf earlier r) memory.config []
        r.event obs with
    | error err =>
        rw [hprocess] at h
        cases h
    | ok p =>
        rw [hprocess] at h
        cases h
        exact ⟨hedit, rfl, rfl⟩

theorem rewritten_processEvent (h : memory.processEvent earlier r = .ok (processed, r')) :
    Rewritten r r' := by
  unfold processEvent at h
  split at h
  · obtain ⟨-, rfl⟩ := processAction_ok h
    exact rewritten_rewriteAction r _
  · rcases processObservation_ok h with ⟨-, text, edit, -, -, rfl⟩ | ⟨-, -, rfl⟩
    · exact ⟨rfl, rfl, rfl⟩
    · exact ⟨rfl, rfl, rfl⟩

/-! ## An event that is processed again -/

/-- The text of a finish action that has lost its metadata is its thought, so it is the
text that the first call has shown. -/
theorem processAction_again {action : Action}
    (h : memory.processAction r action = .ok (processed, r')) :
    memory.processAction r' action = .ok (processed, r') := by
  obtain ⟨hprocess, rfl⟩ := processAction_ok h
  by_cases hfinish : ∃ outputs, action = .agentFinish outputs
  · obtain ⟨outputs, rfl⟩ := hfinish
    cases hmetadata : r.event.toolCallMetadata with
    | none =>
        have hsame : memory.rewriteAction r (.agentFinish outputs) = r := by
          unfold rewriteAction
          simp only [hmetadata]
        rw [hsame] at h ⊢
        exact h
    | some metadata =>
        -- what the LLM said is in the thought now, and there is no response to look up
        have hleft : memory.rewriteAction r (.agentFinish outputs)
            = { r with
                thought := finishText (memory.textsOf [] r) r.event
                event := { r.event with toolCallMetadata := none } } := by
          unfold rewriteAction
          simp only [hmetadata]
        rw [hleft]
        cases hprocess
        rfl
  · have hsame : memory.rewriteAction r action = r := by
      unfold rewriteAction
      split
      · exact absurd ⟨_, rfl⟩ hfinish
      · rfl
    rw [hsame] at h ⊢
    exact h

theorem processObservation_again {obs : Observation}
    (h : memory.processObservation earlier r obs = .ok (processed, r')) :
    memory.processObservation earlier r' obs = .ok (processed, r') := by
  rcases processObservation_ok h with ⟨hedit, text, edit, hstr, rfl, rfl⟩ | ⟨-, -, rfl⟩
  · unfold processObservation
    rw [if_pos hedit, FileEdit.str_again hstr]
    rfl
  · exact h

theorem processEvent_again (h : memory.processEvent earlier r = .ok (processed, r')) :
    memory.processEvent earlier r' = .ok (processed, r') := by
  have hbody := (rewritten_processEvent h).1
  unfold processEvent at h ⊢
  rw [hbody]
  split at h
  · exact processAction_again h
  · exact processObservation_again h

/-! ## The loop on the events that it left -/

theorem processLoop_cons
    (h : memory.processLoop earlier (r :: events) s = .ok (messages, left)) :
    ∃ processed r' emitted s' later rest, memory.processEvent earlier r = .ok (processed, r') ∧
      memoryStep s processed = .ok (emitted, s') ∧
      memory.processLoop (earlier ++ [r']) events s' = .ok (later, rest) ∧
      messages = emitted ++ later ∧ left = r' :: rest := by
  unfold processLoop at h
  cases hevent : memory.processEvent earlier r with
  | error err =>
      simp only [hevent] at h
      cases h
  | ok out =>
      simp only [hevent] at h
      cases hstep : memoryStep s out.1 with
      | error err =>
          simp only [hstep] at h
          cases h
      | ok stepped =>
          simp only [hstep] at h
          cases hloop : memory.processLoop (earlier ++ [out.2]) events stepped.2 with
          | error err =>
              simp only [hloop] at h
              cases h
          | ok looped =>
              simp only [hloop] at h
              cases h
              exact ⟨out.1, out.2, stepped.1, stepped.2, looped.1, looped.2, rfl, hstep, hloop,
                rfl, rfl⟩

theorem rewritten_processLoop : ∀ {events earlier left : List HistoryEvent} {s : MemoryState}
    {messages : List Message}, memory.processLoop earlier events s = .ok (messages, left) →
    List.Forall₂ Rewritten events left := by
  intro events
  induction events with
  | nil =>
      intro earlier left s messages h
      cases h
      exact .nil
  | cons r events ih =>
      intro earlier left s messages h
      obtain ⟨processed, r', emitted, s', later, rest, hevent, -, hloop, -, rfl⟩ :=
        processLoop_cons h
      exact .cons (rewritten_processEvent hevent) (ih hloop)

/-- **The loop on the events that it left** returns the same messages.  The events before
an event are the same in both runs, as the first run has rewritten them already. -/
theorem processLoop_again : ∀ {events earlier left : List HistoryEvent} {s : MemoryState}
    {messages : List Message}, memory.processLoop earlier events s = .ok (messages, left) →
    memory.processLoop earlier left s = .ok (messages, left) := by
  intro events
  induction events with
  | nil =>
      intro earlier left s messages h
      cases h
      rfl
  | cons r events ih =>
      intro earlier left s messages h
      obtain ⟨processed, r', emitted, s', later, rest, hevent, hstep, hloop, rfl, rfl⟩ :=
        processLoop_cons h
      unfold processLoop
      simp only [processEvent_again hevent, hstep, ih hloop]

/-! ## The leading events -/

/-- The list starts as it should: the system message is there when there is one, and a user
message is the second event. -/
def WellLed (memory : ConversationMemory) (events : List HistoryEvent) : Prop :=
  (events.any (·.event.isSystemMessage) ∨ memory.config.systemPrompt = "") ∧
    match events with
    | [] => True
    | [_] => False
    | _ :: second :: _ => second.event.isUserMessage = true

theorem any_ensureInitialUserMessage {initialUserAction : HistoryEvent}
    (h : events.any (·.event.isSystemMessage) = true) :
    (ensureInitialUserMessage initialUserAction events).any (·.event.isSystemMessage) = true := by
  unfold ensureInitialUserMessage
  split
  · exact h
  · rw [List.any_cons, Bool.or_eq_true]
    exact Or.inl (by simpa using h)
  · split_ifs
    · exact h
    · simp only [List.any_cons, Bool.or_eq_true] at h ⊢
      tauto

theorem wellLed_ensuredEvents {initialUserAction : HistoryEvent}
    (huser : initialUserAction.event.isUserMessage = true) :
    WellLed memory (memory.ensuredEvents events initialUserAction) := by
  constructor
  · by_cases hprompt : memory.config.systemPrompt = ""
    · exact Or.inr hprompt
    · left
      apply any_ensureInitialUserMessage
      unfold ensureSystemMessage
      split_ifs with hsystem
      · exact hsystem
      · rfl
  · unfold ensuredEvents
    generalize memory.ensureSystemMessage events = led
    match led with
    | [] => trivial
    | [r] => exact huser
    | r :: second :: rest =>
        simp only [ensureInitialUserMessage]
        split_ifs with hsecond
        · exact hsecond
        · exact huser

/-- Nothing is inserted into a list that starts as it should. -/
theorem ensuredEvents_of_wellLed {initialUserAction : HistoryEvent} (h : WellLed memory events) :
    memory.ensuredEvents events initialUserAction = events := by
  obtain ⟨hsystem, hsecond⟩ := h
  have hensured : memory.ensureSystemMessage events = events := by
    unfold ensureSystemMessage
    rcases hsystem with hsystem | hprompt
    · rw [if_pos hsystem]
    · rw [if_pos hprompt, ite_self]
  unfold ensuredEvents
  rw [hensured]
  match events, hsecond with
  | [], _ => rfl
  | r :: second :: rest, hsecond =>
      simp only [ensureInitialUserMessage]
      exact if_pos hsecond

theorem isSystemMessage_of_rewritten (h : Rewritten r r') :
    r'.event.isSystemMessage = r.event.isSystemMessage := by
  unfold Event.isSystemMessage
  rw [h.1]

theorem isUserMessage_of_rewritten (h : Rewritten r r') :
    r'.event.isUserMessage = r.event.isUserMessage := by
  unfold Event.isUserMessage
  rw [h.1, h.2.1]

/-- The rewritten events start as the events do. -/
theorem WellLed.of_rewritten (hled : WellLed memory events)
    (h : List.Forall₂ Rewritten events left) : WellLed memory left := by
  have hany : left.any (·.event.isSystemMessage) = events.any (·.event.isSystemMessage) := by
    clear hled
    induction h with
    | nil => rfl
    | cons hr _ ih => rw [List.any_cons, List.any_cons, ih, isSystemMessage_of_rewritten hr]
  obtain ⟨hsystem, hsecond⟩ := hled
  refine ⟨by rwa [hany], ?_⟩
  match h, hsecond with
  | .nil, _ => trivial
  | .cons _ (.cons hr _), hsecond =>
      show _ = true
      rw [isUserMessage_of_rewritten hr]
      exact hsecond

/-! ## The second call -/

/-- **A second call returns the same messages**, and leaves the events as they are. -/
theorem processEvents_again {condensedHistory : List HistoryEvent}
    {initialUserAction : HistoryEvent}
    (huser : initialUserAction.event.isUserMessage = true)
    (h : memory.processEvents condensedHistory initialUserAction = .ok (messages, left)) :
    memory.processEvents left initialUserAction = .ok (messages, left) := by
  unfold processEvents at h
  cases hloop : memory.processLoop []
      (memory.ensuredEvents condensedHistory initialUserAction) {} with
  | error err =>
      rw [hloop] at h
      cases h
  | ok out =>
      rw [hloop] at h
      cases h
      have hled := (wellLed_ensuredEvents huser).of_rewritten (rewritten_processLoop hloop)
      unfold processEvents
      rw [ensuredEvents_of_wellLed hled, processLoop_again hloop]
      rfl

end Rewritten

end ConversationMemory

end OpenHands
