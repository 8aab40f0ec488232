/-
# The histories that `process_events` can read

`_process_observation` raises on an observation of a class that it does not know, and two
classes that are registered have no branch: `FileWriteObservation` and `SuccessObservation`.
Once such an event is in the history, every later step raises on it.

  * `returnsAgain_iff` — which histories are read, the first time and again;
  * `not_returnsAgain_writtenFile` — the answer to a `FileWriteAction` is not.
-/
import OpenHands.MemoryRewrites
import OpenHands.RepeatedCalls
import OpenHands.StateTracker

namespace OpenHands

/-! ## The events that can be read -/

/-- The classes of observations that `_process_observation` has a branch for. -/
def ObservationClass.hasBranch : ObservationClass → Bool
  | .null | .agentStateChanged _ _ => false
  | .other cls =>
    cls ∈ ["run_ipython", "edit", "read", "user_rejected", "mcp", "think", "task_tracking",
      "download"]
  | _ => true

/-- A request comes with tool calls. -/
def Processed.HasCalls : Processed → Prop
  | .requests _ message => message.toolCalls.isSome = true
  | _ => True

namespace HistoryEvent

/-- The event is read without an exception: a tool action has metadata or comes from the
user, an observation has a branch, and a file edit has a text. -/
def Handled (r : HistoryEvent) : Prop :=
  match r.event.body with
  | .action action => action.isTool r.event.source = true →
      r.event.toolCallMetadata.isSome = true ∨ r.event.source = some .user
  | .observation obs =>
      obs.cls.hasBranch = true ∧ (obs.cls = .other "edit" → r.edit.NewFileEmpty)

/-- The response that a tool action came from has tool calls. -/
def HasCalls (memory : ConversationMemory) (r : HistoryEvent) : Prop :=
  match r.event.body with
  | .action action => action.isTool r.event.source = true →
      ∀ metadata ∈ r.event.toolCallMetadata,
        (memory.texts.response metadata.modelResponse).toolCalls.isSome = true
  | .observation _ => True

/-- The observation is shown as the result of its tool call, when it has one.  Internal
observations and microagent knowledge are not, nor is a recall that shows nothing. -/
def answersCall (memory : ConversationMemory) (r : HistoryEvent) : ObservationClass → Bool
  | .loopDetection => false
  | .recall .knowledge => false
  | .recall .workspaceContext =>
    memory.config.enablePromptExtensions && memory.recallContent [] r .workspaceContext ≠ []
  | _ => true

/-- What the event means for the account of the tool calls. -/
def toolMark (memory : ConversationMemory) (r : HistoryEvent) : ToolMark :=
  match r.event.body, r.event.toolCallMetadata with
  | _, none => .other
  | .action action, some metadata =>
    if action.isTool r.event.source then
      let response := memory.texts.response metadata.modelResponse
      .requests response.id ((response.toolCalls.getD []).map ToolCall.id)
    else .other
  | .observation obs, some metadata =>
    if r.answersCall memory obs.cls then .answers metadata.toolCallId else .other

end HistoryEvent

namespace ConversationMemory

/-- The history can be read: every event is handled, the responses have tool calls, and no
response that is completed repeats a call. -/
structure Readable (memory : ConversationMemory) (condensedHistory : List HistoryEvent)
    (initialUserAction : HistoryEvent) : Prop where
  handled : ∀ r ∈ condensedHistory, r.Handled
  hasCalls : ∀ r ∈ condensedHistory, r.HasCalls memory
  completesOnce : Ledger.CompletesOnce {}
    ((memory.ensuredEvents condensedHistory initialUserAction).map
      (HistoryEvent.toolMark memory))

/-- `process_events` returns, and called again on the events that it left it returns the
same messages. -/
def ReturnsAgain (memory : ConversationMemory) (condensedHistory : List HistoryEvent)
    (initialUserAction : HistoryEvent) : Prop :=
  ∃ messages left,
    memory.processEvents condensedHistory initialUserAction = .ok (messages, left) ∧
    ∃ after, memory.processEvents left initialUserAction = .ok (messages, after)

/-! ## One event -/

section Event

variable {memory : ConversationMemory} {earlier : List HistoryEvent} {r r' : HistoryEvent}
  {processed : Processed}

theorem exists_processAction_iff {action : Action} (hbody : r.event.body = .action action) :
    (∃ out, memory.processAction r action = .ok out) ↔ r.Handled := by
  unfold HistoryEvent.Handled
  rw [hbody]
  unfold processAction OpenHands.processAction
  by_cases htool : action.isTool r.event.source = true
  · simp only [htool, if_true, forall_const]
    cases r.event.toolCallMetadata with
    | some metadata => simp [Except.map]
    | none =>
        by_cases huser : r.event.source = some .user
        · simp [huser, Except.map]
        · simp [huser, Except.map]
  · simp only [htool, if_false, Bool.false_eq_true, false_implies, iff_true]
    split
    · exact ⟨_, rfl⟩
    · exact ⟨_, rfl⟩
    · split
      · split_ifs <;> exact ⟨_, rfl⟩
      · exact ⟨_, rfl⟩
    · exact ⟨_, rfl⟩
    · exact ⟨_, rfl⟩

/-- An observation is processed exactly when its class has a branch. -/
theorem exists_processed_iff {texts : EventTexts} {config : MemoryConfig} {before : List Event}
    {e : Event} {obs : Observation} :
    (∃ processed, OpenHands.processObservation texts config before e obs = .ok processed) ↔
      obs.cls.hasBranch = true := by
  obtain ⟨content, cls⟩ := obs
  unfold OpenHands.processObservation ObservationClass.hasBranch
  cases cls with
  | null => exact ⟨fun ⟨_, h⟩ => (nomatch h), fun h => (nomatch h)⟩
  | agentStateChanged agentState reason =>
      exact ⟨fun ⟨_, h⟩ => (nomatch h), fun h => (nomatch h)⟩
  | cmdOutput command hidden =>
      dsimp only
      split_ifs <;> exact ⟨fun _ => rfl, fun _ => ⟨_, rfl⟩⟩
  | «recall» recallType =>
      dsimp only
      refine ⟨fun _ => rfl, fun _ => ?_⟩
      split_ifs
      · exact ⟨_, rfl⟩
      · split <;> exact ⟨_, rfl⟩
  | other cls =>
      dsimp only
      split <;> simp_all
      -- the classes that are shown by their content, and those without a branch
      split_ifs with hcls <;> simp [hcls]
  | _ => exact ⟨fun _ => rfl, fun _ => ⟨_, rfl⟩⟩

/-- An observation of the other classes is the result of its tool call. -/
theorem processed_of_other {texts : EventTexts} {config : MemoryConfig} {before : List Event}
    {e : Event} {content cls : String}
    (h : OpenHands.processObservation texts config before e ⟨content, .other cls⟩
      = .ok processed) : ∃ shown, processed = toolResponse e shown := by
  unfold OpenHands.processObservation at h
  split at h
  all_goals first
    | contradiction
    | cases h; exact ⟨_, rfl⟩
    | split_ifs at h; cases h; exact ⟨_, rfl⟩

theorem exists_processObservation_iff {obs : Observation}
    (hbody : r.event.body = .observation obs) :
    (∃ out, memory.processObservation earlier r obs = .ok out) ↔ r.Handled := by
  have hmap {α β : Type} (f : α → β) (x : Except PyError α) :
      (∃ out, x.map f = .ok out) ↔ ∃ a, x = .ok a := by
    cases x with
    | error err => exact ⟨fun ⟨_, h⟩ => (nomatch h), fun ⟨_, h⟩ => (nomatch h)⟩
    | ok a => exact ⟨fun _ => ⟨a, rfl⟩, fun _ => ⟨f a, rfl⟩⟩
  unfold HistoryEvent.Handled
  rw [hbody]
  unfold processObservation
  split_ifs with hedit
  · rw [hmap, FileEdit.exists_str_iff]
    have hbranch : obs.cls.hasBranch = true := by
      rw [hedit]
      decide
    exact ⟨fun h => ⟨hbranch, fun _ => h⟩, fun h => h.2 hedit⟩
  · rw [hmap, exists_processed_iff]
    exact ⟨fun h => ⟨h, fun hcls => absurd hcls hedit⟩, fun h => h.1⟩

/-- **An event is read** exactly when it is handled. -/
theorem exists_processEvent_iff :
    (∃ out, memory.processEvent earlier r = .ok out) ↔ r.Handled := by
  unfold processEvent
  cases hbody : r.event.body with
  | action action => exact exists_processAction_iff hbody
  | observation obs => exact exists_processObservation_iff hbody

theorem toolMark_toolResponse (e : Event) (content : List Content) :
    (toolResponse e content).toolMark
      = match e.toolCallMetadata with
        | some metadata => .answers metadata.toolCallId
        | none => .other := by
  unfold toolResponse
  cases e.toolCallMetadata <;> rfl

/-- A tool action with metadata requests the calls of its response; every other action is
shown. -/
theorem processAction_cases {texts : EventTexts} {config : MemoryConfig} {e : Event}
    {action : Action} (h : OpenHands.processAction texts config e action = .ok processed) :
    (∃ metadata content, action.isTool e.source = true ∧
      e.toolCallMetadata = some metadata ∧
      processed = .requests (texts.response metadata.modelResponse).id
        ⟨.assistant, content, (texts.response metadata.modelResponse).toolCalls, none, none⟩) ∨
    ((action.isTool e.source = true → e.toolCallMetadata = none) ∧
      ∃ messages, processed = .shown messages) := by
  unfold OpenHands.processAction at h
  by_cases htool : action.isTool e.source = true
  · rw [if_pos htool] at h
    cases hmetadata : e.toolCallMetadata with
    | none =>
        simp only [hmetadata] at h
        split_ifs at h
        cases h
        exact Or.inr ⟨fun _ => rfl, _, rfl⟩
    | some metadata =>
        simp only [hmetadata] at h
        cases h
        exact Or.inl ⟨metadata, _, htool, rfl, rfl⟩
  · rw [if_neg htool] at h
    refine Or.inr ⟨fun h => absurd h htool, ?_⟩
    split at h
    · cases h
      exact ⟨_, rfl⟩
    · cases h
      exact ⟨_, rfl⟩
    · split at h
      · split_ifs at h <;> cases h <;> exact ⟨_, rfl⟩
      · cases h
        exact ⟨_, rfl⟩
    · cases h
      exact ⟨_, rfl⟩
    · cases h
      exact ⟨_, rfl⟩

/-- What an action turns into has the mark of the action, and it has tool calls when the
response has. -/
theorem marks_of_processAction {action : Action} (hbody : r.event.body = .action action)
    (h : memory.processAction r action = .ok (processed, r')) :
    processed.toolMark = r.toolMark memory ∧ (processed.HasCalls ↔ r.HasCalls memory) := by
  obtain ⟨hprocess, -⟩ := processAction_ok h
  unfold HistoryEvent.toolMark HistoryEvent.HasCalls
  rw [hbody]
  rcases processAction_cases hprocess with
    ⟨metadata, content, htool, hmetadata, rfl⟩ | ⟨hmetadata, messages, rfl⟩
  · simp only [hmetadata, htool, if_true, forall_const, Option.mem_some_iff, forall_eq']
    exact ⟨rfl, Iff.rfl⟩
  · constructor
    · cases hsome : r.event.toolCallMetadata with
      | none => rfl
      | some metadata =>
          have htool : ¬ action.isTool r.event.source = true := by
            intro htool
            rw [hmetadata htool] at hsome
            cases hsome
          simp only [htool, if_false, Bool.false_eq_true]
          rfl
    · refine ⟨fun _ htool metadata hmem => ?_, fun _ => trivial⟩
      rw [hmetadata htool] at hmem
      cases hmem

/-- A recall is the result of its call when it shows the workspace context. -/
theorem processRecall_cases {content : String} {recallType : RecallType}
    (hbody : r.event.body = .observation ⟨content, .recall recallType⟩)
    (h : OpenHands.processObservation (memory.textsOf earlier r) memory.config [] r.event
      ⟨content, .recall recallType⟩ = .ok processed) :
    (r.answersCall memory (.recall recallType) = true ∧
      ∃ shown, processed = toolResponse r.event shown) ∨
    (r.answersCall memory (.recall recallType) = false ∧
      ∃ messages, processed = .shown messages) := by
  have hcontent : (memory.textsOf earlier r).recallContent [] r.event
      = memory.recallContent earlier r recallType := by
    simp only [textsOf, hbody]
  unfold OpenHands.processObservation at h
  simp only [hcontent] at h
  cases recallType with
  | knowledge =>
      right
      refine ⟨rfl, ?_⟩
      split_ifs at h
      · cases h
        exact ⟨_, rfl⟩
      · cases hrecalled : memory.recallContent earlier r .knowledge <;>
          simp only [hrecalled] at h <;> cases h <;> exact ⟨_, rfl⟩
  | workspaceContext =>
      -- the workspace context does not depend on the events before
      have hsame : memory.recallContent [] r .workspaceContext
          = memory.recallContent earlier r .workspaceContext := rfl
      unfold HistoryEvent.answersCall
      rw [hsame]
      split_ifs at h with hdisabled
      · cases h
        rw [Bool.not_eq_true'] at hdisabled
        exact Or.inr ⟨by rw [hdisabled, Bool.false_and], _, rfl⟩
      · have henabled : memory.config.enablePromptExtensions = true := by
          simpa using hdisabled
        cases hrecalled : memory.recallContent earlier r .workspaceContext with
        | nil =>
            simp only [hrecalled] at h
            cases h
            simp only [henabled]
            exact Or.inr ⟨rfl, _, rfl⟩
        | cons first rest =>
            simp only [hrecalled] at h
            cases h
            simp only [henabled]
            exact Or.inl ⟨rfl, _, rfl⟩

/-- An observation is the result of its call, or it is shown without one. -/
theorem processObservation_cases {obs : Observation} (hbody : r.event.body = .observation obs)
    (h : memory.processObservation earlier r obs = .ok (processed, r')) :
    (r.answersCall memory obs.cls = true ∧ ∃ shown, processed = toolResponse r.event shown) ∨
    (r.answersCall memory obs.cls = false ∧ ∃ messages, processed = .shown messages) := by
  rcases processObservation_ok h with ⟨hedit, text, edit, -, rfl, -⟩ | ⟨-, hprocess, -⟩
  · rw [hedit]
    exact Or.inl ⟨rfl, _, rfl⟩
  · obtain ⟨content, cls⟩ := obs
    cases cls with
    | null => cases hprocess
    | agentStateChanged agentState reason => cases hprocess
    | cmdOutput command hidden =>
        unfold OpenHands.processObservation at hprocess
        dsimp only at hprocess
        split_ifs at hprocess <;> cases hprocess <;> exact Or.inl ⟨rfl, _, rfl⟩
    | loopDetection =>
        cases hprocess
        exact Or.inr ⟨rfl, _, rfl⟩
    | «recall» recallType => exact processRecall_cases hbody hprocess
    | other cls => exact Or.inl ⟨rfl, processed_of_other hprocess⟩
    | _ =>
        cases hprocess
        exact Or.inl ⟨rfl, _, rfl⟩

/-- What an observation turns into has the mark of the observation, and it requests no
calls. -/
theorem marks_of_processObservation {obs : Observation}
    (hbody : r.event.body = .observation obs)
    (h : memory.processObservation earlier r obs = .ok (processed, r')) :
    processed.toolMark = r.toolMark memory ∧ (processed.HasCalls ↔ r.HasCalls memory) := by
  unfold HistoryEvent.toolMark HistoryEvent.HasCalls
  rw [hbody]
  rcases processObservation_cases hbody h with
    ⟨hanswers, shown, rfl⟩ | ⟨hanswers, messages, rfl⟩
  · rw [toolMark_toolResponse]
    unfold toolResponse
    cases r.event.toolCallMetadata with
    | none => exact ⟨rfl, Iff.rfl⟩
    | some metadata =>
        dsimp only
        rw [if_pos hanswers]
        exact ⟨rfl, Iff.rfl⟩
  · cases r.event.toolCallMetadata with
    | none => exact ⟨rfl, Iff.rfl⟩
    | some metadata =>
        dsimp only
        rw [hanswers]
        exact ⟨rfl, Iff.rfl⟩

theorem marks_of_processEvent (h : memory.processEvent earlier r = .ok (processed, r')) :
    processed.toolMark = r.toolMark memory ∧ (processed.HasCalls ↔ r.HasCalls memory) := by
  unfold processEvent at h
  split at h
  · rename_i action hbody
    exact marks_of_processAction hbody h
  · rename_i obs hbody
    exact marks_of_processObservation hbody h

/-- What an event turns into has the roles that the protocol expects. -/
theorem valid_processed (h : memory.processEvent earlier r = .ok (processed, r')) :
    processed.Valid := by
  unfold processEvent at h
  split at h
  · exact valid_processAction (processAction_ok h).1
  · rcases processObservation_ok h with ⟨-, text, edit, -, rfl, -⟩ | ⟨-, hprocess, -⟩
    · exact valid_toolResponse _ _
    · exact valid_processObservation hprocess

end Event

/-! ## The whole history -/

section History

variable {memory : ConversationMemory} {s s' : MemoryState} {processed : Processed}
  {messages : List Message}

/-- The stored messages have tool calls when the new one has. -/
theorem pending_store_iff
    (hcalls : ∀ entry ∈ s.pendingToolCallActionMessages.entries,
      entry.2.toolCalls.isSome = true) :
    (∀ entry ∈ (s.store processed).1.pendingToolCallActionMessages.entries,
      entry.2.toolCalls.isSome = true) ↔ processed.HasCalls := by
  cases processed with
  | shown shown => exact ⟨fun _ => trivial, fun _ => hcalls⟩
  | answers toolCallId message => exact ⟨fun _ => trivial, fun _ => hcalls⟩
  | requests responseId message =>
      constructor
      · intro h
        have hget : (s.pendingToolCallActionMessages.set responseId message).get? responseId
            = some message := by
          rw [PyDict.get?_set, if_pos rfl]
        exact h _ (PyDict.mem_entries_of_get? hget)
      · intro h entry hentry
        rcases PyDict.mem_entries_set hentry with rfl | hentry
        · exact h
        · exact hcalls entry hentry

/-- **One turn of the loop returns** exactly when the request has tool calls and no response
that is completed repeats a call. -/
theorem exists_memoryStep_iff (hs : s.Valid) (hprocessed : processed.Valid)
    (hcalls : ∀ entry ∈ s.pendingToolCallActionMessages.entries,
      entry.2.toolCalls.isSome = true) :
    (∃ out, memoryStep s processed = .ok out) ↔ processed.HasCalls ∧
      Ledger.NoRepeats (s.ledger.mark processed.toolMark).requested.entries
        (s.ledger.mark processed.toolMark) := by
  have hstored := (hs.store hprocessed).1
  have hstep : (∃ out, memoryStep s processed = .ok out) ↔
      ∃ completed, completePending (s.store processed).1.pendingToolCallActionMessages.entries
        (s.store processed).1 = .ok completed := by
    constructor
    · rintro ⟨out, h⟩
      obtain ⟨completed, hcomplete, -⟩ := memoryStep_eq h
      exact ⟨_, hcomplete⟩
    · rintro ⟨completed, hcomplete⟩
      unfold memoryStep
      simp only [hcomplete]
      exact ⟨_, rfl⟩
  rw [hstep, exists_completePending_iff hstored hstored.pending, pending_store_iff hcalls,
    ← Ledger.record_eq_mark, ← ledger_store]
  exact Iff.rfl

/-- The ledger after one turn. -/
theorem ledger_memoryStep (hs : s.Valid) (hprocessed : processed.Valid)
    (h : memoryStep s processed = .ok (messages, s')) :
    s'.ledger = (Ledger.complete (s.ledger.mark processed.toolMark).requested.entries
      (s.ledger.mark processed.toolMark)).2 := by
  have hstored := (hs.store hprocessed).1
  obtain ⟨completed, hcomplete, -⟩ := memoryStep_eq h
  have hledger := completePending_ledger hstored hstored.pending hcomplete
  rw [← Ledger.record_eq_mark, ← ledger_store]
  exact (congrArg Prod.snd hledger).symm

/-- **The loop returns** exactly when it can read every event and no response that is
completed repeats a call. -/
theorem exists_processLoop_iff : ∀ {events earlier : List HistoryEvent} {s : MemoryState},
    s.Valid →
    (∀ entry ∈ s.pendingToolCallActionMessages.entries, entry.2.toolCalls.isSome = true) →
    ((∃ out, memory.processLoop earlier events s = .ok out) ↔
      (∀ r ∈ events, r.Handled) ∧ (∀ r ∈ events, r.HasCalls memory) ∧
        s.ledger.CompletesOnce (events.map (HistoryEvent.toolMark memory))) := by
  intro events
  induction events with
  | nil =>
      intro earlier s _ _
      exact ⟨fun _ => ⟨fun _ h => (nomatch h), fun _ h => (nomatch h), trivial⟩,
        fun _ => ⟨_, rfl⟩⟩
  | cons r events ih =>
      intro earlier s hs hcalls
      rw [List.forall_mem_cons, List.forall_mem_cons, List.map_cons]
      -- what the loop does with `r`, and what is left for the events behind it
      have hnext {processed : Processed} {r' : HistoryEvent} {emitted : List Message}
          {s' : MemoryState} (hevent : memory.processEvent earlier r = .ok (processed, r'))
          (hstep : memoryStep s processed = .ok (emitted, s')) :
          (∃ out, memory.processLoop (earlier ++ [r']) events s' = .ok out) ↔
            (∀ r ∈ events, r.Handled) ∧ (∀ r ∈ events, r.HasCalls memory) ∧
              (Ledger.complete (s.ledger.mark (r.toolMark memory)).requested.entries
                (s.ledger.mark (r.toolMark memory))).2.CompletesOnce
                (events.map (HistoryEvent.toolMark memory)) := by
        have hprocessed := valid_processed hevent
        -- the request has tool calls, or the turn would not have returned
        have hpending := (pending_store_iff hcalls).mpr
          ((exists_memoryStep_iff hs hprocessed hcalls).mp ⟨_, hstep⟩).1
        obtain ⟨completed, hcomplete, -⟩ := memoryStep_eq hstep
        rw [← (marks_of_processEvent hevent).1, ← ledger_memoryStep hs hprocessed hstep]
        exact ih (memoryStep_ok hs hprocessed hstep).2
          fun entry hentry => hpending entry (pending_of_completePending hcomplete entry hentry)
      constructor
      · rintro ⟨⟨messages, left⟩, h⟩
        obtain ⟨processed, r', emitted, s', later, rest, hevent, hstep, hloop, -, -⟩ :=
          processLoop_cons h
        obtain ⟨hmark, hhas⟩ := marks_of_processEvent hevent
        obtain ⟨hcall, hrepeats⟩ :=
          (exists_memoryStep_iff hs (valid_processed hevent) hcalls).mp ⟨_, hstep⟩
        obtain ⟨hhandled, hhasCalls, honce⟩ := (hnext hevent hstep).mp ⟨_, hloop⟩
        rw [hmark] at hrepeats
        exact ⟨⟨exists_processEvent_iff.mp ⟨_, hevent⟩, hhandled⟩,
          ⟨hhas.mp hcall, hhasCalls⟩, hrepeats, honce⟩
      · rintro ⟨⟨hr, hhandled⟩, ⟨hcall, hhasCalls⟩, hrepeats, honce⟩
        have hread : ∃ out, memory.processEvent earlier r = .ok out :=
          exists_processEvent_iff.mpr hr
        obtain ⟨⟨processed, r'⟩, hevent⟩ := hread
        obtain ⟨hmark, hhas⟩ := marks_of_processEvent hevent
        rw [← hmark] at hrepeats
        obtain ⟨⟨emitted, s'⟩, hstep⟩ :=
          (exists_memoryStep_iff hs (valid_processed hevent) hcalls).mpr
            ⟨hhas.mpr hcall, hrepeats⟩
        obtain ⟨⟨later, rest⟩, hloop⟩ := (hnext hevent hstep).mpr ⟨hhandled, hhasCalls, honce⟩
        unfold processLoop
        simp only [hevent, hstep, hloop]
        exact ⟨_, rfl⟩

/-! ## The leading events can be read -/

variable {condensedHistory : List HistoryEvent} {initialUserAction r : HistoryEvent}

/-- A message can be read. -/
theorem handled_of_isUserMessage (h : r.event.isUserMessage = true) :
    r.Handled ∧ r.HasCalls memory := by
  unfold Event.isUserMessage at h
  unfold HistoryEvent.Handled HistoryEvent.HasCalls
  split at h
  · rename_i hbody
    rw [hbody]
    exact ⟨fun htool => (nomatch htool), fun htool => (nomatch htool)⟩
  · cases h

theorem mem_ensureInitialUserMessage {events : List HistoryEvent}
    (h : r ∈ ensureInitialUserMessage initialUserAction events) :
    r = initialUserAction ∨ r ∈ events := by
  unfold ensureInitialUserMessage at h
  split at h
  · exact Or.inr h
  · simp only [List.mem_cons] at h ⊢
    tauto
  · split_ifs at h
    · exact Or.inr h
    · simp only [List.mem_cons] at h ⊢
      tauto

theorem mem_ensureInitialUserMessage_of_mem {events : List HistoryEvent} (h : r ∈ events) :
    r ∈ ensureInitialUserMessage initialUserAction events := by
  unfold ensureInitialUserMessage
  split
  · exact h
  · simp only [List.mem_cons] at h ⊢
    tauto
  · split_ifs
    · exact h
    · simp only [List.mem_cons] at h ⊢
      tauto

/-- The events that are inserted can be read. -/
theorem mem_or_readable (huser : initialUserAction.event.isUserMessage = true)
    (h : r ∈ memory.ensuredEvents condensedHistory initialUserAction) :
    r ∈ condensedHistory ∨ r.Handled ∧ r.HasCalls memory := by
  rcases mem_ensureInitialUserMessage h with rfl | h
  · exact Or.inr (handled_of_isUserMessage huser)
  · unfold ensureSystemMessage at h
    split_ifs at h
    · exact Or.inl h
    · exact Or.inl h
    · rcases List.mem_cons.mp h with rfl | h
      · exact Or.inr ⟨fun htool => (nomatch htool), fun htool => (nomatch htool)⟩
      · exact Or.inl h

/-- No event is taken out of the history. -/
theorem mem_ensuredEvents (h : r ∈ condensedHistory) :
    r ∈ memory.ensuredEvents condensedHistory initialUserAction := by
  apply mem_ensureInitialUserMessage_of_mem
  unfold ensureSystemMessage
  split_ifs
  · exact h
  · exact h
  · exact List.mem_cons_of_mem _ h

/-- A history is read exactly when its events, with those that are inserted, are. -/
theorem exists_processEvents_iff (huser : initialUserAction.event.isUserMessage = true) :
    (∃ out, memory.processEvents condensedHistory initialUserAction = .ok out) ↔
      memory.Readable condensedHistory initialUserAction := by
  have hcall : (∃ out, memory.processEvents condensedHistory initialUserAction = .ok out) ↔
      ∃ out, memory.processLoop [] (memory.ensuredEvents condensedHistory initialUserAction) {}
        = .ok out := by
    unfold processEvents
    cases memory.processLoop [] (memory.ensuredEvents condensedHistory initialUserAction) {} with
    | error err => exact ⟨fun ⟨_, h⟩ => (nomatch h), fun ⟨_, h⟩ => (nomatch h)⟩
    | ok out => exact ⟨fun _ => ⟨_, rfl⟩, fun _ => ⟨_, rfl⟩⟩
  rw [hcall, exists_processLoop_iff MemoryState.valid_new fun _ h => (nomatch h)]
  constructor
  · rintro ⟨hhandled, hcalls, honce⟩
    exact ⟨fun r hr => hhandled r (mem_ensuredEvents hr),
      fun r hr => hcalls r (mem_ensuredEvents hr), honce⟩
  · rintro ⟨hhandled, hcalls, honce⟩
    refine ⟨fun r hr => ?_, fun r hr => ?_, honce⟩
    · rcases mem_or_readable huser hr with hr | hr
      · exact hhandled r hr
      · exact hr.1
    · rcases mem_or_readable huser hr with hr | hr
      · exact hcalls r hr
      · exact hr.2

end History

/-- **A history is read, the first time and again**, exactly when every observation has a
branch, the tool actions have their metadata, the file edits have a text, the responses have
tool calls, and no response that is completed repeats a call. -/
theorem returnsAgain_iff (memory : ConversationMemory) (condensedHistory : List HistoryEvent)
    {initialUserAction : HistoryEvent}
    (huser : initialUserAction.event.isUserMessage = true) :
    memory.ReturnsAgain condensedHistory initialUserAction ↔
      memory.Readable condensedHistory initialUserAction := by
  rw [← exists_processEvents_iff huser]
  constructor
  · rintro ⟨messages, left, h, -⟩
    exact ⟨_, h⟩
  · rintro ⟨⟨messages, left⟩, h⟩
    exact ⟨messages, left, h, left, processEvents_again huser h⟩

end ConversationMemory

/-! ## A file that the agent has written -/

/-- A memory whose prompts and responses are plain. -/
def plainMemory : ConversationMemory where
  config := {}
  promptManager := ⟨fun _ _ _ _ => "", fun _ => ""⟩
  disabledMicroagents := []
  texts := oneCallTexts
  groupedOpcodes _ _ _ := []

/-- The task. -/
def taskMessage : HistoryEvent where
  event := { Event.ofAction (.message { content := "write hello.sh" }) with source := some .user }

/-- A command that came from a tool call, its output, and the end of the task. -/
def finishedHistory : List HistoryEvent :=
  let metadata : ToolCallMetadata := ⟨"execute_bash", "c1", "c1", 1⟩
  [{ event := .ofAction (.systemMessage "You are an agent.") }, taskMessage,
    { event := { Event.ofAction (.run { cls := .cmdRun false, input := "touch hello.sh" }) with
        source := some .agent, toolCallMetadata := some metadata } },
    { event := { Event.ofObservation "" (.cmdOutput "touch hello.sh" false) with
        source := some .environment, toolCallMetadata := some metadata } },
    { event := { Event.ofAction (.agentFinish []) with
        source := some .agent, toolCallMetadata := some ⟨"finish", "c2", "c2", 1⟩ }
      thought := "done" }]

/-- A file is written, and the runtime answers with the observation of its class. -/
def writtenFile : List HistoryEvent :=
  [{ event := .ofAction (.systemMessage "You are an agent.") }, taskMessage,
    { event := { Event.ofAction (.run { cls := .fileWrite, input := "hello.sh" }) with
        source := some .agent } },
    { event := { Event.ofObservation "" (.other "write") with source := some .environment } }]

/-- The finished task is read again. -/
theorem returnsAgain_finishedHistory : plainMemory.ReturnsAgain finishedHistory taskMessage := by
  apply (ConversationMemory.returnsAgain_iff plainMemory finishedHistory (by decide)).mpr
  refine ⟨?_, ?_, ?_⟩
  · simp [finishedHistory, HistoryEvent.Handled, taskMessage, Event.ofAction, Event.ofObservation,
      Action.isTool, ObservationClass.hasBranch]
  · simp [finishedHistory, HistoryEvent.HasCalls, taskMessage, Event.ofAction,
      Event.ofObservation, Action.isTool, plainMemory, oneCallTexts]
  · decide

/-- The written file is not: its observation has no branch. -/
theorem not_returnsAgain_writtenFile :
    (∀ r ∈ writtenFile, agentHistoryFilter.include r.event = true) ∧
      plainMemory.processEvents writtenFile taskMessage
        = .error (.valueError "Unknown observation type") ∧
      ¬ plainMemory.ReturnsAgain writtenFile taskMessage := by
  have hraised : plainMemory.processEvents writtenFile taskMessage
      = .error (.valueError "Unknown observation type") := rfl
  refine ⟨by decide, hraised, ?_⟩
  rintro ⟨messages, left, h, -⟩
  rw [hraised] at h
  cases h

end OpenHands
