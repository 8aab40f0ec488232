/-
# Which tool calls are completed

A `Ledger` keeps account of the requested and of the answered tool calls by their ids
alone.  It says which responses the loop of `process_events` completes
(`completedCalls_eq`), and with it when the returned messages follow the tool protocol:

  * `toolProtocol_processEvents_iff` — exactly when no completed call has the empty id;
  * `processEvents_returns` — a list is returned when every event can be processed and the
    calls of each response have different ids.
-/
import OpenHands.ToolProtocol

namespace OpenHands

/-! ## The account of the ids -/

/-- The responses that wait, with the ids of their calls, and the ids with a result. -/
structure Ledger where
  requested : PyDict String (List String) := .empty
  answered : PyDict String Unit := .empty

/-- An event requests the calls of a response, or answers a call. -/
def Ledger.record (l : Ledger) : Processed → Ledger
  | .shown _ => l
  | .requests responseId message =>
    { l with requested := l.requested.set responseId message.callIds }
  | .answers toolCallId _ => { l with answered := l.answered.set toolCallId () }

/-- The responses all of whose calls are answered leave the ledger, one after the other,
with their answers. -/
def Ledger.complete : List (String × List String) → Ledger → List String × Ledger
  | [], l => ([], l)
  | (responseId, ids) :: entries, l =>
    if ids.all l.answered.contains then
      let (completed, l) :=
        complete entries ⟨l.requested.pop responseId, ids.foldl PyDict.pop l.answered⟩
      (ids ++ completed, l)
    else complete entries l

variable (texts : EventTexts) (config : MemoryConfig)

/-- The ids of the calls of the responses that the events complete. -/
def completedCalls (earlier : List Event) : List Event → Ledger → List String
  | [], _ => []
  | e :: events, l =>
    let l := match processEvent texts config earlier e with
      | .ok processed => l.record processed
      | .error _ => l
    let (completed, l) := Ledger.complete l.requested.entries l
    completed ++ completedCalls (earlier ++ [e]) events l

/-! ## The loop keeps this account -/

/-- The ledger of the dictionaries. -/
def MemoryState.ledger (s : MemoryState) : Ledger where
  requested := s.pendingToolCallActionMessages.mapValues Message.callIds
  answered := s.toolCallIdToMessage.mapValues fun _ => ()

section Account

variable {texts : EventTexts} {config : MemoryConfig} {s s' : MemoryState}
  {processed : Processed} {messages : List Message}

/-- Storing an event records it. -/
theorem ledger_store (s : MemoryState) (processed : Processed) :
    (s.store processed).1.ledger = s.ledger.record processed := by
  cases processed with
  | shown shown => rfl
  | requests responseId message =>
      unfold MemoryState.ledger MemoryState.store Ledger.record
      rw [PyDict.mapValues_set]
  | answers toolCallId message =>
      unfold MemoryState.ledger MemoryState.store Ledger.record
      rw [PyDict.mapValues_set]

/-- The messages that an event shows carry no calls. -/
theorem callIds_store (hprocessed : processed.Valid) :
    (s.store processed).2.flatMap Message.callIds = [] := by
  cases processed with
  | shown shown =>
      rw [List.flatMap_eq_nil_iff]
      exact fun m hm => (hprocessed m hm).2
  | requests responseId message => rfl
  | answers toolCallId message => rfl

/-- Results carry no calls, and they are taken under the ids of the calls. -/
theorem takeResults_ledger {calls : List ToolCall} :
    ∀ {results left : PyDict String Message} {messages : List Message},
      takeResults calls results = .ok (messages, left) →
      left.mapValues (fun _ => ())
        = (calls.map ToolCall.id).foldl PyDict.pop (results.mapValues fun _ => ()) := by
  induction calls with
  | nil =>
      intro results left messages h
      cases h
      rfl
  | cons call calls ih =>
      intro results left messages h
      obtain ⟨message, rest, -, htake, -⟩ := takeResults_cons h
      rw [List.map_cons, List.foldl_cons, ← PyDict.mapValues_pop]
      exact ih htake

theorem callIds_of_answers {calls : List ToolCall}
    (h : List.Forall₂ Message.Answers messages calls) :
    messages.flatMap Message.callIds = [] := by
  induction h with
  | nil => rfl
  | cons hanswers _ ih =>
      rw [List.flatMap_cons, ih, List.append_nil]
      unfold Message.callIds
      rw [hanswers.1, if_neg (by decide)]

theorem callIds_of_toolCalls {message : Message} {calls : List ToolCall}
    (hrole : message.role = .assistant) (hcalls : message.toolCalls = some calls) :
    message.callIds = calls.map ToolCall.id := by
  unfold Message.callIds
  rw [if_pos hrole, hcalls]
  rfl

/-- The calls that have a result are answered in the ledger. -/
theorem all_answered (s : MemoryState) (calls : List ToolCall) :
    (calls.map ToolCall.id).all s.ledger.answered.contains
      = calls.all fun call => s.toolCallIdToMessage.contains call.id := by
  rw [List.all_map]
  congr 1
  funext call
  exact PyDict.contains_mapValues _ _ _

/-- When the results of a response are taken, it leaves the ledger with its answers. -/
theorem ledger_taken {calls : List ToolCall} {left : PyDict String Message}
    (htake : takeResults calls s.toolCallIdToMessage = .ok (messages, left))
    (responseId : String) :
    MemoryState.ledger ⟨s.pendingToolCallActionMessages.pop responseId, left⟩
      = ⟨s.ledger.requested.pop responseId,
        (calls.map ToolCall.id).foldl PyDict.pop s.ledger.answered⟩ := by
  unfold MemoryState.ledger
  rw [PyDict.mapValues_pop, takeResults_ledger htake]

/-- The check of the pending messages completes what the ledger says. -/
theorem completePending_ledger {entries : List (String × Message)} :
    ∀ {s s' : MemoryState} {messages : List Message}, s.Valid →
      (∀ entry ∈ entries, entry.2.role = .assistant) →
      completePending entries s = .ok (messages, s') →
      Ledger.complete (entries.map fun entry => (entry.1, entry.2.callIds)) s.ledger
        = (messages.flatMap Message.callIds, s'.ledger) := by
  induction entries with
  | nil =>
      intro s s' messages _ _ h
      cases h
      rfl
  | cons entry entries ih =>
      intro s s' messages hs hroles h
      have hrest : ∀ entry ∈ entries, entry.2.role = .assistant :=
        fun entry hentry => hroles entry (List.mem_cons_of_mem _ hentry)
      obtain ⟨calls, hcalls, hcases⟩ := completePending_cons h
      have hids := callIds_of_toolCalls (hroles entry List.mem_cons_self) hcalls
      rw [List.map_cons]
      unfold Ledger.complete
      rw [hids, all_answered]
      rcases hcases with ⟨hall, h⟩ | ⟨hall, results, left, rest, htake, hpending, rfl⟩
      · rw [if_neg (by rw [hall]; decide)]
        exact ih hs hrest h
      · rw [if_pos hall]
        obtain ⟨hanswers, -⟩ := takeResults_ok hs.results htake
        rw [← ledger_taken htake, ih (hs.taken htake entry.1) hrest hpending, List.cons_append,
          List.flatMap_cons, List.flatMap_append, callIds_of_answers hanswers, List.nil_append,
          hids]

/-- **The loop completes what the ledger says.** -/
theorem completedCalls_eq :
    ∀ {events earlier : List Event} {s : MemoryState} {messages : List Message}, s.Valid →
      processLoop texts config earlier events s = .ok messages →
      completedCalls texts config earlier events s.ledger
        = messages.flatMap Message.callIds := by
  intro events
  induction events with
  | nil =>
      intro earlier s messages _ h
      cases h
      rfl
  | cons e events ih =>
      intro earlier s messages hs h
      obtain ⟨processed, emitted, s', later, hevent, hstep, hloop, rfl⟩ := processLoop_cons h
      have hprocessed := valid_processEvent hevent
      obtain ⟨-, hs'⟩ := memoryStep_ok hs hprocessed hstep
      obtain ⟨completed, hcomplete, rfl⟩ := memoryStep_eq hstep
      have hstored := (hs.store hprocessed).1
      have hledger := completePending_ledger hstored hstored.pending hcomplete
      unfold completedCalls
      rw [hevent]
      show (Ledger.complete (s.ledger.record processed).requested.entries
          (s.ledger.record processed)).1 ++ completedCalls texts config (earlier ++ [e]) events
          (Ledger.complete (s.ledger.record processed).requested.entries
            (s.ledger.record processed)).2 = _
      rw [← ledger_store]
      rw [show (s.store processed).1.ledger.requested.entries
        = (s.store processed).1.pendingToolCallActionMessages.entries.map
          (fun entry => (entry.1, entry.2.callIds)) from rfl]
      rw [hledger, ih hs' hloop, List.flatMap_append, List.flatMap_append,
        callIds_store hprocessed, List.nil_append]

end Account

/-! ## When a list is returned -/

section Returns

variable {texts : EventTexts} {config : MemoryConfig} {s : MemoryState}

/-- The response has tool calls, with different ids. -/
def Message.DistinctCalls (m : Message) : Prop :=
  ∃ calls, m.toolCalls = some calls ∧ (calls.map ToolCall.id).Nodup

/-- Every event can be processed, and the calls of each response have different ids. -/
def Processable (texts : EventTexts) (config : MemoryConfig) (earlier : List Event) :
    List Event → Prop
  | [] => True
  | e :: events =>
    (∃ processed, processEvent texts config earlier e = .ok processed ∧
      ∀ responseId message, processed = .requests responseId message → message.DistinctCalls) ∧
    Processable texts config (earlier ++ [e]) events

/-- Different ids that all have a result are taken one by one. -/
theorem exists_takeResults {calls : List ToolCall} :
    ∀ {results : PyDict String Message}, (calls.map ToolCall.id).Nodup →
      (calls.all fun call => results.contains call.id) = true →
      ∃ taken, takeResults calls results = .ok taken := by
  induction calls with
  | nil => exact fun _ _ => ⟨_, rfl⟩
  | cons call calls ih =>
      intro results hnodup hall
      rw [List.map_cons, List.nodup_cons] at hnodup
      rw [List.all_cons, Bool.and_eq_true] at hall
      rw [← PyDict.isSome_get?, Option.isSome_iff_exists] at hall
      obtain ⟨⟨message, hget⟩, hrest⟩ := hall
      have hleft : (calls.all fun c => (results.pop call.id).contains c.id) = true := by
        rw [List.all_eq_true] at hrest ⊢
        intro c hc
        have hne : c.id ≠ call.id := by
          intro heq
          exact hnodup.1 (heq ▸ List.mem_map_of_mem hc)
        rw [PyDict.contains_pop_of_ne hne]
        exact hrest c hc
      obtain ⟨taken, htake⟩ := ih hnodup.2 hleft
      refine ⟨(message :: taken.1, taken.2), ?_⟩
      unfold takeResults
      simp only [hget, htake]

theorem exists_completePending {entries : List (String × Message)} :
    ∀ {s : MemoryState}, (∀ entry ∈ entries, entry.2.DistinctCalls) →
      ∃ completed, completePending entries s = .ok completed ∧
        ∀ entry ∈ completed.2.pendingToolCallActionMessages.entries,
          entry ∈ s.pendingToolCallActionMessages.entries := by
  induction entries with
  | nil => exact fun _ => ⟨_, rfl, fun _ h => h⟩
  | cons entry entries ih =>
      intro s hdistinct
      obtain ⟨calls, hcalls, hnodup⟩ := hdistinct entry List.mem_cons_self
      have hrest : ∀ entry ∈ entries, entry.2.DistinctCalls :=
        fun entry hentry => hdistinct entry (List.mem_cons_of_mem _ hentry)
      unfold completePending
      simp only [hcalls]
      split
      · rename_i hall
        obtain ⟨taken, htake⟩ := exists_takeResults hnodup hall
        obtain ⟨completed, hcomplete, hsub⟩ := ih
          (s := ⟨s.pendingToolCallActionMessages.pop entry.1, taken.2⟩) hrest
        refine ⟨(entry.2 :: taken.1 ++ completed.1, completed.2), ?_, ?_⟩
        · simp only [htake, hcomplete]
        · intro e he
          exact PyDict.mem_entries_pop (hsub e he)
      · exact ih hrest

theorem exists_processLoop {events : List Event} :
    ∀ {earlier : List Event} {s : MemoryState},
      (∀ entry ∈ s.pendingToolCallActionMessages.entries, entry.2.DistinctCalls) →
      Processable texts config earlier events →
      ∃ messages, processLoop texts config earlier events s = .ok messages := by
  induction events with
  | nil => exact fun _ _ => ⟨_, rfl⟩
  | cons e events ih =>
      intro earlier s hdistinct h
      obtain ⟨⟨processed, hevent, hrequests⟩, hrest⟩ := h
      have hstored : ∀ entry ∈ (s.store processed).1.pendingToolCallActionMessages.entries,
          entry.2.DistinctCalls := by
        cases processed with
        | shown shown => exact hdistinct
        | requests responseId message =>
            intro entry hentry
            rcases PyDict.mem_entries_set hentry with rfl | hentry
            · exact hrequests responseId message rfl
            · exact hdistinct entry hentry
        | answers toolCallId message => exact hdistinct
      obtain ⟨completed, hcomplete, hsub⟩ := exists_completePending
        (s := (s.store processed).1) hstored
      obtain ⟨later, hloop⟩ := ih (s := completed.2)
        (fun entry hentry => hstored entry (hsub entry hentry)) hrest
      refine ⟨(s.store processed).2 ++ completed.1 ++ later, ?_⟩
      have hstep : memoryStep s processed
          = .ok ((s.store processed).2 ++ completed.1, completed.2) := by
        unfold memoryStep
        simp only [hcomplete]
      unfold processLoop
      simp only [hevent, hstep, hloop]

end Returns

/-- **A list of messages is returned** when every event can be processed and the calls of
each response have different ids. -/
theorem processEvents_returns {condensedHistory : List Event} {initialUserAction : Event}
    (h : Processable texts config [] (ensuredEvents config condensedHistory initialUserAction)) :
    ∃ messages, processEvents texts config condensedHistory initialUserAction
      = .ok messages := by
  obtain ⟨messages, hloop⟩ := exists_processLoop (s := {}) (fun entry hentry => nomatch hentry) h
  refine ⟨applyUserMessageFormatting none (filterUnmatchedToolCalls messages), ?_⟩
  unfold processEvents
  rw [hloop]
  rfl

/-- **The returned messages follow the tool protocol** exactly when no completed call has
the empty id. -/
theorem toolProtocol_processEvents_iff {condensedHistory : List Event}
    {initialUserAction : Event} {messages : List Message}
    (h : processEvents texts config condensedHistory initialUserAction = .ok messages) :
    ToolProtocol messages ↔
      "" ∉ completedCalls texts config []
        (ensuredEvents config condensedHistory initialUserAction) {} := by
  unfold processEvents at h
  cases hloop : processLoop texts config []
      (ensuredEvents config condensedHistory initialUserAction) {} with
  | error e =>
      rw [hloop] at h
      cases h
  | ok emitted =>
      rw [hloop] at h
      cases h
      have hprotocol := toolProtocol_processLoop MemoryState.valid_new hloop
      have hledger := completedCalls_eq MemoryState.valid_new hloop
      rw [toolProtocol_formatting_iff, toolProtocol_filter_iff hprotocol, ← hledger]
      exact Iff.rfl

/-- Responses with one call of a tool to run a command; the metadata name the id of the
call. -/
def oneCallTexts : EventTexts where
  response id := { id := id, content := none, toolCalls := some [⟨id, "execute_bash", "{}"⟩] }
  thought _ := ""
  imageUrls _ := []
  actionText _ := ""
  observationText e := match e.body with
    | .observation o => o.content
    | .action _ => ""
  observationContent _ := []
  recallContent _ _ := []

/-- The task, a command that came from a tool call, and its output. -/
def commandHistory (toolCallId : String) : List Event :=
  let metadata : ToolCallMetadata := ⟨"execute_bash", toolCallId, toolCallId, 1⟩
  [.ofAction (.systemMessage "You are an agent."),
    { Event.ofAction (.message { content := "list the files" }) with source := some .user },
    { Event.ofAction (.run { cls := .cmdRun false, input := "ls" }) with
      source := some .agent, toolCallMetadata := some metadata },
    { Event.ofObservation "README.md" (.cmdOutput "ls" false) with
      toolCallMetadata := some metadata }]

/-- The messages before the first tool call. -/
def taskMessages : List Message :=
  [⟨.system, [.text "You are an agent."], none, none, none⟩,
    ⟨.user, [.text "list the files"], none, none, none⟩]

/-- The call is followed by its result. -/
theorem toolProtocol_commandHistory :
    ToolProtocol (taskMessages ++
      [⟨.assistant, [], some [⟨"c1", "execute_bash", "{}"⟩], none, none⟩,
        ⟨.tool, [.text "README.md"], none, some "c1", some "execute_bash"⟩]) :=
  have hprocessed : processEvents oneCallTexts {} (commandHistory "c1")
      (.ofAction (.message { content := "list the files" })) = .ok (taskMessages ++
        [⟨.assistant, [], some [⟨"c1", "execute_bash", "{}"⟩], none, none⟩,
          ⟨.tool, [.text "README.md"], none, some "c1", some "execute_bash"⟩]) := rfl
  (toolProtocol_processEvents_iff oneCallTexts {} hprocessed).mpr (by decide)

/-- A call with the empty id is dropped, and its result is left behind the task. -/
theorem emptyId_leaves_result :
    processEvents oneCallTexts {} (commandHistory "")
        (.ofAction (.message { content := "list the files" }))
      = .ok (taskMessages ++ [⟨.tool, [.text "README.md"], none, some "", some "execute_bash"⟩]) ∧
    ¬ ToolProtocol (taskMessages ++
      [⟨.tool, [.text "README.md"], none, some "", some "execute_bash"⟩]) := by
  refine ⟨rfl, fun h => ?_⟩
  have hpaired := h.callIds_eq
  revert hpaired
  decide

end OpenHands
