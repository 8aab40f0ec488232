/-
# The tool protocol of the LLM

`ToolProtocol`: every message of the assistant with tool calls is followed by the results
of its calls, one for each and in their order, and there is no other tool message.

The loop of `process_events` only emits such exchanges (`toolProtocol_processLoop`).  The
filter behind it leaves them as they are, except for calls with the empty id: it drops the
call and keeps the result (`toolProtocol_filter_iff`).
-/
import OpenHands.ConversationMemory

namespace OpenHands

/-! ## The protocol -/

/-- The message is the result of the call. -/
def Message.Answers (m : Message) (call : ToolCall) : Prop :=
  m.role = .tool ∧ m.toolCallId = some call.id

/-- A message outside of every exchange. -/
def Message.Plain (m : Message) : Prop :=
  m.role ≠ .tool ∧ m.callIds = []

/-- The messages are plain, or requests for tool calls with their results behind them. -/
inductive ToolProtocol : List Message → Prop where
  | nil : ToolProtocol []
  | plain {m : Message} {messages : List Message} (hplain : m.Plain)
      (rest : ToolProtocol messages) : ToolProtocol (m :: messages)
  | exchange {m : Message} {calls : List ToolCall} {results messages : List Message}
      (hrole : m.role = .assistant) (hcalls : m.toolCalls = some calls)
      (hresults : List.Forall₂ Message.Answers results calls)
      (rest : ToolProtocol messages) : ToolProtocol (m :: (results ++ messages))

theorem ToolProtocol.append {a b : List Message} (ha : ToolProtocol a) (hb : ToolProtocol b) :
    ToolProtocol (a ++ b) := by
  induction ha with
  | nil => exact hb
  | plain hplain rest ih => exact .plain hplain ih
  | exchange hrole hcalls hresults rest ih =>
      rw [List.cons_append, List.append_assoc]
      exact .exchange hrole hcalls hresults ih

/-- What the protocol says of a message. -/
def Message.shape (m : Message) : Role × Option (List ToolCall) × Option String :=
  (m.role, m.toolCalls, m.toolCallId)

/-- The protocol does not depend on the contents. -/
theorem ToolProtocol.of_shape {messages : List Message} (h : ToolProtocol messages) :
    ∀ messages' : List Message, messages'.map Message.shape = messages.map Message.shape →
      ToolProtocol messages' := by
  induction h with
  | nil =>
      intro messages' hshape
      rw [List.map_eq_nil_iff.mp hshape]
      exact .nil
  | @plain m messages hplain rest ih =>
      intro messages' hshape
      rw [List.map_cons, List.map_eq_cons_iff] at hshape
      obtain ⟨m', rest', rfl, hm, hrest⟩ := hshape
      simp only [Message.shape, Prod.mk.injEq] at hm
      refine .plain ?_ (ih rest' hrest)
      unfold Message.Plain Message.callIds at hplain ⊢
      rw [hm.1, hm.2.1]
      exact hplain
  | @exchange m calls results messages hrole hcalls hresults rest ih =>
      intro messages' hshape
      rw [List.map_cons, List.map_eq_cons_iff] at hshape
      obtain ⟨m', rest', rfl, hm, hrest⟩ := hshape
      rw [List.map_append, List.map_eq_append_iff] at hrest
      obtain ⟨results', messages'', rfl, hresults', hmessages'⟩ := hrest
      simp only [Message.shape, Prod.mk.injEq] at hm
      refine .exchange (hm.1.trans hrole) (hm.2.1.trans hcalls) ?_ (ih messages'' hmessages')
      clear rest ih hmessages' hcalls
      induction hresults generalizing results' with
      | nil =>
          rw [List.map_eq_nil_iff.mp hresults']
          exact .nil
      | cons hanswers _ ih =>
          rw [List.map_cons, List.map_eq_cons_iff] at hresults'
          obtain ⟨r', rest', rfl, hr, hrest⟩ := hresults'
          simp only [Message.shape, Prod.mk.injEq] at hr
          exact .cons ⟨hr.1.trans hanswers.1, hr.2.2.trans hanswers.2⟩ (ih rest' hrest)

/-- Calls and results pair up one by one. -/
theorem ToolProtocol.callIds_eq {messages : List Message} (h : ToolProtocol messages) :
    messages.flatMap Message.callIds = messages.filterMap Message.responseId := by
  induction h with
  | nil => rfl
  | plain hplain rest ih =>
      rw [List.flatMap_cons, hplain.2, List.nil_append, ih, List.filterMap_cons]
      unfold Message.responseId
      rw [if_neg hplain.1]
  | @exchange m calls results messages hrole hcalls hresults rest ih =>
      have hm : m.callIds = calls.map ToolCall.id := by
        unfold Message.callIds
        rw [if_pos hrole, hcalls]
        rfl
      have hno : m.responseId = none := by
        unfold Message.responseId
        rw [hrole, if_neg (by decide)]
      have hpaired : results.flatMap Message.callIds = [] ∧
          results.filterMap Message.responseId = calls.map ToolCall.id := by
        clear rest ih hm hcalls
        induction hresults with
        | nil => exact ⟨rfl, rfl⟩
        | @cons r call results calls hanswers _ ih =>
            have hr : r.callIds = [] ∧ r.responseId = some call.id := by
              unfold Message.callIds Message.responseId
              rw [hanswers.1, if_neg (by decide), if_pos rfl]
              exact ⟨rfl, hanswers.2⟩
            rw [List.flatMap_cons, List.filterMap_cons, hr.1, hr.2, ih.1, ih.2]
            exact ⟨rfl, rfl⟩
      rw [List.flatMap_cons, List.flatMap_append, List.filterMap_cons, hno]
      show _ = (results ++ messages).filterMap Message.responseId
      rw [List.filterMap_append, hpaired.1, hpaired.2, hm, List.nil_append, ih]

/-! ## The final passes -/

/-- The formatting changes contents only. -/
theorem shape_applyUserMessageFormatting (messages : List Message) :
    ∀ prevRole, (applyUserMessageFormatting prevRole messages).map Message.shape
      = messages.map Message.shape := by
  induction messages with
  | nil => exact fun _ => rfl
  | cons m messages ih =>
      intro prevRole
      unfold applyUserMessageFormatting
      rw [List.map_cons, List.map_cons, ih]
      split_ifs <;> rfl

theorem toolProtocol_formatting_iff (prevRole : Option Role) (messages : List Message) :
    ToolProtocol (applyUserMessageFormatting prevRole messages) ↔ ToolProtocol messages := by
  constructor
  · intro h
    exact h.of_shape messages (shape_applyUserMessageFormatting messages prevRole).symm
  · intro h
    exact h.of_shape _ (shape_applyUserMessageFormatting messages prevRole)

/-- A message that the filter leaves as it is. -/
theorem filterMessage_eq_some {callIds responseIds : List String} {m : Message}
    (hcalls : ∀ id ∈ m.callIds, id ∈ responseIds) (hresponse : ∀ id ∈ m.responseId, id ∈ callIds) :
    filterMessage callIds responseIds m = some m := by
  unfold filterMessage
  by_cases htool : m.role = .tool ∧ m.toolCallId.any (· ≠ "")
  · rw [if_pos htool, if_pos]
    obtain ⟨id, hid, -⟩ := (Option.any_eq_true _ _).mp htool.2
    have hmem : id ∈ callIds := by
      apply hresponse
      unfold Message.responseId
      rw [if_pos htool.1, hid]
      exact Option.mem_some_self id
    rw [hid]
    simpa using hmem
  · rw [if_neg htool]
    by_cases hassistant : m.role = .assistant ∧ m.toolCalls.any (· ≠ [])
    · rw [if_pos hassistant]
      have hall : (m.toolCalls.getD []).all (fun call => call.id ∈ responseIds) = true := by
        rw [List.all_eq_true]
        intro call hcall
        have hmem : call.id ∈ responseIds := by
          apply hcalls
          unfold Message.callIds
          rw [if_pos hassistant.1]
          exact List.mem_map_of_mem hcall
        simpa using hmem
      exact if_pos hall
    · rw [if_neg hassistant]

/-- The calls that the filter leaves have a result. -/
theorem callIds_of_filterMessage {callIds responseIds : List String} {m m' : Message}
    (h : filterMessage callIds responseIds m = some m') :
    ∀ id ∈ m'.callIds, id ∈ responseIds := by
  simp only [filterMessage] at h
  intro id hid
  unfold Message.callIds at hid
  split_ifs at hid with hrole
  · obtain ⟨call, hcall, rfl⟩ := List.mem_map.mp hid
    split_ifs at h with htool hin hassistant hall hmatched
    · cases h
      rw [htool.1] at hrole
      cases hrole
    · cases h
      rw [List.all_eq_true] at hall
      simpa using hall call hcall
    · cases h
      simpa using (List.mem_filter.mp hcall).2
    · cases h
      exfalso
      apply hassistant
      refine ⟨hrole, ?_⟩
      cases hcalls : m.toolCalls with
      | none =>
          rw [hcalls] at hcall
          cases hcall
      | some calls =>
          rw [hcalls] at hcall
          have hne : calls ≠ [] := List.ne_nil_of_mem hcall
          simpa using hne
  · cases hid

/-- Without the empty id the filter finds a counterpart of every call and every result. -/
theorem filterUnmatchedToolCalls_eq {messages : List Message} (h : ToolProtocol messages)
    (hempty : "" ∉ messages.flatMap Message.callIds) :
    filterUnmatchedToolCalls messages = messages := by
  have hids : toolCallIds messages = messages.flatMap Message.callIds ∧
      toolResponseIds messages = messages.flatMap Message.callIds := by
    unfold toolCallIds toolResponseIds
    rw [← h.callIds_eq]
    have hfilter : (messages.flatMap Message.callIds).filter (· ≠ "")
        = messages.flatMap Message.callIds := by
      rw [List.filter_eq_self]
      intro id hid
      have hne : id ≠ "" := by
        rintro rfl
        exact hempty hid
      simpa using hne
    exact ⟨hfilter, hfilter⟩
  unfold filterUnmatchedToolCalls
  rw [hids.1, hids.2]
  have hkept : ∀ m ∈ messages, filterMessage (messages.flatMap Message.callIds)
      (messages.flatMap Message.callIds) m = some m := by
    intro m hm
    apply filterMessage_eq_some
    · intro id hid
      exact List.mem_flatMap_of_mem hm hid
    · intro id hid
      rw [h.callIds_eq]
      exact List.mem_filterMap.mpr ⟨m, hm, hid⟩
  rw [List.filterMap_congr hkept, List.filterMap_some]

/-- The filter drops every call with the empty id. -/
theorem empty_notMem_callIds_filter {messages : List Message} :
    "" ∉ (filterUnmatchedToolCalls messages).flatMap Message.callIds := by
  rw [List.mem_flatMap]
  rintro ⟨m', hm', hempty⟩
  obtain ⟨m, -, hfiltered⟩ := List.mem_filterMap.mp hm'
  have hmem := callIds_of_filterMessage hfiltered "" hempty
  simp [toolResponseIds] at hmem

/-- The filter keeps every result with the empty id. -/
theorem empty_mem_responseIds_filter {messages : List Message}
    (hempty : "" ∈ messages.filterMap Message.responseId) :
    "" ∈ (filterUnmatchedToolCalls messages).filterMap Message.responseId := by
  obtain ⟨m, hm, hid⟩ := List.mem_filterMap.mp hempty
  refine List.mem_filterMap.mpr ⟨m, List.mem_filterMap.mpr ⟨m, hm, ?_⟩, hid⟩
  unfold Message.responseId at hid
  split_ifs at hid with hrole
  unfold filterMessage
  rw [hid, hrole, if_neg (by simp), if_neg (by simp)]

/-- **The filter keeps the protocol** exactly when no call has the empty id. -/
theorem toolProtocol_filter_iff {messages : List Message} (h : ToolProtocol messages) :
    ToolProtocol (filterUnmatchedToolCalls messages)
      ↔ "" ∉ messages.flatMap Message.callIds := by
  constructor
  · intro hfiltered hempty
    rw [h.callIds_eq] at hempty
    have hmem := empty_mem_responseIds_filter hempty
    rw [← hfiltered.callIds_eq] at hmem
    exact empty_notMem_callIds_filter hmem
  · intro hempty
    rw [filterUnmatchedToolCalls_eq h hempty]
    exact h

/-! ## The loop emits exchanges -/

/-- What an event turns into has the roles that the protocol expects. -/
def Processed.Valid : Processed → Prop
  | .shown messages => ∀ m ∈ messages, m.Plain
  | .requests _ message => message.role = .assistant
  | .answers toolCallId message => message.role = .tool ∧ message.toolCallId = some toolCallId

/-- So has what waits in the dictionaries. -/
structure MemoryState.Valid (s : MemoryState) : Prop where
  pending : ∀ entry ∈ s.pendingToolCallActionMessages.entries, entry.2.role = .assistant
  results : ∀ entry ∈ s.toolCallIdToMessage.entries,
    entry.2.role = .tool ∧ entry.2.toolCallId = some entry.1

section Events

variable {texts : EventTexts} {config : MemoryConfig} {earlier events : List Event} {e : Event}
  {processed : Processed} {s s' : MemoryState} {messages : List Message}

/-- A message without calls that is no tool message. -/
theorem plain_of_no_calls {role : Role} (hrole : role ≠ .tool) (content : List Content) :
    Message.Plain ⟨role, content, none, none, none⟩ := by
  refine ⟨hrole, ?_⟩
  unfold Message.callIds
  split_ifs <;> rfl

theorem role_ne_tool (e : Event) : e.role ≠ .tool := by
  unfold Event.role
  split_ifs <;> decide

theorem valid_shown_singleton {role : Role} (hrole : role ≠ .tool) (content : List Content) :
    (Processed.shown [⟨role, content, none, none, none⟩]).Valid := by
  intro m hm
  rw [List.mem_singleton.mp hm]
  exact plain_of_no_calls hrole content

theorem valid_shown_nil : (Processed.shown []).Valid := by
  intro m hm
  cases hm

theorem valid_processAction {action : Action}
    (h : processAction texts config e action = .ok processed) : processed.Valid := by
  unfold processAction at h
  by_cases htool : action.isTool e.source = true
  · rw [if_pos htool] at h
    split at h
    · split at h
      · cases h
        exact valid_shown_singleton (by decide) _
      · cases h
    · cases h
      exact rfl
  · rw [if_neg htool] at h
    split at h
    · cases h
      exact valid_shown_singleton (role_ne_tool e) _
    · cases h
      exact valid_shown_singleton (role_ne_tool e) _
    · split at h
      · split at h
        · cases h
          exact valid_shown_singleton (by decide) _
        · cases h
          exact valid_shown_nil
      · cases h
        exact valid_shown_nil
    · cases h
      exact valid_shown_singleton (by decide) _
    · cases h
      exact valid_shown_nil

theorem valid_toolResponse (e : Event) (content : List Content) :
    (toolResponse e content).Valid := by
  unfold toolResponse
  split
  · exact ⟨rfl, rfl⟩
  · exact valid_shown_singleton (by decide) _

theorem valid_processObservation {obs : Observation}
    (h : processObservation texts config earlier e obs = .ok processed) : processed.Valid := by
  simp only [processObservation] at h
  split at h
  -- all classes with a text respond with it; the others follow
  all_goals first
    | cases h; exact valid_toolResponse e _
    | cases h; exact valid_shown_nil
    | skip
  · split_ifs at h <;> cases h <;> exact valid_toolResponse e _
  · split_ifs at h
    · cases h
      exact valid_shown_nil
    · split at h
      · cases h
        exact valid_shown_nil
      · cases h
        exact valid_toolResponse e _
      · cases h
        exact valid_shown_singleton (by decide) _
  · split_ifs at h
    cases h
    exact valid_toolResponse e _
  · cases h
  · cases h

theorem valid_processEvent (h : processEvent texts config earlier e = .ok processed) :
    processed.Valid := by
  unfold processEvent at h
  split at h
  · exact valid_processAction h
  · exact valid_processObservation h

/-- The event is stored as what it is. -/
theorem MemoryState.Valid.store (hs : s.Valid) (hprocessed : processed.Valid) :
    (s.store processed).1.Valid ∧ ToolProtocol (s.store processed).2 := by
  cases processed with
  | shown shown =>
      refine ⟨hs, ?_⟩
      show ToolProtocol shown
      induction shown with
      | nil => exact .nil
      | cons m shown ih =>
          apply ToolProtocol.plain
          · exact hprocessed m List.mem_cons_self
          · exact ih fun m hm => hprocessed m (List.mem_cons_of_mem _ hm)
  | requests responseId message =>
      refine ⟨⟨?_, hs.results⟩, .nil⟩
      intro entry hentry
      rcases PyDict.mem_entries_set hentry with rfl | hentry
      · exact hprocessed
      · exact hs.pending entry hentry
  | answers toolCallId message =>
      refine ⟨⟨hs.pending, ?_⟩, .nil⟩
      intro entry hentry
      rcases PyDict.mem_entries_set hentry with rfl | hentry
      · exact hprocessed
      · exact hs.results entry hentry

/-- A result is taken for the first call, and then for the others. -/
theorem takeResults_cons {call : ToolCall} {calls : List ToolCall}
    {results left : PyDict String Message}
    (h : takeResults (call :: calls) results = .ok (messages, left)) :
    ∃ message rest, results.get? call.id = some message ∧
      takeResults calls (results.pop call.id) = .ok (rest, left) ∧ messages = message :: rest := by
  unfold takeResults at h
  cases hget : results.get? call.id with
  | none =>
      rw [hget] at h
      cases h
  | some message =>
      rw [hget] at h
      cases htake : takeResults calls (results.pop call.id) with
      | error e =>
          simp only [htake] at h
          cases h
      | ok taken =>
          simp only [htake] at h
          cases h
          exact ⟨message, taken.1, rfl, rfl, rfl⟩

/-- A pending message stays, or is emitted with its results and removed. -/
theorem completePending_cons {responseId : String} {message : Message}
    {entries : List (String × Message)}
    (h : completePending ((responseId, message) :: entries) s = .ok (messages, s')) :
    ∃ calls, message.toolCalls = some calls ∧
      ((calls.all fun call => s.toolCallIdToMessage.contains call.id) = false ∧
        completePending entries s = .ok (messages, s') ∨
      (calls.all fun call => s.toolCallIdToMessage.contains call.id) = true ∧
        ∃ results left rest, takeResults calls s.toolCallIdToMessage = .ok (results, left) ∧
          completePending entries ⟨s.pendingToolCallActionMessages.pop responseId, left⟩
            = .ok (rest, s') ∧ messages = message :: results ++ rest) := by
  unfold completePending at h
  cases hcalls : message.toolCalls with
  | none =>
      simp only [hcalls] at h
      cases h
  | some calls =>
      simp only [hcalls] at h
      refine ⟨calls, rfl, ?_⟩
      split at h
      · rename_i hall
        right
        cases htake : takeResults calls s.toolCallIdToMessage with
        | error e =>
            simp only [htake] at h
            cases h
        | ok taken =>
            simp only [htake] at h
            cases hcomplete : completePending entries
                ⟨s.pendingToolCallActionMessages.pop responseId, taken.2⟩ with
            | error e =>
                simp only [hcomplete] at h
                cases h
            | ok completed =>
                simp only [hcomplete] at h
                cases h
                exact ⟨hall, taken.1, taken.2, completed.1, rfl, hcomplete, rfl⟩
      · rename_i hall
        exact Or.inl ⟨by simpa using hall, h⟩

/-- One turn of the loop: the event is stored, then the pending messages are checked. -/
theorem memoryStep_eq (h : memoryStep s processed = .ok (messages, s')) :
    ∃ completed, completePending (s.store processed).1.pendingToolCallActionMessages.entries
        (s.store processed).1 = .ok (completed, s') ∧
      messages = (s.store processed).2 ++ completed := by
  unfold memoryStep at h
  cases hcomplete : completePending (s.store processed).1.pendingToolCallActionMessages.entries
      (s.store processed).1 with
  | error e =>
      simp only [hcomplete] at h
      cases h
  | ok completed =>
      simp only [hcomplete] at h
      cases h
      exact ⟨completed.1, rfl, rfl⟩

/-- The loop makes its turns one after the other. -/
theorem processLoop_cons (h : processLoop texts config earlier (e :: events) s = .ok messages) :
    ∃ processed emitted s' later, processEvent texts config earlier e = .ok processed ∧
      memoryStep s processed = .ok (emitted, s') ∧
      processLoop texts config (earlier ++ [e]) events s' = .ok later ∧
      messages = emitted ++ later := by
  unfold processLoop at h
  cases hevent : processEvent texts config earlier e with
  | error err =>
      simp only [hevent] at h
      cases h
  | ok processed =>
      simp only [hevent] at h
      cases hstep : memoryStep s processed with
      | error err =>
          simp only [hstep] at h
          cases h
      | ok stepped =>
          simp only [hstep] at h
          cases hloop : processLoop texts config (earlier ++ [e]) events stepped.2 with
          | error err =>
              simp only [hloop] at h
              cases h
          | ok later =>
              simp only [hloop] at h
              cases h
              exact ⟨processed, stepped.1, stepped.2, later, rfl, hstep, hloop, rfl⟩

/-- The results that are taken answer the calls in their order. -/
theorem takeResults_ok {calls : List ToolCall} :
    ∀ {results left : PyDict String Message} {messages : List Message},
      (∀ entry ∈ results.entries, entry.2.role = .tool ∧ entry.2.toolCallId = some entry.1) →
      takeResults calls results = .ok (messages, left) →
      List.Forall₂ Message.Answers messages calls ∧
        (∀ entry ∈ left.entries, entry ∈ results.entries) := by
  induction calls with
  | nil =>
      intro results left messages _ h
      cases h
      exact ⟨.nil, fun _ h => h⟩
  | cons call calls ih =>
      intro results left messages hvalid h
      obtain ⟨message, rest, hget, htake, rfl⟩ := takeResults_cons h
      obtain ⟨hanswers, hleft⟩ := ih
        (fun entry hentry => hvalid entry (PyDict.mem_entries_pop hentry)) htake
      refine ⟨.cons ?_ hanswers, fun entry hentry => ?_⟩
      · exact hvalid _ (PyDict.mem_entries_of_get? hget)
      · exact PyDict.mem_entries_pop (hleft entry hentry)

/-- What is left when the results of a response are taken. -/
theorem MemoryState.Valid.taken {calls : List ToolCall} {left : PyDict String Message}
    (hs : s.Valid) (htake : takeResults calls s.toolCallIdToMessage = .ok (messages, left))
    (responseId : String) :
    MemoryState.Valid ⟨s.pendingToolCallActionMessages.pop responseId, left⟩ := by
  obtain ⟨-, hleft⟩ := takeResults_ok hs.results htake
  exact ⟨fun entry hentry => hs.pending entry (PyDict.mem_entries_pop hentry),
    fun entry hentry => hs.results entry (hleft entry hentry)⟩

/-- **The completed responses are exchanges.** -/
theorem completePending_ok {entries : List (String × Message)} :
    ∀ {s s' : MemoryState} {messages : List Message}, s.Valid →
      (∀ entry ∈ entries, entry.2.role = .assistant) →
      completePending entries s = .ok (messages, s') → ToolProtocol messages ∧ s'.Valid := by
  induction entries with
  | nil =>
      intro s s' messages hs _ h
      cases h
      exact ⟨.nil, hs⟩
  | cons entry entries ih =>
      intro s s' messages hs hroles h
      have hrest : ∀ entry ∈ entries, entry.2.role = .assistant :=
        fun entry hentry => hroles entry (List.mem_cons_of_mem _ hentry)
      obtain ⟨calls, hcalls, ⟨-, h⟩ | ⟨-, results, left, rest, htake, hcomplete, rfl⟩⟩ :=
        completePending_cons h
      · exact ih hs hrest h
      · obtain ⟨hanswers, -⟩ := takeResults_ok hs.results htake
        obtain ⟨hprotocol, hvalid⟩ := ih (hs.taken htake entry.1) hrest hcomplete
        refine ⟨?_, hvalid⟩
        rw [List.cons_append]
        exact .exchange (hroles entry List.mem_cons_self) hcalls hanswers hprotocol

theorem memoryStep_ok (hs : s.Valid) (hprocessed : processed.Valid)
    (h : memoryStep s processed = .ok (messages, s')) : ToolProtocol messages ∧ s'.Valid := by
  obtain ⟨hstored, hshown⟩ := hs.store hprocessed
  obtain ⟨completed, hcomplete, rfl⟩ := memoryStep_eq h
  obtain ⟨hprotocol, hvalid⟩ := completePending_ok hstored hstored.pending hcomplete
  exact ⟨hshown.append hprotocol, hvalid⟩

/-- **The loop follows the protocol.** -/
theorem toolProtocol_processLoop :
    ∀ {events earlier : List Event} {s : MemoryState} {messages : List Message}, s.Valid →
      processLoop texts config earlier events s = .ok messages → ToolProtocol messages := by
  intro events
  induction events with
  | nil =>
      intro earlier s messages _ h
      cases h
      exact .nil
  | cons e events ih =>
      intro earlier s messages hs h
      obtain ⟨processed, emitted, s', later, hevent, hstep, hloop, rfl⟩ := processLoop_cons h
      obtain ⟨hemitted, hs'⟩ := memoryStep_ok hs (valid_processEvent hevent) hstep
      exact hemitted.append (ih hs' hloop)

theorem MemoryState.valid_new : MemoryState.Valid {} := by
  constructor <;> intro entry hentry <;> cases hentry

end Events

end OpenHands
