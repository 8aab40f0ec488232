/-
# Matched tool calls

`_filter_unmatched_tool_calls` on any list of messages, such as the one that is left when
condensation has cut through exchanges.  A result stays when some message requests its call,
a call stays when some message is its result, and a message of the assistant goes when none
of its calls stays.

The two sets of ids are computed once, before anything is dropped.  No second pass is needed:
what a remaining result answers remains as well, and the other way around
(`filterUnmatchedToolCalls_matched`).
-/
import OpenHands.ToolProtocol

namespace OpenHands

/-! ## The calls and the results of a message -/

namespace Message

/-- The tool calls of a message of the assistant. -/
def calls (m : Message) : List ToolCall :=
  if m.role = .assistant then m.toolCalls.getD [] else []

/-- The tool calls and the tool message carry ids that are not empty. -/
def HasIds (m : Message) : Prop :=
  (∀ call ∈ m.calls, call.id ≠ "") ∧ (m.role = .tool → ∃ id ≠ "", m.toolCallId = some id)

/-- `message.model_copy(update={'tool_calls': calls})`. -/
def withCalls (m : Message) (calls : List ToolCall) : Message := { m with toolCalls := some calls }

/-- The message itself, or a message of the assistant with fewer calls. -/
def TrimOf (m' m : Message) : Prop :=
  m' = m ∨ m.role = .assistant ∧ ∃ calls, calls.Sublist m.calls ∧ m' = m.withCalls calls

instance (m : Message) : Decidable m.Plain :=
  inferInstanceAs (Decidable (_ ∧ _))

variable {m : Message}

theorem callIds_eq_map (m : Message) : m.callIds = m.calls.map ToolCall.id := by
  unfold callIds calls
  split_ifs <;> rfl

theorem calls_withCalls (hrole : m.role = .assistant) (calls : List ToolCall) :
    (m.withCalls calls).calls = calls :=
  if_pos hrole

/-- A plain message has no calls. -/
theorem Plain.calls_eq_nil (h : m.Plain) : m.calls = [] := by
  have hids := h.2
  rw [callIds_eq_map, List.map_eq_nil_iff] at hids
  exact hids

/-- A message is plain, a result, or a request. -/
theorem HasIds.kind (h : m.HasIds) :
    m.Plain ∨ (m.role = .tool ∧ ∃ id ≠ "", m.toolCallId = some id) ∨
      m.role = .assistant ∧ m.calls ≠ [] ∧ m.toolCalls = some m.calls := by
  by_cases htool : m.role = .tool
  · exact Or.inr (Or.inl ⟨htool, h.2 htool⟩)
  · by_cases hcalls : m.calls = []
    · left
      refine ⟨htool, ?_⟩
      rw [callIds_eq_map, hcalls, List.map_nil]
    · right
      right
      unfold calls at hcalls ⊢
      split_ifs at hcalls ⊢ with hrole
      · refine ⟨hrole, hcalls, ?_⟩
        cases htoolCalls : m.toolCalls with
        | none =>
            rw [htoolCalls] at hcalls
            exact absurd rfl hcalls
        | some calls => rfl
      · exact absurd rfl hcalls

end Message

/-! ## What the filter yields for a message -/

section

variable {callIds responseIds : List String} {m m' : Message}

/-- Plain messages stay. -/
theorem filterMessage_of_plain (h : m.Plain) : filterMessage callIds responseIds m = some m := by
  unfold filterMessage
  rw [if_neg (fun htool => h.1 htool.1), if_neg]
  rintro ⟨hrole, hany⟩
  have hcalls := h.calls_eq_nil
  unfold Message.calls at hcalls
  rw [if_pos hrole] at hcalls
  cases htoolCalls : m.toolCalls with
  | none =>
      rw [htoolCalls] at hany
      cases hany
  | some calls =>
      rw [htoolCalls] at hany hcalls
      rw [show calls = [] from hcalls] at hany
      simp at hany

/-- A result stays when its call is requested. -/
theorem filterMessage_of_result {id : String} (hrole : m.role = .tool)
    (hid : m.toolCallId = some id) (hne : id ≠ "") :
    filterMessage callIds responseIds m = if id ∈ callIds then some m else none := by
  unfold filterMessage
  rw [if_pos ⟨hrole, by simpa [hid] using hne⟩, hid]
  simp

/-- Of a request the answered calls stay, if there are any. -/
theorem filterMessage_of_request (hrole : m.role = .assistant) (hne : m.calls ≠ [])
    (hcalls : m.toolCalls = some m.calls) :
    filterMessage callIds responseIds m
      = if m.calls.filter (·.id ∈ responseIds) = [] then none
        else some (m.withCalls (m.calls.filter (·.id ∈ responseIds))) := by
  have htool : ¬ (m.role = .tool ∧ m.toolCallId.any (· ≠ "")) := by
    rw [hrole]
    rintro ⟨h, -⟩
    cases h
  have hassistant : m.role = .assistant ∧ m.toolCalls.any (· ≠ []) := by
    rw [hcalls]
    exact ⟨hrole, by simpa using hne⟩
  have hgetD : m.toolCalls.getD [] = m.calls := by
    rw [hcalls]
    rfl
  simp only [filterMessage]
  rw [if_neg htool, if_pos hassistant, hgetD]
  by_cases hall : m.calls.all (fun call => call.id ∈ responseIds) = true
  · -- nothing is trimmed, and the message itself is yielded
    have hsame : m.calls.filter (fun call => call.id ∈ responseIds) = m.calls := by
      rw [List.filter_eq_self]
      exact List.all_eq_true.mp hall
    rw [if_pos hall, hsame, if_neg hne, Message.withCalls, ← hcalls]
  · rw [if_neg hall, ite_not]
    rfl

/-- What is yielded for a message is the message or a part of it. -/
theorem trimOf_of_filterMessage (h : m.HasIds)
    (hm' : filterMessage callIds responseIds m = some m') : m'.TrimOf m := by
  rcases h.kind with hplain | ⟨hrole, id, hne, hid⟩ | ⟨hrole, hne, hcalls⟩
  · rw [filterMessage_of_plain hplain] at hm'
    exact Or.inl (Option.some.inj hm').symm
  · rw [filterMessage_of_result hrole hid hne] at hm'
    split_ifs at hm'
    exact Or.inl (Option.some.inj hm').symm
  · rw [filterMessage_of_request hrole hne hcalls] at hm'
    split_ifs at hm'
    exact Or.inr ⟨hrole, _, List.filter_sublist, (Option.some.inj hm').symm⟩

/-- The calls that are left of a message are its answered calls. -/
theorem calls_filterMessage (h : m.HasIds) :
    (filterMessage callIds responseIds m).elim [] Message.calls
      = m.calls.filter (·.id ∈ responseIds) := by
  rcases h.kind with hplain | ⟨hrole, id, hne, hid⟩ | ⟨hrole, hne, hcalls⟩
  · rw [filterMessage_of_plain hplain, hplain.calls_eq_nil]
    exact hplain.calls_eq_nil
  · have hnil : m.calls = [] := by
      unfold Message.calls
      rw [hrole, if_neg (by decide)]
    rw [filterMessage_of_result hrole hid hne, hnil]
    split_ifs
    · exact hnil
    · rfl
  · rw [filterMessage_of_request hrole hne hcalls]
    split_ifs with hempty
    · exact hempty.symm
    · exact Message.calls_withCalls hrole _

/-- A plain message is yielded for a plain message only. -/
theorem plain_filterMessage (h : m.HasIds) :
    (filterMessage callIds responseIds m).filter (·.Plain) = if m.Plain then some m else none := by
  rcases h.kind with hplain | ⟨hrole, id, hne, hid⟩ | ⟨hrole, hne, hcalls⟩
  · rw [filterMessage_of_plain hplain, if_pos hplain]
    simp [hplain]
  · have hnot : ¬ m.Plain := fun hplain => hplain.1 hrole
    rw [filterMessage_of_result hrole hid hne, if_neg hnot]
    split_ifs <;> simp [hnot]
  · have hnot : ¬ m.Plain := fun hplain => hne hplain.calls_eq_nil
    rw [filterMessage_of_request hrole hne hcalls, if_neg hnot]
    split_ifs with hempty
    · rfl
    · have hrest : ¬ (m.withCalls (m.calls.filter (·.id ∈ responseIds))).Plain := by
        intro hplain
        rw [← Message.calls_withCalls hrole (m.calls.filter (·.id ∈ responseIds))] at hempty
        exact hempty hplain.calls_eq_nil
      simp [hrest]

/-- A result is yielded for a result that is requested. -/
theorem result_filterMessage (h : m.HasIds) :
    (filterMessage callIds responseIds m).filter (·.role = .tool)
      = if m.role = .tool ∧ m.toolCallId.any (· ∈ callIds) then some m else none := by
  rcases h.kind with hplain | ⟨hrole, id, hne, hid⟩ | ⟨hrole, hne, hcalls⟩
  · rw [filterMessage_of_plain hplain, if_neg (fun htool => hplain.1 htool.1)]
    simp [hplain.1]
  · rw [filterMessage_of_result hrole hid hne, hid]
    by_cases hmem : id ∈ callIds
    · rw [if_pos hmem, if_pos ⟨hrole, by simpa using hmem⟩]
      simp [hrole]
    · rw [if_neg hmem, if_neg (fun htool => hmem (by simpa using htool.2))]
      rfl
  · have hnot : m.role ≠ .tool := by
      rw [hrole]
      decide
    rw [if_neg (fun htool => hnot htool.1), filterMessage_of_request hrole hne hcalls]
    split_ifs
    · rfl
    · have hrest : (m.withCalls (m.calls.filter (·.id ∈ responseIds))).role ≠ .tool := hnot
      simp [hrest]

end

/-! ## The filtered list -/

/-- The filtered messages against the given ones. -/
structure MatchesToolCalls (messages filtered : List Message) : Prop where
  subsequence : List.SublistForall₂ Message.TrimOf filtered messages
  requested : ∀ m ∈ filtered, m.role = .tool →
    ∃ call ∈ filtered.flatMap Message.calls, m.Answers call
  answered : ∀ call ∈ filtered.flatMap Message.calls, ∃ m ∈ filtered, m.Answers call
  plain : filtered.filter (·.Plain) = messages.filter (·.Plain)
  results : filtered.filter (·.role = .tool) = messages.filter fun m =>
    m.role = .tool ∧ m.toolCallId.any (· ∈ messages.flatMap Message.callIds)
  calls : filtered.flatMap Message.calls = (messages.flatMap Message.calls).filter fun call =>
    call.id ∈ messages.filterMap Message.responseId
  idempotent : filterUnmatchedToolCalls filtered = filtered

section

variable {α : Type*} {f : α → Option α}

/-- What a partial map yields element by element, it yields for a list. -/
theorem sublistForall₂_filterMap {R : α → α → Prop} (l : List α)
    (hR : ∀ a ∈ l, ∀ b, f a = some b → R b a) : List.SublistForall₂ R (l.filterMap f) l := by
  induction l with
  | nil => exact .nil
  | cons a l ih =>
      have htail := ih fun x hx => hR x (List.mem_cons_of_mem a hx)
      rw [List.filterMap_cons]
      cases hfa : f a with
      | none => exact .cons_right htail
      | some b => exact .cons (hR a List.mem_cons_self b hfa) htail

/-- A filter behind a partial map, element by element. -/
theorem filter_filterMap_eq_filter {p q : α → Bool} (l : List α)
    (hpq : ∀ a ∈ l, (f a).filter p = if q a then some a else none) :
    (l.filterMap f).filter p = l.filter q := by
  rw [List.filter_filterMap, ← List.filterMap_eq_filter]
  apply List.filterMap_congr
  intro a ha
  rw [hpq a ha]
  rfl

/-- What is collected behind a partial map, element by element. -/
theorem flatMap_filterMap_eq_filter {β : Type*} {g : α → List β} {p : β → Bool} (l : List α)
    (hg : ∀ a ∈ l, (f a).elim [] g = (g a).filter p) :
    (l.filterMap f).flatMap g = (l.flatMap g).filter p := by
  induction l with
  | nil => rfl
  | cons a l ih =>
      have htail := ih fun x hx => hg x (List.mem_cons_of_mem a hx)
      have hhead := hg a List.mem_cons_self
      rw [List.flatMap_cons, List.filter_append, ← htail, ← hhead, List.filterMap_cons]
      cases f a with
      | none => rfl
      | some b => rfl

end

variable {messages : List Message}

/-- The ids of the calls are the ids that the filter collects. -/
theorem toolCallIds_eq (hids : ∀ m ∈ messages, m.HasIds) :
    toolCallIds messages = messages.flatMap Message.callIds := by
  unfold toolCallIds
  rw [List.filter_eq_self]
  intro id hid
  obtain ⟨m, hm, hid⟩ := List.mem_flatMap.mp hid
  rw [Message.callIds_eq_map] at hid
  obtain ⟨call, hcall, rfl⟩ := List.mem_map.mp hid
  simpa using (hids m hm).1 call hcall

/-- The ids of the results are the ids that the filter collects. -/
theorem toolResponseIds_eq (hids : ∀ m ∈ messages, m.HasIds) :
    toolResponseIds messages = messages.filterMap Message.responseId := by
  unfold toolResponseIds
  rw [List.filter_eq_self]
  intro id hid
  obtain ⟨m, hm, hid⟩ := List.mem_filterMap.mp hid
  unfold Message.responseId at hid
  split_ifs at hid with hrole
  obtain ⟨id', hne, hid'⟩ := (hids m hm).2 hrole
  rw [hid'] at hid
  cases hid
  simpa using hne

/-- A call of the messages, by its id. -/
theorem mem_callIds {id : String} :
    id ∈ messages.flatMap Message.callIds ↔ ∃ call ∈ messages.flatMap Message.calls, call.id = id := by
  simp only [List.mem_flatMap, Message.callIds_eq_map, List.mem_map]
  constructor
  · rintro ⟨m, hm, call, hcall, hid⟩
    exact ⟨call, ⟨m, hm, hcall⟩, hid⟩
  · rintro ⟨call, ⟨m, hm, hcall⟩, hid⟩
    exact ⟨m, hm, call, hcall, hid⟩

/-- A result among the messages, by its id. -/
theorem mem_responseIds {id : String} :
    id ∈ messages.filterMap Message.responseId ↔
      ∃ m ∈ messages, m.role = .tool ∧ m.toolCallId = some id := by
  rw [List.mem_filterMap]
  constructor
  · rintro ⟨m, hm, hid⟩
    unfold Message.responseId at hid
    split_ifs at hid with hrole
    exact ⟨m, hm, hrole, hid⟩
  · rintro ⟨m, hm, hrole, hid⟩
    refine ⟨m, hm, ?_⟩
    unfold Message.responseId
    rw [if_pos hrole]
    exact hid

/-- The results that stay are the results of calls. -/
theorem results_filterUnmatchedToolCalls (hids : ∀ m ∈ messages, m.HasIds) :
    (filterUnmatchedToolCalls messages).filter (·.role = .tool)
      = messages.filter fun m =>
        m.role = .tool ∧ m.toolCallId.any (· ∈ messages.flatMap Message.callIds) := by
  apply filter_filterMap_eq_filter
  intro m hm
  rw [result_filterMessage (hids m hm), toolCallIds_eq hids]
  simp

/-- The calls that stay are the calls with a result. -/
theorem calls_filterUnmatchedToolCalls (hids : ∀ m ∈ messages, m.HasIds) :
    (filterUnmatchedToolCalls messages).flatMap Message.calls
      = (messages.flatMap Message.calls).filter fun call =>
        call.id ∈ messages.filterMap Message.responseId := by
  rw [← toolResponseIds_eq hids]
  apply flatMap_filterMap_eq_filter
  intro m hm
  exact calls_filterMessage (hids m hm)

theorem mem_filterUnmatchedToolCalls_of_tool (hids : ∀ m ∈ messages, m.HasIds) {m : Message}
    (hrole : m.role = .tool) :
    m ∈ filterUnmatchedToolCalls messages ↔
      m ∈ messages ∧ ∃ call ∈ messages.flatMap Message.calls, m.Answers call := by
  have hmem : m ∈ filterUnmatchedToolCalls messages ↔
      m ∈ (filterUnmatchedToolCalls messages).filter (·.role = .tool) := by
    simp [hrole]
  rw [hmem, results_filterUnmatchedToolCalls hids, List.mem_filter]
  apply and_congr_right
  intro _
  simp only [decide_eq_true_eq, Option.any_eq_true, mem_callIds, Message.Answers]
  constructor
  · rintro ⟨-, id, hid, call, hcall, rfl⟩
    exact ⟨call, hcall, hrole, hid⟩
  · rintro ⟨call, hcall, -, hid⟩
    exact ⟨hrole, call.id, hid, call, hcall, rfl⟩

theorem mem_calls_filterUnmatchedToolCalls (hids : ∀ m ∈ messages, m.HasIds) {call : ToolCall} :
    call ∈ (filterUnmatchedToolCalls messages).flatMap Message.calls ↔
      call ∈ messages.flatMap Message.calls ∧ ∃ m ∈ messages, m.Answers call := by
  rw [calls_filterUnmatchedToolCalls hids, List.mem_filter, decide_eq_true_eq, mem_responseIds]
  rfl

/-- A remaining result answers a remaining call. -/
theorem requested_filterUnmatchedToolCalls (hids : ∀ m ∈ messages, m.HasIds) {m : Message}
    (hm : m ∈ filterUnmatchedToolCalls messages) (hrole : m.role = .tool) :
    ∃ call ∈ (filterUnmatchedToolCalls messages).flatMap Message.calls, m.Answers call := by
  obtain ⟨hmem, call, hcall, hanswers⟩ := (mem_filterUnmatchedToolCalls_of_tool hids hrole).mp hm
  -- the result itself keeps the call
  exact ⟨call, (mem_calls_filterUnmatchedToolCalls hids).mpr ⟨hcall, m, hmem, hanswers⟩, hanswers⟩

/-- A remaining call has a remaining result. -/
theorem answered_filterUnmatchedToolCalls (hids : ∀ m ∈ messages, m.HasIds) {call : ToolCall}
    (hcall : call ∈ (filterUnmatchedToolCalls messages).flatMap Message.calls) :
    ∃ m ∈ filterUnmatchedToolCalls messages, m.Answers call := by
  obtain ⟨hmem, m, hm, hanswers⟩ := (mem_calls_filterUnmatchedToolCalls hids).mp hcall
  refine ⟨m, ?_, hanswers⟩
  exact (mem_filterUnmatchedToolCalls_of_tool hids hanswers.1).mpr ⟨hm, call, hmem, hanswers⟩

/-- What remains has ids as before. -/
theorem hasIds_of_mem_filter (hids : ∀ m ∈ messages, m.HasIds) :
    ∀ m ∈ filterUnmatchedToolCalls messages, m.HasIds := by
  intro m' hm'
  obtain ⟨m, hm, hfiltered⟩ := List.mem_filterMap.mp hm'
  rcases trimOf_of_filterMessage (hids m hm) hfiltered with rfl | ⟨hrole, calls, hsub, rfl⟩
  · exact hids m' hm
  · refine ⟨?_, ?_⟩
    · rw [Message.calls_withCalls hrole]
      intro call hcall
      exact (hids m hm).1 call (hsub.subset hcall)
    · intro htool
      rw [show (m.withCalls calls).role = m.role from rfl, hrole] at htool
      cases htool

/-- The second pass finds everything matched. -/
theorem filterUnmatchedToolCalls_filtered (hids : ∀ m ∈ messages, m.HasIds) :
    filterUnmatchedToolCalls (filterUnmatchedToolCalls messages)
      = filterUnmatchedToolCalls messages := by
  have hleft := hasIds_of_mem_filter hids
  have hkept : ∀ m ∈ filterUnmatchedToolCalls messages,
      filterMessage (toolCallIds (filterUnmatchedToolCalls messages))
        (toolResponseIds (filterUnmatchedToolCalls messages)) m = some m := by
    intro m hm
    rw [toolCallIds_eq hleft, toolResponseIds_eq hleft]
    apply filterMessage_eq_some
    · intro id hid
      obtain ⟨call, hcall, rfl⟩ := mem_callIds.mp (List.mem_flatMap_of_mem hm hid)
      obtain ⟨result, hresult, hanswers⟩ := answered_filterUnmatchedToolCalls hids hcall
      exact mem_responseIds.mpr ⟨result, hresult, hanswers⟩
    · intro id hid
      unfold Message.responseId at hid
      split_ifs at hid with hrole
      · obtain ⟨call, hcall, -, hanswers⟩ := requested_filterUnmatchedToolCalls hids hm hrole
        rw [hanswers] at hid
        cases hid
        exact mem_callIds.mpr ⟨call, hcall, rfl⟩
      · cases hid
  unfold filterUnmatchedToolCalls at hkept ⊢
  rw [List.filterMap_congr hkept, List.filterMap_some]

/-- **The filter leaves matched calls and results only**, and drops no others. -/
theorem filterUnmatchedToolCalls_matched (hids : ∀ m ∈ messages, m.HasIds) :
    MatchesToolCalls messages (filterUnmatchedToolCalls messages) where
  subsequence := by
    apply sublistForall₂_filterMap
    intro m hm m' hm'
    exact trimOf_of_filterMessage (hids m hm) hm'
  requested := fun _ hm hrole => requested_filterUnmatchedToolCalls hids hm hrole
  answered := fun _ hcall => answered_filterUnmatchedToolCalls hids hcall
  plain := by
    apply filter_filterMap_eq_filter
    intro m hm
    rw [plain_filterMessage (hids m hm)]
    simp
  results := results_filterUnmatchedToolCalls hids
  calls := calls_filterUnmatchedToolCalls hids
  idempotent := filterUnmatchedToolCalls_filtered hids

/-- Two exchanges with the same ids, both of them cut. -/
def cutExchanges : List Message :=
  [⟨.user, [.text "go on"], none, none, none⟩,
    ⟨.assistant, [], some [⟨"call_1", "bash", "ls"⟩, ⟨"call_2", "bash", "pwd"⟩], none, none⟩,
    ⟨.tool, [.text "src"], none, some "call_1", some "bash"⟩,
    ⟨.tool, [.text "done"], none, some "call_3", some "bash"⟩,
    ⟨.assistant, [.text "again"], some [⟨"call_1", "bash", "ls"⟩], none, none⟩]

theorem matchesToolCalls_cutExchanges :
    MatchesToolCalls cutExchanges (filterUnmatchedToolCalls cutExchanges) ∧
      filterUnmatchedToolCalls cutExchanges
        = [⟨.user, [.text "go on"], none, none, none⟩,
          ⟨.assistant, [], some [⟨"call_1", "bash", "ls"⟩], none, none⟩,
          ⟨.tool, [.text "src"], none, some "call_1", some "bash"⟩,
          ⟨.assistant, [.text "again"], some [⟨"call_1", "bash", "ls"⟩], none, none⟩] := by
  refine ⟨filterUnmatchedToolCalls_matched ?_, by decide⟩
  simp only [cutExchanges, List.forall_mem_cons, List.not_mem_nil, false_implies, implies_true,
    and_true]
  simp [Message.HasIds, Message.calls]

end OpenHands
