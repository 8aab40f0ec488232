/-
# Answered tool calls

The messages that the splitting gives are those before it, with each message of several
calls replaced by pairs of a call and its result, in the order of the results.  All
properties of the splitting are read off this shape (`Splits`).
-/
import OpenHands.SingleToolCalls

namespace OpenHands.FnCall

open PyStr

/-! ## The calls that wait -/

section

variable {content : Content} {calls : List ToolCall} {pending pending' : PyDict Text Message}

/-- One of several calls as a message of its own; the first call keeps the content. -/
def callMessage (content : Content) (calls : List ToolCall) (call : ToolCall) : Message :=
  .assistant (if calls.head?.bind ToolCall.id = call.id then content else .str []) (some [call])

/-- The message of the call with an id. -/
def partFor (content : Content) (calls : List ToolCall) (id : Option Text) : Option Message :=
  (calls.find? (·.id = id)).map (callMessage content calls)

theorem find?_id_eq_none {id : Option Text} (h : id ∉ calls.map ToolCall.id) :
    calls.find? (·.id = id) = none := by
  rw [List.find?_eq_none]
  intro call hcall heq
  refine h ?_
  rw [← of_decide_eq_true heq]
  exact List.mem_map_of_mem hcall

theorem find?_id {call : ToolCall} (hnodup : (calls.map ToolCall.id).Nodup)
    (hcall : call ∈ calls) : calls.find? (·.id = call.id) = some call := by
  induction calls with
  | nil => exact absurd hcall List.not_mem_nil
  | cons first calls ih =>
    rw [List.map_cons, List.nodup_cons] at hnodup
    rcases List.mem_cons.mp hcall with rfl | hmem
    · exact List.find?_cons_of_pos (by simp)
    · have hne : first.id ≠ call.id := fun heq => hnodup.1 (heq ▸ List.mem_map_of_mem hmem)
      rw [List.find?_cons_of_neg (by simpa using hne)]
      exact ih hnodup.2 hmem

/-- A call other than the first waits without the content. -/
theorem get?_addPendingToolCalls_succ {i : ℕ} (hids : ∀ call ∈ calls, call.id ≠ none)
    (hnodup : (calls.map ToolCall.id).Nodup) :
    ∃ pending', addPendingToolCalls content (i + 1) pending calls = .ok pending'
      ∧ ∀ id, pending'.get? id = ((calls.find? (·.id = some id)).map fun call =>
          Message.assistant (.str []) (some [call])).or (pending.get? id) := by
  induction calls generalizing i pending with
  | nil => exact ⟨pending, rfl, fun id => rfl⟩
  | cons call calls ih =>
    obtain ⟨key, hkey⟩ := Option.ne_none_iff_exists'.mp (hids call List.mem_cons_self)
    rw [List.map_cons, List.nodup_cons] at hnodup
    obtain ⟨pending', hadd, hget⟩ := ih (i := i + 1)
      (fun c hc => hids c (List.mem_cons_of_mem call hc)) hnodup.2
    refine ⟨pending', ?_, fun id => ?_⟩
    · unfold addPendingToolCalls
      rw [hkey]
      exact hadd
    · rw [hget, PyDict.get?_set]
      by_cases hid : call.id = some id
      · have hnone : calls.find? (·.id = some id) = none := find?_id_eq_none (hid ▸ hnodup.1)
        have hidKey : id = key := Option.some.inj (hid.symm.trans hkey)
        rw [hnone, List.find?_cons_of_pos (by simpa using hid), if_pos hidKey]
        rfl
      · have hidKey : id ≠ key := fun heq => hid (by rw [hkey, heq])
        rw [List.find?_cons_of_neg (by simpa using hid), if_neg hidKey]

/-- The calls of a message wait with the content at the first one. -/
theorem get?_addPendingToolCalls (hids : ∀ call ∈ calls, call.id ≠ none)
    (hnodup : (calls.map ToolCall.id).Nodup) :
    ∃ pending, addPendingToolCalls content 0 .empty calls = .ok pending
      ∧ ∀ id, pending.get? id = partFor content calls (some id) := by
  cases calls with
  | nil => exact ⟨.empty, rfl, fun id => rfl⟩
  | cons call calls =>
    obtain ⟨key, hkey⟩ := Option.ne_none_iff_exists'.mp (hids call List.mem_cons_self)
    rw [List.map_cons, List.nodup_cons] at hnodup
    obtain ⟨pending, hadd, hget⟩ := get?_addPendingToolCalls_succ (i := 0)
      (fun c hc => hids c (List.mem_cons_of_mem call hc)) hnodup.2
    refine ⟨pending, ?_, fun id => ?_⟩
    · unfold addPendingToolCalls
      rw [hkey]
      exact hadd
    · rw [hget, PyDict.get?_set, PyDict.get?_empty]
      unfold partFor
      by_cases hid : call.id = some id
      · have hnone : calls.find? (·.id = some id) = none := find?_id_eq_none (hid ▸ hnodup.1)
        have hidKey : id = key := Option.some.inj (hid.symm.trans hkey)
        rw [hnone, List.find?_cons_of_pos (by simpa using hid), if_pos hidKey]
        simp [callMessage]
      · have hidKey : id ≠ key := fun heq => hid (by rw [hkey, heq])
        rw [List.find?_cons_of_neg (by simpa using hid), if_neg hidKey, Option.or_none]
        cases hfind : calls.find? (·.id = some id) with
        | none => rfl
        | some other =>
          have hother : other.id = some id := by simpa using List.find?_some hfind
          have hne : ¬ call.id = other.id := by rwa [hother]
          simp [callMessage, hne]

end

/-! ## The shape of the messages -/

/-- A result after its call. -/
def answerPair (content : Content) (calls : List ToolCall) (result : Message) : List Message :=
  (partFor content calls result.resultId).toList ++ [result]

/-- The messages, with each message of several calls replaced by its calls and their
results. -/
inductive Splits : List Message → List Message → Prop
  | nil : Splits [] []
  | other {message : Message} {messages converted : List Message}
      (hcalls : message.toolCalls = []) (hrest : Splits messages converted) :
    Splits (message :: messages) (message :: converted)
  | single {message result : Message} {call : ToolCall} {messages converted : List Message}
      (hcalls : message.toolCalls = [call]) (hresult : result.resultId = call.id)
      (hid : call.id ≠ none) (hrest : Splits messages converted) :
    Splits (message :: result :: messages) (message :: result :: converted)
  | several {content : Content} {calls : List ToolCall} {results messages converted : List Message}
      (hcalls : 1 < calls.length)
      (hresults : (results.map Message.resultId).Perm (calls.map ToolCall.id))
      (hids : ∀ call ∈ calls, call.id ≠ none) (hnodup : (calls.map ToolCall.id).Nodup)
      (hrest : Splits messages converted) :
    Splits (.assistant content (some calls) :: (results ++ messages))
      (results.flatMap (answerPair content calls) ++ converted)

theorem eq_tool_of_resultId {message : Message} {id : Text} (h : message.resultId = some id) :
    ∃ content name cacheControl, message = .tool content name (some id) cacheControl := by
  cases message with
  | tool content name toolCallId cacheControl =>
    cases h
    exact ⟨content, name, cacheControl, rfl⟩
  | _ => cases h

theorem isTool_of_resultId {message : Message} (h : message.resultId ≠ none) :
    message.isTool = true := by
  obtain ⟨id, hid⟩ := Option.ne_none_iff_exists'.mp h
  obtain ⟨content, name, cacheControl, rfl⟩ := eq_tool_of_resultId hid
  rfl

theorem toolCalls_of_resultId {message : Message} (h : message.resultId ≠ none) :
    message.toolCalls = [] := by
  obtain ⟨id, hid⟩ := Option.ne_none_iff_exists'.mp h
  obtain ⟨content, name, cacheControl, rfl⟩ := eq_tool_of_resultId hid
  rfl

theorem partFor_of_mem {content : Content} {calls : List ToolCall} {call : ToolCall}
    (hnodup : (calls.map ToolCall.id).Nodup) (hcall : call ∈ calls) :
    partFor content calls call.id = some (callMessage content calls call) := by
  unfold partFor
  rw [find?_id hnodup hcall]
  rfl

/-- Nothing waits where every key reads nothing. -/
theorem eq_empty_of_get? {pending : PyDict Text Message} (h : ∀ id, pending.get? id = none) :
    pending = .empty := by
  have hkeys : pending.keys = [] := by
    rw [List.eq_nil_iff_forall_not_mem]
    exact fun id => PyDict.get?_eq_none_iff.mp (h id)
  exact PyDict.ext_entries (List.map_eq_nil_iff.mp hkeys)

/-- Results that are waited for take their calls out of the dictionary one by one. -/
theorem splitMessages_results {content : Content} {calls : List ToolCall}
    {results messages : List Message} {pending : PyDict Text Message}
    (hparts : ∀ result ∈ results, ∃ id call, result.resultId = some id
      ∧ partFor content calls (some id) = some call)
    (hnodup : (results.map Message.resultId).Nodup)
    (hget : ∀ id, pending.get? id = if some id ∈ results.map Message.resultId
      then partFor content calls (some id) else none) :
    splitMessages pending (results ++ messages)
      = (splitMessages .empty messages).map fun rest =>
          (results.flatMap (answerPair content calls) ++ rest.1, rest.2) := by
  induction results generalizing pending with
  | nil =>
    have hempty : pending = .empty := eq_empty_of_get? fun id => by rw [hget]; simp
    rw [hempty, List.nil_append]
    cases splitMessages .empty messages with
    | error e => rfl
    | ok rest => rfl
  | cons result results ih =>
    obtain ⟨id, call, hid, hpart⟩ := hparts result List.mem_cons_self
    obtain ⟨text, name, cacheControl, rfl⟩ := eq_tool_of_resultId hid
    rw [List.map_cons, List.nodup_cons] at hnodup
    have hcall : pending.get? id = some call := by
      rw [hget, if_pos (by rw [List.map_cons]; exact List.mem_cons_self), hpart]
    have hpop : ∀ key, (pending.pop id).get? key
        = if some key ∈ results.map Message.resultId
          then partFor content calls (some key) else none := by
      intro key
      rw [PyDict.get?_pop, hget]
      by_cases hkey : key = id
      · have hnotMem : some id ∉ results.map Message.resultId := hnodup.1
        rw [if_pos hkey, hkey, if_neg hnotMem]
      · have hne : some key ≠ some id := fun heq => hkey (Option.some.inj heq)
        rw [if_neg hkey, List.map_cons]
        change (if some key ∈ some id :: results.map Message.resultId then _ else _) = _
        simp only [List.mem_cons, hne, false_or]
    have hrest := ih (fun r hr => hparts r (List.mem_cons_of_mem _ hr)) hnodup.2 hpop
    have hfirst : splitMessage pending (.tool text name (some id) cacheControl)
        = .ok ([call, .tool text name (some id) cacheControl], pending.pop id) := by
      unfold splitMessage
      simp only [hcall]
    have hpair : answerPair content calls (.tool text name (some id) cacheControl)
        = [call, .tool text name (some id) cacheControl] := by
      change (partFor content calls (some id)).toList ++ _ = _
      rw [hpart]
      rfl
    rw [List.cons_append, splitMessages, hfirst]
    change (splitMessages (pending.pop id) (results ++ messages)).map _ = _
    rw [hrest, List.flatMap_cons, hpair]
    cases splitMessages .empty messages with
    | error e => rfl
    | ok rest => rfl

/-- A message without calls that is no pending result goes through. -/
theorem splitMessage_of_no_calls {message : Message} (hcalls : message.toolCalls = [])
    (hresult : message.isTool = true → message.resultId ≠ none) :
    splitMessage .empty message = .ok ([message], .empty) := by
  cases message with
  | assistant content toolCalls =>
    have hlength : ¬ (toolCalls.getD []).length > 1 := by
      change toolCalls.getD [] = [] at hcalls
      rw [hcalls]
      exact Nat.not_lt_zero 1
    exact if_neg hlength
  | tool content name id cacheControl =>
    obtain ⟨id, rfl⟩ := Option.ne_none_iff_exists'.mp (hresult rfl)
    rfl
  | _ => rfl

theorem exists_assistant_of_calls {message : Message} (hcalls : message.toolCalls ≠ []) :
    ∃ content calls, message = .assistant content (some calls) := by
  cases message with
  | assistant content toolCalls =>
    cases toolCalls with
    | none => exact absurd rfl hcalls
    | some calls => exact ⟨content, calls, rfl⟩
  | _ => exact absurd rfl hcalls

/-- The results of several calls come after their calls, one pair after the other. -/
theorem splitMessages_several {content : Content} {calls : List ToolCall}
    {results messages converted : List Message} (hlength : 1 < calls.length)
    (hids : ∀ call ∈ calls, call.id ≠ none) (hnodup : (calls.map ToolCall.id).Nodup)
    (hresults : (results.map Message.resultId).Perm (calls.map ToolCall.id))
    (hrest : splitMessages .empty messages = .ok (converted, .empty)) :
    splitMessages .empty (.assistant content (some calls) :: (results ++ messages))
      = .ok (results.flatMap (answerPair content calls) ++ converted, .empty) := by
  obtain ⟨pending, hadd, hget⟩ := get?_addPendingToolCalls hids hnodup
  have hfirst : splitMessage .empty (.assistant content (some calls)) = .ok ([], pending) := by
    change (if calls.length > 1 then _ else _) = _
    rw [if_pos hlength]
    change (addPendingToolCalls content 0 .empty calls).map _ = _
    rw [hadd]
    rfl
  rw [splitMessages, hfirst]
  change (splitMessages pending (results ++ messages)).map _ = _
  rw [splitMessages_results ?_ (hresults.nodup_iff.mpr hnodup) ?_, hrest]
  · rfl
  · intro result hresult
    obtain ⟨call, hcall, hid⟩ :=
      List.mem_map.mp (hresults.subset (List.mem_map_of_mem hresult))
    obtain ⟨id, hcallId⟩ := Option.ne_none_iff_exists'.mp (hids call hcall)
    refine ⟨id, callMessage content calls call, by rw [← hid, hcallId], ?_⟩
    rw [← hcallId]
    exact partFor_of_mem hnodup hcall
  · intro id
    rw [hget]
    split_ifs with hmem
    · rfl
    · have hnotMem : some id ∉ calls.map ToolCall.id := fun h => hmem (hresults.symm.subset h)
      unfold partFor
      rw [find?_id_eq_none hnotMem]
      rfl

/-- One call and its result stay as they are. -/
theorem splitMessages_single {content : Content} {call : ToolCall} {result : Message}
    {messages converted : List Message} (hid : call.id ≠ none) (hresult : result.resultId = call.id)
    (hrest : splitMessages .empty messages = .ok (converted, .empty)) :
    splitMessages .empty (.assistant content (some [call]) :: result :: messages)
      = .ok (.assistant content (some [call]) :: result :: converted, .empty) := by
  obtain ⟨id, hcallId⟩ := Option.ne_none_iff_exists'.mp hid
  rw [hcallId] at hresult
  obtain ⟨text, name, cacheControl, rfl⟩ := eq_tool_of_resultId hresult
  change ((splitMessages .empty messages).map _).map _ = _
  rw [hrest]
  rfl

/-- Messages whose calls are answered are split, and no call waits after them. -/
theorem exists_splits {messages : List Message}
    (hids : ∀ call ∈ messages.flatMap Message.toolCalls, call.id ≠ none)
    (hnodup : ((messages.flatMap Message.toolCalls).map ToolCall.id).Nodup)
    (h : CallsAnswered messages) :
    ∃ converted, splitMessages .empty messages = .ok (converted, .empty)
      ∧ Splits messages converted := by
  induction h with
  | nil => exact ⟨[], rfl, .nil⟩
  | @other message messages hcalls hresult hrest ih =>
    rw [List.flatMap_cons, hcalls, List.nil_append] at hids hnodup
    obtain ⟨converted, hconverted, hsplits⟩ := ih hids hnodup
    refine ⟨message :: converted, ?_, .other hcalls hsplits⟩
    rw [splitMessages, splitMessage_of_no_calls hcalls hresult]
    change (splitMessages .empty messages).map _ = _
    rw [hconverted]
    rfl
  | @calls message results messages hcalls hresults hrest ih =>
    obtain ⟨content, calls, rfl⟩ := exists_assistant_of_calls hcalls
    change (results.map Message.resultId).Perm (calls.map ToolCall.id) at hresults
    have hnoCalls : results.flatMap Message.toolCalls = [] := by
      rw [List.flatMap_eq_nil_iff]
      intro result hresult
      refine toolCalls_of_resultId fun hnone => ?_
      have hmem := hresults.subset (List.mem_map_of_mem hresult)
      rw [hnone] at hmem
      obtain ⟨call, hcall, hid⟩ := List.mem_map.mp hmem
      exact hids call (List.mem_append_left _ hcall) hid
    rw [List.flatMap_cons, List.flatMap_append, hnoCalls, List.nil_append] at hids hnodup
    change ∀ call ∈ calls ++ _, call.id ≠ none at hids
    change ((calls ++ _).map ToolCall.id).Nodup at hnodup
    rw [List.map_append] at hnodup
    have hcallIds := fun c hc => hids c (List.mem_append_left _ hc)
    have hcallsNodup := hnodup.of_append_left
    obtain ⟨converted, hconverted, hsplits⟩ :=
      ih (fun c hc => hids c (List.mem_append_right _ hc)) hnodup.of_append_right
    by_cases hlength : 1 < calls.length
    · exact ⟨_, splitMessages_several hlength hcallIds hcallsNodup hresults hconverted,
        .several hlength hresults hcallIds hcallsNodup hsplits⟩
    · -- a message that has calls, but not several, has one
      obtain ⟨call, rfl⟩ : ∃ call, calls = [call] := by
        have hpos := List.length_pos_of_ne_nil hcalls
        change 0 < calls.length at hpos
        exact List.length_eq_one_iff.mp (by omega)
      obtain ⟨result, rfl, hresult⟩ :=
        List.map_eq_singleton_iff.mp (List.perm_singleton.mp hresults)
      have hid := hcallIds call List.mem_cons_self
      exact ⟨_, splitMessages_single hid hresult hconverted, .single rfl hresult hid hsplits⟩

/-! ## What the shape says -/

section

variable {messages converted : List Message} {content : Content} {calls : List ToolCall}
  {results : List Message}

/-- A result of one of the calls stands after the message of this call. -/
theorem answerPair_of_perm (hnodup : (calls.map ToolCall.id).Nodup)
    (hresults : (results.map Message.resultId).Perm (calls.map ToolCall.id)) {result : Message}
    (hresult : result ∈ results) : ∃ call ∈ calls, result.resultId = call.id
      ∧ answerPair content calls result = [callMessage content calls call, result] := by
  obtain ⟨call, hcall, hid⟩ := List.mem_map.mp (hresults.subset (List.mem_map_of_mem hresult))
  refine ⟨call, hcall, hid.symm, ?_⟩
  unfold answerPair
  rw [← hid, partFor_of_mem hnodup hcall]
  rfl

theorem resultId_ne_none (hids : ∀ call ∈ calls, call.id ≠ none)
    (hresults : (results.map Message.resultId).Perm (calls.map ToolCall.id)) {result : Message}
    (hresult : result ∈ results) : result.resultId ≠ none := by
  obtain ⟨call, hcall, hid⟩ := List.mem_map.mp (hresults.subset (List.mem_map_of_mem hresult))
  rw [← hid]
  exact hids call hcall

/-- No message has more than one call. -/
theorem Splits.length_toolCalls_le (h : Splits messages converted) :
    ∀ message ∈ converted, message.toolCalls.length ≤ 1 := by
  induction h with
  | nil => exact fun message hmessage => absurd hmessage List.not_mem_nil
  | other hcalls _ ih =>
    intro message hmessage
    rcases List.mem_cons.mp hmessage with rfl | hmessage
    · rw [hcalls]
      exact Nat.zero_le 1
    · exact ih message hmessage
  | single hcalls hresult hid _ ih =>
    intro message hmessage
    rcases List.mem_cons.mp hmessage with rfl | hmessage
    · rw [hcalls]
      exact le_refl 1
    · rcases List.mem_cons.mp hmessage with rfl | hmessage
      · rw [toolCalls_of_resultId (by rwa [hresult])]
        exact Nat.zero_le 1
      · exact ih message hmessage
  | several _ hresults hids hnodup _ ih =>
    intro message hmessage
    rcases List.mem_append.mp hmessage with hmessage | hmessage
    · obtain ⟨result, hresult, hpair⟩ := List.mem_flatMap.mp hmessage
      obtain ⟨call, -, -, hanswer⟩ := answerPair_of_perm hnodup hresults hresult
      rw [hanswer, List.mem_cons, List.mem_singleton] at hpair
      rcases hpair with rfl | rfl
      · exact le_refl 1
      · rw [toolCalls_of_resultId (resultId_ne_none hids hresults hresult)]
        exact Nat.zero_le 1
    · exact ih message hmessage

theorem resultsFollow_cons_of_resultId {result : Message} (hid : result.resultId ≠ none)
    (h : ResultsFollow converted) : ResultsFollow (result :: converted) := by
  refine ⟨fun call hcall => ?_, h⟩
  rw [toolCalls_of_resultId hid] at hcall
  cases hcall

/-- Pairs of a call and its result keep each result after its call. -/
theorem resultsFollow_flatMap (hpairs : ∀ result ∈ results, ∃ call, call.id ≠ none
      ∧ result.resultId = call.id
      ∧ answerPair content calls result = [callMessage content calls call, result])
    (h : ResultsFollow converted) :
    ResultsFollow (results.flatMap (answerPair content calls) ++ converted) := by
  induction results with
  | nil => exact h
  | cons result results ih =>
    obtain ⟨call, hcall, hid, hpair⟩ := hpairs result List.mem_cons_self
    have hresult : result.resultId ≠ none := by rwa [hid]
    have hrest := ih fun r hr => hpairs r (List.mem_cons_of_mem result hr)
    rw [List.flatMap_cons, hpair]
    refine ⟨fun other hother => ?_, resultsFollow_cons_of_resultId hresult hrest⟩
    cases hother
    exact ⟨result, _, rfl, isTool_of_resultId hresult, hid⟩

/-- Each single call is followed by its result. -/
theorem Splits.resultsFollow (h : Splits messages converted) : ResultsFollow converted := by
  induction h with
  | nil => trivial
  | other hcalls _ ih =>
    refine ⟨fun call hcall => ?_, ih⟩
    rw [hcalls] at hcall
    cases hcall
  | single hcalls hresult hid _ ih =>
    have hresultId := hresult.symm ▸ hid
    refine ⟨fun other hother => ?_, resultsFollow_cons_of_resultId hresultId ih⟩
    rw [hcalls] at hother
    cases hother
    exact ⟨_, _, rfl, isTool_of_resultId hresultId, hresult⟩
  | several _ hresults hids hnodup _ ih =>
    refine resultsFollow_flatMap (fun result hresult => ?_) ih
    obtain ⟨call, hcall, hid, hpair⟩ := answerPair_of_perm hnodup hresults hresult
    exact ⟨call, hids call hcall, hid, hpair⟩

/-- The messages other than those of several calls stay as they are, in their order; `p` tells
the ids of these calls. -/
theorem Splits.filter_eq {p : Option Text → Bool} (h : Splits messages converted)
    (hsplit : ∀ message ∈ messages, message.isSplit → ∀ call ∈ message.toolCalls, p call.id)
    (hother : ∀ message ∈ messages, ¬ message.isSplit → ∀ call ∈ message.toolCalls, ¬ p call.id) :
    converted.filter (fun message => !message.toolCalls.any fun call => p call.id)
      = messages.filter (!·.isSplit) := by
  induction h with
  | nil => rfl
  | other hcalls _ ih =>
    rw [List.filter_cons_of_pos (by simp [hcalls]),
      List.filter_cons_of_pos (by simp [Message.isSplit, hcalls])]
    rw [ih (fun m hm => hsplit m (List.mem_cons_of_mem _ hm))
      (fun m hm => hother m (List.mem_cons_of_mem _ hm))]
  | @single message result call messages converted hcalls hresult hid _ ih =>
    have hnotSplit : ¬ message.isSplit := by simp [Message.isSplit, hcalls]
    have hnot := hother message List.mem_cons_self hnotSplit call (by rw [hcalls]; simp)
    have hresultCalls := toolCalls_of_resultId (hresult.symm ▸ hid)
    rw [List.filter_cons_of_pos (by simp [hcalls, hnot]),
      List.filter_cons_of_pos (by simp [hresultCalls]),
      List.filter_cons_of_pos (by simpa using hnotSplit),
      List.filter_cons_of_pos (by simp [Message.isSplit, hresultCalls])]
    rw [ih (fun m hm => hsplit m (List.mem_cons_of_mem _ (List.mem_cons_of_mem _ hm)))
      (fun m hm => hother m (List.mem_cons_of_mem _ (List.mem_cons_of_mem _ hm)))]
  | @several content calls results messages converted hcalls hresults hids hnodup _ ih =>
    have hpart := hsplit _ List.mem_cons_self (by simpa [Message.isSplit, Message.toolCalls])
    have hresultCalls : ∀ result ∈ results, result.toolCalls = [] := fun result hresult =>
      toolCalls_of_resultId (resultId_ne_none hids hresults hresult)
    have hkept : (results.flatMap (answerPair content calls)).filter
        (fun message => !message.toolCalls.any fun call => p call.id) = results := by
      rw [List.filter_flatMap]
      have hsingle : ∀ result ∈ results, (answerPair content calls result).filter
          (fun message => !message.toolCalls.any fun call => p call.id) = [result] := by
        intro result hresult
        obtain ⟨call, hcall, -, hpair⟩ := answerPair_of_perm hnodup hresults hresult
        have hcallMessage : (callMessage content calls call).toolCalls = [call] := rfl
        rw [hpair, List.filter_cons_of_neg (by simp [hcallMessage, hpart call hcall]),
          List.filter_cons_of_pos (by simp [hresultCalls result hresult]), List.filter_nil]
      rw [List.flatMap_congr hsingle, List.flatMap_singleton']
    have hresultsKept : results.filter (!·.isSplit) = results := by
      rw [List.filter_eq_self]
      intro result hresult
      simp [Message.isSplit, hresultCalls result hresult]
    have hfirst : (Message.assistant content (some calls)).isSplit = true :=
      decide_eq_true hcalls
    rw [List.filter_append, hkept, List.filter_cons_of_neg (by simp [hfirst]),
      List.filter_append, hresultsKept]
    rw [ih (fun m hm => hsplit m (List.mem_cons_of_mem _ (List.mem_append_right _ hm)))
      (fun m hm => hother m (List.mem_cons_of_mem _ (List.mem_append_right _ hm)))]

/-- No call is lost and none is made up. -/
theorem Splits.perm_toolCalls (h : Splits messages converted) :
    (converted.flatMap Message.toolCalls).Perm (messages.flatMap Message.toolCalls) := by
  induction h with
  | nil => exact .nil
  | other _ _ ih =>
    rw [List.flatMap_cons, List.flatMap_cons]
    exact ih.append_left _
  | single _ _ _ _ ih =>
    simp only [List.flatMap_cons]
    exact (ih.append_left _).append_left _
  | @several content calls results messages converted _ hresults hids hnodup _ ih =>
    have hresultCalls : results.flatMap Message.toolCalls = [] := by
      rw [List.flatMap_eq_nil_iff]
      exact fun result hresult =>
        toolCalls_of_resultId (resultId_ne_none hids hresults hresult)
    have hcalls : ((results.flatMap (answerPair content calls)).flatMap Message.toolCalls).Perm
        calls := by
      have hfound : ∀ result ∈ results, (answerPair content calls result).flatMap Message.toolCalls
          = (calls.find? (·.id = result.resultId)).toList := by
        intro result hresult
        obtain ⟨call, hcall, hid, hpair⟩ := answerPair_of_perm hnodup hresults hresult
        rw [hpair, hid, find?_id hnodup hcall, List.flatMap_cons, List.flatMap_singleton]
        rw [toolCalls_of_resultId (resultId_ne_none hids hresults hresult)]
        rfl
      have hself : calls.flatMap (fun call => (calls.find? (·.id = call.id)).toList) = calls := by
        rw [List.flatMap_congr fun call hcall => by rw [find?_id hnodup hcall]]
        exact List.flatMap_singleton' calls
      rw [List.flatMap_assoc, List.flatMap_congr hfound]
      have hperm := hresults.flatMap_right fun id => (calls.find? (·.id = id)).toList
      rw [List.flatMap_map, List.flatMap_map, hself] at hperm
      exact hperm
    rw [List.flatMap_append, List.flatMap_cons, List.flatMap_append, hresultCalls]
    exact hcalls.append ih

/-! ## Where the content stands -/

/-- A message of several calls is replaced in its place. -/
theorem Splits.exists_block (h : Splits messages converted) {before after : List Message}
    {message : Message} (hmessages : messages = before ++ message :: after)
    (hsplit : message.isSplit) : ∃ content calls results others front back,
      message = .assistant content (some calls) ∧ after = results ++ others
        ∧ (results.map Message.resultId).Perm (calls.map ToolCall.id)
        ∧ (∀ call ∈ calls, call.id ≠ none)
        ∧ converted = front ++ (results.flatMap (answerPair content calls) ++ back) := by
  induction h generalizing before with
  | nil => simp at hmessages
  | @other first messages converted hcalls _ ih =>
    cases before with
    | nil =>
      cases hmessages
      simp [Message.isSplit, hcalls] at hsplit
    | cons _ before =>
      obtain ⟨-, rfl⟩ := List.cons.inj hmessages
      obtain ⟨content, calls, results, others, front, back, hblock, hafter, hresults, hids,
        rfl⟩ := ih rfl
      exact ⟨content, calls, results, others, first :: front, back, hblock, hafter, hresults,
        hids, rfl⟩
  | @single first result call messages converted hcalls hresult hid _ ih =>
    have hresultCalls := toolCalls_of_resultId (hresult.symm ▸ hid)
    rcases before with _ | ⟨_, _ | ⟨_, before⟩⟩
    · cases hmessages
      simp [Message.isSplit, hcalls] at hsplit
    · cases hmessages
      simp [Message.isSplit, hresultCalls] at hsplit
    · obtain ⟨-, hrest⟩ := List.cons.inj hmessages
      obtain ⟨-, rfl⟩ := List.cons.inj hrest
      obtain ⟨content, calls, results, others, front, back, hblock, hafter, hresults, hids,
        rfl⟩ := ih rfl
      exact ⟨content, calls, results, others, first :: result :: front, back, hblock, hafter,
        hresults, hids, rfl⟩
  | @several content calls results messages converted hcalls hresults hids hnodup _ ih =>
    cases before with
    | nil =>
      cases hmessages
      exact ⟨content, calls, results, messages, [], converted, rfl, rfl, hresults, hids, rfl⟩
    | cons _ before =>
      obtain ⟨-, hrest⟩ := List.cons.inj hmessages
      have hnotResult : message ∉ results := by
        intro hmem
        have hnone := toolCalls_of_resultId (resultId_ne_none hids hresults hmem)
        simp [Message.isSplit, hnone] at hsplit
      obtain ⟨middle, hmiddle⟩ : ∃ middle, messages = middle ++ message :: after := by
        rcases List.append_eq_append_iff.mp hrest with ⟨middle, -, hmiddle⟩ | ⟨middle, h, hmiddle⟩
        · exact ⟨middle, hmiddle⟩
        · cases middle with
          | nil => exact ⟨[], hmiddle.symm⟩
          | cons m middle =>
            obtain ⟨rfl, -⟩ := List.cons.inj hmiddle
            exact absurd (h ▸ List.mem_append_right before List.mem_cons_self) hnotResult
      obtain ⟨content', calls', results', others, front, back, hblock, hafter, hresults', hids',
        rfl⟩ := ih hmiddle
      refine ⟨content', calls', results', others,
        results.flatMap (answerPair content calls) ++ front, back, hblock, hafter, hresults',
        hids', ?_⟩
      rw [List.append_assoc]

/-- A call is in one message only. -/
theorem eq_of_toolCalls (hnodup : (converted.flatMap Message.toolCalls).Nodup)
    {message message' : Message} (hmessage : message ∈ converted)
    (hmessage' : message' ∈ converted) {call : ToolCall} (hcall : call ∈ message.toolCalls)
    (hcall' : call ∈ message'.toolCalls) : message = message' := by
  by_contra hne
  have hsymm : Std.Symm (Function.onFun List.Disjoint Message.toolCalls) :=
    ⟨fun _ _ h => h.symm⟩
  have hdisjoint := (List.nodup_flatMap.mp hnodup).2.forall hmessage hmessage' hne
  exact hdisjoint hcall hcall'

/-- Of two calls only one comes first. -/
theorem not_sublist_swap {α : Type*} {l : List α} (hnodup : l.Nodup) {a b : α}
    (h : [a, b].Sublist l) : ¬ [b, a].Sublist l := by
  induction l with
  | nil => cases h
  | cons c l ih =>
    rw [List.nodup_cons] at hnodup
    intro h'
    cases h with
    | cons _ h =>
      cases h' with
      | cons _ h' => exact ih hnodup.2 h h'
      | cons_cons _ h' => exact hnodup.1 (h.subset (List.mem_cons_of_mem a List.mem_cons_self))
    | cons_cons _ h =>
      cases h' with
      | cons _ h' => exact hnodup.1 (h'.subset (List.mem_cons_of_mem b List.mem_cons_self))
      | cons_cons _ h' => exact hnodup.1 (List.singleton_sublist.mp h)

theorem ToolConversation.nodup_toolCalls (h : ToolConversation messages) :
    (messages.flatMap Message.toolCalls).Nodup :=
  h.distinct.of_map ToolCall.id

/-- Pairs that follow one another put the message of each later call after the first result. -/
theorem exists_pair (hnodup : (calls.map ToolCall.id).Nodup)
    (hresults : (results.map Message.resultId).Perm (calls.map ToolCall.id))
    (hids : ∀ call ∈ calls, call.id ≠ none) {part : List Message} (hpart : part.Sublist results)
    {call : ToolCall} (hcall : call ∈ calls) (hmem : call.id ∈ part.map Message.resultId)
    (back : List Message) : ∃ between result rest,
      part.flatMap (answerPair content calls) ++ back
        = between ++ callMessage content calls call :: result :: rest
        ∧ result.isTool ∧ result.resultId = call.id := by
  obtain ⟨result, hresult, hid⟩ := List.mem_map.mp hmem
  obtain ⟨front, rest, rfl⟩ := List.append_of_mem hresult
  have hmemResults := hpart.subset hresult
  obtain ⟨call', hcall', hid', hpair⟩ :=
    answerPair_of_perm hnodup hresults hmemResults
  have heq : call' = call := List.inj_on_of_nodup_map hnodup hcall' hcall (hid'.symm.trans hid)
  refine ⟨front.flatMap (answerPair content calls), result,
    rest.flatMap (answerPair content calls) ++ back, ?_,
    isTool_of_resultId (resultId_ne_none hids hresults hmemResults), hid⟩
  rw [List.flatMap_append, List.flatMap_cons, hpair, heq]
  simp

theorem callMessage_cons (content : Content) (first : ToolCall) (tail : List ToolCall)
    (call : ToolCall) : callMessage content (first :: tail) call
      = .assistant (if first.id = call.id then content else .str []) (some [call]) := rfl

/-- The calls of two messages stand in the order of the messages. -/
theorem sublist_toolCalls {front middle back : List Message} {message message' : Message}
    {call call' : ToolCall} (hcall : message.toolCalls = [call])
    (hcall' : message'.toolCalls = [call']) : [call, call'].Sublist
      ((front ++ message :: (middle ++ message' :: back)).flatMap Message.toolCalls) := by
  simp only [List.flatMap_append, List.flatMap_cons, hcall, hcall']
  refine List.sublist_append_of_sublist_right (List.Sublist.append (List.Sublist.refl [call]) ?_)
  exact List.sublist_append_of_sublist_right (List.sublist_append_left [call'] _)

/-- A content that is not empty stays with the first call. -/
theorem eq_first_of_content {first : ToolCall} {tail : List ToolCall} {call : ToolCall}
    (hconverted : (converted.flatMap Message.toolCalls).Nodup)
    (hnodup : ((first :: tail).map ToolCall.id).Nodup) (hcall : call ∈ first :: tail)
    (hpart : callMessage content (first :: tail) call ∈ converted)
    (hkept : Message.assistant content (some [call]) ∈ converted) (hempty : content ≠ .str []) :
    call = first := by
  have hsame := eq_of_toolCalls hconverted hpart hkept
    (List.mem_singleton_self call) (List.mem_singleton_self call)
  rw [callMessage_cons] at hsame
  by_contra hother
  rw [if_neg fun heq => hother (List.inj_on_of_nodup_map hnodup hcall
    List.mem_cons_self heq.symm)] at hsame
  cases hsame
  exact hempty rfl

/-- A call whose result is not the first one is answered by a later one. -/
theorem mem_rest_of_ne (hresults : (results.map Message.resultId).Perm (calls.map ToolCall.id))
    {result : Message} {rest : List Message} (hcons : results = result :: rest) {call : ToolCall}
    (hcall : call ∈ calls) (hne : call.id ≠ result.resultId) :
    call.id ∈ rest.map Message.resultId := by
  have hmem := hresults.symm.subset (List.mem_map_of_mem hcall)
  rw [hcons, List.map_cons, List.mem_cons] at hmem
  exact hmem.resolve_left hne

/-- If the first result is not that of the first call, then the call that it answers comes first,
and a content would have to stand with both. -/
theorem resultId_of_contentFirst {first answered : ToolCall} {tail : List ToolCall}
    {result : Message} {rest front back : List Message}
    (hids : ∀ call ∈ first :: tail, call.id ≠ none)
    (hresults : ((result :: rest).map Message.resultId).Perm ((first :: tail).map ToolCall.id))
    (hconverted : converted = front ++ ([callMessage content (first :: tail) answered, result]
      ++ rest.flatMap (answerPair content (first :: tail)) ++ back))
    (hnodup : ((converted.flatMap Message.toolCalls).map ToolCall.id).Nodup)
    (hcallsNodup : ((first :: tail).map ToolCall.id).Nodup)
    (hanswered : answered ∈ first :: tail) (hid : result.resultId = answered.id)
    (hfirst : ContentFirst (.assistant content (some (first :: tail))) converted)
    (hempty : content ≠ .str []) : result.resultId = first.id := by
  obtain ⟨call, hcall, before, after, hcontent, hothers⟩ := hfirst
  change converted = before ++ .assistant content (some [call]) :: after at hcontent
  by_contra hne
  have hcallsConverted := hnodup.of_map ToolCall.id
  have hpair : answerPair content (first :: tail) result
      = [callMessage content (first :: tail) answered, result] := by
    unfold answerPair
    rw [hid, partFor_of_mem hcallsNodup hanswered]
    rfl
  have hcallFirst : call = first := by
    obtain ⟨between, result', rest', hblock, -⟩ := exists_pair hcallsNodup
      hresults hids (List.Sublist.refl _) hcall
      (hresults.symm.subset (List.mem_map_of_mem hcall)) back
    rw [List.flatMap_cons, hpair] at hblock
    refine eq_first_of_content hcallsConverted hcallsNodup hcall ?_ ?_ hempty
    · rw [hconverted, hblock]
      simp
    · rw [hcontent]
      simp
  have hneCall : first.id ≠ answered.id := fun heq => hne (hid.trans heq.symm)
  have hanswer : answered ≠ call := by
    rintro rfl
    exact hneCall (by rw [hcallFirst])
  obtain ⟨between, result', rest', hlater, -⟩ := hothers answered hanswered hanswer
  have hmem : first.id ∈ rest.map Message.resultId :=
    mem_rest_of_ne hresults rfl List.mem_cons_self fun heq => hne heq.symm
  obtain ⟨between', result'', rest'', hrest, -⟩ := exists_pair hcallsNodup
    hresults hids (List.sublist_cons_self result rest) List.mem_cons_self hmem back
  have hfront : [call, answered].Sublist (converted.flatMap Message.toolCalls) := by
    rw [hcontent, hlater]
    exact sublist_toolCalls rfl rfl
  have hback : [answered, call].Sublist (converted.flatMap Message.toolCalls) := by
    have hblock : converted = front ++ callMessage content (first :: tail) answered
        :: ((result :: between') ++ callMessage content (first :: tail) first
          :: result'' :: rest'') := by
      rw [hconverted, List.append_assoc, hrest]
      rfl
    rw [hblock, hcallFirst]
    exact sublist_toolCalls rfl rfl
  exact not_sublist_swap hcallsConverted hfront hback

/-- The content of a message of several calls stands first exactly when the first result is
that of the first call, unless there is no content. -/
theorem contentFirst_iff (hcalls : 1 < calls.length)
    (hids : ∀ call ∈ calls, call.id ≠ none)
    (hresults : (results.map Message.resultId).Perm (calls.map ToolCall.id))
    {front back others : List Message}
    (hconverted : converted = front ++ (results.flatMap (answerPair content calls) ++ back))
    (hnodup : ((converted.flatMap Message.toolCalls).map ToolCall.id).Nodup)
    (hcallsNodup : (calls.map ToolCall.id).Nodup) :
    ContentFirst (.assistant content (some calls)) converted
      ↔ content = .str [] ∨ (results ++ others).head?.bind Message.resultId
          = calls.head?.bind ToolCall.id := by
  obtain ⟨first, tail, rfl⟩ : ∃ first tail, calls = first :: tail :=
    List.exists_cons_of_length_pos (by omega)
  obtain ⟨result, rest, rfl⟩ : ∃ result rest, results = result :: rest := by
    refine List.exists_cons_of_length_pos ?_
    have hlength := hresults.length_eq
    rw [List.length_map, List.length_map] at hlength
    omega
  obtain ⟨answered, hanswered, hid, hpair⟩ :=
    answerPair_of_perm hcallsNodup hresults List.mem_cons_self
  rw [List.flatMap_cons, hpair] at hconverted
  change _ ↔ content = .str [] ∨ result.resultId = first.id
  constructor
  · intro hfirst
    by_cases hempty : content = .str []
    · exact Or.inl hempty
    · exact Or.inr (resultId_of_contentFirst hids hresults hconverted hnodup hcallsNodup hanswered
        hid hfirst hempty)
  · intro h
    have hkeeps : callMessage content (first :: tail) answered
        = .assistant content (some [answered]) := by
      rw [callMessage_cons]
      rcases h with rfl | h
      · rw [ite_self]
      · rw [if_pos (h.symm.trans hid)]
    refine ⟨answered, hanswered, front, result :: (rest.flatMap
      (answerPair content (first :: tail)) ++ back), ?_, ?_⟩
    · rw [hconverted, hkeeps]
      simp [Message.content]
    · intro other hother hne
      have hneId : other.id ≠ answered.id := fun heq =>
        hne (List.inj_on_of_nodup_map hcallsNodup hother hanswered heq)
      have hmem : other.id ∈ rest.map Message.resultId :=
        mem_rest_of_ne hresults rfl hother fun heq => hneId (heq.trans hid)
      obtain ⟨between, result', rest', hrest, htool, hresult'⟩ := exists_pair hcallsNodup
        hresults hids (List.sublist_cons_self result rest) hother hmem back
      have hempty : callMessage content (first :: tail) other
          = .assistant (.str []) (some [other]) := by
        rw [callMessage_cons]
        rcases h with rfl | h
        · rw [ite_self]
        · rw [if_neg fun heq => hneId (heq.symm.trans (h.symm.trans hid))]
      rw [hempty] at hrest
      exact ⟨result :: between, result', rest', by rw [hrest]; rfl, htool, hresult'⟩

/-- A call belongs to one message: another message has no call with its id. -/
theorem ToolConversation.not_isPartOf (h : ToolConversation messages) {message : Message}
    (hmessage : message ∈ messages) (hsplit : ¬ message.isSplit) {call : ToolCall}
    (hcall : call ∈ message.toolCalls) :
    ¬ messages.any fun other => other.isSplit && other.toolCalls.any (·.id = call.id) := by
  intro hany
  simp only [List.any_eq_true, Bool.and_eq_true, decide_eq_true_eq] at hany
  obtain ⟨other, hother, hotherSplit, call', hcall', hid⟩ := hany
  have hsame : call' = call := List.inj_on_of_nodup_map h.distinct
    (List.mem_flatMap.mpr ⟨other, hother, hcall'⟩)
    (List.mem_flatMap.mpr ⟨message, hmessage, hcall⟩) hid
  rw [hsame] at hcall'
  rw [eq_of_toolCalls h.nodup_toolCalls hother hmessage hcall' hcall] at hotherSplit
  exact hsplit hotherSplit

/-- Everything but the place of the contents holds in any order of the results. -/
theorem Splits.singleCalls_iff (hsplits : Splits messages converted)
    (h : ToolConversation messages) :
    SingleCalls messages converted ↔ FirstAnsweredFirst messages := by
  have hnodup : ((converted.flatMap Message.toolCalls).map ToolCall.id).Nodup :=
    (hsplits.perm_toolCalls.map ToolCall.id).nodup_iff.mpr h.distinct
  have hplace : ∀ {before after : List Message} {message : Message},
      messages = before ++ message :: after → message.isSplit →
        (ContentFirst message converted ↔ message.content = .str []
          ∨ after.head?.bind Message.resultId = message.toolCalls.head?.bind ToolCall.id) := by
    intro before after message hmessages hsplit
    obtain ⟨content, calls, results, others, front, back, rfl, rfl, hresults, hids, hblock⟩ :=
      hsplits.exists_block hmessages hsplit
    have hcallsNodup : (calls.map ToolCall.id).Nodup := by
      have hdistinct := h.distinct
      rw [hmessages, List.flatMap_append, List.flatMap_cons, List.map_append,
        List.map_append] at hdistinct
      exact hdistinct.of_append_right.of_append_left
    exact contentFirst_iff (of_decide_eq_true hsplit) hids hresults hblock hnodup hcallsNodup
  constructor
  · intro hsingle before message after hmessages hsplit
    have hmem : message ∈ messages := by
      rw [hmessages]
      exact List.mem_append_right before List.mem_cons_self
    exact (hplace hmessages hsplit).mp (hsingle.content message hmem hsplit)
  · intro hfirst
    refine ⟨hsplits.length_toolCalls_le, hsplits.resultsFollow, ?_, hsplits.perm_toolCalls, ?_⟩
    · refine hsplits.filter_eq (p := fun id => messages.any fun other =>
        other.isSplit && other.toolCalls.any (·.id = id)) ?_ ?_
      · intro message hmessage hsplit call hcall
        simp only [List.any_eq_true, Bool.and_eq_true, decide_eq_true_eq]
        exact ⟨message, hmessage, hsplit, call, hcall, rfl⟩
      · exact fun message hmessage hsplit call hcall => h.not_isPartOf hmessage hsplit hcall
    · intro message hmessage hsplit
      obtain ⟨before, after, hmessages⟩ := List.append_of_mem hmessage
      exact (hplace hmessages hsplit).mpr (hfirst before message after hmessages hsplit)

/-- Messages whose calls are answered are split without an error. -/
theorem exists_converted (h : ToolConversation messages) (ignoreFinalToolResult : Bool) :
    ∃ converted, convertFromMultipleToolCallsToSingleToolCallMessages messages
        ignoreFinalToolResult = .ok converted ∧ Splits messages converted := by
  obtain ⟨converted, hconverted, hsplits⟩ := exists_splits h.identified h.distinct h.answered
  refine ⟨converted, ?_, hsplits⟩
  unfold convertFromMultipleToolCallsToSingleToolCallMessages
  rw [hconverted]
  cases ignoreFinalToolResult
  · rfl
  · rfl

/-- The splitting never fails on messages whose calls are answered, and gives single calls with
every content before its calls' results exactly when the first call of each message is answered
first. -/
theorem convertFromMultipleToolCalls_iff (h : ToolConversation messages)
    (ignoreFinalToolResult : Bool) :
    ∃ converted, convertFromMultipleToolCallsToSingleToolCallMessages messages
        ignoreFinalToolResult = .ok converted
      ∧ (SingleCalls messages converted ↔ FirstAnsweredFirst messages) := by
  obtain ⟨converted, hconverted, hsplits⟩ := exists_converted h ignoreFinalToolResult
  exact ⟨converted, hconverted, hsplits.singleCalls_iff h⟩

end

/-! ## Two calls -/

def toolCallOf (id : String) : ToolCall where
  index := some 1
  id := some id.toList
  type := some "function".toList
  function := some { name := "look".toList, arguments := "\x7b\x7d".toList }

def resultOf (id : String) : Message :=
  .tool (.str "seen".toList) (some "look".toList) (some id.toList) false

/-- A message with two calls, answered by `results`. -/
def lookTwice (results : List Message) : List Message :=
  .assistant (.str "Let me look.".toList) (some [toolCallOf "a", toolCallOf "b"]) :: results

theorem toolConversation_lookTwice {results : List Message}
    (h : results = [resultOf "a", resultOf "b"] ∨ results = [resultOf "b", resultOf "a"]) :
    ToolConversation (lookTwice results) := by
  have hcalls : (lookTwice results).flatMap Message.toolCalls = [toolCallOf "a", toolCallOf "b"] := by
    rcases h with rfl | rfl <;> rfl
  constructor
  · rw [hcalls]
    intro call hcall
    simp only [List.mem_cons, List.not_mem_nil, or_false] at hcall
    rcases hcall with rfl | rfl <;> exact Option.some_ne_none _
  · rw [hcalls]
    decide
  · have hanswered : CallsAnswered (.assistant (.str "Let me look.".toList)
        (some [toolCallOf "a", toolCallOf "b"]) :: (results ++ [])) :=
      CallsAnswered.calls (List.cons_ne_nil _ _) ?_ .nil
    · rw [List.append_nil] at hanswered
      exact hanswered
    · rcases h with rfl | rfl
      · exact List.Perm.refl _
      · exact List.Perm.swap _ _ _

theorem converted_lookTwice :
    ∃ converted, convertFromMultipleToolCallsToSingleToolCallMessages
        (lookTwice [resultOf "a", resultOf "b"]) false = .ok converted
      ∧ (SingleCalls (lookTwice [resultOf "a", resultOf "b"]) converted
        ↔ FirstAnsweredFirst (lookTwice [resultOf "a", resultOf "b"])) :=
  convertFromMultipleToolCalls_iff (toolConversation_lookTwice (Or.inl rfl)) false

/-- With the second call answered first, the content comes after this answer. -/
theorem not_singleCalls_lookTwice :
    ToolConversation (lookTwice [resultOf "b", resultOf "a"])
      ∧ ∀ converted, convertFromMultipleToolCallsToSingleToolCallMessages
          (lookTwice [resultOf "b", resultOf "a"]) false = .ok converted →
        ¬ SingleCalls (lookTwice [resultOf "b", resultOf "a"]) converted := by
  have h : ToolConversation (lookTwice [resultOf "b", resultOf "a"]) :=
    toolConversation_lookTwice (Or.inr rfl)
  refine ⟨h, fun converted hconverted hsingle => ?_⟩
  obtain ⟨converted', hconverted', hsplits⟩ := exists_converted h false
  rw [hconverted] at hconverted'
  cases hconverted'
  rcases (hsplits.singleCalls_iff h).mp hsingle [] _ _ rfl rfl with hempty | hfirst
  · injection hempty with htext
    exact absurd htext (by decide)
  · exact absurd hfirst (by decide)

end OpenHands.FnCall
