/-
# Messages that come back

What the converter writes is read message by message, with a flag and a counter that the
messages before determine.  The messages of a conversation come back exactly when each of
them is kept (`comesBack_iff`).
-/
import OpenHands.FnCallUser
import OpenHands.Lib.Fallible

namespace OpenHands.FnCall

open Fallible PyStr PyRe JsonText

/-! ## One message -/

section

variable {host : Host} {tools : List Tool} {suffix description : Text} {asked answered : Bool}
  {state : ReadState} {message written : Message}

/-- What a message of each role is written as. -/
theorem written_of_convertFncallMessage
    (h : convertFncallMessage host tools suffix true asked message = .ok written) :
    match message with
    | .system c => ∃ content, addSystemPromptSuffix suffix c = .ok content
        ∧ written = .system content
    | .user _ => ∃ content, written = .user content
    | .assistant c toolCalls => ∃ content, withoutToolCalls host c toolCalls = .ok content
        ∧ written = .assistant content none
    | .tool .. => ∃ content, written = .user content
    | .other .. => False := by
  cases message with
  | system c =>
    obtain ⟨content, hcontent, hmessage⟩ := map_ok_iff.mp h
    exact ⟨content, hcontent, hmessage.symm⟩
  | user c =>
    simp only [convertFncallMessage] at h
    split_ifs at h
    · obtain ⟨content, -, hmessage⟩ := map_ok_iff.mp h
      exact ⟨content, hmessage.symm⟩
    · exact ⟨c, (Except.ok.inj h).symm⟩
  | assistant c toolCalls =>
    obtain ⟨content, hcontent, hmessage⟩ := map_ok_iff.mp h
    exact ⟨content, hcontent, hmessage.symm⟩
  | tool c name id cacheControl =>
    obtain ⟨content, -, hmessage⟩ := bind_ok_iff.mp h
    obtain ⟨content', -, hmessage⟩ := map_ok_iff.mp hmessage
    exact ⟨content', hmessage.symm⟩
  | other role c => cases h

/-- An assistant's message has at most one call, which is written as a text. -/
theorem written_of_withoutToolCalls {c content : Content} {toolCalls : Option (List ToolCall)}
    (h : withoutToolCalls host c toolCalls = .ok content) :
    (toolCalls = none ∧ content = c)
      ∨ ∃ call text, toolCalls = some [call] ∧ convertToolCallToString host call = .ok text
        ∧ addToolCall text c = .ok content := by
  unfold withoutToolCalls at h
  split at h
  · exact Or.inl ⟨rfl, (Except.ok.inj h).symm⟩
  · next call =>
    split at h
    · next text htext => exact Or.inr ⟨call, text, rfl, htext, h⟩
    · cases h
    · cases h
  · cases h

/-- A message comes back exactly when it is kept. -/
theorem message_iff (hstate : state.firstUserMessageEncountered = (asked || answered))
    (hformat : InFormat host tools message)
    (hwritten : convertFncallMessage host tools (systemPromptSuffix description) true asked message
      = .ok written) :
    (∃ read next, convertNonFncallMessage host tools (systemPromptSuffix description) state written
        = .ok (read, next) ∧ SameMessage host message read)
      ↔ MessageKept host tools asked answered message := by
  have hcontent := written_of_convertFncallMessage hwritten
  cases message with
  | system c =>
    obtain ⟨content, hadd, rfl⟩ := hcontent
    refine Iff.trans ⟨?_, ?_⟩ (system_iff hformat.texts hadd)
    · rintro ⟨read, next, hread, hsame⟩
      cases hread
      cases hsame
      assumption
    · exact fun hsame => ⟨_, _, rfl, .system hsame⟩
  | user c =>
    obtain ⟨content, rfl⟩ := hcontent
    refine Iff.trans ⟨?_, ?_⟩ (user_iff hstate hformat.texts hwritten)
    · rintro ⟨read, next, hread, hsame⟩
      cases hread
      exact hsame
    · exact fun hsame => ⟨_, _, rfl, hsame⟩
  | assistant c toolCalls =>
    obtain ⟨content, hcall, rfl⟩ := hcontent
    obtain ⟨rfl, rfl⟩ | ⟨call, text, rfl, htext, hadd⟩ := written_of_withoutToolCalls hcall
    · have htexts : ∀ t ∈ content.texts, MarkerFree t := hformat.texts
      refine ⟨fun _ => trivial, fun _ => ⟨.assistant content none, state, ?_,
        .assistant (SameContent.refl content)⟩⟩
      simp only [convertNonFncallMessage]
      rw [readAssistantMessage_of_markerFree htexts]
      rfl
    · have hiff : (∃ read n, readAssistantMessage host tools state.toolCallCounter content none
          = .ok (read, n) ∧ SameMessage host (.assistant c (some [call])) read)
            ↔ AssistantKept host tools c (some [call]) :=
        call_iff hformat.texts hformat.call htext hadd
      refine Iff.trans ⟨?_, ?_⟩ hiff
      · rintro ⟨read, next, hread, hsame⟩
        obtain ⟨⟨read', n⟩, hread', hnext⟩ := map_ok_iff.mp hread
        cases hnext
        exact ⟨read', n, hread', hsame⟩
      · rintro ⟨read, n, hread, hsame⟩
        exact ⟨read, _, map_ok_iff.mpr ⟨_, hread, rfl⟩, hsame⟩
  | tool c name id cacheControl =>
    obtain ⟨content, rfl⟩ := hcontent
    refine Iff.trans ⟨?_, ?_⟩ (tool_iff hstate hwritten)
    · rintro ⟨read, next, hread, hsame⟩
      cases hread
      exact hsame
    · exact fun hsame => ⟨_, _, rfl, hsame⟩
  | other role c => exact absurd hcontent not_false

/-- What the message `read` of an original tells about the loop's variables: the flag that a
message of the user's role sets, the number of a call, and that of the call before. -/
structure Renumbered (message read : Message) (state next : ReadState) : Prop where
  flag : next.firstUserMessageEncountered
    = (state.firstUserMessageEncountered || message.isUser || message.isTool)
  call : (message.callId = none ∧ read.callId = none
      ∧ next.toolCallCounter = state.toolCallCounter)
    ∨ (read.callId = some (toolCallId state.toolCallCounter)
      ∧ next.toolCallCounter = state.toolCallCounter + 1)
  result : ∀ content name id cacheControl, read = .tool content name id cacheControl →
    id = some (toolCallId (state.toolCallCounter - 1))

/-- A message that comes back is numbered with the calls before it. -/
theorem renumbered_of_same {read : Message} {next : ReadState}
    (hformat : InFormat host tools message)
    (hwritten : convertFncallMessage host tools (systemPromptSuffix description) true asked message
      = .ok written)
    (hread : convertNonFncallMessage host tools (systemPromptSuffix description) state written
      = .ok (read, next))
    (hsame : SameMessage host message read) : Renumbered message read state next := by
  have hcontent := written_of_convertFncallMessage hwritten
  cases message with
  | system c =>
    obtain ⟨content, -, rfl⟩ := hcontent
    cases hread
    exact ⟨by simp [Message.isUser, Message.isTool], Or.inl ⟨rfl, rfl, rfl⟩,
      fun _ _ _ _ h => nomatch h⟩
  | user c =>
    obtain ⟨content, rfl⟩ := hcontent
    cases hread
    generalize hmessage : readUserMessage host tools state content = read at hsame
    cases hsame
    exact ⟨by simp [Message.isUser], Or.inl ⟨rfl, rfl, rfl⟩, fun _ _ _ _ h => nomatch h⟩
  | assistant c toolCalls =>
    obtain ⟨content, hcall, rfl⟩ := hcontent
    obtain ⟨⟨read', n⟩, hread', hnext⟩ := map_ok_iff.mp hread
    cases hnext
    obtain ⟨rfl, rfl⟩ | ⟨call, text, rfl, htext, hadd⟩ := written_of_withoutToolCalls hcall
    · have htexts : ∀ t ∈ content.texts, MarkerFree t := hformat.texts
      rw [readAssistantMessage_of_markerFree htexts] at hread'
      cases hread'
      exact ⟨by simp [Message.isUser, Message.isTool], Or.inl ⟨rfl, rfl, rfl⟩,
        fun _ _ _ _ h => nomatch h⟩
    · obtain ⟨hn, hid, -⟩ := call_of_same hformat.texts hformat.call htext hadd hread' hsame
      refine ⟨by simp [Message.isUser, Message.isTool], Or.inr ⟨hid, hn⟩, ?_⟩
      intro _ _ _ _ h
      rw [h] at hsame
      cases hsame
  | tool c name id cacheControl =>
    obtain ⟨content, rfl⟩ := hcontent
    cases hread
    generalize hmessage : readUserMessage host tools state content = read at hsame
    cases hsame with
    | tool _ _ _ id' _ =>
      refine ⟨by simp [Message.isTool], Or.inl ⟨rfl, rfl, rfl⟩, ?_⟩
      intro content' name' id'' cacheControl' h
      rw [h] at hmessage
      exact (found_of_readUserMessage hmessage).2.1
  | other role c => exact absurd hcontent not_false

end

/-! ## All messages -/

section

variable {host : Host} {tools : List Tool} {description : Text} {messages written : List Message}

/-- The flag after a message is that of the messages read so far. -/
theorem Renumbered.encountered {asked answered : Bool} {message read : Message}
    {state next : ReadState} (h : Renumbered message read state next)
    (hstate : state.firstUserMessageEncountered = (asked || answered)) :
    next.firstUserMessageEncountered
      = ((asked || message.isUser) || (answered || message.isTool)) := by
  rw [h.flag, hstate]
  cases asked <;> cases answered <;> simp

/-- The messages come back one by one. -/
theorem messages_iff {asked answered : Bool} {state : ReadState}
    (hstate : state.firstUserMessageEncountered = (asked || answered))
    (hformat : ∀ message ∈ messages, InFormat host tools message)
    (hwritten : convertFncallMessages host tools (systemPromptSuffix description) true asked
      messages = .ok written) :
    (∃ read, convertNonFncallMessages host tools (systemPromptSuffix description) state written
        = .ok read ∧ List.Forall₂ (SameMessage host) messages read)
      ↔ MessagesKept host tools asked answered messages := by
  induction messages generalizing asked answered state written with
  | nil =>
    cases hwritten
    exact ⟨fun _ => trivial, fun _ => ⟨[], rfl, .nil⟩⟩
  | cons message messages ih =>
    obtain ⟨first, hfirst, hrest⟩ := bind_ok_iff.mp hwritten
    obtain ⟨others, hothers, rfl⟩ := map_ok_iff.mp hrest
    rw [Bool.and_true] at hothers
    have hmessage := hformat message List.mem_cons_self
    have hmessages := fun m hm => hformat m (List.mem_cons_of_mem message hm)
    constructor
    · rintro ⟨read, hread, hsame⟩
      obtain ⟨⟨d, next⟩, hd, hds⟩ := bind_ok_iff.mp hread
      obtain ⟨ds, hothersRead, rfl⟩ := map_ok_iff.mp hds
      cases hsame with
      | cons hsame hsames =>
        have hnumbered := renumbered_of_same hmessage hfirst hd hsame
        exact ⟨(message_iff hstate hmessage hfirst).mp ⟨d, next, hd, hsame⟩,
          (ih (hnumbered.encountered hstate) hmessages hothers).mp ⟨ds, hothersRead, hsames⟩⟩
    · rintro ⟨hkept, hkepts⟩
      obtain ⟨d, next, hd, hsame⟩ := (message_iff hstate hmessage hfirst).mpr hkept
      have hnumbered := renumbered_of_same hmessage hfirst hd hsame
      obtain ⟨ds, hds, hsames⟩ :=
        (ih (hnumbered.encountered hstate) hmessages hothers).mpr hkepts
      exact ⟨d :: ds, bind_ok_iff.mpr ⟨_, hd, map_ok_iff.mpr ⟨ds, hds, rfl⟩⟩,
        .cons hsame hsames⟩

/-- Every result that comes back carries the number of the call made last, and the calls are
numbered one after another. -/
theorem numbered_of_same {asked : Bool} {state : ReadState} {read : List Message}
    {latest latest' : Option Text}
    (hlatest : latest ≠ none → latest' = some (toolCallId (state.toolCallCounter - 1)))
    (hanswers : AnswersLatest latest messages)
    (hformat : ∀ message ∈ messages, InFormat host tools message)
    (hwritten : convertFncallMessages host tools (systemPromptSuffix description) true asked
      messages = .ok written)
    (hread : convertNonFncallMessages host tools (systemPromptSuffix description) state written
      = .ok read)
    (hsame : List.Forall₂ (SameMessage host) messages read) :
    AnswersLatest latest' read
      ∧ ∃ n, read.filterMap Message.callId
          = (List.range' state.toolCallCounter n).map toolCallId := by
  induction messages generalizing asked state written read latest latest' with
  | nil =>
    cases hsame
    exact ⟨trivial, 0, rfl⟩
  | cons message messages ih =>
    obtain ⟨first, hfirst, hrest⟩ := bind_ok_iff.mp hwritten
    obtain ⟨others, hothers, rfl⟩ := map_ok_iff.mp hrest
    obtain ⟨⟨d, next⟩, hd, hds⟩ := bind_ok_iff.mp hread
    obtain ⟨ds, hothersRead, rfl⟩ := map_ok_iff.mp hds
    obtain ⟨hanswer, hanswers⟩ := hanswers
    cases hsame with
    | cons hsame hsames =>
      have hnumbered := renumbered_of_same (hformat message List.mem_cons_self) hfirst hd hsame
      have hnext : message.callId.or latest ≠ none →
          d.callId.or latest' = some (toolCallId (next.toolCallCounter - 1)) := by
        intro hsome
        rcases hnumbered.call with ⟨hnone, hnone', hcounter⟩ | ⟨hcall, hcounter⟩
        · rw [hnone, Option.none_or] at hsome
          rw [hnone', Option.none_or, hcounter, hlatest hsome]
        · rw [hcall, hcounter, Option.some_or, Nat.add_sub_cancel]
      obtain ⟨hanswers', n, hids⟩ := ih hnext hanswers
        (fun m hm => hformat m (List.mem_cons_of_mem message hm)) hothers hothersRead hsames
      constructor
      · refine ⟨?_, hanswers'⟩
        cases hsame with
        | tool _ name id id' cacheControl =>
          have hid := hnumbered.result _ _ _ _ rfl
          exact ⟨by rw [hid]; exact Option.some_ne_none _,
            by rw [hid, hlatest (hanswer.2 ▸ hanswer.1)]⟩
        | _ => trivial
      · rcases hnumbered.call with ⟨-, hnone, hcounter⟩ | ⟨hcall, hcounter⟩
        · exact ⟨n, by rw [List.filterMap_cons_none hnone, hids, hcounter]⟩
        · refine ⟨n + 1, ?_⟩
          rw [List.filterMap_cons_some hcall, hids, hcounter, List.range'_succ, List.map_cons]

end

/-- A number is told by its digits. -/
theorem toolCallId_injective : Function.Injective toolCallId := by
  intro m n h
  have hvalue : ∀ k : ℕ, Nat.ofDigitChars 10 ((if k < 10 then ['0'] else [])
      ++ Nat.toDigits 10 k) 0 = k := by
    intro k
    split_ifs
    · exact Nat.ofDigitChars_ten_toDigits
    · exact Nat.ofDigitChars_ten_toDigits
  unfold toolCallId at h
  rw [List.append_assoc, List.append_assoc] at h
  rw [← hvalue m, ← hvalue n, List.append_cancel_left h]

section

variable {host : Host} {tools : List Tool} {messages : List Message}

theorem messagesKept_of_comesBack (h : Conversation host tools messages)
    (hback : ComesBack host tools messages) : MessagesKept host tools false false messages := by
  obtain ⟨written, read, hwritten, hread, hsame⟩ := hback
  obtain ⟨description, hdescription, hmessages⟩ := bind_ok_iff.mp hwritten
  obtain ⟨description', hdescription', hread⟩ := bind_ok_iff.mp hread
  rw [hdescription] at hdescription'
  cases hdescription'
  exact (messages_iff rfl h.each hmessages).mp ⟨read, hread, hsame.each⟩

theorem comesBack_of_messagesKept (h : Conversation host tools messages)
    (hkept : MessagesKept host tools false false messages) : ComesBack host tools messages := by
  obtain ⟨written, hwritten⟩ := h.accepted
  obtain ⟨description, hdescription, hmessages⟩ := bind_ok_iff.mp hwritten
  have hstart : ({} : ReadState).firstUserMessageEncountered = (false || false) := rfl
  obtain ⟨read, hread, hsame⟩ := (messages_iff hstart h.each hmessages).mpr hkept
  obtain ⟨hanswers, n, hids⟩ := numbered_of_same (fun hnone => absurd rfl hnone)
    h.answers h.each hmessages hread hsame
  refine ⟨written, read, hwritten, bind_ok_iff.mpr ⟨_, hdescription, hread⟩, hsame, hanswers, ?_⟩
  rw [hids]
  exact (List.nodup_range' 1).map toolCallId_injective

/-- The messages of a conversation come back exactly when each of them is kept. -/
theorem comesBack_iff (h : Conversation host tools messages) :
    ComesBack host tools messages ↔ MessagesKept host tools false false messages :=
  ⟨messagesKept_of_comesBack h, comesBack_of_messagesKept h⟩

end

/-! ## A command -/

/-- Without floats there is nothing to write or to read. -/
def bashHost : Host where
  toFloatFormat := JsonText.onlyIntegers
  containerText := fun _ => []
  win32 := false

def bashTool : Tool where
  type := "function"
  function := {
    name := "execute_bash"
    description := some "Execute a bash command in the terminal."
    parameters := some {
      properties := some (PyDict.ofEntries [("command", {
        type := some "string"
        description := some "The bash command to execute."
        enum := none })])
      required := some ["command"] } }

def bashCall (command : String) : ToolCall where
  index := some 1
  id := some "toolu_01".toList
  type := some "function".toList
  function := some {
    name := "execute_bash".toList
    arguments := dumps bashHost.toFloatFormat (.obj [("command", .str command)]) }

def bashMessages (command : String) : List Message :=
  [.system (.str "You are a helpful assistant.".toList),
    .user (.str "Run it.".toList),
    .assistant (.str "Running.".toList) (some [bashCall command]),
    .tool (.str "done".toList) (some "execute_bash".toList) (some "toolu_01".toList) false]

section

variable {command : String}

theorem loads_bashCall : loads bashHost.toFloatFormat
    (dumps bashHost.toFloatFormat (.obj [("command", .str command)]))
      = some (.obj [("command", .str command)]) := by
  refine loads_dumps _ (.obj (by simp) ?_)
  intro entry hentry
  rw [List.mem_singleton.mp hentry]
  exact .str command

/-- Messages that are accepted one by one are accepted. -/
theorem exists_written {host : Host} {tools : List Tool} {suffix : Text} :
    ∀ {messages : List Message} {encountered : Bool}, (∀ message ∈ messages, ∀ encountered,
      ∃ written, convertFncallMessage host tools suffix true encountered message = .ok written) →
        ∃ written, convertFncallMessages host tools suffix true encountered messages = .ok written
  | [], _, _ => ⟨[], rfl⟩
  | message :: messages, encountered, h => by
    obtain ⟨first, hfirst⟩ := h message List.mem_cons_self encountered
    obtain ⟨others, hothers⟩ := exists_written
      fun m hm => h m (List.mem_cons_of_mem message hm)
    exact ⟨first :: others, bind_ok_iff.mpr ⟨first, hfirst, map_ok_iff.mpr ⟨others, hothers, rfl⟩⟩⟩

/-- A call of a function with a dictionary of arguments is accepted. -/
theorem convertToolCallToString_of_loads {host : Host} {call : ToolCall}
    {functionCall : FunctionCall} {args : List (String × PyJson)}
    (hfunction : call.function = some functionCall) (hid : call.id ≠ none)
    (htype : call.type = some "function".toList)
    (hargs : loads host.toFloatFormat functionCall.arguments = some (.obj args)) :
    ∃ text, convertToolCallToString host call = .ok text := by
  unfold convertToolCallToString
  rw [hfunction]
  simp only
  rw [if_neg hid, htype, if_neg (Option.some_ne_none _), if_neg (not_not.mpr rfl), hargs]
  exact ⟨_, rfl⟩

/-- A text of the user is accepted, with the example around it or without. -/
theorem exists_written_user {host : Host} {tools : List Tool} {suffix : Text} (encountered : Bool)
    (t : Text) : ∃ written,
      convertFncallMessage host tools suffix true encountered (.user (.str t)) = .ok written := by
  simp only [convertFncallMessage]
  split_ifs
  · exact ⟨_, rfl⟩
  · exact ⟨_, rfl⟩

theorem accepted_bashMessages (suffix : Text) : ∀ message ∈ bashMessages command, ∀ encountered,
    ∃ written, convertFncallMessage bashHost [bashTool] suffix true encountered message
      = .ok written := by
  intro message hmessage encountered
  unfold bashMessages at hmessage
  simp only [List.mem_cons, List.not_mem_nil, or_false] at hmessage
  rcases hmessage with rfl | rfl | rfl | rfl
  · exact ⟨_, rfl⟩
  · exact exists_written_user encountered _
  · obtain ⟨text, htext⟩ : ∃ text, convertToolCallToString bashHost (bashCall command) = .ok text :=
      convertToolCallToString_of_loads rfl (Option.some_ne_none _) rfl loads_bashCall
    simp only [convertFncallMessage, withoutToolCalls, htext]
    exact ⟨_, rfl⟩
  · exact ⟨_, rfl⟩

theorem conversation_bashMessages (h : MarkerFree command.toList) :
    Conversation bashHost [bashTool] (bashMessages command) where
  accepted := by
    obtain ⟨written, hwritten⟩ := exists_written
      (accepted_bashMessages (systemPromptSuffix _))
    exact ⟨written, bind_ok_iff.mpr ⟨_, rfl, hwritten⟩⟩
  system := by
    refine ⟨_, _, rfl, fun message hmessage => ?_⟩
    simp only [List.mem_cons, List.not_mem_nil, or_false] at hmessage
    rcases hmessage with rfl | rfl | rfl <;> rfl
  answers := by
    unfold bashMessages bashCall
    simp [AnswersLatest, Message.callId]
  each := by
    intro message hmessage
    unfold bashMessages at hmessage
    simp only [List.mem_cons, List.not_mem_nil, or_false] at hmessage
    rcases hmessage with rfl | rfl | rfl | rfl
    · exact ⟨List.forall_mem_singleton.mpr (markerFree_of_notMem (by decide)), fun _ hcall => nomatch hcall⟩
    · exact ⟨List.forall_mem_singleton.mpr (markerFree_of_notMem (by decide)), fun _ hcall => nomatch hcall⟩
    · refine ⟨List.forall_mem_singleton.mpr (markerFree_of_notMem (by decide)), fun call hcall => ?_⟩
      cases hcall
      refine ⟨bashTool.function, rfl, fun args hargs => ?_⟩
      rw [loads_bashCall] at hargs
      cases hargs
      constructor
      · intro arg harg
        rw [List.mem_singleton.mp harg]
        exact ⟨_, _, rfl, rfl, rfl⟩
      · intro arg harg
        rw [List.mem_singleton.mp harg]
        have hname : '<' ∉ "command".toList ∧ '[' ∉ "command".toList := by decide
        exact ⟨markerFree_of_notMem hname, h⟩
    · exact ⟨List.forall_mem_singleton.mpr (markerFree_of_notMem (by decide)), fun _ hcall => nomatch hcall⟩

theorem example_bashTool : getExampleForTools bashHost [bashTool] ≠ [] := by
  unfold getExampleForTools
  simp only [List.append_assoc]
  rw [if_pos (by decide)]
  obtain ⟨rest, hrest⟩ := refinePrompt_exampleStart bashHost _
  rw [hrest]
  exact List.cons_ne_nil 'H' rest

/-- The suffix behind a text of one line is found and removed. -/
theorem suffixRemoved_of_oneLine {t : Text} (h : '\n' ∉ t) : SuffixRemoved t := by
  obtain ⟨rest, hrest⟩ : ∃ rest, inContextLearningExampleSuffix = '\n' :: rest := by
    unfold inContextLearningExampleSuffix unlines
    rw [List.flatMap_cons, String.toList_empty, List.nil_append, List.singleton_append]
    exact ⟨_, rfl⟩
  have hcut : cut ('\n' :: rest) (t ++ '\n' :: rest ++ []) = some (t, []) :=
    cut_append_of_head_notMem h []
  rw [List.append_nil] at hcut
  unfold SuffixRemoved
  rw [hrest, replaceFirst_of_cut hcut, List.append_nil, List.append_nil]
  exact SameText.refl t

/-- Of these messages only the call may be lost. -/
theorem messagesKept_bashMessages : MessagesKept bashHost [bashTool] false false
    (bashMessages command) ↔ CallKept bashHost [bashTool] (bashCall command) := by
  have hline : '\n' ∉ "Run it.".toList := by decide
  have huser : UserKept (getExampleForTools bashHost [bashTool]) false false
      (.str "Run it.".toList) :=
    ⟨rfl, Or.inr (Or.inr ⟨example_bashTool, rfl, suffixRemoved_of_oneLine hline⟩)⟩
  have hname : ¬ "]:\n".toList <:+: "execute_bash".toList := by
    simp only [String.reduceToList]
    decide
  have htool : ToolKept true (.str "done".toList) (some "execute_bash".toList) false :=
    ⟨rfl, _, _, rfl, hname, Or.inl rfl, Or.inl rfl⟩
  constructor
  · exact fun h => h.2.2.1.2
  · exact fun h => ⟨rfl, huser, ⟨rfl, h⟩, htool, trivial⟩

/-- A command comes back when it is one line. -/
theorem callKept_bashCall :
    CallKept bashHost [bashTool] (bashCall command) ↔ '\n' ∉ command.toList := by
  constructor
  · rintro ⟨-, functionCall, function, args, hfunction, -, hargs, -, hkept⟩
    cases hfunction
    rw [loads_bashCall] at hargs
    cases hargs
    have honeLine := (hkept.each _ List.mem_cons_self).oneLine
    exact of_decide_eq_false honeLine
  · intro hline
    have hname : '=' ∉ "command".toList := by decide
    have hnamed : WellNamed "command".toList := by
      unfold WellNamed
      decide
    have hcallNamed : WellNamed "execute_bash".toList := by
      unfold WellNamed
      decide
    refine ⟨rfl, _, bashTool.function, _, rfl, rfl, loads_bashCall, hcallNamed, ?_, ?_⟩
    · intro arg harg
      rw [List.mem_singleton.mp harg]
      refine ⟨hnamed, ?_, decide_eq_false hline, rfl⟩
      rw [matchStart_paramTag_eq_none]
      by_contra hmalformed
      obtain ⟨found, hfound⟩ := Option.ne_none_iff_exists'.mp hmalformed
      exact hname (malformedTag_spec hfound).2.2.1
    · intro name hrequired
      exact hrequired

end

/-- A command on one line comes back. -/
theorem comesBack_bashMessages : ComesBack bashHost [bashTool] (bashMessages "ls") := by
  have hfree : '<' ∉ "ls".toList ∧ '[' ∉ "ls".toList := by decide
  have hline : '\n' ∉ "ls".toList := by decide
  exact (comesBack_iff (conversation_bashMessages (markerFree_of_notMem hfree))).mpr
    (messagesKept_bashMessages.mpr (callKept_bashCall.mpr hline))

/-- A command on two lines is read back with a newline before it and one after it. -/
theorem not_comesBack_bashMessages :
    Conversation bashHost [bashTool] (bashMessages "ls\npwd")
      ∧ ¬ ComesBack bashHost [bashTool] (bashMessages "ls\npwd") := by
  have hfree : '<' ∉ "ls\npwd".toList ∧ '[' ∉ "ls\npwd".toList := by decide
  have hlines : '\n' ∈ "ls\npwd".toList := by decide
  have hconversation := conversation_bashMessages (markerFree_of_notMem hfree)
  refine ⟨hconversation, fun hback => ?_⟩
  have hkept := messagesKept_of_comesBack hconversation hback
  exact callKept_bashCall.mp (messagesKept_bashMessages.mp hkept) hlines

end OpenHands.FnCall
