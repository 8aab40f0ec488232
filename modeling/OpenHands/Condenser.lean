/-
# Rolling condensers

The condensers of `openhands/memory/condenser` that answer with a `CondensationAction`
when the view has grown too long: `AmortizedForgettingCondenser`,
`LLMSummarizingCondenser` and `StructuredSummaryCondenser`.

The checks of the constructors are fields of `WindowSizes`, so that a condenser of the
model is one that was accepted.  The language model is outside the program: a call
takes the response to its prompt as an argument.  The string form of an event is a
parameter, for it only reaches the prompt.
-/
import OpenHands.View

namespace OpenHands

/-! ## The sizes of a condenser -/

/-- `max_size` and `keep_first` as the constructors accept them. -/
structure WindowSizes where
  maxSize : ℕ
  keepFirst : ℕ
  keepFirst_lt : keepFirst < maxSize / 2
  deriving DecidableEq, Repr

/-- The checks of the three constructors.  `shown` is the number that the third
message prints. -/
def checkSizes (maxSize keepFirst shown : ℤ) : Except PyError Unit :=
  if keepFirst ≥ maxSize / 2 then
    .error (.valueError
      s!"keep_first ({keepFirst}) must be less than half of max_size ({maxSize})")
  else if keepFirst < 0 then
    .error (.valueError s!"keep_first ({keepFirst}) cannot be negative")
  else if maxSize < 1 then
    .error (.valueError s!"max_size ({shown}) cannot be non-positive")
  else
    .ok ()

/-- The checks pass exactly for a nonnegative `keep_first` below half of `max_size`: the
third one refuses nothing more. -/
theorem checkSizes_eq_ok_iff {maxSize keepFirst shown : ℤ} :
    checkSizes maxSize keepFirst shown = .ok () ↔ 0 ≤ keepFirst ∧ keepFirst < maxSize / 2 := by
  unfold checkSizes
  constructor
  · intro h
    split_ifs at h with h1 h2 h3
    exact ⟨by omega, by omega⟩
  · rintro ⟨h1, h2⟩
    rw [if_neg (by omega), if_neg (by omega), if_neg (by omega)]

/-- The sizes of a condenser whose constructor does not raise. -/
def WindowSizes.create (maxSize keepFirst shown : ℤ) : Except PyError WindowSizes :=
  match h : checkSizes maxSize keepFirst shown with
  | .ok () =>
    .ok ⟨maxSize.toNat, keepFirst.toNat, by
      have hsizes := checkSizes_eq_ok_iff.mp h
      omega⟩
  | .error e => .error e

/-- `should_condense`, the same in the three condensers. -/
def WindowSizes.shouldCondense (sizes : WindowSizes) (view : View) : Bool :=
  view.events.length > sizes.maxSize || view.unhandledCondensationRequest

/-! ## Amortized forgetting -/

/-- `min` of a nonempty collection. -/
def pyMin (l : List ℤ) : Except PyError ℤ :=
  match l.min? with
  | some m => .ok m
  | none => .error (.valueError "min() iterable argument is empty")

/-- `max` of a nonempty collection. -/
def pyMax (l : List ℤ) : Except PyError ℤ :=
  match l.max? with
  | some m => .ok m
  | none => .error (.valueError "max() iterable argument is empty")

/-- `AmortizedForgettingCondenser`. -/
structure AmortizedForgettingCondenser where
  sizes : WindowSizes
  deriving DecidableEq, Repr

namespace AmortizedForgettingCondenser

/-- `__init__`; the message about `max_size` prints `keep_first`. -/
def init (maxSize : ℤ := 100) (keepFirst : ℤ := 0) :
    Except PyError AmortizedForgettingCondenser := do
  return ⟨← WindowSizes.create maxSize keepFirst keepFirst⟩

/-- `get_condensation`. -/
def getCondensation (c : AmortizedForgettingCondenser) (view : View) :
    Except PyError CondensationAction := do
  let targetSize : ℤ := (c.sizes.maxSize / 2 : ℕ)
  let head := PySeq.slice view.events none (some c.sizes.keepFirst)
  let eventsFromTail := targetSize - head.length
  let tail := PySeq.slice view.events (some (-eventsFromTail)) none
  let eventIdsToKeep := (head ++ tail).map Event.id
  let eventIdsToForget := (view.events.map Event.id).filter (· ∉ eventIdsToKeep)
  let forgottenEventsStartId ← pyMin eventIdsToForget
  let forgottenEventsEndId ← pyMax eventIdsToForget
  CondensationAction.create none (some forgottenEventsStartId) (some forgottenEventsEndId)
    none none

end AmortizedForgettingCondenser

/-! ## Summarizing by a language model -/

/-- The message of an LLM response: its text and its tool calls, each with the name of
the function and its arguments. -/
structure LLMResponse where
  content : Option String
  toolCalls : List (String × String) := []
  deriving DecidableEq, Repr

/-- `truncate_content`: the middle of a long content is left out. -/
def truncateContent (content : String) (maxChars : ℤ) : String :=
  if content.length ≤ maxChars ∨ maxChars < 0 then content
  else
    let half := maxChars / 2
    String.ofList (PySeq.slice content.toList none (some half))
      ++ "\n[... Observation truncated due to length ...]\n"
      ++ String.ofList (PySeq.slice content.toList (some (-half)) none)

/-- The `message` of an `AgentCondensationObservation`: its content. -/
def condensationMessage (e : Event) : String :=
  match e.body with
  | .observation o => o.content
  | .action _ => ""

/-- `summary_event` and `forgotten_events`, computed alike by the two summarizing
condensers. -/
def summaryAndForgotten (sizes : WindowSizes) (view : View) :
    Except PyError (Event × List Event) := do
  let head := PySeq.slice view.events none (some sizes.keepFirst)
  let targetSize : ℤ := (sizes.maxSize / 2 : ℕ)
  -- one place of the target is left for the summary
  let eventsFromTail := targetSize - head.length - 1
  let event ← match PySeq.item? view.events sizes.keepFirst with
    | some event => .ok event
    | none => .error .indexError
  let summaryEvent :=
    if event.isAgentCondensation then event
    else agentCondensationObservation "No events summarized"
  let forgottenEvents :=
    (PySeq.slice view.events (some sizes.keepFirst) (some (-eventsFromTail))).filter
      fun e => !e.isAgentCondensation
  return (summaryEvent, forgottenEvents)

/-- The prompt: the instructions, the previous summary and the events to forget.  `str` is
`str(event)`, which raises for some events: the `__str__` of a `FileEditObservation` of a new
file asserts that `old_content` is empty. -/
def summaryPrompt (str : Event → Except PyError String) (maxEventLength : ℤ)
    (instructions closing : String) (summaryEvent : Event) (forgottenEvents : List Event) :
    Except PyError String := do
  let summaryEventContent := truncateContent (condensationMessage summaryEvent) maxEventLength
  let eventTexts ← forgottenEvents.mapM fun e => do
    let eventContent := truncateContent (← str e) maxEventLength
    return s!"<EVENT id={e.id}>\n{eventContent}\n</EVENT>\n"
  return instructions ++ "\n\n"
    ++ s!"<PREVIOUS SUMMARY>\n{summaryEventContent}\n</PREVIOUS SUMMARY>\n" ++ "\n\n"
    ++ String.join eventTexts
    ++ closing

/-- The condensation action of the two summarizing condensers. -/
def summaryCondensation (sizes : WindowSizes) (forgottenEvents : List Event)
    (summary : Option String) : Except PyError CondensationAction := do
  let forgottenEventsStartId ← pyMin (forgottenEvents.map Event.id)
  let forgottenEventsEndId ← pyMax (forgottenEvents.map Event.id)
  CondensationAction.create none (some forgottenEventsStartId) (some forgottenEventsEndId)
    summary (some sizes.keepFirst)

/-- `LLMSummarizingCondenser`. -/
structure LLMSummarizingCondenser where
  sizes : WindowSizes
  maxEventLength : ℤ
  deriving DecidableEq, Repr

namespace LLMSummarizingCondenser

/-- `__init__`. -/
def init (maxSize : ℤ := 100) (keepFirst : ℤ := 1) (maxEventLength : ℤ := 10000) :
    Except PyError LLMSummarizingCondenser := do
  return ⟨← WindowSizes.create maxSize keepFirst maxSize, maxEventLength⟩

/-- The instructions of the prompt. -/
def instructions : String :=
"You are maintaining a context-aware state summary for an interactive agent.
You will be given a list of events corresponding to actions taken by the agent, and the most recent previous summary if one exists.
If the events being summarized contain ANY task-tracking, you MUST include a TASK_TRACKING section to maintain continuity.
When referencing tasks make sure to preserve exact task IDs and statuses.

Track:

USER_CONTEXT: (Preserve essential user requirements, goals, and clarifications in concise form)

TASK_TRACKING: \x7bActive tasks, their IDs and statuses - PRESERVE TASK IDs\x7d

COMPLETED: (Tasks completed so far, with brief results)
PENDING: (Tasks that still need to be done)
CURRENT_STATE: (Current variables, data structures, or relevant state)

For code-specific tasks, also include:
CODE_STATE: \x7bFile paths, function signatures, data structures\x7d
TESTS: \x7bFailing cases, error messages, outputs\x7d
CHANGES: \x7bCode edits, variable updates\x7d
DEPS: \x7bDependencies, imports, external calls\x7d
VERSION_CONTROL_STATUS: \x7bRepository state, current branch, PR status, commit history\x7d

PRIORITIZE:
1. Adapt tracking format to match the actual task type
2. Capture key user requirements and goals
3. Distinguish between completed and pending tasks
4. Keep all sections concise and relevant

SKIP: Tracking irrelevant details for the current task type

Example formats:

For code tasks:
USER_CONTEXT: Fix FITS card float representation issue
COMPLETED: Modified mod_float() in card.py, all tests passing
PENDING: Create PR, update documentation
CODE_STATE: mod_float() in card.py updated
TESTS: test_format() passed
CHANGES: str(val) replaces f\"\x7bval:.16G\x7d\"
DEPS: None modified
VERSION_CONTROL_STATUS: Branch: fix-float-precision, Latest commit: a1b2c3d

For other tasks:
USER_CONTEXT: Write 20 haikus based on coin flip results
COMPLETED: 15 haikus written for results [T,H,T,H,T,H,T,T,H,T,H,T,H,T,H]
PENDING: 5 more haikus needed
CURRENT_STATE: Last flip: Heads, Haiku count: 15/20"

/-- `get_condensation` up to the call of the language model: the prompt and the events
to forget. -/
def request (c : LLMSummarizingCondenser) (str : Event → Except PyError String) (view : View) :
    Except PyError (String × List Event) := do
  let (summaryEvent, forgottenEvents) ← summaryAndForgotten c.sizes view
  let prompt ← summaryPrompt str c.maxEventLength instructions
    "Now summarize the events using the rules above." summaryEvent forgottenEvents
  return (prompt, forgottenEvents)

/-- `get_condensation`, where the language model answers the prompt with `response`. -/
def getCondensation (c : LLMSummarizingCondenser) (str : Event → Except PyError String) (view : View)
    (response : LLMResponse) : Except PyError CondensationAction := do
  let (_, forgottenEvents) ← c.request str view
  summaryCondensation c.sizes forgottenEvents response.content

end LLMSummarizingCondenser

/-! ## Structured summaries -/

/-- `StateSummary`. -/
structure StateSummary where
  userContext : String := ""
  completedTasks : String := ""
  pendingTasks : String := ""
  currentState : String := ""
  filesModified : String := ""
  functionChanges : String := ""
  dataStructures : String := ""
  testsWritten : String := ""
  testsPassing : String := ""
  failingTests : String := ""
  errorMessages : String := ""
  branchCreated : String := ""
  branchName : String := ""
  commitsMade : String := ""
  prCreated : String := ""
  prStatus : String := ""
  dependencies : String := ""
  otherRelevantContext : String := ""
  deriving DecidableEq, Repr

/-- `StateSummary.__str__`. -/
def StateSummary.str (s : StateSummary) : String :=
  "\n\n".intercalate
    ["# State Summary",
      "## Core Information",
      "**User Context**: " ++ s.userContext,
      "**Completed Tasks**: " ++ s.completedTasks,
      "**Pending Tasks**: " ++ s.pendingTasks,
      "**Current State**: " ++ s.currentState,
      "## Code Changes",
      "**Files Modified**: " ++ s.filesModified,
      "**Function Changes**: " ++ s.functionChanges,
      "**Data Structures**: " ++ s.dataStructures,
      "**Dependencies**: " ++ s.dependencies,
      "## Testing Status",
      "**Tests Written**: " ++ s.testsWritten,
      "**Tests Passing**: " ++ s.testsPassing,
      "**Failing Tests**: " ++ s.failingTests,
      "**Error Messages**: " ++ s.errorMessages,
      "## Version Control",
      "**Branch Created**: " ++ s.branchCreated,
      "**Branch Name**: " ++ s.branchName,
      "**Commits Made**: " ++ s.commitsMade,
      "**PR Created**: " ++ s.prCreated,
      "**PR Status**: " ++ s.prStatus,
      "## Additional Context",
      "**Other Relevant Context**: " ++ s.otherRelevantContext]

/-- `StructuredSummaryCondenser`. -/
structure StructuredSummaryCondenser where
  sizes : WindowSizes
  maxEventLength : ℤ
  deriving DecidableEq, Repr

namespace StructuredSummaryCondenser

/-- `__init__`, for a language model whose function calling is active or not. -/
def init (isFunctionCallingActive : Bool) (maxSize : ℤ := 100) (keepFirst : ℤ := 1)
    (maxEventLength : ℤ := 10000) : Except PyError StructuredSummaryCondenser := do
  let sizes ← WindowSizes.create maxSize keepFirst maxSize
  if isFunctionCallingActive then
    return ⟨sizes, maxEventLength⟩
  else
    .error (.valueError "LLM must support function calling to use StructuredSummaryCondenser")

/-- The instructions of the prompt. -/
def instructions : String :=
"You are maintaining a context-aware state summary for an interactive software agent. This summary is critical because it:
1. Preserves essential context when conversation history grows too large
2. Prevents lost work when the session length exceeds token limits
3. Helps maintain continuity across multiple interactions

You will be given:
- A list of events (actions taken by the agent)
- The most recent previous summary (if one exists)

Capture all relevant information, especially:
- User requirements that were explicitly stated
- Work that has been completed
- Tasks that remain pending
- Current state of code, variables, and data structures
- The status of any version control operations"

/-- `get_condensation` up to the call of the language model. -/
def request (c : StructuredSummaryCondenser) (str : Event → Except PyError String) (view : View) :
    Except PyError (String × List Event) := do
  let (summaryEvent, forgottenEvents) ← summaryAndForgotten c.sizes view
  let prompt ← summaryPrompt str c.maxEventLength instructions "" summaryEvent forgottenEvents
  return (prompt, forgottenEvents)

/-- The body of the `try`: the arguments of the first call of `create_state_summary`,
validated.  `validate` is JSON decoding followed by the validation of the fields; the
errors of both are a `ValueError`, given by its message. -/
def parseSummary (validate : String → Except String StateSummary) (response : LLMResponse) :
    Except PyError StateSummary :=
  if response.toolCalls.isEmpty then
    .error (.valueError "No tool calls found in response")
  else
    match response.toolCalls.find? (fun call => call.1 = "create_state_summary") with
    | none => .error (.valueError "create_state_summary tool call not found")
    | some summaryToolCall => (validate summaryToolCall.2).mapError .valueError

/-- The `try` with its `except`: a response that cannot be parsed gives the empty
summary. -/
def parseSummaryOrEmpty (validate : String → Except String StateSummary)
    (response : LLMResponse) : Except PyError StateSummary :=
  match parseSummary validate response with
  | .ok summary => .ok summary
  | .error (.valueError _) => .ok {}
  | .error e => .error e

/-- `get_condensation`, where the language model answers the prompt with `response`. -/
def getCondensation (c : StructuredSummaryCondenser) (str : Event → Except PyError String)
    (validate : String → Except String StateSummary) (view : View) (response : LLMResponse) :
    Except PyError CondensationAction := do
  let (_, forgottenEvents) ← c.request str view
  let summary ← parseSummaryOrEmpty validate response
  summaryCondensation c.sizes forgottenEvents (some summary.str)

end StructuredSummaryCondenser

/-! ## Condensing -/

/-- What `condense` returns: a view or a condensation. -/
inductive CondenserResult where
  | view (v : View)
  | condensation (action : CondensationAction)
  deriving DecidableEq, Repr

/-- `RollingCondenser.condense`, from the two methods of the condenser. -/
def rollingCondense (shouldCondense : View → Bool)
    (getCondensation : View → Except PyError CondensationAction) (view : View) :
    Except PyError CondenserResult :=
  if shouldCondense view then (getCondensation view).map .condensation
  else .ok (.view view)

/-- A view is returned only when it need not be condensed, and then unchanged. -/
theorem rollingCondense_eq_view {shouldCondense : View → Bool}
    {getCondensation : View → Except PyError CondensationAction} {view v : View}
    (h : rollingCondense shouldCondense getCondensation view = .ok (.view v)) :
    v = view ∧ shouldCondense view = false := by
  unfold rollingCondense at h
  split_ifs at h with hs
  · cases hget : getCondensation view with
    | ok action => rw [hget] at h; cases h
    | error e => rw [hget] at h; cases h
  · cases h
    exact ⟨rfl, by simpa using hs⟩

/-- A condensation is the one of `get_condensation`. -/
theorem rollingCondense_eq_condensation {shouldCondense : View → Bool}
    {getCondensation : View → Except PyError CondensationAction} {view : View}
    {action : CondensationAction}
    (h : rollingCondense shouldCondense getCondensation view = .ok (.condensation action)) :
    shouldCondense view = true ∧ getCondensation view = .ok action := by
  unfold rollingCondense at h
  split_ifs at h with hs
  · cases hget : getCondensation view with
    | ok action' =>
      rw [hget] at h
      cases h
      exact ⟨hs, rfl⟩
    | error e => rw [hget] at h; cases h
  · cases h

end OpenHands
