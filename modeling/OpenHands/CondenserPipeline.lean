/-
# Condensation requests in a condenser pipeline

All the condensers of `openhands/memory/condenser/impl` and the `CondenserPipeline`
that chains them, pipelines inside pipelines included.  A condensation request of the
user travels through the stages as the flag `unhandled_condensation_request` of the view.

The condensers that rebuild the view (masking, browser output, recent events) build it
from its events alone, so that the flag is lost with them.  The main result says exactly
when a pipeline still answers with a condensation:
  * `shouldCondense_of_request` — every rolling condenser sets out to condense on a flag;
  * `condense_pipeline_iff` — a pipeline condenses exactly when the first rolling
    condenser that is triggered, by the flag or by the length of its view, can condense.
-/
import Mathlib.Data.List.Sort
import OpenHands.Lib.Fallible
import OpenHands.MaskedCondensation

namespace OpenHands

open Fallible

/-! ## The other condensers -/

/-- `RecentEventsCondenser`. -/
structure RecentEventsCondenser where
  keepFirst : ℤ := 1
  maxEvents : ℤ := 10
  deriving DecidableEq, Repr

/-- `RecentEventsCondenser.condense`.  A tail of length `0` is the slice `view[-0:]`,
which is the whole view. -/
def RecentEventsCondenser.condense (c : RecentEventsCondenser) (view : View) : View where
  events :=
    let head := PySeq.slice view.events none (some c.keepFirst)
    let tailLength := max 0 (c.maxEvents - head.length)
    let tail := PySeq.slice view.events (some (-tailLength)) none
    head ++ tail

/-- The condensation action that forgets the listed ids. -/
def CondensationAction.forgetIds (ids : List ℤ) : CondensationAction :=
  ⟨some ids, none, none, none, none, rfl⟩

/-- A list of ids is a valid configuration, also when it is empty. -/
theorem create_forgetIds (ids : List ℤ) :
    CondensationAction.create (some ids) none none none none = .ok (.forgetIds ids) := rfl

/-! ## The conversation window -/

namespace ConversationWindowCondenser

/-- `isinstance(e, SystemMessageAction)`. -/
def isSystemMessage (e : Event) : Bool :=
  match e.body with
  | .action (.systemMessage _) => true
  | _ => false

/-- The event is a `RecallAction` for the given query. -/
def isRecallOf (query : Option String) (e : Event) : Bool :=
  match e.body with
  | .action (.recall r) => some r.query = query
  | _ => false

/-- The content of a message. -/
def messageContent (e : Event) : Option String :=
  match e.body with
  | .action (.message m) => some m.content
  | _ => none

/-- The recall of the first user message, and its observation: the two nested loops over
the events behind the message. -/
def recallIds (query : Option String) : List Event → List ℤ
  | [] => []
  | event :: events =>
    if isRecallOf query event then
      match events.find? (fun obs => obs.isObservation && obs.cause = some event.id) with
      | some observation => [event.id, observation.id]
      | none => [event.id]
    else recallIds query events

/-- `essential_events`, in a history whose first user message is given. -/
def essentialEvents (events : List Event) (firstUserMsg : Event) : List ℤ :=
  ((events.find? isSystemMessage).map Event.id).toList ++ [firstUserMsg.id]
    ++ recallIds (messageContent firstUserMsg)
        (events.drop (events.findIdx Event.isUserMessage + 1))

/-- The recent half of the other events, without observations at its start. -/
def recentEvents (events : List Event) (numEssentialEvents : ℕ) : List Event :=
  let totalEvents : ℤ := events.length
  let numRecentToKeep := max 1 ((totalEvents - numEssentialEvents) / 2)
  let sliceStartIndex := max 0 (totalEvents - numRecentToKeep)
  (events.drop sliceStartIndex.toNat).dropWhile Event.isObservation

/-- `forgotten_event_ids`, sorted and without duplicates. -/
def forgottenEventIds (events : List Event) (firstUserMsg : Event) : List ℤ :=
  let essential := essentialEvents events firstUserMsg
  let eventsToKeep := essential ++ (recentEvents events essential.length).map Event.id
  ((events.map Event.id).filter (· ∉ eventsToKeep)).dedup.insertionSort (· ≤ ·)

/-- The condensation action for the sorted ids: a range where they are contiguous. -/
def forgetSorted (forgottenEventIds : List ℤ) : Except PyError CondensationAction :=
  match forgottenEventIds.head?, forgottenEventIds.getLast? with
  | some first, some last =>
    if forgottenEventIds.length > 1 ∧ last - first = forgottenEventIds.length - 1 then
      CondensationAction.create none (some first) (some last) none none
    else CondensationAction.create (some forgottenEventIds) none none none none
  | _, _ => CondensationAction.create (some []) none none none none

/-- `get_condensation`.  The empty history has no user message either. -/
def getCondensation (view : View) : Except PyError CondensationAction :=
  match view.events.find? Event.isUserMessage with
  | none => CondensationAction.create (some []) none none none none
  | some firstUserMsg => forgetSorted (forgottenEventIds view.events firstUserMsg)

/-- `should_condense`. -/
def shouldCondense (view : View) : Bool := view.unhandledCondensationRequest

end ConversationWindowCondenser

/-! ## Attention of a language model -/

/-- `LLMAttentionCondenser`. -/
structure LLMAttentionCondenser where
  sizes : WindowSizes
  deriving DecidableEq, Repr

namespace LLMAttentionCondenser

/-- `__init__`, for a language model that supports response schemas or not; the message
about `max_size` prints `keep_first`. -/
def init (supportsResponseSchema : Bool) (maxSize : ℤ := 100) (keepFirst : ℤ := 1) :
    Except PyError LLMAttentionCondenser := do
  let sizes ← WindowSizes.create maxSize keepFirst keepFirst
  if supportsResponseSchema then
    return ⟨sizes⟩
  else
    .error (.valueError "The LLM model must support the 'response_schema' parameter to use the LLMAttentionCondenser.")

/-- The loop that fills the selection up to its size with the newest events. -/
def fillUp (eventsFromTail : ℤ) : List Event → List ℤ → List ℤ
  | [], responseIds => responseIds
  | event :: events, responseIds =>
    if responseIds.length ≥ eventsFromTail then responseIds
    else if event.id ∉ responseIds then fillUp eventsFromTail events (responseIds ++ [event.id])
    else fillUp eventsFromTail events responseIds

/-- `get_condensation`, where the language model answers with `response`.  `selection` is
`ImportantEventSelection.model_validate_json`; its errors are a `ValueError`. -/
def getCondensation (c : LLMAttentionCondenser)
    (selection : Option String → Except String (List ℤ)) (view : View) (response : LLMResponse) :
    Except PyError CondensationAction := do
  let targetSize : ℤ := (c.sizes.maxSize / 2 : ℕ)
  let headEventIds := (PySeq.slice view.events none (some c.sizes.keepFirst)).map Event.id
  let eventsFromTail := targetSize - headEventIds.length
  let responseIds ← (selection response.content).mapError .valueError
  let responseIds :=
    PySeq.slice (responseIds.filter (· ∉ headEventIds)) none (some eventsFromTail)
  let responseIds := fillUp eventsFromTail view.events.reverse responseIds
  CondensationAction.create
    (some ((view.events.filter fun e => e.id ∉ responseIds ∧ e.id ∉ headEventIds).map Event.id))
    none none none none

end LLMAttentionCondenser

/-! ## The condensers of a pipeline -/

/-- The rolling condensers of the repository. -/
inductive AnyRollingCondenser where
  | windowed (c : RollingCondenser)
  | llmAttention (c : LLMAttentionCondenser)
  | conversationWindow
  deriving DecidableEq, Repr

/-- The condensers that build a new view. -/
inductive RebuildingCondenser where
  | recentEvents (c : RecentEventsCondenser)
  | masking (c : MaskingCondenser)
  deriving DecidableEq, Repr

/-- The condensers that are no pipelines. -/
inductive Stage where
  | noOp
  | rebuilding (c : RebuildingCondenser)
  | rolling (c : AnyRollingCondenser)
  deriving DecidableEq, Repr

/-- Any condenser of the repository. -/
inductive AnyCondenser where
  | stage (s : Stage)
  | pipeline (condensers : List AnyCondenser)

/-- `condense` of a condenser that builds a new view. -/
def RebuildingCondenser.condense : RebuildingCondenser → View → View
  | recentEvents c, view => c.condense view
  | masking c, view => c.condense view

/-- What the outside contributes to a condensation: the string form of an event, the two
decoders of a response, and the response of the language model. -/
structure CondenserWorld where
  str : Event → Except PyError String
  validate : String → Except String StateSummary
  selection : Option String → Except String (List ℤ)
  response : LLMResponse

namespace AnyRollingCondenser

/-- `should_condense`. -/
def shouldCondense : AnyRollingCondenser → View → Bool
  | windowed c, view => c.shouldCondense view
  | llmAttention c, view => c.sizes.shouldCondense view
  | conversationWindow, view => ConversationWindowCondenser.shouldCondense view

/-- `get_condensation`. -/
def getCondensation (world : CondenserWorld) : AnyRollingCondenser → View →
    Except PyError CondensationAction
  | windowed c, view => c.getCondensation world.str world.validate view world.response
  | llmAttention c, view => c.getCondensation world.selection view world.response
  | conversationWindow, view => ConversationWindowCondenser.getCondensation view

end AnyRollingCondenser

variable (world : CondenserWorld)

/-- `condense` of a condenser that is no pipeline. -/
def Stage.condense : Stage → View → Except PyError CondenserResult
  | noOp, view => .ok (.view view)
  | rebuilding c, view => .ok (.view (c.condense view))
  | rolling c, view => rollingCondense c.shouldCondense (c.getCondensation world) view

mutual

/-- `condense` of any condenser. -/
def AnyCondenser.condense : AnyCondenser → View → Except PyError CondenserResult
  | .stage s, view => s.condense world view
  | .pipeline condensers, view => AnyCondenser.condenseAll condensers view

/-- `CondenserPipeline.condense`: the condensers in order, until one returns a
condensation. -/
def AnyCondenser.condenseAll : List AnyCondenser → View → Except PyError CondenserResult
  | [], view => .ok (.view view)
  | c :: cs, view =>
    match AnyCondenser.condense c view with
    | .ok (.view v) => AnyCondenser.condenseAll cs v
    | result => result

end

/-! ## The stages of a pipeline -/

mutual

/-- The stages of a condenser in the order they are run. -/
def AnyCondenser.stages : AnyCondenser → List Stage
  | .stage s => [s]
  | .pipeline condensers => AnyCondenser.allStages condensers

/-- The stages of a list of condensers. -/
def AnyCondenser.allStages : List AnyCondenser → List Stage
  | [] => []
  | c :: cs => AnyCondenser.stages c ++ AnyCondenser.allStages cs

end

/-- The stages in order, until one returns a condensation. -/
def condenseStages : List Stage → View → Except PyError CondenserResult
  | [], view => .ok (.view view)
  | s :: stages, view =>
    match s.condense world view with
    | .ok (.view v) => condenseStages stages v
    | result => result

variable {world}

theorem condenseStages_append (stages stages' : List Stage) (view : View) :
    condenseStages world (stages ++ stages') view
      = match condenseStages world stages view with
        | .ok (.view v) => condenseStages world stages' v
        | result => result := by
  induction stages generalizing view with
  | nil => rfl
  | cons s stages ih =>
    rw [List.cons_append, condenseStages, condenseStages]
    rcases s.condense world view with e | (v | action)
    · rfl
    · exact ih v
    · rfl

mutual

/-- A condenser runs its stages. -/
theorem condense_eq_condenseStages (c : AnyCondenser) (view : View) :
    c.condense world view = condenseStages world c.stages view := by
  cases c with
  | stage s =>
    rw [AnyCondenser.condense, AnyCondenser.stages, condenseStages]
    rcases s.condense world view with e | (v | action) <;> rfl
  | pipeline condensers =>
    rw [AnyCondenser.condense, AnyCondenser.stages]
    exact condenseAll_eq_condenseStages condensers view

/-- The condensers of a pipeline run their stages. -/
theorem condenseAll_eq_condenseStages (cs : List AnyCondenser) (view : View) :
    AnyCondenser.condenseAll world cs view
      = condenseStages world (AnyCondenser.allStages cs) view := by
  cases cs with
  | nil =>
    rw [AnyCondenser.condenseAll, AnyCondenser.allStages]
    rfl
  | cons c cs =>
    rw [AnyCondenser.condenseAll, AnyCondenser.allStages, condenseStages_append,
      condense_eq_condenseStages c view]
    rcases condenseStages world c.stages view with e | (v | action)
    · rfl
    · exact condenseAll_eq_condenseStages cs v
    · rfl

end

/-- The masking and windowed condensers as stages. -/
def Condenser.toStage : Condenser → Stage
  | masking c => .rebuilding (.masking c)
  | rolling c => .rolling (.windowed c)

/-- A pipeline of masking and windowed condensers is one of stages. -/
theorem pipelineCondense_eq_condenseStages (cs : List Condenser) (view : View) :
    pipelineCondense world.str world.validate world.response cs view
      = condenseStages world (cs.map Condenser.toStage) view := by
  induction cs generalizing view with
  | nil => rfl
  | cons c cs ih =>
    have hstage : c.toStage.condense world view
        = c.condense world.str world.validate world.response view := by
      cases c <;> rfl
    rw [pipelineCondense, List.map_cons, condenseStages, hstage]
    rcases c.condense world.str world.validate world.response view with e | (v | action)
    · rfl
    · exact ih v
    · rfl

/-! ## When a rolling condenser condenses -/

namespace ConversationWindowCondenser

/-- The conversation window always finds a valid configuration. -/
theorem getCondensation_ok (view : View) : ∃ action, getCondensation view = .ok action := by
  unfold getCondensation
  cases view.events.find? Event.isUserMessage with
  | none => exact ⟨_, create_forgetIds []⟩
  | some firstUserMsg =>
    simp only [forgetSorted]
    split
    · split_ifs
      · exact ⟨_, create_forgetRange _ _⟩
      · exact ⟨_, create_forgetIds _⟩
    · exact ⟨_, create_forgetIds []⟩

end ConversationWindowCondenser

/-- The attention condenser condenses when the response is a selection. -/
theorem llmAttention_getCondensation_ok_iff {c : LLMAttentionCondenser}
    {selection : Option String → Except String (List ℤ)} {view : View} {response : LLMResponse} :
    (∃ action, c.getCondensation selection view response = .ok action) ↔
      ∃ ids, selection response.content = .ok ids := by
  unfold LLMAttentionCondenser.getCondensation
  simp only [bind_eq_ok_iff, create_forgetIds]
  cases selection response.content with
  | error e => simp [Except.mapError]
  | ok ids => simp [Except.mapError]

namespace AnyRollingCondenser

/-- The length of a view above which the condenser condenses on its own. -/
def maxSize? : AnyRollingCondenser → Option ℕ
  | windowed c => some c.sizes.maxSize
  | llmAttention c => some c.sizes.maxSize
  | conversationWindow => none

/-- The events for which a condenser condenses. -/
def CanCondense (world : CondenserWorld) : AnyRollingCondenser → List Event → Prop
  | windowed c, events => c.CanCondense world.str { events := events } world.response
  | llmAttention _, _ => ∃ ids, world.selection world.response.content = .ok ids
  | conversationWindow, _ => True

/-- A rolling condenser condenses on a request, or when the view is too long. -/
theorem shouldCondense_iff {c : AnyRollingCondenser} {view : View} :
    c.shouldCondense view = true ↔
      view.unhandledCondensationRequest = true ∨ ∃ n ∈ c.maxSize?, n < view.events.length := by
  cases c with
  | windowed c =>
    simp [shouldCondense, RollingCondenser.shouldCondense, WindowSizes.shouldCondense, maxSize?,
      or_comm]
  | llmAttention c => simp [shouldCondense, WindowSizes.shouldCondense, maxSize?, or_comm]
  | conversationWindow =>
    simp [shouldCondense, ConversationWindowCondenser.shouldCondense, maxSize?]

/-- Every rolling condenser sets out to condense on a request. -/
theorem shouldCondense_of_request (c : AnyRollingCondenser) {view : View}
    (h : view.unhandledCondensationRequest = true) : c.shouldCondense view = true :=
  shouldCondense_iff.mpr (Or.inl h)

/-- The condensers of the source condense exactly on the events of `CanCondense`. -/
theorem getCondensation_ok_iff (c : AnyRollingCondenser) (view : View) :
    (∃ action, c.getCondensation world view = .ok action) ↔ c.CanCondense world view.events := by
  cases c with
  | windowed c =>
    have hcan := getCondensation_ok_iff_canCondense world.str world.validate c view world.response
    -- the flag of the view plays no part in `CanCondense`
    cases c <;> exact hcan
  | llmAttention c => exact llmAttention_getCondensation_ok_iff
  | conversationWindow =>
    exact iff_of_true (ConversationWindowCondenser.getCondensation_ok view) trivial

end AnyRollingCondenser

/-! ## The view behind some stages -/

/-- The stage builds a new view. -/
def Stage.rebuilds : Stage → Bool
  | rebuilding _ => true
  | _ => false

/-- The view a stage hands on when it does not condense. -/
def Stage.hand : Stage → View → View
  | rebuilding c, view => c.condense view
  | _, view => view

/-- The view handed to the stage behind `before`. -/
def handedView (before : List Stage) (view : View) : View :=
  before.foldl (fun v s => s.hand v) view

/-- A rebuilt view carries no request. -/
theorem RebuildingCondenser.condense_request (c : RebuildingCondenser) (view : View) :
    (c.condense view).unhandledCondensationRequest = false := by
  rcases c with c | (c | c) <;> rfl

/-- The request survives exactly the stages that hand their view on. -/
theorem handedView_request_iff {before : List Stage} {view : View} :
    (handedView before view).unhandledCondensationRequest = true ↔
      view.unhandledCondensationRequest = true ∧ ∀ s ∈ before, s.rebuilds = false := by
  induction before generalizing view with
  | nil => simp [handedView]
  | cons s before ih =>
    show (handedView before (s.hand view)).unhandledCondensationRequest = true ↔ _
    rw [ih, List.forall_mem_cons]
    cases s with
    | noOp => simp [Stage.hand, Stage.rebuilds]
    | rolling c => simp [Stage.hand, Stage.rebuilds]
    | rebuilding c => simp [Stage.hand, Stage.rebuilds, c.condense_request]

/-- The rolling condenser behind `before` is triggered: by a request that no stage before
it has lost, or by the length of the view handed to it. -/
def Triggered (view : View) (before : List Stage) (c : AnyRollingCondenser) : Prop :=
  (view.unhandledCondensationRequest = true ∧ ∀ s ∈ before, s.rebuilds = false) ∨
    ∃ n ∈ c.maxSize?, n < (handedView before view).events.length

/-- `Triggered` is `should_condense` of the view handed to the condenser. -/
theorem triggered_iff {view : View} {before : List Stage} {c : AnyRollingCondenser} :
    Triggered view before c ↔ c.shouldCondense (handedView before view) = true := by
  rw [AnyRollingCondenser.shouldCondense_iff, handedView_request_iff, Triggered]

theorem triggered_cons {view : View} {s : Stage} {before : List Stage}
    {c : AnyRollingCondenser} :
    Triggered view (s :: before) c ↔ Triggered (s.hand view) before c := by
  rw [triggered_iff, triggered_iff]
  rfl

/-- The rolling condenser `c` behind the stages `before` is the first one triggered. -/
structure FirstTriggered (view : View) (stages before : List Stage) (c : AnyRollingCondenser) :
    Prop where
  located : before ++ [.rolling c] <+: stages
  triggered : Triggered view before c
  first : ∀ before' c', before' ++ [.rolling c'] <+: before → ¬ Triggered view before' c'

/-- A first stage that does not condense leaves the question to the others. -/
theorem firstTriggered_cons_iff {view : View} {s : Stage} {stages before : List Stage}
    {c : AnyRollingCondenser} (hs : ∀ c', s = .rolling c' → ¬ Triggered view [] c') :
    FirstTriggered view (s :: stages) (s :: before) c ↔
      FirstTriggered (s.hand view) stages before c := by
  constructor
  · rintro ⟨hlocated, htriggered, hfirst⟩
    refine ⟨(List.prefix_cons_inj s).mp hlocated, triggered_cons.mp htriggered, ?_⟩
    intro before' c' hbefore'
    rw [← triggered_cons]
    exact hfirst (s :: before') c' ((List.prefix_cons_inj s).mpr hbefore')
  · rintro ⟨hlocated, htriggered, hfirst⟩
    refine ⟨(List.prefix_cons_inj s).mpr hlocated, triggered_cons.mpr htriggered, ?_⟩
    intro before' c' hbefore'
    cases before' with
    | nil =>
      rw [List.nil_append, List.cons_prefix_cons] at hbefore'
      exact hs c' hbefore'.1.symm
    | cons s' before' =>
      rw [List.cons_append, List.cons_prefix_cons] at hbefore'
      obtain ⟨rfl, hbefore'⟩ := hbefore'
      rw [triggered_cons]
      exact hfirst before' c' hbefore'

/-! ## The answer to a request -/

/-- The first triggered condenser of the stages can condense the view handed to it. -/
def AnswersRequest (world : CondenserWorld) (stages : List Stage) (view : View) : Prop :=
  ∃ before c, FirstTriggered view stages before c ∧
    c.CanCondense world (handedView before view).events

/-- A stage that does not condense hands the question on. -/
theorem answers_cons_iff {stages : List Stage} {view : View} {s : Stage}
    (hs : ∀ c', s = .rolling c' → ¬ Triggered view [] c') :
    AnswersRequest world (s :: stages) view ↔ AnswersRequest world stages (s.hand view) := by
  constructor
  · rintro ⟨before, c, hfirst, hcan⟩
    cases before with
    | nil =>
      -- the stage itself would be the one triggered
      have hlocated := hfirst.located
      rw [List.nil_append, List.cons_prefix_cons] at hlocated
      exact absurd hfirst.triggered (hs c hlocated.1.symm)
    | cons s' before =>
      have hlocated := hfirst.located
      rw [List.cons_append, List.cons_prefix_cons] at hlocated
      obtain ⟨rfl, -⟩ := hlocated
      exact ⟨before, c, (firstTriggered_cons_iff hs).mp hfirst, hcan⟩
  · rintro ⟨before, c, hfirst, hcan⟩
    exact ⟨s :: before, c, (firstTriggered_cons_iff hs).mpr hfirst, hcan⟩

/-- A triggered first stage decides. -/
theorem answers_rolling_iff {stages : List Stage} {view : View} {c : AnyRollingCondenser}
    (hc : Triggered view [] c) :
    AnswersRequest world (.rolling c :: stages) view ↔ c.CanCondense world view.events := by
  constructor
  · rintro ⟨before, c', hfirst, hcan⟩
    cases before with
    | nil =>
      have hlocated := hfirst.located
      rw [List.nil_append, List.cons_prefix_cons] at hlocated
      obtain ⟨hstage, -⟩ := hlocated
      cases hstage
      exact hcan
    | cons s before =>
      have hlocated := hfirst.located
      rw [List.cons_append, List.cons_prefix_cons] at hlocated
      obtain ⟨rfl, -⟩ := hlocated
      exact absurd hc (hfirst.first [] c ⟨before, rfl⟩)
  · intro hcan
    refine ⟨[], c, ⟨⟨stages, rfl⟩, hc, ?_⟩, hcan⟩
    intro before' c' hlocated
    simp at hlocated

/-- **The stages** return a condensation exactly when the first triggered one can. -/
theorem condenseStages_iff (stages : List Stage) (view : View) :
    (∃ action, condenseStages world stages view = .ok (.condensation action)) ↔
      AnswersRequest world stages view := by
  induction stages generalizing view with
  | nil =>
    constructor
    · rintro ⟨action, haction⟩
      cases haction
    · rintro ⟨before, c, hfirst, -⟩
      have hlocated := hfirst.located
      simp at hlocated
  | cons s stages ih =>
    rw [condenseStages]
    cases s with
    | noOp =>
      rw [answers_cons_iff (by simp), ← ih]
      rfl
    | rebuilding c =>
      rw [answers_cons_iff (by simp), ← ih]
      rfl
    | rolling c =>
      by_cases hc : Triggered view [] c
      · rw [answers_rolling_iff hc, ← c.getCondensation_ok_iff]
        have hshould : c.shouldCondense view = true := triggered_iff.mp hc
        rw [Stage.condense, rollingCondense, if_pos hshould]
        -- the condensation of the stage ends the loop, and so does an exception
        cases c.getCondensation world view with
        | error e => simp [Except.map]
        | ok action => simp [Except.map]
      · have hshould : ¬ c.shouldCondense view = true := fun h => hc (triggered_iff.mpr h)
        rw [answers_cons_iff (by
          intro c' hc'
          cases hc'
          exact hc), ← ih, Stage.condense, rollingCondense, if_neg hshould]
        rfl

/-- **When a pipeline answers a request**: exactly when the first of its rolling
condensers that is triggered can condense the view handed to it. -/
theorem condense_pipeline_iff (condensers : List AnyCondenser) (view : View) :
    (∃ action, (AnyCondenser.pipeline condensers).condense world view
      = .ok (.condensation action)) ↔
      AnswersRequest world (AnyCondenser.pipeline condensers).stages view := by
  rw [condense_eq_condenseStages, condenseStages_iff]

/-- The condensers that hand their view on keep the request for the first rolling one. -/
theorem answers_behind_noOp {stages : List Stage} {view : View} {c : AnyRollingCondenser}
    (hrequest : view.unhandledCondensationRequest = true) {before : List Stage}
    (hbefore : ∀ s ∈ before, s = .noOp) (hlocated : before ++ [.rolling c] <+: stages) :
    AnswersRequest world stages view ↔ c.CanCondense world view.events := by
  induction before generalizing stages with
  | nil =>
    obtain ⟨after, rfl⟩ := hlocated
    exact answers_rolling_iff (Or.inl ⟨hrequest, by simp⟩)
  | cons s before ih =>
    rw [List.forall_mem_cons] at hbefore
    obtain ⟨rfl, hbefore⟩ := hbefore
    obtain ⟨after, rfl⟩ := hlocated
    rw [List.cons_append, List.cons_append, answers_cons_iff (by simp)]
    exact ih hbefore ⟨after, rfl⟩

/-- A view of one user message, on which the user has asked for a condensation. -/
def requestedView : View where
  events := [{ id := 0, source := some .user, body := .action (.message { content := "task" }) }]
  unhandledCondensationRequest := true

/-- The conversation window condenses whenever there is a request, but behind a masking
condenser it never sees one: the pipeline returns a view. -/
theorem masking_loses_request :
    requestedView.unhandledCondensationRequest = true ∧
    (∀ view : View, view.unhandledCondensationRequest = true →
      AnyRollingCondenser.conversationWindow.shouldCondense view = true) ∧
    ∀ world : CondenserWorld,
      (AnyCondenser.pipeline [.stage (.rebuilding (.masking (.observationMasking ⟨5⟩))),
        .stage (.rolling .conversationWindow)]).condense world requestedView
          = .ok (.view { events := requestedView.events }) ∧
      ¬ ∃ action, (AnyCondenser.pipeline
        [.stage (.rebuilding (.masking (.observationMasking ⟨5⟩))),
          .stage (.rolling .conversationWindow)]).condense world requestedView
            = .ok (.condensation action) := by
  have hview : ∀ world : CondenserWorld,
      (AnyCondenser.pipeline [.stage (.rebuilding (.masking (.observationMasking ⟨5⟩))),
        .stage (.rolling .conversationWindow)]).condense world requestedView
          = .ok (.view { events := requestedView.events }) := by
    intro world
    rw [condense_eq_condenseStages]
    rfl
  refine ⟨rfl, fun view h => AnyRollingCondenser.shouldCondense_of_request _ h, ?_⟩
  intro world
  refine ⟨hview world, ?_⟩
  rintro ⟨action, haction⟩
  rw [hview world] at haction
  cases haction

end OpenHands
