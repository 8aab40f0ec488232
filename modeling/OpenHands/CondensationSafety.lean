/-
# When a rolling condenser condenses without raising

`get_condensation` of the three rolling condensers slices the view into a kept head, a
kept tail and the events in between, and forgets the range of the ids in between.
`min` and `max` raise when nothing is left to forget, the summarizing condensers
subscript the view at `keep_first`, and a summary offset without a summary is an
invalid configuration.  The main result says exactly when none of this happens.
-/
import OpenHands.Condenser
import OpenHands.Lib.Fallible

namespace OpenHands

open Fallible

/-! ## Minimum and maximum -/

theorem pyMin_eq_ok_iff {l : List ℤ} {m : ℤ} : pyMin l = .ok m ↔ l.min? = some m := by
  unfold pyMin
  cases l.min? <;> simp

theorem pyMax_eq_ok_iff {l : List ℤ} {m : ℤ} : pyMax l = .ok m ↔ l.max? = some m := by
  unfold pyMax
  cases l.max? <;> simp

/-- A nonempty collection has a minimum and a maximum. -/
theorem exists_min?_max? {l : List ℤ} :
    (∃ lo hi, l.min? = some lo ∧ l.max? = some hi) ↔ l ≠ [] := by
  constructor
  · rintro ⟨lo, hi, hlo, -⟩ rfl
    cases hlo
  · intro hl
    obtain ⟨lo, hlo⟩ := Option.isSome_iff_exists.mp (List.isSome_min?_of_ne_nil hl)
    obtain ⟨hi, hhi⟩ := Option.isSome_iff_exists.mp (List.isSome_max?_of_ne_nil hl)
    exact ⟨lo, hi, hlo, hhi⟩

/-! ## Positions in the middle -/

/-- Position `i` of `n` lies behind the first `keepFirst` and before the last `fromTail`
positions. -/
def InMiddle (keepFirst fromTail n i : ℕ) : Prop := keepFirst ≤ i ∧ i + fromTail < n

instance (keepFirst fromTail n i : ℕ) : Decidable (InMiddle keepFirst fromTail n i) :=
  inferInstanceAs (Decidable (_ ∧ _))

namespace WindowSizes

variable (sizes : WindowSizes)

/-- `target_size`: half of the maximal size. -/
def target : ℕ := sizes.maxSize / 2

/-- What `AmortizedForgettingCondenser` keeps: the head and the tail. -/
def headAndTail (events : List Event) : List Event :=
  events.take sizes.keepFirst
    ++ events.drop (events.length - (sizes.target - min sizes.keepFirst events.length))

/-- The ids `AmortizedForgettingCondenser` finds to forget. -/
def idsToForget (events : List Event) : List ℤ :=
  (events.map Event.id).filter (· ∉ (sizes.headAndTail events).map Event.id)

/-- What the summarizing condensers cut out of the view: nothing when no place is left
for a tail, for the slice then ends at position `-0`. -/
def cutOut (events : List Event) : List Event :=
  if sizes.target - sizes.keepFirst - 1 = 0 then []
  else (events.take (events.length - (sizes.target - sizes.keepFirst - 1))).drop sizes.keepFirst

/-- The events the summarizing condensers forget: earlier summaries have no id of their
own. -/
def eventsToForget (events : List Event) : List Event :=
  (sizes.cutOut events).filter fun e => !e.isAgentCondensation

end WindowSizes

/-! ## What `get_condensation` computes -/

/-- The head and the tail of the amortized condenser as slices. -/
theorem headAndTail_eq_slices (sizes : WindowSizes) (events : List Event) :
    PySeq.slice events none (some (sizes.keepFirst : ℤ))
      ++ PySeq.slice events (some (-(((sizes.maxSize / 2 : ℕ) : ℤ)
          - (PySeq.slice events none (some (sizes.keepFirst : ℤ))).length))) none
      = sizes.headAndTail events := by
  have hkeep := sizes.keepFirst_lt
  have hhead : PySeq.slice events none (some (sizes.keepFirst : ℤ))
      = events.take sizes.keepFirst := by
    rw [PySeq.slice_stop_of_nonneg events (by omega), Int.toNat_natCast]
  have hfrom : ((sizes.maxSize / 2 : ℕ) : ℤ) - ((events.take sizes.keepFirst).length : ℕ)
      = ((sizes.target - min sizes.keepFirst events.length : ℕ) : ℤ) := by
    rw [List.length_take, WindowSizes.target]
    omega
  have hpos : 0 < sizes.target - min sizes.keepFirst events.length := by
    rw [WindowSizes.target]
    omega
  rw [hhead, hfrom, PySeq.slice_start_of_neg events hpos]
  rfl

/-- **The amortized condenser** forgets the range of `idsToForget`. -/
theorem amortized_getCondensation_eq_ok_iff {c : AmortizedForgettingCondenser} {view : View}
    {action : CondensationAction} :
    c.getCondensation view = .ok action ↔
      ∃ lo hi, (c.sizes.idsToForget view.events).min? = some lo ∧
        (c.sizes.idsToForget view.events).max? = some hi ∧ action = .forgetRange lo hi := by
  unfold AmortizedForgettingCondenser.getCondensation
  simp only [headAndTail_eq_slices, bind_eq_ok_iff, pyMin_eq_ok_iff, pyMax_eq_ok_iff,
    create_forgetRange, Except.ok.injEq]
  constructor
  · rintro ⟨lo, hlo, hi, hhi, rfl⟩
    exact ⟨lo, hi, hlo, hhi, rfl⟩
  · rintro ⟨lo, hi, hlo, hhi, rfl⟩
    exact ⟨lo, hlo, hi, hhi, rfl⟩

/-- The slice of the summarizing condensers, in a view that reaches `keep_first`. -/
theorem cutOut_eq_slice (sizes : WindowSizes) {events : List Event}
    (hlen : sizes.keepFirst < events.length) :
    PySeq.slice events (some (sizes.keepFirst : ℤ)) (some (-(((sizes.maxSize / 2 : ℕ) : ℤ)
        - (PySeq.slice events none (some (sizes.keepFirst : ℤ))).length - 1)))
      = sizes.cutOut events := by
  have hkeep := sizes.keepFirst_lt
  have hfrom : ((sizes.maxSize / 2 : ℕ) : ℤ)
        - (PySeq.slice events none (some (sizes.keepFirst : ℤ))).length - 1
      = ((sizes.target - sizes.keepFirst - 1 : ℕ) : ℤ) := by
    rw [PySeq.slice_stop_of_nonneg events (by omega), Int.toNat_natCast, List.length_take,
      Nat.min_eq_left (by omega), WindowSizes.target]
    omega
  rw [hfrom, WindowSizes.cutOut]
  split_ifs with hzero
  · rw [hzero, PySeq.slice_stop_neg_zero]
  · rw [PySeq.slice_of_nonneg_of_neg events sizes.keepFirst (by omega)]

/-- The summary event and the forgotten events, in a view that reaches `keep_first`. -/
theorem summaryAndForgotten_eq_ok_iff {sizes : WindowSizes} {view : View} {summaryEvent : Event}
    {forgottenEvents : List Event} :
    summaryAndForgotten sizes view = .ok (summaryEvent, forgottenEvents) ↔
      ∃ event, view.events[sizes.keepFirst]? = some event ∧
        summaryEvent = (if event.isAgentCondensation then event
          else agentCondensationObservation "No events summarized") ∧
        forgottenEvents = sizes.eventsToForget view.events := by
  unfold summaryAndForgotten
  rw [PySeq.item?_natCast]
  cases hitem : view.events[sizes.keepFirst]? with
  | none => simp [bind, Except.bind]
  | some event =>
    have hlen : sizes.keepFirst < view.events.length := by
      obtain ⟨hlt, -⟩ := List.getElem?_eq_some_iff.mp hitem
      exact hlt
    simp only [cutOut_eq_slice sizes hlen, bind_eq_ok_iff, Except.ok.injEq, pure, Except.pure,
      exists_eq_left', Prod.mk.injEq, Option.some.injEq, WindowSizes.eventsToForget]
    constructor
    · rintro ⟨rfl, rfl⟩
      exact ⟨rfl, rfl⟩
    · rintro ⟨rfl, rfl⟩
      exact ⟨rfl, rfl⟩

/-- The action that puts a summary in place of the forgotten events. -/
theorem summaryCondensation_eq_ok_iff {sizes : WindowSizes} {forgottenEvents : List Event}
    {summary : Option String} {action : CondensationAction} :
    summaryCondensation sizes forgottenEvents summary = .ok action ↔
      ∃ lo hi text, (forgottenEvents.map Event.id).min? = some lo ∧
        (forgottenEvents.map Event.id).max? = some hi ∧ summary = some text ∧
        action = .summarizeRange lo hi text sizes.keepFirst := by
  unfold summaryCondensation
  simp only [bind_eq_ok_iff, pyMin_eq_ok_iff, pyMax_eq_ok_iff]
  cases summary with
  | none => simp [create_offset_without_summary]
  | some text =>
    simp only [create_summarizeRange, Except.ok.injEq, Option.some.injEq]
    constructor
    · rintro ⟨lo, hlo, hi, hhi, rfl⟩
      exact ⟨lo, hi, text, hlo, hhi, rfl, rfl⟩
    · rintro ⟨lo, hi, _, hlo, hhi, rfl, rfl⟩
      exact ⟨lo, hlo, hi, hhi, rfl⟩

/-- A comprehension over calls that may raise has a result when none of them raises. -/
theorem exists_mapM_eq_ok_iff {α β : Type} {f : α → Except PyError β} {l : List α} :
    (∃ m, l.mapM f = .ok m) ↔ ∀ x ∈ l, ∃ y, f x = .ok y := by
  induction l with
  | nil => exact iff_of_true ⟨[], rfl⟩ (by simp)
  | cons x l ih =>
      rw [List.forall_mem_cons, ← ih, List.mapM_cons]
      simp only [bind_eq_ok_iff]
      constructor
      · rintro ⟨_, y, hy, m, hm, -⟩
        exact ⟨⟨y, hy⟩, m, hm⟩
      · rintro ⟨⟨y, hy⟩, m, hm⟩
        exact ⟨_, y, hy, m, hm, rfl⟩

/-- The prompt is built exactly when `str` raises for no event in it. -/
theorem exists_summaryPrompt_iff {str : Event → Except PyError String} {maxEventLength : ℤ}
    {instructions closing : String} {summaryEvent : Event} {forgottenEvents : List Event} :
    (∃ prompt, summaryPrompt str maxEventLength instructions closing summaryEvent forgottenEvents
      = .ok prompt) ↔ ∀ e ∈ forgottenEvents, ∃ text, str e = .ok text := by
  have htexts : (∀ e ∈ forgottenEvents, ∃ text, str e = .ok text) ↔
      ∀ e ∈ forgottenEvents, ∃ text, (do
        let eventContent := truncateContent (← str e) maxEventLength
        return s!"<EVENT id={e.id}>\n{eventContent}\n</EVENT>\n") = Except.ok text := by
    refine forall₂_congr fun e _ => ?_
    simp only [bind_eq_ok_iff]
    constructor
    · rintro ⟨text, htext⟩
      exact ⟨_, text, htext, rfl⟩
    · rintro ⟨_, text, htext, -⟩
      exact ⟨text, htext⟩
  rw [htexts, ← exists_mapM_eq_ok_iff]
  unfold summaryPrompt
  simp only [bind_eq_ok_iff]
  constructor
  · rintro ⟨_, texts, hmapM, -⟩
    exact ⟨texts, hmapM⟩
  · rintro ⟨texts, hmapM⟩
    exact ⟨_, texts, hmapM, rfl⟩

/-- The forgotten events of a request that does not raise. -/
theorem exists_request_iff {sizes : WindowSizes} {view : View}
    {str : Event → Except PyError String} {maxEventLength : ℤ} {instructions closing : String}
    {P : List Event → Prop} :
    (∃ r, (do
        let (summaryEvent, forgottenEvents) ← summaryAndForgotten sizes view
        let prompt ← summaryPrompt str maxEventLength instructions closing summaryEvent
          forgottenEvents
        return (prompt, forgottenEvents)) = .ok r ∧ P r.2) ↔
      sizes.keepFirst < view.events.length ∧
        (∀ e ∈ sizes.eventsToForget view.events, ∃ text, str e = .ok text) ∧
        P (sizes.eventsToForget view.events) := by
  constructor
  · rintro ⟨r, hr, hP⟩
    obtain ⟨⟨summaryEvent, forgottenEvents⟩, hpair, hret⟩ := bind_eq_ok_iff.mp hr
    obtain ⟨prompt, hprompt, hret⟩ := bind_eq_ok_iff.mp hret
    cases hret
    obtain ⟨event, hitem, -, rfl⟩ := summaryAndForgotten_eq_ok_iff.mp hpair
    obtain ⟨hlt, -⟩ := List.getElem?_eq_some_iff.mp hitem
    exact ⟨hlt, exists_summaryPrompt_iff.mp ⟨prompt, hprompt⟩, hP⟩
  · rintro ⟨hlt, htexts, hP⟩
    have hpair := summaryAndForgotten_eq_ok_iff.mpr
      ⟨_, List.getElem?_eq_getElem hlt, rfl, rfl⟩
    obtain ⟨prompt, hprompt⟩ := exists_summaryPrompt_iff.mpr htexts
    exact ⟨_, bind_eq_ok_iff.mpr ⟨_, hpair, bind_eq_ok_iff.mpr ⟨prompt, hprompt, rfl⟩⟩, hP⟩

/-- **The LLM condenser** puts the text of the response in place of `eventsToForget`. -/
theorem llm_getCondensation_eq_ok_iff {c : LLMSummarizingCondenser}
    {str : Event → Except PyError String} {view : View} {response : LLMResponse}
    {action : CondensationAction} :
    c.getCondensation str view response = .ok action ↔
      c.sizes.keepFirst < view.events.length ∧
      (∀ e ∈ c.sizes.eventsToForget view.events, ∃ text, str e = .ok text) ∧
      ∃ lo hi text, ((c.sizes.eventsToForget view.events).map Event.id).min? = some lo ∧
        ((c.sizes.eventsToForget view.events).map Event.id).max? = some hi ∧
        response.content = some text ∧
        action = .summarizeRange lo hi text c.sizes.keepFirst := by
  rw [← summaryCondensation_eq_ok_iff, LLMSummarizingCondenser.getCondensation, bind_eq_ok_iff]
  exact exists_request_iff
    (P := fun forgotten => summaryCondensation c.sizes forgotten response.content = .ok action)

/-- The summary a response gives to the structured condenser. -/
def structuredSummary (validate : String → Except String StateSummary)
    (response : LLMResponse) : StateSummary :=
  match StructuredSummaryCondenser.parseSummary validate response with
  | .ok summary => summary
  | .error _ => {}

/-- Every error of the parser is a `ValueError`, hence caught. -/
theorem parseSummary_error {validate : String → Except String StateSummary}
    {response : LLMResponse} {e : PyError}
    (h : StructuredSummaryCondenser.parseSummary validate response = .error e) :
    ∃ msg, e = .valueError msg := by
  unfold StructuredSummaryCondenser.parseSummary at h
  split at h
  · cases h
    exact ⟨_, rfl⟩
  · split at h
    · cases h
      exact ⟨_, rfl⟩
    · rename_i summaryToolCall _
      cases hval : validate summaryToolCall.2 with
      | ok summary => rw [hval] at h; cases h
      | error msg =>
        rw [hval] at h
        cases h
        exact ⟨msg, rfl⟩

/-- The `try` with its `except` never raises. -/
theorem parseSummaryOrEmpty_eq (validate : String → Except String StateSummary)
    (response : LLMResponse) :
    StructuredSummaryCondenser.parseSummaryOrEmpty validate response
      = .ok (structuredSummary validate response) := by
  unfold StructuredSummaryCondenser.parseSummaryOrEmpty structuredSummary
  cases hparse : StructuredSummaryCondenser.parseSummary validate response with
  | ok summary => rfl
  | error e =>
    obtain ⟨msg, rfl⟩ := parseSummary_error hparse
    rfl

/-- **The structured condenser** puts a summary in place of `eventsToForget`, whatever
the response is. -/
theorem structured_getCondensation_eq_ok_iff {c : StructuredSummaryCondenser}
    {str : Event → Except PyError String} {validate : String → Except String StateSummary}
    {view : View} {response : LLMResponse} {action : CondensationAction} :
    c.getCondensation str validate view response = .ok action ↔
      c.sizes.keepFirst < view.events.length ∧
      (∀ e ∈ c.sizes.eventsToForget view.events, ∃ text, str e = .ok text) ∧
      ∃ lo hi, ((c.sizes.eventsToForget view.events).map Event.id).min? = some lo ∧
        ((c.sizes.eventsToForget view.events).map Event.id).max? = some hi ∧
        action = .summarizeRange lo hi (structuredSummary validate response).str
          c.sizes.keepFirst := by
  rw [StructuredSummaryCondenser.getCondensation, bind_eq_ok_iff]
  simp only [parseSummaryOrEmpty_eq]
  refine (exists_request_iff (P := fun forgotten =>
    summaryCondensation c.sizes forgotten
      (some (structuredSummary validate response).str) = .ok action)).trans ?_
  rw [summaryCondensation_eq_ok_iff]
  simp only [Option.some.injEq, exists_and_left, exists_eq_left']

/-! ## When something is left to forget -/

/-- The kept events are those outside the middle. -/
theorem mem_headAndTail_iff {sizes : WindowSizes} {events : List Event} {e : Event} :
    e ∈ sizes.headAndTail events ↔
      ∃ j, events[j]? = some e ∧
        ¬ InMiddle sizes.keepFirst (sizes.target - sizes.keepFirst) events.length j := by
  have hkeep : sizes.keepFirst < sizes.target := sizes.keepFirst_lt
  rw [WindowSizes.headAndTail, List.mem_append]
  constructor
  · rintro (hmem | hmem)
    · obtain ⟨j, hj, rfl⟩ := List.mem_take_iff_getElem.mp hmem
      refine ⟨j, List.getElem?_eq_getElem (by omega), ?_⟩
      rintro ⟨hle, -⟩
      omega
    · obtain ⟨j, hj, rfl⟩ := List.mem_drop_iff_getElem.mp hmem
      refine ⟨_, List.getElem?_eq_getElem (by omega), ?_⟩
      rintro ⟨hle, hlt⟩
      omega
  · rintro ⟨j, hj, hout⟩
    obtain ⟨hlt, rfl⟩ := List.getElem?_eq_some_iff.mp hj
    by_cases hhead : j < sizes.keepFirst
    · exact Or.inl (List.mem_take_iff_getElem.mpr ⟨j, by omega, rfl⟩)
    · -- outside the middle and not in the head, hence in the tail
      have htail : ¬ j + (sizes.target - sizes.keepFirst) < events.length :=
        fun h => hout ⟨by omega, h⟩
      refine Or.inr (List.mem_drop_iff_getElem.mpr
        ⟨j - (events.length - (sizes.target - min sizes.keepFirst events.length)), by omega, ?_⟩)
      congr 1
      omega

/-- The ids to forget are the ids of the middle that occur in the middle only. -/
theorem mem_idsToForget_iff {sizes : WindowSizes} {events : List Event} {id : ℤ} :
    id ∈ sizes.idsToForget events ↔
      (∃ (i : ℕ) (e : Event), events[i]? = some e ∧ e.id = id) ∧
      ∀ (i : ℕ) (e : Event), events[i]? = some e → e.id = id →
        InMiddle sizes.keepFirst (sizes.target - sizes.keepFirst) events.length i := by
  rw [WindowSizes.idsToForget, List.mem_filter, decide_eq_true_eq]
  constructor
  · rintro ⟨hmem, hkept⟩
    obtain ⟨e, he, hid⟩ := List.mem_map.mp hmem
    obtain ⟨i, hi⟩ := List.mem_iff_getElem?.mp he
    refine ⟨⟨i, e, hi, hid⟩, fun j e' hj hid' => ?_⟩
    by_contra hout
    exact hkept (List.mem_map.mpr ⟨e', mem_headAndTail_iff.mpr ⟨j, hj, hout⟩, hid'⟩)
  · rintro ⟨⟨i, e, hi, hid⟩, hmiddle⟩
    refine ⟨List.mem_map.mpr ⟨e, List.mem_of_getElem? hi, hid⟩, fun hkept => ?_⟩
    obtain ⟨e', he', hid'⟩ := List.mem_map.mp hkept
    obtain ⟨j, hj, hout⟩ := mem_headAndTail_iff.mp he'
    exact hout (hmiddle j e' hj hid')

/-- The amortized condenser finds an id to forget when one occurs in the middle only. -/
theorem idsToForget_ne_nil_iff {sizes : WindowSizes} {events : List Event} :
    sizes.idsToForget events ≠ [] ↔
      ∃ e ∈ events, ∀ (j : ℕ) (e' : Event), events[j]? = some e' → e'.id = e.id →
        InMiddle sizes.keepFirst (sizes.target - sizes.keepFirst) events.length j := by
  constructor
  · intro hne
    obtain ⟨id, hid⟩ := List.exists_mem_of_ne_nil _ hne
    obtain ⟨⟨i, e, hi, rfl⟩, hmiddle⟩ := mem_idsToForget_iff.mp hid
    exact ⟨e, List.mem_of_getElem? hi, hmiddle⟩
  · rintro ⟨e, he, hmiddle⟩
    obtain ⟨i, hi⟩ := List.mem_iff_getElem?.mp he
    exact List.ne_nil_of_mem (mem_idsToForget_iff.mpr ⟨⟨i, e, hi, rfl⟩, hmiddle⟩)

/-- The summarizing condensers forget what is no summary in the middle, when a place is
left for a tail. -/
theorem mem_eventsToForget_iff {sizes : WindowSizes} {events : List Event} {e : Event} :
    e ∈ sizes.eventsToForget events ↔
      sizes.keepFirst + 1 < sizes.target ∧
      ∃ i, InMiddle sizes.keepFirst (sizes.target - sizes.keepFirst - 1) events.length i ∧
        events[i]? = some e ∧ e.isAgentCondensation = false := by
  have hkeep : sizes.keepFirst < sizes.target := sizes.keepFirst_lt
  unfold WindowSizes.eventsToForget WindowSizes.cutOut
  constructor
  · intro he
    obtain ⟨hcut, hcond⟩ := List.mem_filter.mp he
    split_ifs at hcut with hzero
    · simp at hcut
    · obtain ⟨i, hi, rfl⟩ := List.mem_drop_iff_getElem.mp hcut
      rw [List.length_take] at hi
      have hlen : sizes.keepFirst + i < events.length := by omega
      refine ⟨by omega, sizes.keepFirst + i, ⟨by omega, by omega⟩, ?_, ?_⟩
      · rw [List.getElem_take]
        exact List.getElem?_eq_getElem hlen
      · simpa using hcond
  · rintro ⟨htail, i, ⟨hle, hlt⟩, hi, hcond⟩
    obtain ⟨hlen, rfl⟩ := List.getElem?_eq_some_iff.mp hi
    rw [if_neg (by omega)]
    refine List.mem_filter.mpr ⟨?_, by simp [hcond]⟩
    rw [List.mem_drop_iff_getElem]
    refine ⟨i - sizes.keepFirst, by rw [List.length_take]; omega, ?_⟩
    rw [List.getElem_take]
    congr 1
    omega

theorem eventsToForget_ne_nil_iff {sizes : WindowSizes} {events : List Event} :
    sizes.eventsToForget events ≠ [] ↔
      sizes.keepFirst + 1 < sizes.target ∧
      ∃ i e, InMiddle sizes.keepFirst (sizes.target - sizes.keepFirst - 1) events.length i ∧
        events[i]? = some e ∧ e.isAgentCondensation = false := by
  constructor
  · intro hne
    obtain ⟨e, he⟩ := List.exists_mem_of_ne_nil _ hne
    obtain ⟨htail, i, hi⟩ := mem_eventsToForget_iff.mp he
    exact ⟨htail, i, e, hi⟩
  · rintro ⟨htail, i, e, hi⟩
    exact List.ne_nil_of_mem (mem_eventsToForget_iff.mpr ⟨htail, i, hi⟩)

/-! ## The rolling condensers -/

/-- The three condensers that answer with a condensation. -/
inductive RollingCondenser where
  | amortizedForgetting (c : AmortizedForgettingCondenser)
  | llmSummarizing (c : LLMSummarizingCondenser)
  | structuredSummary (c : StructuredSummaryCondenser)
  deriving DecidableEq, Repr

namespace RollingCondenser

/-- The sizes of a rolling condenser. -/
def sizes : RollingCondenser → WindowSizes
  | amortizedForgetting c => c.sizes
  | llmSummarizing c => c.sizes
  | structuredSummary c => c.sizes

/-- `get_condensation`, dispatched on the class of the condenser. -/
def getCondensation (str : Event → Except PyError String)
    (validate : String → Except String StateSummary) (condenser : RollingCondenser) (view : View)
    (response : LLMResponse) : Except PyError CondensationAction :=
  match condenser with
  | amortizedForgetting c => c.getCondensation view
  | llmSummarizing c => c.getCondensation str view response
  | structuredSummary c => c.getCondensation str validate view response

/-- `should_condense`. -/
def shouldCondense (condenser : RollingCondenser) (view : View) : Bool :=
  condenser.sizes.shouldCondense view

/-- The views and responses for which a condenser condenses.  The amortized condenser
needs an event in the middle whose id occurs in the middle only; the summarizing ones
need a tail, an event in the middle that is no summary, no such event for which `str`
raises and, for the LLM condenser, a response with a text. -/
def CanCondense (str : Event → Except PyError String) (condenser : RollingCondenser)
    (view : View) (response : LLMResponse) : Prop :=
  match condenser with
  | amortizedForgetting c =>
    ∃ e ∈ view.events, ∀ j e', view.events[j]? = some e' → e'.id = e.id →
      InMiddle c.sizes.keepFirst (c.sizes.target - c.sizes.keepFirst) view.events.length j
  | llmSummarizing c =>
    SummaryPossible c.sizes view.events ∧ HaveTexts c.sizes view.events ∧
      response.content.isSome
  | structuredSummary c => SummaryPossible c.sizes view.events ∧ HaveTexts c.sizes view.events
where
  /-- A tail is kept and an event of the middle is no summary. -/
  SummaryPossible (sizes : WindowSizes) (events : List Event) : Prop :=
    sizes.keepFirst + 1 < sizes.target ∧
    ∃ i e, InMiddle sizes.keepFirst (sizes.target - sizes.keepFirst - 1) events.length i ∧
      events[i]? = some e ∧ e.isAgentCondensation = false
  /-- `str` raises for no event of the middle but a summary. -/
  HaveTexts (sizes : WindowSizes) (events : List Event) : Prop :=
    ∀ i e, InMiddle sizes.keepFirst (sizes.target - sizes.keepFirst - 1) events.length i →
      events[i]? = some e → e.isAgentCondensation = false → ∃ text, str e = .ok text

end RollingCondenser

/-- The range of a nonempty list of ids. -/
theorem exists_range_iff {events : List Event} :
    (∃ lo hi, (events.map Event.id).min? = some lo ∧ (events.map Event.id).max? = some hi) ↔
      events ≠ [] := by
  rw [exists_min?_max?, ne_eq, List.map_eq_nil_iff]

/-- A view with an event to forget reaches `keep_first`. -/
theorem keepFirst_lt_of_summaryPossible {sizes : WindowSizes} {events : List Event}
    (h : RollingCondenser.CanCondense.SummaryPossible sizes events) :
    sizes.keepFirst < events.length := by
  obtain ⟨-, i, e, ⟨hle, hlt⟩, -, -⟩ := h
  omega

/-- The events that are formatted are those of the middle. -/
theorem haveTexts_iff {str : Event → Except PyError String} {sizes : WindowSizes}
    {events : List Event} (h : RollingCondenser.CanCondense.SummaryPossible sizes events) :
    (∀ e ∈ sizes.eventsToForget events, ∃ text, str e = .ok text) ↔
      RollingCondenser.CanCondense.HaveTexts str sizes events := by
  constructor
  · intro htexts i e hmiddle hi hcond
    exact htexts e (mem_eventsToForget_iff.mpr ⟨h.1, i, hmiddle, hi, hcond⟩)
  · intro htexts e he
    obtain ⟨-, i, hmiddle, hi, hcond⟩ := mem_eventsToForget_iff.mp he
    exact htexts i e hmiddle hi hcond

/-- **When condensing is safe.**  `get_condensation` returns a condensation action, whose
type says that its configuration is valid, exactly when `CanCondense` holds; otherwise
it raises. -/
theorem getCondensation_ok_iff_canCondense (str : Event → Except PyError String)
    (validate : String → Except String StateSummary) (condenser : RollingCondenser)
    (view : View) (response : LLMResponse) :
    (∃ action, condenser.getCondensation str validate view response = .ok action) ↔
      condenser.CanCondense str view response := by
  cases condenser with
  | amortizedForgetting c =>
    show (∃ action, c.getCondensation view = .ok action) ↔ _
    rw [RollingCondenser.CanCondense, ← idsToForget_ne_nil_iff, ← exists_min?_max?]
    simp only [amortized_getCondensation_eq_ok_iff]
    constructor
    · rintro ⟨_, lo, hi, hlo, hhi, -⟩
      exact ⟨lo, hi, hlo, hhi⟩
    · rintro ⟨lo, hi, hlo, hhi⟩
      exact ⟨_, lo, hi, hlo, hhi, rfl⟩
  | llmSummarizing c =>
    show (∃ action, c.getCondensation str view response = .ok action) ↔ _
    rw [RollingCondenser.CanCondense]
    simp only [llm_getCondensation_eq_ok_iff]
    constructor
    · rintro ⟨_, -, htexts, lo, hi, text, hlo, hhi, htext, -⟩
      have hpossible := eventsToForget_ne_nil_iff.mp (exists_range_iff.mp ⟨lo, hi, hlo, hhi⟩)
      exact ⟨hpossible, (haveTexts_iff hpossible).mp htexts,
        Option.isSome_iff_exists.mpr ⟨text, htext⟩⟩
    · rintro ⟨hpossible, htexts, hcontent⟩
      obtain ⟨text, htext⟩ := Option.isSome_iff_exists.mp hcontent
      obtain ⟨lo, hi, hlo, hhi⟩ := exists_range_iff.mpr (eventsToForget_ne_nil_iff.mpr hpossible)
      exact ⟨_, keepFirst_lt_of_summaryPossible hpossible, (haveTexts_iff hpossible).mpr htexts,
        lo, hi, text, hlo, hhi, htext, rfl⟩
  | structuredSummary c =>
    show (∃ action, c.getCondensation str validate view response = .ok action) ↔ _
    rw [RollingCondenser.CanCondense]
    simp only [structured_getCondensation_eq_ok_iff]
    constructor
    · rintro ⟨_, -, htexts, lo, hi, hlo, hhi, -⟩
      have hpossible := eventsToForget_ne_nil_iff.mp (exists_range_iff.mp ⟨lo, hi, hlo, hhi⟩)
      exact ⟨hpossible, (haveTexts_iff hpossible).mp htexts⟩
    · rintro ⟨hpossible, htexts⟩
      obtain ⟨lo, hi, hlo, hhi⟩ := exists_range_iff.mpr (eventsToForget_ne_nil_iff.mpr hpossible)
      exact ⟨_, keepFirst_lt_of_summaryPossible hpossible, (haveTexts_iff hpossible).mpr htexts,
        lo, hi, hlo, hhi, rfl⟩

/-- A conversation in which the user asked for a condensation right after the task. -/
def requestAfterTask : List Event :=
  [{ id := 0, source := some .user, body := .action (.message { content := "task" }) },
   { id := 1, source := some .agent, body := .action .condensationRequest }]

/-- A request for condensation in a short conversation: the condensers with their default
sizes set out to condense, and the amortized one takes the minimum of no ids while the
LLM condenser subscripts the view past its end. -/
theorem getCondensation_raises_on_request :
    ∃ c c', AmortizedForgettingCondenser.init = .ok c ∧ LLMSummarizingCondenser.init = .ok c' ∧
      (RollingCondenser.amortizedForgetting c).shouldCondense
        (View.fromEvents requestAfterTask) = true ∧
      c.getCondensation (View.fromEvents requestAfterTask)
        = .error (.valueError "min() iterable argument is empty") ∧
      (RollingCondenser.llmSummarizing c').shouldCondense
        (View.fromEvents requestAfterTask) = true ∧
      ∀ str response, c'.getCondensation str (View.fromEvents requestAfterTask) response
        = .error .indexError := by
  refine ⟨⟨100, 0, by decide⟩, ⟨⟨100, 1, by decide⟩, 10000⟩, rfl, rfl, ?_, ?_, ?_, ?_⟩
  · decide
  · decide
  · decide
  · intro str response
    rfl

end OpenHands
