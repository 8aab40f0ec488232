/-
# Conversations condensed by a language model

Events are appended one at a time; after each append the view of the history is built
and condensed, and when `LLMSummarizingCondenser.condense` answers with a condensation,
its action is the next event appended.

The invariant compares the history with the events as they would be had nothing ever
been condensed: the view is a prefix and a suffix of these, with the latest summary in
between.
-/
import OpenHands.CondensationSafety
import OpenHands.Lib.Run

namespace OpenHands

/-- `LLMSummarizingCondenser.condense`. -/
def LLMSummarizingCondenser.condense (c : LLMSummarizingCondenser)
    (str : Event → Except PyError String) (view : View) (response : LLMResponse) :
    Except PyError CondenserResult :=
  rollingCondense c.sizes.shouldCondense (fun v => c.getCondensation str v response) view

/-! ## The run -/

/-- A conversation after an append: its history, the view of the history and what the
condenser returned for it. -/
structure CondensedConversation where
  history : List Event
  view : View
  outcome : Except PyError CondenserResult

/-- One append: the next event and what the language model would answer after it. -/
structure Append where
  event : Event
  response : LLMResponse
  deriving DecidableEq, Repr

namespace CondensedConversation

/-- The conversation before the first event. -/
def new : CondensedConversation where
  history := []
  view := View.fromEvents []
  outcome := .ok (.view (View.fromEvents []))

/-- The event that is appended: the pending condensation action, or the next event. -/
def nextEvent (s : CondensedConversation) (a : Append) : Event :=
  match s.outcome with
  | .ok (.condensation action) => { a.event with body := .action (.condensation action) }
  | _ => a.event

/-- Append, build the view, condense. -/
def step (c : LLMSummarizingCondenser) (str : Event → Except PyError String)
    (s : CondensedConversation) (a : Append) : CondensedConversation :=
  let history := s.history ++ [s.nextEvent a]
  let view := View.fromEvents history
  { history := history, view := view, outcome := c.condense str view a.response }

end CondensedConversation

/-- An event that no condensation is about. -/
def Event.IsOrdinary (e : Event) : Prop :=
  e.condensation? = none ∧ e.isCondensationRequest = false ∧ e.isAgentCondensation = false

instance (e : Event) : Decidable e.IsOrdinary := inferInstanceAs (Decidable (_ ∧ _))

/-- The condenser did not raise, and the next event is an ordinary one with a larger id
than all before. -/
def Append.Admissible (s : CondensedConversation) (a : Append) : Prop :=
  s.outcome.isOk ∧ (∀ e ∈ s.history, e.id < a.event.id) ∧ a.event.IsOrdinary

instance (s : CondensedConversation) (a : Append) : Decidable (a.Admissible s) :=
  inferInstanceAs (Decidable (_ ∧ _ ∧ _))

/-- A run of appends from the start. -/
def CondensedRun (c : LLMSummarizingCondenser) (str : Event → Except PyError String)
    (as : List Append) : Prop :=
  ∀ p ∈ Run.steps (CondensedConversation.step c str) .new as, p.2.Admissible p.1

/-- The conversation at the end of a run. -/
def conversationAfter (c : LLMSummarizingCondenser) (str : Event → Except PyError String)
    (as : List Append) : CondensedConversation :=
  Run.run (CondensedConversation.step c str) .new as

/-- The events as they would be had nothing been condensed. -/
def uncondensed (history : List Event) : List Event :=
  history.filter fun e => e.condensation?.isNone

/-- What a view looks like right after a condensation with the given summary. -/
structure IsSummaryView (sizes : WindowSizes) (all : List Event) (summary : String)
    (view : View) : Prop where
  /-- Half of the maximal size. -/
  length_eq : view.events.length = sizes.maxSize / 2
  /-- The first events of the whole history. -/
  head_eq : view.events.take sizes.keepFirst = all.take sizes.keepFirst
  /-- The summary behind them. -/
  summary_at : view.events[sizes.keepFirst]? = some (agentCondensationObservation summary)
  /-- There is no other summary. -/
  only_summary : ∀ i e, view.events[i]? = some e → e.isAgentCondensation = true →
    i = sizes.keepFirst
  /-- Behind the summary the most recent events in order. -/
  rest_eq : view.events.drop (sizes.keepFirst + 1)
    = all.drop (all.length - (sizes.maxSize / 2 - (sizes.keepFirst + 1)))

/-! ## Cutting a range of ids out of a sorted list -/

/-- Forgetting the range of the ids of a stretch of a sorted list takes out the stretch. -/
theorem filter_not_forgotten_range {A M B : List Event}
    (hsorted : (A ++ M ++ B).Pairwise (fun a b => a.id < b.id)) {lo hi : ℤ}
    (hlo : (M.map Event.id).min? = some lo) (hhi : (M.map Event.id).max? = some hi)
    {action : CondensationAction} (hforgotten : ∀ i, i ∈ action.forgotten ↔ lo ≤ i ∧ i ≤ hi) :
    (A ++ M ++ B).filter (fun e => e.id ∉ action.forgotten) = A ++ B := by
  obtain ⟨hlomem, hlomin⟩ := List.min?_eq_some_iff.mp hlo
  obtain ⟨hhimem, hhimax⟩ := List.max?_eq_some_iff.mp hhi
  obtain ⟨elo, helo, rfl⟩ := List.mem_map.mp hlomem
  obtain ⟨ehi, hehi, rfl⟩ := List.mem_map.mp hhimem
  -- the head lies below the smallest id of the stretch and the tail above its largest
  obtain ⟨hAM, -, hAB⟩ := List.pairwise_append.mp hsorted
  obtain ⟨-, -, hA⟩ := List.pairwise_append.mp hAM
  rw [List.filter_append, List.filter_append]
  have hheadKept : A.filter (fun e => e.id ∉ action.forgotten) = A := by
    rw [List.filter_eq_self]
    intro e he
    have hlt := hA e he elo helo
    rw [decide_eq_true_eq, hforgotten]
    omega
  have hmiddleGone : M.filter (fun e => e.id ∉ action.forgotten) = [] := by
    rw [List.filter_eq_nil_iff]
    intro e he
    have hmem : e.id ∈ M.map Event.id := List.mem_map_of_mem he
    rw [decide_eq_true_eq, hforgotten, not_not]
    exact ⟨hlomin _ hmem, hhimax _ hmem⟩
  have htailKept : B.filter (fun e => e.id ∉ action.forgotten) = B := by
    rw [List.filter_eq_self]
    intro e he
    have hlt := hAB ehi (List.mem_append_right _ hehi) e he
    rw [decide_eq_true_eq, hforgotten]
    omega
  rw [hheadKept, hmiddleGone, htailKept, List.append_nil]

/-! ## The invariant -/

/-- The kept events and the summary of a history: all of them before the first
condensation, a prefix and a suffix and the latest summary after it. -/
inductive Shape (keepFirst : ℕ) (all kept : List Event) : Option (String × ℤ) → Prop
  | uncut : kept = all → Shape keepFirst all kept none
  | cut (summary : String) (m : ℕ) : keepFirst ≤ m → m ≤ all.length →
      kept = all.take keepFirst ++ all.drop m →
      Shape keepFirst all kept (some (summary, (keepFirst : ℤ)))

/-- What holds of a conversation after every append. -/
structure CondensedInvariant (c : LLMSummarizingCondenser) (str : Event → Except PyError String)
    (s : CondensedConversation) : Prop where
  sorted : s.history.Pairwise (fun a b => a.id < b.id)
  noRequest : ∀ e ∈ s.history, e.isCondensationRequest = false
  noSummary : ∀ e ∈ s.history, e.isAgentCondensation = false
  forgotten_le : ∀ i ∈ View.forgottenEventIds s.history, ∃ e ∈ s.history, i ≤ e.id
  shape : Shape c.sizes.keepFirst (uncondensed s.history) (View.keptEvents s.history)
    (View.lastSummary s.history)
  view_eq : s.view = View.fromEvents s.history
  outcome_eq : ∃ response, s.outcome = c.condense str s.view response
  afterCondensation : ∀ e action, s.history.getLast? = some e →
    e.condensation? = some action → ∃ summary, action.summary = some summary ∧
      IsSummaryView c.sizes (uncondensed s.history) summary s.view

/-- Without requests in the history a view carries none. -/
theorem unhandledRequest_eq_false {events : List Event}
    (h : ∀ e ∈ events, e.isCondensationRequest = false) :
    View.unhandledRequest events = false := by
  induction events with
  | nil => rfl
  | cons e es ih =>
    rw [List.forall_mem_cons] at h
    rw [View.unhandledRequest, h.1]
    split_ifs with hc
    · rfl
    · contradiction
    · exact ih h.2

/-- The empty conversation satisfies the invariant. -/
theorem condensedInvariant_new (c : LLMSummarizingCondenser) (str : Event → Except PyError String) :
    CondensedInvariant c str .new where
  sorted := .nil
  noRequest := by simp [CondensedConversation.new]
  noSummary := by simp [CondensedConversation.new]
  forgotten_le := by simp [CondensedConversation.new, View.forgottenEventIds]
  shape := .uncut rfl
  view_eq := rfl
  outcome_eq := ⟨⟨none, []⟩, rfl⟩
  afterCondensation := by simp [CondensedConversation.new]

/-! ## One condensation -/

/-- Dropping a list and the element behind it. -/
theorem drop_succ_append_cons {A B : List Event} {x : Event} {k : ℕ} (hk : A.length = k) :
    (A ++ x :: B).drop (k + 1) = B := by
  subst hk
  rw [List.drop_length_add_append]
  rfl

/-- Cutting a list from the element behind a prefix on. -/
theorem drop_take_append_cons {A B : List Event} {x : Event} {k : ℕ} (hk : A.length = k)
    (n : ℕ) : ((A ++ x :: B).take (k + (n + 1))).drop k = x :: B.take n := by
  subst hk
  rw [List.take_length_add_append, List.drop_left, List.take_succ_cons]

/-- The view after a cut: the head, the summary and what lies behind the cut. -/
theorem insertSummary_cut {all : List Event} {keepFirst m : ℕ} (hle : keepFirst ≤ m)
    (hm : m ≤ all.length) (summary : String) :
    View.insertSummary (all.take keepFirst ++ all.drop m) (some (summary, (keepFirst : ℤ)))
      = all.take keepFirst ++ agentCondensationObservation summary :: all.drop m := by
  have hlen : (all.take keepFirst).length = keepFirst := by
    rw [List.length_take]
    omega
  have hinsert := PySeq.insert_append (all.take keepFirst) (all.drop m)
    (agentCondensationObservation summary)
  rw [hlen] at hinsert
  exact hinsert

/-- What the summarizing condenser forgets in a view that is too long: the events between
the last cut and the tail it keeps. -/
theorem eventsToForget_of_shape {sizes : WindowSizes} {all kept : List Event}
    {summary? : Option (String × ℤ)} (h : Shape sizes.keepFirst all kept summary?)
    (hall : ∀ e ∈ all, e.isAgentCondensation = false)
    (hlong : sizes.maxSize < (View.insertSummary kept summary?).length)
    (htail : sizes.keepFirst + 1 < sizes.target) :
    ∃ m, sizes.keepFirst ≤ m ∧ m + (sizes.target - sizes.keepFirst - 1) ≤ all.length ∧
      kept = all.take sizes.keepFirst ++ all.drop m ∧
      sizes.eventsToForget (View.insertSummary kept summary?)
        = (all.take (all.length - (sizes.target - sizes.keepFirst - 1))).drop m := by
  have htarget : sizes.target = sizes.maxSize / 2 := rfl
  unfold WindowSizes.eventsToForget WindowSizes.cutOut
  rw [if_neg (by omega)]
  set fromTail := sizes.target - sizes.keepFirst - 1 with hfromTail
  cases h with
  | uncut hkept =>
    rw [hkept] at hlong ⊢
    change sizes.maxSize < all.length at hlong
    -- nothing was cut before, so the cut is right behind the head and no summary is in it
    refine ⟨sizes.keepFirst, le_refl _, by omega, (List.take_append_drop _ _).symm, ?_⟩
    apply List.filter_eq_self.mpr
    intro e he
    have hmem : e ∈ all := List.mem_of_mem_take (List.mem_of_mem_drop he)
    rw [hall e hmem]
    rfl
  | cut summary m hle hm hkept =>
    rw [hkept, insertSummary_cut hle hm] at hlong ⊢
    have hlen : (all.take sizes.keepFirst).length = sizes.keepFirst := by
      rw [List.length_take]
      omega
    rw [List.length_append, hlen, List.length_cons, List.length_drop] at hlong
    refine ⟨m, hle, by omega, rfl, ?_⟩
    -- the slice is the old summary and the events from the cut to the tail
    have hslice : ((all.take sizes.keepFirst
          ++ agentCondensationObservation summary :: all.drop m).take
            ((all.take sizes.keepFirst
              ++ agentCondensationObservation summary :: all.drop m).length - fromTail)).drop
          sizes.keepFirst
        = agentCondensationObservation summary
            :: (all.drop m).take (all.length - fromTail - m) := by
      have hcount : (all.take sizes.keepFirst
          ++ agentCondensationObservation summary :: all.drop m).length - fromTail
          = sizes.keepFirst + ((all.length - fromTail - m) + 1) := by
        rw [List.length_append, hlen, List.length_cons, List.length_drop]
        omega
      rw [hcount]
      exact drop_take_append_cons hlen _
    rw [hslice, List.filter_cons]
    have hself : (!(agentCondensationObservation summary).isAgentCondensation) = false := rfl
    rw [hself, if_neg (by simp), List.filter_eq_self.mpr, List.take_drop]
    · congr 2
      omega
    · intro e he
      have hmem : e ∈ all := List.mem_of_mem_drop (List.mem_of_mem_take he)
      rw [hall e hmem]
      rfl

/-- The view right after a cut that leaves room for the tail only. -/
theorem isSummaryView_cut {sizes : WindowSizes} {all : List Event}
    (hall : ∀ e ∈ all, e.isAgentCondensation = false)
    (htail : sizes.keepFirst + 1 < sizes.target)
    (hle : sizes.keepFirst ≤ all.length - (sizes.target - sizes.keepFirst - 1))
    (hlen : sizes.target - sizes.keepFirst - 1 ≤ all.length) (summary : String) (view : View)
    (hview : view.events = all.take sizes.keepFirst ++ agentCondensationObservation summary
      :: all.drop (all.length - (sizes.target - sizes.keepFirst - 1))) :
    IsSummaryView sizes all summary view := by
  have htarget : sizes.target = sizes.maxSize / 2 := rfl
  have hhead : (all.take sizes.keepFirst).length = sizes.keepFirst := by
    rw [List.length_take]
    omega
  refine ⟨?_, ?_, ?_, ?_, ?_⟩
  · rw [hview, List.length_append, hhead, List.length_cons, List.length_drop]
    omega
  · rw [hview, List.take_append_of_le_length (by omega), List.take_take, Nat.min_self]
  · rw [hview, List.getElem?_append_right (by omega), hhead, Nat.sub_self]
    rfl
  · -- a summary at position `i`: the head and the tail hold none
    intro i e hi hsummary
    rw [hview] at hi
    rcases Nat.lt_trichotomy i sizes.keepFirst with hlt | heq | hgt
    · rw [List.getElem?_append_left (by omega)] at hi
      have hmem : e ∈ all := List.mem_of_mem_take (List.mem_of_getElem? hi)
      rw [hall e hmem] at hsummary
      contradiction
    · exact heq
    · rw [List.getElem?_append_right (by omega), hhead] at hi
      obtain ⟨j, hj⟩ : ∃ j, i - sizes.keepFirst = j + 1 := ⟨i - sizes.keepFirst - 1, by omega⟩
      rw [hj, List.getElem?_cons_succ] at hi
      have hmem : e ∈ all := List.mem_of_mem_drop (List.mem_of_getElem? hi)
      rw [hall e hmem] at hsummary
      contradiction
  · rw [hview, drop_succ_append_cons hhead]
    congr 2

/-! ## The invariant over a step -/

variable {c : LLMSummarizingCondenser} {str : Event → Except PyError String}
  {s : CondensedConversation}

/-- The uncondensed events are events of the history. -/
theorem mem_of_mem_uncondensed {history : List Event} {e : Event} (h : e ∈ uncondensed history) :
    e ∈ history := (List.mem_filter.mp h).1

/-- One more event leaves the last cut where it is. -/
theorem Shape.append {keepFirst : ℕ} {all kept : List Event} {summary? : Option (String × ℤ)}
    (h : Shape keepFirst all kept summary?) (e : Event) :
    Shape keepFirst (all ++ [e]) (kept ++ [e]) summary? := by
  cases h with
  | uncut hkept => exact .uncut (by rw [hkept])
  | cut summary m hle hm hkept =>
    refine .cut summary m hle (by rw [List.length_append]; omega) ?_
    rw [hkept, List.take_append_of_le_length (by omega), List.drop_append_of_le_length hm,
      List.append_assoc]

/-- An id above all others is not forgotten. -/
theorem CondensedInvariant.not_forgotten (h : CondensedInvariant c str s) {id : ℤ}
    (hid : ∀ e ∈ s.history, e.id < id) : id ∉ View.forgottenEventIds s.history := by
  intro hmem
  obtain ⟨e, he, hle⟩ := h.forgotten_le id hmem
  have hlt := hid e he
  omega

/-- Appending an ordinary event. -/
theorem condensedInvariant_ordinary (h : CondensedInvariant c str s) {a : Append}
    (hnext : s.nextEvent a = a.event) (hid : ∀ e ∈ s.history, e.id < a.event.id)
    (hord : a.event.IsOrdinary) :
    CondensedInvariant c str (CondensedConversation.step c str s a) := by
  obtain ⟨hc, hr, hs⟩ := hord
  have hhistory : (CondensedConversation.step c str s a).history = s.history ++ [a.event] := by
    rw [CondensedConversation.step, hnext]
  have hforgotten : View.forgottenEventIds (s.history ++ [a.event])
      = View.forgottenEventIds s.history := by
    rw [View.forgottenEventIds_append, View.forgottenEventIds, View.forgottenEventIds,
      List.flatMap_singleton, View.forgottenBy_of_ordinary hc hr, List.append_nil]
  refine ⟨?_, ?_, ?_, ?_, ?_, rfl, ⟨a.response, rfl⟩, ?_⟩
  · rw [hhistory]
    exact pairwise_concat h.sorted hid
  · rw [hhistory]
    exact List.forall_mem_append.mpr ⟨h.noRequest, List.forall_mem_singleton.mpr hr⟩
  · rw [hhistory]
    exact List.forall_mem_append.mpr ⟨h.noSummary, List.forall_mem_singleton.mpr hs⟩
  · rw [hhistory, hforgotten]
    intro i hi
    obtain ⟨e, he, hle⟩ := h.forgotten_le i hi
    exact ⟨e, List.mem_append_left _ he, hle⟩
  · have hall : uncondensed (s.history ++ [a.event]) = uncondensed s.history ++ [a.event] := by
      rw [uncondensed, List.filter_append]
      simp [hc, uncondensed]
    rw [hhistory, hall, View.keptEvents_append_of_ordinary hc hr (h.not_forgotten hid),
      View.lastSummary_append_singleton, View.summaryOf_eq_none hc]
    exact h.shape.append a.event
  · intro e action hlast hcond
    rw [hhistory, List.getLast?_append, List.getLast?_singleton] at hlast
    cases hlast
    rw [hc] at hcond
    contradiction

/-- A range that begins behind what is kept of the head moves the cut: the events up to its end
are no longer kept. -/
theorem keptEvents_append_of_range {history all : List Event} {k m cutAt : ℕ} {e : Event}
    {lo hi : ℤ} {summary : String} {offset : ℕ}
    (hsorted : (View.keptEvents history).Pairwise (fun a b => a.id < b.id))
    (hkept : View.keptEvents history = all.take k ++ all.drop m) (hm : m ≤ cutAt)
    (hcut : cutAt ≤ all.length)
    (hlo : (((all.take cutAt).drop m).map Event.id).min? = some lo)
    (hhi : (((all.take cutAt).drop m).map Event.id).max? = some hi)
    (hcond : e.condensation? = some (.summarizeRange lo hi summary offset))
    (hid : ∀ e' ∈ history, e'.id < e.id) :
    View.keptEvents (history ++ [e]) = all.take k ++ all.drop cutAt := by
  have hsplit : all.drop m = (all.take cutAt).drop m ++ all.drop cutAt := by
    conv_lhs => rw [← List.take_append_drop cutAt all]
    rw [List.drop_append_of_le_length (by rw [List.length_take]; omega)]
  rw [hkept, hsplit, ← List.append_assoc] at hsorted
  rw [View.keptEvents_append_of_condensation hcond (fun e' he' => (hid e' he').ne), hkept,
    hsplit, ← List.append_assoc]
  exact filter_not_forgotten_range hsorted hlo hhi fun i => mem_forgotten_of_range rfl rfl rfl

/-- The ids that are forgotten stay below the last one: a range ends at the id of an event of the
history. -/
theorem CondensedInvariant.forgotten_le_append (h : CondensedInvariant c str s) {e : Event}
    {lo hi : ℤ} {summary : String} {offset : ℕ} {range : List Event}
    (hcond : e.condensation? = some (.summarizeRange lo hi summary offset))
    (hhi : (range.map Event.id).max? = some hi) (hrange : ∀ e' ∈ range, e' ∈ s.history)
    (hid : ∀ e' ∈ s.history, e'.id < e.id) :
    ∀ i ∈ View.forgottenEventIds (s.history ++ [e]), ∃ e' ∈ s.history ++ [e], i ≤ e'.id := by
  intro i hi'
  rw [View.forgottenEventIds_append, List.mem_append] at hi'
  rcases hi' with hi' | hi'
  · obtain ⟨e', he', hle⟩ := h.forgotten_le i hi'
    exact ⟨e', List.mem_append_left _ he', hle⟩
  · rw [View.forgottenEventIds, List.flatMap_singleton, View.forgottenBy_of_condensation hcond,
      List.mem_append, List.mem_singleton, mem_forgotten_of_range rfl rfl rfl] at hi'
    refine ⟨e, by simp, ?_⟩
    rcases hi' with ⟨-, hle⟩ | rfl
    · obtain ⟨e', he', rfl⟩ := List.mem_map.mp (List.max?_mem hhi)
      have hlt := hid e' (hrange e' he')
      omega
    · exact le_refl _

/-- Appending the condensation action that the condenser returned. -/
theorem condensedInvariant_condensation (h : CondensedInvariant c str s) {a : Append}
    {action : CondensationAction} (houtcome : s.outcome = .ok (.condensation action))
    (hid : ∀ e ∈ s.history, e.id < a.event.id) :
    CondensedInvariant c str (CondensedConversation.step c str s a) := by
  -- the action puts a summary in place of the events between the last cut and the tail
  obtain ⟨response, hcondense⟩ := h.outcome_eq
  obtain ⟨hshould, hget⟩ := rollingCondense_eq_condensation (hcondense.symm.trans houtcome)
  obtain ⟨-, -, lo, hi, summary, hlo, hhi, -, rfl⟩ := llm_getCondensation_eq_ok_iff.mp hget
  have hsome : c.sizes.eventsToForget s.view.events ≠ [] := exists_range_iff.mp ⟨lo, hi, hlo, hhi⟩
  obtain ⟨htail, -⟩ := eventsToForget_ne_nil_iff.mp hsome
  have hlong : c.sizes.maxSize < s.view.events.length := by
    have hunhandled : s.view.unhandledCondensationRequest = false := by
      rw [h.view_eq]
      exact unhandledRequest_eq_false fun e he => h.noRequest e (List.mem_reverse.mp he)
    simpa [WindowSizes.shouldCondense, hunhandled] using hshould
  have hall : ∀ e ∈ uncondensed s.history, e.isAgentCondensation = false :=
    fun e he => h.noSummary e (mem_of_mem_uncondensed he)
  have hview : s.view.events = View.insertSummary (View.keptEvents s.history)
      (View.lastSummary s.history) := by
    rw [h.view_eq]
    rfl
  rw [hview] at hlong hlo hhi
  obtain ⟨m, hle, hm, hkept, hforget⟩ := eventsToForget_of_shape h.shape hall hlong htail
  rw [hforget] at hlo hhi
  set all := uncondensed s.history with hallDef
  set cutAt := all.length - (c.sizes.target - c.sizes.keepFirst - 1) with hcutAt
  -- the new history
  set e : Event :=
    { a.event with body := .action (.condensation (.summarizeRange lo hi summary
        c.sizes.keepFirst)) } with he
  have hcond : e.condensation? = some (.summarizeRange lo hi summary c.sizes.keepFirst) := rfl
  have hhistory : (CondensedConversation.step c str s a).history = s.history ++ [e] := by
    rw [CondensedConversation.step, CondensedConversation.nextEvent, houtcome]
  have hall' : uncondensed (s.history ++ [e]) = all := by
    rw [uncondensed, List.filter_append]
    simp [hcond, hallDef, uncondensed]
  have hkept' : View.keptEvents (s.history ++ [e])
      = all.take c.sizes.keepFirst ++ all.drop cutAt :=
    keptEvents_append_of_range (h.sorted.filter _) hkept (by omega) (by omega) hlo hhi hcond hid
  have hsummary' : View.lastSummary (s.history ++ [e])
      = some (summary, (c.sizes.keepFirst : ℤ)) := by
    rw [View.lastSummary_append_singleton, View.summaryOf_eq_some hcond rfl rfl]
    rfl
  have hview' : (CondensedConversation.step c str s a).view.events
      = all.take c.sizes.keepFirst ++ agentCondensationObservation summary :: all.drop cutAt := by
    show (View.fromEvents (CondensedConversation.step c str s a).history).events = _
    rw [hhistory]
    show View.insertSummary (View.keptEvents _) (View.lastSummary _) = _
    rw [hkept', hsummary', insertSummary_cut (by omega) (by omega)]
  refine ⟨?_, ?_, ?_, ?_, ?_, rfl, ⟨a.response, rfl⟩, ?_⟩
  · rw [hhistory]
    exact pairwise_concat h.sorted hid
  · rw [hhistory]
    exact List.forall_mem_append.mpr ⟨h.noRequest, List.forall_mem_singleton.mpr rfl⟩
  · rw [hhistory]
    exact List.forall_mem_append.mpr ⟨h.noSummary, List.forall_mem_singleton.mpr rfl⟩
  · rw [hhistory]
    refine h.forgotten_le_append hcond hhi (fun e' he' => ?_) hid
    exact mem_of_mem_uncondensed (List.mem_of_mem_take (List.mem_of_mem_drop he'))
  · rw [hhistory, hall', hkept', hsummary']
    exact .cut summary cutAt (by omega) (by omega) rfl
  · intro e' action hlast hcond'
    rw [hhistory, List.getLast?_append, List.getLast?_singleton] at hlast
    cases hlast
    rw [hcond] at hcond'
    cases hcond'
    refine ⟨summary, rfl, ?_⟩
    rw [hhistory, hall']
    exact isSummaryView_cut hall htail (by omega) (by omega) summary _ hview'

/-- **Step lemma**: an admissible append keeps the invariant. -/
theorem condensedInvariant_step (s : CondensedConversation) (a : Append)
    (h : CondensedInvariant c str s) (ha : a.Admissible s) :
    CondensedInvariant c str (CondensedConversation.step c str s a) := by
  obtain ⟨hok, hid, hord⟩ := ha
  cases houtcome : s.outcome with
  | error e =>
    rw [houtcome] at hok
    contradiction
  | ok result =>
    cases result with
    | view v =>
      refine condensedInvariant_ordinary h ?_ hid hord
      rw [CondensedConversation.nextEvent, houtcome]
    | condensation action => exact condensedInvariant_condensation h houtcome hid

/-- **Run lemma**: the invariant holds after every run of appends. -/
theorem condensedInvariant_conversationAfter {as : List Append} (h : CondensedRun c str as) :
    CondensedInvariant c str (conversationAfter c str as) :=
  Run.run_invariant condensedInvariant_step (condensedInvariant_new c str) h

/-- **Views of a condensed conversation.**  After every run of appends, a view handed to
the agent is the view of the history and has at most `max_size` events; and when the
last append was a condensation, the view is the first `keep_first` events of the whole
history, the latest summary and the most recent events, `max_size // 2` in all. -/
theorem views_of_condensedRun (c : LLMSummarizingCondenser) (str : Event → Except PyError String)
    (as : List Append) (h : CondensedRun c str as) :
    (∀ v, (conversationAfter c str as).outcome = .ok (.view v) →
      v = View.fromEvents (conversationAfter c str as).history ∧
      v.events.length ≤ c.sizes.maxSize) ∧
    (∀ e action, (conversationAfter c str as).history.getLast? = some e →
      e.condensation? = some action →
      ∃ summary, action.summary = some summary ∧
        IsSummaryView c.sizes (uncondensed (conversationAfter c str as).history) summary
          (View.fromEvents (conversationAfter c str as).history)) := by
  have hinv := condensedInvariant_conversationAfter h
  constructor
  · intro v hv
    obtain ⟨response, hcondense⟩ := hinv.outcome_eq
    obtain ⟨rfl, hshould⟩ := rollingCondense_eq_view (hcondense.symm.trans hv)
    refine ⟨hinv.view_eq, ?_⟩
    simp only [WindowSizes.shouldCondense, Bool.or_eq_false_iff, decide_eq_false_iff_not] at hshould
    omega
  · intro e action hlast hcond
    obtain ⟨summary, hsummary, hview⟩ := hinv.afterCondensation e action hlast hcond
    rw [← hinv.view_eq]
    exact ⟨summary, hsummary, hview⟩

/-- A condenser that keeps no head and at most four events. -/
def smallCondenser : LLMSummarizingCondenser := ⟨⟨4, 0, by decide⟩, 10000⟩

/-- Six appends: the fifth event makes the view too long, so the sixth append is the
condensation action. -/
def sixAppends : List Append :=
  (List.range 6).map fun n : ℕ =>
    { event := { id := n, source := some .agent, body := .action (.agentThink "") }
      response := ⟨some "summary", []⟩ }

theorem views_of_sixAppends :
    CondensedRun smallCondenser (fun _ => .ok "") sixAppends ∧
    ∃ summary, CondensationAction.summary (.summarizeRange 0 3 "summary" 0) = some summary ∧
      IsSummaryView smallCondenser.sizes
        (uncondensed (conversationAfter smallCondenser (fun _ => .ok "") sixAppends).history) summary
        (View.fromEvents (conversationAfter smallCondenser (fun _ => .ok "") sixAppends).history) := by
  have hrun : CondensedRun smallCondenser (fun _ => .ok "") sixAppends := by
    unfold CondensedRun
    decide
  refine ⟨hrun, ?_⟩
  exact (views_of_condensedRun smallCondenser (fun _ => .ok "") sixAppends hrun).2
    { id := 5, source := some .agent,
      body := .action (.condensation (.summarizeRange 0 3 "summary" 0)) } _ (by decide) rfl

end OpenHands
