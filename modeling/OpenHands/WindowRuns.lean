/-
# Conversations that are condensed again and again

Events are appended to a history, and `ConversationWindowCondenser` answers an unhandled
condensation request; its action is appended as well.  A later condensation works on a view
that earlier ones have left gaps in.

The essential events are found again in such a view (`essentials_filter`), so that they are
never dropped, and each condensation takes out of the view what the condenser chose to drop
and nothing else (`window_run`).
-/
import OpenHands.Lib.Run
import OpenHands.ConversationWindow

namespace OpenHands.ConversationWindowCondenser

open FirstFound

variable {events history : List Event} {e x : Event}

/-! ## The essential events of a part of a history -/

section Filter

variable {q : Event → Bool}

/-- The first recall is found behind the first user message, which the filter passes. -/
theorem firstRecall?_filter (huser : ∀ x ∈ firstUserMessage? events, q x = true)
    (hrecall : ∀ x ∈ firstRecall? events, q x = true) :
    firstRecall? (events.filter q) = firstRecall? events := by
  have hsame : firstUserMessage? (events.filter q) = firstUserMessage? events :=
    find?_filter_eq huser
  unfold firstRecall? at hrecall ⊢
  rw [hsame, behind_filter huser]
  cases hmessage : firstUserMessage? events with
  | none => rfl
  | some message =>
      rw [hmessage] at hrecall
      exact find?_filter_eq hrecall

/-- Its observation is found behind the recall. -/
theorem recallObservation?_filter (huser : ∀ x ∈ firstUserMessage? events, q x = true)
    (hrecall : ∀ x ∈ firstRecall? events, q x = true)
    (hobservation : ∀ x ∈ recallObservation? events, q x = true) :
    recallObservation? (events.filter q) = recallObservation? events := by
  have hsame : firstUserMessage? (events.filter q) = firstUserMessage? events :=
    find?_filter_eq huser
  have hsameRecall := firstRecall?_filter huser hrecall
  unfold recallObservation? at hobservation ⊢
  rw [hsame, hsameRecall, behind_filter huser]
  cases hmessage : firstUserMessage? events with
  | none => rfl
  | some message =>
      cases hfound : firstRecall? events with
      | none => rfl
      | some asked =>
          rw [hmessage, hfound] at hobservation
          -- the recall is the first one behind the message, and the filter passes it
          have hrecallKept : ∀ x ∈ (behind Event.isUserMessage events).find?
              (isRecallOf (messageContent message)), q x = true := by
            unfold firstRecall? at hrecall
            rw [hmessage] at hrecall
            exact hrecall
          show List.find? _ (behind _ ((behind _ events).filter q)) = _
          rw [behind_filter hrecallKept]
          exact find?_filter_eq hobservation

/-- A filter that the essential events pass does not change them. -/
theorem essentials_filter (h : ∀ x ∈ essentials events, q x = true) :
    essentials (events.filter q) = essentials events := by
  simp only [essentials, List.mem_append, Option.mem_toList] at h
  have hsystem : systemMessage? (events.filter q) = systemMessage? events :=
    find?_filter_eq fun x hx => h x (Or.inl (Or.inl (Or.inl hx)))
  have huserKept : ∀ x ∈ firstUserMessage? events, q x = true := fun x hx =>
    h x (Or.inl (Or.inl (Or.inr hx)))
  have hrecallKept : ∀ x ∈ firstRecall? events, q x = true := fun x hx =>
    h x (Or.inl (Or.inr hx))
  have huser : firstUserMessage? (events.filter q) = firstUserMessage? events :=
    find?_filter_eq huserKept
  unfold essentials
  rw [hsystem, huser, firstRecall?_filter huserKept hrecallKept,
    recallObservation?_filter huserKept hrecallKept fun x hx => h x (Or.inr hx)]

end Filter

/-! ## The essential events of a longer history -/

/-- The event is of a kind that the condenser looks for. -/
def IsSought (e : Event) : Prop :=
  isSystemMessage e = true ∨ e.isUserMessage = true ∨ (∃ query, isRecallOf query e = true) ∨
    e.isObservation = true

/-- What the condenser looks for is neither a condensation nor a request for one. -/
theorem IsSought.ordinary (h : IsSought e) :
    e.condensation? = none ∧ e.isCondensationRequest = false := by
  unfold IsSought isSystemMessage Event.isUserMessage isRecallOf Event.isObservation at h
  unfold Event.condensation? Event.isCondensationRequest
  cases hbody : e.body with
  | observation o => exact ⟨rfl, rfl⟩
  | action a =>
      rw [hbody] at h
      cases a <;> simp_all

/-- The first user message stays the first. -/
theorem firstUserMessage?_append (h : firstUserMessage? events = some x) :
    firstUserMessage? (events ++ [e]) = some x := by
  unfold firstUserMessage? at h ⊢
  rw [find?_append_singleton, h, Option.some_or]

/-- A recall is looked for behind the same message. -/
theorem firstRecall?_append {message : Event} (h : firstUserMessage? events = some message) :
    firstRecall? (events ++ [e])
      = (firstRecall? events).or (if isRecallOf (messageContent message) e then some e else none) := by
  have huser : (events.find? Event.isUserMessage).isSome := by
    rw [show events.find? Event.isUserMessage = some message from h]
    rfl
  unfold firstRecall?
  rw [firstUserMessage?_append h, h]
  show List.find? _ (behind _ (events ++ [e])) = (List.find? _ _).or _
  rw [behind_append_of_isSome huser, find?_append_singleton]

/-- Its observation is looked for behind the same recall. -/
theorem recallObservation?_append {asked : Event} (h : firstRecall? events = some asked) :
    recallObservation? (events ++ [e])
      = (recallObservation? events).or (if isObservationOf asked e then some e else none) := by
  obtain ⟨message, hmessage, hfind⟩ := Option.bind_eq_some_iff.mp h
  have huser : (events.find? Event.isUserMessage).isSome := by
    rw [show events.find? Event.isUserMessage = some message from hmessage]
    rfl
  unfold recallObservation?
  rw [firstUserMessage?_append hmessage, firstRecall?_append hmessage, h, hmessage]
  show List.find? _ (behind _ (behind _ (events ++ [e]))) = (List.find? _ _).or _
  rw [behind_append_of_isSome huser, behind_append_of_isSome (by rw [hfind]; rfl),
    find?_append_singleton]

/-- A recall that is the last event has no observation yet. -/
theorem recallObservation?_append_of_none (h : firstRecall? events = none) :
    recallObservation? (events ++ [e]) = none := by
  by_contra hsome
  obtain ⟨x, hx⟩ := Option.ne_none_iff_exists'.mp hsome
  obtain ⟨message, hmessage, hrest⟩ := Option.bind_eq_some_iff.mp hx
  obtain ⟨asked, -, hfind⟩ := Option.bind_eq_some_iff.mp hrest
  cases huser : firstUserMessage? events with
  | none =>
      rw [behind_append_of_none huser] at hfind
      cases hfind
  | some first =>
      rw [firstUserMessage?_append huser] at hmessage
      cases hmessage
      have hnone : (behind Event.isUserMessage events).find?
          (isRecallOf (messageContent message)) = none := by
        unfold firstRecall? at h
        rw [huser] at h
        exact h
      rw [behind_append_of_isSome
        (by rw [show events.find? Event.isUserMessage = some message from huser]; rfl),
        behind_append_of_none hnone] at hfind
      cases hfind

/-- What is essential stays so. -/
theorem mem_essentials_append (h : x ∈ essentials events) : x ∈ essentials (events ++ [e]) := by
  simp only [essentials, List.mem_append, Option.mem_toList] at h ⊢
  rcases h with ((h | h) | h) | h
  · refine Or.inl (Or.inl (Or.inl ?_))
    unfold systemMessage? at h ⊢
    rw [find?_append_singleton, h, Option.some_or]
  · exact Or.inl (Or.inl (Or.inr (firstUserMessage?_append h)))
  · obtain ⟨message, hmessage, -⟩ := Option.bind_eq_some_iff.mp h
    refine Or.inl (Or.inr ?_)
    rw [firstRecall?_append hmessage, h, Option.some_or]
  · obtain ⟨message, -, hrest⟩ := Option.bind_eq_some_iff.mp h
    obtain ⟨asked, hrecall, -⟩ := Option.bind_eq_some_iff.mp hrest
    refine Or.inr ?_
    rw [recallObservation?_append hrecall, h, Option.some_or]

theorem eq_of_mem_ite {c : Prop} [Decidable c] (h : (if c then some e else none) = some x) :
    c ∧ x = e := by
  split_ifs at h with hc
  exact ⟨hc, (Option.some.inj h).symm⟩

/-- What is essential was so before, or is the new event. -/
theorem essentials_append_cases (h : x ∈ essentials (events ++ [e])) :
    x ∈ essentials events ∨ x = e ∧ IsSought e := by
  simp only [essentials, List.mem_append, Option.mem_toList] at h ⊢
  rcases h with ((h | h) | h) | h
  · unfold systemMessage? at h ⊢
    rw [find?_append_singleton, Option.or_eq_some_iff] at h
    rcases h with h | ⟨-, h⟩
    · exact Or.inl (Or.inl (Or.inl (Or.inl h)))
    · obtain ⟨hsystem, rfl⟩ := eq_of_mem_ite h
      exact Or.inr ⟨rfl, Or.inl hsystem⟩
  · unfold firstUserMessage? at h ⊢
    rw [find?_append_singleton, Option.or_eq_some_iff] at h
    rcases h with h | ⟨-, h⟩
    · exact Or.inl (Or.inl (Or.inl (Or.inr h)))
    · obtain ⟨huser, rfl⟩ := eq_of_mem_ite h
      exact Or.inr ⟨rfl, Or.inr (Or.inl huser)⟩
  · cases hmessage : firstUserMessage? events with
    | none =>
        -- nothing is behind a user message that comes last
        obtain ⟨message, -, hfind⟩ := Option.bind_eq_some_iff.mp h
        rw [behind_append_of_none hmessage] at hfind
        cases hfind
    | some message =>
        rw [firstRecall?_append hmessage, Option.or_eq_some_iff] at h
        rcases h with h | ⟨-, h⟩
        · exact Or.inl (Or.inl (Or.inr h))
        · obtain ⟨hrecall, rfl⟩ := eq_of_mem_ite h
          exact Or.inr ⟨rfl, Or.inr (Or.inr (Or.inl ⟨_, hrecall⟩))⟩
  · cases hrecall : firstRecall? events with
    | none =>
        rw [recallObservation?_append_of_none hrecall] at h
        cases h
    | some asked =>
        rw [recallObservation?_append hrecall, Option.or_eq_some_iff] at h
        rcases h with h | ⟨-, h⟩
        · exact Or.inl (Or.inr h)
        · obtain ⟨hobservation, rfl⟩ := eq_of_mem_ite h
          simp only [isObservationOf, Bool.and_eq_true] at hobservation
          exact Or.inr ⟨rfl, Or.inr (Or.inr (Or.inr hobservation.1))⟩

/-! ## Runs -/

/-- What happens to a history: an event is appended, or the condenser answers a request; its
action is put on the stream with the id and the source of the given event. -/
inductive WindowMove where
  | append (event : Event)
  | condense (event : Event)
  deriving DecidableEq, Repr

/-- The history after a move. -/
def perform (history : List Event) : WindowMove → List Event
  | .append event => history ++ [event]
  | .condense event =>
    match getCondensation (View.fromEvents history) with
    | .ok action => history ++ [{ event with body := .action (.condensation action) }]
    | .error _ => history

/-- The ids increase; condensation actions come from the condenser only, and it is asked when
a request is unhandled. -/
def Admissible (history : List Event) : WindowMove → Prop
  | .append event => (∀ e ∈ history, e.id < event.id) ∧ event.condensation? = none
  | .condense event => (∀ e ∈ history, e.id < event.id) ∧
      shouldCondense (View.fromEvents history) = true

instance (history : List Event) (move : WindowMove) : Decidable (Admissible history move) :=
  match move with
  | .append _ => inferInstanceAs (Decidable (_ ∧ _))
  | .condense _ => inferInstanceAs (Decidable (_ ∧ _))

/-- The view behind a condensation: what the condenser chose to drop is gone and nothing else,
however the action encodes it. -/
def DropsExactly (history history' : List Event) : Prop :=
  (View.fromEvents history').events
      = (View.fromEvents history).events.filter (·.id ∉ dropped (View.fromEvents history)) ∧
    ∃ event action, history' = history ++ [event] ∧ event.condensation? = some action ∧
      ∀ i, i ∈ action.forgotten ↔ i ∈ dropped (View.fromEvents history)

/-- A history of such a run. -/
structure Inv (history : List Event) : Prop where
  sorted : history.Pairwise fun a b => a.id < b.id
  noSummary : View.lastSummary history = none
  forgotten : ∀ i ∈ View.forgottenEventIds history, ∃ e ∈ history, e.id = i
  essential : ∀ e ∈ essentials history, e.id ∉ View.forgottenEventIds history

theorem inv_nil : Inv [] where
  sorted := .nil
  noSummary := rfl
  forgotten := fun i hi => by cases hi
  essential := fun e he => by cases he

/-- The view has the kept events only. -/
theorem Inv.view_events (h : Inv history) :
    (View.fromEvents history).events = View.keptEvents history := by
  show View.insertSummary _ (View.lastSummary history) = _
  rw [h.noSummary]
  rfl

/-- The view has the essential events of the history. -/
theorem Inv.mem_view (h : Inv history) (hx : x ∈ essentials history) :
    x ∈ (View.fromEvents history).events := by
  rw [h.view_events]
  exact View.mem_keptEvents.mpr ⟨essentials_subset history hx, h.essential x hx⟩

/-- The condenser finds them there. -/
theorem Inv.essentials_view (h : Inv history) :
    essentials (View.fromEvents history).events = essentials history := by
  rw [h.view_events]
  apply essentials_filter
  intro x hx
  exact decide_eq_true (h.essential x hx)

/-- No essential event is dropped. -/
theorem Inv.essential_notMem_dropped (h : Inv history) (hx : x ∈ essentials history) :
    x.id ∉ dropped (View.fromEvents history) := by
  unfold dropped
  cases hmessage : firstUserMessage? (View.fromEvents history).events with
  | none => exact List.not_mem_nil
  | some message =>
      have hkeep : x.id ∈ eventsToKeep (View.fromEvents history).events message := by
        unfold eventsToKeep
        rw [essentialEvents_eq hmessage, h.essentials_view]
        exact List.mem_append_left _ (List.mem_map_of_mem hx)
      show x.id ∉ List.filter _ _
      rw [List.mem_filter]
      rintro ⟨-, hnot⟩
      exact of_decide_eq_true hnot hkeep

/-- What is dropped are events of the history. -/
theorem Inv.exists_of_mem_dropped (h : Inv history) {i : ℤ}
    (hi : i ∈ dropped (View.fromEvents history)) : ∃ e ∈ history, e.id = i := by
  unfold dropped at hi
  cases hmessage : firstUserMessage? (View.fromEvents history).events with
  | none =>
      rw [hmessage] at hi
      cases hi
  | some message =>
      rw [hmessage] at hi
      obtain ⟨e, he, hid⟩ := List.mem_map.mp (List.mem_of_mem_filter hi)
      rw [h.view_events] at he
      exact ⟨e, (View.mem_keptEvents.mp he).1, hid⟩

/-- An event is appended that forgets at most itself. -/
theorem Inv.append (h : Inv history) {event : Event} (hid : ∀ e ∈ history, e.id < event.id)
    (hcondensation : event.condensation? = none) : Inv (history ++ [event]) := by
  have hforgottenBy : ∀ i ∈ View.forgottenBy event,
      i = event.id ∧ event.isCondensationRequest = true := by
    intro i hi
    unfold View.forgottenBy at hi
    rw [hcondensation] at hi
    split_ifs at hi with hrequest
    · exact ⟨List.mem_singleton.mp hi, hrequest⟩
    · cases hi
  have hids : View.forgottenEventIds (history ++ [event])
      = View.forgottenEventIds history ++ View.forgottenBy event := by
    rw [View.forgottenEventIds_append, View.forgottenEventIds, View.forgottenEventIds,
      List.flatMap_singleton]
  refine ⟨pairwise_concat h.sorted hid, ?_, ?_, ?_⟩
  · rw [View.lastSummary_append_singleton, View.summaryOf_eq_none hcondensation, Option.none_or]
    exact h.noSummary
  · intro i hi
    rw [hids, List.mem_append] at hi
    rcases hi with hi | hi
    · obtain ⟨e, he, heq⟩ := h.forgotten i hi
      exact ⟨e, List.mem_append_left _ he, heq⟩
    · exact ⟨event, by simp, (hforgottenBy i hi).1.symm⟩
  · intro x hx hmem
    rw [hids, List.mem_append] at hmem
    rcases essentials_append_cases hx with hold | ⟨rfl, hsought⟩
    · rcases hmem with hmem | hmem
      · exact h.essential x hold hmem
      · exact absurd (hforgottenBy _ hmem).1 (ne_of_lt (hid x (essentials_subset _ hold)))
    · rcases hmem with hmem | hmem
      · obtain ⟨e, he, heq⟩ := h.forgotten _ hmem
        exact absurd heq (ne_of_lt (hid e he))
      · rw [hsought.ordinary.2] at hforgottenBy
        exact absurd (hforgottenBy _ hmem).2 (by decide)

/-- A condensation action is appended that forgets what the condenser drops. -/
theorem Inv.condense (h : Inv history) {event : Event} {action : CondensationAction}
    (hid : ∀ e ∈ history, e.id < event.id) (haction : event.condensation? = some action)
    (hsummary : action.summary = none)
    (hforgotten : ∀ i, i ∈ action.forgotten ↔ i ∈ dropped (View.fromEvents history)) :
    Inv (history ++ [event]) := by
  have hids : View.forgottenEventIds (history ++ [event])
      = View.forgottenEventIds history ++ (action.forgotten ++ [event.id]) := by
    rw [View.forgottenEventIds_append]
    congr 1
    rw [View.forgottenEventIds, List.flatMap_singleton, View.forgottenBy_of_condensation haction]
  -- the action forgets what is dropped, and itself
  refine ⟨pairwise_concat h.sorted hid, ?_, ?_, ?_⟩
  · rw [View.lastSummary_append_singleton, View.summaryOf_eq_none_of_summary haction hsummary,
      Option.none_or]
    exact h.noSummary
  · intro i hi
    rw [hids, List.mem_append, List.mem_append, List.mem_singleton, hforgotten] at hi
    rcases hi with hi | hi | rfl
    · obtain ⟨e, he, heq⟩ := h.forgotten i hi
      exact ⟨e, List.mem_append_left _ he, heq⟩
    · obtain ⟨e, he, heq⟩ := h.exists_of_mem_dropped hi
      exact ⟨e, List.mem_append_left _ he, heq⟩
    · exact ⟨event, by simp, rfl⟩
  · intro x hx hmem
    rw [hids, List.mem_append, List.mem_append, List.mem_singleton, hforgotten] at hmem
    rcases essentials_append_cases hx with hold | ⟨rfl, hsought⟩
    · rcases hmem with hmem | hmem | hmem
      · exact h.essential x hold hmem
      · exact h.essential_notMem_dropped hold hmem
      · exact absurd hmem (ne_of_lt (hid x (essentials_subset _ hold)))
    · rw [hsought.ordinary.1] at haction
      cases haction

/-- The action that a condensation appends. -/
theorem perform_condense (history : List Event) (event : Event) :
    ∃ action, perform history (.condense event)
        = history ++ [{ event with body := .action (.condensation action) }] ∧
      action.summary = none ∧ ∀ i, i ∈ action.forgotten ↔ i ∈ dropped (View.fromEvents history) := by
  obtain ⟨action, haction, hsummary, hforgotten⟩ := getCondensation_spec (View.fromEvents history)
  refine ⟨action, ?_, hsummary, hforgotten⟩
  show (match getCondensation (View.fromEvents history) with
    | .ok action => history ++ [{ event with body := .action (.condensation action) }]
    | .error _ => history) = _
  rw [haction]

theorem Inv.perform (h : Inv history) {move : WindowMove} (hadmissible : Admissible history move) :
    Inv (perform history move) := by
  cases move with
  | append event => exact h.append hadmissible.1 hadmissible.2
  | condense event =>
      obtain ⟨action, hperform, hsummary, hforgotten⟩ := perform_condense history event
      rw [hperform]
      exact h.condense hadmissible.1 rfl hsummary hforgotten

/-- A condensation takes out of the view what is dropped. -/
theorem Inv.dropsExactly (h : Inv history) {event : Event}
    (hid : ∀ e ∈ history, e.id < event.id) :
    DropsExactly history (ConversationWindowCondenser.perform history (.condense event)) := by
  obtain ⟨action, hperform, hsummary, hforgotten⟩ := perform_condense history event
  rw [hperform]
  refine ⟨?_, _, action, rfl, rfl, hforgotten⟩
  have hview := View.fromEvents_append_eq_condensed
    (e := { event with body := .action (.condensation action) }) rfl hsummary
    (fun e he => ne_of_lt (hid e he)) h.noSummary
  refine hview.trans ?_
  apply List.filter_congr
  intro e _
  exact decide_eq_decide.mpr (not_congr (hforgotten e.id))

/-- The essential events of an earlier history are essential. -/
theorem mem_essentials_of_earlier {history' : List Event} (hearlier : history' <+: history)
    (hx : x ∈ essentials history') : x ∈ essentials history := by
  obtain ⟨later, rfl⟩ := hearlier
  induction later using List.reverseRecOn with
  | nil =>
      rw [List.append_nil]
      exact hx
  | append_singleton later e ih =>
      rw [← List.append_assoc]
      exact mem_essentials_append ih

/-- **However often a conversation is condensed**, the view has the essential events of every
earlier history, and each condensation takes out what the condenser chose to drop. -/
theorem window_run (moves : List WindowMove)
    (hadmissible : ∀ p ∈ Run.steps perform [] moves, Admissible p.1 p.2) :
    (∀ history', history' <+: Run.run perform [] moves → ∀ e ∈ essentials history',
        e ∈ (View.fromEvents (Run.run perform [] moves)).events) ∧
      ∀ p ∈ Run.steps perform [] moves, ∀ event, p.2 = .condense event →
        DropsExactly p.1 (perform p.1 p.2) := by
  have hstep : ∀ history move, Inv history → Admissible history move →
      Inv (perform history move) := fun _ _ h hmove => h.perform hmove
  refine ⟨?_, ?_⟩
  · intro history' hearlier e he
    exact (Run.run_invariant hstep inv_nil hadmissible).mem_view (mem_essentials_of_earlier hearlier he)
  · intro p hp event hevent
    have hinv := Run.forall_steps_of_invariant hstep inv_nil hadmissible p hp
    have hmove := hadmissible p hp
    rw [hevent] at hmove ⊢
    exact hinv.dropsExactly hmove.1

/-- A task with its recall and the observation, some messages, and two requests that are answered
with a range and with a list. -/
def condensedTwice : List WindowMove :=
  [.append { id := 0, source := some .agent, body := .action (.systemMessage "system") },
    .append { id := 1, source := some .user, body := .action (.message { content := "task" }) },
    .append { id := 2, source := some .user,
              body := .action (.recall { recallType := .workspaceContext, query := "task" }) },
    .append { id := 3, cause := some 2, body := .observation ⟨"", .recall .workspaceContext⟩ },
    .append { id := 4, source := some .agent, body := .action (.message { content := "a" }) },
    .append { id := 5, source := some .agent, body := .action (.message { content := "b" }) },
    .append { id := 6, source := some .agent, body := .action (.message { content := "c" }) },
    .append { id := 7, body := .action .condensationRequest },
    .condense { id := 8, body := .action .null },
    .append { id := 9, source := some .agent, body := .action (.message { content := "d" }) },
    .append { id := 10, body := .action .condensationRequest },
    .condense { id := 11, body := .action .null }]

theorem window_condensedTwice :
    (View.fromEvents (Run.run perform [] condensedTwice)).events.map Event.id = [0, 1, 2, 3, 9] ∧
      ∀ e ∈ essentials (Run.run perform [] (condensedTwice.take 7)),
        e ∈ (View.fromEvents (Run.run perform [] condensedTwice)).events := by
  have hrun := window_run condensedTwice (by decide)
  exact ⟨by decide, hrun.1 _ (by decide)⟩

end OpenHands.ConversationWindowCondenser
