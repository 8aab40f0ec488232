/-
# Observations without their action

The recent half that `ConversationWindowCondenser` keeps begins with the first event that is
no observation.  Observations behind it may still belong to an action before the cut: of the
actions of one response all stand before the first observation, and the cut can fall between
them.

`noOrphans_iff` says for which views this does not happen.
-/
import Mathlib.Data.List.TakeWhile
import OpenHands.ConversationWindow

namespace OpenHands

/-- The observation answers the tool call of the action. -/
def Event.AnswersCallOf (o a : Event) : Prop :=
  a.isObservation = false ∧
    ∃ m ∈ o.toolCallMetadata, ∃ m' ∈ a.toolCallMetadata, m'.toolCallId = m.toolCallId

/-- The view behind a condensation has no observation whose action was taken out of the view
before, and none of a tool call whose action it does not have. -/
structure View.NoOrphans (old new : View) : Prop where
  causes : ∀ o ∈ new.events, o.isObservation = true →
    ∀ a ∈ old.events, a.isObservation = false → o.cause = some a.id → a ∈ new.events
  calls : ∀ o ∈ new.events, o.isObservation = true → o.toolCallMetadata.isSome →
    ∃ a ∈ new.events, o.AnswersCallOf a

namespace ConversationWindowCondenser

/-! ## Where a view is cut -/

/-- The recent half of the events that are not essential, without the observations at its
start. -/
structure WindowCut (events before dangling window : List Event) : Prop where
  split : events = before ++ (dangling ++ window)
  half : ((dangling ++ window).length : ℤ)
    = max 1 (((events.length : ℤ) - (essentials events).length) / 2)
  dangling : ∀ e ∈ dangling, e.isObservation = true
  window : ∀ e ∈ window.head?, e.isObservation = false

/-- The cut separates no observation from its action, unless the action is essential. -/
def CutsNoPair (events : List Event) : Prop :=
  match firstUserMessage? events with
  | none => ∀ o ∈ events, o.isObservation = true → o.toolCallMetadata.isSome →
      ∃ a ∈ events, o.AnswersCallOf a
  | some _ => ∀ before dangling window, WindowCut events before dangling window →
      (∀ o ∈ window, o.isObservation = true → ∀ a ∈ before, a.isObservation = false →
        o.cause = some a.id → a ∈ essentials events) ∧
      ∀ o ∈ essentials events ++ window, o.isObservation = true → o.toolCallMetadata.isSome →
        ∃ a ∈ essentials events ++ window, o.AnswersCallOf a

variable {events before dangling window : List Event}

/-- The events at a cut are what the condenser keeps besides the essential ones. -/
theorem WindowCut.recentEvents_eq (h : WindowCut events before dangling window) :
    recentEvents events (essentials events).length = window := by
  have hlength := congrArg List.length h.split
  rw [List.length_append] at hlength
  have hhalf := h.half
  have hstart : (max 0 ((events.length : ℤ)
      - max 1 (((events.length : ℤ) - (essentials events).length) / 2))).toNat = before.length := by
    omega
  show (events.drop _).dropWhile Event.isObservation = window
  rw [hstart, h.split, List.drop_left, List.dropWhile_append_of_pos h.dangling]
  cases hwindow : window with
  | nil => rfl
  | cons e window' =>
      have hhead := h.window e (by rw [hwindow]; rfl)
      rw [List.dropWhile_cons_of_neg (by rw [hhead]; decide)]

/-- A system message is an action. -/
theorem isObservation_of_isSystemMessage {e : Event} (h : isSystemMessage e = true) :
    e.isObservation = false := by
  unfold isSystemMessage at h
  unfold Event.isObservation
  cases hbody : e.body with
  | action a => rfl
  | observation o =>
      rw [hbody] at h
      cases h

/-- A message of the user is an action. -/
theorem isObservation_of_isUserMessage {e : Event} (h : e.isUserMessage = true) :
    e.isObservation = false := by
  unfold Event.isUserMessage at h
  unfold Event.isObservation
  cases hbody : e.body with
  | action a => rfl
  | observation o =>
      rw [hbody] at h
      cases h

/-- A recall is an action. -/
theorem isObservation_of_isRecallOf {query : Option String} {e : Event}
    (h : isRecallOf query e = true) : e.isObservation = false := by
  unfold isRecallOf at h
  unfold Event.isObservation
  cases hbody : e.body with
  | action a => rfl
  | observation o =>
      rw [hbody] at h
      cases h

/-- An essential observation is that of the recall, which is essential too. -/
theorem cause_mem_essentials {o : Event} (ho : o ∈ essentials events)
    (hobs : o.isObservation = true) : ∃ asked ∈ essentials events, o.cause = some asked.id := by
  have hmem := ho
  unfold essentials systemMessage? firstUserMessage? at hmem
  simp only [List.mem_append, Option.mem_toList] at hmem
  rcases hmem with ((hmem | hmem) | hmem) | hmem
  · rw [isObservation_of_isSystemMessage (List.find?_some hmem)] at hobs
    cases hobs
  · rw [isObservation_of_isUserMessage (List.find?_some hmem)] at hobs
    cases hobs
  · obtain ⟨message, -, hmem⟩ := Option.bind_eq_some_iff.mp hmem
    rw [isObservation_of_isRecallOf (List.find?_some hmem)] at hobs
    cases hobs
  · obtain ⟨message, -, hmem⟩ := Option.bind_eq_some_iff.mp hmem
    obtain ⟨asked, hrecall, hmem⟩ := Option.bind_eq_some_iff.mp hmem
    have hfound := List.find?_some hmem
    simp only [isObservationOf, Bool.and_eq_true, decide_eq_true_eq] at hfound
    refine ⟨asked, ?_, hfound.2⟩
    unfold essentials
    rw [hrecall]
    simp

/-- Every view with a user message has a cut. -/
theorem exists_windowCut {message : Event} (h : firstUserMessage? events = some message) :
    ∃ before dangling window, WindowCut events before dangling window := by
  have hpos : 0 < events.length := List.length_pos_of_mem (List.mem_of_find?_eq_some h)
  obtain ⟨n, hn⟩ : ∃ n : ℕ, (n : ℤ)
      = max 1 (((events.length : ℤ) - (essentials events).length) / 2) :=
    ⟨_, Int.toNat_of_nonneg (le_max_of_le_left (by omega))⟩
  let recent := events.drop (events.length - n)
  refine ⟨events.take (events.length - n), recent.takeWhile Event.isObservation,
    recent.dropWhile Event.isObservation, ⟨?_, ?_, ?_, ?_⟩⟩
  · rw [List.takeWhile_append_dropWhile, List.take_append_drop]
  · rw [List.takeWhile_append_dropWhile, List.length_drop]
    omega
  · intro e he
    exact List.mem_takeWhile_imp he
  · intro e he
    have hne := List.head?_dropWhile_not Event.isObservation recent
    rw [Option.mem_def.mp he] at hne
    simpa using hne

/-! ## What stays of a view -/

/-- The essential and the recent events are events of the view. -/
theorem mem_of_mem_kept (hcut : WindowCut events before dangling window) {e : Event}
    (he : e ∈ essentials events ++ window) : e ∈ events := by
  rcases List.mem_append.mp he with he | he
  · exact essentials_subset events he
  · rw [hcut.split]
    exact List.mem_append_right _ (List.mem_append_right _ he)

/-- The essential and the recent events stay, and no others. -/
theorem notMem_dropped_iff {view : View} (hnodup : (view.events.map Event.id).Nodup)
    {message : Event} (hmessage : firstUserMessage? view.events = some message)
    (hcut : WindowCut view.events before dangling window) {e : Event} (he : e ∈ view.events) :
    e.id ∉ dropped view ↔ e ∈ essentials view.events ++ window := by
  have hkeep : eventsToKeep view.events message
      = (essentials view.events ++ window).map Event.id := by
    unfold eventsToKeep
    rw [essentialEvents_eq hmessage, List.length_map, hcut.recentEvents_eq, List.map_append]
  unfold dropped
  rw [hmessage]
  show e.id ∉ List.filter _ _ ↔ _
  rw [List.mem_filter, hkeep]
  constructor
  · intro hout
    have hmem : e.id ∈ (essentials view.events ++ window).map Event.id := by
      by_contra hnot
      exact hout ⟨List.mem_map_of_mem he, by simpa using hnot⟩
    obtain ⟨x, hx, hid⟩ := List.mem_map.mp hmem
    rw [← List.inj_on_of_nodup_map hnodup (mem_of_mem_kept hcut hx) he hid]
    exact hx
  · rintro hmem ⟨-, hnot⟩
    rw [decide_eq_true_eq] at hnot
    exact hnot (List.mem_map_of_mem hmem)

/-- The events that stay. -/
theorem stays_iff {view : View} (hnodup : (view.events.map Event.id).Nodup) {message : Event}
    (hmessage : firstUserMessage? view.events = some message)
    (hcut : WindowCut view.events before dangling window) (e : Event) :
    e ∈ view.events ∧ e.id ∉ dropped view ↔ e ∈ essentials view.events ++ window := by
  constructor
  · rintro ⟨he, hout⟩
    exact (notMem_dropped_iff hnodup hmessage hcut he).mp hout
  · intro he
    have hmem := mem_of_mem_kept hcut he
    exact ⟨hmem, (notMem_dropped_iff hnodup hmessage hcut hmem).mpr he⟩

/-- Of an event that is not dropped the action is not dropped. -/
structure DropsNoAction (view : View) : Prop where
  causes : ∀ o ∈ view.events, o.id ∉ dropped view → o.isObservation = true →
    ∀ a ∈ view.events, a.isObservation = false → o.cause = some a.id → a.id ∉ dropped view
  calls : ∀ o ∈ view.events, o.id ∉ dropped view → o.isObservation = true →
    o.toolCallMetadata.isSome → ∃ a ∈ view.events, a.id ∉ dropped view ∧ o.AnswersCallOf a

/-- Without a message of the user nothing is dropped. -/
theorem dropsNoAction_iff_of_none {view : View} (hmessage : firstUserMessage? view.events = none) :
    DropsNoAction view ↔ ∀ o ∈ view.events, o.isObservation = true →
      o.toolCallMetadata.isSome → ∃ a ∈ view.events, o.AnswersCallOf a := by
  have hnone : ∀ i, i ∉ dropped view := by
    unfold dropped
    rw [hmessage]
    exact fun _ => List.not_mem_nil
  constructor
  · intro h o ho hobs hcall
    obtain ⟨a, ha, -, hanswers⟩ := h.calls o ho (hnone _) hobs hcall
    exact ⟨a, ha, hanswers⟩
  · intro h
    refine ⟨fun _ _ _ _ a _ _ _ => hnone _, ?_⟩
    intro o ho _ hobs hcall
    obtain ⟨a, ha, hanswers⟩ := h o ho hobs hcall
    exact ⟨a, ha, hnone _, hanswers⟩

/-- When no action is dropped, those in front of the cut that the window needs are
essential. -/
theorem DropsNoAction.causes_essential {view : View} (h : DropsNoAction view)
    (hnodup : (view.events.map Event.id).Nodup) {message : Event}
    (hmessage : firstUserMessage? view.events = some message)
    (hcut : WindowCut view.events before dangling window) {o a : Event} (ho : o ∈ window)
    (hobs : o.isObservation = true) (ha : a ∈ before) (haction : a.isObservation = false)
    (hcause : o.cause = some a.id) : a ∈ essentials view.events := by
  have hstays := stays_iff hnodup hmessage hcut
  obtain ⟨hmem, hout⟩ := (hstays o).mpr (List.mem_append_right _ ho)
  have hamem : a ∈ view.events := by
    rw [hcut.split]
    exact List.mem_append_left _ ha
  have hastays := (hstays a).mp ⟨hamem, h.causes o hmem hout hobs a hamem haction hcause⟩
  -- an event in front of the cut is not behind it
  refine (List.mem_append.mp hastays).resolve_right fun hwindow => ?_
  have hevents : view.events.Nodup := List.Nodup.of_map _ hnodup
  rw [hcut.split, List.nodup_append] at hevents
  exact hevents.2.2 a ha a (List.mem_append_right _ hwindow) rfl

/-- The cause of an observation that stays is essential or behind the cut, when the essential
events contain what the window needs from in front of it. -/
theorem cause_mem_kept (hnodup : (events.map Event.id).Nodup)
    (hcut : WindowCut events before dangling window)
    (hcauses : ∀ o ∈ window, o.isObservation = true → ∀ a ∈ before, a.isObservation = false →
      o.cause = some a.id → a ∈ essentials events)
    {o a : Event} (ho : o ∈ essentials events ++ window) (hobs : o.isObservation = true)
    (ha : a ∈ events) (haction : a.isObservation = false) (hcause : o.cause = some a.id) :
    a ∈ essentials events ++ window := by
  rcases List.mem_append.mp ho with hess | hwindow
  · obtain ⟨asked, hrecall, hrecallCause⟩ := cause_mem_essentials hess hobs
    rw [hcause] at hrecallCause
    have heq := List.inj_on_of_nodup_map hnodup ha (essentials_subset _ hrecall)
      (Option.some.inj hrecallCause)
    rw [heq]
    exact List.mem_append_left _ hrecall
  · have hplace := ha
    rw [hcut.split, List.mem_append, List.mem_append] at hplace
    rcases hplace with hbefore | hdangling | hbehind
    · exact List.mem_append_left _ (hcauses o hwindow hobs a hbefore haction hcause)
    · rw [hcut.dangling a hdangling] at haction
      cases haction
    · exact List.mem_append_right _ hbehind

/-- The cut decides which actions are dropped. -/
theorem dropsNoAction_iff {view : View} (hnodup : (view.events.map Event.id).Nodup) :
    DropsNoAction view ↔ CutsNoPair view.events := by
  unfold CutsNoPair
  cases hmessage : firstUserMessage? view.events with
  | none => exact dropsNoAction_iff_of_none hmessage
  | some message =>
      constructor
      · intro h before dangling window hcut
        have hstays := stays_iff hnodup hmessage hcut
        refine ⟨?_, ?_⟩
        · intro o ho hobs a ha haction hcause
          exact h.causes_essential hnodup hmessage hcut ho hobs ha haction hcause
        · intro o ho hobs hcall
          obtain ⟨hmem, hout⟩ := (hstays o).mpr ho
          obtain ⟨a, ha, haout, hanswers⟩ := h.calls o hmem hout hobs hcall
          exact ⟨a, (hstays a).mp ⟨ha, haout⟩, hanswers⟩
      · intro h
        obtain ⟨before, dangling, window, hcut⟩ := exists_windowCut hmessage
        obtain ⟨hcauses, hcalls⟩ := h before dangling window hcut
        have hstays := stays_iff hnodup hmessage hcut
        refine ⟨?_, ?_⟩
        · intro o ho hout hobs a ha haction hcause
          have hkept := (hstays o).mp ⟨ho, hout⟩
          exact ((hstays a).mpr
            (cause_mem_kept hnodup hcut hcauses hkept hobs ha haction hcause)).2
        · intro o ho hout hobs hcall
          obtain ⟨a, ha, hanswers⟩ := hcalls o ((hstays o).mp ⟨ho, hout⟩) hobs hcall
          obtain ⟨hamem, haout⟩ := (hstays a).mpr ha
          exact ⟨a, hamem, haout, hanswers⟩

/-- **No observation is orphaned** exactly when the cut separates none from its action. -/
theorem noOrphans_iff (history : List Event) (e : Event) (action : CondensationAction)
    (hsorted : (history ++ [e]).Pairwise fun a b => a.id < b.id)
    (hvalid : ∀ e' ∈ history, e'.id ≠ invalidId)
    (haction : getCondensation (View.fromEvents history) = .ok action)
    (he : e.condensation? = some action) :
    View.NoOrphans (View.fromEvents history) (View.fromEvents (history ++ [e])) ↔
      CutsNoPair (View.fromEvents history).events := by
  obtain ⟨hhistory, -, hlast⟩ := List.pairwise_append.mp hsorted
  have hid : ∀ e' ∈ history, e'.id ≠ e.id := fun e' he' =>
    ne_of_lt (hlast e' he' e (List.mem_singleton_self e))
  obtain ⟨action', haction', hsummary, hforgotten⟩ :=
    getCondensation_spec (View.fromEvents history)
  rw [haction] at haction'
  cases haction'
  -- the summary has no cause and no tool call, and is no action
  have hstays : ∀ x : Event, x.cause.isSome ∨ x.toolCallMetadata.isSome ∨ x.isObservation = false →
      (x ∈ (View.fromEvents (history ++ [e])).events ↔
        x ∈ (View.fromEvents history).events ∧ x.id ∉ dropped (View.fromEvents history)) := by
    intro x hx
    rw [View.mem_fromEvents_append_iff he hsummary hid, hforgotten]
    rintro content rfl
    rcases hx with h | h | h <;> cases h
  have hnodup : (history.map Event.id).Nodup :=
    (List.pairwise_map.mpr hhistory).imp fun hlt => ne_of_lt hlt
  rw [← dropsNoAction_iff (View.nodup_fromEvents hnodup hvalid)]
  constructor
  · intro h
    refine ⟨?_, ?_⟩
    · intro o ho hout hobs a ha haction hcause
      have hnew := (hstays o (Or.inl (by rw [hcause]; rfl))).mpr ⟨ho, hout⟩
      have hanew := h.causes o hnew hobs a ha haction hcause
      exact ((hstays a (Or.inr (Or.inr haction))).mp hanew).2
    · intro o ho hout hobs hcall
      have hnew := (hstays o (Or.inr (Or.inl hcall))).mpr ⟨ho, hout⟩
      obtain ⟨a, ha, hanswers⟩ := h.calls o hnew hobs hcall
      obtain ⟨hamem, haout⟩ := (hstays a (Or.inr (Or.inr hanswers.1))).mp ha
      exact ⟨a, hamem, haout, hanswers⟩
  · intro h
    refine ⟨?_, ?_⟩
    · intro o ho hobs a ha haction hcause
      obtain ⟨hmem, hout⟩ := (hstays o (Or.inl (by rw [hcause]; rfl))).mp ho
      exact (hstays a (Or.inr (Or.inr haction))).mpr
        ⟨ha, h.causes o hmem hout hobs a ha haction hcause⟩
    · intro o ho hobs hcall
      obtain ⟨hmem, hout⟩ := (hstays o (Or.inr (Or.inl hcall))).mp ho
      obtain ⟨a, ha, haout, hanswers⟩ := h.calls o hmem hout hobs hcall
      exact ⟨a, (hstays a (Or.inr (Or.inr hanswers.1))).mpr ⟨ha, haout⟩, hanswers⟩

/-! ## Two commands -/

/-- A command of the agent. -/
def commandOf (id : ℤ) (toolCallId : String) : Event where
  id := id
  source := some .agent
  toolCallMetadata := some ⟨"execute_bash", toolCallId, "response", 2⟩
  body := .action (.run { cls := .cmdRun false, input := "ls" })

/-- The output of a command. -/
def outputOf (id cause : ℤ) (toolCallId : String) : Event where
  id := id
  source := some .environment
  cause := some cause
  toolCallMetadata := some ⟨"execute_bash", toolCallId, "response", 2⟩
  body := .observation ⟨"", .cmdOutput "ls" false⟩

/-- A message. -/
def messageOf (id : ℤ) (source : EventSource) : Event where
  id := id
  source := some source
  body := .action (.message { content := "" })

/-- The event that forgets a range. -/
def forgetEvent (id first last : ℤ) : Event where
  id := id
  source := some .agent
  body := .action (.condensation (.forgetRange first last))

/-- Two commands one after the other. -/
def commandsInTurn : List Event :=
  [messageOf 0 .user, commandOf 1 "call_1", outputOf 2 1 "call_1", commandOf 3 "call_2",
    outputOf 4 3 "call_2"]

/-- Two commands of one response, behind two messages of the agent. -/
def parallelCommands : List Event :=
  [messageOf 0 .user, messageOf 1 .agent, messageOf 2 .agent, commandOf 3 "call_1",
    commandOf 4 "call_2", outputOf 5 3 "call_1", outputOf 6 4 "call_2"]

/-- The cut in front of the second command separates nothing. -/
theorem cutsNoPair_commandsInTurn :
    View.NoOrphans (View.fromEvents commandsInTurn)
        (View.fromEvents (commandsInTurn ++ [forgetEvent 5 1 2])) ∧
      CutsNoPair (View.fromEvents commandsInTurn).events := by
  have hno : View.NoOrphans (View.fromEvents commandsInTurn)
      (View.fromEvents (commandsInTurn ++ [forgetEvent 5 1 2])) := by
    refine ⟨by decide, ?_⟩
    intro o ho hobs _
    have hout : ∀ o ∈ (View.fromEvents (commandsInTurn ++ [forgetEvent 5 1 2])).events,
        o.isObservation = true → o = outputOf 4 3 "call_2" := by
      decide
    rw [hout o ho hobs]
    exact ⟨commandOf 3 "call_2", by decide, rfl, _, rfl, _, rfl, rfl⟩
  exact ⟨hno, (noOrphans_iff commandsInTurn (forgetEvent 5 1 2) (.forgetRange 1 2) (by decide)
    (by decide) rfl rfl).mp hno⟩

/-- The cut between the commands of one response leaves the output of the first alone. -/
theorem orphaned_parallelCommands :
    getCondensation (View.fromEvents parallelCommands) = .ok (.forgetRange 1 3) ∧
      (View.fromEvents (parallelCommands ++ [forgetEvent 7 1 3])).events
        = [messageOf 0 .user, commandOf 4 "call_2", outputOf 5 3 "call_1",
          outputOf 6 4 "call_2"] ∧
      ¬ ∀ (history : List Event) (e : Event) (action : CondensationAction),
        (history ++ [e]).Pairwise (fun a b => a.id < b.id) →
        (∀ e' ∈ history, e'.id ≠ invalidId) →
        getCondensation (View.fromEvents history) = .ok action →
        e.condensation? = some action →
        View.NoOrphans (View.fromEvents history) (View.fromEvents (history ++ [e])) := by
  refine ⟨rfl, by decide, ?_⟩
  intro hall
  have hno := hall parallelCommands (forgetEvent 7 1 3) (.forgetRange 1 3) (by decide) (by decide)
    rfl rfl
  have hlost := hno.causes (outputOf 5 3 "call_1") (by decide) rfl (commandOf 3 "call_1")
    (by decide) rfl rfl
  exact absurd hlost (by decide)

end ConversationWindowCondenser

end OpenHands
