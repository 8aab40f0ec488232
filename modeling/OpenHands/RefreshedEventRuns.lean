/-
# Callbacks that are skipped

When the task that has saved an event raises before it runs the callbacks, the later polls
find the file and skip them for ever.

  * `laterPollHandles_steps_iff` — later polls handle every event they fetch exactly as long
    as no step loses one;
  * `exists_undisturbed` — `refreshConversation` is what the steps of one poll do when no
    other task comes in between;
  * `not_laterPollHandles_failedQuery` — a query of the callbacks that raises.
-/
import OpenHands.RefreshedEventSteps

namespace OpenHands.RefreshedEvents

namespace World

variable {server : AgentServer} {w w' : World} {i : ℕ} {event : EventId}

/-! ## The poll that nothing disturbs -/

/-- The loop over the items saves those that are not found, which are the ones to process. -/
theorem checkItems_spec (items : List EventId) : ∀ {w : World}, Named server w →
    Named server (checkItems server items w).1 ∧
      (checkItems server items w).1.tasks = w.tasks ∧
      (checkItems server items w).1.runs = w.runs ∧
      (∀ x, (checkItems server items w).1.getEvent x = true ↔
        w.getEvent x = true ∨ x ∈ items) ∧
      ∀ x, x ∈ (checkItems server items w).2 ↔ x ∈ items ∧ ¬ w.getEvent x = true := by
  induction items with
  | nil => exact fun h => ⟨h, rfl, rfl, by simp [checkItems], by simp [checkItems]⟩
  | cons event items ih =>
      intro w h
      unfold checkItems
      split_ifs with hfound
      · obtain ⟨hnamed, htasks, hruns, hget, hprocess⟩ := ih h
        refine ⟨hnamed, htasks, hruns, fun x => ?_, fun x => ?_⟩
        · rw [hget, List.mem_cons]
          grind
        · rw [hprocess, List.mem_cons]
          grind
      · obtain ⟨hnamed, htasks, hruns, hget, hprocess⟩ := ih (h.saveEvent event true)
        refine ⟨hnamed, htasks, hruns, fun x => ?_, fun x => ?_⟩
        · rw [hget, getEvent_saveEvent h, List.mem_cons]
          grind
        · rw [List.mem_cons, hprocess, getEvent_saveEvent h, List.mem_cons]
          grind

theorem foldl_executeCallbacks (server : AgentServer) (toProcess : List EventId) : ∀ w : World,
    (toProcess.foldl (executeCallbacks server) w).files = w.files ∧
      (toProcess.foldl (executeCallbacks server) w).tasks = w.tasks ∧
      ∀ x, (toProcess.foldl (executeCallbacks server) w).Ran server x ↔
        w.Ran server x ∨ x ∈ toProcess := by
  induction toProcess with
  | nil => exact fun w => ⟨rfl, rfl, by simp⟩
  | cons event toProcess ih =>
      intro w
      obtain ⟨hfiles, htasks, hran⟩ := ih (w.executeCallbacks server event)
      refine ⟨hfiles, htasks, fun x => ?_⟩
      rw [List.foldl_cons, hran, ran_executeCallbacks, List.mem_cons, or_assoc]

/-- What is found and what has been run after a page. -/
theorem refreshPage_spec (h : Named server w) (items : List EventId) :
    Named server (w.refreshPage server items) ∧
      (w.refreshPage server items).tasks = w.tasks ∧
      (∀ x, (w.refreshPage server items).getEvent x = true ↔
        w.getEvent x = true ∨ x ∈ items) ∧
      ∀ x, (w.refreshPage server items).Ran server x ↔
        w.Ran server x ∨ x ∈ items ∧ ¬ w.getEvent x = true := by
  obtain ⟨hnamed, htasks, hruns, hget, hprocess⟩ := checkItems_spec items h
  obtain ⟨hfiles, htasks', hran⟩ :=
    foldl_executeCallbacks server (checkItems server items w).2
      (checkItems server items w).1
  have hran' : ∀ x, (checkItems server items w).1.Ran server x ↔ w.Ran server x := by
    intro x
    unfold Ran
    rw [hruns]
  unfold refreshPage
  refine ⟨?_, htasks'.trans htasks, fun x => ?_, fun x => ?_⟩
  · unfold Named
    rw [hfiles]
    exact hnamed
  · rw [← hget]
    unfold getEvent
    rw [hfiles]
  · rw [hran, hran', hprocess]

/-- What is found and what has been run after all pages. -/
theorem refreshConversation_spec (pages : List (List EventId)) : ∀ {w : World},
    Named server w →
    Named server (w.refreshConversation server pages) ∧
      (∀ x, (w.refreshConversation server pages).getEvent x = true ↔
        w.getEvent x = true ∨ ∃ items ∈ pages, x ∈ items) ∧
      ∀ x, (w.refreshConversation server pages).Ran server x ↔
        w.Ran server x ∨ (∃ items ∈ pages, x ∈ items) ∧ ¬ w.getEvent x = true := by
  induction pages with
  | nil => exact fun h => ⟨h, by simp [refreshConversation], by simp [refreshConversation]⟩
  | cons items pages ih =>
      intro w h
      obtain ⟨hnamed, -, hget, hran⟩ := refreshPage_spec h items
      obtain ⟨hnamed', hget', hran'⟩ := ih hnamed
      refine ⟨hnamed', fun x => ?_, fun x => ?_⟩
      · change ((w.refreshPage server items).refreshConversation server pages).getEvent x = true
          ↔ _
        rw [hget', hget, List.exists_mem_cons_iff, or_assoc]
      · change ((w.refreshPage server items).refreshConversation server pages).Ran server x ↔ _
        rw [hran', hran, hget, List.exists_mem_cons_iff]
        grind

/-- **Later polls handle what they fetch** exactly when no event is orphaned. -/
theorem laterPollHandles_iff (h : Named server w) :
    w.LaterPollHandles server ↔ (w.duties server).NoOrphan := by
  constructor
  · intro hpoll event hmarked
    -- a poll that fetches the event alone, and finds it
    obtain ⟨-, -, hran⟩ := refreshConversation_spec [[event]] h
    rcases (hpoll [[event]] _ List.mem_cons_self event List.mem_cons_self).ran with hdone | hheld
    · rcases (hran event).mp hdone with hdone | ⟨-, hunmarked⟩
      · exact Or.inl hdone
      · exact absurd hmarked hunmarked
    · exact Or.inr hheld
  · intro hnone pages items hitems event hevent
    obtain ⟨hnamed, hget, hran⟩ := refreshConversation_spec pages h
    have hfetched : ∃ items ∈ pages, event ∈ items := ⟨items, hitems, hevent⟩
    have hfound := (hget event).mpr (Or.inr hfetched)
    refine ⟨filter_keys_of_getEvent hnamed hfound, hfound, ?_⟩
    by_cases hmarked : w.getEvent event = true
    · rcases hnone event hmarked with hdone | hheld
      · exact Or.inl ((hran event).mpr (Or.inl hdone))
      · exact Or.inr hheld
    · exact Or.inl ((hran event).mpr (Or.inr ⟨hfetched, hmarked⟩))

/-! ## The steps of an undisturbed poll -/

/-- A step of the poll `i` that does not raise. -/
def Move.OfPoll (i : ℕ) : Move → Prop
  | .refresh j | .page j _ _ | .returns j => j = i
  | _ => False

/-- Steps of the poll `i` lead from one state to the other. -/
def PollReaches (server : AgentServer) (i : ℕ) (w w' : World) : Prop :=
  ∃ moves : List Move, (∀ move ∈ moves, move.OfPoll i) ∧
    Run.run (perform server) w moves = w'

theorem PollReaches.refl (w : World) : PollReaches server i w w :=
  ⟨[], fun _ h => (nomatch h), rfl⟩

theorem PollReaches.step {w'' : World} (move : Move) (hmove : move.OfPoll i)
    (hstep : w.perform server move = w') (h : PollReaches server i w' w'') :
    PollReaches server i w w'' := by
  obtain ⟨moves, hmoves, rfl⟩ := h
  refine ⟨move :: moves, List.forall_mem_cons.mpr ⟨hmove, hmoves⟩, ?_⟩
  rw [Run.run_cons, hstep]

theorem PollReaches.trans {w'' : World} (h : PollReaches server i w w')
    (h' : PollReaches server i w' w'') : PollReaches server i w w'' := by
  obtain ⟨moves, hmoves, rfl⟩ := h
  obtain ⟨moves', hmoves', rfl⟩ := h'
  refine ⟨moves ++ moves', List.forall_mem_append.mpr ⟨hmoves, hmoves'⟩, ?_⟩
  exact List.foldl_append

@[simp] theorem goOn_goOn (task task' : Option Task) :
    (w.goOn i task).goOn i task' = w.goOn i task' := by
  unfold goOn
  simp only [Function.update_idem]

/-- The next call of the poll returns. -/
theorem perform_returns (task : Task) :
    (w.goOn i (some task)).perform server (.returns i)
      = (w.goOn i (some task)).advance server i task := by
  dsimp only [perform]
  have htask : (w.goOn i (some task)).tasks i = some task := Function.update_self ..
  rw [htask]

theorem reaches_checkItems (items : List EventId) :
    ∀ (w : World) (toProcess : List EventId) (nextPageId : Option String),
      PollReaches server i (w.goOn i (some (.checking items toProcess nextPageId)))
        ((checkItems server items w).1.goOn i
          (some (.executing (toProcess ++ (checkItems server items w).2) nextPageId))) := by
  induction items with
  | nil =>
      intro w toProcess nextPageId
      refine .step (.returns i) rfl (perform_returns _) ?_
      dsimp only [advance, checkItems]
      rw [goOn_goOn, List.append_nil]
      exact .refl _
  | cons event items ih =>
      intro w toProcess nextPageId
      refine .step (.returns i) rfl (perform_returns _) ?_
      dsimp only [advance, checkItems]
      rw [getEvent_goOn, goOn_goOn]
      split_ifs with hfound
      · exact ih w toProcess nextPageId
      · -- the save is a step of its own
        rw [goOn_goOn]
        refine .step (.returns i) rfl (perform_returns _) ?_
        have hsaved := ih (w.saveEvent server event true) (toProcess ++ [event]) nextPageId
        rw [List.append_assoc, List.singleton_append] at hsaved
        have hgoOn : ((w.goOn i (some (.saving event items toProcess nextPageId))).saveEvent server
            event true).goOn i (some (.checking items (toProcess ++ [event]) nextPageId))
            = (w.saveEvent server event true).goOn i
              (some (.checking items (toProcess ++ [event]) nextPageId)) := by
          unfold goOn World.saveEvent
          simp only [Function.update_idem]
        dsimp only [advance]
        rw [hgoOn]
        exact hsaved

theorem reaches_executeCallbacks (toProcess : List EventId) :
    ∀ (w : World) (nextPageId : Option String),
      PollReaches server i (w.goOn i (some (.executing toProcess nextPageId)))
        ((toProcess.foldl (executeCallbacks server) w).goOn i
          (some (.executing [] nextPageId))) := by
  induction toProcess with
  | nil => exact fun w nextPageId => .refl _
  | cons event toProcess ih =>
      intro w nextPageId
      refine .step (.returns i) rfl (perform_returns _) ?_
      have hgoOn : ((w.goOn i (some (.executing (event :: toProcess) nextPageId))).executeCallbacks
          server event).goOn i (some (.executing toProcess nextPageId))
          = (w.executeCallbacks server event).goOn i
            (some (.executing toProcess nextPageId)) := by
        unfold goOn executeCallbacks
        simp only [Function.update_idem]
      dsimp only [advance]
      rw [hgoOn]
      exact ih (w.executeCallbacks server event) nextPageId

/-- A page is requested, and worked off. -/
theorem reaches_refreshPage (w : World) (items : List EventId)
    (pageId nextPageId : Option String) :
    PollReaches server i (w.goOn i (some (.fetching pageId)))
      ((w.refreshPage server items).goOn i (some (.executing [] nextPageId))) := by
  have hpage : (w.goOn i (some (.fetching pageId))).perform server (.page i items nextPageId)
      = w.goOn i (some (.checking items [] nextPageId)) := by
    have htask : (w.goOn i (some (.fetching pageId))).tasks i = some (.fetching pageId) :=
      Function.update_self ..
    dsimp only [perform]
    rw [htask]
    exact goOn_goOn _ _
  refine .step (.page i items nextPageId) rfl hpage ?_
  exact (reaches_checkItems items w [] nextPageId).trans (reaches_executeCallbacks _ _ nextPageId)

theorem reaches_refreshConversation (pages : List (List EventId)) :
    ∀ (w : World) (items : List EventId) (pageId : Option String),
      PollReaches server i (w.goOn i (some (.fetching pageId)))
        ((w.refreshConversation server (items :: pages)).goOn i none) := by
  induction pages with
  | nil =>
      intro w items pageId
      refine (reaches_refreshPage w items pageId none).trans ?_
      refine .step (.returns i) rfl (perform_returns _) ?_
      dsimp only [advance]
      rw [goOn_goOn]
      exact .refl _
  | cons next pages ih =>
      intro w items pageId
      -- there is another page behind this one
      refine (reaches_refreshPage w items pageId (some "")).trans ?_
      refine .step (.returns i) rfl (perform_returns _) ?_
      dsimp only [advance]
      rw [goOn_goOn]
      exact ih (w.refreshPage server items) next (some "")

theorem tasks_checkItems (server : AgentServer) (items : List EventId) :
    ∀ w : World, (checkItems server items w).1.tasks = w.tasks := by
  induction items with
  | nil => exact fun _ => rfl
  | cons event items ih =>
      intro w
      unfold checkItems
      split_ifs
      · exact ih w
      · exact ih (w.saveEvent server event true)

theorem tasks_refreshConversation (server : AgentServer) (pages : List (List EventId)) :
    ∀ w : World, (w.refreshConversation server pages).tasks = w.tasks := by
  induction pages with
  | nil => exact fun _ => rfl
  | cons items pages ih =>
      intro w
      have hpage : (w.refreshPage server items).tasks = w.tasks := by
        unfold refreshPage
        rw [← tasks_checkItems server items w]
        exact (foldl_executeCallbacks server _ _).2.1
      exact (ih (w.refreshPage server items)).trans hpage

/-- **`refreshConversation` is a poll of its own**: it is what the steps of one task do when
no other step comes in between. -/
theorem exists_undisturbed (htask : w.tasks i = none) (items : List EventId)
    (pages : List (List EventId)) :
    PollReaches server i w (w.refreshConversation server (items :: pages)) := by
  have hstart : w.perform server (.refresh i) = w.goOn i (some .starting) := if_pos htask
  refine .step (.refresh i) rfl hstart ?_
  refine .step (.returns i) rfl (perform_returns _) ?_
  dsimp only [advance]
  rw [goOn_goOn]
  have hended : (w.refreshConversation server (items :: pages)).goOn i none
      = w.refreshConversation server (items :: pages) := by
    have htasks := tasks_refreshConversation server (items :: pages) w
    have hnone : (w.refreshConversation server (items :: pages)).tasks i = none := by
      rw [htasks, htask]
    unfold goOn
    rw [← hnone, Function.update_eq_self]
  rw [← hended]
  exact reaches_refreshConversation pages w items none

/-! ## Runs -/

/-- No file and no task, with a table of callbacks. -/
def start (callbacks : List StoredEventCallback) : World := { callbacks := callbacks }

/-- **Later polls handle what they fetch**, at every step of a run, exactly when no step loses
an event. -/
theorem laterPollHandles_steps_iff (server : AgentServer) (callbacks : List StoredEventCallback)
    (moves : List Move) :
    (∀ p ∈ Run.steps (perform server) (start callbacks) moves,
      (p.1.perform server p.2).LaterPollHandles server) ↔
      ∀ p ∈ Run.steps (perform server) (start callbacks) moves, NothingLost server p.1 p.2 := by
  refine Run.forall_steps_iff (I := fun w => Named server w ∧ (w.duties server).NoOrphan)
    (P := fun w move => (w.perform server move).LaterPollHandles server) (C := NothingLost server)
    ?_ ?_ ?_
  · rintro w move ⟨hnamed, hnone⟩
    rw [laterPollHandles_iff (hnamed.perform move), noOrphan_perform_iff hnamed hnone]
  · rintro w move ⟨hnamed, hnone⟩ hlost
    exact ⟨hnamed.perform move, (noOrphan_perform_iff hnamed hnone move).mpr hlost⟩
  · refine ⟨fun name hname => (nomatch hname), fun event hmarked => ?_⟩
    cases hmarked

end World

/-! ## A query that raises -/

/-- An agent server, with one event. -/
def oneEvent : AgentServer := ⟨"c1", fun _ => "20250101120000", fun _ => "MessageEvent"⟩

/-- A callback for all events. -/
def titleCallback : StoredEventCallback := { id := "set-title" }

/-- A poll saves the event, and the query of the callbacks raises. -/
def failedQuery : List World.Move :=
  [.refresh 0, .returns 0, .page 0 ["e1"] none, .returns 0, .returns 0, .returns 0,
    .raises 0 false]

/-- The later polls find the event, and do not run its callbacks. -/
theorem not_laterPollHandles_failedQuery :
    ¬ (Run.run (World.perform oneEvent) (World.start [titleCallback]) failedQuery).LaterPollHandles
      oneEvent := by
  intro h
  have hruns : ((Run.run (World.perform oneEvent) (World.start [titleCallback])
      failedQuery).refreshConversation oneEvent [["e1"]]).runs = [] := by decide
  -- the poll was the only task
  have hother : ∀ i, i ≠ 0 → "e1" ∉ (Run.run (World.perform oneEvent)
      (World.start [titleCallback]) failedQuery).toRun i := by
    intro i hi
    refine Run.run_invariant (I := fun w : World => "e1" ∉ w.toRun i)
      (C := fun _ move => World.Move.task? move = some 0) (fun w move hw hmove hheld => ?_)
      (fun hheld => (nomatch hheld)) (by decide)
    exact hw (((World.stepOf_perform hmove).holds i hi "e1").mp hheld)
  rcases (h [["e1"]] ["e1"] List.mem_cons_self "e1" List.mem_cons_self).ran with
    ⟨run, hrun, -⟩ | ⟨i, hi⟩
  · rw [hruns] at hrun
    cases hrun
  · by_cases hi0 : i = 0
    · rw [hi0] at hi
      exact absurd hi (by decide)
    · exact hother i hi0 hi

end OpenHands.RefreshedEvents
