/-
# What a step of a poll or of a delivery loses

A poll takes the file of an event for the sign that its callbacks have run, so an event with
a file depends on the task that is still to run them.  `NothingLost` says when a step takes
such an event from its last task, and `noOrphan_perform_iff` that no other step leaves one
behind.
-/
import OpenHands.RefreshedEvents
import Mathlib.Data.List.Find

namespace OpenHands.RefreshedEvents

namespace World

variable {server : AgentServer} {w w' : World} {i j : ℕ} {event x : EventId}

/-! ## Files -/

/-- The files have the names of the events of the agent server. -/
def Named (server : AgentServer) (w : World) : Prop :=
  ∀ name ∈ w.files.keys, name = server.getEventFilename name.id

/-- An event is found under its name. -/
theorem getEvent_eq (h : Named server w) (event : EventId) :
    w.getEvent event = (w.files.get? (server.getEventFilename event)).getD false := by
  -- the id gives the name, so both searches stop at the same file
  have hfind : (w.files.entries.find? fun file => file.1.id = event)
      = w.files.entries.find? fun file => file.1 = server.getEventFilename event := by
    apply List.find?_congr
    intro file hfile
    have hname := h file.1 (List.mem_map_of_mem hfile)
    rw [Bool.eq_iff_iff, decide_eq_true_eq, decide_eq_true_eq]
    constructor
    · rintro rfl
      exact hname
    · intro heq
      rw [heq]
      rfl
  unfold getEvent PyDict.get?
  rw [hfind]
  cases w.files.entries.find? fun file => file.1 = server.getEventFilename event <;> rfl

theorem Named.saveEvent (h : Named server w) (event : EventId) (written : Bool) :
    Named server (w.saveEvent server event written) := by
  intro name hname
  obtain ⟨file, hfile, rfl⟩ := List.mem_map.mp hname
  rcases PyDict.mem_entries_set hfile with rfl | hfile
  · rfl
  · exact h _ (List.mem_map_of_mem hfile)

/-- A save changes what is found of its own event. -/
theorem getEvent_saveEvent (h : Named server w) (event x : EventId) (written : Bool) :
    (w.saveEvent server event written).getEvent x
      = if x = event then written else w.getEvent x := by
  rw [getEvent_eq (h.saveEvent event written), getEvent_eq h]
  unfold World.saveEvent
  rw [PyDict.get?_set]
  by_cases hx : x = event
  · rw [hx, if_pos rfl, if_pos rfl]
    rfl
  · have hname : server.getEventFilename x ≠ server.getEventFilename event := fun heq =>
      hx (congrArg EventName.id heq)
    rw [if_neg hname, if_neg hx]

/-- What is found has one file. -/
theorem filter_keys_of_getEvent (h : Named server w) (hfound : w.getEvent event = true) :
    (w.files.keys.filter fun name => name.id = event) = [server.getEventFilename event] := by
  have hfilter : (w.files.keys.filter fun name => name.id = event)
      = w.files.keys.filter fun name => name = server.getEventFilename event := by
    apply List.filter_congr
    intro name hname
    rw [Bool.eq_iff_iff, decide_eq_true_eq, decide_eq_true_eq]
    constructor
    · rintro rfl
      exact h name hname
    · rintro rfl
      rfl
  have hmem : server.getEventFilename event ∈ w.files.keys := by
    rw [getEvent_eq h] at hfound
    rw [← PyDict.isSome_get?_iff]
    cases hget : w.files.get? (server.getEventFilename event) with
    | none =>
        rw [hget] at hfound
        cases hfound
    | some written => rfl
  have hcount : w.files.keys.count (server.getEventFilename event) = 1 :=
    List.count_eq_one_of_mem w.files.nodup hmem
  rw [hfilter, List.filter_eq, hcount]
  rfl

/-! ## Duties -/

/-- An event with a file that can be read is marked: no poll will run its callbacks any more,
except those that hold it. -/
def duties (server : AgentServer) (w : World) : Duties ℕ EventId where
  marked event := w.getEvent event = true
  done := w.Ran server
  holds i event := event ∈ w.toRun i

/-- The task of a step. -/
def Move.task? : Move → Option ℕ
  | .refresh i | .page i _ _ | .returns i | .raises i _ | .onEvent i _ | .saved i _ _ => some i
  | .setCallbacks _ => none

/-- The events whose callbacks the task of a step will not run any more, as it raises: those
that a poll or a background task was still to run, but for the one that is cut off, those of a
delivery when the first of its saves raises, and those that are saved after that. -/
def Move.drops (w : World) : Move → List EventId
  | .raises i cutOff =>
    match w.tasks i with
    | some (.saving event _ toProcess _) | some (.executing (event :: toProcess) _)
    | some (.background (event :: toProcess)) =>
      if cutOff then toProcess.filter (· ≠ event) else event :: toProcess
    | some (.delivering _) | none => []
    | some task => task.toRun
  | .saved i event outcome =>
    match w.tasks i with
    | some (.delivering delivery) =>
      if event ∉ delivery.left then []
      else
        match outcome, delivery.failed with
        | .returns, true => [event]
        | .raises, false => delivery.events
        | .cutOff, false => delivery.events.filter (· ≠ event)
        | _, _ => []
    | _ => []
  | _ => []

/-- The event has a file that can be read, or gets one by the step. -/
def Move.Saved (w : World) (move : Move) (event : EventId) : Prop :=
  w.getEvent event = true ∨ ∃ i, move = .saved i event .returns

/-- The step loses no event: those that its task drops have no file that can be read, or
their callbacks have been run, or another task holds them. -/
def NothingLost (server : AgentServer) (w : World) (move : Move) : Prop :=
  ∀ event ∈ move.drops w, move.Saved w event →
    w.Ran server event ∨ ∃ j, move.task? ≠ some j ∧ event ∈ w.toRun j

@[simp] theorem getEvent_goOn (task : Option Task) :
    (w.goOn i task).getEvent event = w.getEvent event := rfl

@[simp] theorem getEvent_executeCallbacks :
    (w.executeCallbacks server event).getEvent x = w.getEvent x := rfl

@[simp] theorem ran_goOn (task : Option Task) :
    (w.goOn i task).Ran server event ↔ w.Ran server event :=
  Iff.rfl

@[simp] theorem ran_saveEvent (written : Bool) :
    (w.saveEvent server event written).Ran server x ↔ w.Ran server x := Iff.rfl

@[simp] theorem ran_executeCallbacks :
    (w.executeCallbacks server event).Ran server x ↔ w.Ran server x ∨ x = event := by
  unfold Ran executeCallbacks
  constructor
  · rintro ⟨run, hrun, rfl, hall⟩
    rcases List.mem_append.mp hrun with hrun | hrun
    · exact Or.inl ⟨run, hrun, rfl, hall⟩
    · rw [List.mem_singleton.mp hrun]
      exact Or.inr rfl
  · rintro (⟨run, hrun, hevent, hall⟩ | rfl)
    · exact ⟨run, List.mem_append_left _ hrun, hevent, hall⟩
    · exact ⟨_, List.mem_append_right _ (List.mem_singleton_self _), rfl,
        fun row hrow hselects => List.mem_filter.mpr ⟨hrow, hselects⟩⟩

@[simp] theorem toRun_saveEvent (written : Bool) :
    (w.saveEvent server event written).toRun j = w.toRun j := rfl

@[simp] theorem toRun_executeCallbacks :
    (w.executeCallbacks server event).toRun j = w.toRun j := rfl

@[simp] theorem toRun_goOn_self (task : Option Task) :
    (w.goOn i task).toRun i = (task.map Task.toRun).getD [] := by
  unfold toRun goOn
  simp only [Function.update_self]

theorem toRun_goOn_of_ne (task : Option Task) (h : j ≠ i) :
    (w.goOn i task).toRun j = w.toRun j := by
  unfold toRun goOn
  simp only [Function.update_of_ne h]

theorem toRun_of_task {task : Task} (h : w.tasks i = some task) : w.toRun i = task.toRun := by
  unfold toRun
  rw [h]
  rfl

theorem toRun_of_none (h : w.tasks i = none) : w.toRun i = [] := by
  unfold toRun
  rw [h]
  rfl

theorem stepOf_self (w : World) (i : ℕ) : Duties.StepOf i (w.duties server) (w.duties server) :=
  ⟨fun _ h => h, fun _ _ _ => Iff.rfl⟩

/-- A task that goes on leaves the other tasks as they are. -/
theorem stepOf_goOn (task : Option Task) (hran : ∀ x, w.Ran server x → w'.Ran server x)
    (htoRun : ∀ j, w'.toRun j = w.toRun j) :
    Duties.StepOf i (w.duties server) ((w'.goOn i task).duties server) := by
  refine ⟨hran, fun j hj x => ?_⟩
  show x ∈ (w'.goOn i task).toRun j ↔ x ∈ w.toRun j
  rw [toRun_goOn_of_ne task hj, htoRun]

theorem stepOf_advance (w : World) (i : ℕ) (task : Task) :
    Duties.StepOf i (w.duties server) ((w.advance server i task).duties server) := by
  unfold advance
  have hexecute (event x : EventId) (h : w.Ran server x) :
      (w.executeCallbacks server event).Ran server x :=
    ran_executeCallbacks.mpr (Or.inl h)
  split
  · exact stepOf_goOn _ (fun _ h => h) fun _ => rfl
  · split_ifs <;> exact stepOf_goOn _ (fun _ h => h) fun _ => rfl
  · exact stepOf_goOn _ (fun _ h => h) fun _ => rfl
  · exact stepOf_goOn _ (fun _ h => h) fun _ => rfl
  · exact stepOf_goOn _ (hexecute _) fun _ => rfl
  · exact stepOf_goOn _ (fun _ h => h) fun _ => rfl
  · exact stepOf_goOn _ (fun _ h => h) fun _ => rfl
  · exact stepOf_goOn _ (hexecute _) fun _ => rfl
  · exact stepOf_goOn _ (fun _ h => h) fun _ => rfl
  · exact stepOf_self w i
  · exact stepOf_self w i

theorem stepOf_fail (w : World) (i : ℕ) (cutOff : Bool) (task : Task) :
    Duties.StepOf i (w.duties server) ((w.fail server i cutOff task).duties server) := by
  unfold fail
  have hexecute (event x : EventId) (h : w.Ran server x) :
      (w.executeCallbacks server event).Ran server x :=
    ran_executeCallbacks.mpr (Or.inl h)
  split
  · split_ifs <;> exact stepOf_goOn _ (fun _ h => h) fun _ => rfl
  · split_ifs
    · exact stepOf_goOn _ (hexecute _) fun _ => rfl
    · exact stepOf_goOn _ (fun _ h => h) fun _ => rfl
  · split_ifs
    · exact stepOf_goOn _ (hexecute _) fun _ => rfl
    · exact stepOf_goOn _ (fun _ h => h) fun _ => rfl
  · exact stepOf_self w i
  · exact stepOf_goOn _ (fun _ h => h) fun _ => rfl

theorem stepOf_endSave (w : World) (i : ℕ) (event : EventId) (outcome : SaveOutcome)
    (delivery : Delivery) :
    Duties.StepOf i (w.duties server)
      ((w.endSave server i event outcome delivery).duties server) := by
  unfold endSave
  cases outcome <;> dsimp only <;> split_ifs <;>
    exact stepOf_goOn _ (fun _ h => h) fun _ => rfl

theorem stepOf_perform {move : Move} (hmove : move.task? = some i) :
    Duties.StepOf i (w.duties server) ((w.perform server move).duties server) := by
  unfold perform
  cases move with
  | setCallbacks callbacks => cases hmove
  | refresh k =>
      cases hmove
      dsimp only
      split_ifs
      · exact stepOf_goOn _ (fun _ h => h) fun _ => rfl
      · exact stepOf_self w i
  | page k items nextPageId =>
      cases hmove
      dsimp only
      split
      · exact stepOf_goOn _ (fun _ h => h) fun _ => rfl
      · exact stepOf_self w i
  | returns k =>
      cases hmove
      dsimp only
      split
      · exact stepOf_advance w i _
      · exact stepOf_self w i
  | raises k cutOff =>
      cases hmove
      dsimp only
      split
      · exact stepOf_fail w i cutOff _
      · exact stepOf_self w i
  | onEvent k events =>
      cases hmove
      dsimp only
      split_ifs
      · exact stepOf_goOn _ (fun _ h => h) fun _ => rfl
      · exact stepOf_goOn _ (fun _ h => h) fun _ => rfl
      · exact stepOf_self w i
  | saved k event outcome =>
      cases hmove
      dsimp only
      split
      · split_ifs
        · exact stepOf_endSave w i event outcome _
        · exact stepOf_self w i
      · exact stepOf_self w i

/-! ## What a step drops -/

/-- A task that holds on to its events, and to those that it saves, drops only those whose
callbacks it runs. -/
theorem ran_of_dropped_goOn {old : Task} {task : Option Task} (htask : w.tasks i = some old)
    (hsaved : ∀ x, w'.getEvent x = true →
      w.getEvent x = true ∨ x ∈ (task.map Task.toRun).getD [])
    (hheld : ∀ x ∈ old.toRun, x ∈ (task.map Task.toRun).getD [] ∨ w'.Ran server x)
    (h : Duties.Dropped i (w.duties server) ((w'.goOn i task).duties server) x) :
    (w'.goOn i task).Ran server x := by
  obtain ⟨hmarked, hlost, hlet⟩ := h
  change x ∉ (w'.goOn i task).toRun i at hlost
  change x ∈ w.toRun i ∨ ¬ w.getEvent x = true at hlet
  rw [toRun_goOn_self] at hlost
  rw [toRun_of_task htask] at hlet
  rcases hlet with hlet | hunmarked
  · exact (hheld x hlet).resolve_left hlost
  · exact ((hsaved x hmarked).resolve_left hunmarked |> hlost).elim

/-- A call that returns drops an event only when it has run its callbacks. -/
theorem ran_of_dropped_advance {task : Task} (hnamed : Named server w)
    (htask : w.tasks i = some task)
    (h : Duties.Dropped i (w.duties server) ((w.advance server i task).duties server) x) :
    (w.advance server i task).Ran server x := by
  cases task with
  | starting => exact ran_of_dropped_goOn htask (fun _ => Or.inl) (fun _ => Or.inl) h
  | fetching pageId => exact (Duties.not_dropped_self x h).elim
  | checking items toProcess nextPageId =>
      cases items with
      | nil => exact ran_of_dropped_goOn htask (fun _ => Or.inl) (fun _ => Or.inl) h
      | cons event items =>
          unfold advance at h ⊢
          dsimp only at h ⊢
          split_ifs at h ⊢ with hfound
          · exact ran_of_dropped_goOn htask (fun _ => Or.inl) (fun _ => Or.inl) h
          · exact ran_of_dropped_goOn htask (fun _ => Or.inl)
              (fun _ hx => Or.inl (List.mem_cons_of_mem _ hx)) h
  | saving event items toProcess nextPageId =>
      -- the event that is saved goes into `to_process`
      have hnext : ∀ x, x ∈ toProcess ++ [event] ↔ x ∈ event :: toProcess := by
        intro x
        rw [List.mem_append, List.mem_singleton, List.mem_cons, or_comm]
      refine ran_of_dropped_goOn htask (fun x hx => ?_) (fun x hx => Or.inl ((hnext x).mpr hx)) h
      rw [getEvent_saveEvent hnamed] at hx
      split_ifs at hx with heq
      · exact Or.inr ((hnext x).mpr (by rw [heq]; exact List.mem_cons_self))
      · exact Or.inl hx
  | executing toProcess nextPageId =>
      cases toProcess with
      | nil =>
          cases nextPageId with
          | none => exact ran_of_dropped_goOn htask (fun _ => Or.inl) (fun _ => Or.inl) h
          | some pageId => exact ran_of_dropped_goOn htask (fun _ => Or.inl) (fun _ => Or.inl) h
      | cons event toProcess =>
          refine ran_of_dropped_goOn htask (fun _ => Or.inl) (fun x hx => ?_) h
          rcases List.mem_cons.mp hx with rfl | hx
          · exact Or.inr (ran_executeCallbacks.mpr (Or.inr rfl))
          · exact Or.inl hx
  | delivering delivery => exact (Duties.not_dropped_self x h).elim
  | background events =>
      cases events with
      | nil => exact ran_of_dropped_goOn htask (fun _ => Or.inl) (fun _ => Or.inl) h
      | cons event events =>
          refine ran_of_dropped_goOn htask (fun _ => Or.inl) (fun x hx => ?_) h
          rcases List.mem_cons.mp hx with rfl | hx
          · exact Or.inr (ran_executeCallbacks.mpr (Or.inr rfl))
          · exact Or.inl hx

/-- A task that has ended runs no callbacks. -/
theorem not_mem_toRun_goOn_none (w : World) : x ∉ (w.goOn i none).toRun i := by
  rw [toRun_goOn_self]
  exact fun hheld => (nomatch hheld)

/-- A task that ends drops what it was to run, and what is marked with its last call. -/
theorem dropped_goOn_none {task : Task} (htask : w.tasks i = some task) :
    Duties.Dropped i (w.duties server) ((w'.goOn i none).duties server) x ↔
      w'.getEvent x = true ∧ (x ∈ task.toRun ∨ ¬ w.getEvent x = true) := by
  rw [← toRun_of_task htask]
  constructor
  · rintro ⟨hmarked, -, hlet⟩
    exact ⟨hmarked, hlet⟩
  · rintro ⟨hmarked, hlet⟩
    exact ⟨hmarked, not_mem_toRun_goOn_none w', hlet⟩

/-- The call for the first of the events raises: the others are dropped, and that one is when
its callbacks have not been executed. -/
theorem dropped_callbacks {task : Task} {toProcess : List EventId} {cutOff : Bool}
    (htask : w.tasks i = some task) (htoRun : task.toRun = event :: toProcess)
    (h : Duties.Dropped i (w.duties server)
      (((if cutOff then w.executeCallbacks server event else w).goOn i none).duties server) x) :
    ((if cutOff then w.executeCallbacks server event else w).goOn i none).Ran server x ∨
      x ∈ (if cutOff then toProcess.filter (· ≠ event) else event :: toProcess) ∧
        w.getEvent x = true := by
  obtain ⟨hmarked, hlet⟩ := (dropped_goOn_none htask).mp h
  rw [htoRun] at hlet
  cases cutOff with
  | false => exact Or.inr ⟨hlet.resolve_right (fun hunmarked => hunmarked hmarked), hmarked⟩
  | true =>
      have hfound : w.getEvent x = true := hmarked
      rcases List.mem_cons.mp (hlet.resolve_right fun hunmarked => hunmarked hfound) with
        rfl | hlater
      · exact Or.inl (ran_executeCallbacks.mpr (Or.inr rfl))
      · by_cases hx : x = event
        · exact Or.inl (ran_executeCallbacks.mpr (Or.inr hx))
        · exact Or.inr ⟨List.mem_filter.mpr ⟨hlater, decide_eq_true hx⟩, hfound⟩

/-- A call that raises drops what its task was to run. -/
theorem dropped_fail {task : Task} {cutOff : Bool} (hnamed : Named server w)
    (htask : w.tasks i = some task)
    (h : Duties.Dropped i (w.duties server) ((w.fail server i cutOff task).duties server) x) :
    (w.fail server i cutOff task).Ran server x ∨
      x ∈ (Move.raises i cutOff).drops w ∧ w.getEvent x = true := by
  -- a task that ends, on files that have not changed
  have hended (h : Duties.Dropped i (w.duties server) ((w.goOn i none).duties server) x) :
      x ∈ task.toRun ∧ w.getEvent x = true := by
    obtain ⟨hmarked, hlet⟩ := (dropped_goOn_none htask).mp h
    exact ⟨hlet.resolve_right fun hunmarked => hunmarked hmarked, hmarked⟩
  dsimp only [Move.drops]
  rw [htask]
  cases task with
  | delivering delivery => exact (Duties.not_dropped_self x h).elim
  | saving event items toProcess nextPageId =>
      cases cutOff with
      | false => exact Or.inr (hended h)
      | true =>
          obtain ⟨hmarked, hlet⟩ := (dropped_goOn_none htask).mp h
          simp only [if_true] at hmarked
          rw [getEvent_saveEvent hnamed] at hmarked
          split_ifs at hmarked with hx
          have hheld := hlet.resolve_right fun hunmarked => hunmarked hmarked
          have hlater := (List.mem_cons.mp hheld).resolve_left hx
          exact Or.inr ⟨List.mem_filter.mpr ⟨hlater, decide_eq_true hx⟩, hmarked⟩
  | executing toProcess nextPageId =>
      cases toProcess with
      | nil => exact Or.inr (hended h)
      | cons event toProcess => exact dropped_callbacks htask rfl h
  | background events =>
      cases events with
      | nil => exact Or.inr (hended h)
      | cons event events => exact dropped_callbacks htask rfl h
  | _ => exact Or.inr (hended h)

/-- The callbacks of the events that a call drops have not been run by it. -/
theorem ran_of_callbacks {toProcess : List EventId} {cutOff : Bool}
    (hdrops : x ∈ (if cutOff then toProcess.filter (· ≠ event) else event :: toProcess))
    (hran : (if cutOff then w.executeCallbacks server event else w).Ran server x) :
    w.Ran server x := by
  cases cutOff with
  | false => exact hran
  | true =>
      have hx : x ≠ event := of_decide_eq_true (List.mem_filter.mp hdrops).2
      exact (ran_executeCallbacks.mp hran).resolve_right hx

/-- The files are found as before. -/
theorem getEvent_callbacks (w : World) (cutOff : Bool) :
    (if cutOff then w.executeCallbacks server event else w).getEvent x = w.getEvent x := by
  cases cutOff <;> rfl

/-- What a call that raises drops is found after it, its task is gone, and its callbacks have
not been run by the call. -/
theorem unheld_fail {task : Task} {cutOff : Bool} (hnamed : Named server w)
    (htask : w.tasks i = some task) (hdrops : x ∈ (Move.raises i cutOff).drops w)
    (hfound : w.getEvent x = true) :
    (w.fail server i cutOff task).getEvent x = true ∧
      x ∉ (w.fail server i cutOff task).toRun i ∧
      ((w.fail server i cutOff task).Ran server x → w.Ran server x) := by
  dsimp only [Move.drops] at hdrops
  rw [htask] at hdrops
  cases task with
  | delivering delivery => cases hdrops
  | saving event items toProcess nextPageId =>
      refine ⟨?_, not_mem_toRun_goOn_none _, ?_⟩
      · cases cutOff with
        | false => exact hfound
        | true =>
            have hx : x ≠ event := of_decide_eq_true (List.mem_filter.mp hdrops).2
            change (w.saveEvent server event false).getEvent x = true
            rw [getEvent_saveEvent hnamed, if_neg hx]
            exact hfound
      · cases cutOff <;> exact fun hran => hran
  | executing toProcess nextPageId =>
      cases toProcess with
      | nil => exact ⟨hfound, not_mem_toRun_goOn_none _, fun hran => hran⟩
      | cons event toProcess =>
          exact ⟨(getEvent_callbacks w cutOff).trans hfound, not_mem_toRun_goOn_none _,
            ran_of_callbacks hdrops⟩
  | background events =>
      cases events with
      | nil => exact ⟨hfound, not_mem_toRun_goOn_none _, fun hran => hran⟩
      | cons event events =>
          exact ⟨(getEvent_callbacks w cutOff).trans hfound, not_mem_toRun_goOn_none _,
            ran_of_callbacks hdrops⟩
  | _ => exact ⟨hfound, not_mem_toRun_goOn_none _, fun hran => hran⟩

theorem ran_endSave (w : World) (i : ℕ) (event : EventId) (outcome : SaveOutcome)
    (delivery : Delivery) :
    (w.endSave server i event outcome delivery).Ran server x ↔ w.Ran server x := by
  unfold endSave
  cases outcome <;> dsimp only <;> split_ifs <;> exact Iff.rfl

/-- What a delivery is to run when one of its saves has ended. -/
theorem toRun_endSave (w : World) (i : ℕ) (event : EventId) (outcome : SaveOutcome)
    (delivery : Delivery) :
    (w.endSave server i event outcome delivery).toRun i
      = if delivery.failed || outcome ≠ .returns then [] else delivery.events := by
  unfold endSave
  cases hfailed : delivery.failed <;> cases outcome <;> dsimp only <;> split_ifs <;>
    simp_all [Delivery.endSave, Task.toRun]

/-- What is found when a save of a delivery has ended. -/
theorem getEvent_endSave (hnamed : Named server w) (i : ℕ) (event : EventId)
    (outcome : SaveOutcome) (delivery : Delivery) :
    (w.endSave server i event outcome delivery).getEvent x = match outcome with
      | .returns => if x = event then true else w.getEvent x
      | .raises => w.getEvent x
      | .cutOff => if x = event then false else w.getEvent x := by
  unfold endSave
  cases outcome <;> dsimp only <;> split_ifs <;>
    simp_all [getEvent_saveEvent hnamed]

/-- A delivery drops its events when the first save raises, and after that each event that is
saved. -/
theorem dropped_endSave {delivery : Delivery} {outcome : SaveOutcome}
    (hnamed : Named server w) (htask : w.tasks i = some (.delivering delivery))
    (hleft : event ∈ delivery.left)
    (h : Duties.Dropped i (w.duties server)
      ((w.endSave server i event outcome delivery).duties server) x) :
    x ∈ (Move.saved i event outcome).drops w ∧ (Move.saved i event outcome).Saved w x := by
  obtain ⟨hmarked, hheld, hlet⟩ := h
  change (w.endSave server i event outcome delivery).getEvent x = true at hmarked
  change x ∉ (w.endSave server i event outcome delivery).toRun i at hheld
  change x ∈ w.toRun i ∨ ¬ w.getEvent x = true at hlet
  rw [getEvent_endSave hnamed] at hmarked
  rw [toRun_endSave] at hheld
  rw [toRun_of_task htask] at hlet
  have hposted := delivery.posted event hleft
  unfold Move.Saved
  dsimp only [Move.drops]
  simp only [htask, hleft, not_true_eq_false, if_false]
  -- by whether a save has raised before, and how this one ends
  cases hfailed : delivery.failed <;> cases outcome <;> simp_all [Task.toRun]

/-- What a delivery drops is saved, and the delivery does not run its callbacks. -/
theorem unheld_endSave {delivery : Delivery} {outcome : SaveOutcome}
    (hnamed : Named server w) (htask : w.tasks i = some (.delivering delivery))
    (hleft : event ∈ delivery.left) (hdrops : x ∈ (Move.saved i event outcome).drops w)
    (hsaved : (Move.saved i event outcome).Saved w x) :
    (w.endSave server i event outcome delivery).getEvent x = true ∧
      x ∉ (w.endSave server i event outcome delivery).toRun i := by
  rw [getEvent_endSave hnamed, toRun_endSave]
  unfold Move.Saved at hsaved
  dsimp only [Move.drops] at hdrops
  simp only [htask, hleft, not_true_eq_false, if_false] at hdrops
  cases hfailed : delivery.failed <;> cases outcome <;> simp_all

/-! ## One step -/

/-- A step orphans no event exactly when it loses none, if it drops what it drops. -/
theorem noOrphan_perform_of {move : Move} (hmove : move.task? = some i)
    (h : (w.duties server).NoOrphan)
    (hdropped : ∀ x,
      Duties.Dropped i (w.duties server) ((w.perform server move).duties server) x →
      (w.perform server move).Ran server x ∨ x ∈ move.drops w ∧ move.Saved w x)
    (hunheld : ∀ x ∈ move.drops w, move.Saved w x →
      (w.perform server move).getEvent x = true ∧ x ∉ (w.perform server move).toRun i ∧
        ((w.perform server move).Ran server x → w.Ran server x)) :
    ((w.perform server move).duties server).NoOrphan ↔ NothingLost server w move := by
  have hstep : Duties.StepOf i (w.duties server) ((w.perform server move).duties server) :=
    stepOf_perform hmove
  constructor
  · intro hnone x hx hsaved
    -- what still attends to a dropped event did so before the step
    obtain ⟨hmarked, hheld, hran⟩ := hunheld x hx hsaved
    rcases hnone x hmarked with hdone | ⟨j, hj⟩
    · exact Or.inl (hran hdone)
    · have hji : j ≠ i := by
        rintro rfl
        exact hheld hj
      refine Or.inr ⟨j, ?_, (hstep.holds j hji x).mp hj⟩
      rw [hmove]
      exact fun heq => hji (Option.some.inj heq).symm
  · intro hlost
    rw [Duties.noOrphan_iff hstep h]
    intro x hx
    rcases hdropped x hx with hran | ⟨hdrops, hsaved⟩
    · exact Or.inl hran
    · rcases hlost x hdrops hsaved with hran | ⟨j, hj, hheld⟩
      · exact Or.inl (hstep.done x hran)
      · refine Or.inr ⟨j, ?_, hheld⟩
        rintro rfl
        exact hj hmove

/-- A step that drops nothing. -/
theorem noOrphan_perform_of_keeps {move : Move} (hmove : move.task? = some i)
    (h : (w.duties server).NoOrphan) (hdrops : move.drops w = [])
    (hran : ∀ x,
      Duties.Dropped i (w.duties server) ((w.perform server move).duties server) x →
      (w.perform server move).Ran server x) :
    ((w.perform server move).duties server).NoOrphan ↔ NothingLost server w move := by
  apply noOrphan_perform_of hmove h (fun x hx => Or.inl (hran x hx))
  rw [hdrops]
  intro x hx
  cases hx

/-- A task that starts, or that has nothing to run, drops nothing. -/
theorem not_dropped_start (task : Option Task) (hrun : w.toRun i = []) :
    ¬ Duties.Dropped i (w.duties server) ((w.goOn i task).duties server) x := by
  rintro ⟨hmarked, -, hlet | hunmarked⟩
  · change x ∈ w.toRun i at hlet
    rw [hrun] at hlet
    cases hlet
  · exact hunmarked hmarked

/-- A step that does nothing drops nothing. -/
theorem noOrphan_perform_of_same {move : Move} (hmove : move.task? = some i)
    (h : (w.duties server).NoOrphan) (hdrops : move.drops w = [])
    (hsame : w.perform server move = w) :
    ((w.perform server move).duties server).NoOrphan ↔ NothingLost server w move := by
  apply noOrphan_perform_of_keeps hmove h hdrops
  rw [hsame]
  exact fun x hx => (Duties.not_dropped_self x hx).elim

/-- A call that raises. -/
theorem noOrphan_perform_raises (hnamed : Named server w) (h : (w.duties server).NoOrphan)
    (i : ℕ) (cutOff : Bool) :
    ((w.perform server (.raises i cutOff)).duties server).NoOrphan ↔
      NothingLost server w (.raises i cutOff) := by
  cases htask : w.tasks i with
  | none =>
      have hsame : w.perform server (.raises i cutOff) = w := by
        dsimp only [perform]
        rw [htask]
      have hdrops : (Move.raises i cutOff).drops w = [] := by
        dsimp only [Move.drops]
        rw [htask]
      exact noOrphan_perform_of_same rfl h hdrops hsame
  | some task =>
      have hfail : w.perform server (.raises i cutOff) = w.fail server i cutOff task := by
        dsimp only [perform]
        rw [htask]
      refine noOrphan_perform_of rfl h (fun x hx => ?_) fun x hx hsaved => ?_
      · rw [hfail] at hx ⊢
        rcases dropped_fail hnamed htask hx with hran | ⟨hdrops, hfound⟩
        · exact Or.inl hran
        · exact Or.inr ⟨hdrops, Or.inl hfound⟩
      · have hfound : w.getEvent x = true := by
          rcases hsaved with hfound | ⟨k, hk⟩
          · exact hfound
          · cases hk
        rw [hfail]
        exact unheld_fail hnamed htask hx hfound

/-- A save of a delivery that ends. -/
theorem noOrphan_perform_saved (hnamed : Named server w) (h : (w.duties server).NoOrphan)
    (i : ℕ) (event : EventId) (outcome : SaveOutcome) :
    ((w.perform server (.saved i event outcome)).duties server).NoOrphan ↔
      NothingLost server w (.saved i event outcome) := by
  by_cases hsave : ∃ delivery, w.tasks i = some (.delivering delivery) ∧ event ∈ delivery.left
  · obtain ⟨delivery, htask, hleft⟩ := hsave
    have hend : w.perform server (.saved i event outcome)
        = w.endSave server i event outcome delivery := by
      dsimp only [perform]
      rw [htask]
      exact if_pos hleft
    refine noOrphan_perform_of rfl h (fun x hx => ?_) fun x hx hsaved => ?_
    · rw [hend] at hx
      exact Or.inr (dropped_endSave hnamed htask hleft hx)
    · obtain ⟨hmarked, hheld⟩ := unheld_endSave hnamed htask hleft hx hsaved
      rw [hend]
      exact ⟨hmarked, hheld, (ran_endSave w i event outcome delivery).mp⟩
  · -- no such save is running
    have hsame : w.perform server (.saved i event outcome) = w := by
      dsimp only [perform]
      split
      · rename_i delivery htask
        exact if_neg fun hleft => hsave ⟨delivery, htask, hleft⟩
      · rfl
    have hdrops : (Move.saved i event outcome).drops w = [] := by
      dsimp only [Move.drops]
      split
      · rename_i delivery htask
        exact if_pos fun hleft => hsave ⟨delivery, htask, hleft⟩
      · rfl
    exact noOrphan_perform_of_same rfl h hdrops hsame

/-- **A step orphans no event** exactly when it loses none. -/
theorem noOrphan_perform_iff (hnamed : Named server w) (h : (w.duties server).NoOrphan)
    (move : Move) :
    ((w.perform server move).duties server).NoOrphan ↔ NothingLost server w move := by
  cases move with
  | setCallbacks callbacks => exact ⟨fun _ x hx => (nomatch hx), fun _ => h⟩
  | refresh i =>
      refine noOrphan_perform_of_keeps rfl h rfl fun x hx => ?_
      unfold perform at hx
      dsimp only at hx
      split_ifs at hx with htask
      · exact (not_dropped_start _ (toRun_of_none htask) hx).elim
      · exact (Duties.not_dropped_self x hx).elim
  | page i items nextPageId =>
      refine noOrphan_perform_of_keeps rfl h rfl fun x hx => ?_
      unfold perform at hx
      dsimp only at hx
      split at hx
      · rename_i htask
        exact (not_dropped_start _ (toRun_of_task htask) hx).elim
      · exact (Duties.not_dropped_self x hx).elim
  | onEvent i events =>
      refine noOrphan_perform_of_keeps rfl h rfl fun x hx => ?_
      unfold perform at hx
      dsimp only at hx
      split_ifs at hx with htask hevents
      · exact (not_dropped_start _ (toRun_of_none htask) hx).elim
      · exact (not_dropped_start _ (toRun_of_none htask) hx).elim
      · exact (Duties.not_dropped_self x hx).elim
  | returns i =>
      refine noOrphan_perform_of_keeps rfl h rfl fun x hx => ?_
      unfold perform at hx ⊢
      dsimp only at hx ⊢
      split at hx
      · rename_i task htask
        exact ran_of_dropped_advance hnamed htask hx
      · exact (Duties.not_dropped_self x hx).elim
  | raises i cutOff => exact noOrphan_perform_raises hnamed h i cutOff
  | saved i event outcome => exact noOrphan_perform_saved hnamed h i event outcome

/-- The files keep the names of the events. -/
theorem Named.perform (h : Named server w) (move : Move) :
    Named server (w.perform server move) := by
  unfold World.perform
  cases move with
  | setCallbacks callbacks => exact h
  | refresh i => dsimp only; split_ifs <;> exact h
  | page i items nextPageId => dsimp only; split <;> exact h
  | onEvent i events => dsimp only; split_ifs <;> exact h
  | returns i =>
      dsimp only
      split
      · unfold advance
        split
        case h_2 => split_ifs <;> exact h
        case h_4 => exact h.saveEvent _ _
        all_goals exact h
      · exact h
  | raises i cutOff =>
      dsimp only
      split
      · unfold fail
        split
        · split_ifs
          · exact h.saveEvent _ _
          · exact h
        · split_ifs <;> exact h
        · split_ifs <;> exact h
        · exact h
        · exact h
      · exact h
  | saved i event outcome =>
      dsimp only
      split
      · split_ifs
        · unfold endSave
          cases outcome <;> dsimp only <;> split_ifs <;> first | exact h | exact h.saveEvent _ _
        · exact h
      · exact h

end World

end OpenHands.RefreshedEvents
