/-
# Iterations of refused steps

`StateTracker.run_control_flags` steps the iteration flag before the budget flag.  A step that
the iteration flag lets pass and the budget flag refuses has been counted, although neither the
agent nor the trajectory makes it.

  * `account_run` — over every run the counter of the iterations grows by the number of steps
    made and the number of steps that the budget has refused;
  * `countsIterations_iff` — so it counts the steps, and a refused step leaves the values of the
    flags alone, exactly when the budget refuses none.
-/
import OpenHands.Replay

namespace OpenHands

/-! ## The control flags -/

namespace State

/-- The iteration flag lets a step pass that the budget flag refuses. -/
def RefusedByBudget (s : State) : Prop :=
  s.iterationFlag.currentValue < s.iterationFlag.maxValue ∧
    ∃ f ∈ s.budgetFlag, f.maxValue ≤ f.currentValue

instance (s : State) : Decidable s.RefusedByBudget :=
  inferInstanceAs (Decidable (_ ∧ ∃ f ∈ s.budgetFlag, _))

/-- The values of both flags are the same. -/
structure SameValues (s s' : State) : Prop where
  iteration : s'.iterationFlag.currentValue = s.iterationFlag.currentValue ∧
    s'.iterationFlag.maxValue = s.iterationFlag.maxValue
  budget : s'.budgetFlag.map (fun f => (f.currentValue, f.maxValue))
    = s.budgetFlag.map fun f => (f.currentValue, f.maxValue)

end State

/-- What `run_control_flags` does: the iteration flag refuses the step, the budget flag does, or
the step passes. -/
theorem runControlFlags_cases (s : State) :
    (s.iterationFlag.maxValue ≤ s.iterationFlag.currentValue ∧
        (StateTracker.runControlFlags s).2 ≠ none ∧
        (StateTracker.runControlFlags s).1
          = { s with iterationFlag := { s.iterationFlag with hitLimit := true } }) ∨
      (s.RefusedByBudget ∧ (StateTracker.runControlFlags s).2 ≠ none ∧
        (StateTracker.runControlFlags s).1.iterationFlag.currentValue
          = s.iterationFlag.currentValue + 1) ∨
      (s.iterationFlag.currentValue < s.iterationFlag.maxValue ∧ ¬ s.RefusedByBudget ∧
        (StateTracker.runControlFlags s).2 = none ∧
        (StateTracker.runControlFlags s).1.iterationFlag.currentValue
          = s.iterationFlag.currentValue + 1) := by
  by_cases hiteration : s.iterationFlag.maxValue ≤ s.iterationFlag.currentValue
  · left
    refine ⟨hiteration, ?_⟩
    unfold StateTracker.runControlFlags IterationControlFlag.step
    rw [if_pos hiteration]
    exact ⟨by simp, rfl⟩
  · right
    have hlt : s.iterationFlag.currentValue < s.iterationFlag.maxValue := not_le.mp hiteration
    unfold StateTracker.runControlFlags IterationControlFlag.step
    rw [if_neg hiteration]
    cases hbudget : s.budgetFlag with
    | none =>
        right
        refine ⟨hlt, ?_, rfl, rfl⟩
        rintro ⟨-, f, hf, -⟩
        rw [hbudget] at hf
        cases hf
    | some f =>
        -- the iteration flag has been stepped by now, whatever the budget flag does
        by_cases hspent : f.maxValue ≤ f.currentValue
        · left
          refine ⟨⟨hlt, f, hbudget, hspent⟩, ?_, rfl⟩
          show f.step.2 ≠ none
          unfold BudgetControlFlag.step
          rw [if_pos hspent]
          simp
        · right
          refine ⟨hlt, ?_, ?_, rfl⟩
          · rintro ⟨-, f', hf', hspent'⟩
            rw [hbudget] at hf'
            cases hf'
            exact hspent hspent'
          · show f.step.2 = none
            unfold BudgetControlFlag.step
            rw [if_neg hspent]

/-- What `run_control_flags` adds to the counter of the iterations: one for a step that passes,
and one for a step that is refused for the budget alone. -/
theorem currentValue_runControlFlags (s : State) :
    (StateTracker.runControlFlags s).1.iterationFlag.currentValue
      = s.iterationFlag.currentValue
        + (if (StateTracker.runControlFlags s).2 = none then 1 else 0)
        + if s.RefusedByBudget then 1 else 0 := by
  rcases runControlFlags_cases s with ⟨hle, hraised, hstate⟩ | ⟨hrefused, hraised, hvalue⟩ |
    ⟨-, hpassed, hraised, hvalue⟩
  · have hnot : ¬ s.RefusedByBudget := fun h => not_lt.mpr hle h.1
    rw [if_neg hraised, if_neg hnot, hstate]
    simp
  · rw [if_neg hraised, if_pos hrefused, hvalue]
    omega
  · rw [if_pos hraised, if_neg hpassed, hvalue]
    omega

/-- When `run_control_flags` raises, the values are the same unless it was for the budget
alone. -/
theorem sameValues_runControlFlags_iff (s : State) :
    ((StateTracker.runControlFlags s).2 ≠ none → s.SameValues (StateTracker.runControlFlags s).1) ↔
      ¬ s.RefusedByBudget := by
  rcases runControlFlags_cases s with ⟨hle, -, hstate⟩ | ⟨hrefused, hraised, hvalue⟩ |
    ⟨-, hpassed, hraised, -⟩
  · refine ⟨fun _ h => not_lt.mpr hle h.1, fun _ _ => ?_⟩
    rw [hstate]
    exact ⟨⟨rfl, rfl⟩, rfl⟩
  · refine ⟨fun hsame => ?_, fun hnot => absurd hrefused hnot⟩
    have hkept := (hsame hraised).iteration.1
    omega
  · exact ⟨fun _ => hpassed, fun _ h => absurd hraised h⟩

/-! ## Where a move steps the flags -/

namespace Turn

/-- The state in which `_step` calls `run_control_flags`, if it does. -/
def controlled? (t : Turn) (answers : Answers) : Option State :=
  if t.self.state.agentState ≠ .running then none
  else if t.self.pendingAction.isSome then none
  else if t.self.agent.enableStuckDetection && answers.isStuck then none
  else some (StateTracker.syncBudgetFlagWithMetrics t.self.state answers.accumulatedCost)

/-- The state in which the handling of an event calls `run_control_flags`, if it does. -/
def eventControlled? (t : Turn) (answers : Answers) (event : Event) : Option State :=
  if (t.beforeStep answers event).2 then (t.beforeStep answers event).1.controlled? answers
  else none

end Turn

/-- The state in which a move calls `run_control_flags`, if it does. -/
def ReplayTurn.controlled? (r : ReplayTurn) : ControlMove → Option State
  | .move (.publish _ _) => none
  | .move (.deliver answers) =>
    match r.turn.bus.queue with
    | [] => none
    | event :: queue =>
      let t := r.turn.popped queue answers
      match t.self.delegate with
      | some d => if d.isDone then none else Turn.eventControlled? ⟨d, t.bus⟩ answers event
      | none => t.eventControlled? answers event
  | .step answers => (r.turn.popped r.turn.bus.queue answers).readFlags.controlled? answers
  | .setAgentState _ _ => none

/-- The flags let the step pass. -/
def Passes (controlled : Option State) : Prop :=
  ∃ s ∈ controlled, (StateTracker.runControlFlags s).2 = none

/-- The step is refused for the budget alone. -/
def Refused (controlled : Option State) : Prop := ∃ s ∈ controlled, s.RefusedByBudget

instance (controlled : Option State) : Decidable (Passes controlled) :=
  inferInstanceAs (Decidable (∃ s ∈ controlled, _))

instance (controlled : Option State) : Decidable (Refused controlled) :=
  inferInstanceAs (Decidable (∃ s ∈ controlled, _))

/-- What is added to a counter: one for a step that passes, one for a step that is refused for
the budget alone. -/
def counted (controlled : Option State) : ℤ :=
  (if Passes controlled then 1 else 0) + if Refused controlled then 1 else 0

theorem not_passes_none : ¬ Passes none := by
  rintro ⟨s, hs, -⟩
  cases hs

theorem counted_none : counted none = 0 := by
  have hrefused : ¬ Refused none := by
    rintro ⟨s, hs, -⟩
    cases hs
  unfold counted
  rw [if_neg not_passes_none, if_neg hrefused]
  rfl

theorem currentValue_of_controlled (s : State) :
    (StateTracker.runControlFlags s).1.iterationFlag.currentValue
      = s.iterationFlag.currentValue + counted (some s) := by
  have hpasses : Passes (some s) ↔ (StateTracker.runControlFlags s).2 = none := by
    simp [Passes]
  have hrefused : Refused (some s) ↔ s.RefusedByBudget := by
    simp [Refused]
  unfold counted
  rw [currentValue_runControlFlags, if_congr hpasses rfl rfl, if_congr hrefused rfl rfl, add_assoc]

/-! ## What a step counts -/

namespace Turn

variable {t t' : Turn} {answers : Answers}

/-- The counter of the iterations. -/
def iterations (t : Turn) : ℤ := t.self.state.iterationFlag.currentValue

theorem KeepsFlag.iterations (h : t.KeepsFlag t') : t'.iterations = t.iterations :=
  congrArg IterationControlFlag.currentValue h.flag

/-- A resume raises the limit, not the counter. -/
theorem Resumes.iterations (h : t.Resumes t') : t'.iterations = t.iterations := by
  unfold Turn.iterations
  rcases h.flag with hflag | ⟨-, hflag⟩
  · rw [hflag]
  · rw [hflag]
    rcases IterationControlFlag.increaseLimit_cases t.self.state.iterationFlag
      t.self.headlessMode with heq | ⟨-, -, heq⟩
    · rw [heq]
    · rw [heq]

/-- What happens up to the call of the agent. -/
structure PassesFlags (t : Turn) (controlled : Option State) (t' : Turn) (passed : Bool) :
    Prop where
  iterations : t'.iterations = t.iterations + counted controlled
  agentCalls : t'.self.agentCalls = t.self.agentCalls
  passed : passed = true ↔ Passes controlled

theorem KeepsFlag.passesFlags (h : t.KeepsFlag t') : t.PassesFlags none t' false where
  iterations := by rw [h.iterations, counted_none, add_zero]
  agentCalls := h.agentCalls
  passed := by simp [not_passes_none]

theorem passFlags_spec (t : Turn) (answers : Answers) :
    t.PassesFlags (t.controlled? answers) (t.passFlags answers).1 (t.passFlags answers).2 := by
  unfold passFlags controlled?
  by_cases hstate : t.self.state.agentState ≠ .running
  · rw [if_pos hstate, if_pos hstate]
    exact (KeepsFlag.refl t).passesFlags
  · rw [if_neg hstate, if_neg hstate]
    by_cases hpending : t.self.pendingAction.isSome
    · rw [if_pos hpending, if_pos hpending]
      exact (KeepsFlag.refl t).passesFlags
    · rw [if_neg hpending, if_neg hpending]
      extract_lets t₁ raised t₂
      have h₁ : t.KeepsFlag t₁ := by
        refine ⟨rfl, ?_, rfl⟩
        show (StateTracker.syncBudgetFlagWithMetrics _ _).iterationFlag = _
        cases answers.accumulatedCost <;> rfl
      by_cases hstuck : (t.self.agent.enableStuckDetection && answers.isStuck) = true
      · have hstuck₁ : (t₁.self.agent.enableStuckDetection && answers.isStuck) = true := hstuck
        rw [if_pos hstuck, if_pos hstuck₁]
        exact (h₁.trans (keepsFlag_reactToException t₁ _)).passesFlags
      · -- the control flags are run
        have hstuck₁ : ¬ (t₁.self.agent.enableStuckDetection && answers.isStuck) = true := hstuck
        rw [if_neg hstuck, if_neg hstuck₁]
        have hcount : t₂.iterations = t.iterations + counted (some t₁.self.state) := by
          rw [← h₁.iterations]
          exact currentValue_of_controlled t₁.self.state
        have hpasses : Passes (some t₁.self.state) ↔ raised = none := by
          simp [Passes, raised]
        cases hraised : raised with
        | some message =>
            have hkeeps := keepsFlag_reactToException t₂ (.runtimeError message)
            rw [hraised] at hpasses
            refine ⟨hkeeps.iterations.trans hcount, hkeeps.agentCalls, ?_⟩
            show false = true ↔ Passes (some t₁.self.state)
            rw [hpasses]
            simp
        | none =>
            rw [hraised] at hpasses
            refine ⟨hcount, rfl, ?_⟩
            show true = true ↔ Passes (some t₁.self.state)
            rw [hpasses]
            simp

theorem keepsFlag_emitReplayed (t : Turn) (answers : Answers) (event : Event) (action : Action) :
    t.KeepsFlag (t.emitReplayed answers event action).1 := by
  unfold emitReplayed
  split
  · exact .refl t
  · extract_lets a event' t₁ t₂
    have h₁ : t.KeepsFlag t₁ := ⟨rfl, rfl, rfl⟩
    have h₂ : t₁.KeepsFlag t₂ :=
      .ite (keepsFlag_setAgentStateTo t₁ (Or.inr (by decide))) (.refl t₁)
    split
    · exact h₁.trans h₂
    · exact (h₁.trans h₂).trans ⟨rfl, rfl, rfl⟩
  · split
    · exact .refl t
    · exact keepsFlag_addEvent t _ _

theorem keepsFlag_handleException (t : Turn) (raised : Option PyException) :
    t.KeepsFlag (handleException (t, raised)) := by
  cases raised with
  | none => exact .refl t
  | some e => exact keepsFlag_reactToException t _

theorem keeps_passFlags (t : Turn) (answers : Answers) : t.Keeps (t.passFlags answers).1 := by
  unfold passFlags
  split_ifs with hstate hpending
  · exact .refl t
  · exact .refl t
  · extract_lets t₁ raised t₂
    have h₁ : t.Keeps t₁ := keeps_mapState t (history_syncBudgetFlagWithMetrics _ _)
    have h₂ : t₁.Keeps t₂ := keeps_mapState t₁ (history_runControlFlags _)
    split_ifs
    · exact h₁.trans (keeps_reactToException t₁ _)
    · clear_value raised
      cases raised with
      | some message => exact (h₁.trans h₂).trans (keeps_reactToException t₂ _)
      | none => exact h₁.trans h₂

theorem keeps_emitReplayed (t : Turn) (answers : Answers) (event : Event) (action : Action) :
    t.Keeps (t.emitReplayed answers event action).1 := by
  unfold emitReplayed
  split
  · exact .refl t
  · extract_lets a event' t₁ t₂
    have h₁ : t.Keeps t₁ := ⟨rfl, rfl, .refl t.bus⟩
    have h₂ : t₁.Keeps t₂ := .ite (keeps_setAgentStateTo t₁ _) (.refl t₁)
    split
    · exact h₁.trans h₂
    · exact (h₁.trans h₂).trans ⟨rfl, rfl, EventBus.advances_addEvent t₂.bus _ _⟩
  · split
    · exact .refl t
    · exact keeps_addEvent t _ _

theorem keeps_handleException (t : Turn) (raised : Option PyException) :
    t.Keeps (handleException (t, raised)) := by
  cases raised with
  | none => exact .refl t
  | some e => exact keeps_reactToException t _

/-- Up to the step an event resumes at most once, and a delegate that it starts is a fresh one,
which lets no step follow. -/
theorem beforeStep_frame (t : Turn) (answers : Answers) (event : Event) :
    t.Resumes (t.beforeStep answers event).1 ∧
      ((t.beforeStep answers event).1.self.delegate = t.self.delegate ∨
        (t.beforeStep answers event).2 = false ∧
          (t.beforeStep answers event).1.FreshDelegate) := by
  unfold beforeStep
  extract_lets t₁ t₂ handled
  have h₁ : t.KeepsFlag t₁ := ⟨rfl, rfl, rfl⟩
  have h₂ : t.KeepsFlag t₂ :=
    h₁.trans ⟨rfl, StateTracker.iterationFlag_addHistory t₁.self.state event, rfl⟩
  split_ifs
  · exact ⟨h₁.resumes, Or.inl rfl⟩
  · have hhandled : ∀ t₃, handled = some t₃ → t₂.Resumes t₃ ∧
        (t₃.self.delegate = t.self.delegate ∨ t₃.self.delegate.isSome ∧ t₃.FreshDelegate) := by
      intro t₃ ht₃
      unfold handled at ht₃
      split at ht₃
      · exact handleAction_frame ht₃
      · cases ht₃
        exact ⟨(keepsFlag_handleObservation t₂ event).resumes,
          Or.inl (keeps_handleObservation t₂ event).delegate⟩
    clear_value handled
    cases handled with
    | none => exact ⟨h₂.resumes, Or.inl rfl⟩
    | some t₃ =>
        obtain ⟨hresumes, hdelegate⟩ := hhandled t₃ rfl
        refine ⟨h₂.trans_resumes (StateTracker.agentState_addHistory t₁.self.state event)
          hresumes, ?_⟩
        rcases hdelegate with hdelegate | ⟨hsome, hfresh⟩
        · exact Or.inl hdelegate
        · exact Or.inr ⟨shouldStep_of_delegate hsome event, hfresh⟩

end Turn

/-! ## What a move counts -/

namespace ReplayTurn

variable {r r' : ReplayTurn} {answers : Answers}

/-- How often the controller has called its agent or replayed an action. -/
def ownSteps (r : ReplayTurn) : ℕ := r.turn.self.agentCalls.length + r.replaySteps

/-- What the controller itself counts, with the steps that it makes. -/
structure Counts (r : ReplayTurn) (controlled : Option State) (r' : ReplayTurn) : Prop where
  iterations : r'.turn.iterations = r.turn.iterations + counted controlled
  ownSteps : r'.ownSteps = r.ownSteps + if Passes controlled then 1 else 0

theorem step_counts (r : ReplayTurn) (answers : Answers) :
    r.Counts (r.turn.controlled? answers) (r.step answers).1 ∧
      (r.step answers).1.turn.self.delegate = r.turn.self.delegate := by
  have hpass := Turn.passFlags_spec r.turn answers
  have hkeeps := Turn.keeps_passFlags r.turn answers
  unfold step
  cases hpassed : (r.turn.passFlags answers).2 with
  | false =>
      have hnot : ¬ Passes (r.turn.controlled? answers) := by
        rw [← hpass.passed, hpassed]
        decide
      simp only [hpassed, Bool.not_false, if_true]
      refine ⟨⟨hpass.iterations, ?_⟩, hkeeps.delegate⟩
      rw [if_neg hnot]
      show (r.turn.passFlags answers).1.self.agentCalls.length + r.replaySteps = _
      rw [hpass.agentCalls]
      rfl
  | true =>
      have hpasses : Passes (r.turn.controlled? answers) := hpass.passed.mp hpassed
      simp only [hpassed, Bool.not_true, Bool.false_eq_true, if_false]
      -- a step that passes is a call of the agent, or an action that is replayed
      rcases hnext : r.replayManager.next with ⟨_ | ⟨event, action⟩, manager⟩
      · have hcalled := Turn.callAgent_frame (r.turn.passFlags answers).1 answers
        refine ⟨⟨?_, ?_⟩, ?_⟩
        · exact hcalled.iterations.trans hpass.iterations
        · rw [if_pos hpasses]
          show ((r.turn.passFlags answers).1.callAgent answers).1.self.agentCalls.length
            + r.replaySteps = r.turn.self.agentCalls.length + r.replaySteps + 1
          rw [hcalled.agentCalls, ← hpass.agentCalls]
          show (_ ++ [_]).length + _ = _
          rw [List.length_append]
          simp
          omega
        · exact ((Turn.keeps_callAgent _ answers).delegate).trans hkeeps.delegate
      · have hemitted := Turn.keepsFlag_emitReplayed (r.turn.passFlags answers).1 answers event
          action
        refine ⟨⟨?_, ?_⟩, ?_⟩
        · exact hemitted.iterations.trans hpass.iterations
        · rw [if_pos hpasses]
          show ((r.turn.passFlags answers).1.emitReplayed answers event
            action).1.self.agentCalls.length + (r.replaySteps + 1) = _
          rw [hemitted.agentCalls, hpass.agentCalls]
          rfl
        · exact ((Turn.keeps_emitReplayed _ answers event action).delegate).trans hkeeps.delegate

theorem stepWithExceptionHandling_counts (r : ReplayTurn) (answers : Answers) :
    r.Counts (r.turn.controlled? answers) (r.stepWithExceptionHandling answers) ∧
      (r.stepWithExceptionHandling answers).turn.self.delegate = r.turn.self.delegate := by
  obtain ⟨hcounts, hdelegate⟩ := step_counts r answers
  have hkeepsFlag := Turn.keepsFlag_handleException (r.step answers).1.turn (r.step answers).2
  have hkeeps := Turn.keeps_handleException (r.step answers).1.turn (r.step answers).2
  refine ⟨⟨hkeepsFlag.iterations.trans hcounts.iterations, ?_⟩, hkeeps.delegate.trans hdelegate⟩
  rw [← hcounts.ownSteps]
  exact congrArg (·.length + _) hkeepsFlag.agentCalls

theorem handleEvent_counts (r : ReplayTurn) (answers : Answers) (event : Event) :
    r.Counts (r.turn.eventControlled? answers event) (r.handleEvent answers event) ∧
      ((r.handleEvent answers event).turn.self.delegate = r.turn.self.delegate ∨
        (r.handleEvent answers event).turn.FreshDelegate) := by
  obtain ⟨hresumes, hdelegate⟩ := Turn.beforeStep_frame r.turn answers event
  unfold handleEvent Turn.eventControlled?
  cases hsteps : (r.turn.beforeStep answers event).2 with
  | false =>
      simp only [hsteps, Bool.false_eq_true, if_false]
      refine ⟨⟨?_, ?_⟩, hdelegate.imp_right And.right⟩
      · rw [counted_none, add_zero]
        exact hresumes.iterations
      · rw [if_neg not_passes_none]
        exact congrArg (·.length + _) hresumes.agentCalls
  | true =>
      simp only [hsteps, if_true]
      obtain ⟨hcounts, hsame⟩ := stepWithExceptionHandling_counts
        { r with turn := (r.turn.beforeStep answers event).1 } answers
      refine ⟨⟨?_, ?_⟩, ?_⟩
      · rw [hcounts.iterations, ← hresumes.iterations]
      · rw [hcounts.ownSteps]
        exact congrArg (·.length + _ + _) hresumes.agentCalls
      · rcases hdelegate with hdelegate | ⟨hnone, -⟩
        · exact Or.inl (hsame.trans hdelegate)
        · rw [hsteps] at hnone
          cases hnone

end ReplayTurn

namespace Turn

variable {t : Turn}

/-- A controller without trajectory counts in the same way; so does every delegate. -/
theorem handleEvent_counts (t : Turn) (answers : Answers) (event : Event) :
    (t.handleEvent answers event).iterations
        = t.iterations + counted (t.eventControlled? answers event) ∧
      (t.handleEvent answers event).self.agentCalls.length = t.self.agentCalls.length
        + if Passes (t.eventControlled? answers event) then 1 else 0 := by
  have hwithout : ReplayTurn.WithoutReplay { turn := t } := rfl
  obtain ⟨heq, hkeeps⟩ := ReplayTurn.handleEvent_withoutReplay hwithout answers event
  obtain ⟨hcounts, -⟩ := ReplayTurn.handleEvent_counts { turn := t } answers event
  have hown := hcounts.ownSteps
  unfold ReplayTurn.ownSteps at hown
  rw [hkeeps.replaySteps, heq] at hown
  exact ⟨heq ▸ hcounts.iterations, hown⟩

theorem flag_readFlags (t : Turn) :
    t.readFlags.iterations = t.sharedFlag.currentValue ∧
      t.readFlags.self.agentCalls = t.self.agentCalls ∧
      t.readFlags.self.delegate = t.self.delegate := by
  cases hd : t.self.delegate with
  | none =>
      rw [(sharedFlag_of_none hd).1]
      unfold readFlags
      rw [hd]
      exact ⟨rfl, rfl, hd⟩
  | some d =>
      rw [(sharedFlag_of_some hd).1]
      unfold readFlags
      rw [hd]
      exact ⟨rfl, rfl, hd⟩

theorem sharedFlag_writeFlags (t : Turn) :
    t.writeFlags.sharedFlag = t.self.state.iterationFlag ∧ t.writeFlags.calls = t.calls := by
  cases hd : t.self.delegate with
  | none =>
      have hwrite : t.writeFlags = t := by
        unfold writeFlags
        rw [hd]
      rw [hwrite]
      exact ⟨(sharedFlag_of_none hd).1, rfl⟩
  | some d =>
      unfold writeFlags sharedFlag active calls
      rw [hd]
      exact ⟨rfl, rfl⟩

end Turn

namespace ReplayTurn

variable {r : ReplayTurn}

/-- `iteration_flag.current_value`, which the delegate shares. -/
def iterations (r : ReplayTurn) : ℤ := r.turn.sharedFlag.currentValue

/-- The number of the steps made, by the agent, by the agent of a delegate and by the
trajectory. -/
def stepsMade (r : ReplayTurn) : ℤ := r.turn.calls + r.replaySteps

/-- The controller makes the steps that count, and keeps its delegate or has a fresh one. -/
theorem counts_of_own {r' : ReplayTurn} {controlled : Option State} (h : r.Counts controlled r')
    (hd : r.turn.self.delegate = none)
    (hd' : r'.turn.self.delegate = none ∨ r'.turn.FreshDelegate) :
    r'.iterations = r.iterations + counted controlled ∧
      r'.stepsMade = r.stepsMade + if Passes controlled then 1 else 0 := by
  obtain ⟨hflag, hcalls⟩ := Turn.sharedFlag_of_none hd
  have hshared' : r'.turn.sharedFlag = r'.turn.self.state.iterationFlag ∧
      r'.turn.calls = r'.turn.self.agentCalls.length := by
    rcases hd' with hnone | hfresh
    · exact Turn.sharedFlag_of_none hnone
    · exact hfresh.sharedFlag
  unfold iterations stepsMade
  rw [hflag, hcalls, hshared'.1, hshared'.2]
  refine ⟨h.iterations, ?_⟩
  have hown := h.ownSteps
  unfold ownSteps at hown
  split_ifs at hown ⊢ <;> omega

/-- The delegate counts for both. -/
theorem counts_onDelegate {d : AgentController} (hd : r.turn.self.delegate = some d)
    (hnotDone : d.isDone = false) (answers : Answers) (event : Event) :
    (r.onEvent answers event).iterations
        = r.iterations + counted (Turn.eventControlled? ⟨d, r.turn.bus⟩ answers event) ∧
      (r.onEvent answers event).stepsMade = r.stepsMade
        + if Passes (Turn.eventControlled? ⟨d, r.turn.bus⟩ answers event) then 1 else 0 := by
  obtain ⟨hcount, hcalls⟩ := Turn.handleEvent_counts ⟨d, r.turn.bus⟩ answers event
  obtain ⟨hflag, htotal⟩ := Turn.sharedFlag_of_some hd
  unfold iterations stepsMade onEvent
  rw [hd]
  simp only [hnotDone, Bool.false_eq_true, if_false]
  have hactive : (r.turn.onDelegate (·.handleEvent answers event)).self.delegate
        = some (Turn.handleEvent ⟨d, r.turn.bus⟩ answers event).self ∧
      (r.turn.onDelegate (·.handleEvent answers event)).self.agentCalls
        = r.turn.self.agentCalls := by
    unfold Turn.onDelegate
    rw [hd]
    exact ⟨rfl, rfl⟩
  obtain ⟨hflag', htotal'⟩ := Turn.sharedFlag_of_some hactive.1
  rw [hflag', htotal', hflag, htotal, hactive.2, hcalls]
  refine ⟨hcount, ?_⟩
  push_cast
  omega

theorem onEvent_counts (r : ReplayTurn) (answers : Answers) (event : Event) :
    (r.onEvent answers event).iterations = r.iterations + counted
        (match r.turn.self.delegate with
          | some d =>
            if d.isDone then none else Turn.eventControlled? ⟨d, r.turn.bus⟩ answers event
          | none => r.turn.eventControlled? answers event) ∧
      (r.onEvent answers event).stepsMade = r.stepsMade + if Passes
        (match r.turn.self.delegate with
          | some d =>
            if d.isDone then none else Turn.eventControlled? ⟨d, r.turn.bus⟩ answers event
          | none => r.turn.eventControlled? answers event) then 1 else 0 := by
  cases hd : r.turn.self.delegate with
  | none =>
      obtain ⟨hcounts, hdelegate⟩ := handleEvent_counts r answers event
      rw [hd] at hdelegate
      unfold onEvent
      simp only [hd]
      exact counts_of_own hcounts hd hdelegate
  | some d =>
      cases hdone : d.isDone with
      | true =>
          obtain ⟨-, -, hflag, hcalls⟩ := Turn.sharedFlag_endDelegate hd
          unfold iterations stepsMade onEvent
          simp only [hd, hdone, if_true, hflag, hcalls]
          rw [counted_none, if_neg not_passes_none, add_zero, add_zero]
          exact ⟨rfl, rfl⟩
      | false =>
          simp only [hdone, Bool.false_eq_true, if_false]
          exact counts_onDelegate hd hdone answers event

/-- A step of the controller counts, with the flags that it shares with its delegates. -/
theorem controlMove_step_counts (r : ReplayTurn) (answers : Answers) :
    (r.controlMove (.step answers)).iterations
        = r.iterations + counted (r.controlled? (.step answers)) ∧
      (r.controlMove (.step answers)).stepsMade
        = r.stepsMade + if Passes (r.controlled? (.step answers)) then 1 else 0 := by
  set t := r.turn.popped r.turn.bus.queue answers
  obtain ⟨hread, hcalls, hdelegate⟩ := Turn.flag_readFlags t
  obtain ⟨hcounts, hsame⟩ := stepWithExceptionHandling_counts
    (r.mapTurn fun t => (t.popped t.bus.queue answers).readFlags) answers
  set r' := (r.mapTurn fun t => (t.popped t.bus.queue answers).readFlags
    ).stepWithExceptionHandling answers
  obtain ⟨hwrite, htotal⟩ := Turn.sharedFlag_writeFlags r'.turn
  constructor
  · show r'.turn.writeFlags.sharedFlag.currentValue = t.sharedFlag.currentValue + _
    rw [hwrite, ← hread]
    exact hcounts.iterations
  · show ((r'.turn.writeFlags.calls : ℤ) + r'.replaySteps)
      = (t.calls + r.replaySteps : ℤ) + if Passes (t.readFlags.controlled? answers) then 1 else 0
    have hown : r'.turn.self.agentCalls.length + r'.replaySteps
        = t.readFlags.self.agentCalls.length + r.replaySteps
          + if Passes (t.readFlags.controlled? answers) then 1 else 0 := hcounts.ownSteps
    have hkeptDelegate : r'.turn.self.delegate = t.self.delegate := hsame.trans hdelegate
    rw [htotal]
    unfold Turn.calls
    rw [hkeptDelegate]
    rw [hcalls] at hown
    split_ifs at hown ⊢ <;> push_cast <;> omega

/-- A state that is set from outside, as by a resume, counts nothing. -/
theorem controlMove_setAgentState_counts (r : ReplayTurn) (newState : AgentState)
    (answers : Answers) :
    (r.controlMove (.setAgentState newState answers)).iterations = r.iterations ∧
      (r.controlMove (.setAgentState newState answers)).stepsMade = r.stepsMade := by
  set t := r.turn.popped r.turn.bus.queue answers
  obtain ⟨hread, hcalls, hdelegate⟩ := Turn.flag_readFlags t
  have hresumes := Turn.resumes_setAgentStateTo t.readFlags newState
  obtain ⟨hwrite, htotal⟩ := Turn.sharedFlag_writeFlags (t.readFlags.setAgentStateTo newState)
  constructor
  · show (t.readFlags.setAgentStateTo newState).writeFlags.sharedFlag.currentValue
      = t.sharedFlag.currentValue
    rw [hwrite, ← hread]
    exact hresumes.iterations
  · show ((t.readFlags.setAgentStateTo newState).writeFlags.calls : ℤ) + r.replaySteps
      = t.calls + r.replaySteps
    rw [htotal]
    unfold Turn.calls
    rw [hresumes.agentCalls, (Turn.keeps_setAgentStateTo t.readFlags newState).delegate, hcalls,
      hdelegate]

/-- **A move counts** one for a step that it makes and one for a step that is refused for the
budget alone. -/
theorem controlMove_counts (r : ReplayTurn) (m : ControlMove) :
    (r.controlMove m).iterations = r.iterations + counted (r.controlled? m) ∧
      (r.controlMove m).stepsMade
        = r.stepsMade + if Passes (r.controlled? m) then 1 else 0 := by
  -- a move that reaches no control flags
  have hkept {r' : ReplayTurn} (h : r'.iterations = r.iterations ∧ r'.stepsMade = r.stepsMade) :
      r'.iterations = r.iterations + counted none ∧
        r'.stepsMade = r.stepsMade + if Passes none then 1 else 0 := by
    rw [counted_none, if_neg not_passes_none, add_zero, add_zero]
    exact h
  cases m with
  | move m =>
      cases m with
      | publish event source => exact hkept ⟨rfl, rfl⟩
      | deliver answers =>
          show (r.move (.deliver answers)).iterations = _ ∧ (r.move (.deliver answers)).stepsMade = _
          cases hqueue : r.turn.bus.queue with
          | nil =>
              simp only [move, controlled?, hqueue]
              exact hkept ⟨rfl, rfl⟩
          | cons event queue =>
              simp only [move, controlled?, hqueue]
              exact onEvent_counts (r.mapTurn (·.popped queue answers)) answers event
  | step answers => exact controlMove_step_counts r answers
  | setAgentState newState answers =>
      exact hkept (controlMove_setAgentState_counts r newState answers)

/-! ## Whole runs -/

/-- **The accounts of a run**: the counter gets ahead of the steps by the number of the steps
that were refused for the budget alone. -/
theorem account_run (r : ReplayTurn) (moves : List ControlMove) :
    (Run.run controlMove r moves).iterations - r.iterations
      = (Run.run controlMove r moves).stepsMade - r.stepsMade
        + (Run.steps controlMove r moves).countP fun p => Refused (p.1.controlled? p.2) := by
  have hmove (r : ReplayTurn) (m : ControlMove) :
      (r.controlMove m).iterations - r.iterations = (r.controlMove m).stepsMade - r.stepsMade
        + if Refused (r.controlled? m) then 1 else 0 := by
    obtain ⟨hiterations, hsteps⟩ := controlMove_counts r m
    unfold counted at hiterations
    omega
  exact Run.run_account (f := iterations) (g := stepsMade)
    (C := fun r m => Refused (r.controlled? m)) hmove r moves

/-- **The property of a run**: the counter of the iterations grows by the number of the steps
made, and whenever `run_control_flags` raises, the values of both flags are as before. -/
structure CountsIterations (r : ReplayTurn) (moves : List ControlMove) : Prop where
  increase : (Run.run controlMove r moves).iterations - r.iterations
    = (Run.run controlMove r moves).stepsMade - r.stepsMade
  unchanged : ∀ p ∈ Run.steps controlMove r moves, ∀ s ∈ p.1.controlled? p.2,
    (StateTracker.runControlFlags s).2 ≠ none → s.SameValues (StateTracker.runControlFlags s).1

/-- **The iterations are counted** exactly when no step is refused for the budget alone. -/
theorem countsIterations_iff (r : ReplayTurn) (moves : List ControlMove) :
    r.CountsIterations moves ↔ ∀ p ∈ Run.steps controlMove r moves,
      ∀ s ∈ p.1.controlled? p.2, ¬ s.RefusedByBudget := by
  constructor
  · intro h p hp s hs
    exact (sameValues_runControlFlags_iff s).mp (h.unchanged p hp s hs)
  · intro h
    refine ⟨?_, fun p hp s hs => (sameValues_runControlFlags_iff s).mpr (h p hp s hs)⟩
    have hnone : (Run.steps controlMove r moves).countP
        (fun p => Refused (p.1.controlled? p.2)) = 0 := by
      rw [List.countP_eq_zero]
      intro p hp hrefused
      obtain ⟨s, hs, hbudget⟩ := of_decide_eq_true hrefused
      exact h p hp s hs hbudget
    have haccount := account_run r moves
    rw [hnone] at haccount
    omega

end ReplayTurn

/-! ## A step that the budget refuses -/

/-- The options of an agent that may spend one dollar. -/
def oneDollar : ControllerOptions := { codeActOptions with initialMaxBudgetPerTask := some 1 }

/-- The dollar is spent when the agent gets to its first step. -/
def spentBefore : List ControlMove :=
  [.publish (.ofAction (.message { content := "list the files" })) .user,
    .deliver {}, .deliver {}, .deliver {},
    observationOf 1 "" (.recall .workspaceContext),
    .deliver { accumulatedCost := some 1 }].map .move

/-- One iteration is counted, and no step is made. -/
theorem counted_refusedStep :
    ((Run.run ReplayTurn.controlMove (.start oneDollar none .empty []) spentBefore).iterations = 1 ∧
      (Run.run ReplayTurn.controlMove (.start oneDollar none .empty []) spentBefore).stepsMade
        = 0) ∧
    ¬ ∀ (options : ControllerOptions) (log : EventLog) (events : List Event)
        (moves : List ControlMove),
      (ReplayTurn.start options none log events).CountsIterations moves := by
  have hvalues :
      (Run.run ReplayTurn.controlMove (.start oneDollar none .empty []) spentBefore).iterations = 1 ∧
        (Run.run ReplayTurn.controlMove (.start oneDollar none .empty []) spentBefore).stepsMade
          = 0 := by
    decide
  refine ⟨hvalues, fun hall => ?_⟩
  have hincrease := (hall oneDollar .empty [] spentBefore).increase
  rw [hvalues.1, hvalues.2] at hincrease
  revert hincrease
  decide

end OpenHands
