/-
# The limits of an agent's run

The control flags count the iterations of an agent and stop it at a limit; a resume out of
an error raises a limit that was reached, unless the controller runs headless.  The flags
are objects that a controller shares with its delegate.

  * `IterationControlFlag.CountsTo` — what one move of a conversation can do to the flag: at
    most one resume, then at most one step, and a call of the agent only behind a step that
    passed; at the limit nothing is counted and the agent is not called;
  * `Turn.handleEvent_frame` — this is what the handling of one event does.
-/
import OpenHands.TurnFrame

namespace OpenHands

/-! ## The iteration flag -/

namespace IterationControlFlag

/-- The counter is within the limit, or it is 0 and the limit is negative; a limit that was
hit has been reached. -/
structure Valid (f : IterationControlFlag) : Prop where
  within : 0 ≤ f.limitIncreaseAmount ∧ f.currentValue ≤ f.maxValue ∨
    f.limitIncreaseAmount < 0 ∧ f.currentValue = 0 ∧ f.maxValue < 0
  reached : f.hitLimit = true → f.maxValue ≤ f.currentValue

/-- The flag of a new session. -/
theorem valid_new (maxIterations : ℤ) : Valid ⟨maxIterations, 0, maxIterations, false⟩ where
  within := by
    show 0 ≤ maxIterations ∧ 0 ≤ maxIterations ∨ maxIterations < 0 ∧ (0 : ℤ) = 0 ∧ maxIterations < 0
    omega
  reached := by
    intro h
    cases h

/-- A step raises exactly when the limit is reached, and the flag says so afterwards. -/
theorem step_raises_iff (f : IterationControlFlag) :
    (f.step.2 ≠ none ↔ f.maxValue ≤ f.currentValue) ∧
      (f.step.2 ≠ none ↔ f.step.1.hitLimit = true) := by
  unfold step
  split_ifs with h <;> simp [h]

/-- A step that passes is one below the limit, and counts. -/
theorem step_eq_of_passes {f : IterationControlFlag} (h : f.step.2 = none) :
    f.currentValue < f.maxValue ∧
      f.step.1 = { f with hitLimit := false, currentValue := f.currentValue + 1 } := by
  unfold step at h ⊢
  split_ifs at h ⊢ with hle
  exact ⟨by omega, rfl⟩

/-- A step that raises only notes it. -/
theorem step_eq_of_raises {f : IterationControlFlag} (h : f.step.2 ≠ none) :
    f.maxValue ≤ f.currentValue ∧ f.step.1 = { f with hitLimit := true } := by
  unfold step at h ⊢
  split_ifs at h ⊢ with hle
  · exact ⟨hle, rfl⟩
  · exact absurd rfl h

theorem Valid.step {f : IterationControlFlag} (h : f.Valid) : f.step.1.Valid := by
  by_cases hpass : f.step.2 = none
  · obtain ⟨hlt, heq⟩ := step_eq_of_passes hpass
    rw [heq]
    refine ⟨?_, by simp⟩
    rcases h.within with ⟨hamount, -⟩ | ⟨-, hzero, hneg⟩
    · left
      show 0 ≤ f.limitIncreaseAmount ∧ f.currentValue + 1 ≤ f.maxValue
      omega
    · omega
  · obtain ⟨hle, heq⟩ := step_eq_of_raises hpass
    rw [heq]
    exact ⟨h.within, fun _ => hle⟩

/-- A resume raises the limit by the amount, when it was hit in interactive mode. -/
theorem increaseLimit_cases (f : IterationControlFlag) (headlessMode : Bool) :
    f.increaseLimit headlessMode = f ∨
      headlessMode = false ∧ f.hitLimit = true ∧ f.increaseLimit headlessMode
        = { f with maxValue := f.maxValue + f.limitIncreaseAmount, hitLimit := false } := by
  unfold increaseLimit
  cases headlessMode <;> cases hhit : f.hitLimit <;> simp

theorem Valid.increaseLimit {f : IterationControlFlag} (h : f.Valid) (headlessMode : Bool) :
    (f.increaseLimit headlessMode).Valid := by
  rcases increaseLimit_cases f headlessMode with heq | ⟨-, -, heq⟩
  · rw [heq]
    exact h
  · rw [heq]
    refine ⟨?_, by simp⟩
    rcases h.within with ⟨hamount, hle⟩ | ⟨hamount, hzero, hneg⟩
    · left
      show 0 ≤ f.limitIncreaseAmount ∧ f.currentValue ≤ f.maxValue + f.limitIncreaseAmount
      omega
    · right
      show f.limitIncreaseAmount < 0 ∧ f.currentValue = 0 ∧
        f.maxValue + f.limitIncreaseAmount < 0
      omega

/-- What a move can do to a flag while the agent is called `n' - n` times: a resume, if the
agent was in an error, then a step, and a call only when the step passed. -/
def CountsTo (headlessMode : Bool) (inError : Prop) (f : IterationControlFlag) (n : ℕ)
    (f' : IterationControlFlag) (n' : ℕ) : Prop :=
  ∃ f₁, (f₁ = f ∨ inError ∧ f₁ = f.increaseLimit headlessMode) ∧
    (f' = f₁ ∧ n' = n ∨ f' = f₁.step.1 ∧ (n' = n ∨ f₁.step.2 = none ∧ n' = n + 1))

section CountsTo

variable {headlessMode : Bool} {inError : Prop} {f f' : IterationControlFlag} {n n' : ℕ}

theorem CountsTo.refl (headlessMode : Bool) (inError : Prop) (f : IterationControlFlag) (n : ℕ) :
    CountsTo headlessMode inError f n f n :=
  ⟨f, Or.inl rfl, Or.inl ⟨rfl, rfl⟩⟩

/-- The flag after the resume is valid and counts as much. -/
theorem resumed_cases (h : f.Valid) {f₁ : IterationControlFlag}
    (hf₁ : f₁ = f ∨ inError ∧ f₁ = f.increaseLimit headlessMode) :
    f₁.Valid ∧ f₁.currentValue = f.currentValue ∧
      f₁.limitIncreaseAmount = f.limitIncreaseAmount ∧
      (f₁.maxValue = f.maxValue ∨ inError ∧ headlessMode = false ∧ f.hitLimit = true ∧
        f₁.maxValue = f.maxValue + f.limitIncreaseAmount) := by
  rcases hf₁ with rfl | ⟨herror, rfl⟩
  · exact ⟨h, rfl, rfl, Or.inl rfl⟩
  · refine ⟨h.increaseLimit headlessMode, ?_⟩
    rcases increaseLimit_cases f headlessMode with heq | ⟨hinteractive, hhit, heq⟩
    · rw [heq]
      exact ⟨rfl, rfl, Or.inl rfl⟩
    · rw [heq]
      exact ⟨rfl, rfl, Or.inr ⟨herror, hinteractive, hhit, rfl⟩⟩

theorem CountsTo.valid (h : CountsTo headlessMode inError f n f' n') (hf : f.Valid) :
    f'.Valid := by
  obtain ⟨f₁, hf₁, hstep⟩ := h
  have hvalid := (resumed_cases hf hf₁).1
  rcases hstep with ⟨rfl, -⟩ | ⟨rfl, -⟩
  · exact hvalid
  · exact hvalid.step

/-- A step leaves the limit alone, and counts at most one up. -/
theorem step_frame (f : IterationControlFlag) :
    f.step.1.maxValue = f.maxValue ∧ f.step.1.limitIncreaseAmount = f.limitIncreaseAmount ∧
      f.currentValue ≤ f.step.1.currentValue := by
  unfold step
  split_ifs
  · exact ⟨rfl, rfl, le_refl _⟩
  · exact ⟨rfl, rfl, by simp⟩

theorem CountsTo.currentValue_le (h : CountsTo headlessMode inError f n f' n') (hf : f.Valid) :
    f.currentValue ≤ f'.currentValue := by
  obtain ⟨f₁, hf₁, hstep⟩ := h
  rw [← (resumed_cases hf hf₁).2.1]
  rcases hstep with ⟨rfl, -⟩ | ⟨rfl, -⟩
  · exact le_refl _
  · exact (step_frame f₁).2.2

theorem CountsTo.limitIncreaseAmount_eq (h : CountsTo headlessMode inError f n f' n')
    (hf : f.Valid) : f'.limitIncreaseAmount = f.limitIncreaseAmount := by
  obtain ⟨f₁, hf₁, hstep⟩ := h
  rw [← (resumed_cases hf hf₁).2.2.1]
  rcases hstep with ⟨rfl, -⟩ | ⟨rfl, -⟩
  · rfl
  · exact (step_frame f₁).2.1

/-- The limit is the same, or a resume was due and raised it by the amount. -/
theorem CountsTo.maxValue_cases (h : CountsTo headlessMode inError f n f' n') (hf : f.Valid) :
    f'.maxValue = f.maxValue ∨ inError ∧ headlessMode = false ∧ f.hitLimit = true ∧
      f'.maxValue = f.maxValue + f.limitIncreaseAmount := by
  obtain ⟨f₁, hf₁, hstep⟩ := h
  have hmax := (resumed_cases hf hf₁).2.2.2
  rcases hstep with ⟨rfl, -⟩ | ⟨rfl, -⟩
  · exact hmax
  · rw [(step_frame f₁).1]
    exact hmax

/-- At the limit nothing is counted and the agent is not called. -/
theorem CountsTo.at_limit (h : CountsTo headlessMode inError f n f' n') (hf : f.Valid)
    (hlimit : f.maxValue ≤ f.currentValue) (hmax : f'.maxValue = f.maxValue) :
    f'.currentValue = f.currentValue ∧ n' = n := by
  obtain ⟨f₁, hf₁, hstep⟩ := h
  obtain ⟨-, hcurrent, -, -⟩ := resumed_cases hf hf₁
  rcases hstep with ⟨rfl, hn⟩ | ⟨rfl, hn⟩
  · exact ⟨hcurrent, hn⟩
  · rw [(step_frame f₁).1] at hmax
    have hraises : f₁.step.2 ≠ none := by
      rw [(step_raises_iff f₁).1]
      omega
    rcases hn with hn | ⟨hpass, -⟩
    · refine ⟨?_, hn⟩
      rw [(step_eq_of_raises hraises).2]
      exact hcurrent
    · exact absurd hpass hraises

end CountsTo

end IterationControlFlag

namespace Turn

/-! ## What leaves the flag alone -/

/-- The options, the iteration flag and the record of the calls of the agent are the same. -/
structure KeepsFlag (t t' : Turn) : Prop where
  options : t'.self.toControllerOptions = t.self.toControllerOptions
  flag : t'.self.state.iterationFlag = t.self.state.iterationFlag
  agentCalls : t'.self.agentCalls = t.self.agentCalls

theorem KeepsFlag.refl (t : Turn) : t.KeepsFlag t :=
  ⟨rfl, rfl, rfl⟩

theorem KeepsFlag.trans {a b c : Turn} (h : a.KeepsFlag b) (h' : b.KeepsFlag c) :
    a.KeepsFlag c :=
  ⟨h'.options.trans h.options, h'.flag.trans h.flag, h'.agentCalls.trans h.agentCalls⟩

theorem KeepsFlag.ite {t a b : Turn} {p : Prop} [Decidable p] (ha : t.KeepsFlag a)
    (hb : t.KeepsFlag b) : t.KeepsFlag (if p then a else b) := by
  split_ifs
  · exact ha
  · exact hb

theorem keepsFlag_addEvent (t : Turn) (event : Event) (source : EventSource) :
    t.KeepsFlag (t.addEvent event source) :=
  ⟨rfl, rfl, rfl⟩

theorem keepsFlag_reset (t : Turn) : t.KeepsFlag t.reset := by
  unfold reset
  extract_lets t'
  have hkeeps : t.KeepsFlag t' := by
    unfold t'
    split
    · exact .refl t
    · exact .ite (.refl t) (keepsFlag_addEvent t _ _)
  exact hkeeps.trans ⟨rfl, rfl, rfl⟩

theorem keepsFlag_emitAnswered (t : Turn) (status : ActionConfirmationStatus) :
    t.KeepsFlag (t.emitAnswered status) := by
  unfold emitAnswered
  split <;> exact ⟨rfl, rfl, rfl⟩

/-! ## Resumes -/

/-- The flag is the same, or the agent was in an error and the limit is increased. -/
structure Resumes (t t' : Turn) : Prop where
  options : t'.self.toControllerOptions = t.self.toControllerOptions
  flag : t'.self.state.iterationFlag = t.self.state.iterationFlag ∨
    t.self.state.agentState = .error ∧ t'.self.state.iterationFlag
      = t.self.state.iterationFlag.increaseLimit t.self.headlessMode
  agentCalls : t'.self.agentCalls = t.self.agentCalls

theorem KeepsFlag.resumes {t t' : Turn} (h : t.KeepsFlag t') : t.Resumes t' :=
  ⟨h.options, Or.inl h.flag, h.agentCalls⟩

theorem Resumes.trans_keepsFlag {a b c : Turn} (h : a.Resumes b) (h' : b.KeepsFlag c) :
    a.Resumes c := by
  refine ⟨h'.options.trans h.options, ?_, h'.agentCalls.trans h.agentCalls⟩
  rw [h'.flag]
  exact h.flag

theorem KeepsFlag.trans_resumes {a b c : Turn} (h : a.KeepsFlag b)
    (hstate : b.self.state.agentState = a.self.state.agentState) (h' : b.Resumes c) :
    a.Resumes c := by
  have hheadless : b.self.headlessMode = a.self.headlessMode :=
    congrArg ControllerOptions.headlessMode h.options
  refine ⟨h'.options.trans h.options, ?_, h'.agentCalls.trans h.agentCalls⟩
  rw [← h.flag, ← hstate, ← hheadless]
  exact h'.flag

/-- Setting the agent state increases the limit on the way from an error to running. -/
theorem flag_setAgentStateTo (t : Turn) (newState : AgentState) :
    (t.setAgentStateTo newState).self.toControllerOptions = t.self.toControllerOptions ∧
      (t.setAgentStateTo newState).self.agentCalls = t.self.agentCalls ∧
      (t.setAgentStateTo newState).self.state.iterationFlag =
        if t.self.state.agentState = .error ∧ newState = .running then
          t.self.state.iterationFlag.increaseLimit t.self.headlessMode
        else t.self.state.iterationFlag := by
  unfold setAgentStateTo
  by_cases hsame : newState = t.self.state.agentState
  · rw [if_pos hsame, if_neg]
    · exact ⟨rfl, rfl, rfl⟩
    · rintro ⟨herror, hrunning⟩
      rw [herror, hrunning] at hsame
      cases hsame
  · rw [if_neg hsame]
    extract_lets oldState t₁ t₂ t₃ t₄ reason
    have h₂ : t.KeepsFlag t₂ :=
      KeepsFlag.trans (b := t₁) ⟨rfl, rfl, rfl⟩ (.ite (keepsFlag_reset t₁) (.refl t₁))
    have h₄ : t₃.KeepsFlag t₄ := by
      unfold t₄
      split
      · exact keepsFlag_emitAnswered t₃ _
      · exact .refl t₃
    have hheadless : t₂.self.headlessMode = t.self.headlessMode :=
      congrArg ControllerOptions.headlessMode h₂.options
    show t₄.self.toControllerOptions = _ ∧ t₄.self.agentCalls = _ ∧
      t₄.self.state.iterationFlag = _
    rw [h₄.options, h₄.flag, h₄.agentCalls]
    unfold t₃
    by_cases hresume : oldState = .error ∧ newState = .running
    · rw [if_pos hresume, if_pos hresume, ← h₂.flag, ← hheadless]
      exact ⟨h₂.options, h₂.agentCalls, rfl⟩
    · rw [if_neg hresume, if_neg hresume]
      exact ⟨h₂.options, h₂.agentCalls, h₂.flag⟩

theorem resumes_setAgentStateTo (t : Turn) (newState : AgentState) :
    t.Resumes (t.setAgentStateTo newState) := by
  obtain ⟨hoptions, hcalls, hflag⟩ := flag_setAgentStateTo t newState
  refine ⟨hoptions, ?_, hcalls⟩
  rw [hflag]
  split_ifs with hresume
  · exact Or.inr ⟨hresume.1, rfl⟩
  · exact Or.inl rfl

/-- There is no resume unless the agent was in an error and is to run. -/
theorem keepsFlag_setAgentStateTo (t : Turn) {newState : AgentState}
    (h : t.self.state.agentState ≠ .error ∨ newState ≠ .running) :
    t.KeepsFlag (t.setAgentStateTo newState) := by
  obtain ⟨hoptions, hcalls, hflag⟩ := flag_setAgentStateTo t newState
  refine ⟨hoptions, ?_, hcalls⟩
  rw [hflag, if_neg]
  rintro ⟨herror, hrunning⟩
  rcases h with h | h
  · exact h herror
  · exact h hrunning

theorem keepsFlag_reactToException (t : Turn) (e : PyException) :
    t.KeepsFlag (t.reactToException e) := by
  have hset (t : Turn) (text : String) {s : AgentState} (hs : s ≠ .running) :
      t.KeepsFlag ((t.mapState fun s => { s with lastError := text }).setAgentStateTo s) :=
    KeepsFlag.trans (b := t.mapState _) ⟨rfl, rfl, rfl⟩
      (keepsFlag_setAgentStateTo _ (Or.inr hs))
  have hlast : t.KeepsFlag
      (t.mapState fun s => { s with lastError := e.name ++ ": " ++ e.text }) := ⟨rfl, rfl, rfl⟩
  unfold reactToException
  refine .ite (hset t _ (by decide)) ?_
  split
  · exact hlast.trans (hset _ _ (by decide))
  · exact .ite (.ite (hlast.trans (hset _ _ (by decide))) (hset t _ (by decide)))
      (hset t _ (by decide))

/-! ## Steps -/

/-- The flag makes at most one step, and the agent is called at most once, behind a step
that passed. -/
structure Steps (t t' : Turn) : Prop where
  options : t'.self.toControllerOptions = t.self.toControllerOptions
  flag : t'.self.state.iterationFlag = t.self.state.iterationFlag ∧
      t'.self.agentCalls.length = t.self.agentCalls.length ∨
    t'.self.state.iterationFlag = t.self.state.iterationFlag.step.1 ∧
      (t'.self.agentCalls.length = t.self.agentCalls.length ∨
        t.self.state.iterationFlag.step.2 = none ∧
          t'.self.agentCalls.length = t.self.agentCalls.length + 1)

theorem KeepsFlag.steps {t t' : Turn} (h : t.KeepsFlag t') : t.Steps t' :=
  ⟨h.options, Or.inl ⟨h.flag, congrArg List.length h.agentCalls⟩⟩

theorem KeepsFlag.trans_steps {a b c : Turn} (h : a.KeepsFlag b) (h' : b.Steps c) :
    a.Steps c := by
  refine ⟨h'.options.trans h.options, ?_⟩
  rw [← h.flag, ← h.agentCalls]
  exact h'.flag

theorem Steps.trans_keepsFlag {a b c : Turn} (h : a.Steps b) (h' : b.KeepsFlag c) :
    a.Steps c := by
  refine ⟨h'.options.trans h.options, ?_⟩
  rw [h'.flag, h'.agentCalls]
  exact h.flag

theorem keepsFlag_emitAction (t : Turn) (answers : Answers) (action : Action)
    (toolCallMetadata : Option ToolCallMetadata) :
    t.KeepsFlag (t.emitAction answers action toolCallMetadata) := by
  unfold emitAction
  split
  · exact .refl t
  · extract_lets a event t₁ t₂ added
    have h₁ : t.KeepsFlag t₁ := ⟨rfl, rfl, rfl⟩
    have h₂ : t₁.KeepsFlag t₂ :=
      .ite (keepsFlag_setAgentStateTo t₁ (Or.inr (by decide))) (.refl t₁)
    exact (h₁.trans h₂).trans ⟨rfl, rfl, rfl⟩
  · exact keepsFlag_addEvent t _ _

/-- A call of the agent is recorded. -/
theorem callAgent_frame (t : Turn) (answers : Answers) :
    KeepsFlag (t.mapSelf fun c => { c with agentCalls := c.agentCalls ++ [c.unobserved] })
      (t.callAgent answers).1 := by
  unfold callAgent
  extract_lets t₁
  split
  · exact keepsFlag_emitAction t₁ answers _ _
  · exact keepsFlag_addEvent t₁ _ _
  · split_ifs
    · exact keepsFlag_addEvent t₁ _ _
    · exact keepsFlag_addEvent t₁ _ _
    · exact .refl t₁
    · exact .refl t₁

/-- The control flags step the iteration flag; if they do not raise it has passed. -/
theorem flag_runControlFlags (s : State) :
    (StateTracker.runControlFlags s).1.iterationFlag = s.iterationFlag.step.1 ∧
      ((StateTracker.runControlFlags s).2 = none → s.iterationFlag.step.2 = none) := by
  unfold StateTracker.runControlFlags
  rcases s.iterationFlag.step with ⟨flag, _ | message⟩
  · cases s.budgetFlag with
    | none => exact ⟨rfl, fun _ => rfl⟩
    | some budgetFlag => exact ⟨rfl, fun _ => rfl⟩
  · exact ⟨rfl, fun h => absurd h (by simp)⟩

theorem steps_step (t : Turn) (answers : Answers) : t.Steps (t.step answers).1 := by
  unfold step
  split_ifs with hstate hpending
  · exact (KeepsFlag.refl t).steps
  · exact (KeepsFlag.refl t).steps
  · extract_lets t₁ raised t₂
    have h₁ : t.KeepsFlag t₁ := by
      refine ⟨rfl, ?_, rfl⟩
      show (StateTracker.syncBudgetFlagWithMetrics _ _).iterationFlag = _
      cases answers.accumulatedCost <;> rfl
    obtain ⟨hflag, hpass⟩ := flag_runControlFlags t₁.self.state
    split_ifs
    · exact (h₁.trans (keepsFlag_reactToException t₁ _)).steps
    · refine h₁.trans_steps ?_
      have hstepped : t₁.Steps t₂ := ⟨rfl, Or.inr ⟨hflag, Or.inl rfl⟩⟩
      cases hraised : raised with
      | some message => exact hstepped.trans_keepsFlag (keepsFlag_reactToException t₂ _)
      | none =>
          have hcalled : t₁.Steps (t₂.mapSelf fun c =>
              { c with agentCalls := c.agentCalls ++ [c.unobserved] }) := by
            refine ⟨rfl, Or.inr ⟨hflag, Or.inr ⟨hpass hraised, ?_⟩⟩⟩
            exact List.length_append
          exact hcalled.trans_keepsFlag (callAgent_frame t₂ answers)

theorem steps_stepWithExceptionHandling (t : Turn) (answers : Answers) :
    t.Steps (t.stepWithExceptionHandling answers) := by
  have hstep := steps_step t answers
  unfold stepWithExceptionHandling
  split
  · rename_i heq
    rw [heq] at hstep
    exact hstep
  · rename_i heq
    rw [heq] at hstep
    exact hstep.trans_keepsFlag (keepsFlag_reactToException _ _)

/-! ## Messages, observations and loop recovery -/

/-- An agent that is in no error is not resumed. -/
theorem Resumes.keepsFlag {t t' : Turn} (h : t.Resumes t')
    (hstate : t.self.state.agentState ≠ .error) : t.KeepsFlag t' := by
  refine ⟨h.options, ?_, h.agentCalls⟩
  rcases h.flag with hflag | ⟨herror, -⟩
  · exact hflag
  · exact absurd herror hstate

theorem resumes_handleMessageAction (t : Turn) (event : Event) (message : MessageAction) :
    t.Resumes (t.handleMessageAction event message) := by
  unfold handleMessageAction
  split_ifs with huser hagent hwait
  · extract_lets first isFirst recallType recallAction added t₁
    have h₁ : t.KeepsFlag t₁ := ⟨rfl, rfl, rfl⟩
    split_ifs
    · exact h₁.trans_resumes rfl (resumes_setAgentStateTo t₁ .running)
    · exact h₁.resumes
  · exact resumes_setAgentStateTo t _
  · exact (KeepsFlag.refl t).resumes
  · exact (KeepsFlag.refl t).resumes

theorem keepsFlag_handleObservation (t : Turn) (event : Event) :
    t.KeepsFlag (t.handleObservation event) := by
  unfold handleObservation
  split
  · exact .refl t
  · refine .ite (.ite (.refl t) ?_) (.refl t)
    extract_lets t₁ t₂
    have h₁ : t.KeepsFlag t₁ := ⟨rfl, rfl, rfl⟩
    have h₂ : t₁.KeepsFlag t₂ := by
      unfold t₂
      split_ifs with hconfirmed
      · refine keepsFlag_setAgentStateTo t₁ (Or.inl ?_)
        rw [hconfirmed]
        decide
      · exact .refl t₁
    exact (h₁.trans h₂).trans
      (.ite (keepsFlag_setAgentStateTo t₂ (Or.inr (by decide))) (.refl t₂))

/-- Cutting the history changes neither the flag nor the agent state. -/
theorem keepsFlag_truncateMemoryToPoint (t : Turn) (recoveryPoint : ℤ) :
    t.KeepsFlag (t.truncateMemoryToPoint recoveryPoint) ∧
      (t.truncateMemoryToPoint recoveryPoint).self.state.agentState = t.self.state.agentState := by
  have hcut : (OpenHands.truncateMemoryToPoint t.self.state recoveryPoint).iterationFlag
        = t.self.state.iterationFlag ∧
      (OpenHands.truncateMemoryToPoint t.self.state recoveryPoint).agentState
        = t.self.state.agentState := by
    unfold OpenHands.truncateMemoryToPoint
    split_ifs <;> exact ⟨rfl, rfl⟩
  unfold truncateMemoryToPoint
  split_ifs
  · exact ⟨.refl t, rfl⟩
  · exact ⟨⟨rfl, hcut.1, rfl⟩, hcut.2⟩

theorem keepsFlag_performLoopRecovery (t : Turn) (recoveryPoint : ℤ) :
    t.KeepsFlag (t.performLoopRecovery recoveryPoint) := by
  unfold performLoopRecovery
  have htruncated := (keepsFlag_truncateMemoryToPoint t recoveryPoint).1
  exact (htruncated.trans (keepsFlag_setAgentStateTo _ (Or.inr (by decide)))).trans
    (keepsFlag_addEvent _ _ _)

/-- A restart sets the agent running; the message that is handled again finds it so. -/
theorem resumes_restartWithLastUserMessage (t : Turn) (recoveryPoint : ℤ) :
    t.Resumes (t.restartWithLastUserMessage recoveryPoint) := by
  unfold restartWithLastUserMessage
  split
  · rename_i last _
    extract_lets t₁ t₂ newAction
    obtain ⟨htruncated, hstate⟩ := keepsFlag_truncateMemoryToPoint t recoveryPoint
    have h₁ : t.Resumes t₁ :=
      htruncated.trans_resumes hstate (resumes_setAgentStateTo _ .running)
    have h₂ : t₁.KeepsFlag t₂ := keepsFlag_addEvent t₁ _ _
    have hrunning : t₂.self.state.agentState = .running :=
      agentState_setAgentStateTo (t.truncateMemoryToPoint recoveryPoint) .running
    refine h₁.trans_keepsFlag (h₂.trans ((resumes_handleMessageAction t₂ _ _).keepsFlag ?_))
    rw [hrunning]
    decide
  · exact (keepsFlag_performLoopRecovery t recoveryPoint).resumes

theorem resumes_handleLoopRecoveryAction (t : Turn) (answers : Answers) (option : ℤ) :
    t.Resumes (t.handleLoopRecoveryAction answers option) := by
  unfold handleLoopRecoveryAction
  split
  · exact (KeepsFlag.refl t).resumes
  · split_ifs
    · exact (keepsFlag_performLoopRecovery t _).resumes
    · exact resumes_restartWithLastUserMessage t _
    · exact resumes_setAgentStateTo t _
    · exact (KeepsFlag.refl t).resumes

/-! ## Delegates -/

/-- A delegate that has only just been started: it shares the flag and has not been
called. -/
def FreshDelegate (t : Turn) : Prop :=
  ∀ d, t.self.delegate = some d → d.headlessMode = t.self.headlessMode ∧
    d.state.iterationFlag = t.self.state.iterationFlag ∧ d.agentCalls = []

/-- The history is loaded without touching the flag or the agent state. -/
theorem initHistory_frame (state : State) (stream : EventLog) :
    (StateTracker.initHistory state stream).iterationFlag = state.iterationFlag ∧
      (StateTracker.initHistory state stream).agentState = state.agentState := by
  simp only [StateTracker.initHistory]
  split_ifs <;> exact ⟨rfl, rfl⟩

/-- A new controller works with the initial state; it has no delegate and has not called its
agent. -/
theorem create_frame (options : ControllerOptions) (initialState : Option State)
    (bus : EventBus) {state : State}
    (hstate : state = StateTracker.setInitialState initialState options.initialMaxIterations
      options.initialMaxBudgetPerTask options.confirmationMode) :
    (create options initialState bus).self.toControllerOptions = options ∧
      (create options initialState bus).self.state.iterationFlag = state.iterationFlag ∧
      (create options initialState bus).self.state.agentState = state.agentState ∧
      (create options initialState bus).self.agentCalls = [] ∧
      (create options initialState bus).self.delegate = none := by
  subst hstate
  unfold create
  extract_lets state₁ state₂
  obtain ⟨hflag, hagentState⟩ := initHistory_frame state₁ bus.log
  rcases addSystemMessage_cases ⟨{ options with state := state₂ }, bus.arrive⟩ with
    heq | ⟨content, heq⟩ <;> rw [heq] <;> exact ⟨rfl, hflag, hagentState, rfl, rfl⟩

/-- The state of an earlier session or of a parent keeps its flag and its agent state. -/
theorem setInitialState_frame (state : State) (maxIterations : ℤ) (maxBudgetPerTask : Option ℚ)
    (confirmationMode : Bool) :
    (StateTracker.setInitialState (some state) maxIterations maxBudgetPerTask
        confirmationMode).iterationFlag = state.iterationFlag ∧
      (StateTracker.setInitialState (some state) maxIterations maxBudgetPerTask
        confirmationMode).agentState = state.agentState := by
  simp only [StateTracker.setInitialState]
  split_ifs <;> exact ⟨rfl, rfl⟩

theorem startDelegate_frame {t t' : Turn} {answers : Answers} {action : AgentDelegateAction}
    (h : t.startDelegate answers action = some t') :
    t.KeepsFlag t' ∧ t'.FreshDelegate ∧
      ∃ d, t'.self.delegate = some d ∧ d.state.agentState = .loading := by
  obtain ⟨agent, -, rfl⟩ := Option.map_eq_some_iff.mp h
  extract_lets state delegate
  obtain ⟨hoptions, hflag, hstate, hcalls, -⟩ := create_frame
    { agent := agent
      headlessMode := t.self.headlessMode
      securityAnalyzer := t.self.securityAnalyzer
      initialMaxIterations := t.self.initialMaxIterations
      initialMaxBudgetPerTask := t.self.initialMaxBudgetPerTask } (some state) t.bus.arrive rfl
  obtain ⟨hflag', hstate'⟩ := setInitialState_frame state t.self.initialMaxIterations
    t.self.initialMaxBudgetPerTask false
  have hheadless := congrArg ControllerOptions.headlessMode hoptions
  refine ⟨⟨rfl, rfl, rfl⟩, ?_, delegate.self, rfl, hstate.trans hstate'⟩
  intro d hd
  cases hd
  exact ⟨hheadless, hflag.trans hflag', hcalls⟩

/-- The delegate that was started is set running, which is no resume. -/
theorem postTask_frame {t : Turn} (action : AgentDelegateAction) (hfresh : t.FreshDelegate)
    {d : AgentController} (hd : t.self.delegate = some d) (hstate : d.state.agentState = .loading) :
    t.KeepsFlag (t.postTask action) ∧ (t.postTask action).FreshDelegate ∧
      (t.postTask action).self.delegate.isSome := by
  unfold postTask
  split
  · rename_i task _
    set posted := t.addEvent (.ofAction (.message { content := "TASK: " ++ task })) .user
    have hposted : posted.self.delegate = some d := hd
    have hrun : KeepsFlag ⟨d, posted.bus⟩ (setAgentStateTo ⟨d, posted.bus⟩ .running) := by
      apply keepsFlag_setAgentStateTo
      left
      show d.state.agentState ≠ .error
      rw [hstate]
      decide
    unfold onDelegate
    rw [hposted]
    refine ⟨⟨rfl, rfl, rfl⟩, ?_, rfl⟩
    intro d' hd'
    cases hd'
    obtain ⟨hheadless, hflag, hcalls⟩ := hfresh d hd
    exact ⟨(congrArg ControllerOptions.headlessMode hrun.options).trans hheadless,
      hrun.flag.trans hflag, hrun.agentCalls.trans hcalls⟩
  · refine ⟨.refl t, hfresh, ?_⟩
    rw [hd]
    rfl

/-! ## Handling one event -/

/-- An action resumes at most once, and a delegate that it starts is a fresh one. -/
theorem handleAction_frame {t t' : Turn} {answers : Answers} {event : Event} {action : Action}
    (h : t.handleAction answers event action = some t') :
    t.Resumes t' ∧ (t'.self.delegate = t.self.delegate ∨
      t'.self.delegate.isSome ∧ t'.FreshDelegate) := by
  unfold handleAction at h
  split at h
  case h_3 delegateAction =>
    obtain ⟨started, hstarted, rfl⟩ := Option.map_eq_some_iff.mp h
    obtain ⟨hkeeps, hfresh, d, hd, hstate⟩ := startDelegate_frame hstarted
    obtain ⟨hposted, hfresh', hsome⟩ := postTask_frame delegateAction hfresh hd hstate
    exact ⟨(hkeeps.trans hposted).resumes, Or.inr ⟨hsome, hfresh'⟩⟩
  all_goals
    cases h
  · exact ⟨resumes_setAgentStateTo t _, Or.inl (keeps_setAgentStateTo t _).delegate⟩
  · exact ⟨resumes_handleMessageAction t event _,
      Or.inl (keeps_handleMessageAction t event _).delegate⟩
  · refine ⟨?_, Or.inl (keeps_setAgentStateTo (t.mapState _) _).delegate⟩
    exact KeepsFlag.trans_resumes (b := t.mapState _) ⟨rfl, rfl, rfl⟩ rfl
      (resumes_setAgentStateTo _ _)
  · refine ⟨?_, Or.inl (keeps_setAgentStateTo (t.mapState _) _).delegate⟩
    exact KeepsFlag.trans_resumes (b := t.mapState _) ⟨rfl, rfl, rfl⟩ rfl
      (resumes_setAgentStateTo _ _)
  · exact ⟨resumes_handleLoopRecoveryAction t answers _,
      Or.inl (delegate_handleLoopRecoveryAction t answers _)⟩
  · exact ⟨(KeepsFlag.refl _).resumes, Or.inl rfl⟩

/-- A controller with a delegate does not step. -/
theorem shouldStep_of_delegate {c : AgentController} (h : c.delegate.isSome) (event : Event) :
    c.shouldStep event = false := by
  unfold AgentController.shouldStep
  cases hd : c.delegate with
  | none => simp [hd] at h
  | some d => rfl

/-- What one turn does to the flag of the controller. -/
def Counts (t t' : Turn) : Prop :=
  IterationControlFlag.CountsTo t.self.headlessMode (t.self.state.agentState = .error)
    t.self.state.iterationFlag t.self.agentCalls.length
    t'.self.state.iterationFlag t'.self.agentCalls.length

theorem Resumes.counts {t t' : Turn} (h : t.Resumes t') : t.Counts t' :=
  ⟨_, h.flag, Or.inl ⟨rfl, congrArg List.length h.agentCalls⟩⟩

theorem Resumes.counts_of_steps {a b c : Turn} (h : a.Resumes b) (h' : b.Steps c) :
    a.Counts c := by
  refine ⟨_, h.flag, ?_⟩
  rw [← h.agentCalls]
  exact h'.flag

/-- **Handling an event**: a resume, then a step. -/
theorem handleEvent_frame (t : Turn) (answers : Answers) (event : Event) :
    (t.handleEvent answers event).self.toControllerOptions = t.self.toControllerOptions ∧
      t.Counts (t.handleEvent answers event) ∧
      (t.self.delegate = none → (t.handleEvent answers event).FreshDelegate) := by
  unfold handleEvent
  extract_lets t₁ t₂ handled
  have h₁ : t.KeepsFlag t₁ := ⟨rfl, rfl, rfl⟩
  have h₂ : t.KeepsFlag t₂ :=
    h₁.trans ⟨rfl, StateTracker.iterationFlag_addHistory t₁.self.state event, rfl⟩
  have hfresh_none {u : Turn} (hdelegate : u.self.delegate = t.self.delegate) :
      t.self.delegate = none → u.FreshDelegate := by
    intro hnone d hd
    rw [hdelegate, hnone] at hd
    cases hd
  split_ifs
  · exact ⟨h₁.options, h₁.resumes.counts, hfresh_none rfl⟩
  · have hhandled : ∀ t₃, handled = some t₃ → t₂.Resumes t₃ ∧
        (t₃.self.delegate = t.self.delegate ∨ t₃.self.delegate.isSome ∧ t₃.FreshDelegate) := by
      intro t₃ ht₃
      unfold handled at ht₃
      split at ht₃
      · exact handleAction_frame ht₃
      · cases ht₃
        exact ⟨(keepsFlag_handleObservation t₂ event).resumes,
          Or.inl (keeps_handleObservation t₂ event).delegate⟩
    clear_value handled
    cases handled with
    | none => exact ⟨h₂.options, h₂.resumes.counts, hfresh_none rfl⟩
    | some t₃ =>
        obtain ⟨hresumes, hdelegate⟩ := hhandled t₃ rfl
        have h₃ : t.Resumes t₃ := h₂.trans_resumes
          (StateTracker.agentState_addHistory t₁.self.state event) hresumes
        show (if t₃.self.shouldStep event then t₃.stepWithExceptionHandling answers
          else t₃).self.toControllerOptions = _ ∧ t.Counts (if _ then _ else t₃) ∧ (_ →
            FreshDelegate (if _ then _ else t₃))
        by_cases hstep : t₃.self.shouldStep event = true
        · rw [if_pos hstep]
          have hsteps := steps_stepWithExceptionHandling t₃ answers
          refine ⟨hsteps.options.trans h₃.options, h₃.counts_of_steps hsteps, ?_⟩
          rcases hdelegate with hdelegate | ⟨hsome, -⟩
          · apply hfresh_none
            rw [(keeps_stepWithExceptionHandling t₃ answers).delegate, hdelegate]
          · rw [shouldStep_of_delegate hsome event] at hstep
            cases hstep
        · rw [if_neg hstep]
          refine ⟨h₃.options, h₃.counts, ?_⟩
          rcases hdelegate with hdelegate | ⟨-, hfresh⟩
          · exact hfresh_none hdelegate
          · exact fun _ => hfresh

end Turn

end OpenHands
