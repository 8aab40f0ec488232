/-
# Delegates that stopped at a limit

`on_event` of a parent ends a delegate that is in an error, unless the `last_error` of the
delegate says that it stopped at a limit; then it goes on forwarding the events.  The error is
recognised by its text: `_react_to_exception` writes the name of the exception, a colon, a
space and the message, and `on_event` looks for the beginning of such a text.

For the budget the text that is looked for has no space behind the colon.  It occurs in no
message, whatever the numbers are, and a delegate that stopped at the budget is ended by the
next event (`keepsForwarding_iff`).
-/
import OpenHands.TurnFrame

namespace OpenHands

/-! ## Occurrences of a text -/

theorem isPrefixOf_append (a b : List Char) : a.isPrefixOf (a ++ b) = true :=
  List.isPrefixOf_iff_prefix.mpr (List.prefix_append a b)

/-- A text occurs at its own start. -/
theorem occursIn_append (a b : List Char) : occursIn a (a ++ b) = true := by
  cases h : a ++ b with
  | nil =>
      obtain ⟨rfl, -⟩ := List.append_eq_nil_iff.mp h
      rfl
  | cons c cs =>
      unfold occursIn
      rw [← h, isPrefixOf_append, Bool.true_or]

/-- A text does not occur where its first character does not. -/
theorem occursIn_eq_false {x : Char} (text : List Char) {cs : List Char} (h : x ∉ cs) :
    occursIn (x :: text) cs = false := by
  induction cs with
  | nil => rfl
  | cons c cs ih =>
      rw [List.mem_cons, not_or] at h
      unfold occursIn
      rw [ih h.2, Bool.or_false, List.isPrefixOf_cons_cons, Bool.and_eq_false_iff]
      exact Or.inl (beq_eq_false_iff_ne.mpr h.1)

/-- A text whose first character comes only at the start occurs there or not at all. -/
theorem occursIn_cons_of_notMem {x : Char} (text : List Char) {cs : List Char} (h : x ∉ cs) :
    occursIn (x :: text) (x :: cs) = text.isPrefixOf cs := by
  unfold occursIn
  rw [occursIn_eq_false text h, Bool.or_false, List.isPrefixOf_cons_cons, BEq.rfl, Bool.true_and]

/-! ## The texts of the limits -/

/-- An amount is written with digits, a point and a sign. -/
theorem notMem_formatAmount {c : Char} (hdigit : c.isDigit = false) (hpoint : c ≠ '.')
    (hsign : c ≠ '-') (q : ℚ) : c ∉ (formatAmount q).toList := by
  have hnat : ∀ n : ℕ, c ∉ (toString n).toList := by
    intro n hmem
    rw [show toString n = n.repr from rfl, Nat.toList_repr] at hmem
    have h := Nat.isDigit_of_mem_toDigits (by decide) (by decide) hmem
    rw [hdigit] at h
    cases h
  have hzero : c ≠ '0' := by
    rintro rfl
    cases hdigit
  unfold formatAmount
  simp only [String.toList_append, List.mem_append, not_or]
  refine ⟨⟨⟨?_, hnat _⟩, by simpa using hpoint⟩, ?_⟩
  · split_ifs
    · simpa using hsign
    · simp
  · split_ifs
    · simp only [String.toList_append, List.mem_append, not_or]
      exact ⟨by simpa using hzero, hnat _⟩
    · exact hnat _

namespace AgentController

/-- The text that `_react_to_exception` stores for a limit. -/
def limitError (message : String) : String := "RuntimeError" ++ ": " ++ message

/-- The test of `on_event` on the text of an error. -/
def namesLimit (lastError : String) : Bool :=
  containsText lastError "RuntimeError: Agent reached maximum iteration." ||
    containsText lastError "RuntimeError:Agent reached maximum budget for conversation"

theorem isDone_eq (d : AgentController) :
    d.isDone = (d.state.agentState ∈ [AgentState.finished, .error, .rejected] &&
      !namesLimit d.state.lastError) := by
  unfold isDone namesLimit
  rw [Bool.not_or, Bool.and_assoc]

/-- The text of the iteration limit is recognised, whatever the numbers. -/
theorem namesLimit_iteration {f : IterationControlFlag} {message : String}
    (h : f.step.2 = some message) : namesLimit (limitError message) = true := by
  unfold IterationControlFlag.step at h
  split_ifs at h
  have htext : (limitError message).toList
      = "RuntimeError: Agent reached maximum iteration.".toList ++
        (" ".toList ++ s!"Current iteration: {f.currentValue}, max iteration: {f.maxValue}".toList)
        := by
    have hwords : "RuntimeError".toList ++ ": ".toList ++ "Agent reached maximum iteration. ".toList
        = "RuntimeError: Agent reached maximum iteration.".toList ++ " ".toList := by
      iterate 5 rw [String.toList_ofList]
      rfl
    rw [← Option.some.inj h, limitError, String.toList_append, String.toList_append,
      String.toList_append, ← List.append_assoc, ← List.append_assoc, ← hwords]
    rfl
  unfold namesLimit containsText
  rw [htext, occursIn_append, Bool.true_or]

/-- The text of the budget limit is not, whatever the amounts: only at its start is there the
letter that both texts begin with. -/
theorem namesLimit_budget {f : BudgetControlFlag} {message : String}
    (h : f.step.2 = some message) : namesLimit (limitError message) = false := by
  unfold BudgetControlFlag.step at h
  split_ifs at h
  have hletter (q : ℚ) : 'R' ∉ (formatAmount q).toList :=
    notMem_formatAmount (by decide) (by decide) (by decide) q
  obtain ⟨numbers, hnumbers⟩ : ∃ numbers : List Char, numbers =
      (formatAmount f.currentValue).toList ++ ", max budget: ".toList
        ++ (formatAmount f.maxValue).toList := ⟨_, rfl⟩
  have htext : (limitError message).toList = 'R' ::
      ("untimeError: Agent reached maximum budget for conversation.Current budget: ".toList
        ++ numbers) := by
    have hwords : "RuntimeError".toList ++ ": ".toList ++
        ("Agent reached maximum budget for conversation.".toList ++ "Current budget: ".toList) =
        'R' :: "untimeError: Agent reached maximum budget for conversation.Current budget: ".toList := by
      iterate 5 rw [String.toList_ofList]
      rfl
    rw [← Option.some.inj h, limitError, hnumbers, ← List.cons_append, ← hwords]
    simp only [String.toList_append, List.append_assoc]
  have honce : 'R' ∉ "untimeError: Agent reached maximum budget for conversation.Current budget: ".toList
        ++ numbers := by
    rw [hnumbers]
    simp only [List.mem_append, not_or]
    refine ⟨?_, ⟨hletter _, ?_⟩, hletter _⟩ <;> rw [String.toList_ofList] <;> decide
  -- Behind the first letter each name differs from the text before the numbers begin.
  have habsent : ∀ name words : String, name.toList = 'R' :: words.toList →
      words.toList.length ≤
        "untimeError: Agent reached maximum budget for conversation.Current budget: ".toList.length →
      ¬ words.toList <+:
        "untimeError: Agent reached maximum budget for conversation.Current budget: ".toList →
      containsText (limitError message) name = false := by
    intro name words hname hlength hdiffers
    unfold containsText
    rw [htext, hname, occursIn_cons_of_notMem _ honce, Bool.eq_false_iff, Ne,
      List.isPrefixOf_iff_prefix]
    exact fun h => hdiffers (List.prefix_of_prefix_length_le h (List.prefix_append _ _) hlength)
  have hiteration := habsent "RuntimeError: Agent reached maximum iteration."
    "untimeError: Agent reached maximum iteration."
    (by rw [String.toList_ofList, String.toList_ofList])
    (by rw [String.toList_ofList, String.toList_ofList]; decide)
    (by rw [String.toList_ofList, String.toList_ofList]; decide)
  have hbudget := habsent "RuntimeError:Agent reached maximum budget for conversation"
    "untimeError:Agent reached maximum budget for conversation"
    (by rw [String.toList_ofList, String.toList_ofList])
    (by rw [String.toList_ofList, String.toList_ofList]; decide)
    (by rw [String.toList_ofList, String.toList_ofList]; decide)
  unfold namesLimit
  rw [hiteration, hbudget, Bool.or_false]

end AgentController

namespace Turn

variable {t p : Turn} {answers : Answers} {message : String}

/-! ## The step that stops -/

/-- The step gets to the control flags, and one of them raises. -/
structure StopsAtLimit (t : Turn) (answers : Answers) (message : String) : Prop where
  running : t.self.state.agentState = .running
  idle : t.self.pendingAction = none
  notStuck : (t.self.agent.enableStuckDetection && answers.isStuck) = false
  raised : (StateTracker.runControlFlags
    (StateTracker.syncBudgetFlagWithMetrics t.self.state answers.accumulatedCost)).2 = some message

/-- A new state leaves the error text alone. -/
theorem lastError_setAgentStateTo (t : Turn) (newState : AgentState) :
    (t.setAgentStateTo newState).self.state.lastError = t.self.state.lastError := by
  unfold setAgentStateTo
  by_cases hsame : newState = t.self.state.agentState
  · rw [if_pos hsame]
  · rw [if_neg hsame]
    extract_lets oldState t₁ t₂ t₃ t₄ reason
    have h₂ : t₂.self.state = t₁.self.state := by
      unfold t₂
      split_ifs
      · exact state_reset t₁
      · rfl
    have h₃ : t₃.self.state.lastError = t₂.self.state.lastError := by
      unfold t₃
      split_ifs <;> rfl
    have h₄ : t₄.self.state = t₃.self.state := by
      unfold t₄
      split
      · exact state_emitAnswered t₃ _
      · rfl
    show t₄.self.state.lastError = _
    rw [h₄, h₃, h₂]
    rfl

/-- A `RuntimeError` has no status of its own. -/
theorem reactToException_runtimeError (t : Turn) (message : String) :
    t.reactToException (.runtimeError message)
      = (t.mapState fun s =>
          { s with lastError := AgentController.limitError message }).setAgentStateTo .error := by
  have hstatus : (PyException.runtimeError message).runtimeStatus = none := rfl
  have hrate : (PyException.runtimeError message).isinstance [.rateLimitError] = false := rfl
  unfold reactToException
  simp only [hstatus, hrate, Bool.false_eq_true, if_false, ite_self]
  rfl

/-- The delegate is in an error then, and has stored the text of the limit. -/
theorem StopsAtLimit.step (h : t.StopsAtLimit answers message) :
    (t.step answers).1.self.state.agentState = .error ∧
      (t.step answers).1.self.state.lastError = AgentController.limitError message := by
  have hidle : ¬ t.self.pendingAction.isSome = true := by
    rw [h.idle]
    decide
  have hstuck : ¬ ((t.mapState (StateTracker.syncBudgetFlagWithMetrics ·
      answers.accumulatedCost)).self.agent.enableStuckDetection && answers.isStuck) = true :=
    fun hstuck => Bool.noConfusion (h.notStuck.symm.trans hstuck)
  unfold Turn.step
  rw [if_neg (not_not.mpr h.running), if_neg hidle]
  extract_lets t₁ raised t₂
  have hraised : raised = some message := h.raised
  rw [if_neg hstuck, hraised]
  show (t₂.reactToException (.runtimeError message)).self.state.agentState = _ ∧
    (t₂.reactToException (.runtimeError message)).self.state.lastError = _
  rw [reactToException_runtimeError]
  exact ⟨agentState_setAgentStateTo _ _, lastError_setAgentStateTo _ _⟩

/-- The text of a limit is recognised exactly when it is that of the iterations. -/
theorem StopsAtLimit.namesLimit_iff (h : t.StopsAtLimit answers message) :
    AgentController.namesLimit (AgentController.limitError message) = true ↔
      t.self.state.iterationFlag.maxValue ≤ t.self.state.iterationFlag.currentValue := by
  have hsync : (StateTracker.syncBudgetFlagWithMetrics t.self.state
      answers.accumulatedCost).iterationFlag = t.self.state.iterationFlag := by
    unfold StateTracker.syncBudgetFlagWithMetrics
    split <;> rfl
  have hraised := h.raised
  unfold StateTracker.runControlFlags at hraised
  rw [hsync] at hraised
  cases hiteration : t.self.state.iterationFlag.step.2 with
  | some text =>
      have hreached : t.self.state.iterationFlag.maxValue
          ≤ t.self.state.iterationFlag.currentValue := by
        by_contra hlt
        unfold IterationControlFlag.step at hiteration
        rw [if_neg hlt] at hiteration
        cases hiteration
      simp only [hiteration] at hraised
      cases hraised
      exact iff_of_true (AgentController.namesLimit_iteration hiteration) hreached
  | none =>
      -- the iteration flag lets the step pass, so it is the budget flag that raised
      have hbelow : ¬ t.self.state.iterationFlag.maxValue
          ≤ t.self.state.iterationFlag.currentValue := by
        intro hle
        unfold IterationControlFlag.step at hiteration
        rw [if_pos hle] at hiteration
        cases hiteration
      refine iff_of_false ?_ hbelow
      simp only [hiteration] at hraised
      cases hbudget : (StateTracker.syncBudgetFlagWithMetrics t.self.state
          answers.accumulatedCost).budgetFlag with
      | none =>
          rw [hbudget] at hraised
          cases hraised
      | some f =>
          rw [hbudget] at hraised
          rw [AgentController.namesLimit_budget (show f.step.2 = some message from hraised)]
          decide

/-! ## What the parent does -/

/-- Whatever event comes, the parent hands it to its delegate. -/
def Forwards (p : Turn) : Prop :=
  ∀ answers event, p.onEvent answers event = p.onDelegate (·.handleEvent answers event)

/-- The parent forwards to a delegate that is not done, and ends one that is. -/
theorem forwards_iff {d : AgentController} (hd : p.self.delegate = some d) :
    p.Forwards ↔ d.isDone = false := by
  constructor
  · intro h
    by_contra hdone
    rw [Bool.not_eq_false] at hdone
    have hevent := h {} (.ofAction .null)
    have hended : (p.onEvent {} (.ofAction .null)).self.delegate = none := by
      unfold onEvent
      rw [hd]
      show (if d.isDone then p.endDelegate else _).self.delegate = none
      rw [if_pos hdone]
      unfold endDelegate
      rw [hd]
      rfl
    rw [hevent] at hended
    unfold onDelegate at hended
    rw [hd] at hended
    cases hended
  · intro hdone answers event
    unfold onEvent
    rw [hd]
    show (if d.isDone then p.endDelegate else _) = _
    rw [hdone, if_neg (by decide)]

/-- **Events go on to a delegate that stopped at a limit**, as long as it stores no other error,
exactly when it stopped at the limit of the iterations. -/
theorem keepsForwarding_iff (t : Turn) (answers : Answers) (message : String)
    (h : t.StopsAtLimit answers message) :
    (∀ (p : Turn) (d : AgentController), p.self.delegate = some d →
        d.state.lastError = (t.step answers).1.self.state.lastError → p.Forwards) ↔
      t.self.state.iterationFlag.maxValue ≤ t.self.state.iterationFlag.currentValue := by
  obtain ⟨herror, hlast⟩ := h.step
  rw [← h.namesLimit_iff, ← hlast]
  constructor
  · intro hall
    have hforwards := hall ⟨{ t.self with delegate := some (t.step answers).1.self }, t.bus⟩
      (t.step answers).1.self rfl rfl
    rw [forwards_iff rfl, AgentController.isDone_eq, herror] at hforwards
    simpa using hforwards
  · intro hnames p d hd hsame
    rw [forwards_iff hd, AgentController.isDone_eq, hsame, hnames]
    exact Bool.and_false _

end Turn

/-! ## A delegate without budget -/

/-- A delegate that is running, with the given flags. -/
def runningDelegate (iterationFlag : IterationControlFlag) (budgetFlag : BudgetControlFlag) :
    Turn where
  self :=
    { agent := { name := "BrowsingAgent" }
      initialMaxIterations := 10
      state :=
        { agentState := .running, iterationFlag := iterationFlag, budgetFlag := some budgetFlag } }
  bus := { log := .empty }

/-- A delegate that may make no more iterations. -/
def atIterationLimit : Turn := runningDelegate ⟨10, 10, 10, false⟩ ⟨5, 0, 5, false⟩

/-- A delegate that may spend no more. -/
def atBudgetLimit : Turn := runningDelegate ⟨10, 1, 10, false⟩ ⟨5, 5, 5, false⟩

/-- The message of the budget limit. -/
def budgetMessage : String :=
  "Agent reached maximum budget for conversation." ++ "Current budget: " ++ formatAmount 5
    ++ ", max budget: " ++ formatAmount 5

theorem forwards_atIterationLimit : Turn.Forwards
    ⟨{ atIterationLimit.self with delegate := some (atIterationLimit.step {}).1.self },
      atIterationLimit.bus⟩ :=
  (Turn.keepsForwarding_iff atIterationLimit {}
    "Agent reached maximum iteration. Current iteration: 10, max iteration: 10"
    ⟨rfl, rfl, rfl, by decide⟩).mpr (by decide) _ _ rfl rfl

theorem stopsAtLimit_atBudgetLimit : atBudgetLimit.StopsAtLimit {} budgetMessage :=
  ⟨rfl, rfl, rfl, rfl⟩

/-- The next event ends a delegate that stopped at its budget. -/
theorem ended_atBudgetLimit :
    (∀ (p : Turn) (answers : Answers) (event : Event),
        p.self.delegate = some (atBudgetLimit.step {}).1.self →
          p.onEvent answers event = p.endDelegate) ∧
      ¬ ∀ (t : Turn) (answers : Answers) (message : String), t.StopsAtLimit answers message →
        ∀ (p : Turn) (d : AgentController), p.self.delegate = some d →
          d.state.lastError = (t.step answers).1.self.state.lastError → p.Forwards := by
  have hdone : (atBudgetLimit.step {}).1.self.isDone = true := by
    obtain ⟨herror, hlast⟩ := stopsAtLimit_atBudgetLimit.step
    have hname : AgentController.namesLimit (AgentController.limitError budgetMessage) = false :=
      AgentController.namesLimit_budget (f := ⟨5, 5, 5, false⟩) rfl
    rw [AgentController.isDone_eq, herror, hlast, hname]
    decide
  refine ⟨?_, ?_⟩
  · intro p answers event hp
    unfold Turn.onEvent
    rw [hp]
    exact if_pos hdone
  · intro hall
    have hforwards := hall atBudgetLimit {} budgetMessage stopsAtLimit_atBudgetLimit
      ⟨{ atBudgetLimit.self with delegate := some (atBudgetLimit.step {}).1.self },
        atBudgetLimit.bus⟩ _ rfl rfl
    rw [Turn.forwards_iff rfl, hdone] at hforwards
    cases hforwards

end OpenHands
