/-
# Sessions stay within their iteration limit

A session is a conversation in which the controller is also stepped or set to a state from
outside; it begins with a new state or with one that an earlier session saved.

  * `countsTo_controlMove` — every move counts as `IterationControlFlag.CountsTo` says, with
    a delegate as well as without;
  * `respectsLimit_of_session` — the counter only grows and stays within the limit; only a
    resume that is due raises the limit; at the limit the agent is not called.

A session with a negative number of iterations is past its limit from the start, and its
counter stays 0.
-/
import OpenHands.Lib.Run
import OpenHands.OutstandingRuns
import OpenHands.ControlLimits

namespace OpenHands

/-! ## Moves from outside -/

/-- What happens in a session: a move of the conversation, or the root controller is stepped
or set to a state, while other threads are at work as the answers say. -/
inductive ControlMove where
  | move (move : Move)
  | step (answers : Answers)
  | setAgentState (newState : AgentState) (answers : Answers)

namespace Turn

/-- The flags are objects that the delegate shares: the controller sees what it did. -/
def readFlags (t : Turn) : Turn :=
  match t.self.delegate with
  | none => t
  | some d =>
    t.mapState fun s =>
      { s with iterationFlag := d.state.iterationFlag, budgetFlag := d.state.budgetFlag }

/-- The flags are objects that the delegate shares: it sees what the controller did. -/
def writeFlags (t : Turn) : Turn :=
  match t.self.delegate with
  | none => t
  | some d =>
    t.mapSelf fun c =>
      { c with
        delegate := some { d with
          state := { d.state with
            iterationFlag := c.state.iterationFlag
            budgetFlag := c.state.budgetFlag } } }

/-- The root controller acts, also while it has a delegate. -/
def onRoot (t : Turn) (f : Turn → Turn) : Turn := (f t.readFlags).writeFlags

/-- The effect of a move. -/
def controlMove (t : Turn) : ControlMove → Turn
  | .move m => t.move m
  | .step answers =>
    let t := (t.popped t.bus.queue answers).onRoot (·.stepWithExceptionHandling answers)
    { t with bus := { t.bus with arrivals := [] } }
  | .setAgentState newState answers =>
    let t := (t.popped t.bus.queue answers).onRoot (·.setAgentStateTo newState)
    { t with bus := { t.bus with arrivals := [] } }

/-- The controller that gets the events. -/
def active (t : Turn) : AgentController := t.self.delegate.getD t.self

/-- The controller that makes a move. -/
def actor (t : Turn) : ControlMove → AgentController
  | .move _ => t.active
  | _ => t.self

/-- The iteration flag that controller and delegate share. -/
def sharedFlag (t : Turn) : IterationControlFlag := t.active.state.iterationFlag

/-- How often the agents were called. -/
def calls (t : Turn) : ℕ :=
  t.self.agentCalls.length + (t.self.delegate.elim 0 fun d => d.agentCalls.length)

/-- The state that is saved and restored. -/
def saved (t : Turn) : State := t.readFlags.self.state.save.restore

end Turn

/-- A moment of a session. -/
inductive Session : Turn → Prop where
  | new (options : ControllerOptions) (log : EventLog) (moves : List ControlMove) :
    Session (Run.run Turn.controlMove (.start options none log) moves)
  | restored {t : Turn} (earlier : Session t) (options : ControllerOptions) (log : EventLog)
      (moves : List ControlMove) :
    Session (Run.run Turn.controlMove (.start options (some t.saved) log) moves)

/-! ## Every move counts -/

namespace Turn

variable {t t' : Turn} {answers : Answers}

/-- The delegate runs in the mode of its parent. -/
def SameMode (t : Turn) : Prop :=
  ∀ d, t.self.delegate = some d → d.headlessMode = t.self.headlessMode

/-- What a move of the actor does to the shared flag. -/
structure CountsAs (t : Turn) (inError : Prop) (t' : Turn) : Prop where
  countsTo : IterationControlFlag.CountsTo t.self.headlessMode inError t.sharedFlag t.calls
    t'.sharedFlag t'.calls
  headlessMode : t'.self.headlessMode = t.self.headlessMode
  sameMode : t'.SameMode

theorem sharedFlag_of_none (h : t.self.delegate = none) :
    t.sharedFlag = t.self.state.iterationFlag ∧ t.calls = t.self.agentCalls.length := by
  unfold sharedFlag active calls
  rw [h]
  exact ⟨rfl, rfl⟩

theorem sharedFlag_of_some {d : AgentController} (h : t.self.delegate = some d) :
    t.sharedFlag = d.state.iterationFlag ∧
      t.calls = t.self.agentCalls.length + d.agentCalls.length := by
  unfold sharedFlag active calls
  rw [h]
  exact ⟨rfl, rfl⟩

/-- A fresh delegate shares the flag of its parent, and adds no calls. -/
theorem FreshDelegate.sharedFlag (h : t.FreshDelegate) :
    t.sharedFlag = t.self.state.iterationFlag ∧ t.calls = t.self.agentCalls.length := by
  cases hd : t.self.delegate with
  | none => exact sharedFlag_of_none hd
  | some d =>
      obtain ⟨-, hflag, hcalls⟩ := h d hd
      obtain ⟨hshared, htotal⟩ := sharedFlag_of_some hd
      rw [hshared, htotal, hflag, hcalls]
      exact ⟨rfl, rfl⟩

/-- Calls made before do not matter. -/
theorem countsTo_add {headlessMode : Bool} {inError : Prop} {f f' : IterationControlFlag}
    {n n' : ℕ} (h : IterationControlFlag.CountsTo headlessMode inError f n f' n') (k : ℕ) :
    IterationControlFlag.CountsTo headlessMode inError f (k + n) f' (k + n') := by
  obtain ⟨f₁, hf₁, ⟨hf', hn⟩ | ⟨hf', hn | ⟨hpass, hn⟩⟩⟩ := h
  · exact ⟨f₁, hf₁, Or.inl ⟨hf', congrArg (k + ·) hn⟩⟩
  · exact ⟨f₁, hf₁, Or.inr ⟨hf', Or.inl (congrArg (k + ·) hn)⟩⟩
  · exact ⟨f₁, hf₁, Or.inr ⟨hf', Or.inr ⟨hpass, by omega⟩⟩⟩

/-- Without a delegate the controller handles the event itself. -/
theorem countsAs_handleEvent (hnone : t.self.delegate = none) (answers : Answers)
    (event : Event) :
    t.CountsAs (t.active.state.agentState = .error) (t.handleEvent answers event) := by
  obtain ⟨hoptions, hcounts, hfresh⟩ := handleEvent_frame t answers event
  have hfresh := hfresh hnone
  obtain ⟨hflag, hcalls⟩ := sharedFlag_of_none hnone
  have hactive : t.active = t.self := by
    unfold active
    rw [hnone]
    rfl
  refine ⟨?_, congrArg ControllerOptions.headlessMode hoptions, fun d hd => (hfresh d hd).1⟩
  rw [hflag, hcalls, hactive, hfresh.sharedFlag.1, hfresh.sharedFlag.2]
  exact hcounts

/-- A delegate that is done is closed: the flag is left as it is, and its calls are the calls of
the parent. -/
theorem sharedFlag_endDelegate {d : AgentController} (hd : t.self.delegate = some d) :
    t.endDelegate.self.delegate = none ∧
      t.endDelegate.self.headlessMode = t.self.headlessMode ∧
      t.endDelegate.sharedFlag = t.sharedFlag ∧ t.endDelegate.calls = t.calls := by
  have hclosed : Turn.KeepsFlag ⟨d, t.bus⟩ (Turn.setAgentStateTo ⟨d, t.bus⟩ .stopped) :=
    keepsFlag_setAgentStateTo ⟨d, t.bus⟩ (Or.inr (by decide))
  obtain ⟨hflag, hcalls⟩ := sharedFlag_of_some hd
  have hended : t.endDelegate.self.delegate = none ∧
      t.endDelegate.self.headlessMode = t.self.headlessMode ∧
      t.endDelegate.self.state.iterationFlag
        = (setAgentStateTo ⟨d, t.bus⟩ .stopped).self.state.iterationFlag ∧
      t.endDelegate.self.agentCalls
        = t.self.agentCalls ++ (setAgentStateTo ⟨d, t.bus⟩ .stopped).self.agentCalls := by
    unfold endDelegate
    rw [hd]
    exact ⟨rfl, rfl, rfl, rfl⟩
  obtain ⟨hnone, hheadless, hflag', hcalls'⟩ := hended
  obtain ⟨hshared, htotal⟩ := sharedFlag_of_none hnone
  refine ⟨hnone, hheadless, ?_, ?_⟩
  · rw [hshared, hflag', hclosed.flag, hflag]
  · rw [htotal, hcalls', hclosed.agentCalls, hcalls, List.length_append]

theorem countsAs_endDelegate {d : AgentController} (hd : t.self.delegate = some d)
    (inError : Prop) : t.CountsAs inError t.endDelegate := by
  obtain ⟨hnone, hheadless, hflag, hcalls⟩ := sharedFlag_endDelegate hd
  refine ⟨?_, hheadless, ?_⟩
  · rw [hflag, hcalls]
    exact .refl _ _ _ _
  · intro d' hd'
    rw [hnone] at hd'
    cases hd'

/-- The delegate handles the event for its parent. -/
theorem countsAs_onDelegate {d : AgentController} (hd : t.self.delegate = some d)
    (hmode : t.SameMode) (answers : Answers) (event : Event) :
    t.CountsAs (t.active.state.agentState = .error)
      (t.onDelegate (·.handleEvent answers event)) := by
  obtain ⟨hoptions, hcounts, -⟩ := handleEvent_frame ⟨d, t.bus⟩ answers event
  obtain ⟨hflag, hcalls⟩ := sharedFlag_of_some hd
  have hactive : t.active = d := by
    unfold active
    rw [hd]
    rfl
  have hheadless := congrArg ControllerOptions.headlessMode hoptions
  unfold onDelegate
  rw [hd]
  refine ⟨?_, rfl, ?_⟩
  · rw [hflag, hcalls, hactive, ← hmode d hd]
    exact countsTo_add hcounts t.self.agentCalls.length
  · intro d' hd'
    cases hd'
    exact hheadless.trans (hmode d hd)

/-- The root acts on the shared flag and keeps its delegate. -/
theorem countsAs_onRoot {f : Turn → Turn} (hmode : t.SameMode)
    (hcounts : ∀ t : Turn, t.Counts (f t))
    (hoptions : ∀ t : Turn, (f t).self.toControllerOptions = t.self.toControllerOptions)
    (hdelegate : ∀ t : Turn, (f t).self.delegate = t.self.delegate) :
    t.CountsAs (t.self.state.agentState = .error) (t.onRoot f) := by
  unfold onRoot
  cases hd : t.self.delegate with
  | none =>
      have hread : t.readFlags = t := by
        unfold readFlags
        rw [hd]
      have hnone : (f t).self.delegate = none := (hdelegate t).trans hd
      have hwrite : (f t).writeFlags = f t := by
        unfold writeFlags
        rw [hnone]
      obtain ⟨hflag, hcalls⟩ := sharedFlag_of_none hd
      obtain ⟨hflag', hcalls'⟩ := sharedFlag_of_none hnone
      rw [hread, hwrite]
      refine ⟨?_, congrArg ControllerOptions.headlessMode (hoptions t), ?_⟩
      · rw [hflag, hcalls, hflag', hcalls']
        exact hcounts t
      · intro d hd'
        rw [hnone] at hd'
        cases hd'
  | some d =>
      obtain ⟨hflag, hcalls⟩ := sharedFlag_of_some hd
      have hread : t.readFlags.self.state.iterationFlag = t.sharedFlag ∧
          t.readFlags.self.state.agentState = t.self.state.agentState ∧
          t.readFlags.self.toControllerOptions = t.self.toControllerOptions ∧
          t.readFlags.self.agentCalls = t.self.agentCalls ∧
          t.readFlags.self.delegate = some d := by
        rw [hflag]
        unfold readFlags
        rw [hd]
        exact ⟨rfl, rfl, rfl, rfl, hd⟩
      obtain ⟨hreadFlag, hreadState, hreadOptions, hreadCalls, hreadDelegate⟩ := hread
      have hacted := hcounts t.readFlags
      have hsome : (f t.readFlags).self.delegate = some d :=
        (hdelegate t.readFlags).trans hreadDelegate
      have hheadless : (f t.readFlags).self.headlessMode = t.self.headlessMode :=
        congrArg ControllerOptions.headlessMode ((hoptions t.readFlags).trans hreadOptions)
      have hcounted : IterationControlFlag.CountsTo t.self.headlessMode
          (t.self.state.agentState = .error) t.sharedFlag t.self.agentCalls.length
          (f t.readFlags).self.state.iterationFlag
          (f t.readFlags).self.agentCalls.length := by
        rw [← hreadFlag, ← hreadState, ← hreadCalls, ← hreadOptions]
        exact hacted
      unfold writeFlags
      rw [hsome]
      refine ⟨?_, hheadless, ?_⟩
      · rw [hcalls, Nat.add_comm]
        have hadded := countsTo_add hcounted d.agentCalls.length
        rw [Nat.add_comm _ (f t.readFlags).self.agentCalls.length] at hadded
        exact hadded
      · intro d' hd'
        cases hd'
        exact (hmode d hd).trans hheadless.symm

/-- **Every move counts**: one resume of the controller that makes it, then one step. -/
theorem countsAs_controlMove (hmode : t.SameMode) (m : ControlMove) :
    t.CountsAs ((t.actor m).state.agentState = .error) (t.controlMove m) := by
  cases m with
  | move m =>
      cases m with
      | publish event source => exact ⟨.refl _ _ _ _, rfl, hmode⟩
      | deliver answers =>
          show t.CountsAs _ (t.move (.deliver answers))
          cases hqueue : t.bus.queue with
          | nil =>
              simp only [move, hqueue]
              exact ⟨.refl _ _ _ _, rfl, hmode⟩
          | cons event queue =>
              have hcounts : (t.popped queue answers).CountsAs
                  (t.active.state.agentState = .error)
                  ((t.popped queue answers).onEvent answers event) := by
                unfold onEvent
                cases hd : t.self.delegate with
                | none =>
                    have hnone : (t.popped queue answers).self.delegate = none := hd
                    rw [hnone]
                    exact countsAs_handleEvent hnone answers event
                | some d =>
                    have hsome : (t.popped queue answers).self.delegate = some d := hd
                    rw [hsome]
                    show (t.popped queue answers).CountsAs _ (if d.isDone then _ else _)
                    split_ifs
                    · exact countsAs_endDelegate hsome _
                    · exact countsAs_onDelegate hsome hmode answers event
              simp only [move, hqueue]
              exact ⟨hcounts.countsTo, hcounts.headlessMode, hcounts.sameMode⟩
  | step answers =>
      have hcounts : (t.popped t.bus.queue answers).CountsAs (t.self.state.agentState = .error)
          ((t.popped t.bus.queue answers).onRoot (·.stepWithExceptionHandling answers)) := by
        refine countsAs_onRoot hmode ?_ ?_ ?_
        · intro t
          exact (KeepsFlag.refl t).resumes.counts_of_steps
            (steps_stepWithExceptionHandling t answers)
        · exact fun t => (steps_stepWithExceptionHandling t answers).options
        · exact fun t => (keeps_stepWithExceptionHandling t answers).delegate
      exact ⟨hcounts.countsTo, hcounts.headlessMode, hcounts.sameMode⟩
  | setAgentState newState answers =>
      have hcounts : (t.popped t.bus.queue answers).CountsAs (t.self.state.agentState = .error)
          ((t.popped t.bus.queue answers).onRoot (·.setAgentStateTo newState)) := by
        refine countsAs_onRoot hmode ?_ ?_ ?_
        · exact fun t => (resumes_setAgentStateTo t newState).counts
        · exact fun t => (resumes_setAgentStateTo t newState).options
        · exact fun t => (keeps_setAgentStateTo t newState).delegate
      exact ⟨hcounts.countsTo, hcounts.headlessMode, hcounts.sameMode⟩

/-! ## Whole sessions -/

/-- What holds at every moment of a session. -/
structure WithinLimits (t : Turn) : Prop where
  valid : t.sharedFlag.Valid
  sameMode : t.SameMode

theorem WithinLimits.controlMove (h : t.WithinLimits) (m : ControlMove) :
    (t.controlMove m).WithinLimits :=
  have hcounts := countsAs_controlMove h.sameMode m
  ⟨hcounts.countsTo.valid h.valid, hcounts.sameMode⟩

theorem WithinLimits.run (h : t.WithinLimits) (moves : List ControlMove) :
    (Run.run Turn.controlMove t moves).WithinLimits :=
  Run.run_invariant (C := fun _ _ => True) (fun _ m h _ => h.controlMove m) h
    (fun _ _ => trivial)

/-- A session begins within its limits if the flag it begins with is valid. -/
theorem withinLimits_start (options : ControllerOptions) (initialState : Option State)
    (log : EventLog)
    (hvalid : (StateTracker.setInitialState initialState options.initialMaxIterations
      options.initialMaxBudgetPerTask options.confirmationMode).iterationFlag.Valid) :
    (start options initialState log).WithinLimits := by
  obtain ⟨-, hflag, -, -, hnone⟩ := create_frame options initialState { log := log } rfl
  constructor
  · rw [(sharedFlag_of_none (t := start options initialState log) hnone).1]
    unfold start
    rw [hflag]
    exact hvalid
  · intro d hd
    rw [show (start options initialState log).self.delegate = none from hnone] at hd
    cases hd

/-- The saved state has the flag that controller and delegate share. -/
theorem saved_iterationFlag (t : Turn) : t.saved.iterationFlag = t.sharedFlag := by
  unfold saved readFlags
  cases hd : t.self.delegate with
  | none => exact (sharedFlag_of_none hd).1.symm
  | some d => exact (sharedFlag_of_some hd).1.symm

theorem withinLimits_of_session (h : Session t) : t.WithinLimits := by
  induction h with
  | new options log moves =>
      apply WithinLimits.run
      apply withinLimits_start
      exact IterationControlFlag.valid_new options.initialMaxIterations
  | restored earlier options log moves ih =>
      apply WithinLimits.run
      apply withinLimits_start
      rw [(setInitialState_frame _ _ _ _).1, saved_iterationFlag]
      exact ih.valid

/-- The limit of the iterations is respected in the moves that follow. -/
structure RespectsLimit (t : Turn) (moves : List ControlMove) : Prop where
  counts : ∀ p ∈ Run.steps controlMove t moves,
    p.1.sharedFlag.currentValue ≤ (p.1.controlMove p.2).sharedFlag.currentValue
  within : (Run.run controlMove t moves).sharedFlag.currentValue
      ≤ (Run.run controlMove t moves).sharedFlag.maxValue ∨
    (Run.run controlMove t moves).sharedFlag.limitIncreaseAmount < 0 ∧
      (Run.run controlMove t moves).sharedFlag.currentValue = 0
  headless : t.self.headlessMode = true →
    (Run.run controlMove t moves).sharedFlag.maxValue = t.sharedFlag.maxValue
  amount : (Run.run controlMove t moves).sharedFlag.limitIncreaseAmount
    = t.sharedFlag.limitIncreaseAmount
  resumes : ∀ p ∈ Run.steps controlMove t moves,
    (p.1.controlMove p.2).sharedFlag.maxValue ≠ p.1.sharedFlag.maxValue →
      p.1.self.headlessMode = false ∧ (p.1.actor p.2).state.agentState = .error ∧
      p.1.sharedFlag.hitLimit = true ∧ p.1.sharedFlag.maxValue ≤ p.1.sharedFlag.currentValue ∧
      (p.1.controlMove p.2).sharedFlag.maxValue
        = p.1.sharedFlag.maxValue + t.sharedFlag.limitIncreaseAmount
  stops : t.sharedFlag.maxValue ≤ t.sharedFlag.currentValue ∨ t.sharedFlag.hitLimit = true →
    (∀ p ∈ Run.steps controlMove t moves,
      (p.1.controlMove p.2).sharedFlag.maxValue = p.1.sharedFlag.maxValue) →
    ∀ p ∈ Run.steps controlMove t moves, (p.1.controlMove p.2).calls = p.1.calls

/-- The amount by which a limit is raised is fixed for the session. -/
theorem WithinLimits.amount_controlMove (h : t.WithinLimits) (m : ControlMove) :
    (t.controlMove m).sharedFlag.limitIncreaseAmount = t.sharedFlag.limitIncreaseAmount :=
  (countsAs_controlMove h.sameMode m).countsTo.limitIncreaseAmount_eq h.valid

/-- What has been fixed when a session reaches a state. -/
def SameLimits (t u : Turn) : Prop :=
  u.WithinLimits ∧ u.self.headlessMode = t.self.headlessMode ∧
    u.sharedFlag.limitIncreaseAmount = t.sharedFlag.limitIncreaseAmount ∧
    (t.self.headlessMode = true → u.sharedFlag.maxValue = t.sharedFlag.maxValue)

theorem SameLimits.controlMove {u : Turn} (h : t.SameLimits u) (m : ControlMove) :
    t.SameLimits (u.controlMove m) := by
  obtain ⟨hwithin, hmode, hamount, hmax⟩ := h
  have hcounts := countsAs_controlMove hwithin.sameMode m
  refine ⟨hwithin.controlMove m, hcounts.headlessMode.trans hmode,
    (hwithin.amount_controlMove m).trans hamount, ?_⟩
  intro hheadless
  rcases hcounts.countsTo.maxValue_cases hwithin.valid with heq | ⟨-, hinteractive, -⟩
  · rw [heq, hmax hheadless]
  · rw [hmode, hheadless] at hinteractive
    cases hinteractive

/-- A move that changes the limit resumes an agent in error that had reached it. -/
theorem WithinLimits.resume_of_ne (h : t.WithinLimits) {m : ControlMove}
    (hne : (t.controlMove m).sharedFlag.maxValue ≠ t.sharedFlag.maxValue) :
    t.self.headlessMode = false ∧ (t.actor m).state.agentState = .error ∧
      t.sharedFlag.hitLimit = true ∧ t.sharedFlag.maxValue ≤ t.sharedFlag.currentValue ∧
      (t.controlMove m).sharedFlag.maxValue
        = t.sharedFlag.maxValue + t.sharedFlag.limitIncreaseAmount := by
  have hcounts := (countsAs_controlMove h.sameMode m).countsTo
  rcases hcounts.maxValue_cases h.valid with heq | ⟨herror, hinteractive, hhit, hmax⟩
  · exact absurd heq hne
  · exact ⟨hinteractive, herror, hhit, h.valid.reached hhit, hmax⟩

/-- At the limit the moves do not call the agent until one of them raises it. -/
theorem WithinLimits.stops (h : t.WithinLimits) {moves : List ControlMove}
    (hlimit : t.sharedFlag.maxValue ≤ t.sharedFlag.currentValue)
    (hmax : ∀ p ∈ Run.steps Turn.controlMove t moves,
      (p.1.controlMove p.2).sharedFlag.maxValue = p.1.sharedFlag.maxValue) :
    ∀ p ∈ Run.steps Turn.controlMove t moves, (p.1.controlMove p.2).calls = p.1.calls := by
  have hat_limit (u : Turn) (m : ControlMove)
      (hu : u.WithinLimits ∧ u.sharedFlag.maxValue ≤ u.sharedFlag.currentValue)
      (hsame : (u.controlMove m).sharedFlag.maxValue = u.sharedFlag.maxValue) :
      (u.controlMove m).sharedFlag.currentValue = u.sharedFlag.currentValue ∧
        (u.controlMove m).calls = u.calls :=
    (countsAs_controlMove hu.1.sameMode m).countsTo.at_limit hu.1.valid hu.2 hsame
  intro p hp
  have hinvariant := Run.forall_steps_of_invariant
    (I := fun u => u.WithinLimits ∧ u.sharedFlag.maxValue ≤ u.sharedFlag.currentValue)
    (C := fun u m => (u.controlMove m).sharedFlag.maxValue = u.sharedFlag.maxValue)
    (by
      intro u m hu hsame
      refine ⟨hu.1.controlMove m, ?_⟩
      rw [hsame, (hat_limit u m hu hsame).1]
      exact hu.2) ⟨h, hlimit⟩ hmax p hp
  exact (hat_limit p.1 p.2 hinvariant (hmax p hp)).2

end Turn

/-- **The limit of the iterations is respected** in every session and from every moment of
it on. -/
theorem respectsLimit_of_session {t : Turn} (h : Session t) (moves : List ControlMove) :
    t.RespectsLimit moves := by
  have hwithin := Turn.withinLimits_of_session h
  have hsame : t.SameLimits t := ⟨hwithin, rfl, rfl, fun _ => rfl⟩
  have hrun : t.SameLimits (Run.run Turn.controlMove t moves) :=
    Run.run_invariant (C := fun _ _ => True) (fun _ m hu _ => hu.controlMove m) hsame
      (fun _ _ => trivial)
  have hsteps : ∀ p ∈ Run.steps Turn.controlMove t moves, t.SameLimits p.1 :=
    Run.forall_steps_of_invariant (C := fun _ _ => True) (fun _ m hu _ => hu.controlMove m)
      hsame (fun _ _ => trivial)
  constructor
  · intro p hp
    have hp' := (hsteps p hp).1
    exact (Turn.countsAs_controlMove hp'.sameMode p.2).countsTo.currentValue_le hp'.valid
  · rcases hrun.1.valid.within with ⟨-, hle⟩ | ⟨hneg, hzero, -⟩
    · exact Or.inl hle
    · exact Or.inr ⟨hneg, hzero⟩
  · exact hrun.2.2.2
  · exact hrun.2.2.1
  · intro p hp hne
    obtain ⟨hp', -, hamount, -⟩ := hsteps p hp
    rw [← hamount]
    exact hp'.resume_of_ne hne
  · intro hlimit
    apply hwithin.stops
    rcases hlimit with hle | hhit
    · exact hle
    · exact hwithin.valid.reached hhit

/-- The options of an agent that may make one iteration before it asks the user. -/
def oneIteration : ControllerOptions :=
  { codeActOptions with headlessMode := false, initialMaxIterations := 1 }

/-- The agent runs a command; when the command is done it is at its limit, and goes into an
error. -/
def upToTheLimit : List ControlMove :=
  [.publish (.ofAction (.message { content := "list the files" })) .user,
    .deliver {}, .deliver {}, .deliver {},
    observationOf 1 "" (.recall .workspaceContext), .deliver (runsCommand "ls"),
    .deliver {}, observationOf 4 "README.md" (.cmdOutput "ls" false),
    .deliver (runsCommand "cat README.md"), .deliver (runsCommand "cat README.md")].map .move

/-- The user asks the agent to go on. -/
def resumedByMessage : List ControlMove :=
  [.publish (.ofAction (.message { content := "go on" })) .user,
    .deliver {}, .deliver {}, .deliver {}].map .move

/-- The agent stops at one iteration, and the message of the user allows it a second one. -/
theorem respectsLimit_resumedByMessage :
    (Run.run Turn.controlMove (.start oneIteration none .empty) upToTheLimit).sharedFlag
      = ⟨1, 1, 1, true⟩ ∧
    (Run.run Turn.controlMove (.start oneIteration none .empty)
      (upToTheLimit ++ resumedByMessage)).sharedFlag = ⟨1, 1, 2, false⟩ ∧
    (Run.run Turn.controlMove (.start oneIteration none .empty)
      upToTheLimit).RespectsLimit resumedByMessage :=
  ⟨by decide, by decide, respectsLimit_of_session (.new oneIteration .empty upToTheLimit) _⟩

/-- A session with a negative number of iterations begins with its counter above the
limit. -/
theorem negative_limit_exceeded :
    ¬ (Turn.start { oneIteration with initialMaxIterations := -1 } none
          .empty).sharedFlag.currentValue
        ≤ (Turn.start { oneIteration with initialMaxIterations := -1 } none
          .empty).sharedFlag.maxValue := by
  decide

end OpenHands
