/-
# Whether a closed session leaves anything open

Once a session is marked as closed no start begins.  What is left is a start in progress: if
the close goes on only when there is none, whatever the start has made is there to be closed, and
nothing is made later.
-/
import OpenHands.AgentSessions

namespace OpenHands.AgentSessions

open Run

variable {session : AgentSession}

/-- The stages of a start in progress. -/
def StartStage.InProgress : StartStage → Prop
  | .readingEnvironment | .connecting | .settingSecrets | .creatingMemory | .addingTools => True
  | _ => False

/-- What a close that has left its loop has come to. -/
inductive Closing (session : AgentSession) : Prop
  | before (stage : session.close = .notCalled) (closed : session.closed = false)
  | sleeping (till : ℕ) (stage : session.close = .sleeping till) (closed : session.closed = true)
  | closingController (stage : session.close = .closingController) (closed : session.closed = true)
      (done : session.starting = false)
      (saved : ∀ controller, session.controller = some controller → controller.stateSaved = true)
  | returned (stage : session.close = .returned) (closed : session.closed = true)
      (done : session.starting = false)
      (saved : ∀ controller, session.controller = some controller →
        controller.closed = true ∧ controller.stateSaved = true)
      (stopped : ∀ runtime, session.runtime = some runtime → runtime.closed = true)

/-- A start is in progress while its stage is, and the close has waited for it. -/
structure Inv (session : AgentSession) : Prop where
  starting : session.starting = true ↔ session.start.InProgress
  closing : Closing session

theorem inv_new : Inv {} where
  starting := by simp [StartStage.InProgress]
  closing := .before rfl rfl

/-- A session with nothing changed that a close looks at. -/
theorem Closing.of_same {session' : AgentSession} (h : Closing session)
    (hclose : session'.close = session.close) (hclosed : session'.closed = session.closed)
    (hstarting : session.starting = false → session'.starting = false)
    (hcontroller : session.starting = false → session'.controller = session.controller)
    (hruntime : session.starting = false → session'.runtime = session.runtime) :
    Closing session' := by
  cases h with
  | before stage closed => exact .before (hclose.trans stage) (hclosed.trans closed)
  | sleeping till stage closed => exact .sleeping till (hclose.trans stage) (hclosed.trans closed)
  | closingController stage closed done saved =>
    refine .closingController (hclose.trans stage) (hclosed.trans closed) (hstarting done) ?_
    rw [hcontroller done]
    exact saved
  | returned stage closed done saved stopped =>
    refine .returned (hclose.trans stage) (hclosed.trans closed) (hstarting done) ?_ ?_
    · rw [hcontroller done]
      exact saved
    · rw [hruntime done]
      exact stopped

/-! ## The stages of a close -/

theorem Closing.closed_of_sleeping (h : Closing session) {till : ℕ}
    (hstage : session.close = .sleeping till) : session.closed = true := by
  cases h with
  | before stage =>
    rw [stage] at hstage
    cases hstage
  | sleeping _ _ closed => exact closed
  | closingController _ closed => exact closed
  | returned _ closed => exact closed

theorem Closing.of_closingController (h : Closing session)
    (hstage : session.close = .closingController) :
    session.closed = true ∧ session.starting = false ∧
      ∀ controller, session.controller = some controller → controller.stateSaved = true := by
  cases h with
  | closingController _ closed done saved => exact ⟨closed, done, saved⟩
  | before stage | sleeping _ stage | returned stage =>
    rw [stage] at hstage
    cases hstage

theorem Closing.of_returned (h : Closing session) (hstage : session.close = .returned) :
    (∀ controller, session.controller = some controller →
        controller.closed = true ∧ controller.stateSaved = true) ∧
      ∀ runtime, session.runtime = some runtime → runtime.closed = true := by
  cases h with
  | returned _ _ _ saved stopped => exact ⟨saved, stopped⟩
  | before stage | sleeping _ stage | closingController stage =>
    rw [stage] at hstage
    cases hstage

/-! ## The start -/

/-- A session that is closed before a start is not started. -/
theorem Inv.beginStart (h : Inv session) : Inv session.beginStart := by
  unfold AgentSession.beginStart
  split
  next hstage =>
    have hnot : session.starting = false := by
      rw [Bool.eq_false_iff]
      intro hstarting
      have hprogress := h.starting.mp hstarting
      rw [hstage] at hprogress
      exact hprogress
    split
    · refine ⟨?_, h.closing.of_same rfl rfl (fun h => h) (fun _ => rfl) fun _ => rfl⟩
      exact iff_of_false (by rw [hnot]; exact Bool.false_ne_true) fun hfalse => hfalse
    · split
      · refine ⟨?_, h.closing.of_same rfl rfl (fun h => h) (fun _ => rfl) fun _ => rfl⟩
        exact iff_of_false (by rw [hnot]; exact Bool.false_ne_true) fun hfalse => hfalse
      next hopen =>
        refine ⟨iff_of_true rfl trivial, ?_⟩
        cases h.closing with
        | before stage closed => exact .before stage closed
        | sleeping till stage closed => exact absurd closed hopen
        | closingController stage closed => exact absurd closed hopen
        | returned stage closed => exact absurd closed hopen
  next => exact h

/-- The start ends. -/
theorem Inv.endStart (h : Inv session) {stage : StartStage} (hstage : ¬ stage.InProgress) :
    Inv (session.endStart stage) where
  starting := iff_of_false Bool.false_ne_true hstage
  closing := h.closing.of_same rfl rfl (fun _ => rfl) (fun _ => rfl) fun _ => rfl

/-- The start goes on to another stage in progress. -/
theorem Inv.goOn (h : Inv session) {stage : StartStage} {runtime : Option Runtime}
    (hbefore : session.start.InProgress) (hstage : stage.InProgress) :
    Inv { session with start := stage, runtime := runtime } := by
  have hstarting := h.starting.mpr hbefore
  refine ⟨iff_of_true hstarting hstage, ?_⟩
  have hbusy : session.starting = false → False := fun hnot => by
    rw [hnot] at hstarting
    cases hstarting
  exact h.closing.of_same rfl rfl (fun h => h) (fun _ => rfl) fun hnot => (hbusy hnot).elim

theorem Inv.resumeStart (h : Inv session) (raises : Bool) : Inv (session.resumeStart raises) := by
  have hraised : Inv (session.endStart .raised) := h.endStart fun hfalse => hfalse
  unfold AgentSession.resumeStart
  cases hstage : session.start with
  | readingEnvironment | connecting | settingSecrets | creatingMemory =>
    have hbefore : session.start.InProgress := by
      rw [hstage]
      trivial
    dsimp only
    split
    · exact hraised
    · exact h.goOn hbefore trivial
  | addingTools =>
    dsimp only
    split
    · exact hraised
    · -- the controller is made at the end of a start in progress
      have hstarting : session.starting = true := h.starting.mpr (by rw [hstage]; trivial)
      refine ⟨iff_of_false Bool.false_ne_true fun hfalse => hfalse, ?_⟩
      exact h.closing.of_same rfl rfl (fun _ => rfl)
        (fun hnot => by rw [hnot] at hstarting; cases hstarting) fun _ => rfl
  | notStarted | finished | raised | refused => exact h

/-! ## The close -/

/-- Behind its loop the close finds what the start has made. -/
theorem Inv.finishClose (h : Inv session) (hclosed : session.closed = true)
    (hover : session.starting = false) : Inv session.finishClose := by
  unfold AgentSession.finishClose
  split
  next controller hcontroller =>
    refine ⟨h.starting, .closingController rfl hclosed hover fun other hother => ?_⟩
    cases hother
    rfl
  next hcontroller =>
    refine ⟨h.starting, .returned rfl hclosed hover (fun other hother => ?_) fun other hother => ?_⟩
    · change session.controller = some other at hother
      rw [hcontroller] at hother
      cases hother
    · obtain ⟨runtime, -, rfl⟩ := Option.map_eq_some_iff.mp hother
      rfl

theorem Inv.waitOrFinish (h : Inv session) (hclosed : session.closed = true)
    {shouldContinue : Bool} (hwaits : session.starting = true → shouldContinue = true) :
    Inv (session.waitOrFinish shouldContinue) := by
  unfold AgentSession.waitOrFinish
  split
  · exact ⟨h.starting, .sleeping _ rfl hclosed⟩
  next hnot =>
    refine h.finishClose hclosed ?_
    rw [Bool.eq_false_iff]
    exact fun hstarting => hnot ⟨hstarting, hwaits hstarting⟩

theorem Inv.beginClose (h : Inv session) {shouldContinue : Bool}
    (hwaits : session.Waits (.close shouldContinue)) : Inv (session.beginClose shouldContinue) := by
  unfold AgentSession.beginClose
  split
  · exact h
  next hopen =>
    have hmarked : Inv { session with closed := true, close := .sleeping 0 } :=
      ⟨h.starting, .sleeping 0 rfl rfl⟩
    have hresult := hmarked.waitOrFinish rfl (hwaits (Bool.eq_false_iff.mpr hopen))
    unfold AgentSession.waitOrFinish AgentSession.finishClose at hresult ⊢
    exact hresult

theorem Inv.wake (h : Inv session) {shouldContinue : Bool}
    (hwaits : session.Waits (.wake shouldContinue)) : Inv (session.wake shouldContinue) := by
  unfold AgentSession.wake
  split
  next till hstage =>
    have hclosed := h.closing.closed_of_sleeping hstage
    split
    · exact h
    next hpast =>
      have hwaits' := hwaits till hstage (Nat.le_of_not_lt hpast)
      split
      next hdeadline =>
        -- the loop is left before the deadline, so no start may be in progress
        refine h.finishClose hclosed ?_
        rw [Bool.eq_false_iff]
        exact fun hstarting => absurd hdeadline (Nat.not_le_of_lt (hwaits' hstarting).1)
      next => exact h.waitOrFinish hclosed fun hstarting => (hwaits' hstarting).2
  next => exact h

theorem Inv.controllerClosed (h : Inv session) : Inv session.controllerClosed := by
  unfold AgentSession.controllerClosed
  split
  next hstage =>
    obtain ⟨closed, done, saved⟩ := h.closing.of_closingController hstage
    refine ⟨h.starting, .returned rfl closed done (fun other hother => ?_) fun other hother => ?_⟩
    · obtain ⟨controller, hcontroller, rfl⟩ := Option.map_eq_some_iff.mp hother
      exact ⟨rfl, saved controller hcontroller⟩
    · obtain ⟨runtime, -, rfl⟩ := Option.map_eq_some_iff.mp hother
      rfl
  next => exact h

/-! ## Runs -/

theorem Inv.perform (h : Inv session) (move : Move) (hwaits : session.Waits move) :
    Inv (session.perform move) := by
  cases move with
  | start => exact h.beginStart
  | resume raises => exact h.resumeStart raises
  | close shouldContinue => exact h.beginClose hwaits
  | wake shouldContinue => exact h.wake hwaits
  | controllerClosed => exact h.controllerClosed
  | elapse time =>
    exact ⟨h.starting, h.closing.of_same rfl rfl (fun h => h) (fun _ => rfl) fun _ => rfl⟩

theorem Inv.released (h : Inv session) : session.Released :=
  fun hreturned _ => h.closing.of_returned hreturned

/-- **A closed session leaves no controller and no runtime open**, and the state of the
controller is saved, in every run in which the close does not go on while a start is in
progress. -/
theorem released_run (moves : List Move)
    (hwaits : ∀ p ∈ steps AgentSession.perform {} moves, p.1.Waits p.2) :
    (run AgentSession.perform {} moves).Released :=
  Inv.released (run_invariant (I := Inv) (C := AgentSession.Waits)
    (fun _ move h hwaits => h.perform move hwaits) inv_new hwaits)

/-- A close that is called in the last seconds of a start. -/
theorem released_run_late : (run AgentSession.perform {}
    [.start, .resume false, .resume false, .resume false, .resume false, .close true,
      .resume false, .elapse (5 * second), .wake true, .controllerClosed]).Released := by
  refine released_run _ fun p hp => ?_
  simp only [steps_cons, steps_nil, List.mem_cons, List.not_mem_nil, or_false] at hp
  rcases hp with rfl | rfl | rfl | rfl | rfl | rfl | rfl | rfl | rfl | rfl
  all_goals first
    | trivial
    | exact fun _ _ => rfl
    | exact fun _ _ _ hstarting => by cases hstarting

/-- A start of ten seconds that is closed after one: the close goes on after six, and the
controller that the start makes later stays open. -/
theorem not_released_early : ¬ ∀ moves : List Move,
    (run AgentSession.perform {} moves).Released := by
  intro h
  have hopen := (h [.start, .resume false, .elapse second, .close true, .elapse (5 * second),
    .wake true, .elapse (4 * second), .resume false, .resume false, .resume false, .resume false]
    (by decide) (by decide)).1 {} (by decide)
  exact absurd hopen.1 (by decide)

end OpenHands.AgentSessions
