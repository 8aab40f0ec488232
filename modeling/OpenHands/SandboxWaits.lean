/-
# Waiting for a sandbox

`_wait_for_sandbox_start` (live_status_app_conversation_service.py): a sandbox is started, or the
one that the request names is looked up, and is polled until it is running.  The loop tests the
status that was seen before it, and of the one that is polled only whether it is `RUNNING`.
-/
import Mathlib.Data.Rat.Defs
import Mathlib.Algebra.Order.Ring.Rat
import OpenHands.Sandboxes

namespace OpenHands.SandboxWaits

open Sandboxes (SandboxStatus SandboxInfo)

/-- `AppConversationStartTaskStatus`, as far as the wait sets it. -/
inductive StartTaskStatus
  | working
  | waitingForSandbox
  deriving DecidableEq, Repr

/-- `AppConversationStartTask`. -/
structure StartTask where
  requestSandboxId : Option String
  status : StartTaskStatus := .working
  sandboxId : Option String := none
  deriving DecidableEq, Repr

/-- A round of the loop: the time since its start, and what `get_sandbox` returns after the sleep,
or the text of what it raises. -/
structure Round where
  elapsed : ℚ
  seen : Except String (Option SandboxInfo)

/-- What the sandbox service answers: to `start_sandbox`, to the first `get_sandbox`, to
`resume_sandbox` (or the text of what it raises), and in the rounds. -/
structure Answers where
  started : Except String SandboxInfo
  found : Except String (Option SandboxInfo)
  resumed : Except String Bool
  rounds : List Round

/-- How a wait ends, if it does. -/
inductive Outcome
  | returned
  | raised (text : String)
  | waiting
  deriving DecidableEq, Repr

/-- What can be seen of a wait: the task that it yields, the sandboxes that it resumes, and how it
ends. -/
structure Wait where
  yielded : Option StartTask
  resumed : List String
  outcome : Outcome
  deriving DecidableEq, Repr

/-- `f'{status}'`. -/
def statusText : SandboxStatus → String
  | .starting => "SandboxStatus.STARTING"
  | .running => "SandboxStatus.RUNNING"
  | .paused => "SandboxStatus.PAUSED"
  | .error => "SandboxStatus.ERROR"
  | .missing => "SandboxStatus.MISSING"

/-- The sandbox that is waited for. -/
def sandbox? (task : StartTask) (answers : Answers) : Except String SandboxInfo :=
  match task.requestSandboxId with
  | none => answers.started
  | some id =>
    if id = "" then answers.started
    else
      match answers.found with
      | .error text => .error text
      | .ok none => .error ("Sandbox not found: " ++ id)
      | .ok (some info) => .ok info

/-- The loop. -/
def poll (timeout : ℚ) (sandbox : SandboxInfo) : List Round → Outcome
  | [] => .waiting
  | round :: rounds =>
    if round.elapsed ≤ timeout then
      match round.seen with
      | .error text => .raised text
      | .ok none => .raised ("Sandbox not found: " ++ sandbox.id)
      | .ok (some info) =>
        -- `sandbox.status`, not `sandbox_info.status`
        if sandbox.status ≠ .starting ∧ sandbox.status ≠ .running then
          .raised ("Sandbox not startable: " ++ sandbox.id)
        else if info.status = .running then .returned
        else poll timeout sandbox rounds
    else .raised ("Sandbox failed to start: " ++ sandbox.id)

/-- What follows the first look at the sandbox. -/
def waitFor (timeout : ℚ) (answers : Answers) (sandbox : SandboxInfo) : List String × Outcome :=
  let resumed := if sandbox.status = .paused then [sandbox.id] else []
  match sandbox.status, answers.resumed with
  | .paused, .error text => (resumed, .raised text)
  | _, _ =>
    if sandbox.status = .error then
      (resumed, .raised ("Sandbox status: " ++ statusText sandbox.status))
    else if sandbox.status = .running then (resumed, .returned)
    else if sandbox.status ≠ .starting then
      (resumed, .raised ("Sandbox not startable: " ++ sandbox.id))
    else (resumed, poll timeout sandbox answers.rounds)

/-- `_wait_for_sandbox_start`. -/
def waitForSandboxStart (timeout : ℚ) (task : StartTask) (answers : Answers) : Wait :=
  match sandbox? task answers with
  | .error text => ⟨none, [], .raised text⟩
  | .ok sandbox =>
    let (resumed, outcome) := waitFor timeout answers sandbox
    ⟨some { task with status := .waitingForSandbox, sandboxId := some sandbox.id }, resumed, outcome⟩

/-! ## When the wait returns -/

/-- A poll that sees the sandbox with a status. -/
def Round.Sees (round : Round) (p : SandboxStatus → Prop) : Prop :=
  ∃ info, round.seen = .ok (some info) ∧ p info.status

/-- A poll within the time sees `RUNNING`, and every poll before it sees the sandbox with any other
status. -/
def ReachesRunning (timeout : ℚ) (rounds : List Round) : Prop :=
  ∃ before round after, rounds = before ++ round :: after ∧
    (∀ r ∈ before, r.elapsed ≤ timeout ∧ r.Sees (· ≠ .running)) ∧
      round.elapsed ≤ timeout ∧ round.Sees (· = .running)

section Polls

variable {timeout : ℚ} {sandbox : SandboxInfo} {rounds : List Round}

theorem reachesRunning_cons (round : Round) (rounds : List Round) :
    ReachesRunning timeout (round :: rounds) ↔ round.elapsed ≤ timeout ∧
      (round.Sees (· = .running) ∨ round.Sees (· ≠ .running) ∧ ReachesRunning timeout rounds) := by
  constructor
  · rintro ⟨before, last, after, heq, hbefore, htime, hlast⟩
    cases before with
    | nil =>
        obtain ⟨rfl, rfl⟩ := List.cons.inj heq
        exact ⟨htime, Or.inl hlast⟩
    | cons first before =>
        obtain ⟨rfl, rfl⟩ := List.cons.inj heq
        rw [List.forall_mem_cons] at hbefore
        exact ⟨hbefore.1.1, Or.inr ⟨hbefore.1.2, before, last, after, rfl, hbefore.2, htime, hlast⟩⟩
  · rintro ⟨htime, hnow | ⟨hother, before, last, after, rfl, hbefore, hlast⟩⟩
    · exact ⟨[], round, rounds, rfl, fun r hr => absurd hr List.not_mem_nil, htime, hnow⟩
    · exact ⟨round :: before, last, after, rfl,
        List.forall_mem_cons.mpr ⟨⟨htime, hother⟩, hbefore⟩, hlast⟩

/-- A poll that fails, or finds no sandbox, sees nothing. -/
theorem not_sees {round : Round} (h : ∀ info, round.seen ≠ .ok (some info))
    (p : SandboxStatus → Prop) : ¬round.Sees p :=
  fun ⟨info, hinfo, _⟩ => h info hinfo

/-- The loop ends well exactly when a poll within the time sees `RUNNING`. -/
theorem poll_returned_iff (hstarting : sandbox.status = .starting) (rounds : List Round) :
    poll timeout sandbox rounds = .returned ↔ ReachesRunning timeout rounds := by
  induction rounds with
  | nil =>
      refine iff_of_false (fun h => by cases h) ?_
      rintro ⟨before, round, after, heq, -⟩
      exact absurd heq.symm (List.append_ne_nil_of_right_ne_nil _ (List.cons_ne_nil _ _))
  | cons round rounds ih =>
      rw [reachesRunning_cons]
      unfold poll
      by_cases htime : round.elapsed ≤ timeout
      · rw [if_pos htime]
        cases hseen : round.seen with
        | error text =>
            have hnot : ∀ p, ¬round.Sees p := not_sees fun info hinfo => by
              rw [hseen] at hinfo
              cases hinfo
            exact iff_of_false (fun h => by cases h)
              fun ⟨_, h⟩ => h.elim (hnot _) fun h => hnot _ h.1
        | ok seen =>
            cases seen with
            | none =>
                have hnot : ∀ p, ¬round.Sees p := not_sees fun info hinfo => by
                  rw [hseen] at hinfo
                  cases hinfo
                exact iff_of_false (fun h => by cases h)
                  fun ⟨_, h⟩ => h.elim (hnot _) fun h => hnot _ h.1
            | some info =>
                have hsees : ∀ p : SandboxStatus → Prop, round.Sees p ↔ p info.status := by
                  intro p
                  constructor
                  · rintro ⟨info', hinfo', hp⟩
                    rw [hseen] at hinfo'
                    cases hinfo'
                    exact hp
                  · exact fun hp => ⟨info, hseen, hp⟩
                dsimp only
                rw [if_neg fun h => h.1 hstarting, hsees, hsees]
                by_cases hrunning : info.status = .running
                · rw [if_pos hrunning]
                  exact iff_of_true rfl ⟨htime, Or.inl hrunning⟩
                · rw [if_neg hrunning, ih]
                  constructor
                  · exact fun h => ⟨htime, Or.inr ⟨hrunning, h⟩⟩
                  · rintro ⟨-, h | ⟨-, h⟩⟩
                    · exact absurd h hrunning
                    · exact h
      · rw [if_neg htime]
        exact iff_of_false (fun h => by cases h) fun h => htime h.1

/-- Another status for a sandbox that is not running. -/
def masked (status : SandboxInfo → SandboxStatus) (info : SandboxInfo) : SandboxInfo :=
  if info.status = .running then info else { info with status := status info }

/-- The round with another status for a sandbox that is not running. -/
def Round.masked (round : Round) (status : SandboxInfo → SandboxStatus) : Round where
  elapsed := round.elapsed
  seen := round.seen.map (·.map (SandboxWaits.masked status))

theorem masked_status_iff {status : SandboxInfo → SandboxStatus}
    (hstatus : ∀ info, status info ≠ .running) (info : SandboxInfo) :
    (masked status info).status = .running ↔ info.status = .running := by
  unfold masked
  split_ifs with h
  · exact Iff.rfl
  · exact iff_of_false (hstatus info) h

/-- A status other than `RUNNING` makes no difference to the loop. -/
theorem poll_masked {status : SandboxInfo → SandboxStatus} (hstatus : ∀ info, status info ≠ .running)
    (rounds : List Round) :
    poll timeout sandbox (rounds.map (·.masked status)) = poll timeout sandbox rounds := by
  induction rounds with
  | nil => rfl
  | cons round rounds ih =>
      obtain ⟨elapsed, seen⟩ := round
      rw [List.map_cons]
      unfold poll
      rw [ih]
      rcases seen with text | _ | info
      · rfl
      · rfl
      · show (if elapsed ≤ timeout then
          if _ then _ else if (masked status info).status = SandboxStatus.running
          then _ else _ else _) = _
        rw [if_congr (masked_status_iff hstatus info) rfl rfl]

end Polls

section Waits

variable {timeout : ℚ} {task : StartTask} {answers : Answers}

theorem waitForSandboxStart_of_sandbox (timeout : ℚ) {sandbox : SandboxInfo}
    (h : sandbox? task answers = .ok sandbox) :
    (waitForSandboxStart timeout task answers).resumed = (waitFor timeout answers sandbox).1 ∧
      (waitForSandboxStart timeout task answers).outcome = (waitFor timeout answers sandbox).2 := by
  unfold waitForSandboxStart
  rw [h]
  exact ⟨rfl, rfl⟩

theorem waitFor_of_paused (timeout : ℚ) (answers : Answers) {sandbox : SandboxInfo}
    (h : sandbox.status = .paused) :
    (waitFor timeout answers sandbox).1 = [sandbox.id] ∧
      ∃ text, (waitFor timeout answers sandbox).2 = .raised text := by
  unfold waitFor
  rw [h]
  cases answers.resumed with
  | error text => exact ⟨rfl, text, rfl⟩
  | ok done => exact ⟨rfl, _, rfl⟩

theorem waitFor_returned_iff (timeout : ℚ) (answers : Answers) (sandbox : SandboxInfo) :
    (waitFor timeout answers sandbox).2 = .returned ↔
      sandbox.status = .running ∨
        sandbox.status = .starting ∧ ReachesRunning timeout answers.rounds := by
  cases hstatus : sandbox.status with
  | paused =>
      -- the sandbox that was resumed is not looked at again
      obtain ⟨-, text, htext⟩ := waitFor_of_paused timeout answers hstatus
      rw [htext]
      exact iff_of_false (fun h => by cases h) (by rintro (h | ⟨h, -⟩) <;> cases h)
  | starting =>
      unfold waitFor
      rw [hstatus]
      show poll timeout sandbox answers.rounds = .returned ↔ _
      rw [poll_returned_iff hstatus]
      exact ⟨fun h => Or.inr ⟨rfl, h⟩, fun h => (h.resolve_left (by decide)).2⟩
  | running =>
      unfold waitFor
      rw [hstatus]
      exact iff_of_true rfl (Or.inl rfl)
  | error =>
      unfold waitFor
      rw [hstatus]
      exact iff_of_false (fun h => by cases h) (by rintro (h | ⟨h, -⟩) <;> cases h)
  | missing =>
      unfold waitFor
      rw [hstatus]
      exact iff_of_false (fun h => by cases h) (by rintro (h | ⟨h, -⟩) <;> cases h)

/-- **When the wait returns.**  It returns exactly when the sandbox was running at first, or was
starting and a poll within the time sees it running before any poll fails.  A sandbox that is paused
at first is resumed, once, and then not waited for.  And of the polled statuses only `RUNNING`
counts: with other statuses in the other polls the wait is the same. -/
theorem waitForSandboxStart_spec (timeout : ℚ) (task : StartTask) (answers : Answers) :
    ((waitForSandboxStart timeout task answers).outcome = .returned ↔
      ∃ sandbox, sandbox? task answers = .ok sandbox ∧ (sandbox.status = .running ∨
        sandbox.status = .starting ∧ ReachesRunning timeout answers.rounds)) ∧
    (∀ sandbox, sandbox? task answers = .ok sandbox → sandbox.status = .paused →
      (waitForSandboxStart timeout task answers).resumed = [sandbox.id] ∧
        ∃ text, (waitForSandboxStart timeout task answers).outcome = .raised text) ∧
    ∀ status : SandboxInfo → SandboxStatus, (∀ info, status info ≠ .running) →
      waitForSandboxStart timeout task
          { answers with rounds := answers.rounds.map (·.masked status) }
        = waitForSandboxStart timeout task answers := by
  refine ⟨?_, ?_, ?_⟩
  · cases hsandbox : sandbox? task answers with
    | error text =>
        refine iff_of_false ?_ (fun ⟨sandbox, h, _⟩ => by cases h)
        unfold waitForSandboxStart
        rw [hsandbox]
        exact fun h => by cases h
    | ok sandbox =>
        rw [(waitForSandboxStart_of_sandbox timeout hsandbox).2]
        rw [waitFor_returned_iff]
        constructor
        · exact fun h => ⟨sandbox, rfl, h⟩
        · rintro ⟨sandbox', h', hreach⟩
          cases h'
          exact hreach
  · intro sandbox hsandbox hpaused
    obtain ⟨hresumed, houtcome⟩ := waitForSandboxStart_of_sandbox timeout hsandbox
    rw [hresumed, houtcome]
    exact waitFor_of_paused timeout answers hpaused
  · intro status hstatus
    unfold waitForSandboxStart waitFor
    simp only [poll_masked hstatus]
    rfl

end Waits

end OpenHands.SandboxWaits
