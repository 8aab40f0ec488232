/-
# The callbacks of a payment

Stripe leads a customer back to `success_callback` or `cancel_callback`.  A success reads the
row of the billing session, reads the budget of the user from LiteLLM, writes the budget with
the amount of the session added, and commits the row as completed; a cancel reads the row and
commits it as cancelled.  Each of these is one step, in any order with those of the other
requests, and the request to LiteLLM and the commits may fail.

Amounts are exact here, where the source has floats.
-/
import Mathlib
import OpenHands.Lib.Run

namespace OpenHands.Billing

/-- `billing_session_status_enum`. -/
inductive BillingStatus where
  | inProgress | completed | cancelled | error
  deriving DecidableEq, Repr

/-- `BillingSessionType`. -/
inductive BillingSessionType where
  | directPayment | monthlySubscription
  deriving DecidableEq, Repr

/-- A row of `billing_sessions`; the id is its key. -/
structure BillingSession where
  status : BillingStatus := .inProgress
  billingSessionType : BillingSessionType := .directPayment
  price : ℚ
  deriving DecidableEq

/-- What the retrieval of the session from Stripe comes to. -/
inductive StripeStatus where
  | complete | incomplete | unavailable
  deriving DecidableEq, Repr

/-- The answer to a request; a redirect leads below the base URL. -/
inductive Response where
  | redirect (path : String)
  | badRequest
  | serverError
  deriving DecidableEq, Repr

/-- Where a request stands. -/
inductive Pc where
  | arrived
  | hasRow
  /-- LiteLLM has answered with the budget, `0` where it has none. -/
  | hasBudget (maxBudget : ℚ)
  | hasSet
  | answered (response : Response)
  deriving DecidableEq

/-- A request for a session. -/
inductive Callback (S : Type*) where
  | success (sessionId : S)
  | cancel (sessionId : S)
  deriving DecidableEq

/-- The billing sessions of the user, their amounts at Stripe in cents, and the requests. -/
structure Setup (S R : Type*) where
  sessions : Finset S
  billingSessionType : S → BillingSessionType := fun _ => .directPayment
  price : S → ℚ := fun _ => 0
  amountSubtotal : S → Option ℤ
  requests : R → Callback S

/-- The rows, the budget of the user at LiteLLM, and the requests. -/
structure World (S R : Type*) where
  rows : S → BillingSession
  maxBudget : Option ℚ
  pcs : R → Pc := fun _ => .arrived

/-- A step of a request, with what the environment decides about it. -/
inductive Move (R : Type*) where
  | readRow (r : R) (stripe : StripeStatus)
  | readBudget (r : R) (ok : Bool)
  | setBudget (r : R) (ok : Bool)
  | commit (r : R) (ok : Bool)

variable {S R : Type*} (setup : Setup S R)

/-- `add_credits`. -/
def Setup.credits (s : S) : ℚ := (setup.amountSubtotal s).getD 0 / 100

/-- All sessions are in progress. -/
def Setup.start (maxBudget : Option ℚ) : World S R where
  rows := fun s => { billingSessionType := setup.billingSessionType s, price := setup.price s }
  maxBudget := maxBudget

namespace World

section Steps

variable [DecidableEq S] [DecidableEq R] (w : World S R) (r : R)

/-- The request goes on. -/
def goTo (pc : Pc) : World S R := { w with pcs := Function.update w.pcs r pc }

/-- `.filter(id == session_id).filter(status == 'in_progress').first()`, and the checks. -/
def readRow (stripe : StripeStatus) : World S R :=
  match w.pcs r, setup.requests r with
  | .arrived, .success s =>
    if s ∈ setup.sessions ∧ (w.rows s).status = .inProgress then
      if (w.rows s).billingSessionType ≠ .directPayment then
        w.goTo r (.answered (.redirect "settings?checkout=success"))
      else
        match stripe with
        | .complete => w.goTo r .hasRow
        | .incomplete => w.goTo r (.answered .badRequest)
        | .unavailable => w.goTo r (.answered .serverError)
    else w.goTo r (.answered .badRequest)
  | .arrived, .cancel s =>
    if s ∈ setup.sessions ∧ (w.rows s).status = .inProgress then w.goTo r .hasRow
    else w.goTo r (.answered (.redirect "settings?checkout=cancel"))
  | _, _ => w

/-- `_get_litellm_user`. -/
def readBudget (ok : Bool) : World S R :=
  match w.pcs r, setup.requests r with
  | .hasRow, .success _ =>
    if ok then w.goTo r (.hasBudget (w.maxBudget.getD 0)) else w.goTo r (.answered .serverError)
  | _, _ => w

/-- `_upsert_litellm_user`. -/
def setBudget (ok : Bool) : World S R :=
  match w.pcs r, setup.requests r with
  | .hasBudget maxBudget, .success s =>
    if ok then { w.goTo r .hasSet with maxBudget := some (maxBudget + setup.credits s) }
    else w.goTo r (.answered .serverError)
  | _, _ => w

/-- `session.commit()`; the update of the row finds it by its key alone. -/
def commit (ok : Bool) : World S R :=
  match w.pcs r, setup.requests r with
  | .hasSet, .success s =>
    if ok then
      let row := { w.rows s with status := .completed, price := (setup.amountSubtotal s).getD 0 }
      { w.goTo r (.answered (.redirect "settings/billing?checkout=success")) with
        rows := Function.update w.rows s row }
    else w.goTo r (.answered .serverError)
  | .hasRow, .cancel s =>
    if ok then
      let row := { w.rows s with status := .cancelled }
      let path :=
        if row.billingSessionType = .directPayment then "settings/billing?checkout=cancel"
        else "settings?checkout=cancel"
      { w.goTo r (.answered (.redirect path)) with rows := Function.update w.rows s row }
    else w.goTo r (.answered .serverError)
  | _, _ => w

/-- One step. -/
def perform : Move R → World S R
  | .readRow r stripe => w.readRow setup r stripe
  | .readBudget r ok => w.readBudget setup r ok
  | .setBudget r ok => w.setBudget setup r ok
  | .commit r ok => w.commit setup r ok

end Steps

variable (w : World S R)

/-- No request lies between its budget write and its commit. -/
def Quiet : Prop := ∀ r, w.pcs r ≠ .hasSet

/-- The amounts of the completed sessions. -/
def paid : ℚ :=
  ∑ s ∈ setup.sessions, if (w.rows s).status = .completed then setup.credits s else 0

/-- The budget has grown by the amounts of the completed sessions. -/
def BudgetMatches (initial : Option ℚ) : Prop :=
  w.maxBudget.getD 0 = initial.getD 0 + w.paid setup

/-- A success request for the session lies between its budget write and its commit. -/
def Uncommitted (s : S) : Prop := ∃ r, setup.requests r = .success s ∧ w.pcs r = .hasSet

/-- The session is in progress, and no request has paid for it. -/
def Open (s : S) : Prop := (w.rows s).status = .inProgress ∧ ¬ w.Uncommitted setup s

/-- A step that builds on what its request has read finds that it is still so, and no commit
fails once the budget is written. -/
def Isolated : Move R → Prop
  | .setBudget r true => ∀ maxBudget s, w.pcs r = .hasBudget maxBudget →
      setup.requests r = .success s → maxBudget = w.maxBudget.getD 0 ∧ w.Open setup s
  | .commit r ok => ∀ s, (setup.requests r = .success s → w.pcs r = .hasSet → ok = true) ∧
      (setup.requests r = .cancel s → w.pcs r = .hasRow → ok = true → w.Open setup s)
  | _ => True

end World

end OpenHands.Billing
