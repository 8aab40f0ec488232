/-
# Subscriptions

The table `subscription_access` gets a row for every invoice that Stripe reports paid.  The
handlers of the other events, and the request of a user to cancel, look up one row by the
subscription or by the user and change that row.  They run one after another, and the queries
have no order: any row that matches may be the one they get.
-/
import Mathlib.Data.Int.Order.Basic
import OpenHands.Lib.PickedRow
import OpenHands.Lib.Run

namespace OpenHands.Subscriptions

/-- `subscription_access_status_enum`. -/
inductive AccessStatus where
  | active | disabled
  deriving DecidableEq, Repr

/-- A row of `subscription_access`. -/
structure SubscriptionAccess where
  status : AccessStatus
  userId : String
  startAt : ℤ
  endAt : ℤ
  amountPaid : ℤ
  stripeInvoicePaymentId : String
  cancelledAt : Option ℤ := none
  stripeSubscriptionId : Option String
  deriving DecidableEq, Repr

/-- The invoice of an event, with the metadata of its subscription. -/
structure Invoice where
  amountPaid : ℤ
  paymentIntent : String
  subscription : Option String
  userId : String
  billingSessionType : String
  deriving DecidableEq, Repr

/-- What a handler raises. -/
inductive HandlerError where
  | keyError
  | assertionError
  | valueError (message : String)
  | httpException (statusCode : ℕ) (detail : String)
  deriving DecidableEq, Repr

/-- `SUBSCRIPTION_PRICE_DATA[billing_session_type]['unit_amount']`. -/
def subscriptionUnitAmount : String → Option ℤ
  | "MONTHLY_SUBSCRIPTION" => some 2000
  | _ => none

namespace SubscriptionAccess

variable (row : SubscriptionAccess)

/-- An `ACTIVE` row of the subscription. -/
def activeOf (subscriptionId : String) : Bool :=
  row.stripeSubscriptionId = some subscriptionId ∧ row.status = .active

/-- The row is valid at the time. -/
def validAt (now : ℤ) : Bool := row.startAt ≤ now ∧ now ≤ row.endAt

/-- The filters of `cancel_subscription`. -/
def cancellable (userId : String) (now : ℤ) : Bool :=
  row.status = .active ∧ row.userId = userId ∧ row.validAt now ∧ row.cancelledAt = none

/-- `cancelled_at` is set unless it is. -/
def cancel (now : ℤ) : SubscriptionAccess :=
  if row.cancelledAt = none then { row with cancelledAt := some now } else row

end SubscriptionAccess

open SubscriptionAccess

/-- `relativedelta(months=1)` behind a time. -/
structure Calendar where
  plusOneMonth : ℤ → ℤ
  le_plusOneMonth : ∀ t, t ≤ plusOneMonth t

variable (calendar : Calendar)

/-! ## The handlers -/

/-- `invoice.paid`. -/
def invoicePaid (invoice : Invoice) (now : ℤ) (rows : List SubscriptionAccess) :
    Except HandlerError (List SubscriptionAccess) :=
  match subscriptionUnitAmount invoice.billingSessionType with
  | none => .error .keyError
  | some unitAmount =>
    if invoice.amountPaid ≠ unitAmount then .error .assertionError
    else if invoice.billingSessionType ≠ "MONTHLY_SUBSCRIPTION" then
      .error (.valueError ("unknown_billing_session_type:" ++ invoice.billingSessionType))
    else
      .ok (rows ++ [
        { status := .active
          userId := invoice.userId
          startAt := now
          endAt := calendar.plusOneMonth now
          amountPaid := invoice.amountPaid
          stripeInvoicePaymentId := invoice.paymentIntent
          stripeSubscriptionId := invoice.subscription }])

/-- `customer.subscription.updated`. -/
def subscriptionUpdated (subscriptionId : String) (cancelAtPeriodEnd : Bool) (wish : ℕ) (now : ℤ)
    (rows : List SubscriptionAccess) : List SubscriptionAccess :=
  if cancelAtPeriodEnd then
    match pickRow (activeOf · subscriptionId) wish rows with
    | none => rows
    | some i => rows.modify i (cancel · now)
  else rows

/-- `customer.subscription.deleted`. -/
def subscriptionDeleted (subscriptionId : String) (wish : ℕ) (rows : List SubscriptionAccess) :
    List SubscriptionAccess :=
  match pickRow (activeOf · subscriptionId) wish rows with
  | none => rows
  | some i => rows.modify i fun row => { row with status := .disabled }

/-- `cancel_subscription`: the subscription that is cancelled and the rows.  `stripe` is the
error of Stripe, if it raises one. -/
def cancelSubscription (userId : String) (stripe : Option String) (wish : ℕ) (now : ℤ)
    (rows : List SubscriptionAccess) : Except HandlerError (String × List SubscriptionAccess) :=
  if userId = "" then .error (.httpException 401 "Unauthorized")
  else
    match (pickRow (cancellable · userId now) wish rows).bind fun i => rows[i]?.map (i, ·) with
    | none => .error (.httpException 404 "No active subscription found")
    | some (i, row) =>
      match row.stripeSubscriptionId.filter (· ≠ "") with
      | none => .error (.httpException 400
          "Cannot cancel subscription: missing Stripe subscription ID")
      | some subscriptionId =>
        match stripe with
        | some error => .error (.httpException 500 ("Failed to cancel subscription: " ++ error))
        | none => .ok (subscriptionId, rows.modify i fun row => { row with cancelledAt := some now })

/-! ## Sequences -/

/-- The table, the time, the payments that were reported, and the subscriptions that were
reported deleted or have been cancelled. -/
structure World where
  rows : List SubscriptionAccess := []
  now : ℤ := 0
  paid : List String := []
  deleted : List String := []
  cancelled : List String := []

/-- An event of Stripe, a request to cancel, or some time that passes. -/
inductive Move where
  | invoicePaid (invoice : Invoice)
  | subscriptionUpdated (subscriptionId : String) (cancelAtPeriodEnd : Bool) (wish : ℕ)
  | subscriptionDeleted (subscriptionId : String) (wish : ℕ)
  | cancelSubscription (userId : String) (stripe : Option String) (wish : ℕ)
  | elapse (d : ℕ)

/-- One step; a handler that raises changes nothing. -/
def World.perform (w : World) : Move → World
  | .invoicePaid invoice =>
    { w with
      rows := (Subscriptions.invoicePaid calendar invoice w.now w.rows).toOption.getD w.rows
      paid := w.paid ++ [invoice.paymentIntent] }
  | .subscriptionUpdated subscriptionId cancelAtPeriodEnd wish =>
    { w with
      rows := Subscriptions.subscriptionUpdated subscriptionId cancelAtPeriodEnd wish w.now w.rows }
  | .subscriptionDeleted subscriptionId wish =>
    { w with
      rows := Subscriptions.subscriptionDeleted subscriptionId wish w.rows
      deleted := w.deleted ++ [subscriptionId] }
  | .cancelSubscription userId stripe wish =>
    match Subscriptions.cancelSubscription userId stripe wish w.now w.rows with
    | .error _ => w
    | .ok (subscriptionId, rows) =>
      { w with rows := rows, cancelled := w.cancelled ++ [subscriptionId] }
  | .elapse d => { w with now := w.now + d }

/-- Every payment has one row, a deleted subscription has no `ACTIVE` row, and the valid
`ACTIVE` rows of a cancelled subscription are cancelled. -/
structure World.TableHolds (w : World) : Prop where
  oneRow : ∀ payment ∈ w.paid,
    (w.rows.filter fun row => row.stripeInvoicePaymentId = payment).length = 1
  noneActive : ∀ s ∈ w.deleted, ∀ row ∈ w.rows, row.activeOf s = false
  allCancelled : ∀ s ∈ w.cancelled, ∀ row ∈ w.rows,
    row.activeOf s → row.validAt w.now → row.cancelledAt ≠ none

end OpenHands.Subscriptions
