/-
# What the table of subscriptions promises

A handler changes one row and looks for no other.  Read as numbers of rows, the promises say
that a payment has one row, and that a deleted or cancelled subscription has none that is
still active or still to be cancelled.  Every step keeps them exactly under a condition on
the table before it, and so does a sequence of steps.
-/
import OpenHands.Subscriptions

namespace OpenHands.Subscriptions

open Run SubscriptionAccess

variable {calendar : Calendar} {w : World}

/-! ## Numbers of rows -/

/-- The row of a payment. -/
def SubscriptionAccess.paidBy (row : SubscriptionAccess) (payment : String) : Bool :=
  row.stripeInvoicePaymentId = payment

/-- A valid `ACTIVE` row of the subscription that is not cancelled. -/
def SubscriptionAccess.openFor (row : SubscriptionAccess) (s : String) (now : ℤ) : Bool :=
  row.activeOf s ∧ row.validAt now ∧ row.cancelledAt = none

/-- The promises of the table as numbers of rows. -/
structure World.Counts (w : World) : Prop where
  paid : ∀ payment ∈ w.paid, w.rows.countP (paidBy · payment) = 1
  deleted : ∀ s ∈ w.deleted, w.rows.countP (activeOf · s) = 0
  cancelled : ∀ s ∈ w.cancelled, w.rows.countP (openFor · s w.now) = 0

theorem tableHolds_iff_counts : w.TableHolds ↔ w.Counts := by
  have hpaid : ∀ payment, (w.rows.filter fun row => row.stripeInvoicePaymentId = payment).length
      = w.rows.countP (paidBy · payment) := by
    intro payment
    rw [List.countP_eq_length_filter]
    rfl
  have hdeleted : ∀ s, (∀ row ∈ w.rows, row.activeOf s = false)
      ↔ w.rows.countP (activeOf · s) = 0 := by
    intro s
    rw [List.countP_eq_zero]
    simp only [Bool.not_eq_true]
  have hcancelled : ∀ s, (∀ row ∈ w.rows, row.activeOf s → row.validAt w.now →
      row.cancelledAt ≠ none) ↔ w.rows.countP (openFor · s w.now) = 0 := by
    intro s
    rw [List.countP_eq_zero]
    refine forall₂_congr fun row _ => ?_
    unfold openFor
    rw [decide_eq_true_eq, not_and, not_and]
  constructor
  · intro h
    exact ⟨fun payment hp => (hpaid payment).symm.trans (h.oneRow payment hp),
      fun s hs => (hdeleted s).mp (h.noneActive s hs),
      fun s hs => (hcancelled s).mp (h.allCancelled s hs)⟩
  · intro h
    exact ⟨fun payment hp => (hpaid payment).trans (h.paid payment hp),
      fun s hs => (hdeleted s).mpr (h.deleted s hs),
      fun s hs => (hcancelled s).mpr (h.cancelled s hs)⟩

/-- No row starts in the future. -/
def World.Started (w : World) : Prop := w.rows.countP (fun row => w.now < row.startAt) = 0

/-- The invoice is one for a month at its price. -/
def Invoice.Accepted (invoice : Invoice) : Prop :=
  subscriptionUnitAmount invoice.billingSessionType = some invoice.amountPaid

instance (invoice : Invoice) : Decidable invoice.Accepted := inferInstanceAs (Decidable (_ = _))

/-- The request cancels the row with the index `i`, which belongs to the subscription `s`. -/
structure World.Cancels (w : World) (userId : String) (stripe : Option String) (wish i : ℕ)
    (row : SubscriptionAccess) (s : String) : Prop where
  userId_ne : userId ≠ ""
  stripe_none : stripe = none
  picked : pickRow (cancellable · userId w.now) wish w.rows = some i
  row_eq : w.rows[i]? = some row
  subscription : row.stripeSubscriptionId = some s
  subscription_ne : s ≠ ""

/-- When a step keeps the promises of the table. -/
def World.Proceeds (w : World) : Move → Prop
  | .invoicePaid invoice =>
    if invoice.Accepted then
      w.rows.countP (paidBy · invoice.paymentIntent) = 0 ∧
        ∀ s, invoice.subscription = some s → s ∉ w.deleted ∧ s ∉ w.cancelled
    else w.rows.countP (paidBy · invoice.paymentIntent) = 1
  | .subscriptionDeleted s _ => w.rows.countP (activeOf · s) ≤ 1
  | .cancelSubscription userId stripe wish => ∀ i row s,
      w.Cancels userId stripe wish i row s → w.rows.countP (openFor · s w.now) ≤ 1
  | _ => True

/-! ## An invoice -/

/-- The row of an invoice. -/
def newRow (calendar : Calendar) (invoice : Invoice) (now : ℤ) : SubscriptionAccess where
  status := .active
  userId := invoice.userId
  startAt := now
  endAt := calendar.plusOneMonth now
  amountPaid := invoice.amountPaid
  stripeInvoicePaymentId := invoice.paymentIntent
  stripeSubscriptionId := invoice.subscription

theorem billingSessionType_of_unitAmount {name : String} {amount : ℤ}
    (h : subscriptionUnitAmount name = some amount) : name = "MONTHLY_SUBSCRIPTION" := by
  unfold subscriptionUnitAmount at h
  split at h
  · rfl
  · cases h

theorem invoicePaid_of_accepted {invoice : Invoice} (h : invoice.Accepted) (now : ℤ)
    (rows : List SubscriptionAccess) :
    invoicePaid calendar invoice now rows = .ok (rows ++ [newRow calendar invoice now]) := by
  have htype := billingSessionType_of_unitAmount h
  unfold Invoice.Accepted at h
  unfold invoicePaid
  simp only [h]
  rw [if_neg (not_not.mpr rfl), if_neg (not_not.mpr htype)]
  rfl

theorem invoicePaid_of_not_accepted {invoice : Invoice} (h : ¬ invoice.Accepted) (now : ℤ)
    (rows : List SubscriptionAccess) :
    ∃ error, ∀ calendar, invoicePaid calendar invoice now rows = .error error := by
  unfold invoicePaid
  cases hamount : subscriptionUnitAmount invoice.billingSessionType with
  | none => exact ⟨_, fun _ => rfl⟩
  | some amount =>
    have hne : invoice.amountPaid ≠ amount := by
      rintro rfl
      exact h hamount
    exact ⟨_, fun _ => if_pos hne⟩

theorem openFor_newRow {invoice : Invoice} {now : ℤ} {s : String} :
    (newRow calendar invoice now).openFor s now = true ↔ invoice.subscription = some s := by
  unfold openFor activeOf validAt newRow
  simp [calendar.le_plusOneMonth now]

theorem activeOf_newRow {invoice : Invoice} {now : ℤ} {s : String} :
    (newRow calendar invoice now).activeOf s = true ↔ invoice.subscription = some s := by
  unfold activeOf newRow
  simp

theorem paidBy_newRow {invoice : Invoice} {now : ℤ} {payment : String} :
    (newRow calendar invoice now).paidBy payment = true ↔ invoice.paymentIntent = payment := by
  unfold paidBy newRow
  exact decide_eq_true_iff

theorem countP_concat (q : SubscriptionAccess → Bool) (rows : List SubscriptionAccess)
    (row : SubscriptionAccess) :
    (rows ++ [row]).countP q = rows.countP q + if q row then 1 else 0 := by
  rw [List.countP_append, List.countP_singleton]

/-- An accepted invoice adds a row, which must be the first of the payment. -/
theorem counts_newRow_iff (h : w.Counts) (invoice : Invoice) :
    ({ w with
        rows := w.rows ++ [newRow calendar invoice w.now]
        paid := w.paid ++ [invoice.paymentIntent] } : World).Counts
      ↔ w.rows.countP (paidBy · invoice.paymentIntent) = 0 ∧
        ∀ s, invoice.subscription = some s → s ∉ w.deleted ∧ s ∉ w.cancelled := by
  constructor
  · rintro ⟨hpaid, hdeleted, hcancelled⟩
    dsimp only at hpaid hdeleted hcancelled
    constructor
    · have hone := hpaid invoice.paymentIntent (List.mem_concat_self ..)
      rw [countP_concat, if_pos (paidBy_newRow.mpr rfl)] at hone
      omega
    · intro s hs
      constructor
      · intro hmem
        have hnone := hdeleted s hmem
        rw [countP_concat, if_pos (activeOf_newRow.mpr hs)] at hnone
        omega
      · intro hmem
        have hnone := hcancelled s hmem
        rw [countP_concat, if_pos (openFor_newRow.mpr hs)] at hnone
        omega
  · rintro ⟨hnew, hopen⟩
    constructor
    · intro payment hpayment
      rw [countP_concat]
      rcases List.mem_append.mp hpayment with hpayment | hpayment
      · have hone := h.paid payment hpayment
        have hne : invoice.paymentIntent ≠ payment := by
          rintro rfl
          rw [hnew] at hone
          cases hone
        rw [if_neg fun heq => hne (paidBy_newRow.mp heq), hone]
      · rw [List.mem_singleton.mp hpayment, hnew, if_pos (paidBy_newRow.mpr rfl)]
    · intro s hs
      rw [countP_concat, h.deleted s hs,
        if_neg fun hactive => (hopen s (activeOf_newRow.mp hactive)).1 hs]
    · intro s hs
      rw [countP_concat, h.cancelled s hs,
        if_neg fun hactive => (hopen s (openFor_newRow.mp hactive)).2 hs]

/-- Another invoice adds none, so that the payment must have its row. -/
theorem counts_noRow_iff (h : w.Counts) (payment : String) :
    ({ w with paid := w.paid ++ [payment] } : World).Counts
      ↔ w.rows.countP (paidBy · payment) = 1 := by
  constructor
  · exact fun h' => h'.paid payment (List.mem_concat_self ..)
  · intro hone
    refine ⟨fun other hother => ?_, h.deleted, h.cancelled⟩
    rcases List.mem_append.mp hother with hother | hother
    · exact h.paid other hother
    · rw [List.mem_singleton.mp hother]
      exact hone

theorem counts_invoicePaid_iff (h : w.Counts) (invoice : Invoice) :
    (w.perform calendar (.invoicePaid invoice)).Counts ↔ w.Proceeds (.invoicePaid invoice) := by
  dsimp only [World.perform, World.Proceeds]
  by_cases haccepted : invoice.Accepted
  · rw [if_pos haccepted, invoicePaid_of_accepted haccepted]
    exact counts_newRow_iff h invoice
  · obtain ⟨error, herror⟩ := invoicePaid_of_not_accepted haccepted w.now w.rows
    rw [if_neg haccepted, herror]
    exact counts_noRow_iff h invoice.paymentIntent

/-! ## Updates of one row -/

/-- An update that keeps the payment of a row, and neither activates nor opens it. -/
structure Closes (f : SubscriptionAccess → SubscriptionAccess) : Prop where
  paidBy : ∀ row payment, (f row).paidBy payment = row.paidBy payment
  startAt : ∀ row, (f row).startAt = row.startAt
  activeOf : ∀ row s, (f row).activeOf s = true → row.activeOf s = true
  openFor : ∀ row s now, (f row).openFor s now = true → row.openFor s now = true

/-- Such an update breaks no promise that was given. -/
theorem Counts.modify (h : w.Counts) {f : SubscriptionAccess → SubscriptionAccess}
    (hf : Closes f) {i : ℕ} {row : SubscriptionAccess} (hrow : w.rows[i]? = some row) :
    ({ w with rows := w.rows.modify i f } : World).Counts := by
  constructor
  · intro payment hpayment
    rw [← h.paid payment hpayment]
    exact countP_modify_of_eq hrow (hf.paidBy row payment)
  · intro s hs
    have hle := countP_modify_le (q := (activeOf · s)) hrow (hf.activeOf row s)
    rw [h.deleted s hs] at hle
    exact Nat.le_zero.mp hle
  · intro s hs
    have hle := countP_modify_le (q := (openFor · s w.now)) hrow (hf.openFor row s w.now)
    rw [h.cancelled s hs] at hle
    exact Nat.le_zero.mp hle

theorem closes_disable : Closes fun row => { row with status := .disabled } where
  paidBy := fun _ _ => rfl
  startAt := fun _ => rfl
  activeOf := fun row s h => by simp [SubscriptionAccess.activeOf] at h
  openFor := fun row s now h => by
    simp [SubscriptionAccess.openFor, SubscriptionAccess.activeOf] at h

theorem closes_setCancelled (now : ℤ) : Closes fun row => { row with cancelledAt := some now } where
  paidBy := fun _ _ => rfl
  startAt := fun _ => rfl
  activeOf := fun _ _ h => h
  openFor := fun row s now h => by simp [SubscriptionAccess.openFor] at h

theorem closes_cancel (now : ℤ) : Closes (cancel · now) := by
  have hcases : ∀ row : SubscriptionAccess,
      row.cancel now = row ∨ row.cancel now = { row with cancelledAt := some now } := by
    intro row
    unfold cancel
    split
    · exact Or.inr rfl
    · exact Or.inl rfl
  have hset := closes_setCancelled now
  constructor
  · intro row payment
    rcases hcases row with h | h
    · rw [h]
    · rw [h, hset.paidBy]
  · intro row
    rcases hcases row with h | h
    · rw [h]
    · rw [h, hset.startAt]
  · intro row s hactive
    rcases hcases row with h | h
    · rwa [h] at hactive
    · rw [h] at hactive
      exact hset.activeOf row s hactive
  · intro row s now' hopen
    rcases hcases row with h | h
    · rwa [h] at hopen
    · rw [h] at hopen
      exact hset.openFor row s now' hopen

theorem Counts.subscriptionUpdated (h : w.Counts) (s : String) (cancelAtPeriodEnd : Bool)
    (wish : ℕ) : (w.perform calendar (.subscriptionUpdated s cancelAtPeriodEnd wish)).Counts := by
  show ({ w with rows := Subscriptions.subscriptionUpdated s cancelAtPeriodEnd wish w.now w.rows }
    : World).Counts
  unfold Subscriptions.subscriptionUpdated
  split
  · split
    · exact h
    next i hpick =>
      obtain ⟨row, hrow, -⟩ := exists_of_pickRow hpick
      exact Counts.modify h (closes_cancel w.now) hrow
  · exact h

/-- One more subscription is deleted, with no `ACTIVE` row left. -/
theorem counts_deleted_iff (h : w.Counts) (s : String) :
    ({ w with deleted := w.deleted ++ [s] } : World).Counts
      ↔ w.rows.countP (activeOf · s) = 0 := by
  constructor
  · exact fun h' => h'.deleted s (List.mem_concat_self ..)
  · intro hnone
    refine ⟨h.paid, fun other hother => ?_, h.cancelled⟩
    rcases List.mem_append.mp hother with hother | hother
    · exact h.deleted other hother
    · rw [List.mem_singleton.mp hother]
      exact hnone

theorem counts_cancelled_iff (h : w.Counts) (s : String) :
    ({ w with cancelled := w.cancelled ++ [s] } : World).Counts
      ↔ w.rows.countP (openFor · s w.now) = 0 := by
  constructor
  · exact fun h' => h'.cancelled s (List.mem_concat_self ..)
  · intro hnone
    refine ⟨h.paid, h.deleted, fun other hother => ?_⟩
    rcases List.mem_append.mp hother with hother | hother
    · exact h.cancelled other hother
    · rw [List.mem_singleton.mp hother]
      exact hnone

theorem counts_subscriptionDeleted_iff (h : w.Counts) (s : String) (wish : ℕ) :
    (w.perform calendar (.subscriptionDeleted s wish)).Counts
      ↔ w.Proceeds (.subscriptionDeleted s wish) := by
  show ({ w with
    rows := Subscriptions.subscriptionDeleted s wish w.rows
    deleted := w.deleted ++ [s] } : World).Counts ↔ w.rows.countP (activeOf · s) ≤ 1
  unfold Subscriptions.subscriptionDeleted
  cases hpick : pickRow (activeOf · s) wish w.rows with
  | none =>
    have hzero := pickRow_eq_none_iff.mp hpick
    refine (counts_deleted_iff h s).trans ?_
    omega
  | some i =>
    obtain ⟨row, hrow, hactive⟩ := exists_of_pickRow hpick
    refine (counts_deleted_iff (Counts.modify h closes_disable hrow) s).trans ?_
    have hdrop := countP_modify_of_drop (q := (activeOf · s))
      (f := fun row => { row with status := .disabled }) hrow hactive (by simp [activeOf])
    show (w.rows.modify i _).countP (activeOf · s) = 0 ↔ _
    omega

/-! ## A request to cancel -/

/-- A request that succeeds sets `cancelled_at` of the row that it cancels. -/
theorem cancelSubscription_eq_ok_iff {userId : String} {stripe : Option String} {wish : ℕ}
    {s : String} {rows : List SubscriptionAccess} :
    cancelSubscription userId stripe wish w.now w.rows = .ok (s, rows) ↔
      ∃ i row, w.Cancels userId stripe wish i row s ∧
        rows = w.rows.modify i fun row => { row with cancelledAt := some w.now } := by
  constructor
  · intro h
    unfold cancelSubscription at h
    split at h
    · cases h
    next huser =>
      split at h
      · cases h
      next i row hpicked =>
        obtain ⟨i', hpick, hrow⟩ := Option.bind_eq_some_iff.mp hpicked
        obtain ⟨row', hrow', heq⟩ := Option.map_eq_some_iff.mp hrow
        cases heq
        split at h
        · cases h
        next s' hs' =>
          obtain ⟨hsub, hne⟩ := Option.filter_eq_some_iff.mp hs'
          split at h
          · cases h
          · cases h
            exact ⟨i, row, ⟨huser, rfl, hpick, hrow', hsub, of_decide_eq_true hne⟩, rfl⟩
  · rintro ⟨i, row, ⟨huser, hstripe, hpick, hrow, hsub, hne⟩, rfl⟩
    unfold cancelSubscription
    rw [if_neg huser, hpick, Option.bind_some, hrow]
    simp only [Option.map_some, hsub, Option.filter_some, hne, ne_eq, not_false_eq_true,
      decide_true, if_true, hstripe]

/-- The row that is cancelled was still to be cancelled. -/
theorem World.Cancels.openFor {userId : String} {stripe : Option String} {wish i : ℕ}
    {row : SubscriptionAccess} {s : String} (h : w.Cancels userId stripe wish i row s) :
    row.openFor s w.now = true := by
  obtain ⟨row', hrow', hcancellable⟩ := exists_of_pickRow h.picked
  rw [h.row_eq] at hrow'
  cases hrow'
  unfold cancellable at hcancellable
  obtain ⟨hactive, -, hvalid, hopen⟩ := of_decide_eq_true hcancellable
  unfold SubscriptionAccess.openFor activeOf
  exact decide_eq_true ⟨decide_eq_true ⟨h.subscription, hactive⟩, hvalid, hopen⟩

theorem counts_cancelSubscription_iff (h : w.Counts) (userId : String) (stripe : Option String)
    (wish : ℕ) :
    (w.perform calendar (.cancelSubscription userId stripe wish)).Counts
      ↔ w.Proceeds (.cancelSubscription userId stripe wish) := by
  dsimp only [World.perform, World.Proceeds]
  cases hcancel : cancelSubscription userId stripe wish w.now w.rows with
  | error error =>
    refine iff_of_true h fun i row s hcancels => ?_
    rw [cancelSubscription_eq_ok_iff.mpr ⟨i, row, hcancels, rfl⟩] at hcancel
    cases hcancel
  | ok result =>
    obtain ⟨s, rows⟩ := result
    obtain ⟨i, row, hcancels, rfl⟩ := cancelSubscription_eq_ok_iff.mp hcancel
    have hdrop := countP_modify_of_drop (q := (SubscriptionAccess.openFor · s w.now))
      (f := fun row => { row with cancelledAt := some w.now }) hcancels.row_eq hcancels.openFor
      (by simp [SubscriptionAccess.openFor])
    refine (counts_cancelled_iff
      (Counts.modify h (closes_setCancelled w.now) hcancels.row_eq) s).trans ?_
    show (w.rows.modify i _).countP (SubscriptionAccess.openFor · s w.now) = 0 ↔ _
    constructor
    · intro hnone i' row' s' hcancels'
      have hpick := hcancels.picked.symm.trans hcancels'.picked
      cases hpick
      have hrow := hcancels.row_eq.symm.trans hcancels'.row_eq
      cases hrow
      have hs := hcancels.subscription.symm.trans hcancels'.subscription
      cases hs
      omega
    · intro hone
      have hle := hone i row s hcancels
      omega

/-! ## Time -/

/-- A row that is not open now is not open later, unless it starts meanwhile. -/
theorem Counts.elapse (h : w.Counts) (hstarted : w.Started) (d : ℕ) :
    ({ w with now := w.now + d } : World).Counts := by
  refine ⟨h.paid, h.deleted, fun s hs => ?_⟩
  have hnone := List.countP_eq_zero.mp (h.cancelled s hs)
  have hstart := List.countP_eq_zero.mp hstarted
  refine List.countP_eq_zero.mpr fun row hrow hopen => hnone row hrow ?_
  unfold openFor validAt at hopen ⊢
  simp only [decide_eq_true_eq] at hopen ⊢
  obtain ⟨hactive, ⟨-, hend⟩, hcancelled⟩ := hopen
  have hpast := hstart row hrow
  simp only [decide_eq_true_eq] at hpast
  exact ⟨hactive, ⟨by omega, by omega⟩, hcancelled⟩

theorem Started.modify (h : w.Started) {f : SubscriptionAccess → SubscriptionAccess}
    (hf : Closes f) {i : ℕ} {row : SubscriptionAccess} (hrow : w.rows[i]? = some row) :
    ({ w with rows := w.rows.modify i f } : World).Started := by
  show (w.rows.modify i f).countP _ = 0
  rw [countP_modify_of_eq hrow (by rw [hf.startAt])]
  exact h

theorem Started.newRow (h : w.Started) (invoice : Invoice) :
    ({ w with rows := w.rows ++ [newRow calendar invoice w.now] } : World).Started := by
  show (w.rows ++ [Subscriptions.newRow calendar invoice w.now]).countP _ = 0
  rw [countP_concat, if_neg (by simp [Subscriptions.newRow])]
  exact h

/-- The rows that were there start when they did, and a new one starts now. -/
theorem Started.perform (h : w.Started) (move : Move) : (w.perform calendar move).Started := by
  cases move with
  | invoicePaid invoice =>
    dsimp only [World.perform]
    by_cases haccepted : invoice.Accepted
    · rw [invoicePaid_of_accepted haccepted]
      exact Started.newRow h invoice
    · obtain ⟨error, herror⟩ := invoicePaid_of_not_accepted haccepted w.now w.rows
      rw [herror]
      exact h
  | subscriptionUpdated s cancelAtPeriodEnd wish =>
    dsimp only [World.perform]
    unfold subscriptionUpdated
    split
    · split
      · exact h
      next i hpick =>
        obtain ⟨row, hrow, -⟩ := exists_of_pickRow hpick
        exact Started.modify h (closes_cancel w.now) hrow
    · exact h
  | subscriptionDeleted s wish =>
    dsimp only [World.perform]
    unfold subscriptionDeleted
    split
    · exact h
    next i hpick =>
      obtain ⟨row, hrow, -⟩ := exists_of_pickRow hpick
      exact Started.modify h closes_disable hrow
  | cancelSubscription userId stripe wish =>
    dsimp only [World.perform]
    cases hcancel : cancelSubscription userId stripe wish w.now w.rows with
    | error error => exact h
    | ok result =>
      obtain ⟨s, rows⟩ := result
      obtain ⟨i, row, hcancels, rfl⟩ := cancelSubscription_eq_ok_iff.mp hcancel
      exact Started.modify h (closes_setCancelled w.now) hcancels.row_eq
  | elapse d =>
    refine List.countP_eq_zero.mpr fun row hrow hlater => List.countP_eq_zero.mp h row hrow ?_
    have hlt : w.now + d < row.startAt := of_decide_eq_true hlater
    exact decide_eq_true (by omega)

/-! ## Sequences -/

/-- A step keeps the promises under its condition only. -/
theorem counts_perform_iff (h : w.Counts) (hstarted : w.Started) (move : Move) :
    (w.perform calendar move).Counts ↔ w.Proceeds move := by
  cases move with
  | invoicePaid invoice => exact counts_invoicePaid_iff h invoice
  | subscriptionUpdated s cancelAtPeriodEnd wish =>
    exact iff_of_true (Counts.subscriptionUpdated h s cancelAtPeriodEnd wish) trivial
  | subscriptionDeleted s wish => exact counts_subscriptionDeleted_iff h s wish
  | cancelSubscription userId stripe wish => exact counts_cancelSubscription_iff h userId stripe wish
  | elapse d => exact iff_of_true (Counts.elapse h hstarted d) trivial

/-- What a sequence keeps of a table that holds what it promises. -/
theorem tableHolds_steps_iff_of_counts {moves : List Move} {w : World} (hcounts : w.Counts)
    (hstarted : w.Started) :
    (∀ s ∈ steps (World.perform calendar) w moves, (s.1.perform calendar s.2).TableHolds)
      ↔ ∀ s ∈ steps (World.perform calendar) w moves, s.1.Proceeds s.2 := by
  refine forall_steps_iff (I := fun w => w.Counts ∧ w.Started)
    (P := fun w move => (w.perform calendar move).TableHolds) (C := World.Proceeds)
    (fun w move h => ?_) (fun w move h hproceeds => ?_) ⟨hcounts, hstarted⟩
  · rw [tableHolds_iff_counts]
    exact counts_perform_iff h.1 h.2 move
  · exact ⟨(counts_perform_iff h.1 h.2 move).mpr hproceeds, Started.perform h.2 move⟩

theorem counts_empty : ({} : World).Counts where
  paid := fun _ h => by cases h
  deleted := fun _ h => by cases h
  cancelled := fun _ h => by cases h

/-- **In every state of a sequence the table holds what it promises if and only if every step
meets its condition.** -/
theorem tableHolds_steps_iff (calendar : Calendar) (moves : List Move) :
    (∀ s ∈ steps (World.perform calendar) {} moves, (s.1.perform calendar s.2).TableHolds)
      ↔ ∀ s ∈ steps (World.perform calendar) {} moves, s.1.Proceeds s.2 :=
  tableHolds_steps_iff_of_counts counts_empty rfl

/-- A calendar whose months have thirty days. -/
def thirtyDays : Calendar where
  plusOneMonth := (· + 2592000)
  le_plusOneMonth := fun t => by omega

/-- The invoice of a month. -/
def monthlyInvoice (paymentIntent : String) : Invoice where
  amountPaid := 2000
  paymentIntent := paymentIntent
  subscription := some "sub_1"
  userId := "alice"
  billingSessionType := "MONTHLY_SUBSCRIPTION"

/-- Two months are paid before the subscription is deleted: one row stays `ACTIVE`. -/
theorem not_tableHolds_secondMonth :
    ¬ ∀ s ∈ steps (World.perform thirtyDays) {}
        [.invoicePaid (monthlyInvoice "pi_1"), .elapse 2592000,
          .invoicePaid (monthlyInvoice "pi_2"), .subscriptionDeleted "sub_1" 0],
      (s.1.perform thirtyDays s.2).TableHolds := by
  rw [tableHolds_steps_iff_of_counts counts_empty rfl]
  simp only [steps_cons, List.forall_mem_cons]
  rintro ⟨-, -, -, hone, -⟩
  have htwo : ¬ 2 ≤ 1 := by decide
  exact htwo hone

end OpenHands.Subscriptions
