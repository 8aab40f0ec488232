/-
# Whether every payment is added once

Reading a row or a budget and writing it are steps apart, and the update of a row does not
look at its status again.  Where a step that builds on what its request has read finds it
unchanged, and no commit is lost after the budget was written, the budget grows by the
amounts of the completed sessions: it is ahead of them by the sessions whose commit is still
to come.
-/
import OpenHands.BillingCallbacks

namespace OpenHands.Billing

open Run World

variable {S R : Type*} {setup : Setup S R} {initial : Option ℚ} {w : World S R} {r : R}

/-! ## The invariant -/

open Classical in
/-- The amounts of the sessions that are completed or wait for their commit. -/
noncomputable def World.due (setup : Setup S R) (w : World S R) : ℚ :=
  ∑ s ∈ setup.sessions,
    if (w.rows s).status = .completed ∨ w.Uncommitted setup s then setup.credits s else 0

/-- The session is completed or waits for its commit. -/
def World.Counted (setup : Setup S R) (w : World S R) (s : S) : Prop :=
  (w.rows s).status = .completed ∨ w.Uncommitted setup s

theorem due_eq_of_counted {w' : World S R} (h : ∀ s, w'.Counted setup s ↔ w.Counted setup s) :
    w'.due setup = w.due setup := by
  classical
  apply Finset.sum_congr rfl
  intro s _
  exact if_congr (h s) rfl rfl

/-- One more session is counted. -/
theorem due_eq_add {w' : World S R} {s : S} (hs : s ∈ setup.sessions)
    (hbefore : ¬ w.Counted setup s) (hafter : w'.Counted setup s)
    (hother : ∀ s', s' ≠ s → (w'.Counted setup s' ↔ w.Counted setup s')) :
    w'.due setup = w.due setup + setup.credits s := by
  classical
  unfold Counted at hbefore hafter
  unfold due
  rw [← Finset.add_sum_erase _ _ hs, ← Finset.add_sum_erase _ _ hs, if_pos hafter,
    if_neg hbefore, zero_add, add_comm]
  congr 1
  apply Finset.sum_congr rfl
  intro s' hs'
  exact if_congr (hother s' (Finset.ne_of_mem_erase hs')) rfl rfl

/-- The request is on its way to the budget. -/
def Pc.Active : Pc → Prop
  | .hasRow | .hasBudget _ | .hasSet => True
  | _ => False

structure Inv (setup : Setup S R) (initial : Option ℚ) (w : World S R) : Prop where
  budget : w.maxBudget.getD 0 = initial.getD 0 + w.due setup
  inProgress : ∀ s, w.Uncommitted setup s → (w.rows s).status = .inProgress
  unique : ∀ r r' s, setup.requests r = .success s → setup.requests r' = .success s →
    w.pcs r = .hasSet → w.pcs r' = .hasSet → r = r'
  known : ∀ r s, setup.requests r = .success s → (w.pcs r).Active → s ∈ setup.sessions

theorem inv_start : Inv setup initial (setup.start initial) where
  budget := by
    have hdue : (setup.start initial).due setup = 0 := by
      apply Finset.sum_eq_zero
      intro s _
      rw [if_neg]
      rintro (h | ⟨r, -, h⟩)
      · cases h
      · cases h
    rw [hdue, add_zero]
    rfl
  inProgress := fun _ _ => rfl
  unique := fun _ _ _ _ _ h => by cases h
  known := fun _ _ _ h => by cases h

/-- Without open commits the due amounts are those of the completed sessions. -/
theorem Inv.budgetMatches (h : Inv setup initial w) (hquiet : w.Quiet) :
    w.BudgetMatches setup initial := by
  unfold BudgetMatches
  rw [h.budget]
  congr 1
  apply Finset.sum_congr rfl
  intro s _
  have hnot : ¬ w.Uncommitted setup s := fun ⟨r, _, hr⟩ => hquiet r hr
  simp only [hnot, or_false]

/-! ## Steps -/

variable [DecidableEq R]

theorem pcs_goTo_self (w : World S R) (r : R) (pc : Pc) : (w.goTo r pc).pcs r = pc :=
  Function.update_self ..

theorem pcs_goTo_of_ne (w : World S R) {r r' : R} (h : r' ≠ r) (pc : Pc) :
    (w.goTo r pc).pcs r' = w.pcs r' :=
  Function.update_of_ne h ..

/-- A request that goes on has a session that is known. -/
theorem Inv.known_goTo (h : Inv setup initial w) {pc : Pc}
    (hknown : ∀ s, setup.requests r = .success s → pc.Active → s ∈ setup.sessions) (r' : R) (s : S)
    (hr' : setup.requests r' = .success s) (hactive : ((w.goTo r pc).pcs r').Active) :
    s ∈ setup.sessions := by
  by_cases hr : r' = r
  · rw [hr, pcs_goTo_self] at hactive
    exact hknown s (hr ▸ hr') hactive
  · rw [pcs_goTo_of_ne w hr] at hactive
    exact h.known r' s hr' hactive

/-- A request goes on, without a budget write or a commit. -/
theorem Inv.goTo (h : Inv setup initial w) {pc : Pc} (hbefore : w.pcs r ≠ .hasSet)
    (hafter : pc ≠ .hasSet)
    (hknown : ∀ s, setup.requests r = .success s → pc.Active → s ∈ setup.sessions) :
    Inv setup initial (w.goTo r pc) := by
  have hset : ∀ r', (w.goTo r pc).pcs r' = .hasSet ↔ w.pcs r' = .hasSet := by
    intro r'
    by_cases hr : r' = r
    · rw [hr, pcs_goTo_self]
      exact ⟨fun heq => absurd heq hafter, fun heq => absurd heq hbefore⟩
    · rw [pcs_goTo_of_ne w hr]
  have huncommitted : ∀ s, (w.goTo r pc).Uncommitted setup s ↔ w.Uncommitted setup s := by
    intro s
    unfold Uncommitted
    simp only [hset]
  constructor
  · have hdue : (w.goTo r pc).due setup = w.due setup :=
      due_eq_of_counted fun s => or_congr_right (huncommitted s)
    rw [hdue]
    exact h.budget
  · exact fun s hs => h.inProgress s ((huncommitted s).mp hs)
  · exact fun r₁ r₂ s h₁ h₂ hset₁ hset₂ =>
      h.unique r₁ r₂ s h₁ h₂ ((hset r₁).mp hset₁) ((hset r₂).mp hset₂)
  · exact h.known_goTo hknown

/-- A request is answered. -/
theorem Inv.answer (h : Inv setup initial w) (hbefore : w.pcs r ≠ .hasSet) (response : Response) :
    Inv setup initial (w.goTo r (.answered response)) :=
  h.goTo hbefore (fun heq => by cases heq) fun _ _ hactive => by cases hactive

variable [DecidableEq S]

theorem Inv.readRow (h : Inv setup initial w) (stripe : StripeStatus) :
    Inv setup initial (w.readRow setup r stripe) := by
  unfold World.readRow
  split
  next s hpc hrequest =>
    have hbefore : w.pcs r ≠ .hasSet := by rw [hpc]; exact fun heq => by cases heq
    split
    next hfound =>
      split
      · exact h.answer hbefore _
      · split
        · refine h.goTo hbefore (fun heq => by cases heq) fun s' hs' _ => ?_
          rw [hrequest] at hs'
          cases hs'
          exact hfound.1
        · exact h.answer hbefore _
        · exact h.answer hbefore _
    · exact h.answer hbefore _
  next s hpc hrequest =>
    have hbefore : w.pcs r ≠ .hasSet := by rw [hpc]; exact fun heq => by cases heq
    split
    · refine h.goTo hbefore (fun heq => by cases heq) fun s' hs' _ => ?_
      rw [hrequest] at hs'
      cases hs'
    · exact h.answer hbefore _
  next => exact h

omit [DecidableEq S] in
theorem Inv.readBudget (h : Inv setup initial w) (ok : Bool) :
    Inv setup initial (w.readBudget setup r ok) := by
  unfold World.readBudget
  split
  next s hpc hrequest =>
    have hbefore : w.pcs r ≠ .hasSet := by rw [hpc]; exact fun heq => by cases heq
    split
    · refine h.goTo hbefore (fun heq => by cases heq) fun s' hs' _ => ?_
      exact h.known r s' hs' (by rw [hpc]; trivial)
    · exact h.answer hbefore _
  next => exact h

omit [DecidableEq S] in
/-- A request for one session leaves the requests for the others where they are. -/
theorem pcs_goTo_of_session {s s' : S} (hrequest : setup.requests r = .success s)
    (hne : s' ≠ s) (pc : Pc) {r' : R} (hr' : setup.requests r' = .success s') :
    (w.goTo r pc).pcs r' = w.pcs r' := by
  apply pcs_goTo_of_ne
  rintro rfl
  rw [hrequest] at hr'
  cases hr'
  exact hne rfl

omit [DecidableEq S] in
theorem uncommitted_goTo_of_ne {s s' : S} (hrequest : setup.requests r = .success s)
    (hne : s' ≠ s) (pc : Pc) :
    (w.goTo r pc).Uncommitted setup s' ↔ w.Uncommitted setup s' := by
  refine exists_congr fun r' => and_congr_right fun hr' => ?_
  rw [pcs_goTo_of_session hrequest hne pc hr']

omit [DecidableEq S] in
/-- The first request that writes the budget for a session is the only one. -/
theorem Inv.unique_hasSet (h : Inv setup initial w) {s : S}
    (hrequest : setup.requests r = .success s) (hnone : ¬ w.Uncommitted setup s) {r₁ r₂ : R}
    {s' : S} (h₁ : setup.requests r₁ = .success s') (h₂ : setup.requests r₂ = .success s')
    (hset₁ : (w.goTo r .hasSet).pcs r₁ = .hasSet) (hset₂ : (w.goTo r .hasSet).pcs r₂ = .hasSet) :
    r₁ = r₂ := by
  by_cases hne : s' = s
  · subst hne
    have honly : ∀ r', setup.requests r' = .success s' →
        (w.goTo r .hasSet).pcs r' = .hasSet → r' = r := by
      intro r' hr' hset'
      by_contra hr
      rw [pcs_goTo_of_ne w hr] at hset'
      exact hnone ⟨r', hr', hset'⟩
    rw [honly r₁ h₁ hset₁, honly r₂ h₂ hset₂]
  · rw [pcs_goTo_of_session hrequest hne .hasSet h₁] at hset₁
    rw [pcs_goTo_of_session hrequest hne .hasSet h₂] at hset₂
    exact h.unique r₁ r₂ s' h₁ h₂ hset₁ hset₂

omit [DecidableEq S] in
/-- The budget grows by the amount of a session that was open. -/
theorem Inv.setBudget (h : Inv setup initial w) {ok : Bool}
    (hisolated : w.Isolated setup (.setBudget r ok)) :
    Inv setup initial (w.setBudget setup r ok) := by
  unfold World.setBudget
  split
  next maxBudget s hpc hrequest =>
    have hbefore : w.pcs r ≠ .hasSet := by rw [hpc]; exact fun heq => by cases heq
    split
    next hok =>
      subst hok
      obtain ⟨hsame, hopen, hnone⟩ := hisolated maxBudget s hpc hrequest
      have hs : s ∈ setup.sessions := h.known r s hrequest (by rw [hpc]; trivial)
      have hself : (w.goTo r .hasSet).Uncommitted setup s := ⟨r, hrequest, pcs_goTo_self ..⟩
      have hother : ∀ s', s' ≠ s →
          ((w.goTo r .hasSet).Uncommitted setup s' ↔ w.Uncommitted setup s') :=
        fun s' hne => uncommitted_goTo_of_ne hrequest hne .hasSet
      have hclosed : ¬ w.Counted setup s := by
        rintro (heq | huncommitted)
        · rw [hopen] at heq
          cases heq
        · exact hnone huncommitted
      constructor
      · show maxBudget + setup.credits s = initial.getD 0 + (w.goTo r .hasSet).due setup
        rw [due_eq_add hs hclosed (Or.inr hself) fun s' hne => or_congr_right (hother s' hne),
          hsame, h.budget, add_assoc]
      · intro s' hs'
        by_cases hne : s' = s
        · rw [hne]
          exact hopen
        · exact h.inProgress s' ((hother s' hne).mp hs')
      · exact fun r₁ r₂ s' h₁ h₂ => h.unique_hasSet hrequest hnone h₁ h₂
      · refine h.known_goTo fun s' hs' _ => ?_
        rw [hrequest] at hs'
        cases hs'
        exact hs
    · exact h.answer hbefore _
  next => exact h

/-- The session of an uncommitted budget write is completed. -/
theorem Inv.complete (h : Inv setup initial w) {s : S} {response : Response} {price : ℚ}
    (hrequest : setup.requests r = .success s) (hpc : w.pcs r = .hasSet) :
    Inv setup initial { w.goTo r (.answered response) with
      rows := Function.update w.rows s { w.rows s with status := .completed, price := price } } := by
  set w' : World S R := { w.goTo r (.answered response) with
    rows := Function.update w.rows s { w.rows s with status := .completed, price := price } }
  have hbefore : w.Uncommitted setup s := ⟨r, hrequest, hpc⟩
  have hset : ∀ r', w'.pcs r' = .hasSet → r' ≠ r ∧ w.pcs r' = .hasSet := by
    intro r' hr'
    change (w.goTo r (.answered response)).pcs r' = .hasSet at hr'
    have hne : r' ≠ r := by
      rintro rfl
      rw [pcs_goTo_self] at hr'
      cases hr'
    rw [pcs_goTo_of_ne w hne] at hr'
    exact ⟨hne, hr'⟩
  have hafter : ¬ w'.Uncommitted setup s := by
    rintro ⟨r', hr', hset'⟩
    exact (hset r' hset').1 (h.unique r' r s hr' hrequest (hset r' hset').2 hpc)
  have hother : ∀ s', s' ≠ s → (w'.Uncommitted setup s' ↔ w.Uncommitted setup s') :=
    fun s' hne => uncommitted_goTo_of_ne hrequest hne _
  have hrow : ∀ s', s' ≠ s → w'.rows s' = w.rows s' := fun s' hne => Function.update_of_ne hne ..
  have hstatus : (w'.rows s).status = .completed := by
    show (Function.update w.rows s _ s).status = .completed
    rw [Function.update_self]
  constructor
  · show w.maxBudget.getD 0 = _
    rw [h.budget]
    congr 1
    refine (due_eq_of_counted fun s' => ?_).symm
    unfold Counted
    by_cases hne : s' = s
    · rw [hne]
      exact iff_of_true (Or.inl hstatus) (Or.inr hbefore)
    · rw [hrow s' hne, hother s' hne]
  · intro s' hs'
    by_cases hne : s' = s
    · exact absurd (hne ▸ hs') hafter
    · rw [hrow s' hne]
      exact h.inProgress s' ((hother s' hne).mp hs')
  · exact fun r₁ r₂ s' h₁ h₂ hset₁ hset₂ =>
      h.unique r₁ r₂ s' h₁ h₂ (hset r₁ hset₁).2 (hset r₂ hset₂).2
  · exact h.known_goTo fun _ _ hactive => by cases hactive

omit [DecidableEq R] in
/-- An open session is cancelled. -/
theorem Inv.cancelSession (h : Inv setup initial w) {s : S} (hopen : w.Open setup s) :
    Inv setup initial
      { w with rows := Function.update w.rows s { w.rows s with status := .cancelled } } := by
  set w' : World S R :=
    { w with rows := Function.update w.rows s { w.rows s with status := .cancelled } }
  have hrow : ∀ s', s' ≠ s → w'.rows s' = w.rows s' := fun s' hne => Function.update_of_ne hne ..
  have hstatus : (w'.rows s).status = .cancelled := by
    show (Function.update w.rows s _ s).status = .cancelled
    rw [Function.update_self]
  have hsame : ∀ s', w'.Uncommitted setup s' ↔ w.Uncommitted setup s' := fun s' => Iff.rfl
  constructor
  · show w.maxBudget.getD 0 = _
    rw [h.budget]
    congr 1
    refine (due_eq_of_counted fun s' => ?_).symm
    unfold Counted
    rw [hsame s']
    by_cases hne : s' = s
    · rw [hne, hstatus, hopen.1]
      exact or_congr_left (iff_of_false (fun heq => by cases heq) fun heq => by cases heq)
    · rw [hrow s' hne]
  · intro s' hs'
    have hne : s' ≠ s := by
      rintro rfl
      exact hopen.2 hs'
    rw [hrow s' hne]
    exact h.inProgress s' hs'
  · exact h.unique
  · exact h.known

theorem Inv.commit (h : Inv setup initial w) {ok : Bool}
    (hisolated : w.Isolated setup (.commit r ok)) : Inv setup initial (w.commit setup r ok) := by
  unfold World.commit
  split
  next s hpc hrequest =>
    rw [if_pos ((hisolated s).1 hrequest hpc)]
    exact h.complete hrequest hpc
  next s hpc hrequest =>
    have hbefore : w.pcs r ≠ .hasSet := by rw [hpc]; exact fun heq => by cases heq
    split
    next hok =>
      exact (h.cancelSession ((hisolated s).2 hrequest hpc hok)).answer hbefore _
    · exact h.answer hbefore _
  next => exact h

theorem Inv.perform (h : Inv setup initial w) {move : Move R}
    (hisolated : w.Isolated setup move) : Inv setup initial (w.perform setup move) := by
  cases move with
  | readRow r stripe => exact h.readRow stripe
  | readBudget r ok => exact h.readBudget ok
  | setBudget r ok => exact h.setBudget hisolated
  | commit r ok => exact h.commit hisolated

/-! ## Runs -/

/-- **The budget grows by the amounts of the completed sessions, where every step finds what
its request has read unchanged.** -/
theorem budgetMatches_run (setup : Setup S R) (initial : Option ℚ) (moves : List (Move R))
    (hisolated : ∀ s ∈ steps (World.perform setup) (setup.start initial) moves,
      s.1.Isolated setup s.2)
    (hquiet : (run (World.perform setup) (setup.start initial) moves).Quiet) :
    (run (World.perform setup) (setup.start initial) moves).BudgetMatches setup initial :=
  (run_invariant (I := Inv setup initial) (C := fun w move => w.Isolated setup move)
    (fun _ _ h hc => h.perform hc) inv_start hisolated).budgetMatches hquiet

/-- A session of a dollar, and two requests of its success page. -/
def reloadedPage : Setup Unit Bool where
  sessions := {()}
  amountSubtotal := fun _ => some 100
  requests := fun _ => .success ()

/-- The page is loaded again when the payment has been booked. -/
def loadedAgain : List (Move Bool) :=
  [.readRow true .complete, .readBudget true true, .setBudget true true, .commit true true,
    .readRow false .complete]

theorem budgetMatches_loadedAgain :
    (run (World.perform reloadedPage) (reloadedPage.start (some 5)) loadedAgain).pcs false
        = .answered .badRequest ∧
      (run (World.perform reloadedPage) (reloadedPage.start (some 5)) loadedAgain).BudgetMatches
        reloadedPage (some 5) := by
  refine ⟨by decide, budgetMatches_run _ _ _ ?_ ?_⟩
  · simp [loadedAgain, reloadedPage, Setup.start, World.perform, World.readRow, World.readBudget,
      World.setBudget, World.commit, World.goTo, Isolated, Open, Uncommitted]
  · show ∀ r, _ ≠ _
    decide

/-- The page is loaded again while the first request is on its way. -/
def loadedTwice : List (Move Bool) :=
  [.readRow true .complete, .readRow false .complete, .readBudget true true,
    .setBudget true true, .commit true true, .readBudget false true, .setBudget false true,
    .commit false true]

theorem not_budgetMatches_loadedTwice :
    (run (World.perform reloadedPage) (reloadedPage.start (some 5)) loadedTwice).Quiet ∧
      ¬ (run (World.perform reloadedPage) (reloadedPage.start (some 5)) loadedTwice).BudgetMatches
        reloadedPage (some 5) := by
  refine ⟨by show ∀ r, _ ≠ _; decide, ?_⟩
  unfold BudgetMatches paid
  simp [loadedTwice, reloadedPage, Setup.start, World.perform, World.readRow, World.readBudget,
    World.setBudget, World.commit, World.goTo, Setup.credits]

end OpenHands.Billing
