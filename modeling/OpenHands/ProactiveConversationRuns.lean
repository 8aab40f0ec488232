/-
# Whether a conversation is started once for a commit

While a commit has a row, whoever writes it has locked it before reading it, so the runs that
are written are those that were read and one more.  The exception is the first event: a call
that found no row holds no lock, and when two of them overlap both insert a row.  As long as
first events do not overlap, a commit passes through two stages: it has no row and nothing is
recorded, or it has one row with all that is recorded, which was returned if it was sent.
-/
import OpenHands.ProactiveConversations

namespace OpenHands.ProactiveConversations

open Run

variable {C : Type*} [DecidableEq C] {w : World C} {c d : C} {k j : PullRequestCommit}

/-! ## Commits and their rows -/

/-- No two repositories have one `repo_id` in the table. -/
theorem getRepoId_inj {p q : ProviderType} {r s : String} (h : getRepoId p r = getRepoId q s) :
    p = q ∧ r = s := by
  have hlist := congrArg String.toList h
  unfold getRepoId at hlist
  simp only [String.toList_append, List.append_assoc] at hlist
  have hsame : p = q := by
    cases p <;> cases q <;> simp [ProviderType.value] at hlist ⊢
  subst hsame
  refine ⟨rfl, String.toList_inj.mp ?_⟩
  exact List.append_cancel_left (List.append_cancel_left hlist)

/-- A row belongs to one commit. -/
theorem eq_of_isOf {row : ProactiveConversation} (hk : row.isOf k = true)
    (hj : row.isOf j = true) : k = j := by
  obtain ⟨hrepo, hnumber, hcommit⟩ := of_decide_eq_true hk
  obtain ⟨hrepo', hnumber', hcommit'⟩ := of_decide_eq_true hj
  obtain ⟨hprovider, hid⟩ := getRepoId_inj (hrepo.symm.trans hrepo')
  cases k
  cases j
  simp_all

theorem isOf_eq_false_of_ne {row : ProactiveConversation} (hk : row.isOf k = true)
    (hne : j ≠ k) : row.isOf j = false :=
  Bool.eq_false_iff.mpr fun hj => hne (eq_of_isOf hj hk)

theorem isOf_newRow (k : PullRequestCommit) (group : WorkflowRunGroup) :
    (World.newRow k group).isOf k = true := decide_eq_true ⟨rfl, rfl, rfl⟩

/-- When a group is sent: no run is pending and one has failed. -/
theorem shouldSend_iff {group : WorkflowRunGroup} : group.shouldSend = true ↔
    (∀ id run, group.runs.get? id = some run → run.status ≠ .pending) ∧
      ∃ id run, group.runs.get? id = some run ∧ run.status = .failure := by
  simp only [PyDict.get?_eq_some_iff]
  unfold WorkflowRunGroup.shouldSend WorkflowRunGroup.isNonePending WorkflowRunGroup.statuses
  rw [Bool.and_eq_true, List.all_eq_true, List.contains_iff_mem, List.forall_mem_map,
    List.mem_map]
  constructor
  · rintro ⟨hall, entry, hentry, hstatus⟩
    exact ⟨fun id run hrun => of_decide_eq_true (hall (id, run) hrun),
      entry.1, entry.2, hentry, hstatus⟩
  · rintro ⟨hall, id, run, hrun, hstatus⟩
    exact ⟨fun entry hentry => decide_eq_true (hall entry.1 entry.2 hentry),
      (id, run), hrun, hstatus⟩

namespace World

variable (w)

/-- The rows of a commit. -/
def rowsOf (k : PullRequestCommit) : List ProactiveConversation := w.rows.filter (·.isOf k)

/-- What was returned for a commit. -/
def returnedFor (k : PullRequestCommit) : List (PullRequestCommit × WorkflowRunGroup) :=
  w.returned.filter (·.1 = k)

/-- A call has locked the rows of the commit, read these runs and will write. -/
def Writing (c : C) (k : PullRequestCommit) (runs : WorkflowRunGroup) : Prop :=
  ∃ workflow, w.calls c = .selected k workflow true runs

end World

/-- The update of a commit leaves the rows of the others. -/
theorem filter_updateRows_of_ne (hne : j ≠ k) (group : WorkflowRunGroup)
    (rows : List ProactiveConversation) :
    (World.updateRows k group rows).filter (·.isOf j) = rows.filter (·.isOf j) := by
  induction rows with
  | nil => rfl
  | cons row rows ih =>
    unfold World.updateRows at ih ⊢
    rw [List.map_cons, List.filter_cons, List.filter_cons, ih]
    by_cases hk : row.isOf k = true
    · -- the row is updated and stays a row of `k`
      have hj : row.isOf j = false := isOf_eq_false_of_ne hk hne
      have hj' : ProactiveConversation.isOf j
          { row with workflowRuns := group, conversationStarterSent := group.shouldSend }
            = false := hj
      rw [if_pos hk, hj, hj']
      rfl
    · rw [if_neg hk]

/-- The update of a commit changes its rows. -/
theorem filter_updateRows (group : WorkflowRunGroup) (rows : List ProactiveConversation) :
    (World.updateRows k group rows).filter (·.isOf k) = (rows.filter (·.isOf k)).map fun row =>
      { row with workflowRuns := group, conversationStarterSent := group.shouldSend } := by
  induction rows with
  | nil => rfl
  | cons row rows ih =>
    unfold World.updateRows at ih ⊢
    rw [List.map_cons, List.filter_cons, List.filter_cons, ih]
    by_cases hk : row.isOf k = true
    · have hk' : ProactiveConversation.isOf k
          { row with workflowRuns := group, conversationStarterSent := group.shouldSend }
            = true := hk
      rw [if_pos hk, if_pos hk', if_pos hk, List.map_cons]
    · rw [if_neg hk, if_neg hk, if_neg hk]

/-! ## The stages of a commit -/

/-- What a commit has gone through. -/
inductive Stage (w : World C) (k : PullRequestCommit) : Prop
  | unseen (rows : w.rowsOf k = []) (recorded : ∀ id, w.recorded k id = none)
      (returned : w.returnedFor k = []) (calls : ∀ c runs, ¬ w.Writing c k runs)
  | stored (row : ProactiveConversation) (rows : w.rowsOf k = [row])
      (sent : row.conversationStarterSent = row.workflowRuns.shouldSend)
      (recorded : ∀ id, w.recorded k id = row.workflowRuns.runs.get? id)
      (returned : w.returnedFor k
        = if row.workflowRuns.shouldSend then [(k, row.workflowRuns)] else [])
      (calls : ∀ c runs, w.Writing c k runs →
        w.locks k = some c ∧ runs = row.workflowRuns ∧ row.conversationStarterSent = false)

omit [DecidableEq C] in
/-- In either stage a commit has been handled once. -/
theorem Stage.handledOnce (h : Stage w k) : w.HandledOnce k := by
  have hreturned : ∀ entry ∈ w.returned, entry.1 = k → entry ∈ w.returnedFor k :=
    fun entry hentry hk => List.mem_filter.mpr ⟨hentry, decide_eq_true hk⟩
  cases h with
  | unseen rows recorded returned calls =>
    rw [returned] at hreturned
    refine ⟨?_, fun entry hentry hk => ?_, fun id run hrun => ?_⟩
    · show (w.returnedFor k).length ≤ 1
      rw [returned]
      exact Nat.zero_le _
    · cases hreturned entry hentry hk
    · rw [recorded] at hrun
      cases hrun
  | stored row rows sent recorded returned calls =>
    rw [returned] at hreturned
    refine ⟨?_, fun entry hentry hk => ?_, fun id run hrun => ?_⟩
    · show (w.returnedFor k).length ≤ 1
      rw [returned]
      split
      · exact Nat.le_refl 1
      · exact Nat.zero_le 1
    · -- something was returned, so the row is one that is sent
      have hmem := hreturned entry hentry hk
      split at hmem
      next hsend =>
        simp only [recorded]
        exact shouldSend_iff.mp hsend
      next => cases hmem
    · have hrow : row ∈ w.rowsOf k := by
        rw [rows]
        exact List.mem_singleton_self row
      obtain ⟨hmem, hof⟩ := List.mem_filter.mp hrow
      exact ⟨row, hmem, hof, by rw [← recorded, hrun]⟩

omit [DecidableEq C] in
/-- One call writes at a time. -/
theorem Stage.eq_of_writing (h : Stage w k) {runs runs' : WorkflowRunGroup}
    (hc : w.Writing c k runs) (hd : w.Writing d k runs') : c = d := by
  cases h with
  | unseen rows recorded returned calls => exact absurd hc (calls c runs)
  | stored row rows sent recorded returned calls =>
    exact Option.some.inj ((calls c runs hc).1.symm.trans (calls d runs' hd).1)

omit [DecidableEq C] in
/-- A step that leaves the rows and the past of a commit, and its lock to whoever writes. -/
theorem Stage.of_same {w' : World C} (h : Stage w k) (hrows : w'.rowsOf k = w.rowsOf k)
    (hrecorded : w'.recorded k = w.recorded k) (hreturned : w'.returnedFor k = w.returnedFor k)
    (hcalls : ∀ d runs, w'.Writing d k runs → w.Writing d k runs ∧ w'.locks k = w.locks k) :
    Stage w' k := by
  cases h with
  | unseen rows recorded returned calls =>
    refine Stage.unseen (hrows.trans rows) (fun id => ?_) (hreturned.trans returned) ?_
    · rw [hrecorded]
      exact recorded id
    · exact fun d runs hd => calls d runs (hcalls d runs hd).1
  | stored row rows sent recorded returned calls =>
    refine Stage.stored row (hrows.trans rows) sent (fun id => ?_) (hreturned.trans returned) ?_
    · rw [hrecorded]
      exact recorded id
    · intro d runs hd
      obtain ⟨hold, hlocks⟩ := hcalls d runs hd
      rw [hlocks]
      exact calls d runs hold

/-- Whoever writes when a call gets to a state in which it does not has been writing before. -/
theorem writing_of_update {w' : World C} {state : CallState}
    (hcalls : w'.calls = Function.update w.calls c state)
    (hstate : ∀ workflow runs, state ≠ .selected k workflow true runs) {runs : WorkflowRunGroup}
    (h : w'.Writing d k runs) : d ≠ c ∧ w.Writing d k runs := by
  obtain ⟨workflow, hd⟩ := h
  rw [hcalls] at hd
  by_cases hdc : d = c
  · subst hdc
    rw [Function.update_self] at hd
    exact absurd hd (hstate workflow runs)
  · rw [Function.update_of_ne hdc] at hd
    exact ⟨hdc, workflow, hd⟩

/-! ## The query -/

/-- A query does nothing unless the call is to be made; it finds no row; it waits; it finds that
the conversation has been started; or it locks the row that it goes on with. -/
theorem select_cases (w : World C) (c : C) (k : PullRequestCommit) (workflow : WorkflowRun)
    (fetched : WorkflowRunGroup) (wish : ℕ) :
    w.select c k workflow fetched wish = w ∨
      w.select c k workflow fetched wish
        = { w with calls := Function.update w.calls c (.selected k workflow false fetched) } ∨
      w.select c k workflow fetched wish
        = { w with calls := Function.update w.calls c (.returned none) } ∨
      ∃ row ∈ w.rowsOf k, w.locks k = none ∧ row.conversationStarterSent = false ∧
        w.select c k workflow fetched wish =
          { w with
            locks := Function.update w.locks k (some c)
            calls := Function.update w.calls c
              (.selected k workflow true row.workflowRuns) } := by
  unfold World.select
  split
  next hidle =>
    cases hpick : (pickRow (·.isOf k) wish w.rows).bind (w.rows[·]?) with
    | none => exact Or.inr (Or.inl rfl)
    | some row =>
      obtain ⟨i, hi, hget⟩ := Option.bind_eq_some_iff.mp hpick
      obtain ⟨row', hrow', hof⟩ := exists_of_pickRow hi
      rw [hget] at hrow'
      cases hrow'
      cases hlock : w.locks k with
      | some holder =>
        left
        rfl
      | none =>
        right
        right
        cases hsent : row.conversationStarterSent with
        | true =>
          left
          simp [hsent]
        | false =>
          right
          refine ⟨row, List.mem_filter.mpr ⟨List.mem_of_getElem? hget, hof⟩, rfl, hsent, ?_⟩
          simp [hsent]
  next => exact Or.inl rfl

/-- A query keeps the stage of every commit. -/
theorem Stage.select (h : ∀ j, Stage w j) (workflow : WorkflowRun) (fetched : WorkflowRunGroup)
    (wish : ℕ) (j : PullRequestCommit) : Stage (w.select c k workflow fetched wish) j := by
  rcases select_cases w c k workflow fetched wish with heq | heq | heq | ⟨row, hrow, hlock, hsent, heq⟩
  · rw [heq]
    exact h j
  · rw [heq]
    refine (h j).of_same rfl rfl rfl fun d runs hd => ?_
    exact ⟨(writing_of_update rfl (fun _ _ hsel => by cases hsel) hd).2, rfl⟩
  · rw [heq]
    refine (h j).of_same rfl rfl rfl fun d runs hd => ?_
    exact ⟨(writing_of_update rfl (fun _ _ hsel => by cases hsel) hd).2, rfl⟩
  · rw [heq]
    by_cases hjk : j = k
    · subst hjk
      -- the row is the one of the commit, and nobody else has locked it
      cases h j with
      | unseen rows recorded returned calls =>
        rw [rows] at hrow
        cases hrow
      | stored row' rows sent recorded returned calls =>
        rw [rows] at hrow
        cases List.mem_singleton.mp hrow
        refine Stage.stored row rows sent recorded returned ?_
        rintro d runs ⟨workflow', hd⟩
        by_cases hdc : d = c
        · subst hdc
          change Function.update w.calls d _ d = _ at hd
          rw [Function.update_self] at hd
          cases hd
          exact ⟨Function.update_self .., rfl, hsent⟩
        · change Function.update w.calls c _ d = _ at hd
          rw [Function.update_of_ne hdc] at hd
          have hlocked := (calls d runs ⟨workflow', hd⟩).1
          rw [hlock] at hlocked
          cases hlocked
    · refine (h j).of_same rfl rfl rfl fun d runs hd => ?_
      refine ⟨(writing_of_update rfl (fun _ _ hsel => ?_) hd).2, Function.update_of_ne hjk ..⟩
      cases hsel
      exact hjk rfl

/-! ## The write -/

/-- What is returned for a commit after a call of that commit has written. -/
theorem returnedFor_store (w : World C) (c : C) (workflow : WorkflowRun) (found : Bool)
    (group : WorkflowRunGroup) : (w.store c k workflow found group).returnedFor k
      = w.returnedFor k ++ if group.shouldSend then [(k, group)] else [] := by
  unfold World.returnedFor World.store
  cases group.shouldSend with
  | true =>
    show (w.returned ++ [(k, group)]).filter _ = _ ++ [(k, group)]
    rw [List.filter_append, List.filter_singleton, decide_eq_true rfl]
    rfl
  | false => exact (List.append_nil _).symm

/-- A call that writes leaves the other commits. -/
theorem Stage.store_of_ne (h : Stage w j) (hne : j ≠ k) (workflow : WorkflowRun) (found : Bool)
    (group : WorkflowRunGroup) : Stage (w.store c k workflow found group) j := by
  have hreturned : ∀ entries : List (PullRequestCommit × WorkflowRunGroup),
      (entries ++ [(k, group)]).filter (·.1 = j) = entries.filter (·.1 = j) := by
    intro entries
    rw [List.filter_append, List.filter_singleton, decide_eq_false (Ne.symm hne)]
    exact List.append_nil _
  refine h.of_same ?_ (Function.update_of_ne hne ..) ?_ fun d runs hd => ?_
  · unfold World.rowsOf World.store
    cases found with
    | true => exact filter_updateRows_of_ne hne group w.rows
    | false =>
      have hrow : (World.newRow k group).isOf j = false :=
        isOf_eq_false_of_ne (isOf_newRow k group) hne
      show (w.rows ++ [World.newRow k group]).filter _ = _
      rw [List.filter_append, List.filter_singleton, hrow]
      exact List.append_nil _
  · unfold World.returnedFor World.store
    cases group.shouldSend with
    | true => exact hreturned w.returned
    | false => rfl
  · refine ⟨(writing_of_update rfl (fun _ _ hsel => by cases hsel) hd).2, ?_⟩
    unfold World.store
    cases found with
    | true => exact Function.update_of_ne hne ..
    | false => rfl

/-- The call that has locked the row writes what it has read and the run of its event. -/
theorem Stage.store_found (h : Stage w k) {workflow : WorkflowRun} {runs : WorkflowRunGroup}
    (hcall : w.calls c = .selected k workflow true runs) :
    Stage (w.store c k workflow true (runs.withRun workflow)) k := by
  have hwriting : w.Writing c k runs := ⟨workflow, hcall⟩
  have hunique : ∀ d runs', w.Writing d k runs' → c = d := fun d runs' => h.eq_of_writing hwriting
  cases h with
  | unseen rows recorded returned calls => exact absurd hwriting (calls c runs)
  | stored row rows sent recorded returned calls =>
    obtain ⟨-, rfl, hunsent⟩ := calls c runs hwriting
    rw [sent] at hunsent
    refine Stage.stored
      { row with
        workflowRuns := row.workflowRuns.withRun workflow
        conversationStarterSent := (row.workflowRuns.withRun workflow).shouldSend }
      ?_ rfl (fun id => ?_) ?_ fun d runs' hd => ?_
    · show (World.updateRows k _ w.rows).filter _ = _
      rw [filter_updateRows]
      exact congrArg (List.map _) rows
    · show Function.update w.recorded k (Function.update (w.recorded k) workflow.id _) k id
        = (row.workflowRuns.runs.set workflow.id workflow).get? id
      rw [Function.update_self, PyDict.get?_set]
      by_cases hid : id = workflow.id
      · rw [hid, Function.update_self, if_pos rfl]
      · rw [Function.update_of_ne hid, recorded]
        simp [hid]
    · rw [returnedFor_store, returned, hunsent]
      rfl
    · obtain ⟨hne, hold⟩ := writing_of_update (w := w) rfl (fun _ _ hsel => by cases hsel) hd
      exact absurd (hunique d runs' hold).symm hne

/-- A call that has found no row makes the first one of the commit. -/
theorem Stage.store_first (h : Stage w k) {workflow : WorkflowRun} {fetched : WorkflowRunGroup}
    (halone : ∀ row ∈ w.rows, row.isOf k = false) :
    Stage (w.store c k workflow false (fetched.withRun workflow)) k := by
  have hnone : w.rowsOf k = [] := List.filter_eq_nil_iff.mpr fun row hrow => by
    rw [halone row hrow]
    exact Bool.false_ne_true
  cases h with
  | stored row rows sent recorded returned calls =>
    rw [hnone] at rows
    cases rows
  | unseen rows recorded returned calls =>
    refine Stage.stored (World.newRow k (fetched.withRun workflow)) ?_ rfl (fun id => ?_) ?_
      fun d runs' hd => ?_
    · show (w.rows ++ [World.newRow k _]).filter _ = _
      rw [List.filter_append, List.filter_singleton, isOf_newRow]
      show w.rowsOf k ++ _ = _
      rw [hnone]
      rfl
    · show Function.update w.recorded k _ k id = _
      rw [Function.update_self]
      show ((fetched.withRun workflow).runs.get? id).or (w.recorded k id) = _
      rw [recorded, Option.or_none]
      rfl
    · rw [returnedFor_store, returned]
      rfl
    · obtain ⟨-, hold⟩ := writing_of_update (w := w) rfl (fun _ _ hsel => by cases hsel) hd
      exact absurd hold (calls d runs')

/-- A step keeps the stage of every commit if first events do not overlap. -/
theorem Stage.perform (h : ∀ j, Stage w j) {move : Move C} (halone : w.FirstAlone move)
    (j : PullRequestCommit) : Stage (w.perform move) j := by
  cases move with
  | select c k workflow fetched wish => exact Stage.select h workflow fetched wish j
  | commit c =>
    cases hcall : w.calls c with
    | selected k workflow found runs =>
      simp only [World.perform, hcall]
      by_cases hjk : j = k
      · subst hjk
        cases found with
        | true => exact (h j).store_found hcall
        | false => exact (h j).store_first (halone j workflow runs hcall)
      · exact (h j).store_of_ne hjk workflow found _
    | idle => simpa only [World.perform, hcall] using h j
    | returned group => simpa only [World.perform, hcall] using h j
    | raised => simpa only [World.perform, hcall] using h j
  | abort c =>
    cases hcall : w.calls c with
    | selected k workflow found runs =>
      simp only [World.perform, hcall]
      refine (h j).of_same rfl rfl rfl fun d runs' hd => ?_
      obtain ⟨hne, hold⟩ := writing_of_update (w := w) rfl (fun _ _ hsel => by cases hsel) hd
      refine ⟨hold, ?_⟩
      cases found with
      | false => rfl
      | true =>
        by_cases hjk : j = k
        · -- nobody else was writing
          subst hjk
          exact absurd ((h j).eq_of_writing hold ⟨workflow, hcall⟩) hne
        · exact Function.update_of_ne hjk ..
    | idle => simpa only [World.perform, hcall] using h j
    | returned group => simpa only [World.perform, hcall] using h j
    | raised => simpa only [World.perform, hcall] using h j

omit [DecidableEq C] in
theorem stage_start (k : PullRequestCommit) : Stage ({} : World C) k :=
  Stage.unseen rfl (fun _ => rfl) rfl fun _ _ h => by
    obtain ⟨workflow, hcall⟩ := h
    cases hcall

/-- **A conversation is started at most once for a commit, with no run pending and one that has
failed, and no recorded run is lost**, in every run in which the first events of a commit do not
overlap. -/
theorem handledOnce_run (moves : List (Move C))
    (halone : ∀ p ∈ steps World.perform ({} : World C) moves, p.1.FirstAlone p.2)
    (k : PullRequestCommit) : (run World.perform ({} : World C) moves).HandledOnce k :=
  Stage.handledOnce (run_invariant (I := fun w : World C => ∀ j, Stage w j)
    (C := fun w move => w.FirstAlone move) (fun _ _ h ha => Stage.perform h ha)
    stage_start halone k)

/-- A pull request with two workflows, one of which has failed. -/
def failedCommit : PullRequestCommit := ⟨.github, "1", 7, "c0ffee"⟩

def lintRun : WorkflowRun := ⟨"9", "lint", .completed⟩

def testsRun : WorkflowRun := ⟨"10", "tests", .failure⟩

/-- What GitHub answers once both have finished. -/
def bothRuns : WorkflowRunGroup := WorkflowRunGroup.withRun ⟨PyDict.empty.set "9" lintRun⟩ testsRun

/-- The second event comes when the first one has been recorded. -/
theorem handledOnce_run_second : (run World.perform ({} : World ℕ)
    [.select 0 failedCommit lintRun ⟨PyDict.empty⟩ 0, .commit 0,
      .select 1 failedCommit testsRun ⟨PyDict.empty⟩ 0, .commit 1]).HandledOnce failedCommit := by
  refine handledOnce_run _ (fun p hp => ?_) failedCommit
  simp only [steps_cons, steps_nil, List.mem_cons, List.not_mem_nil, or_false] at hp
  rcases hp with rfl | rfl | rfl | rfl
  · trivial
  · intro k workflow runs _ row hrow
    cases hrow
  · trivial
  · intro k workflow runs hcall
    cases hcall

/-- Two first events that overlap: the group is returned twice. -/
theorem not_handledOnce_overlapping : ¬ ∀ (moves : List (Move ℕ)) (k : PullRequestCommit),
    (run World.perform ({} : World ℕ) moves).HandledOnce k := by
  intro h
  have honce := (h [.select 0 failedCommit lintRun bothRuns 0,
    .select 1 failedCommit testsRun bothRuns 0, .commit 0, .commit 1] failedCommit).once
  exact absurd honce (by decide)

end OpenHands.ProactiveConversations
