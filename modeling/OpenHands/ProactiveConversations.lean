/-
# Conversations that start from failing workflows

Every event about a workflow run of a commit is handled in one transaction.  It locks the rows
of the commit and looks at one of them; without a row it fetches the runs from the provider.
The run of the event is put into the group, the group into the rows or into a new row, and once
no run is pending and one has failed the group is returned and the rows are marked as sent.
A lock is held on rows that exist: a transaction that finds none waits for nobody.
-/
import Mathlib.Data.Int.Order.Basic
import OpenHands.Lib.PickedRow
import OpenHands.Lib.PyDict
import OpenHands.Lib.Run
import OpenHands.ProviderTypes

namespace OpenHands.ProactiveConversations

inductive WorkflowRunStatus where
  | failure | completed | pending
  deriving DecidableEq, Repr

structure WorkflowRun where
  id : String
  name : String
  status : WorkflowRunStatus
  deriving DecidableEq, Repr

structure WorkflowRunGroup where
  runs : PyDict String WorkflowRun

namespace WorkflowRunGroup

variable (group : WorkflowRunGroup)

/-- `workflow_run_group.runs[workflow.id] = workflow`. -/
def withRun (workflow : WorkflowRun) : WorkflowRunGroup := ⟨group.runs.set workflow.id workflow⟩

def statuses : List WorkflowRunStatus := group.runs.entries.map fun entry => entry.2.status

def isNonePending : Bool := group.statuses.all (· ≠ .pending)

def shouldSend : Bool := group.isNonePending && group.statuses.contains .failure

end WorkflowRunGroup

/-- The commit of a pull request that an event is about. -/
structure PullRequestCommit where
  provider : ProviderType
  repoId : String
  prNumber : ℤ
  commit : String
  deriving DecidableEq, Repr

/-- `get_repo_id`. -/
def getRepoId (provider : ProviderType) (repoId : String) : String :=
  provider.value ++ "##" ++ repoId

/-- A row of `proactive_conversation_table`. -/
structure ProactiveConversation where
  repoId : String
  prNumber : ℤ
  commit : String
  workflowRuns : WorkflowRunGroup
  conversationStarterSent : Bool

/-- The rows that the query and the update are about. -/
def ProactiveConversation.isOf (k : PullRequestCommit) (row : ProactiveConversation) : Bool :=
  row.repoId = getRepoId k.provider k.repoId ∧ row.prNumber = k.prNumber ∧ row.commit = k.commit

/-- Where a call of `store_workflow_information` stands; `found` says whether its query had a
row, whose runs it then goes on with. -/
inductive CallState where
  | idle
  | selected (k : PullRequestCommit) (workflow : WorkflowRun) (found : Bool)
      (workflowRuns : WorkflowRunGroup)
  | returned (group : Option WorkflowRunGroup)
  | raised

/-- The rows, who has locked those of a commit, and the calls; and of the past, which groups
were returned and which runs were recorded last. -/
structure World (C : Type*) where
  rows : List ProactiveConversation := []
  locks : PullRequestCommit → Option C := fun _ => none
  calls : C → CallState := fun _ => .idle
  returned : List (PullRequestCommit × WorkflowRunGroup) := []
  recorded : PullRequestCommit → String → Option WorkflowRun := fun _ _ => none

/-- A call is made and gets the answer to its query, with a wish for the row that comes first
and the runs that the provider would answer with; it writes and commits; or it fails. -/
inductive Move (C : Type*) where
  | select (c : C) (k : PullRequestCommit) (workflow : WorkflowRun)
      (getAllWorkflows : WorkflowRunGroup) (wish : ℕ)
  | commit (c : C)
  | abort (c : C)

namespace World

variable {C : Type*} [DecidableEq C] (w : World C)

/-- `SELECT … FOR UPDATE`: it waits while another call has locked the rows that it finds. -/
def select (c : C) (k : PullRequestCommit) (workflow : WorkflowRun)
    (getAllWorkflows : WorkflowRunGroup) (wish : ℕ) : World C :=
  match w.calls c with
  | .idle =>
    match (pickRow (·.isOf k) wish w.rows).bind (w.rows[·]?) with
    | none =>
      -- there is no row to lock
      { w with calls := Function.update w.calls c (.selected k workflow false getAllWorkflows) }
    | some row =>
      if (w.locks k).isSome then w
      else if row.conversationStarterSent then
        { w with calls := Function.update w.calls c (.returned none) }
      else
        { w with
          locks := Function.update w.locks k (some c)
          calls := Function.update w.calls c (.selected k workflow true row.workflowRuns) }
  | _ => w

/-- `UPDATE … SET workflow_runs, conversation_starter_sent`. -/
def updateRows (k : PullRequestCommit) (group : WorkflowRunGroup)
    (rows : List ProactiveConversation) : List ProactiveConversation :=
  rows.map fun row =>
    if row.isOf k then
      { row with workflowRuns := group, conversationStarterSent := group.shouldSend }
    else row

/-- `INSERT`. -/
def newRow (k : PullRequestCommit) (group : WorkflowRunGroup) : ProactiveConversation where
  repoId := getRepoId k.provider k.repoId
  prNumber := k.prNumber
  commit := k.commit
  workflowRuns := group
  conversationStarterSent := group.shouldSend

/-- The group is written and the transaction ends. -/
def store (c : C) (k : PullRequestCommit) (workflow : WorkflowRun) (found : Bool)
    (group : WorkflowRunGroup) : World C where
  rows := if found then updateRows k group w.rows else w.rows ++ [newRow k group]
  locks := if found then Function.update w.locks k none else w.locks
  calls := Function.update w.calls c (.returned (if group.shouldSend then some group else none))
  returned := if group.shouldSend then w.returned ++ [(k, group)] else w.returned
  -- a new row records what the provider has answered as well
  recorded := Function.update w.recorded k
    (if found then Function.update (w.recorded k) workflow.id (some workflow)
      else fun id => (group.runs.get? id).or (w.recorded k id))

def perform : Move C → World C
  | .select c k workflow getAllWorkflows wish => w.select c k workflow getAllWorkflows wish
  | .commit c =>
    match w.calls c with
    | .selected k workflow found workflowRuns =>
      w.store c k workflow found (workflowRuns.withRun workflow)
    | _ => w
  | .abort c =>
    match w.calls c with
    | .selected k _ found _ =>
      { w with
        locks := if found then Function.update w.locks k none else w.locks
        calls := Function.update w.calls c .raised }
    | _ => w

omit [DecidableEq C] in
/-- A group is returned at most once for a commit, and only when every run recorded for it has
finished and one has failed; and the runs recorded for it are in its rows. -/
structure HandledOnce (k : PullRequestCommit) : Prop where
  once : (w.returned.filter (·.1 = k)).length ≤ 1
  finished : ∀ entry ∈ w.returned, entry.1 = k →
    (∀ id run, w.recorded k id = some run → run.status ≠ .pending) ∧
      ∃ id run, w.recorded k id = some run ∧ run.status = .failure
  kept : ∀ id run, w.recorded k id = some run →
    ∃ row ∈ w.rows, row.isOf k = true ∧ row.workflowRuns.runs.get? id = some run

omit [DecidableEq C] in
/-- A call that has found no row commits only while there is none: no other first event of the
commit has been recorded since its query. -/
def FirstAlone : Move C → Prop
  | .commit c => ∀ k workflow workflowRuns, w.calls c = .selected k workflow false workflowRuns →
      ∀ row ∈ w.rows, row.isOf k = false
  | _ => True

end World

end OpenHands.ProactiveConversations
