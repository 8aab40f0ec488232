/-
# Installing webhooks on GitLab

`install_webhooks` (enterprise/sync/install_gitlab_webhooks.py) takes the rows of a table whose
webhook does not exist and looks at each of them: is the resource still there, is the user still
an admin of it, is there a webhook on it.  If it has none, one is installed, and its secret is
stored behind that.

The requests to GitLab are answered by the environment, and every transaction of the database may
fail.  GitLab keeps the webhooks; it may list fewer of them than there are.
-/
import Mathlib.Data.List.Pairwise
import Mathlib.Logic.Function.Basic
import OpenHands.Event

namespace OpenHands.GitlabWebhooks

/-! ## The table -/

/-- A `GitLabResourceType` and an id. -/
inductive Resource
  | group (id : String)
  | project (id : String)
  deriving DecidableEq, Repr

structure GitlabWebhook where
  groupId : Option String
  projectId : Option String
  userId : String
  webhookExists : Bool
  webhookUrl : Option String := none
  webhookSecret : Option String := none
  webhookUuid : Option String := none
  scopes : Option (List String) := none
  lastSynced : Option ℕ
  deriving DecidableEq, Repr

/-- An id that is not null and not empty. -/
def truthy (id : Option String) : Option String := id.filter (· ≠ "")

/-- `determine_resource_type`. -/
def determineResourceType (webhook : GitlabWebhook) : Except PyError Resource :=
  match truthy webhook.groupId, truthy webhook.projectId with
  | none, none => .error (.valueError "Either project_id or group_id must be provided")
  | some _, some _ =>
    .error (.valueError "Only one of project_id or group_id should be provided")
  | some groupId, none => .ok (.group groupId)
  | none, some projectId => .ok (.project projectId)

/-- `GitlabWebhook.project_id == resource_id` and its counterpart for groups. -/
def Resource.isRow : Resource → GitlabWebhook → Bool
  | .group id, webhook => webhook.groupId = some id
  | .project id, webhook => webhook.projectId = some id

/-- The values that differ in different rows, as two unique constraints demand. -/
structure GitlabWebhook.Apart (webhook other : GitlabWebhook) : Prop where
  group : ∀ id, webhook.groupId = some id → other.groupId ≠ some id
  project : ∀ id, webhook.projectId = some id → other.projectId ≠ some id

theorem GitlabWebhook.Apart.symm {webhook other : GitlabWebhook} (h : webhook.Apart other) :
    other.Apart webhook :=
  ⟨fun id hother hid => h.group id hid hother, fun id hother hid => h.project id hid hother⟩

theorem GitlabWebhook.Apart.not_isRow {webhook other : GitlabWebhook} (h : webhook.Apart other)
    {resource : Resource} (hrow : resource.isRow webhook = true) :
    resource.isRow other = false := by
  cases resource with
  | group id => exact decide_eq_false (h.group id (of_decide_eq_true hrow))
  | project id => exact decide_eq_false (h.project id (of_decide_eq_true hrow))

theorem truthy_eq_some {id : Option String} {text : String} (h : truthy id = some text) :
    id = some text :=
  (Option.filter_eq_some_iff.mp h).1

theorem truthy_some_of_eq {id : Option String} {text : String} (h : truthy id = some text) :
    truthy (some text) = some text := by
  rw [← truthy_eq_some h]
  rw [h]
  exact (truthy_eq_some h).symm

theorem determineResourceType_eq_group_iff {webhook : GitlabWebhook} {id : String} :
    determineResourceType webhook = .ok (.group id) ↔
      truthy webhook.groupId = some id ∧ truthy webhook.projectId = none := by
  unfold determineResourceType
  cases truthy webhook.groupId <;> cases truthy webhook.projectId <;> simp

theorem determineResourceType_eq_project_iff {webhook : GitlabWebhook} {id : String} :
    determineResourceType webhook = .ok (.project id) ↔
      truthy webhook.groupId = none ∧ truthy webhook.projectId = some id := by
  unfold determineResourceType
  cases truthy webhook.groupId <;> cases truthy webhook.projectId <;> simp

/-- The resource of a row is one of its two ids. -/
theorem isRow_of_determineResourceType {webhook : GitlabWebhook} {resource : Resource}
    (h : determineResourceType webhook = .ok resource) : resource.isRow webhook = true := by
  cases resource with
  | group id => exact decide_eq_true (truthy_eq_some (determineResourceType_eq_group_iff.mp h).1)
  | project id =>
    exact decide_eq_true (truthy_eq_some (determineResourceType_eq_project_iff.mp h).2)

/-- The rows of a resource are of no other resource. -/
theorem resource_eq_of_isRow {webhook other : GitlabWebhook} {resource r : Resource}
    (hresource : determineResourceType webhook = .ok resource)
    (hrow : resource.isRow other = true) (hother : determineResourceType other = .ok r) :
    r = resource := by
  cases resource with
  | group id =>
    have hid := truthy_some_of_eq (determineResourceType_eq_group_iff.mp hresource).1
    rw [← of_decide_eq_true hrow] at hid
    cases r with
    | group id' =>
      rw [(determineResourceType_eq_group_iff.mp hother).1] at hid
      exact congrArg Resource.group (Option.some.inj (hid.trans (of_decide_eq_true hrow)))
    | project id' =>
      rw [(determineResourceType_eq_project_iff.mp hother).1] at hid
      cases hid.trans (of_decide_eq_true hrow)
  | project id =>
    have hid := truthy_some_of_eq (determineResourceType_eq_project_iff.mp hresource).2
    rw [← of_decide_eq_true hrow] at hid
    cases r with
    | group id' =>
      rw [(determineResourceType_eq_group_iff.mp hother).2] at hid
      cases hid.trans (of_decide_eq_true hrow)
    | project id' =>
      rw [(determineResourceType_eq_project_iff.mp hother).2] at hid
      exact congrArg Resource.project (Option.some.inj (hid.trans (of_decide_eq_true hrow)))

/-- The table `gitlab_webhook`. -/
structure WebhookTable where
  rows : List GitlabWebhook
  unique : rows.Pairwise GitlabWebhook.Apart

/-- `update_fields`. -/
structure UpdateFields where
  webhookSecret : Option String := none
  webhookExists : Option Bool := none
  webhookUrl : Option String := none
  scopes : Option (List String) := none
  webhookUuid : Option String := none

/-- `.values(**update_fields)`; every update sets `last_synced` (`onupdate`). -/
def GitlabWebhook.set (webhook : GitlabWebhook) (fields : UpdateFields) (now : ℕ) :
    GitlabWebhook :=
  { webhook with
    webhookSecret := fields.webhookSecret <|> webhook.webhookSecret
    webhookExists := fields.webhookExists.getD webhook.webhookExists
    webhookUrl := fields.webhookUrl <|> webhook.webhookUrl
    scopes := fields.scopes <|> webhook.scopes
    webhookUuid := fields.webhookUuid <|> webhook.webhookUuid
    lastSynced := some now }

@[simp] theorem isRow_set (resource : Resource) (webhook : GitlabWebhook) (fields : UpdateFields)
    (now : ℕ) : resource.isRow (webhook.set fields now) = resource.isRow webhook := by
  cases resource <;> rfl

@[simp] theorem determineResourceType_set (webhook : GitlabWebhook) (fields : UpdateFields)
    (now : ℕ) : determineResourceType (webhook.set fields now) = determineResourceType webhook :=
  rfl

namespace WebhookTable

/-- A resource has one row at most. -/
theorem eq_of_isRow (table : WebhookTable) {webhook other : GitlabWebhook}
    (hwebhook : webhook ∈ table.rows) (hother : other ∈ table.rows) {resource : Resource}
    (hrow : resource.isRow webhook = true) (hotherRow : resource.isRow other = true) :
    other = webhook := by
  by_contra hne
  have hsymm : Std.Symm GitlabWebhook.Apart := ⟨fun _ _ h => h.symm⟩
  have hapart := table.unique.forall hother hwebhook hne
  rw [hapart.not_isRow hotherRow] at hrow
  cases hrow

/-- The statement of `update_webhook`. -/
def update (table : WebhookTable) (resource : Resource) (fields : UpdateFields) (now : ℕ) :
    WebhookTable where
  rows := table.rows.map fun webhook =>
    if resource.isRow webhook then webhook.set fields now else webhook
  unique := by
    rw [List.pairwise_map]
    apply table.unique.imp
    intro webhook other h
    refine ⟨fun id hid => ?_, fun id hid => ?_⟩
    · split_ifs at hid ⊢
      all_goals exact h.group id hid
    · split_ifs at hid ⊢
      all_goals exact h.project id hid

/-- The statement of `delete_webhook`. -/
def delete (table : WebhookTable) (resource : Resource) : WebhookTable where
  rows := table.rows.filter fun webhook => !resource.isRow webhook
  unique := table.unique.filter _

/-- A row for a resource that has none; `on_conflict_do_nothing`. -/
def insert (table : WebhookTable) (resource : Resource) (userId : String) (now : ℕ) :
    WebhookTable :=
  if hfree : ∃ webhook ∈ table.rows, resource.isRow webhook then table
  else
    let webhook : GitlabWebhook :=
      match resource with
      | .group id =>
        { groupId := some id, projectId := none, userId, webhookExists := false,
          lastSynced := some now }
      | .project id =>
        { groupId := none, projectId := some id, userId, webhookExists := false,
          lastSynced := some now }
    { rows := table.rows ++ [webhook]
      unique := by
        apply pairwise_concat table.unique
        intro other hother
        have hfree : ¬ resource.isRow other := fun h => hfree ⟨other, hother, h⟩
        cases resource with
        | group id =>
          refine ⟨fun id' hid hrow => hfree ?_, fun id' _ hrow => nomatch hrow⟩
          cases hrow
          exact decide_eq_true hid
        | project id =>
          refine ⟨fun id' _ hrow => (nomatch hrow), fun id' hid hrow => hfree ?_⟩
          cases hrow
          exact decide_eq_true hid }

/-- `store_webhooks` for the groups and the projects of a user. -/
def storeWebhooks (table : WebhookTable) (userId : String) (groups projects : List String)
    (now : ℕ) : WebhookTable :=
  let resources := (groups.filter (· ≠ "")).map Resource.group
    ++ (projects.filter (· ≠ "")).map Resource.project
  resources.foldl (fun table resource => table.insert resource userId now) table

/-- `order_by(asc(last_synced))`: null comes last. -/
def syncedBefore (webhook other : GitlabWebhook) : Bool :=
  match webhook.lastSynced, other.lastSynced with
  | _, none => true
  | none, some _ => false
  | some synced, some other => synced ≤ other

/-- `filter_rows`. -/
def filterRows (table : WebhookTable) (limit : ℕ) : List GitlabWebhook :=
  ((table.rows.filter fun webhook => !webhook.webhookExists).mergeSort syncedBefore).take limit

/-- `get_webhook_secret`. -/
def getWebhookSecret (table : WebhookTable) (webhookUuid userId : String) : Option String :=
  (table.rows.find? fun webhook =>
    webhook.userId = userId && webhook.webhookUuid = some webhookUuid).bind
      GitlabWebhook.webhookSecret

end WebhookTable

/-! ## Requests to GitLab -/

/-- What a request raises. -/
inductive RequestError
  | authenticationError
  | resourceNotFoundError
  | rateLimitError
  | unknownException
  /-- The token is missing, or the answer cannot be read. -/
  | other
  deriving DecidableEq, Repr

inductive WebhookStatus
  | pending
  | verified
  | rateLimited
  | invalid
  deriving DecidableEq, Repr

/-- The status that is returned when a request raises. -/
def RequestError.status : RequestError → WebhookStatus
  | .rateLimitError => .rateLimited
  | _ => .invalid

/-- `webhook_data`: a webhook on GitLab. -/
structure Hook where
  url : String
  name : String
  enableSslVerification : Bool
  token : String
  description : String
  scopes : List String
  customHeaders : List (String × String)
  deriving DecidableEq, Repr

/-- A header of the payloads. -/
def Hook.header (hook : Hook) (key : String) : Option String :=
  (hook.customHeaders.find? fun header => header.1 = key).map Prod.snd

/-- A member of a group or of a project. -/
structure Member where
  id : String
  accessLevel : ℤ
  deriving DecidableEq, Repr

/-- What becomes of a transaction. -/
inductive DbAnswer
  | committed
  | failed
  /-- The connection is lost behind the commit. -/
  | committedFailed
  deriving DecidableEq, Repr

/-- What GitLab and the database answer while a row is processed. -/
structure Answers where
  /-- Whether the response has an `id`. -/
  resource : Except RequestError Bool
  members : Except RequestError (List Member)
  /-- The id of the current user. -/
  user : Except RequestError String
  /-- The webhooks that are listed. -/
  hooks : Except RequestError (Hook → Bool)
  /-- Whether the webhook is made, whatever the response is. -/
  made : Bool
  /-- The id of the response. -/
  hookId : Except RequestError (Option String)
  delete : DbAnswer := .committed
  updateFound : DbAnswer := .committed
  updateInstalled : DbAnswer := .committed
  updateLastSynced : DbAnswer := .committed
  now : ℕ

/-- `_make_request`; without a user there is no token. -/
def makeRequest {α : Type} (externalAuthId : String) (answer : Except RequestError α) :
    Except RequestError α :=
  if externalAuthId = "" then .error .other else answer

/-- `check_resource_exists`. -/
def checkResourceExists (externalAuthId : String) (answers : Answers) :
    Bool × Option WebhookStatus :=
  match makeRequest externalAuthId answers.resource with
  | .ok hasId => (hasId, none)
  | .error e => (false, some e.status)

/-- Whether the members of the resource and the current user make an admin. -/
def isAdmin (externalAuthId : String) (answers : Answers) : Except RequestError Bool := do
  let members ← makeRequest externalAuthId answers.members
  if members = [] then return false
  let userId ← makeRequest externalAuthId answers.user
  return members.any fun member => member.id = userId && 40 ≤ member.accessLevel

/-- `check_user_has_admin_access_to_resource`; it does the same for groups and projects. -/
def checkUserHasAdminAccessToResource (externalAuthId : String) (answers : Answers) :
    Bool × Option WebhookStatus :=
  match isAdmin externalAuthId answers with
  | .ok admin => (admin, none)
  | .error e => (false, some e.status)

/-- `check_webhook_exists_on_resource`. -/
def checkWebhookExistsOnResource (externalAuthId : String) (hooks : List Hook)
    (webhookUrl : String) (answers : Answers) : Bool × Option WebhookStatus :=
  match makeRequest externalAuthId answers.hooks with
  | .ok listed => ((hooks.filter listed).any fun hook => hook.url = webhookUrl, none)
  | .error e => (false, some e.status)

def webhookName : String := "OpenHands Resolver"

def scopes : List String :=
  ["note_events", "merge_requests_events", "confidential_issues_events", "issues_events",
    "confidential_note_events", "job_events", "pipeline_events"]

def userIdHeader : String := "X-OpenHands-User-ID"

def webhookIdHeader : String := "X-OpenHands-Webhook-ID"

/-- The `webhook_data` of `install_webhook`. -/
def webhookData (externalAuthId webhookUrl webhookSecret webhookUuid : String) : Hook where
  url := webhookUrl
  name := webhookName
  enableSslVerification := true
  token := webhookSecret
  description := "Cloud OpenHands Resolver"
  scopes := scopes
  customHeaders :=
    if externalAuthId = "" then []
    else [(userIdHeader, externalAuthId), (webhookIdHeader, webhookUuid)]

/-- What `install_webhook` returns. -/
def installWebhook (externalAuthId : String) (answers : Answers) :
    Option String × Option WebhookStatus :=
  match makeRequest externalAuthId answers.hookId with
  | .ok id => (id, none)
  | .error e => (none, some e.status)

/-- Whether there is a new webhook behind the request of `install_webhook`: GitLab has made it,
as it has if the response has its id. -/
def isMade (externalAuthId : String) (answers : Answers) : Bool :=
  match makeRequest externalAuthId answers.hookId with
  | .ok (some _) => true
  | _ => externalAuthId ≠ "" && answers.made

/-! ## A row -/

/-- The table, the webhooks that are on GitLab, the rows that the current pass has still to
process, and the number of calls of `uuid4`. -/
structure System where
  table : WebhookTable
  hooks : Resource → List Hook
  pending : List GitlabWebhook
  drawn : ℕ

/-- What is raised while a row is processed. -/
inductive Raised
  | breakLoop
  | python (error : PyError)
  | database

/-- A statement in its transaction. -/
def transaction (answer : DbAnswer) (statement : WebhookTable → WebhookTable) (s : System) :
    Except Raised Unit × System :=
  let committed := { s with table := statement s.table }
  match answer with
  | .committed => (.ok (), committed)
  | .failed => (.error .database, s)
  | .committedFailed => (.error .database, committed)

/-- The next statements, unless something has been raised. -/
def andThen (result : Except Raised Unit × System)
    (next : System → Except Raised Unit × System) : Except Raised Unit × System :=
  match result with
  | (.ok (), s) => next s
  | (.error e, s) => (.error e, s)

/-- `update_webhook`. -/
def updateWebhook (webhook : GitlabWebhook) (fields : UpdateFields) (answer : DbAnswer) (now : ℕ)
    (s : System) : Except Raised Unit × System :=
  match determineResourceType webhook with
  | .error e => (.error (.python e), s)
  | .ok resource => transaction answer (fun table => table.update resource fields now) s

/-- `delete_webhook`. -/
def deleteWebhook (webhook : GitlabWebhook) (answer : DbAnswer) (s : System) :
    Except Raised Unit × System :=
  match determineResourceType webhook with
  | .error e => (.error (.python e), s)
  | .ok resource => transaction answer (fun table => table.delete resource) s

/-- `determine_if_rate_limited`. -/
def determineIfRateLimited (status : Option WebhookStatus) : Except Raised Unit :=
  if status = some .rateLimited then .error .breakLoop else .ok ()

/-- What the process is made with: the source of its `uuid4`, which never gives the same text
again, and `GITLAB_WEBHOOK_URL`. -/
structure VerifyWebhookStatus where
  uuid4 : ℕ → String
  uuid4_injective : Function.Injective uuid4
  gitlabWebhookUrl : String

namespace VerifyWebhookStatus

variable (x : VerifyWebhookStatus)

/-- `check_if_resource_exists`. -/
def checkIfResourceExists (webhook : GitlabWebhook) (answers : Answers) (s : System) :
    Except Raised Unit × System :=
  let (doesResourceExist, status) := checkResourceExists webhook.userId answers
  andThen (determineIfRateLimited status, s) fun s =>
    if !doesResourceExist && status ≠ some .rateLimited then
      andThen (deleteWebhook webhook answers.delete s) fun s => (.error .breakLoop, s)
    else (.ok (), s)

/-- `check_if_user_has_admin_acccess_to_resource`. -/
def checkIfUserHasAdminAcccessToResource (webhook : GitlabWebhook) (answers : Answers)
    (s : System) : Except Raised Unit × System :=
  let (isUserAdminOfResource, status) := checkUserHasAdminAccessToResource webhook.userId answers
  andThen (determineIfRateLimited status, s) fun s =>
    if !isUserAdminOfResource then
      andThen (deleteWebhook webhook answers.delete s) fun s => (.error .breakLoop, s)
    else (.ok (), s)

/-- `check_if_webhook_already_exists_on_resource`. -/
def checkIfWebhookAlreadyExistsOnResource (webhook : GitlabWebhook) (resource : Resource)
    (answers : Answers) (s : System) : Except Raised Unit × System :=
  let (doesWebhookExistOnResource, status) := checkWebhookExistsOnResource webhook.userId
    (s.hooks resource) x.gitlabWebhookUrl answers
  andThen (determineIfRateLimited status, s) fun s =>
    andThen
      (if doesWebhookExistOnResource ≠ webhook.webhookExists then
        updateWebhook webhook { webhookExists := some doesWebhookExistOnResource }
          answers.updateFound answers.now s
      else (.ok (), s)) fun s =>
    if doesWebhookExistOnResource then (.error .breakLoop, s) else (.ok (), s)

/-- `verify_conditions_are_met`. -/
def verifyConditionsAreMet (webhook : GitlabWebhook) (resource : Resource) (answers : Answers)
    (s : System) : Except Raised Unit × System :=
  andThen (checkIfResourceExists webhook answers s) fun s =>
  andThen (checkIfUserHasAdminAcccessToResource webhook answers s) fun s =>
  x.checkIfWebhookAlreadyExistsOnResource webhook resource answers s

/-- The secret of the webhook that is installed next for a user. -/
def webhookSecret (userId : String) (s : System) : String := userId ++ "-" ++ x.uuid4 s.drawn

/-- Its uuid. -/
def webhookUuid (s : System) : String := x.uuid4 (s.drawn + 1)

/-- The request of `install_webhook`. -/
def requestInstallation (webhook : GitlabWebhook) (resource : Resource) (answers : Answers)
    (s : System) : System :=
  let hook := webhookData webhook.userId x.gitlabWebhookUrl (x.webhookSecret webhook.userId s)
    (x.webhookUuid s)
  { s with
    hooks := fun r =>
      if r = resource ∧ isMade webhook.userId answers then s.hooks r ++ [hook] else s.hooks r
    drawn := s.drawn + 2 }

/-- The fields that are stored when a webhook has been installed. -/
def installedFields (userId : String) (s : System) : UpdateFields where
  webhookSecret := some (x.webhookSecret userId s)
  webhookExists := some true
  webhookUrl := some x.gitlabWebhookUrl
  scopes := some scopes
  webhookUuid := some (x.webhookUuid s)

/-- `create_new_webhook`. -/
def createNewWebhook (webhook : GitlabWebhook) (resource : Resource) (answers : Answers)
    (s : System) : Except Raised Unit × System :=
  let (webhookId, status) := installWebhook webhook.userId answers
  andThen (determineIfRateLimited status, x.requestInstallation webhook resource answers s)
    fun requested =>
      if (truthy webhookId).isSome then
        updateWebhook webhook (x.installedFields webhook.userId s) answers.updateInstalled
          answers.now requested
      else (.ok (), requested)

/-- The `try` block of the loop. -/
def tryInstall (webhook : GitlabWebhook) (answers : Answers) (s : System) :
    Except Raised Unit × System :=
  match determineResourceType webhook with
  | .error e => (.error (.python e), s)
  | .ok resource =>
    andThen (x.verifyConditionsAreMet webhook resource answers s) fun s =>
    x.createNewWebhook webhook resource answers s

/-- The body of the loop: `last_synced` is updated in any case, and what is raised is caught if it
is a `BreakLoopException`. -/
def processWebhook (webhook : GitlabWebhook) (answers : Answers) (s : System) :
    Except Raised Unit × System :=
  let (result, s) := x.tryInstall webhook answers s
  let (_, s) := updateWebhook webhook {} answers.updateLastSynced answers.now s
  match result with
  | .error .breakLoop => (.ok (), s)
  | result => (result, s)

/-! ## Passes -/

inductive Step
  /-- `fetch_rows`: a new pass. -/
  | fetchRows
  /-- The current pass processes its next row. -/
  | process (answers : Answers)
  /-- The current pass is killed. -/
  | kill
  /-- `add_owned_projects_and_groups_to_db`. -/
  | addOwned (userId : String) (groups projects : List String) (now : ℕ)
  /-- Someone removes webhooks from a resource. -/
  | remove (resource : Resource) (removed : Hook → Bool)

/-- `CHUNK_SIZE`. -/
def chunkSize : ℕ := 100

/-- A step; an exception ends the pass. -/
def step (s : System) : Step → System
  | .fetchRows => { s with pending := s.table.filterRows chunkSize }
  | .process answers =>
    match s.pending with
    | [] => s
    | webhook :: rest =>
      match x.processWebhook webhook answers s with
      | (.ok (), s) => { s with pending := rest }
      | (.error _, s) => { s with pending := [] }
  | .kill => { s with pending := [] }
  | .addOwned userId groups projects now =>
    { s with table := s.table.storeWebhooks userId groups projects now }
  | .remove resource removed =>
    { s with
      hooks := fun r =>
        if r = resource then (s.hooks r).filter fun hook => !removed hook else s.hooks r }

end VerifyWebhookStatus

end OpenHands.GitlabWebhooks
