/-
# Webhooks whose secret is stored

A row whose webhook exists should have the secret and the uuid with which the webhook on its
resource was installed, so that the payloads of the webhook can be verified.  The installation
and the storing are two steps, though, and a row adopts any webhook that it finds.

  * `tryInstall_snd` — what is done with a row, by what the three requests say;
  * `Inv.step` — no step makes two rows with one uuid;
  * `isKept_iff_admissible`, `forall_isKept_iff` — when a step, and a run, keeps the secrets and
    deletes only rows that may be deleted.
-/
import OpenHands.GitlabWebhooks
import OpenHands.Lib.Run

namespace OpenHands.GitlabWebhooks

open Run

/-! ## What is stored -/

/-- The row has the secret and the uuid with which the webhook was installed for its user. -/
def GitlabWebhook.Carries (webhook : GitlabWebhook) (hook : Hook) : Prop :=
  ∃ uuid, webhook.webhookUuid = some uuid ∧ hook.header webhookIdHeader = some uuid ∧
    hook.header userIdHeader = some webhook.userId ∧ webhook.webhookSecret = some hook.token

/-- `get_webhook_secret` finds the secret of the payloads of the webhook. -/
def WebhookTable.Finds (table : WebhookTable) (hook : Hook) : Prop :=
  ∃ uuid userId, hook.header webhookIdHeader = some uuid ∧
    hook.header userIdHeader = some userId ∧
    table.getWebhookSecret uuid userId = some hook.token

/-- The rows have the same ids. -/
def GitlabWebhook.SameIds (webhook other : GitlabWebhook) : Prop :=
  webhook.groupId = other.groupId ∧ webhook.projectId = other.projectId

/-- No two rows have the same uuid. -/
def WebhookTable.Distinct (table : WebhookTable) : Prop :=
  table.rows.Pairwise fun webhook other =>
    ∀ uuid, webhook.webhookUuid = some uuid → other.webhookUuid ≠ some uuid

/-- The answer of GitLab is no. -/
def SaysNo (answer : Except RequestError Bool) : Prop :=
  answer = .ok false ∨ answer = .error .resourceNotFoundError

/-- The request fails in no other way than by the rate limit or because there is no such
resource. -/
def IsAnswered (answer : Except RequestError Bool) : Prop :=
  ∀ e, answer = .error e → e = .rateLimitError ∨ e = .resourceNotFoundError

namespace Answers

/-- The answer to the question whether the resource exists. -/
def exists? (answers : Answers) (webhook : GitlabWebhook) : Except RequestError Bool :=
  makeRequest webhook.userId answers.resource

/-- The answer to the question whether the user is an admin of the resource. -/
def admin? (answers : Answers) (webhook : GitlabWebhook) : Except RequestError Bool :=
  isAdmin webhook.userId answers

/-- The answer to the question whether there is a webhook of ours among some webhooks. -/
def found? (answers : Answers) (webhook : GitlabWebhook) (hooks : List Hook)
    (webhookUrl : String) : Except RequestError Bool :=
  (makeRequest webhook.userId answers.hooks).map fun listed =>
    (hooks.filter listed).any fun hook => hook.url = webhookUrl

/-- The response to the installation has the id of the webhook. -/
def hasId (answers : Answers) (webhook : GitlabWebhook) : Bool :=
  (truthy (installWebhook webhook.userId answers).1).isSome

/-- GitLab said that the resource is gone, or that the user is no admin. -/
def SayNo (answers : Answers) (webhook : GitlabWebhook) : Prop :=
  SaysNo (answers.exists? webhook) ∨
    answers.exists? webhook = .ok true ∧ SaysNo (answers.admin? webhook)

end Answers

namespace VerifyWebhookStatus

variable (x : VerifyWebhookStatus)

/-- Every row whose webhook exists has what the webhooks of ours on its resource were installed
with, and it is found for their payloads. -/
def IsRecorded (s : System) : Prop :=
  ∀ webhook ∈ s.table.rows, webhook.webhookExists = true →
    ∀ resource, determineResourceType webhook = .ok resource →
      ∀ hook ∈ s.hooks resource, hook.url = x.gitlabWebhookUrl →
        webhook.Carries hook ∧ s.table.Finds hook

/-- A row is only deleted while it is processed, behind an answer which says that its resource is
gone or that its user is no admin. -/
def DeletesOnAnswer (s : System) (step : Step) : Prop :=
  ∀ webhook ∈ s.table.rows,
    (∀ other ∈ (x.step s step).table.rows, ¬ webhook.SameIds other) →
      ∃ answers next rest, step = .process answers ∧ s.pending = next :: rest ∧
        webhook.SameIds next ∧ answers.SayNo next

/-- Behind the step the secrets are recorded, and it deletes no row without an answer. -/
def IsKept (s : System) (step : Step) : Prop :=
  x.IsRecorded (x.step s step) ∧ x.DeletesOnAnswer s step

/-- When a row can be processed. -/
structure IsSafe (s : System) (webhook : GitlabWebhook) (resource : Resource)
    (answers : Answers) : Prop where
  /-- The question for the resource is answered, or else the row is not deleted. -/
  existence : IsAnswered (answers.exists? webhook) ∨ answers.delete = .failed
  /-- So is the question for the admin, if it is asked. -/
  admin : answers.exists? webhook = .ok true →
    IsAnswered (answers.admin? webhook) ∨ answers.delete = .failed
  /-- If the row adopts a webhook, it has already what all of ours on the resource were installed
  with. -/
  adoption : answers.exists? webhook = .ok true → answers.admin? webhook = .ok true →
    answers.found? webhook (s.hooks resource) x.gitlabWebhookUrl = .ok true →
    answers.updateFound ≠ .failed →
    ∀ hook ∈ s.hooks resource, hook.url = x.gitlabWebhookUrl → webhook.Carries hook
  /-- If the secret of a new webhook is stored, none of ours has been on the resource. -/
  installation : answers.exists? webhook = .ok true → answers.admin? webhook = .ok true →
    answers.found? webhook (s.hooks resource) x.gitlabWebhookUrl ≠ .ok true →
    answers.found? webhook (s.hooks resource) x.gitlabWebhookUrl ≠ .error .rateLimitError →
    answers.hasId webhook = true → answers.updateInstalled ≠ .failed →
    ∀ hook ∈ s.hooks resource, hook.url ≠ x.gitlabWebhookUrl

/-- When a step keeps the secrets and deletes only rows that may be deleted. -/
def Admissible (s : System) (step : Step) : Prop :=
  ∀ answers webhook rest resource, step = .process answers → s.pending = webhook :: rest →
    determineResourceType webhook = .ok resource → x.IsSafe s webhook resource answers

/-- No two rows have the same uuid, and no row or webhook has one that `uuid4` is going to give. -/
structure UuidsDiffer (s : System) : Prop where
  distinct : s.table.Distinct
  rows_new : ∀ n, s.drawn ≤ n → ∀ webhook ∈ s.table.rows,
    webhook.webhookUuid ≠ some (x.uuid4 n)
  hooks_new : ∀ n, s.drawn ≤ n → ∀ resource, ∀ hook ∈ s.hooks resource,
    hook.header webhookIdHeader ≠ some (x.uuid4 n)

/-- At first there is no pass, and the secrets are recorded. -/
structure IsInitial (s : System) : Prop extends x.UuidsDiffer s where
  pending : s.pending = []
  recorded : x.IsRecorded s

end VerifyWebhookStatus

/-! ## The requests -/

/-- What is done behind a request. -/
inductive Verdict
  | passed
  | limited
  | refused

/-- An error counts as a no, but for the rate limit. -/
def verdict : Except RequestError Bool → Verdict
  | .ok true => .passed
  | .error .rateLimitError => .limited
  | _ => .refused

theorem verdict_eq_passed_iff {answer : Except RequestError Bool} :
    verdict answer = .passed ↔ answer = .ok true := by
  unfold verdict
  split <;> simp_all

theorem verdict_eq_limited_iff {answer : Except RequestError Bool} :
    verdict answer = .limited ↔ answer = .error .rateLimitError := by
  unfold verdict
  split <;> simp_all

/-- Where only answers count, a row is refused by a no. -/
theorem saysNo_iff_isAnswered {answer : Except RequestError Bool}
    (h : verdict answer = .refused) : SaysNo answer ↔ IsAnswered answer := by
  unfold SaysNo IsAnswered
  cases answer with
  | ok no => cases no <;> simp_all [verdict]
  | error e => cases e <;> simp_all [verdict]

theorem isAnswered_of_ne {answer : Except RequestError Bool}
    (h : verdict answer ≠ .refused) : IsAnswered answer := by
  intro e he
  subst he
  cases e <;> simp_all [verdict]

/-! ## The table -/

/-- The uuid of an updated row is the one that is set or the one that was there. -/
theorem webhookUuid_of_set {webhook : GitlabWebhook} {fields : UpdateFields} {now : ℕ}
    {uuid : String} (h : (webhook.set fields now).webhookUuid = some uuid) :
    fields.webhookUuid = some uuid ∨ webhook.webhookUuid = some uuid := by
  have hset : (fields.webhookUuid <|> webhook.webhookUuid) = some uuid := h
  cases hfields : fields.webhookUuid with
  | none =>
    rw [hfields] at hset
    exact Or.inr hset
  | some new =>
    rw [hfields] at hset
    exact Or.inl hset

namespace WebhookTable

variable {table : WebhookTable} {resource : Resource} {webhook other : GitlabWebhook}
  {fields : UpdateFields} {now : ℕ}

theorem mem_update_of_isRow (hwebhook : webhook ∈ table.rows)
    (hrow : resource.isRow webhook = true) (hother : resource.isRow other = true) :
    other ∈ (table.update resource fields now).rows ↔ other = webhook.set fields now := by
  unfold update
  rw [List.mem_map]
  constructor
  · rintro ⟨stored, hstored, rfl⟩
    have hstoredRow : resource.isRow stored = true := by
      split_ifs at hother with h
      · exact h
      · exact hother
    rw [if_pos hstoredRow, table.eq_of_isRow hwebhook hstored hrow hstoredRow]
  · rintro rfl
    exact ⟨webhook, hwebhook, if_pos hrow⟩

theorem mem_update_of_not_isRow (hother : resource.isRow other = false) :
    other ∈ (table.update resource fields now).rows ↔ other ∈ table.rows := by
  unfold update
  rw [List.mem_map]
  constructor
  · rintro ⟨stored, hstored, rfl⟩
    split_ifs at hother ⊢ with h
    · rw [isRow_set, h] at hother
      cases hother
    · exact hstored
  · exact fun h => ⟨other, h, if_neg (by rw [hother]; exact Bool.false_ne_true)⟩

theorem mem_delete_iff :
    other ∈ (table.delete resource).rows ↔ other ∈ table.rows ∧ resource.isRow other = false := by
  unfold delete
  rw [List.mem_filter, Bool.not_eq_true']

theorem distinct_update (h : table.Distinct) (hfields : ∀ uuid, fields.webhookUuid = some uuid →
    ∀ webhook ∈ table.rows, webhook.webhookUuid ≠ some uuid) :
    (table.update resource fields now).Distinct := by
  unfold Distinct update
  rw [List.pairwise_map]
  refine List.Pairwise.imp_of_mem ?_ (table.unique.and h)
  rintro webhook other hwebhook hother ⟨hapart, hdistinct⟩ uuid huuid hotherUuid
  -- Only one of the two can be the row that is updated.
  by_cases hrow : resource.isRow webhook = true
  · rw [if_pos hrow] at huuid
    rw [if_neg (by rw [hapart.not_isRow hrow]; exact Bool.false_ne_true)] at hotherUuid
    rcases webhookUuid_of_set huuid with hnew | hold
    · exact hfields uuid hnew other hother hotherUuid
    · exact hdistinct uuid hold hotherUuid
  · rw [if_neg hrow] at huuid
    split_ifs at hotherUuid
    · rcases webhookUuid_of_set hotherUuid with hnew | hold
      · exact hfields uuid hnew webhook hwebhook huuid
      · exact hdistinct uuid huuid hold
    · exact hdistinct uuid huuid hotherUuid

theorem distinct_delete (h : table.Distinct) : (table.delete resource).Distinct :=
  List.Pairwise.filter _ h

/-- Where uuids are distinct, the row with a uuid is found. -/
theorem getWebhookSecret_eq (h : table.Distinct) (hwebhook : webhook ∈ table.rows) {uuid : String}
    (huuid : webhook.webhookUuid = some uuid) :
    table.getWebhookSecret uuid webhook.userId = webhook.webhookSecret := by
  unfold getWebhookSecret
  unfold Distinct at h
  generalize table.rows = rows at h hwebhook
  induction rows with
  | nil => cases hwebhook
  | cons first rows ih =>
    rw [List.pairwise_cons] at h
    rw [List.find?_cons]
    rcases List.mem_cons.mp hwebhook with rfl | hmem
    · simp [huuid]
    · have hfirst : first.webhookUuid ≠ some uuid :=
        fun heq => h.1 webhook hmem uuid heq huuid
      simp only [hfirst, decide_false, Bool.and_false]
      exact ih h.2 hmem

/-- An update of nothing but the time. -/
theorem rows_update (table : WebhookTable) (resource : Resource) (now : ℕ) :
    (table.update resource {} now).rows = table.rows.map fun webhook =>
      { webhook with
        lastSynced := if resource.isRow webhook then some now else webhook.lastSynced } := by
  unfold update
  apply List.map_congr_left
  intro webhook _
  split_ifs <;> rfl

/-- A change of nothing but the time changes nothing that is found. -/
theorem getWebhookSecret_update (table : WebhookTable) (resource : Resource) (now : ℕ)
    (uuid userId : String) :
    (table.update resource {} now).getWebhookSecret uuid userId
      = table.getWebhookSecret uuid userId := by
  unfold getWebhookSecret
  simp only [rows_update, List.find?_map, Option.bind_map]
  rfl

/-- Rows have been added whose webhook does not exist. -/
structure Grows (table table' : WebhookTable) : Prop where
  kept : ∀ webhook ∈ table.rows, webhook ∈ table'.rows
  added : ∀ webhook ∈ table'.rows,
    webhook ∈ table.rows ∨ webhook.webhookExists = false ∧ webhook.webhookUuid = none
  distinct : table.Distinct → table'.Distinct

theorem Grows.refl (table : WebhookTable) : table.Grows table :=
  ⟨fun _ h => h, fun _ h => Or.inl h, id⟩

theorem Grows.trans {table table' table'' : WebhookTable} (h : table.Grows table')
    (h' : table'.Grows table'') : table.Grows table'' := by
  refine ⟨fun webhook hmem => h'.kept webhook (h.kept webhook hmem), fun webhook hmem => ?_,
    fun hdistinct => h'.distinct (h.distinct hdistinct)⟩
  rcases h'.added webhook hmem with hmem' | hnew
  · exact h.added webhook hmem'
  · exact Or.inr hnew

theorem grows_insert (table : WebhookTable) (resource : Resource) (userId : String) (now : ℕ) :
    table.Grows (table.insert resource userId now) := by
  unfold insert
  split_ifs with hfree
  · exact Grows.refl table
  · refine ⟨fun webhook hmem => List.mem_append_left _ hmem, fun webhook hmem => ?_,
      fun hdistinct => ?_⟩
    · rcases List.mem_append.mp hmem with hold | hnew
      · exact Or.inl hold
      · rw [List.mem_singleton.mp hnew]
        cases resource <;> exact Or.inr ⟨rfl, rfl⟩
    · apply pairwise_concat hdistinct
      intro webhook _ uuid _
      cases resource <;> exact fun h => (nomatch h)

theorem grows_storeWebhooks (table : WebhookTable) (userId : String)
    (groups projects : List String) (now : ℕ) :
    table.Grows (table.storeWebhooks userId groups projects now) := by
  unfold storeWebhooks
  generalize (groups.filter (· ≠ "")).map Resource.group
    ++ (projects.filter (· ≠ "")).map Resource.project = resources
  induction resources generalizing table with
  | nil => exact Grows.refl table
  | cons resource resources ih =>
    exact (table.grows_insert resource userId now).trans (ih (table.insert resource userId now))

end WebhookTable

/-! ## What is done with a row -/

/-- What is left of a statement in its transaction. -/
def System.commit (s : System) (answer : DbAnswer) (statement : WebhookTable → WebhookTable) :
    System :=
  if answer = .failed then s else { s with table := statement s.table }

theorem transaction_snd (answer : DbAnswer) (statement : WebhookTable → WebhookTable)
    (s : System) : (transaction answer statement s).2 = s.commit answer statement := by
  cases answer <;> rfl

theorem andThen_ok (s : System) (next : System → Except Raised Unit × System) :
    andThen (.ok (), s) next = next s := rfl

/-- Behind statements that end by raising nothing is done. -/
theorem andThen_raise (result : Except Raised Unit × System) (e : Raised)
    (next : System → Except Raised Unit × System) :
    andThen (andThen result fun s => (.error e, s)) next
      = andThen result fun s => (.error e, s) := by
  obtain ⟨_ | _, s⟩ := result <;> rfl

theorem andThen_raise_snd (result : Except Raised Unit × System) (e : Raised) :
    (andThen result fun s => (.error e, s)).2 = result.2 := by
  obtain ⟨_ | _, s⟩ := result <;> rfl

section

variable {webhook : GitlabWebhook} {resource : Resource}

theorem updateWebhook_snd (h : determineResourceType webhook = .ok resource)
    (fields : UpdateFields) (answer : DbAnswer) (now : ℕ) (s : System) :
    (updateWebhook webhook fields answer now s).2
      = s.commit answer fun table => table.update resource fields now := by
  unfold updateWebhook
  rw [h]
  exact transaction_snd _ _ _

theorem deleteWebhook_snd (h : determineResourceType webhook = .ok resource) (answer : DbAnswer)
    (s : System) : (deleteWebhook webhook answer s).2
      = s.commit answer fun table => table.delete resource := by
  unfold deleteWebhook
  rw [h]
  exact transaction_snd _ _ _

namespace VerifyWebhookStatus

variable (x : VerifyWebhookStatus)

theorem checkIfResourceExists_eq (webhook : GitlabWebhook) (answers : Answers) (s : System) :
    checkIfResourceExists webhook answers s =
      match verdict (answers.exists? webhook) with
      | .passed => (.ok (), s)
      | .limited => (.error .breakLoop, s)
      | .refused => andThen (deleteWebhook webhook answers.delete s) fun s =>
        (.error .breakLoop, s) := by
  unfold checkIfResourceExists checkResourceExists Answers.exists?
  cases makeRequest webhook.userId answers.resource with
  | ok hasId => cases hasId <;> rfl
  | error e => cases e <;> rfl

theorem checkIfUserHasAdminAcccessToResource_eq (webhook : GitlabWebhook) (answers : Answers)
    (s : System) :
    checkIfUserHasAdminAcccessToResource webhook answers s =
      match verdict (answers.admin? webhook) with
      | .passed => (.ok (), s)
      | .limited => (.error .breakLoop, s)
      | .refused => andThen (deleteWebhook webhook answers.delete s) fun s =>
        (.error .breakLoop, s) := by
  unfold checkIfUserHasAdminAcccessToResource checkUserHasAdminAccessToResource Answers.admin?
  cases isAdmin webhook.userId answers with
  | ok admin => cases admin <;> rfl
  | error e => cases e <;> rfl

theorem checkIfWebhookAlreadyExistsOnResource_eq (hnew : webhook.webhookExists = false)
    (resource : Resource) (answers : Answers) (s : System) :
    x.checkIfWebhookAlreadyExistsOnResource webhook resource answers s =
      match verdict (answers.found? webhook (s.hooks resource) x.gitlabWebhookUrl) with
      | .passed => andThen (updateWebhook webhook { webhookExists := some true }
          answers.updateFound answers.now s) fun s => (.error .breakLoop, s)
      | .limited => (.error .breakLoop, s)
      | .refused => (.ok (), s) := by
  unfold checkIfWebhookAlreadyExistsOnResource checkWebhookExistsOnResource Answers.found?
  rw [hnew]
  cases makeRequest webhook.userId answers.hooks with
  | ok listed =>
    simp only [Except.map]
    cases ((s.hooks resource).filter listed).any fun hook => hook.url = x.gitlabWebhookUrl <;> rfl
  | error e => cases e <;> rfl

theorem createNewWebhook_snd (h : determineResourceType webhook = .ok resource)
    (answers : Answers) (s : System) :
    (x.createNewWebhook webhook resource answers s).2 =
      if answers.hasId webhook then
        (x.requestInstallation webhook resource answers s).commit answers.updateInstalled
          fun table => table.update resource (x.installedFields webhook.userId s) answers.now
      else x.requestInstallation webhook resource answers s := by
  unfold createNewWebhook Answers.hasId installWebhook
  cases makeRequest webhook.userId answers.hookId with
  | ok id =>
    simp only
    split_ifs with hid
    · show (updateWebhook _ _ _ _ _).2 = _
      exact updateWebhook_snd h _ _ _ _
    · rfl
  | error e => cases e <;> rfl

/-- **What is done with a row**, by what the three requests say. -/
theorem tryInstall_snd (h : determineResourceType webhook = .ok resource)
    (hnew : webhook.webhookExists = false) (answers : Answers) (s : System) :
    (x.tryInstall webhook answers s).2 =
      match verdict (answers.exists? webhook) with
      | .limited => s
      | .refused => s.commit answers.delete fun table => table.delete resource
      | .passed =>
        match verdict (answers.admin? webhook) with
        | .limited => s
        | .refused => s.commit answers.delete fun table => table.delete resource
        | .passed =>
          match verdict (answers.found? webhook (s.hooks resource) x.gitlabWebhookUrl) with
          | .limited => s
          | .passed => s.commit answers.updateFound fun table =>
              table.update resource { webhookExists := some true } answers.now
          | .refused =>
            if answers.hasId webhook then
              (x.requestInstallation webhook resource answers s).commit answers.updateInstalled
                fun table => table.update resource (x.installedFields webhook.userId s)
                  answers.now
            else x.requestInstallation webhook resource answers s := by
  unfold tryInstall verifyConditionsAreMet
  rw [h]
  simp only
  rw [checkIfResourceExists_eq]
  cases verdict (answers.exists? webhook) with
  | limited => rfl
  | refused =>
    simp only [andThen_raise, andThen_raise_snd]
    exact deleteWebhook_snd h _ _
  | passed =>
    simp only [andThen_ok]
    rw [checkIfUserHasAdminAcccessToResource_eq]
    cases verdict (answers.admin? webhook) with
    | limited => rfl
    | refused =>
      simp only [andThen_raise, andThen_raise_snd]
      exact deleteWebhook_snd h _ _
    | passed =>
      simp only [andThen_ok]
      rw [x.checkIfWebhookAlreadyExistsOnResource_eq hnew]
      cases verdict (answers.found? webhook (s.hooks resource) x.gitlabWebhookUrl) with
      | limited => rfl
      | passed =>
        simp only [andThen_raise, andThen_raise_snd]
        exact updateWebhook_snd h _ _ _ _
      | refused =>
        simp only [andThen_ok]
        exact x.createNewWebhook_snd h answers s

/-! ## The invariant -/

/-- What every step keeps; the rows of the current pass are in the table as they were. -/
structure Inv (s : System) : Prop extends x.UuidsDiffer s where
  pending_mem : ∀ webhook ∈ s.pending, webhook ∈ s.table.rows
  pending_new : ∀ webhook ∈ s.pending, webhook.webhookExists = false
  pending_apart : s.pending.Pairwise GitlabWebhook.Apart

variable {x} {s : System}

theorem IsInitial.inv (h : x.IsInitial s) : x.Inv s := by
  refine ⟨h.toUuidsDiffer, ?_, ?_, ?_⟩
  all_goals rw [h.pending]
  · exact fun webhook hmem => (nomatch hmem)
  · exact fun webhook hmem => (nomatch hmem)
  · exact .nil

/-- The uuid in the headers of a webhook that was installed. -/
theorem header_webhookData {userId webhookUrl webhookSecret webhookUuid uuid : String}
    (h : (webhookData userId webhookUrl webhookSecret webhookUuid).header webhookIdHeader
      = some uuid) : uuid = webhookUuid := by
  unfold webhookData Hook.header at h
  split_ifs at h
  · cases h
  · have hkeys : userIdHeader ≠ webhookIdHeader := by decide
    simp only [List.find?_cons, hkeys, decide_false, decide_true, Option.map_some,
      Option.some.injEq] at h
    exact h.symm

/-- The headers of a webhook that was installed for a user. -/
theorem header_webhookData_of_ne {userId webhookUrl webhookSecret webhookUuid : String}
    (h : userId ≠ "") :
    (webhookData userId webhookUrl webhookSecret webhookUuid).header webhookIdHeader
        = some webhookUuid ∧
      (webhookData userId webhookUrl webhookSecret webhookUuid).header userIdHeader
        = some userId := by
  have hkeys : userIdHeader ≠ webhookIdHeader := by decide
  unfold webhookData Hook.header
  rw [if_neg h]
  simp [hkeys]

/-- A statement in its transaction is executed or not. -/
theorem commit_cases (s : System) (answer : DbAnswer) (statement : WebhookTable → WebhookTable) :
    s.commit answer statement = s ∨
      s.commit answer statement = { s with table := statement s.table } := by
  unfold System.commit
  split_ifs
  · exact Or.inl rfl
  · exact Or.inr rfl

namespace UuidsDiffer

/-- An update that sets no uuid, or a new one. -/
theorem update (h : x.UuidsDiffer s) {fields : UpdateFields} (resource : Resource) (now : ℕ)
    (hrows : ∀ uuid, fields.webhookUuid = some uuid → ∀ webhook ∈ s.table.rows,
      webhook.webhookUuid ≠ some uuid)
    (hnew : ∀ n, s.drawn ≤ n → fields.webhookUuid ≠ some (x.uuid4 n)) :
    x.UuidsDiffer { s with table := s.table.update resource fields now } := by
  refine ⟨WebhookTable.distinct_update h.distinct hrows, ?_, h.hooks_new⟩
  intro n hn webhook hmem huuid
  obtain ⟨stored, hstored, rfl⟩ := List.mem_map.mp hmem
  split_ifs at huuid
  · rcases webhookUuid_of_set huuid with hset | hold
    · exact hnew n hn hset
    · exact h.rows_new n hn stored hstored hold
  · exact h.rows_new n hn stored hstored huuid

/-- An update that sets no uuid, if it is committed. -/
theorem commit_update (h : x.UuidsDiffer s) {fields : UpdateFields}
    (hfields : fields.webhookUuid = none) (answer : DbAnswer) (resource : Resource) (now : ℕ) :
    x.UuidsDiffer (s.commit answer fun table => table.update resource fields now) := by
  rcases commit_cases s answer fun table => table.update resource fields now with heq | heq
  · rw [heq]
    exact h
  · rw [heq]
    apply h.update resource now
    · intro uuid huuid
      rw [hfields] at huuid
      cases huuid
    · intro n _ huuid
      rw [hfields] at huuid
      cases huuid

theorem commit_delete (h : x.UuidsDiffer s) (answer : DbAnswer) (resource : Resource) :
    x.UuidsDiffer (s.commit answer fun table => table.delete resource) := by
  rcases commit_cases s answer fun table => table.delete resource with heq | heq
  · rw [heq]
    exact h
  · rw [heq]
    exact ⟨WebhookTable.distinct_delete h.distinct,
      fun n hn webhook hmem => h.rows_new n hn webhook (WebhookTable.mem_delete_iff.mp hmem).1,
      h.hooks_new⟩

/-- The webhook that is installed has a new uuid. -/
theorem requestInstallation (h : x.UuidsDiffer s) (webhook : GitlabWebhook) (resource : Resource)
    (answers : Answers) : x.UuidsDiffer (x.requestInstallation webhook resource answers s) := by
  refine ⟨h.distinct, fun n hn => ?_, fun n hn r hook hmem huuid => ?_⟩
  · have hdrawn : s.drawn + 2 ≤ n := hn
    exact h.rows_new n (by omega)
  · have hdrawn : s.drawn + 2 ≤ n := hn
    unfold VerifyWebhookStatus.requestInstallation at hmem
    simp only at hmem
    split_ifs at hmem
    · rcases List.mem_append.mp hmem with hold | hnew
      · exact h.hooks_new n (by omega) r hook hold huuid
      · rw [List.mem_singleton.mp hnew] at huuid
        have heq := x.uuid4_injective (header_webhookData huuid)
        omega
    · exact h.hooks_new n (by omega) r hook hmem huuid

/-- Its uuid is stored. -/
theorem commit_installed (h : x.UuidsDiffer s) (webhook : GitlabWebhook) (resource : Resource)
    (answers : Answers) :
    x.UuidsDiffer ((x.requestInstallation webhook resource answers s).commit
      answers.updateInstalled fun table =>
        table.update resource (x.installedFields webhook.userId s) answers.now) := by
  have hrequested := h.requestInstallation webhook resource answers
  rcases commit_cases (x.requestInstallation webhook resource answers s) answers.updateInstalled
    fun table => table.update resource (x.installedFields webhook.userId s) answers.now
    with heq | heq
  · rw [heq]
    exact hrequested
  · rw [heq]
    apply hrequested.update resource answers.now
    · intro uuid huuid
      cases huuid
      exact h.rows_new (s.drawn + 1) (by omega)
    · intro n hn huuid
      have hdrawn : s.drawn + 2 ≤ n := hn
      have heq := x.uuid4_injective (Option.some.inj huuid)
      omega

theorem tryInstall (h : x.UuidsDiffer s) {webhook : GitlabWebhook} {resource : Resource}
    (hresource : determineResourceType webhook = .ok resource)
    (hnew : webhook.webhookExists = false) (answers : Answers) :
    x.UuidsDiffer (x.tryInstall webhook answers s).2 := by
  rw [x.tryInstall_snd hresource hnew]
  split
  · exact h
  · exact h.commit_delete _ _
  · split
    · exact h
    · exact h.commit_delete _ _
    · split
      · exact h
      · exact h.commit_update rfl _ _ _
      · split_ifs
        · exact h.commit_installed _ _ _
        · exact h.requestInstallation _ _ _

end UuidsDiffer

/-! ## Other rows -/

/-- Nothing has changed but the row and the webhooks of a resource. -/
structure Only (resource : Resource) (s s' : System) : Prop where
  rows : ∀ other, resource.isRow other = false → (other ∈ s'.table.rows ↔ other ∈ s.table.rows)
  hooks : ∀ r, r ≠ resource → s'.hooks r = s.hooks r
  pending : s'.pending = s.pending

namespace Only

theorem refl (resource : Resource) (s : System) : Only resource s s :=
  ⟨fun _ _ => Iff.rfl, fun _ _ => rfl, rfl⟩

theorem trans {s' s'' : System} (h : Only resource s s') (h' : Only resource s' s'') :
    Only resource s s'' :=
  ⟨fun other hother => (h'.rows other hother).trans (h.rows other hother),
    fun r hr => (h'.hooks r hr).trans (h.hooks r hr), h'.pending.trans h.pending⟩

theorem commit_update (s : System) (answer : DbAnswer) (resource : Resource)
    (fields : UpdateFields) (now : ℕ) :
    Only resource s (s.commit answer fun table => table.update resource fields now) := by
  rcases commit_cases s answer fun table => table.update resource fields now with heq | heq
  · rw [heq]
    exact refl resource s
  · rw [heq]
    exact ⟨fun other hother => WebhookTable.mem_update_of_not_isRow hother, fun _ _ => rfl, rfl⟩

theorem commit_delete (s : System) (answer : DbAnswer) (resource : Resource) :
    Only resource s (s.commit answer fun table => table.delete resource) := by
  rcases commit_cases s answer fun table => table.delete resource with heq | heq
  · rw [heq]
    exact refl resource s
  · rw [heq]
    refine ⟨fun other hother => ?_, fun _ _ => rfl, rfl⟩
    exact WebhookTable.mem_delete_iff.trans (and_iff_left hother)

theorem requestInstallation (webhook : GitlabWebhook) (resource : Resource) (answers : Answers)
    (s : System) : Only resource s (x.requestInstallation webhook resource answers s) :=
  ⟨fun _ _ => Iff.rfl, fun _ hr => if_neg fun h => hr h.1, rfl⟩

theorem tryInstall (hresource : determineResourceType webhook = .ok resource)
    (hnew : webhook.webhookExists = false) (answers : Answers) (s : System) :
    Only resource s (x.tryInstall webhook answers s).2 := by
  rw [x.tryInstall_snd hresource hnew]
  split
  · exact refl resource s
  · exact commit_delete s _ resource
  · split
    · exact refl resource s
    · exact commit_delete s _ resource
    · split
      · exact refl resource s
      · exact commit_update s _ resource _ _
      · split_ifs
        · exact (requestInstallation webhook resource answers s).trans
            (commit_update _ _ resource _ _)
        · exact requestInstallation webhook resource answers s

end Only

/-- The state behind the row that a pass processes next. -/
def processed (x : VerifyWebhookStatus) (webhook : GitlabWebhook) (resource : Resource)
    (answers : Answers) (s : System) : System :=
  (x.tryInstall webhook answers s).2.commit answers.updateLastSynced fun table =>
    table.update resource {} answers.now

/-- A row is processed, and the pass goes on or ends. -/
theorem step_process {rest : List GitlabWebhook} (hpending : s.pending = webhook :: rest)
    (hresource : determineResourceType webhook = .ok resource) (answers : Answers) :
    ∃ pending, (pending = rest ∨ pending = []) ∧
      x.step s (.process answers)
        = { x.processed webhook resource answers s with pending := pending } := by
  have hprocessed : (x.processWebhook webhook answers s).2
      = x.processed webhook resource answers s := by
    unfold processWebhook processed
    rw [← updateWebhook_snd hresource]
    simp only
    split <;> rfl
  unfold step
  rw [hpending]
  simp only
  split
  · rename_i heq
    rw [heq] at hprocessed
    exact ⟨rest, Or.inl rfl, by rw [← hprocessed]⟩
  · rename_i heq
    rw [heq] at hprocessed
    exact ⟨[], Or.inr rfl, by rw [← hprocessed]⟩

/-- A row that is not of one resource ends the pass. -/
theorem step_process_of_error {rest : List GitlabWebhook} (hpending : s.pending = webhook :: rest)
    {e : PyError} (hresource : determineResourceType webhook = .error e) (answers : Answers) :
    x.step s (.process answers) = { s with pending := [] } := by
  have hprocessed : x.processWebhook webhook answers s = (.error (.python e), s) := by
    unfold processWebhook tryInstall updateWebhook
    rw [hresource]
  unfold step
  rw [hpending]
  simp only [hprocessed]

theorem Only.processed (hresource : determineResourceType webhook = .ok resource)
    (hnew : webhook.webhookExists = false) (answers : Answers) (s : System) :
    Only resource s (x.processed webhook resource answers s) :=
  (Only.tryInstall hresource hnew answers s).trans (Only.commit_update _ _ resource _ _)

theorem UuidsDiffer.processed (h : x.UuidsDiffer s)
    (hresource : determineResourceType webhook = .ok resource)
    (hnew : webhook.webhookExists = false) (answers : Answers) :
    x.UuidsDiffer (x.processed webhook resource answers s) :=
  (h.tryInstall hresource hnew answers).commit_update rfl _ _ _

/-- **No step makes two rows with one uuid**, or changes a row that its pass has still to
process. -/
theorem Inv.step (h : x.Inv s) (step : Step) : x.Inv (x.step s step) := by
  cases step with
  | fetchRows =>
    have hmem : ∀ webhook ∈ s.table.filterRows chunkSize,
        webhook ∈ s.table.rows ∧ webhook.webhookExists = false := by
      intro webhook hwebhook
      have hsorted := List.mem_mergeSort.mp (List.mem_of_mem_take hwebhook)
      rw [List.mem_filter, Bool.not_eq_true'] at hsorted
      exact hsorted
    have hapart : (s.table.filterRows chunkSize).Pairwise GitlabWebhook.Apart := by
      refine List.Pairwise.sublist (List.take_sublist _ _) ?_
      refine (List.Perm.pairwise_iff (fun h => h.symm) (List.mergeSort_perm _ _)).mpr ?_
      exact s.table.unique.filter _
    exact ⟨⟨h.distinct, h.rows_new, h.hooks_new⟩,
      fun webhook hwebhook => (hmem webhook hwebhook).1,
      fun webhook hwebhook => (hmem webhook hwebhook).2, hapart⟩
  | process answers =>
    cases hpending : s.pending with
    | nil =>
      have hstep : x.step s (.process answers) = s := by
        unfold VerifyWebhookStatus.step
        rw [hpending]
      rw [hstep]
      exact h
    | cons webhook rest =>
      cases hresource : determineResourceType webhook with
      | error e =>
        rw [step_process_of_error hpending hresource]
        exact ⟨⟨h.distinct, h.rows_new, h.hooks_new⟩, fun _ hmem => (nomatch hmem),
          fun _ hmem => (nomatch hmem), .nil⟩
      | ok resource =>
        have hfirst : webhook ∈ s.pending := by
          rw [hpending]
          exact List.mem_cons_self
        have hnew := h.pending_new webhook hfirst
        have huuids := h.toUuidsDiffer.processed hresource hnew answers
        have honly := Only.processed (x := x) hresource hnew answers s
        have hapart := h.pending_apart
        rw [hpending, List.pairwise_cons] at hapart
        obtain ⟨pending, hrest, hstep⟩ := step_process hpending hresource answers
        rw [hstep]
        have hsub : ∀ other ∈ pending, other ∈ rest := by
          rcases hrest with rfl | rfl
          · exact fun _ hmem => hmem
          · exact fun _ hmem => (nomatch hmem)
        refine ⟨⟨huuids.distinct, huuids.rows_new, huuids.hooks_new⟩, fun other hmem => ?_,
          fun other hmem => ?_, ?_⟩
        · have hother := hapart.1 other (hsub other hmem)
          refine (honly.rows other ?_).mpr (h.pending_mem other ?_)
          · exact hother.not_isRow (isRow_of_determineResourceType hresource)
          · rw [hpending]
            exact List.mem_cons_of_mem _ (hsub other hmem)
        · apply h.pending_new other
          rw [hpending]
          exact List.mem_cons_of_mem _ (hsub other hmem)
        · rcases hrest with rfl | rfl
          · exact hapart.2
          · exact .nil
  | kill =>
    exact ⟨⟨h.distinct, h.rows_new, h.hooks_new⟩, fun _ hmem => (nomatch hmem),
      fun _ hmem => (nomatch hmem), .nil⟩
  | addOwned userId groups projects now =>
    have hgrows := s.table.grows_storeWebhooks userId groups projects now
    refine ⟨⟨hgrows.distinct h.distinct, fun n hn webhook hmem => ?_, h.hooks_new⟩,
      fun webhook hmem => hgrows.kept webhook (h.pending_mem webhook hmem), h.pending_new,
      h.pending_apart⟩
    rcases hgrows.added webhook hmem with hold | ⟨-, hnone⟩
    · exact h.rows_new n hn webhook hold
    · rw [hnone]
      exact fun heq => (nomatch heq)
  | remove resource removed =>
    refine ⟨⟨h.distinct, h.rows_new, fun n hn r hook hmem => ?_⟩, h.pending_mem, h.pending_new,
      h.pending_apart⟩
    have hold : hook ∈ s.hooks r := by
      unfold VerifyWebhookStatus.step at hmem
      simp only at hmem
      split_ifs at hmem
      · exact List.mem_of_mem_filter hmem
      · exact hmem
    exact h.hooks_new n hn r hook hold

/-! ## Secrets -/

/-- Where uuids are distinct, the secret of a row is found. -/
theorem finds_of_carries {table : WebhookTable} (h : table.Distinct)
    (hwebhook : webhook ∈ table.rows) {hook : Hook} (hcarries : webhook.Carries hook) :
    table.Finds hook := by
  obtain ⟨uuid, huuid, hheader, huser, hsecret⟩ := hcarries
  refine ⟨uuid, webhook.userId, hheader, huser, ?_⟩
  rw [WebhookTable.getWebhookSecret_eq h hwebhook huuid]
  exact hsecret

/-- If nothing has changed but a row and the webhooks of its resource, the secrets are recorded if
this row has them. -/
theorem isRecorded_iff_of_only {s' : System}
    (hresource : determineResourceType webhook = .ok resource) (hrecorded : x.IsRecorded s)
    (honly : Only resource s s') (hdistinct : s'.table.Distinct) :
    x.IsRecorded s' ↔ ∀ webhook ∈ s'.table.rows, webhook.webhookExists = true →
      determineResourceType webhook = .ok resource → ∀ hook ∈ s'.hooks resource,
        hook.url = x.gitlabWebhookUrl → webhook.Carries hook := by
  constructor
  · intro h webhook hmem hexists hresource hook hhook hurl
    exact (h webhook hmem hexists resource hresource hook hhook hurl).1
  · intro h webhook hmem hexists r hr hook hhook hurl
    have hcarries : webhook.Carries hook := by
      by_cases hrow : resource.isRow webhook = true
      · obtain rfl := resource_eq_of_isRow hresource hrow hr
        exact h webhook hmem hexists hr hook hhook hurl
      · rw [Bool.not_eq_true] at hrow
        have hne : r ≠ resource := by
          rintro rfl
          rw [isRow_of_determineResourceType hr] at hrow
          cases hrow
        rw [honly.hooks r hne] at hhook
        exact (hrecorded webhook ((honly.rows webhook hrow).mp hmem) hexists r hr hook hhook
          hurl).1
    exact ⟨hcarries, finds_of_carries hdistinct hmem hcarries⟩

/-- Behind an update the secrets are recorded if the row has those of its resource. -/
theorem isRecorded_update_iff {s' : System}
    (hresource : determineResourceType webhook = .ok resource) (hmem : webhook ∈ s.table.rows)
    (hrecorded : x.IsRecorded s) (honly : Only resource s s') {fields : UpdateFields} {now : ℕ}
    (htable : s'.table = s.table.update resource fields now) (hdistinct : s'.table.Distinct) :
    x.IsRecorded s' ↔ ((webhook.set fields now).webhookExists = true →
      ∀ hook ∈ s'.hooks resource, hook.url = x.gitlabWebhookUrl →
        (webhook.set fields now).Carries hook) := by
  have hrow := isRow_of_determineResourceType hresource
  rw [isRecorded_iff_of_only hresource hrecorded honly hdistinct, htable]
  constructor
  · intro h hexists
    refine h _ ?_ hexists hresource
    exact (WebhookTable.mem_update_of_isRow hmem hrow (by rw [isRow_set, hrow])).mpr rfl
  · intro h other hother hexists hotherResource
    rw [WebhookTable.mem_update_of_isRow hmem hrow
      (isRow_of_determineResourceType hotherResource)] at hother
    subst hother
    exact h hexists

/-- A row that is deleted needs no secret. -/
theorem isRecorded_delete (h : x.UuidsDiffer s)
    (hresource : determineResourceType webhook = .ok resource) (hrecorded : x.IsRecorded s)
    (answer : DbAnswer) :
    x.IsRecorded (s.commit answer fun table => table.delete resource) := by
  rw [isRecorded_iff_of_only hresource hrecorded (Only.commit_delete s answer resource)
    (h.commit_delete answer resource).distinct]
  rcases commit_cases s answer fun table => table.delete resource with heq | heq
  · rw [heq]
    exact fun other hother hexists hotherResource hook hhook hurl =>
      (hrecorded other hother hexists resource hotherResource hook hhook hurl).1
  · rw [heq]
    intro other hother _ hotherResource
    have hnot := (WebhookTable.mem_delete_iff.mp hother).2
    rw [isRow_of_determineResourceType hotherResource] at hnot
    cases hnot

/-- The time of the last synchronization does not matter. -/
theorem isRecorded_touch_iff (s : System) (answer : DbAnswer) (resource : Resource) (now : ℕ) :
    x.IsRecorded (s.commit answer fun table => table.update resource {} now)
      ↔ x.IsRecorded s := by
  rcases commit_cases s answer fun table => table.update resource {} now with heq | heq
  · rw [heq]
  · rw [heq]
    unfold IsRecorded WebhookTable.Finds
    simp only [WebhookTable.rows_update, List.forall_mem_map,
      WebhookTable.getWebhookSecret_update]
    rfl

/-- A row adopts the webhooks on its resource: it must have their secrets. -/
theorem isRecorded_adopt_iff (h : x.UuidsDiffer s)
    (hresource : determineResourceType webhook = .ok resource) (hmem : webhook ∈ s.table.rows)
    (hrecorded : x.IsRecorded s) (answer : DbAnswer) (now : ℕ) :
    x.IsRecorded (s.commit answer fun table =>
        table.update resource { webhookExists := some true } now) ↔
      (answer ≠ .failed → ∀ hook ∈ s.hooks resource, hook.url = x.gitlabWebhookUrl →
        webhook.Carries hook) := by
  by_cases hfailed : answer = .failed
  · rw [System.commit, if_pos hfailed]
    exact ⟨fun _ hne => absurd hfailed hne, fun _ => hrecorded⟩
  · have honly := Only.commit_update s answer resource { webhookExists := some true } now
    have hdistinct := (@UuidsDiffer.commit_update x s h { webhookExists := some true } rfl answer
      resource now).distinct
    rw [System.commit, if_neg hfailed] at honly hdistinct ⊢
    rw [isRecorded_update_iff hresource hmem hrecorded honly rfl hdistinct]
    exact ⟨fun hcarries _ => hcarries rfl, fun hcarries _ => hcarries hfailed⟩

/-- A webhook that is installed does not matter to a row that does not exist yet. -/
theorem isRecorded_requestInstallation (h : x.UuidsDiffer s)
    (hresource : determineResourceType webhook = .ok resource) (hmem : webhook ∈ s.table.rows)
    (hnew : webhook.webhookExists = false) (hrecorded : x.IsRecorded s) (answers : Answers) :
    x.IsRecorded (x.requestInstallation webhook resource answers s) := by
  rw [isRecorded_iff_of_only hresource hrecorded
    (Only.requestInstallation webhook resource answers s) h.distinct]
  intro other hother hexists hotherResource
  obtain rfl := s.table.eq_of_isRow hmem hother (isRow_of_determineResourceType hresource)
    (isRow_of_determineResourceType hotherResource)
  rw [hnew] at hexists
  cases hexists

/-- A user without an id makes no request. -/
theorem ne_of_hasId {answers : Answers} (h : answers.hasId webhook = true) :
    webhook.userId ≠ "" ∧ isMade webhook.userId answers = true := by
  unfold Answers.hasId installWebhook at h
  unfold isMade
  unfold makeRequest at h ⊢
  split_ifs at h ⊢ with huser
  · cases h
  · refine ⟨huser, ?_⟩
    cases hid : answers.hookId with
    | error e =>
      rw [hid] at h
      cases h
    | ok id =>
      rw [hid] at h
      cases id with
      | none => cases h
      | some id => rfl

/-- The secret of a webhook that is installed is stored: it must be the only one of ours. -/
theorem isRecorded_installed_iff (h : x.UuidsDiffer s)
    (hresource : determineResourceType webhook = .ok resource) (hmem : webhook ∈ s.table.rows)
    (hnew : webhook.webhookExists = false) (hrecorded : x.IsRecorded s) {answers : Answers}
    (hid : answers.hasId webhook = true) :
    x.IsRecorded ((x.requestInstallation webhook resource answers s).commit
        answers.updateInstalled fun table =>
          table.update resource (x.installedFields webhook.userId s) answers.now) ↔
      (answers.updateInstalled ≠ .failed →
        ∀ hook ∈ s.hooks resource, hook.url ≠ x.gitlabWebhookUrl) := by
  have hrequested := isRecorded_requestInstallation h hresource hmem hnew hrecorded answers
  have honly := (Only.requestInstallation (x := x) webhook resource answers s).trans
    (Only.commit_update _ answers.updateInstalled resource
      (x.installedFields webhook.userId s) answers.now)
  have hdistinct := (h.commit_installed webhook resource answers).distinct
  obtain ⟨huser, hmade⟩ := ne_of_hasId hid
  by_cases hfailed : answers.updateInstalled = .failed
  · rw [System.commit, if_pos hfailed]
    exact ⟨fun _ hne => absurd hfailed hne, fun _ => hrequested⟩
  · rw [System.commit, if_neg hfailed] at honly hdistinct ⊢
    rw [isRecorded_update_iff hresource hmem hrecorded honly rfl hdistinct]
    have hhooks : (x.requestInstallation webhook resource answers s).hooks resource
        = s.hooks resource ++ [webhookData webhook.userId x.gitlabWebhookUrl
          (x.webhookSecret webhook.userId s) (x.webhookUuid s)] := if_pos ⟨rfl, hmade⟩
    show (_ → ∀ hook ∈ (x.requestInstallation webhook resource answers s).hooks resource, _) ↔ _
    rw [hhooks]
    constructor
    · -- A webhook that was there has another uuid.
      intro hcarries _ hook hhook hurl
      obtain ⟨uuid, huuid, hheader, -⟩ := hcarries rfl hook (List.mem_append_left _ hhook) hurl
      cases huuid
      exact h.hooks_new (s.drawn + 1) (by omega) resource hook hhook hheader
    · intro hnone _ hook hhook hurl
      rcases List.mem_append.mp hhook with hold | hinstalled
      · exact absurd hurl (hnone hfailed hook hold)
      · rw [List.mem_singleton.mp hinstalled]
        obtain ⟨hheader, huserHeader⟩ := @header_webhookData_of_ne webhook.userId
          x.gitlabWebhookUrl (x.webhookSecret webhook.userId s) (x.webhookUuid s) huser
        exact ⟨_, rfl, hheader, huserHeader, rfl⟩

/-- **The secrets behind a row**: what it adopts or installs must be all there is of ours. -/
theorem isRecorded_processed_iff (h : x.UuidsDiffer s)
    (hresource : determineResourceType webhook = .ok resource) (hmem : webhook ∈ s.table.rows)
    (hnew : webhook.webhookExists = false) (hrecorded : x.IsRecorded s) (answers : Answers) :
    x.IsRecorded (x.processed webhook resource answers s) ↔
      (answers.exists? webhook = .ok true → answers.admin? webhook = .ok true →
        (answers.found? webhook (s.hooks resource) x.gitlabWebhookUrl = .ok true →
          answers.updateFound ≠ .failed → ∀ hook ∈ s.hooks resource,
            hook.url = x.gitlabWebhookUrl → webhook.Carries hook) ∧
        (answers.found? webhook (s.hooks resource) x.gitlabWebhookUrl ≠ .ok true →
          answers.found? webhook (s.hooks resource) x.gitlabWebhookUrl ≠ .error .rateLimitError →
          answers.hasId webhook = true → answers.updateInstalled ≠ .failed →
          ∀ hook ∈ s.hooks resource, hook.url ≠ x.gitlabWebhookUrl)) := by
  unfold processed
  rw [isRecorded_touch_iff, x.tryInstall_snd hresource hnew]
  simp only [← verdict_eq_passed_iff, ← verdict_eq_limited_iff, ne_eq]
  cases verdict (answers.exists? webhook) with
  | limited => simp [hrecorded]
  | refused => simp [isRecorded_delete h hresource hrecorded]
  | passed =>
    cases verdict (answers.admin? webhook) with
    | limited => simp [hrecorded]
    | refused => simp [isRecorded_delete h hresource hrecorded]
    | passed =>
      cases verdict (answers.found? webhook (s.hooks resource) x.gitlabWebhookUrl) with
      | limited => simp [hrecorded]
      | passed => simp [isRecorded_adopt_iff h hresource hmem hrecorded]
      | refused =>
        simp only [reduceCtorEq, not_false_eq_true, forall_const, IsEmpty.forall_iff, true_and]
        split_ifs with hid
        · rw [isRecorded_installed_iff h hresource hmem hnew hrecorded hid]
          simp [hid]
        · simp [hid, isRecorded_requestInstallation h hresource hmem hnew hrecorded]

/-! ## Deleted rows -/

/-- The row is not in the table any more. -/
def IsLost (s : System) (webhook : GitlabWebhook) : Prop :=
  ∀ other ∈ s.table.rows, ¬ webhook.SameIds other

theorem not_isLost (h : webhook ∈ s.table.rows) : ¬ IsLost s webhook :=
  fun hlost => hlost webhook h ⟨rfl, rfl⟩

/-- An update loses no row. -/
theorem isLost_commit_update_iff (s : System) (answer : DbAnswer) (resource : Resource)
    (fields : UpdateFields) (now : ℕ) (other : GitlabWebhook) :
    IsLost (s.commit answer fun table => table.update resource fields now) other
      ↔ IsLost s other := by
  rcases commit_cases s answer fun table => table.update resource fields now with heq | heq
  · rw [heq]
  · rw [heq]
    unfold IsLost WebhookTable.update
    rw [List.forall_mem_map]
    refine forall₂_congr fun stored _ => ?_
    split_ifs <;> rfl

theorem isRow_eq_of_sameIds {other : GitlabWebhook} (h : webhook.SameIds other) :
    resource.isRow webhook = resource.isRow other := by
  obtain ⟨hgroup, hproject⟩ := h
  cases resource with
  | group id =>
    show decide (webhook.groupId = some id) = decide (other.groupId = some id)
    rw [hgroup]
  | project id =>
    show decide (webhook.projectId = some id) = decide (other.projectId = some id)
    rw [hproject]

theorem isLost_commit_delete_iff {other : GitlabWebhook} (hmem : other ∈ s.table.rows)
    (answer : DbAnswer) (resource : Resource) :
    IsLost (s.commit answer fun table => table.delete resource) other
      ↔ answer ≠ .failed ∧ resource.isRow other = true := by
  by_cases hfailed : answer = .failed
  · rw [System.commit, if_pos hfailed]
    exact ⟨fun hlost => absurd hlost (not_isLost hmem), fun h => absurd hfailed h.1⟩
  · rw [System.commit, if_neg hfailed, and_iff_right hfailed]
    constructor
    · intro hlost
      by_contra hrow
      rw [Bool.not_eq_true] at hrow
      exact hlost other (WebhookTable.mem_delete_iff.mpr ⟨hmem, hrow⟩) ⟨rfl, rfl⟩
    · intro hrow stored hstored hsame
      have hnot := (WebhookTable.mem_delete_iff.mp hstored).2
      rw [← isRow_eq_of_sameIds hsame, hrow] at hnot
      cases hnot

/-- The row that is processed is deleted if one of the first two requests refuses it. -/
theorem isLost_processed_iff (hresource : determineResourceType webhook = .ok resource)
    (hnew : webhook.webhookExists = false) (answers : Answers) {other : GitlabWebhook}
    (hother : other ∈ s.table.rows) :
    IsLost (x.processed webhook resource answers s) other ↔
      (answers.delete ≠ .failed ∧ resource.isRow other = true) ∧
        (verdict (answers.exists? webhook) = .refused ∨
          verdict (answers.exists? webhook) = .passed ∧
            verdict (answers.admin? webhook) = .refused) := by
  unfold processed
  rw [isLost_commit_update_iff, x.tryInstall_snd hresource hnew]
  cases verdict (answers.exists? webhook) with
  | limited => simp [not_isLost hother]
  | refused => simp [isLost_commit_delete_iff hother]
  | passed =>
    cases verdict (answers.admin? webhook) with
    | limited => simp [not_isLost hother]
    | refused => simp [isLost_commit_delete_iff hother]
    | passed =>
      have hkept : ¬ IsLost (x.requestInstallation webhook resource answers s) other :=
        not_isLost hother
      cases verdict (answers.found? webhook (s.hooks resource) x.gitlabWebhookUrl) with
      | limited => simp [not_isLost hother]
      | passed => simp [isLost_commit_update_iff, not_isLost hother]
      | refused =>
        simp only
        split_ifs
        · simp [isLost_commit_update_iff, hkept]
        · simp [hkept]

/-- A row is deleted behind an answer if its requests are answered. -/
theorem deletesOnAnswer_process_iff (h : x.Inv s) {rest : List GitlabWebhook}
    (hpending : s.pending = webhook :: rest)
    (hresource : determineResourceType webhook = .ok resource) (answers : Answers) :
    x.DeletesOnAnswer s (.process answers) ↔
      (IsAnswered (answers.exists? webhook) ∨ answers.delete = .failed) ∧
        (answers.exists? webhook = .ok true →
          IsAnswered (answers.admin? webhook) ∨ answers.delete = .failed) := by
  have hfirst : webhook ∈ s.pending := by
    rw [hpending]
    exact List.mem_cons_self
  have hmem := h.pending_mem webhook hfirst
  have hlost := fun other => @isLost_processed_iff webhook resource x s hresource
    (h.pending_new webhook hfirst) answers other
  have hrow := isRow_of_determineResourceType hresource
  obtain ⟨pending, -, hstep⟩ := step_process hpending hresource answers
  unfold DeletesOnAnswer
  rw [hstep]
  change (∀ other ∈ s.table.rows, IsLost (x.processed webhook resource answers s) other → _) ↔ _
  constructor
  · intro hdeletes
    -- Whenever the row is deleted, the answers say no.
    have hsays : answers.delete ≠ .failed ∧
        (verdict (answers.exists? webhook) = .refused ∨
          verdict (answers.exists? webhook) = .passed ∧
            verdict (answers.admin? webhook) = .refused) → answers.SayNo webhook := by
      rintro ⟨hfailed, hrefused⟩
      obtain ⟨answers', next, rest', hanswers, hnext, -, hsay⟩ :=
        hdeletes webhook hmem ((hlost webhook hmem).mpr ⟨⟨hfailed, hrow⟩, hrefused⟩)
      cases hanswers
      rw [hpending] at hnext
      cases hnext
      exact hsay
    constructor
    · by_contra hnot
      rw [not_or] at hnot
      have hrefused : verdict (answers.exists? webhook) = .refused :=
        of_not_not fun hne => hnot.1 (isAnswered_of_ne hne)
      rcases hsays ⟨hnot.2, Or.inl hrefused⟩ with hno | ⟨hyes, -⟩
      · exact hnot.1 ((saysNo_iff_isAnswered hrefused).mp hno)
      · rw [hyes] at hrefused
        cases hrefused
    · intro hexists
      by_contra hnot
      rw [not_or] at hnot
      have hrefused : verdict (answers.admin? webhook) = .refused :=
        of_not_not fun hne => hnot.1 (isAnswered_of_ne hne)
      rcases hsays ⟨hnot.2, Or.inr ⟨verdict_eq_passed_iff.mpr hexists, hrefused⟩⟩ with
        hno | ⟨-, hno⟩
      · rw [hexists] at hno
        rcases hno with hno | hno <;> cases hno
      · exact hnot.1 ((saysNo_iff_isAnswered hrefused).mp hno)
  · rintro ⟨hexistence, hadmin⟩ other hother hdeleted
    obtain ⟨⟨hfailed, hotherRow⟩, hrefused⟩ := (hlost other hother).mp hdeleted
    obtain rfl := s.table.eq_of_isRow hmem hother hrow hotherRow
    refine ⟨answers, other, rest, rfl, hpending, ⟨rfl, rfl⟩, ?_⟩
    rcases hrefused with hrefused | ⟨hpassed, hrefused⟩
    · exact Or.inl ((saysNo_iff_isAnswered hrefused).mpr (hexistence.resolve_right hfailed))
    · have hexists := verdict_eq_passed_iff.mp hpassed
      exact Or.inr ⟨hexists, (saysNo_iff_isAnswered hrefused).mpr
        ((hadmin hexists).resolve_right hfailed)⟩

/-! ## Runs -/

/-- A step that keeps every row deletes none. -/
theorem deletesOnAnswer_of_kept {step : Step}
    (h : ∀ webhook ∈ s.table.rows, webhook ∈ (x.step s step).table.rows) :
    x.DeletesOnAnswer s step :=
  fun webhook hmem hlost => absurd hlost (not_isLost (h webhook hmem))

/-- A step that only changes the current pass forgets nothing. -/
theorem isKept_of_pending (hrecorded : x.IsRecorded s) {step : Step}
    {pending : List GitlabWebhook} (hstep : x.step s step = { s with pending := pending }) :
    x.IsKept s step := by
  refine ⟨?_, deletesOnAnswer_of_kept ?_⟩
  all_goals rw [hstep]
  · exact hrecorded
  · exact fun _ hmem => hmem

/-- Only a pass can forget secrets or delete rows. -/
theorem isKept_of_ne_process (h : x.Inv s) (hrecorded : x.IsRecorded s) {step : Step}
    (hstep : ∀ answers, step ≠ .process answers) : x.IsKept s step := by
  cases step with
  | process answers => exact absurd rfl (hstep answers)
  | fetchRows => exact isKept_of_pending hrecorded rfl
  | kill => exact isKept_of_pending hrecorded rfl
  | addOwned userId groups projects now =>
    have hgrows := s.table.grows_storeWebhooks userId groups projects now
    refine ⟨fun webhook hmem hexists resource hresource hook hhook hurl => ?_,
      deletesOnAnswer_of_kept hgrows.kept⟩
    rcases hgrows.added webhook hmem with hold | ⟨hnew, -⟩
    · have hcarries := (hrecorded webhook hold hexists resource hresource hook hhook hurl).1
      exact ⟨hcarries, finds_of_carries (hgrows.distinct h.distinct) hmem hcarries⟩
    · rw [hnew] at hexists
      cases hexists
  | remove resource removed =>
    refine ⟨fun webhook hmem hexists r hr hook hhook hurl => ?_,
      deletesOnAnswer_of_kept fun _ hmem => hmem⟩
    have hold : hook ∈ s.hooks r := by
      unfold VerifyWebhookStatus.step at hhook
      simp only at hhook
      split_ifs at hhook
      · exact List.mem_of_mem_filter hhook
      · exact hhook
    exact hrecorded webhook hmem hexists r hr hook hold hurl

/-- **A row that is processed** keeps the secrets, and is deleted only if it may be, exactly if it
can be processed. -/
theorem isKept_process_iff (h : x.Inv s) (hrecorded : x.IsRecorded s)
    {rest : List GitlabWebhook} (hpending : s.pending = webhook :: rest)
    (hresource : determineResourceType webhook = .ok resource) (answers : Answers) :
    x.IsKept s (.process answers) ↔ x.IsSafe s webhook resource answers := by
  have hfirst : webhook ∈ s.pending := by
    rw [hpending]
    exact List.mem_cons_self
  have hsecrets := isRecorded_processed_iff h.toUuidsDiffer hresource
    (h.pending_mem webhook hfirst) (h.pending_new webhook hfirst) hrecorded answers
  obtain ⟨pending, -, hstep⟩ := step_process (x := x) hpending hresource answers
  unfold IsKept
  rw [deletesOnAnswer_process_iff h hpending hresource, hstep]
  change x.IsRecorded (x.processed webhook resource answers s) ∧ _ ↔ _
  rw [hsecrets]
  constructor
  · rintro ⟨hprocess, hexistence, hadmin⟩
    exact ⟨hexistence, hadmin, fun hexists hadmins => (hprocess hexists hadmins).1,
      fun hexists hadmins => (hprocess hexists hadmins).2⟩
  · intro hsafe
    exact ⟨fun hexists hadmins => ⟨hsafe.adoption hexists hadmins,
      hsafe.installation hexists hadmins⟩, hsafe.existence, hsafe.admin⟩

theorem isKept_iff_admissible (h : x.Inv s) (hrecorded : x.IsRecorded s) (step : Step) :
    x.IsKept s step ↔ x.Admissible s step := by
  by_cases hprocess : ∃ answers, step = .process answers
  · obtain ⟨answers, rfl⟩ := hprocess
    cases hpending : s.pending with
    | nil =>
      -- There is no row to process.
      have hstep : x.step s (.process answers) = { s with pending := s.pending } := by
        unfold VerifyWebhookStatus.step
        rw [hpending]
      refine ⟨fun _ answers' webhook rest resource _ hnext => ?_,
        fun _ => isKept_of_pending hrecorded hstep⟩
      rw [hpending] at hnext
      cases hnext
    | cons webhook rest =>
      cases hresource : determineResourceType webhook with
      | error e =>
        have hstep := step_process_of_error (x := x) hpending hresource answers
        refine ⟨fun _ answers' webhook' rest' resource _ hnext hok => ?_,
          fun _ => isKept_of_pending hrecorded hstep⟩
        rw [hpending] at hnext
        cases hnext
        rw [hresource] at hok
        cases hok
      | ok resource =>
        rw [isKept_process_iff h hrecorded hpending hresource]
        constructor
        · intro hsafe answers' webhook' rest' resource' hanswers hnext hok
          cases hanswers
          rw [hpending] at hnext
          cases hnext
          rw [hresource] at hok
          cases hok
          exact hsafe
        · exact fun hadmissible =>
            hadmissible answers webhook rest resource rfl hpending hresource
  · have hne : ∀ answers, step ≠ .process answers :=
      fun answers heq => hprocess ⟨answers, heq⟩
    exact ⟨fun _ answers webhook rest resource heq => absurd heq (hne answers),
      fun _ => isKept_of_ne_process h hrecorded hne⟩

/-- **The secrets of a run**: behind every step every row whose webhook exists has the secret of
the webhooks on its resource, and no row is deleted without an answer, exactly if every step can be
made. -/
theorem forall_isKept_iff (h : x.IsInitial s) (labels : List Step) :
    (∀ p ∈ steps x.step s labels, x.IsKept p.1 p.2) ↔
      ∀ p ∈ steps x.step s labels, x.Admissible p.1 p.2 := by
  refine forall_steps_iff (I := fun s => x.Inv s ∧ x.IsRecorded s) ?_ ?_
    ⟨h.inv, h.recorded⟩
  · rintro s step ⟨hinv, hrecorded⟩
    exact isKept_iff_admissible hinv hrecorded step
  · rintro s step ⟨hinv, hrecorded⟩ hadmissible
    exact ⟨hinv.step step, ((isKept_iff_admissible hinv hrecorded step).mpr hadmissible).1⟩

end VerifyWebhookStatus

end

/-- A process whose uuids are longer and longer. -/
def unary : VerifyWebhookStatus where
  uuid4 n := String.ofList (List.replicate n '0')
  uuid4_injective := by
    intro n m h
    have hlists := String.ofList_injective h
    rw [← List.length_replicate (n := n) (a := '0'), hlists, List.length_replicate]
  gitlabWebhookUrl := "https://app.all-hands.dev/integration/gitlab/events"

/-- A project that a user owns, without a webhook. -/
def ownedProject : GitlabWebhook where
  groupId := none
  projectId := some "42"
  userId := "ann"
  webhookExists := false
  lastSynced := none

def oneProject : System where
  table := ⟨[ownedProject], List.pairwise_singleton _ _⟩
  hooks := fun _ => []
  pending := []
  drawn := 0

theorem isInitial_oneProject : unary.IsInitial oneProject where
  distinct := List.pairwise_singleton _ _
  rows_new := fun n _ webhook hmem => by
    rw [List.mem_singleton.mp hmem]
    exact fun h => (nomatch h)
  hooks_new := fun n _ resource hook hmem => (nomatch hmem)
  pending := rfl
  recorded := fun webhook hmem hexists => by
    rw [List.mem_singleton.mp hmem] at hexists
    cases hexists

/-- GitLab answers everything, and installs the webhook. -/
def willing : Answers where
  resource := .ok true
  members := .ok [⟨"7", 50⟩]
  user := .ok "7"
  hooks := .ok fun _ => true
  made := true
  hookId := .ok (some "1001")
  now := 1

/-- The webhook is installed, but its secret cannot be stored; the next pass finds the webhook. -/
def unstoredSecret : List VerifyWebhookStatus.Step :=
  [.fetchRows, .process { willing with updateInstalled := .failed }, .fetchRows, .process willing]

theorem run_unstoredSecret :
    (run unary.step oneProject unstoredSecret).table.rows
        = [{ ownedProject with webhookExists := true, lastSynced := some 1 }] ∧
      (run unary.step oneProject unstoredSecret).hooks (.project "42")
        = [webhookData "ann" unary.gitlabWebhookUrl "ann-" "0"] := by
  decide +kernel

/-- The row exists then, without a secret. -/
theorem rows_unstoredSecret : (run unary.step oneProject unstoredSecret).table.rows
    = [{ ownedProject with webhookExists := true, lastSynced := some 1 }] :=
  run_unstoredSecret.1

theorem hooks_unstoredSecret : (run unary.step oneProject unstoredSecret).hooks (.project "42")
    = [webhookData "ann" unary.gitlabWebhookUrl "ann-" "0"] :=
  run_unstoredSecret.2

/-- The first half of what every run should keep fails. -/
theorem not_isKept_unstoredSecret :
    ¬ ∀ p ∈ steps unary.step oneProject unstoredSecret, unary.IsKept p.1 p.2 := by
  intro h
  have hrecorded : unary.IsRecorded (run unary.step oneProject unstoredSecret) :=
    (h (run unary.step oneProject (unstoredSecret.take 3), .process willing)
      (.tail _ (.tail _ (.tail _ (.head _))))).1
  have hrow := hrecorded _ (by rw [rows_unstoredSecret]; exact List.mem_cons_self) rfl
    (.project "42") rfl _ (by rw [hooks_unstoredSecret]; exact List.mem_cons_self) rfl
  obtain ⟨⟨uuid, huuid, -⟩, -⟩ := hrow
  cases huuid

/-- Where nothing fails, the secret is stored. -/
theorem isKept_oneProject : unary.IsInitial oneProject ∧
    ∀ p ∈ steps unary.step oneProject [.fetchRows, .process willing], unary.IsKept p.1 p.2 := by
  refine ⟨isInitial_oneProject,
    (VerifyWebhookStatus.forall_isKept_iff isInitial_oneProject _).mpr ?_⟩
  have hanswered : ∀ answer, answer = .ok true → IsAnswered answer := by
    rintro answer rfl e he
    cases he
  rw [steps_cons, steps_cons, steps_nil, List.forall_mem_cons, List.forall_mem_singleton]
  refine ⟨fun answers webhook rest resource hstep => (nomatch hstep), ?_⟩
  rintro answers webhook rest resource hstep hpending -
  cases hstep
  have hrows : (unary.step oneProject .fetchRows).pending = [ownedProject] := by
    show ([ownedProject].mergeSort _).take _ = _
    rw [List.mergeSort_singleton]
    rfl
  rw [hrows] at hpending
  cases hpending
  have hnone : (unary.step oneProject .fetchRows).hooks resource = [] := rfl
  refine ⟨Or.inl (hanswered _ rfl), fun _ => Or.inl (hanswered _ rfl), ?_, ?_⟩
  all_goals rw [hnone]
  · exact fun _ _ _ _ hook hmem => (nomatch hmem)
  · exact fun _ _ _ _ _ _ hook hmem => (nomatch hmem)

end OpenHands.GitlabWebhooks
