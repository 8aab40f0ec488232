/-
# Updates of a conversation by its sandbox

A sandbox reports its conversation whenever it starts, pauses or resumes.  The handler looks up
the stored conversation, makes a new record of what the report says and of some fields of the
stored one, and saves it as a whole row.  The fields that it does not take over are those of a
new record.
-/
import OpenHands.AppConversationInfos
import OpenHands.Lib.Run
import OpenHands.Sandboxes

namespace OpenHands.AppServer

open Run Sandboxes

/-- What a sandbox reports: the id of the conversation and the model of its agent. -/
structure ConversationInfo where
  id : String
  llmModel : String
  deriving DecidableEq, Repr

/-- `id.hex`. -/
def hex (id : String) : String := String.ofList (id.toList.filter (· ≠ '-'))

/-- The title of a conversation that has none. -/
def defaultTitle (id : String) : String := "Conversation " ++ hex id

/-- A request to the webhook, with the sandbox service that answers for it and the time at which
the new record is made. -/
structure WebhookCall where
  service : SandboxService
  sandboxId : String
  sessionApiKey : Option String
  llmModel : String
  now : ℤ
  updatedAt : ℤ

/-- What the webhook raises. -/
inductive WebhookError where
  | sandbox (raised : Raised)
  | authError
  /-- The stored row cannot be read. -/
  | unreadable
  | assertionError

/-- `valid_conversation`. -/
def validConversation (sdk : Sdk) (table : Table) (conversationId : String)
    (sandboxInfo : SandboxInfo) (now : ℤ) : Except WebhookError AppConversationInfo :=
  match getAppConversationInfo sdk none table conversationId with
  | none => .error .unreadable
  | some none => .ok
      { id := conversationId
        sandboxId := sandboxInfo.id
        createdByUserId := sandboxInfo.createdByUserId
        createdAt := now
        updatedAt := now }
  | some (some info) =>
    if info.createdByUserId ≠ sandboxInfo.createdByUserId then .error .authError else .ok info

/-- The record that the handler makes. -/
def updatedInfo (existing : AppConversationInfo) (conversationInfo : ConversationInfo)
    (sandboxInfo : SandboxInfo) (call : WebhookCall) : AppConversationInfo where
  id := conversationInfo.id
  title := some ((truthy existing.title).getD (defaultTitle conversationInfo.id))
  sandboxId := sandboxInfo.id
  createdByUserId := sandboxInfo.createdByUserId
  llmModel := some conversationInfo.llmModel
  selectedRepository := existing.selectedRepository
  selectedBranch := existing.selectedBranch
  gitProvider := existing.gitProvider
  trigger := existing.trigger
  prNumber := existing.prNumber
  createdAt := call.now
  updatedAt := call.updatedAt

/-- `on_conversation_update`; webhooks are requests without a user. -/
def onConversationUpdate (sdk : Sdk) (conversationId : String) (call : WebhookCall)
    (table : Table) : Except WebhookError Table :=
  match validSandbox call.service call.sandboxId call.sessionApiKey with
  | .error raised => .error (.sandbox raised)
  | .ok sandboxInfo =>
    let conversationInfo : ConversationInfo := ⟨conversationId, call.llmModel⟩
    match validConversation sdk table conversationInfo.id sandboxInfo call.now with
    | .error error => .error error
    | .ok existing =>
      match saveAppConversationInfo sdk none
          (updatedInfo existing conversationInfo sandboxInfo call) table with
      | none => .error .assertionError
      | some table => .ok table

/-- A request that raises leaves the table. -/
def performUpdate (sdk : Sdk) (conversationId : String) (table : Table) (call : WebhookCall) :
    Table :=
  (onConversationUpdate sdk conversationId call table).toOption.getD table

/-- The fields that a report does not carry; a title counts if it has been set. -/
structure StoredConversationMetadata.Carried (row row' : StoredConversationMetadata) : Prop where
  parentConversationId : row'.parentConversationId = row.parentConversationId
  metrics : row'.metrics = row.metrics
  createdAt : row'.createdAt = row.createdAt
  selectedRepository : row'.selectedRepository = row.selectedRepository
  selectedBranch : row'.selectedBranch = row.selectedBranch
  gitProvider : row'.gitProvider = row.gitProvider
  prNumber : row'.prNumber = row.prNumber
  title : ∀ title ∈ truthy row.title, row'.title = some title
  trigger : row'.trigger = row.trigger

/-- A request keeps these fields of the conversation if it is stored. -/
def KeepsFields (conversationId : String) (table table' : Table) : Prop :=
  ∀ row, table.get? conversationId = some row →
    ∃ row', table'.get? conversationId = some row' ∧ row.Carried row'

/-- A stored conversation has nothing to lose: it has no parent and the metrics of a new one, it
was created at this moment, and what is read of it is what is there. -/
structure NothingToLose (sdk : Sdk) (conversationId : String) (now : ℤ)
    (row : StoredConversationMetadata) : Prop where
  parentConversationId : row.parentConversationId = none
  metrics : row.metrics = sdk.writeMetrics none row.metrics.reasoningTokens
  createdAt : row.createdAt = some now
  readable : row.conversationVersion = "V1" ∧ row.gitProvider ≠ some "" ∧ row.trigger ≠ some "" ∨
    row.conversationVersion ≠ "V1" ∧ row.selectedRepository = none ∧ row.selectedBranch = none ∧
      row.gitProvider = none ∧ row.prNumber = some [] ∧
      (∀ title ∈ truthy row.title, title = defaultTitle conversationId) ∧ row.trigger = none

/-- The request is one of a sandbox that may update the conversation. -/
def Admitted (sdk : Sdk) (conversationId : String) (table : Table) (call : WebhookCall) : Prop :=
  ∃ sandboxInfo existing,
    validSandbox call.service call.sandboxId call.sessionApiKey = .ok sandboxInfo ∧
      validConversation sdk table conversationId sandboxInfo call.now = .ok existing

/-- A conversation that a sandbox may update has nothing to lose by it. -/
def MayUpdate (sdk : Sdk) (conversationId : String) (table : Table) (call : WebhookCall) : Prop :=
  Admitted sdk conversationId table call →
    ∀ row, table.get? conversationId = some row →
      NothingToLose sdk conversationId call.now row

/-! ## What is read and written back -/

/-- A member that was read is written back under the value that was read, unless that is the
empty string. -/
theorem readMember_roundTrip {ε : Type} {ofValue? : String → Option ε} {value : ε → String}
    (hvalue : ∀ text member, ofValue? text = some member → value member = text)
    {column : Option String} {member : Option ε}
    (h : readMember ofValue? column = some member) :
    member.map value = column ↔ column ≠ some "" := by
  unfold readMember truthy at h
  cases column with
  | none =>
    cases h
    simp
  | some text =>
    by_cases htext : text = ""
    · subst htext
      cases h
      simp
    · have hfilter : (some text).filter (· ≠ "") = some text := by simp [htext]
      rw [hfilter] at h
      obtain ⟨found, hfound, rfl⟩ := Option.map_eq_some_iff.mp h
      simp [hvalue text found hfound, htext]

theorem value_of_ofValue? {text : String} {provider : ProviderType}
    (h : ProviderType.ofValue? text = some provider) : provider.value = text := by
  have hfound := List.find?_some h
  exact of_decide_eq_true hfound

theorem ConversationTrigger.value_of_ofValue? {text : String} {trigger : ConversationTrigger}
    (h : ConversationTrigger.ofValue? text = some trigger) : trigger.value = text := by
  have hfound := List.find?_some h
  exact of_decide_eq_true hfound

variable {sdk : Sdk} {conversationId : String} {table : Table} {call : WebhookCall}
variable {row : StoredConversationMetadata} {sandboxInfo : SandboxInfo}
variable {existing : AppConversationInfo}

/-- What the handler takes over of a row that could be read. -/
structure ReadFrom (row : StoredConversationMetadata) (info : AppConversationInfo) : Prop where
  selectedRepository : info.selectedRepository = row.selectedRepository
  selectedBranch : info.selectedBranch = row.selectedBranch
  gitProvider : readMember ProviderType.ofValue? row.gitProvider = some info.gitProvider
  title : info.title = row.title
  trigger : readMember ConversationTrigger.ofValue? row.trigger = some info.trigger
  prNumber : row.prNumber = some info.prNumber

theorem readFrom_of_toInfo {subConversationIds : List String} {info : AppConversationInfo}
    (h : sdk.toInfo conversationId row subConversationIds = some info) : ReadFrom row info := by
  unfold Sdk.toInfo at h
  simp only [Option.bind_eq_bind, Option.bind_eq_some_iff, Option.pure_def,
    Option.some.injEq] at h
  obtain ⟨sandboxId, -, metrics, -, createdAt, -, updatedAt, -, gitProvider, hprovider, trigger,
    htrigger, prNumber, hnumber, rfl⟩ := h
  exact ⟨rfl, rfl, hprovider, rfl, htrigger, hnumber⟩

/-- The record that the handler starts from is read from the row, or a stub if the row is not one
of the app server. -/
theorem validConversation_cases (hrow : table.get? conversationId = some row)
    (h : validConversation sdk table conversationId sandboxInfo call.now = .ok existing) :
    (row.conversationVersion = "V1" ∧ ReadFrom row existing) ∨
      row.conversationVersion ≠ "V1" ∧ existing =
        { id := conversationId
          sandboxId := sandboxInfo.id
          createdByUserId := sandboxInfo.createdByUserId
          createdAt := call.now
          updatedAt := call.now } := by
  unfold validConversation getAppConversationInfo at h
  rw [hrow] at h
  by_cases hversion : row.conversationVersion = "V1"
  · left
    refine ⟨hversion, ?_⟩
    have hvisible : row.visible none = true := by
      unfold StoredConversationMetadata.visible truthy
      simp [hversion]
    rw [Option.filter_some, if_pos hvisible] at h
    cases hinfo : sdk.toInfo conversationId row
        (getSubConversationIds none table conversationId) with
    | none =>
      simp only [hinfo, Option.map_none] at h
      cases h
    | some info =>
      simp only [hinfo, Option.map_some] at h
      split at h
      next => cases h
      next =>
        cases h
        exact readFrom_of_toInfo hinfo
  · right
    refine ⟨hversion, ?_⟩
    have hhidden : row.visible none = false := by
      unfold StoredConversationMetadata.visible
      simp [hversion]
    rw [Option.filter_some, if_neg (by rw [hhidden]; exact Bool.false_ne_true)] at h
    cases h
    rfl

/-- The row that the handler writes keeps the fields if and only if there was nothing to lose. -/
theorem carried_iff (hrow : table.get? conversationId = some row)
    (hexisting : validConversation sdk table conversationId sandboxInfo call.now = .ok existing) :
    row.Carried (sdk.toStored (updatedInfo existing ⟨conversationId, call.llmModel⟩ sandboxInfo call)
      (some row)) ↔ NothingToLose sdk conversationId call.now row := by
  rcases validConversation_cases hrow hexisting with ⟨hversion, hread⟩ | ⟨hversion, rfl⟩
  · have hprovider := readMember_roundTrip (fun _ _ => value_of_ofValue?) hread.gitProvider
    have htrigger :=
      readMember_roundTrip (fun _ _ => ConversationTrigger.value_of_ofValue?) hread.trigger
    constructor
    · intro h
      exact ⟨h.parentConversationId.symm, h.metrics.symm, h.createdAt.symm,
        Or.inl ⟨hversion, hprovider.mp h.gitProvider, htrigger.mp h.trigger⟩⟩
    · intro h
      rcases h.readable with ⟨-, hprovider', htrigger'⟩ | ⟨hne, -⟩
      · refine ⟨h.parentConversationId.symm, h.metrics.symm, h.createdAt.symm,
          hread.selectedRepository, hread.selectedBranch, hprovider.mpr hprovider',
          hread.prNumber.symm, fun title htitle => ?_, htrigger.mpr htrigger'⟩
        show some ((truthy existing.title).getD _) = some title
        rw [hread.title, htitle]
        rfl
      · exact absurd hversion hne
  · constructor
    · intro h
      refine ⟨h.parentConversationId.symm, h.metrics.symm, h.createdAt.symm,
        Or.inr ⟨hversion, h.selectedRepository.symm, h.selectedBranch.symm, h.gitProvider.symm,
          h.prNumber.symm, fun title htitle => ?_, h.trigger.symm⟩⟩
      -- the stub has no title, so the one that was set is replaced
      exact (Option.some.inj (h.title title htitle)).symm
    · intro h
      rcases h.readable with ⟨heq, -⟩ | ⟨-, hrepository, hbranch, hprovider, hnumber, htitle,
        htrigger⟩
      · exact absurd heq hversion
      · refine ⟨h.parentConversationId.symm, h.metrics.symm, h.createdAt.symm,
          hrepository.symm, hbranch.symm, hprovider.symm, hnumber.symm, fun title ht => ?_,
          htrigger.symm⟩
        rw [htitle title ht]
        rfl

/-! ## Requests one after another -/

/-- A request that is not admitted changes nothing; any other writes the row of the new record. -/
theorem performUpdate_cases (sdk : Sdk) (conversationId : String) (table : Table)
    (call : WebhookCall) :
    (¬ Admitted sdk conversationId table call ∧
        performUpdate sdk conversationId table call = table) ∨
      ∃ sandboxInfo existing,
        Admitted sdk conversationId table call ∧
        validConversation sdk table conversationId sandboxInfo call.now = .ok existing ∧
        performUpdate sdk conversationId table call = table.set conversationId
          (sdk.toStored (updatedInfo existing ⟨conversationId, call.llmModel⟩ sandboxInfo call)
            (table.get? conversationId)) := by
  unfold performUpdate onConversationUpdate
  cases hsandbox : validSandbox call.service call.sandboxId call.sessionApiKey with
  | error raised =>
    left
    refine ⟨?_, rfl⟩
    rintro ⟨sandboxInfo, existing, hvalid, -⟩
    rw [hsandbox] at hvalid
    cases hvalid
  | ok sandboxInfo =>
    cases hexisting : validConversation sdk table conversationId sandboxInfo call.now with
    | error error =>
      left
      simp only [hexisting]
      refine ⟨?_, rfl⟩
      rintro ⟨sandboxInfo', existing, hvalid, hvalid'⟩
      rw [hsandbox] at hvalid
      cases hvalid
      rw [hexisting] at hvalid'
      cases hvalid'
    | ok existing =>
      right
      refine ⟨sandboxInfo, existing, ⟨sandboxInfo, existing, hsandbox, hexisting⟩, hexisting, ?_⟩
      -- requests without a user may save every conversation
      have hsave : ∀ info : AppConversationInfo, saveAppConversationInfo sdk none info table
          = some (table.set info.id (sdk.toStored info (table.get? info.id))) := by
        intro info
        unfold saveAppConversationInfo truthy
        simp
      simp only [hexisting, hsave]
      rfl

/-- A request keeps the fields if and only if it may. -/
theorem keepsFields_performUpdate_iff (sdk : Sdk) (conversationId : String) (table : Table)
    (call : WebhookCall) :
    KeepsFields conversationId table (performUpdate sdk conversationId table call) ↔
      MayUpdate sdk conversationId table call := by
  rcases performUpdate_cases sdk conversationId table call with
    ⟨hnot, heq⟩ | ⟨sandboxInfo, existing, hadmitted, hexisting, heq⟩
  · rw [heq]
    refine iff_of_true (fun row hrow => ⟨row, hrow, ?_⟩) fun h => absurd h hnot
    refine ⟨rfl, rfl, rfl, rfl, rfl, rfl, rfl, fun title htitle => ?_, rfl⟩
    exact (Option.filter_eq_some_iff.mp htitle).1
  · rw [heq]
    constructor
    · intro hkeeps _ row hrow
      obtain ⟨row', hrow', hcarried⟩ := hkeeps row hrow
      rw [PyDict.get?_set, if_pos rfl, hrow] at hrow'
      cases hrow'
      exact (carried_iff hrow hexisting).mp hcarried
    · intro hmay row hrow
      refine ⟨_, by rw [PyDict.get?_set, if_pos rfl], ?_⟩
      rw [hrow]
      exact (carried_iff hrow hexisting).mpr (hmay hadmitted row hrow)

/-- **The fields that a report does not carry keep their values** through a sequence of requests
for a conversation if and only if each request that is admitted finds it with nothing to lose. -/
theorem keepsFields_steps_iff (sdk : Sdk) (conversationId : String) (table : Table)
    (calls : List WebhookCall) :
    (∀ p ∈ steps (performUpdate sdk conversationId) table calls,
        KeepsFields conversationId p.1 (performUpdate sdk conversationId p.1 p.2)) ↔
      ∀ p ∈ steps (performUpdate sdk conversationId) table calls,
        MayUpdate sdk conversationId p.1 p.2 :=
  forall₂_congr fun p _ => keepsFields_performUpdate_iff sdk conversationId p.1 p.2

/-- The SDK with all metrics zero at first and none below zero. -/
def plainSdk : Sdk where
  emptyUsage := ⟨0, 0, 0, 0, 0, 0⟩
  emptySnapshot := ⟨0, none, none⟩
  acceptsUsage := fun usage => 0 ≤ usage.promptTokens
  acceptsSnapshot := fun snapshot => 0 ≤ snapshot.accumulatedCost

/-- A planning conversation that was started in the sandbox of another one and has cost money. -/
def planningConversation : StoredConversationMetadata where
  githubUserId := none
  userId := "alice"
  selectedRepository := some "octo/app"
  selectedBranch := none
  gitProvider := some "github"
  title := some "Plan"
  lastUpdatedAt := some 5
  createdAt := some 5
  trigger := some "gui"
  prNumber := some []
  metrics := ⟨some 2, some 10, some 10, some 0, none, some 0, some 0, some 0, some 0, some 0⟩
  llmModel := some "model"
  conversationVersion := "V1"
  sandboxId := some "sandbox"
  parentConversationId := some "parent"

/-- Its sandbox reports that it has paused. -/
def pausedReport : WebhookCall where
  service := .remote
    { userId := none
      stored := fun _ => some ⟨some "alice", "spec"⟩
      runtimes := fun _ => some (PyDict.ofEntries
        [("pod_status", some "ready"), ("session_api_key", some "key"), ("url", none)]) }
  sandboxId := "sandbox"
  sessionApiKey := some "key"
  llmModel := "model"
  now := 9
  updatedAt := 9

/-- The report takes away the parent, the metrics and the time of creation. -/
theorem not_keepsFields_pausedReport : ¬ ∀ (sdk : Sdk) (conversationId : String) (table : Table)
    (calls : List WebhookCall), ∀ p ∈ steps (performUpdate sdk conversationId) table calls,
      KeepsFields conversationId p.1 (performUpdate sdk conversationId p.1 p.2) := by
  intro h
  obtain ⟨row, hrow, hcarried⟩ := h plainSdk "plan" (PyDict.empty.set "plan" planningConversation)
    [pausedReport] _ (List.mem_singleton_self _) planningConversation (by decide)
  have hparent : ((performUpdate plainSdk "plan" (PyDict.empty.set "plan" planningConversation)
      pausedReport).get? "plan").map (fun row => row.parentConversationId) = some none := by
    decide
  rw [hrow, Option.map_some, hcarried.parentConversationId] at hparent
  cases hparent

end OpenHands.AppServer
