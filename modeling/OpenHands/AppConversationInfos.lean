/-
# Stored conversations of the app server

A conversation is a row of `conversation_metadata`, and the table is a dictionary from the
text of its id.  The service reads a row into a record with the enumerations and the metrics
built anew, and it writes a record as a whole row.  Queries of a user see that user's rows only;
those without a user see all.
-/
import Mathlib.Data.Rat.Defs
import OpenHands.Lib.PyDict
import OpenHands.ProviderTypes

namespace OpenHands.AppServer

/-- `ConversationTrigger`. -/
inductive ConversationTrigger where
  | resolver | gui | suggestedTask | remoteApiKey | slack | microagentManagement | jira | jiraDc
  | linear | bitbucket
  deriving DecidableEq, Repr

namespace ConversationTrigger

def members : List ConversationTrigger :=
  [.resolver, .gui, .suggestedTask, .remoteApiKey, .slack, .microagentManagement, .jira, .jiraDc,
    .linear, .bitbucket]

def value : ConversationTrigger → String
  | resolver => "resolver"
  | gui => "gui"
  | suggestedTask => "suggested_task"
  | remoteApiKey => "openhands_api"
  | slack => "slack"
  | microagentManagement => "microagent_management"
  | jira => "jira"
  | jiraDc => "jira_dc"
  | linear => "linear"
  | bitbucket => "bitbucket"

/-- `ConversationTrigger(value)`; `none` where it raises. -/
def ofValue? (value : String) : Option ConversationTrigger := members.find? (·.value = value)

end ConversationTrigger

structure TokenUsage where
  promptTokens : ℤ
  completionTokens : ℤ
  cacheReadTokens : ℤ
  cacheWriteTokens : ℤ
  contextWindow : ℤ
  perTurnToken : ℤ
  deriving DecidableEq, Repr

structure MetricsSnapshot where
  accumulatedCost : ℚ
  maxBudgetPerTask : Option ℚ
  accumulatedTokenUsage : Option TokenUsage
  deriving DecidableEq, Repr

/-- What the metrics of the SDK are without arguments, and which values they accept. -/
structure Sdk where
  emptyUsage : TokenUsage
  emptySnapshot : MetricsSnapshot
  acceptsUsage : TokenUsage → Bool
  acceptsSnapshot : MetricsSnapshot → Bool

/-- The columns of the metrics. -/
structure StoredMetrics where
  accumulatedCost : Option ℚ
  promptTokens : Option ℤ
  completionTokens : Option ℤ
  totalTokens : Option ℤ
  maxBudgetPerTask : Option ℚ
  cacheReadTokens : Option ℤ
  cacheWriteTokens : Option ℤ
  reasoningTokens : Option ℤ
  contextWindow : Option ℤ
  perTurnToken : Option ℤ
  deriving DecidableEq, Repr

/-- A row of `conversation_metadata` without its key `conversation_id`. -/
structure StoredConversationMetadata where
  githubUserId : Option String
  userId : String
  selectedRepository : Option String
  selectedBranch : Option String
  gitProvider : Option String
  title : Option String
  lastUpdatedAt : Option ℤ
  createdAt : Option ℤ
  trigger : Option String
  prNumber : Option (List ℤ)
  metrics : StoredMetrics
  llmModel : Option String
  conversationVersion : String
  sandboxId : Option String
  parentConversationId : Option String
  deriving DecidableEq, Repr

/-- The table; ids are written as `str(id)`. -/
abbrev Table := PyDict String StoredConversationMetadata

/-- `AppConversationInfo`, with the defaults of its fields. -/
structure AppConversationInfo where
  id : String
  createdByUserId : Option String
  sandboxId : String
  selectedRepository : Option String := none
  selectedBranch : Option String := none
  gitProvider : Option ProviderType := none
  title : Option String := none
  trigger : Option ConversationTrigger := none
  prNumber : List ℤ := []
  llmModel : Option String := none
  metrics : Option MetricsSnapshot := none
  parentConversationId : Option String := none
  subConversationIds : List String := []
  createdAt : ℤ
  updatedAt : ℤ
  deriving DecidableEq, Repr

/-- `x if x else None` for a string. -/
def truthy (text : Option String) : Option String := text.filter (· ≠ "")

/-- `Enumeration(value) if value else None`; `none` where the value is none of its members. -/
def readMember {ε : Type} (ofValue? : String → Option ε) (column : Option String) :
    Option (Option ε) :=
  match truthy column with
  | none => some none
  | some value => (ofValue? value).map some

namespace Sdk

variable (sdk : Sdk)

/-- The metrics of `_to_info`; `none` where they are not valid. -/
def readMetrics (stored : StoredMetrics) : Option MetricsSnapshot := do
  let tokenUsage : TokenUsage :=
    { promptTokens := ← stored.promptTokens
      completionTokens := ← stored.completionTokens
      cacheReadTokens := ← stored.cacheReadTokens
      cacheWriteTokens := ← stored.cacheWriteTokens
      contextWindow := ← stored.contextWindow
      perTurnToken := ← stored.perTurnToken }
  if ¬ sdk.acceptsUsage tokenUsage then none
  else
    let metrics : MetricsSnapshot :=
      { accumulatedCost := ← stored.accumulatedCost
        maxBudgetPerTask := stored.maxBudgetPerTask
        accumulatedTokenUsage := some tokenUsage }
    if ¬ sdk.acceptsSnapshot metrics then none else some metrics

/-- The columns that are written for metrics; that of the reasoning tokens is not set. -/
def writeMetrics (metrics : Option MetricsSnapshot) (reasoningTokens : Option ℤ) :
    StoredMetrics :=
  let snapshot := metrics.getD sdk.emptySnapshot
  let usage := snapshot.accumulatedTokenUsage.getD sdk.emptyUsage
  { accumulatedCost := some snapshot.accumulatedCost
    promptTokens := some usage.promptTokens
    completionTokens := some usage.completionTokens
    totalTokens := some 0
    maxBudgetPerTask := snapshot.maxBudgetPerTask
    cacheReadTokens := some usage.cacheReadTokens
    cacheWriteTokens := some usage.cacheWriteTokens
    reasoningTokens
    contextWindow := some usage.contextWindow
    perTurnToken := some usage.perTurnToken }

/-- `_to_info`; `none` where it raises. -/
def toInfo (conversationId : String) (stored : StoredConversationMetadata)
    (subConversationIds : List String) : Option AppConversationInfo := do
  let sandboxId ← stored.sandboxId
  let metrics ← sdk.readMetrics stored.metrics
  let createdAt ← stored.createdAt
  let updatedAt ← stored.lastUpdatedAt
  let gitProvider ← readMember ProviderType.ofValue? stored.gitProvider
  let trigger ← readMember ConversationTrigger.ofValue? stored.trigger
  let prNumber ← stored.prNumber
  return {
    id := conversationId
    createdByUserId := truthy (some stored.userId)
    sandboxId
    selectedRepository := stored.selectedRepository
    selectedBranch := stored.selectedBranch
    gitProvider
    title := stored.title
    trigger
    prNumber
    llmModel := stored.llmModel
    metrics := some metrics
    parentConversationId := truthy stored.parentConversationId
    subConversationIds
    createdAt
    updatedAt }

/-- The row that `save_app_conversation_info` merges over `existing`. -/
def toStored (info : AppConversationInfo) (existing : Option StoredConversationMetadata) :
    StoredConversationMetadata where
  githubUserId := none
  userId := info.createdByUserId.getD ""
  selectedRepository := info.selectedRepository
  selectedBranch := info.selectedBranch
  gitProvider := info.gitProvider.map ProviderType.value
  title := info.title
  lastUpdatedAt := some info.updatedAt
  createdAt := some info.createdAt
  trigger := info.trigger.map ConversationTrigger.value
  prNumber := some info.prNumber
  metrics := sdk.writeMetrics info.metrics
    (match existing with
      | none => some 0
      | some row => row.metrics.reasoningTokens)
  llmModel := info.llmModel
  conversationVersion := "V1"
  sandboxId := some info.sandboxId
  parentConversationId := info.parentConversationId

end Sdk

/-- The rows of `_secure_select`. -/
def StoredConversationMetadata.visible (userId : Option String)
    (row : StoredConversationMetadata) : Bool :=
  row.conversationVersion = "V1" ∧ ∀ user ∈ truthy userId, row.userId = user

/-- `_secure_select`. -/
def secureSelect (userId : Option String) (table : Table) :
    List (String × StoredConversationMetadata) :=
  table.entries.filter (·.2.visible userId)

def getSubConversationIds (userId : Option String) (table : Table)
    (parentConversationId : String) : List String :=
  ((secureSelect userId table).filter
    (·.2.parentConversationId = some parentConversationId)).map Prod.fst

/-- `get_app_conversation_info`; the outer `none` where it raises. -/
def getAppConversationInfo (sdk : Sdk) (userId : Option String) (table : Table)
    (conversationId : String) : Option (Option AppConversationInfo) :=
  match (table.get? conversationId).filter (·.visible userId) with
  | none => some none
  | some row =>
    (sdk.toInfo conversationId row (getSubConversationIds userId table conversationId)).map some

/-- `save_app_conversation_info`; `none` where the conversation is one of another user. -/
def saveAppConversationInfo (sdk : Sdk) (userId : Option String) (info : AppConversationInfo)
    (table : Table) : Option Table :=
  let existing := table.get? info.id
  if ∀ user ∈ truthy userId, ∀ row ∈ existing, row.userId = user then
    some (table.set info.id (sdk.toStored info existing))
  else none

/-- `delete_app_conversation_info`: the table, and whether a row was deleted. -/
def deleteAppConversationInfo (userId : Option String) (conversationId : String) (table : Table) :
    Table × Bool :=
  if (table.get? conversationId).any (fun row => ∀ user ∈ truthy userId, row.userId = user) then
    (table.pop conversationId, true)
  else (table, false)

end OpenHands.AppServer
