/-
# What a recall shows

The branch of `_process_observation` for a `RecallObservation`.  The workspace context is
built from the fields that are present.  Of the microagents that a message triggered only
those are shown that no earlier recall of the events has named.

The rendered templates are given in a `PromptManager`.
-/
import OpenHands.ConversationMemory

namespace OpenHands

/-- `MicroagentKnowledge`, with texts in its fields. -/
structure TriggeredAgent where
  name : String
  trigger : String
  content : String
  deriving DecidableEq, Repr

/-- `RepositoryInfo`. -/
structure RepositoryInfo where
  repoName : String
  repoDirectory : String
  branchName : Option String

/-- `RuntimeInfo`. -/
structure RuntimeInfo where
  date : String
  availableHosts : List (String × ℤ) := []
  additionalAgentInstructions : String := ""
  customSecretsDescriptions : List (String × String) := []
  workingDir : String := ""

/-- The fields of a `RecallObservation` beside its recall type. -/
structure RecallDetails where
  repoName : String := ""
  repoDirectory : String := ""
  repoBranch : String := ""
  repoInstructions : String := ""
  runtimeHosts : List (String × ℤ) := []
  additionalAgentInstructions : String := ""
  date : String := ""
  customSecretsDescriptions : List (String × String) := []
  conversationInstructions : String := ""
  workingDir : String := ""
  microagentKnowledge : List TriggeredAgent := []
  deriving DecidableEq, Repr

/-- The templates of the prompt manager. -/
structure PromptManager where
  buildWorkspaceContext (repositoryInfo : Option RepositoryInfo) (runtimeInfo : RuntimeInfo)
    (conversationInstructions : Option String) (repoInstructions : String) : String
  buildMicroagentInfo (triggeredAgents : List TriggeredAgent) : String

namespace RecallDetails

variable (d : RecallDetails)

/-- `repo_info`. -/
def repoInfo : Option RepositoryInfo :=
  if d.repoName ≠ "" ∨ d.repoDirectory ≠ "" then
    some ⟨d.repoName, d.repoDirectory, if d.repoBranch = "" then none else some d.repoBranch⟩
  else none

/-- `runtime_info`. -/
def runtimeInfo : RuntimeInfo :=
  if d.runtimeHosts ≠ [] ∨ d.additionalAgentInstructions ≠ "" then
    { availableHosts := d.runtimeHosts
      additionalAgentInstructions := d.additionalAgentInstructions
      date := d.date
      customSecretsDescriptions := d.customSecretsDescriptions
      workingDir := d.workingDir }
  else
    { date := d.date
      customSecretsDescriptions := d.customSecretsDescriptions
      workingDir := d.workingDir }

/-- `conversation_instructions`. -/
def conversationInstructions? : Option String :=
  if d.conversationInstructions = "" then none else some d.conversationInstructions

/-- The names of the microagents. -/
def agentNames : List String := d.microagentKnowledge.map TriggeredAgent.name

/-- The microagents that are not disabled. -/
def enabledAgents (disabledMicroagents : List String) (agents : List TriggeredAgent) :
    List TriggeredAgent :=
  agents.filter (·.name ∉ disabledMicroagents)

variable (promptManager : PromptManager) (disabledMicroagents : List String)

/-- The content of a recall of the workspace context. -/
def workspaceContent : List Content :=
  let hasRepoInfo := d.repoInfo.isSome
  let hasRuntimeInfo := d.runtimeInfo.date ≠ "" ∨ d.runtimeInfo.customSecretsDescriptions ≠ []
  let hasRepoInstructions := !PyStr.isBlank d.repoInstructions
  let hasConversationInstructions := d.conversationInstructions?.isSome
  let filteredAgents := enabledAgents disabledMicroagents d.microagentKnowledge
  (if hasRepoInfo ∨ hasRuntimeInfo ∨ hasRepoInstructions ∨ hasConversationInstructions then
    [.text (promptManager.buildWorkspaceContext d.repoInfo d.runtimeInfo
      d.conversationInstructions? d.repoInstructions)]
  else []) ++
  if filteredAgents = [] then [] else [.text (promptManager.buildMicroagentInfo filteredAgents)]

/-- The content of a recall of knowledge; `earlierNames` are the microagents that earlier
recalls name. -/
def knowledgeContent (earlierNames : List String) : List Content :=
  let newAgents := d.microagentKnowledge.filter (·.name ∉ earlierNames)
  let filteredAgents := enabledAgents disabledMicroagents newAgents
  if filteredAgents = [] then [] else [.text (promptManager.buildMicroagentInfo filteredAgents)]

/-- The content of a recall. -/
def content (earlierNames : List String) : RecallType → List Content
  | .workspaceContext => d.workspaceContent promptManager disabledMicroagents
  | .knowledge => d.knowledgeContent promptManager disabledMicroagents earlierNames

variable {d promptManager disabledMicroagents}

end RecallDetails

end OpenHands
