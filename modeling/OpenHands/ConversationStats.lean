/-
# Conversation statistics

The registry makes one LLM for each service and tells the statistics of the conversation.
The metrics of an LLM are an object that the LLM and the statistics share; what was restored
from the file waits until its service is registered.
-/
import OpenHands.LLMMetrics
import OpenHands.Lib.Run

namespace OpenHands

open Serialization

/-- The name of a service: `service_id`. -/
abbrev ServiceId := String

/-- The settings of an LLM; two are compared as a whole. -/
structure LLMConfig where
  model : String
  settings : List (String × String)
deriving DecidableEq

/-- The address of a metrics object. -/
abbrev MetricsRef := ℕ

structure LLM where
  config : LLMConfig
  metrics : MetricsRef

structure LLMRegistry where
  serviceToLlm : PyDict ServiceId LLM
  /-- Whether the statistics are the subscriber. -/
  subscribed : Bool

structure ConversationStats where
  serviceToMetrics : PyDict ServiceId MetricsRef
  restoredMetrics : PyDict ServiceId Metrics

/-- A process: the metrics objects by their address, the registry and the statistics; the
file, if there is one, is what is left when the process ends. -/
structure Process where
  heap : List Metrics
  registry : LLMRegistry
  stats : ConversationStats
  file : Option (PyDict ServiceId Metrics)

inductive StatsError
  /-- `ValueError`: "Requesting same service ID … with different config, use a new service ID" -/
  | differentConfig (serviceId : ServiceId)
  /-- `ValueError`: "Requesting new LLM without specifying LLM config" -/
  | noConfig
  | metrics (error : MetricsError)
  /-- There is no LLM of the service. -/
  | notRegistered (serviceId : ServiceId)

namespace Process

/-! ## Registration -/

/-- `ConversationStats.register_llm`. -/
def registerLlm (p : Process) (serviceId : ServiceId) (llm : LLM) : Process :=
  match p.stats.restoredMetrics.get? serviceId with
  | some metrics =>
    -- the LLM gets a copy of what was restored
    let ref := p.heap.length
    { p with
      heap := p.heap ++ [metrics]
      registry := { p.registry with
        serviceToLlm := p.registry.serviceToLlm.set serviceId { llm with metrics := ref } }
      stats := {
        serviceToMetrics := p.stats.serviceToMetrics.set serviceId ref
        restoredMetrics := p.stats.restoredMetrics.pop serviceId } }
  | none =>
    { p with stats := { p.stats with
        serviceToMetrics := p.stats.serviceToMetrics.set serviceId llm.metrics } }

/-- `LLMRegistry.notify`. -/
def notify (p : Process) (serviceId : ServiceId) (llm : LLM) : Process :=
  if p.registry.subscribed then p.registerLlm serviceId llm else p

/-- `LLMRegistry._create_new_llm`. -/
def createNewLlm (p : Process) (serviceId : ServiceId) (config : LLMConfig) : Process :=
  let llm : LLM := ⟨config, p.heap.length⟩
  let p := { p with
    heap := p.heap ++ [Metrics.new config.model]
    registry := { p.registry with serviceToLlm := p.registry.serviceToLlm.set serviceId llm } }
  p.notify serviceId llm

/-- `LLMRegistry.get_llm`. -/
def getLlm (p : Process) (serviceId : ServiceId) (config : Option LLMConfig) :
    Except StatsError Process :=
  match p.registry.serviceToLlm.get? serviceId with
  | some llm => if some llm.config ≠ config then .error (.differentConfig serviceId) else .ok p
  | none =>
    match config with
    | none => .error .noConfig
    | some config => .ok (p.createNewLlm serviceId config)

/-- `LLMRegistry.get_llm_from_agent_config`, with the LLM's settings of the agent. -/
def getLlmFromAgentConfig (p : Process) (serviceId : ServiceId) (config : LLMConfig) :
    Process :=
  if p.registry.serviceToLlm.contains serviceId then p else p.createNewLlm serviceId config

/-- The LLM that `LLMRegistry.request_extraneous_completion` asks. -/
def requestExtraneousCompletion (p : Process) (serviceId : ServiceId) (config : LLMConfig) :
    Process :=
  if !p.registry.serviceToLlm.contains serviceId then p.createNewLlm serviceId config else p

/-- `LLMRegistry.subscribe`, with the LLM of the active agent. -/
def subscribe (p : Process) : Process :=
  let p := { p with registry := { p.registry with subscribed := true } }
  match p.registry.serviceToLlm.get? "agent" with
  | some llm => p.notify "agent" llm
  | none => p

/-- A new process: `create_registry_and_conversation_stats`, with the settings of the agent's
LLM and the file that is there. -/
def start (config : LLMConfig) (file : Option (PyDict ServiceId Metrics)) : Process :=
  let p : Process := {
    heap := []
    registry := { serviceToLlm := .empty, subscribed := false }
    stats := { serviceToMetrics := .empty, restoredMetrics := file.getD .empty }
    file := file }
  (p.createNewLlm "agent" config).subscribe

/-! ## Recording -/

/-- The metrics of the LLM of a service, changed in place. -/
def record (p : Process) (serviceId : ServiceId)
    (change : Metrics → Except MetricsError Metrics) : Except StatsError Process :=
  match p.registry.serviceToLlm.get? serviceId with
  | none => .error (.notRegistered serviceId)
  | some llm =>
    match p.heap[llm.metrics]? with
    | none => .error (.notRegistered serviceId)
    | some metrics =>
      match change metrics with
      | .error error => .error (.metrics error)
      | .ok metrics => .ok { p with heap := p.heap.set llm.metrics metrics }

/-! ## Saving and adding up -/

/-- The metrics of the registered services. -/
def registeredMetrics (p : Process) : List (ServiceId × Metrics) :=
  p.stats.serviceToMetrics.entries.filterMap fun entry =>
    (p.heap[entry.2]?).map fun metrics => (entry.1, metrics)

/-- What `ConversationStats.save_metrics` writes. -/
def combinedMetrics (p : Process) : PyDict ServiceId Metrics :=
  p.registeredMetrics.foldl (fun d entry => d.set entry.1 entry.2) p.stats.restoredMetrics

/-- `ConversationStats.save_metrics`. -/
def saveMetrics (p : Process) : Process := { p with file := some p.combinedMetrics }

/-- `ConversationStats.get_combined_metrics`. -/
def getCombinedMetrics (p : Process) : Metrics :=
  (p.registeredMetrics.map Prod.snd).foldl (Metrics.merge id) (.new "default")

end Process

/-! ## Runs of a conversation -/

/-- What happens in a conversation. -/
inductive StatsOp
  | getLlm (serviceId : ServiceId) (config : Option LLMConfig)
  | getLlmFromAgentConfig (serviceId : ServiceId) (config : LLMConfig)
  | requestExtraneousCompletion (serviceId : ServiceId) (config : LLMConfig)
  | addCost (serviceId : ServiceId) (now value : ℚ)
  | addTokenUsage (serviceId : ServiceId) (usage : CompletionUsage)
  | addResponseLatency (serviceId : ServiceId) (value : ℚ) (responseId : String)
  | saveMetrics
  /-- The process ends, and a new one starts with these settings of the agent's LLM. -/
  | restart (config : LLMConfig)

def Process.step (p : Process) : StatsOp → Except StatsError Process
  | .getLlm serviceId config => p.getLlm serviceId config
  | .getLlmFromAgentConfig serviceId config => .ok (p.getLlmFromAgentConfig serviceId config)
  | .requestExtraneousCompletion serviceId config =>
    .ok (p.requestExtraneousCompletion serviceId config)
  | .addCost serviceId now value => p.record serviceId (·.addCost id now value)
  | .addTokenUsage serviceId usage => p.record serviceId fun m => .ok (m.addTokenUsage usage)
  | .addResponseLatency serviceId value responseId =>
    p.record serviceId fun m => .ok (m.addResponseLatency value responseId)
  | .saveMetrics => .ok p.saveMetrics
  | .restart config => .ok (.start config p.file)

end OpenHands
