/-
# Completions for the session of another node

A node that does not own a session publishes a request for a completion; the owner computes it
with the registry of its session and publishes the response.  Both halves write and read JSON
objects, and agree on the names of the entries or do not.  Every message reaches every node in
time.
-/
import OpenHands.Lib.PyJson

namespace OpenHands.LLMCompletions

/-- What a configuration may be: an `LLMConfig`, or plain data. -/
inductive PyValue (Config : Type) where
  | plain (v : PyJson)
  | llmConfig (config : Config)

/-- What is raised. -/
inductive Raised where
  | typeError (message : String)
  | keyError (key : String)
  | valueError
  | exception (message : String)
  deriving DecidableEq, Repr

/-- `request_extraneous_completion` of a registry: what a call with a service id, a
configuration and messages returns. -/
abbrev LLMRegistry (Config : Type) :=
  PyJson → PyValue Config → PyJson → Except Raised String

/-- What a completion is asked for with. -/
structure Request (Config : Type) where
  queryId : String
  sid : String
  serviceId : String
  llmConfig : PyValue Config
  messages : PyJson

/-- What the owner of a session reads from a request. -/
structure Received where
  queryId : PyJson
  sid : PyJson
  serviceId : PyJson
  llmConfig : PyJson
  messages : PyJson

/-- What comes of a published message. -/
inductive Effect where
  /-- A message without an effect on completions. -/
  | nothing
  | publish (data : PyJson)
  /-- The response of a query is set. -/
  | respond (queryId response : PyJson)

variable {Config : Type}

/-- `json.dumps`, with the data that `json.loads` reads again. -/
def dumps (entries : List (String × PyValue Config)) : Except Raised PyJson :=
  let entry : String × PyValue Config → Except Raised (String × PyJson)
    | (key, .plain v) => .ok (key, v)
    | (_, .llmConfig _) =>
      .error (.typeError "Object of type LLMConfig is not JSON serializable")
  (entries.mapM entry).map PyJson.obj

/-- `data[key]`. -/
def item (data : PyJson) (key : String) : Except Raised PyJson :=
  match data with
  | .obj entries =>
    match entries.find? fun entry => entry.1 = key with
    | some entry => .ok entry.2
    | none => .error (.keyError key)
  | _ => .error (.typeError "indices must be integers")

/-- The message that `request_llm_completion` publishes. -/
def completionMessage (request : Request Config) : List (String × PyValue Config) :=
  [("message_type", .plain (.str "llm_completion")),
    ("query_id", .plain (.str request.queryId)),
    ("sid", .plain (.str request.sid)),
    ("service_id", .plain (.str request.serviceId)),
    ("llm_config", request.llmConfig),
    ("message", .plain request.messages)]

/-- The entries of an `llm_completion` message. -/
def readCompletion (data : PyJson) : Except Raised Received := do
  let sid ← item data "sid"
  let serviceId ← item data "service_id"
  let messages ← item data "messages"
  let llmConfig ← item data "llm_config"
  let queryId ← item data "query_id"
  .ok ⟨queryId, sid, serviceId, llmConfig, messages⟩

/-- The message that the owner publishes. -/
def responseMessage (queryId : PyJson) (response : String) : PyJson :=
  .obj [("query_id", queryId), ("response", .str response),
    ("message_type", .str "llm_completion_response")]

/-- `_local_agent_loops_by_sid` of a node, with the registry of each session. -/
structure Node (Config : Type) where
  localAgentLoops : String → Option (LLMRegistry Config)

namespace Node

variable (node : Node Config)

/-- The loop of the session with the id, which may be any data. -/
def loopOf (sid : PyJson) : Option (LLMRegistry Config) :=
  match sid with
  | .str sid => node.localAgentLoops sid
  | _ => none

/-- `_process_message` for requests and responses. -/
def processMessage (data : PyJson) : Except Raised Effect := do
  match ← item data "message_type" with
  | .str "llm_completion" =>
    let received ← readCompletion data
    match node.loopOf received.sid with
    | none => .ok .nothing
    | some registry =>
      let response ← registry received.serviceId (.plain received.llmConfig) received.messages
      .ok (.publish (responseMessage received.queryId response))
  | .str "llm_completion_response" =>
    let queryId ← item data "query_id"
    let response ← item data "response"
    .ok (.respond queryId response)
  | _ => .ok .nothing

/-- What a node publishes when it gets a message; what it raises is logged. -/
def replies (data : PyJson) : List PyJson :=
  match node.processMessage data with
  | .ok (.publish reply) => [reply]
  | _ => []

/-- The response of a query that a message sets. -/
def responses (queryId : String) (data : PyJson) : List String :=
  match node.processMessage data with
  | .ok (.respond (.str id) (.str response)) => if id = queryId then [response] else []
  | _ => []

/-- `request_llm_completion`, where every message reaches this node and the others in time. -/
def requestLlmCompletion (others : List (Node Config)) (request : Request Config) :
    Except Raised String :=
  match node.localAgentLoops request.sid with
  | some registry => registry (.str request.serviceId) request.llmConfig request.messages
  | none => do
    let data ← dumps (completionMessage request)
    let published := (node :: others).flatMap fun other => other.replies data
    match published.flatMap (node.responses request.queryId) with
    | [] => .error (.exception "Timeout occured")
    | response :: _ =>
      if response = "" then .error (.exception "Failed to perform LLM completion")
      else .ok response

end Node

/-- A request of a node reaches the owner of the session as it was made, and the call returns
what the owner's own call returns. -/
structure Forwards (node : Node Config) (others : List (Node Config))
    (request : Request Config) : Prop where
  accepted : ∃ data received, dumps (completionMessage request) = .ok data ∧
    readCompletion data = .ok received ∧
      received.queryId = .str request.queryId ∧ received.sid = .str request.sid ∧
      received.serviceId = .str request.serviceId ∧
      .plain received.llmConfig = request.llmConfig ∧ received.messages = request.messages
  returned : ∀ owner ∈ others, ∀ registry, owner.localAgentLoops request.sid = some registry →
    node.requestLlmCompletion others request
      = registry (.str request.serviceId) request.llmConfig request.messages

/-! ## No request gets through -/

variable {request : Request Config}

/-- An `LLMConfig` cannot be written. -/
theorem dumps_of_llmConfig {config : Config} (h : request.llmConfig = .llmConfig config) :
    dumps (completionMessage request)
      = .error (.typeError "Object of type LLMConfig is not JSON serializable") := by
  unfold completionMessage
  rw [h]
  rfl

/-- The message with a configuration that is plain data. -/
def plainMessage (request : Request Config) (v : PyJson) : PyJson :=
  .obj [("message_type", .str "llm_completion"), ("query_id", .str request.queryId),
    ("sid", .str request.sid), ("service_id", .str request.serviceId), ("llm_config", v),
    ("message", request.messages)]

theorem dumps_of_plain {v : PyJson} (h : request.llmConfig = .plain v) :
    dumps (completionMessage request) = .ok (plainMessage request v) := by
  unfold completionMessage
  rw [h]
  rfl

/-- The messages are written under a name that the owner does not read. -/
theorem readCompletion_plainMessage (v : PyJson) :
    readCompletion (plainMessage request v) = .error (.keyError "messages") := rfl

theorem replies_plainMessage (node : Node Config) (v : PyJson) :
    node.replies (plainMessage request v) = [] := rfl

/-- A node that does not own the session gets no completion, whatever the owner returns. -/
theorem requestLlmCompletion_raises (node : Node Config) (others : List (Node Config))
    (h : node.localAgentLoops request.sid = none) :
    node.requestLlmCompletion others request =
      match request.llmConfig with
      | .llmConfig _ =>
        .error (.typeError "Object of type LLMConfig is not JSON serializable")
      | .plain _ => .error (.exception "Timeout occured") := by
  unfold Node.requestLlmCompletion
  rw [h]
  cases hconfig : request.llmConfig with
  | llmConfig config =>
    dsimp only
    rw [dumps_of_llmConfig hconfig]
    rfl
  | plain v =>
    dsimp only
    rw [dumps_of_plain hconfig]
    have hsilent : ((node :: others).flatMap fun other => other.replies (plainMessage request v))
        = [] :=
      List.flatMap_eq_nil_iff.mpr fun other _ => replies_plainMessage other v
    show (match ((node :: others).flatMap fun other =>
      other.replies (plainMessage request v)).flatMap (node.responses request.queryId) with
      | [] => _
      | _ :: _ => _) = _
    rw [hsilent]
    rfl

/-- **No request is accepted by the owner of the session.** -/
theorem not_forwards (node : Node Config) (others : List (Node Config))
    (request : Request Config) : ¬ Forwards node others request := by
  rintro ⟨⟨data, received, hdumps, hread, -⟩, -⟩
  cases hconfig : request.llmConfig with
  | llmConfig config =>
    rw [dumps_of_llmConfig hconfig] at hdumps
    cases hdumps
  | plain v =>
    rw [dumps_of_plain hconfig] at hdumps
    cases hdumps
    rw [readCompletion_plainMessage] at hread
    cases hread

/-- A node that owns the session. -/
def ownerNode : Node Unit where
  localAgentLoops := fun _ => some fun _ _ _ => .ok "prompt"

/-- A request for the session of another node. -/
def promptRequest : Request Unit where
  queryId := "query"
  sid := "conversation"
  serviceId := "remember_prompt"
  llmConfig := .llmConfig ()
  messages := .arr [.obj [("role", .str "user"), ("content", .str "events")]]

theorem not_forwards_promptRequest :
    ¬ Forwards { localAgentLoops := fun _ => none } [ownerNode] promptRequest := by
  intro h
  have hreturned := h.returned ownerNode (List.mem_singleton.mpr rfl) _ rfl
  cases hreturned

end OpenHands.LLMCompletions
