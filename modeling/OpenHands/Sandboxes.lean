/-
# Sandboxes

Three services report a sandbox: a container of docker, a runtime behind the API of a remote
service, or a process of the same machine.  Each fills in the session key under its own
conditions.  `valid_sandbox` looks a sandbox up for a webhook and compares the key that is
reported with the header of the request.
-/
import OpenHands.Lib.PyDict
import OpenHands.Lib.PyStr

namespace OpenHands.Sandboxes

inductive SandboxStatus where
  | starting | running | paused | error | missing
  deriving DecidableEq, Repr

structure ExposedUrl where
  name : String
  url : String
  port : ℕ
  deriving DecidableEq, Repr

structure SandboxInfo where
  id : String
  createdByUserId : Option String
  sandboxSpecId : String
  status : SandboxStatus
  sessionApiKey : Option String
  exposedUrls : Option (List ExposedUrl)
  deriving DecidableEq, Repr

/-- What is raised on the way to a sandbox. -/
inductive Raised where
  | keyError (key : String)
  | attributeError
  | indexError
  | valueError
  | runtimeError
  | httpException (statusCode : ℕ)
  deriving DecidableEq, Repr

/-- `str.lower`, for ASCII letters. -/
def lower (s : String) : String := String.ofList (s.toList.map Char.toLower)

/-- What an f-string makes of a key. -/
def formatKey (sessionApiKey : Option String) : String := sessionApiKey.getD "None"

/-! ## Docker -/

def sessionApiKeyVariable : String := "OH_SESSION_API_KEYS_0"

def webhookCallbackVariable : String := "OH_WEBHOOKS_0_BASE_URL"

/-- What `start_sandbox` gives a container: the environment of the specification, the key, the
address of the webhooks, and the host ports under the names of the exposed ports. -/
structure Start where
  initialEnv : PyDict String String
  sessionApiKey : String
  webhookCallback : String
  hostPorts : List (String × ℕ)
  initialEnv_names : ∀ name ∈ initialEnv.keys, '=' ∉ name.toList
  hostPorts_names : ∀ port ∈ hostPorts, '=' ∉ port.1.toList ∧ port.1 ≠ sessionApiKeyVariable

/-- `env_vars` of `start_sandbox`. -/
def Start.envVars (start : Start) : PyDict String String :=
  start.hostPorts.foldl (fun envVars port => envVars.set port.1 (toString port.2))
    ((start.initialEnv.set sessionApiKeyVariable start.sessionApiKey).set
      webhookCallbackVariable start.webhookCallback)

/-- A variable of an environment, split at the first `=`. -/
def parseEnvVar (envVar : String) : String × Option String :=
  match PyStr.cut ['='] envVar.toList with
  | some (key, value) => (String.ofList key, some (String.ofList value))
  | none => (envVar, none)

structure Container where
  name : String
  status : String
  imageTags : List String
  workingDir : String
  ports : List (String × List ℕ)
  start : Start
  imageEnv : List String

/-- `attrs['Config']['Env']`: what the container was started with, and what its image sets
besides. -/
def Container.env (container : Container) : List String :=
  container.start.envVars.entries.map (fun entry => entry.1 ++ "=" ++ entry.2) ++
    container.imageEnv.filter fun envVar =>
      (parseEnvVar envVar).1 ∉ container.start.envVars.keys

structure ExposedPort where
  name : String
  containerPort : ℕ
  deriving DecidableEq, Repr

/-- The service with the containers that it finds; `reachable` says whether a request of an
address succeeds. -/
structure DockerSandboxService where
  containerNamePrefix : String
  formatContainerUrl : ℕ → String
  exposedPorts : List ExposedPort
  healthCheckPath : Option String
  replaceLocalhost : String → String
  containers : String → Option Container
  reachable : String → Bool

def dockerStatusToSandboxStatus (dockerStatus : String) : SandboxStatus :=
  match lower dockerStatus with
  | "running" => .running
  | "paused" => .paused
  | "exited" => .paused
  | "created" => .starting
  | "restarting" => .starting
  | "removing" => .missing
  | "dead" => .error
  | _ => .error

def getContainerEnvVars (container : Container) : PyDict String (Option String) :=
  PyDict.ofEntries (container.env.map parseEnvVar)

namespace DockerSandboxService

variable (service : DockerSandboxService)

/-- The address of an exposed port. -/
def exposedUrl (container : Container) (sessionApiKey : Option String) (hostPort : ℕ)
    (exposedPort : ExposedPort) : ExposedUrl where
  name := exposedPort.name
  url :=
    if exposedPort.name = "VSCODE" then
      service.formatContainerUrl hostPort ++ "/?tkn=" ++ formatKey sessionApiKey
        ++ "&folder=" ++ container.workingDir
    else service.formatContainerUrl hostPort
  port := hostPort

def exposedUrls (container : Container) (sessionApiKey : Option String) : List ExposedUrl :=
  container.ports.filterMap fun binding =>
    binding.2.head?.bind fun hostPort =>
      (service.exposedPorts.find? fun exposedPort =>
        binding.1 = toString exposedPort.containerPort ++ "/tcp").map
          (service.exposedUrl container sessionApiKey hostPort)

def containerToSandboxInfo (container : Container) : Except Raised SandboxInfo :=
  let status := dockerStatusToSandboxStatus container.status
  let sessionApiKey :=
    if status = .running then ((getContainerEnvVars container).get? sessionApiKeyVariable).join
    else none
  let exposedUrls :=
    if status = .running then some (service.exposedUrls container sessionApiKey) else none
  match container.imageTags with
  | [] => .error .indexError
  | tag :: _ =>
    .ok {
      id := container.name
      createdByUserId := none
      sandboxSpecId := tag
      status := status
      sessionApiKey := sessionApiKey
      exposedUrls := exposedUrls }

/-- The health check of a sandbox with addresses; without one named `AGENT_SERVER`, `next`
stops the coroutine. -/
def checkHealth (sandboxInfo : SandboxInfo) : Except Raised SandboxInfo :=
  match service.healthCheckPath, sandboxInfo.exposedUrls with
  | some path, some (url :: urls) =>
    match (url :: urls).find? fun exposedUrl => exposedUrl.name = "AGENT_SERVER" with
    | none => .error .runtimeError
    | some appServer =>
      if service.reachable (service.replaceLocalhost appServer.url ++ path) then .ok sandboxInfo
      else .ok { sandboxInfo with status := .error, exposedUrls := none, sessionApiKey := none }
  | _, _ => .ok sandboxInfo

def getSandbox (sandboxId : String) : Except Raised (Option SandboxInfo) :=
  if ¬ service.containerNamePrefix.toList <+: sandboxId.toList then .ok none
  else
    match service.containers sandboxId with
    | none => .ok none
    | some container => do
      let sandboxInfo ← service.containerToSandboxInfo container
      some <$> service.checkHealth sandboxInfo

end DockerSandboxService

/-! ## Remote runtimes -/

structure StoredRemoteSandbox where
  createdByUserId : Option String
  sandboxSpecId : String
  deriving DecidableEq, Repr

/-- A runtime as the API describes it; a value is a string or `null`. -/
abbrev Runtime := PyDict String (Option String)

/-- The service with its table, the user who asks, and what the API answers about a runtime,
which is nothing if the request fails. -/
structure RemoteSandboxService where
  userId : Option String
  stored : String → Option StoredRemoteSandbox
  runtimes : String → Option Runtime

def podStatusMapping : String → Option SandboxStatus
  | "ready" => some .running
  | "pending" => some .starting
  | "running" => some .starting
  | "failed" => some .error
  | "unknown" => some .error
  | "crashloopbackoff" => some .error
  | _ => none

def statusMapping : String → Option SandboxStatus
  | "running" => some .running
  | "paused" => some .paused
  | "stopped" => some .missing
  | "starting" => some .starting
  | "error" => some .error
  | _ => none

/-- `_build_service_url`. -/
def buildServiceUrl (url serviceName : String) : Except Raised String :=
  match url.splitOn "://" with
  | [scheme, hostAndPath] => .ok (scheme ++ "://" ++ serviceName ++ "-" ++ hostAndPath)
  | _ => .error .valueError

def getSandboxStatusFromRuntime (runtime : Runtime) : Except Raised SandboxStatus :=
  match runtime.get? "pod_status" with
  | none => .error (.keyError "pod_status")
  | some none => .error .attributeError
  | some (some podStatus) =>
    let status := (podStatusMapping (lower podStatus)).or
      ((runtime.get? "status").join.bind fun runtimeStatus => statusMapping (lower runtimeStatus))
    .ok (status.getD .missing)

/-- The addresses of a running runtime. -/
def runningUrls (runtime : Runtime) (sessionApiKey : Option String) :
    Except Raised (List ExposedUrl) :=
  match (runtime.get? "url").join.filter (· ≠ "") with
  | none => .ok []
  | some url => do
    let vscode ← buildServiceUrl url "vscode"
    let worker1 ← buildServiceUrl url "work-1"
    let worker2 ← buildServiceUrl url "work-2"
    .ok [⟨"AGENT_SERVER", url, 60000⟩,
      ⟨"VSCODE", vscode ++ "/?tkn=" ++ formatKey sessionApiKey
        ++ "&folder=%2Fworkspace%2Fproject", 60001⟩,
      ⟨"WORKER_1", worker1, 12000⟩,
      ⟨"WORKER_2", worker2, 12001⟩]

def exposedUrls (runtime : Runtime) (status : SandboxStatus) (sessionApiKey : Option String) :
    Except Raised (Option (List ExposedUrl)) :=
  if status = .running then (runningUrls runtime sessionApiKey).map some else .ok none

namespace RemoteSandboxService

/-- `_get_stored_sandbox`: a user sees the sandboxes that the user created. -/
def getStoredSandbox (service : RemoteSandboxService) (sandboxId : String) :
    Option StoredRemoteSandbox :=
  (service.stored sandboxId).filter fun stored =>
    match service.userId.filter (· ≠ "") with
    | none => true
    | some userId => stored.createdByUserId = some userId

def toSandboxInfo (sandboxId : String) (stored : StoredRemoteSandbox)
    (runtime : Option Runtime) : Except Raised SandboxInfo :=
  match runtime.filter (·.entries ≠ []) with
  | none => .ok {
      id := sandboxId
      createdByUserId := stored.createdByUserId
      sandboxSpecId := stored.sandboxSpecId
      status := .missing
      sessionApiKey := none
      exposedUrls := none }
  | some runtime =>
    match getSandboxStatusFromRuntime runtime with
    | .error raised => .error raised
    | .ok status =>
      match runtime.get? "session_api_key" with
      | none => .error (.keyError "session_api_key")
      | some sessionApiKey =>
        (exposedUrls runtime status sessionApiKey).map fun exposedUrls => {
          id := sandboxId
          createdByUserId := stored.createdByUserId
          sandboxSpecId := stored.sandboxSpecId
          status := status
          sessionApiKey := sessionApiKey
          exposedUrls := exposedUrls }

def getSandbox (service : RemoteSandboxService) (sandboxId : String) :
    Except Raised (Option SandboxInfo) :=
  match service.getStoredSandbox sandboxId with
  | none => .ok none
  | some stored => some <$> toSandboxInfo sandboxId stored (service.runtimes sandboxId)

end RemoteSandboxService

/-! ## Processes -/

structure ProcessInfo where
  pid : ℕ
  port : ℕ
  userId : Option String
  sessionApiKey : String
  sandboxSpecId : String
  deriving DecidableEq, Repr

/-- What `psutil` says about a process that it finds and may look at. -/
structure PsutilProcess where
  isRunning : Bool
  status : String
  deriving DecidableEq, Repr

/-- The service with the processes that it has started, and what requests are answered: the
status code of a response, or nothing if the request fails. -/
structure ProcessSandboxService where
  healthCheckPath : String
  replaceLocalhost : String → String
  processes : String → Option ProcessInfo
  psutil : ℕ → Option PsutilProcess
  httpGet : String → Option ℕ

namespace ProcessSandboxService

variable (service : ProcessSandboxService)

def getProcessStatus (processInfo : ProcessInfo) : SandboxStatus :=
  match service.psutil processInfo.pid with
  | none => .missing
  | some process =>
    if process.isRunning then
      if process.status = "running" then .running
      else if process.status = "stopped" then .paused
      else .starting
    else .missing

/-- The request of the health check succeeds. -/
def healthy (processInfo : ProcessInfo) : Bool :=
  service.httpGet (service.replaceLocalhost
    ("http://localhost:" ++ toString processInfo.port ++ service.healthCheckPath)) = some 200

def processToSandboxInfo (sandboxId : String) (processInfo : ProcessInfo) : SandboxInfo :=
  let status := service.getProcessStatus processInfo
  let sandboxInfo : SandboxInfo := {
    id := sandboxId
    createdByUserId := processInfo.userId
    sandboxSpecId := processInfo.sandboxSpecId
    status := status
    sessionApiKey := none
    exposedUrls := none }
  if status = .running then
    if service.healthy processInfo then
      { sandboxInfo with
        sessionApiKey := some processInfo.sessionApiKey
        exposedUrls := some
          [⟨"AGENT_SERVER", "http://localhost:" ++ toString processInfo.port, processInfo.port⟩] }
    else { sandboxInfo with status := .error }
  else sandboxInfo

def getSandbox (sandboxId : String) : Except Raised (Option SandboxInfo) :=
  .ok ((service.processes sandboxId).map (service.processToSandboxInfo sandboxId))

end ProcessSandboxService

/-! ## Webhooks -/

/-- The service that a server is configured with. -/
inductive SandboxService where
  | docker (service : DockerSandboxService)
  | remote (service : RemoteSandboxService)
  | process (service : ProcessSandboxService)

def SandboxService.getSandbox : SandboxService → String → Except Raised (Option SandboxInfo)
  | .docker service => service.getSandbox
  | .remote service => service.getSandbox
  | .process service => service.getSandbox

/-- `APIKeyHeader(name='X-Session-API-Key', auto_error=False)`, on the header of the request if
there is one: an empty header gives no key. -/
def apiKeyHeader (header : Option String) : Option String := header.filter (· ≠ "")

/-- `valid_sandbox`, with the header `X-Session-API-Key` if there is one. -/
def validSandbox (service : SandboxService) (sandboxId : String) (header : Option String) :
    Except Raised SandboxInfo := do
  let sessionApiKey := apiKeyHeader header
  match ← service.getSandbox sandboxId with
  | none => .error (.httpException 401)
  | some sandboxInfo =>
    if sandboxInfo.sessionApiKey ≠ sessionApiKey then .error (.httpException 401)
    else .ok sandboxInfo

end OpenHands.Sandboxes
