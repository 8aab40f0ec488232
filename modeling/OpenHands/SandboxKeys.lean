/-
# Whether a webhook needs the key of its sandbox

A service that has no key to report reports none, and a request without the header, or with an
empty one, presents none: `valid_sandbox` takes the two for equal.  Each service is described by
the keys that it has issued, which are the only ones it reports, and by the states of a sandbox in
which it withholds the key.
-/
import Mathlib.Logic.Basic
import OpenHands.Sandboxes

namespace OpenHands.Sandboxes

/-! ## Keys that are issued -/

theorem parseEnvVar_append {name : String} (hname : '=' ∉ name.toList) (value : String) :
    parseEnvVar (name ++ "=" ++ value) = (name, some value) := by
  have hchars : (name ++ "=" ++ value).toList = name.toList ++ ['='] ++ value.toList := by
    simp
  unfold parseEnvVar
  rw [hchars, PyStr.cut_append_of_head_notMem hname]
  simp

namespace Start

variable (start : Start)

/-- No variable is named with a `=`. -/
theorem notMem_toList_of_mem_envVars {name : String} (h : name ∈ start.envVars.keys) :
    '=' ∉ name.toList := by
  have hset : ∀ (env : PyDict String String) (k v : String), '=' ∉ k.toList →
      (∀ name ∈ env.keys, '=' ∉ name.toList) → ∀ name ∈ (env.set k v).keys, '=' ∉ name.toList := by
    intro env k v hk henv name hname
    rw [← PyDict.isSome_get?_iff, PyDict.get?_set] at hname
    split_ifs at hname with heq
    · rw [heq]
      exact hk
    · exact henv name (PyDict.isSome_get?_iff.mp hname)
  have hfold : ∀ (ports : List (String × ℕ)) (env : PyDict String String),
      (∀ port ∈ ports, '=' ∉ port.1.toList) → (∀ name ∈ env.keys, '=' ∉ name.toList) →
      ∀ name ∈ (ports.foldl (fun env port => env.set port.1 (toString port.2)) env).keys,
        '=' ∉ name.toList := by
    intro ports
    induction ports with
    | nil => exact fun env _ henv => henv
    | cons port ports ih =>
      intro env hports henv
      rw [List.forall_mem_cons] at hports
      exact ih _ hports.2 (hset env port.1 _ hports.1 henv)
  refine hfold start.hostPorts _ (fun port hport => (start.hostPorts_names port hport).1) ?_ name h
  exact hset _ _ _ (by decide) (hset _ _ _ (by decide) start.initialEnv_names)

/-- No port takes the variable of the key. -/
theorem get?_envVars : start.envVars.get? sessionApiKeyVariable = some start.sessionApiKey := by
  have hfold : ∀ (ports : List (String × ℕ)) (env : PyDict String String),
      (∀ port ∈ ports, port.1 ≠ sessionApiKeyVariable) →
      (ports.foldl (fun env port => env.set port.1 (toString port.2)) env).get?
        sessionApiKeyVariable = env.get? sessionApiKeyVariable := by
    intro ports
    induction ports with
    | nil => exact fun env _ => rfl
    | cons port ports ih =>
      intro env hports
      rw [List.forall_mem_cons] at hports
      rw [List.foldl_cons, ih _ hports.2, PyDict.get?_set, if_neg (Ne.symm hports.1)]
  unfold envVars
  rw [hfold start.hostPorts _ fun port hport => (start.hostPorts_names port hport).2,
    PyDict.get?_set, if_neg (by decide), PyDict.get?_set, if_pos rfl]

end Start

/-- The key of a container is the one that it was started with. -/
theorem get?_getContainerEnvVars (container : Container) :
    (getContainerEnvVars container).get? sessionApiKeyVariable
      = some (some container.start.sessionApiKey) := by
  have hparse : (container.start.envVars.entries.map fun entry =>
      entry.1 ++ "=" ++ entry.2).map parseEnvVar
        = (container.start.envVars.mapValues some).entries := by
    rw [List.map_map]
    apply List.map_congr_left
    rintro ⟨name, value⟩ hmem
    exact parseEnvVar_append
      (container.start.notMem_toList_of_mem_envVars (List.mem_map_of_mem hmem)) value
  unfold getContainerEnvVars Container.env
  rw [List.map_append, hparse, PyDict.get?_ofEntries_append, PyDict.ofEntries_entries,
    PyDict.get?_mapValues, container.start.get?_envVars]
  · rfl
  · intro hmem
    obtain ⟨parsed, hparsed, hname⟩ := List.mem_map.mp hmem
    obtain ⟨envVar, henvVar, rfl⟩ := List.mem_map.mp hparsed
    have hother := of_decide_eq_true (List.mem_filter.mp henvVar).2
    rw [hname] at hother
    refine hother (PyDict.isSome_get?_iff.mp ?_)
    rw [container.start.get?_envVars]
    rfl

namespace SandboxService

/-- The key that was issued for a sandbox: to its container when it was started, by the API of
the runtimes, or to its process. -/
def issuedKey : SandboxService → String → Option String
  | .docker service, sandboxId => (service.containers sandboxId).map (·.start.sessionApiKey)
  | .remote service, sandboxId =>
    ((service.runtimes sandboxId).bind (·.get? "session_api_key")).join
  | .process service, sandboxId => (service.processes sandboxId).map (·.sessionApiKey)

variable (service : SandboxService)

/-- A webhook is let through with the key of the sandbox only; an empty header presents none. -/
def NeedsKey (sandboxId : String) (header : Option String) : Prop :=
  ∀ sandboxInfo, validSandbox service sandboxId header = .ok sandboxInfo →
    ∃ key, apiKeyHeader header = some key ∧ service.issuedKey sandboxId = some key

/-- The sandbox is reported without a key. -/
def Keyless (sandboxId : String) : Prop :=
  ∃ sandboxInfo, service.getSandbox sandboxId = .ok (some sandboxInfo) ∧
    sandboxInfo.sessionApiKey = none

/-- The keys that are reported are those that were issued. -/
def ReportsIssued (sandboxId : String) : Prop :=
  ∀ sandboxInfo key, service.getSandbox sandboxId = .ok (some sandboxInfo) →
    sandboxInfo.sessionApiKey = some key → service.issuedKey sandboxId = some key

theorem apiKeyHeader_eq_some_iff {header : Option String} {key : String} :
    apiKeyHeader header = some key ↔ header = some key ∧ key ≠ "" := by
  unfold apiKeyHeader
  rw [Option.filter_eq_some_iff, decide_eq_true_eq]

theorem apiKeyHeader_eq_none_iff {header : Option String} :
    apiKeyHeader header = none ↔ ∀ key, header = some key → key = "" := by
  simp only [Option.eq_none_iff_forall_ne_some, ne_eq, apiKeyHeader_eq_some_iff, not_and, not_not]

theorem validSandbox_eq_ok_iff {sandboxId : String} {header : Option String}
    {sandboxInfo : SandboxInfo} :
    validSandbox service sandboxId header = .ok sandboxInfo ↔
      service.getSandbox sandboxId = .ok (some sandboxInfo) ∧
        sandboxInfo.sessionApiKey = apiKeyHeader header := by
  unfold validSandbox
  cases hget : service.getSandbox sandboxId with
  | error raised => exact ⟨fun h => (by cases h), fun h => (by cases h.1)⟩
  | ok found =>
    cases found with
    | none => exact ⟨fun h => (by cases h), fun h => (by cases h.1)⟩
    | some info =>
      show (if info.sessionApiKey ≠ apiKeyHeader header then Except.error _ else Except.ok info) = _
        ↔ _
      constructor
      · intro h
        split_ifs at h with hkey
        cases h
        exact ⟨rfl, not_not.mp hkey⟩
      · rintro ⟨h, hkey⟩
        cases h
        exact if_neg (not_not.mpr hkey)

variable {service}

/-- Where only issued keys are reported, a request gets through without one exactly when it
presents no key and the sandbox has none. -/
theorem needsKey_iff_of_reportsIssued {sandboxId : String} (h : service.ReportsIssued sandboxId)
    (header : Option String) :
    service.NeedsKey sandboxId header ↔
      (∃ key, header = some key ∧ key ≠ "") ∨ ¬ service.Keyless sandboxId := by
  constructor
  · intro hneeds
    by_contra hnot
    obtain ⟨hheader, hkeyless⟩ := not_or.mp hnot
    obtain ⟨sandboxInfo, hget, hnone⟩ := not_not.mp hkeyless
    have hempty : apiKeyHeader header = none := by
      apply apiKeyHeader_eq_none_iff.mpr
      intro key hkey
      by_contra hne
      exact hheader ⟨key, hkey, hne⟩
    obtain ⟨key, hkey, -⟩ := hneeds sandboxInfo
      (service.validSandbox_eq_ok_iff.mpr ⟨hget, hnone.trans hempty.symm⟩)
    cases hempty.symm.trans hkey
  · intro hor sandboxInfo hvalid
    obtain ⟨hget, hsame⟩ := service.validSandbox_eq_ok_iff.mp hvalid
    cases hkey : sandboxInfo.sessionApiKey with
    | none =>
      rcases hor with ⟨key, hheader, hne⟩ | hkeyless
      · cases (hsame.symm.trans hkey).symm.trans (apiKeyHeader_eq_some_iff.mpr ⟨hheader, hne⟩)
      · exact absurd ⟨sandboxInfo, hget, hkey⟩ hkeyless
    | some key => exact ⟨key, hsame.symm.trans hkey, h sandboxInfo key hget hkey⟩

/-- What a lookup gives: no sandbox; the sandbox without its key, which is withheld; or the
sandbox with the key that was issued for it. -/
inductive Reported (withheld : Prop) (issued : Option String) :
    Except Raised (Option SandboxInfo) → Prop
  | absent {found : Except Raised (Option SandboxInfo)} (hnot : ¬ withheld)
      (hnone : ∀ sandboxInfo, found ≠ .ok (some sandboxInfo)) : Reported withheld issued found
  | keyless {sandboxInfo : SandboxInfo} (hwithheld : withheld)
      (hkey : sandboxInfo.sessionApiKey = none) : Reported withheld issued (.ok (some sandboxInfo))
  | keyed {sandboxInfo : SandboxInfo} {key : String} (hnot : ¬ withheld)
      (hkey : sandboxInfo.sessionApiKey = some key) (hissued : issued = some key) :
      Reported withheld issued (.ok (some sandboxInfo))

/-- The sandbox is reported without a key exactly where the key is withheld. -/
theorem Reported.keyless_iff {sandboxId : String} {withheld : Prop} {issued : Option String}
    (h : Reported withheld issued (service.getSandbox sandboxId)) :
    service.Keyless sandboxId ↔ withheld := by
  unfold Keyless
  generalize service.getSandbox sandboxId = found at h
  cases h with
  | absent hnot hnone => exact iff_of_false (fun ⟨sandboxInfo, h, _⟩ => hnone sandboxInfo h) hnot
  | keyless hwithheld hkey => exact iff_of_true ⟨_, rfl, hkey⟩ hwithheld
  | keyed hnot hkey =>
    refine iff_of_false ?_ hnot
    rintro ⟨sandboxInfo, h, hnone⟩
    cases h
    cases hkey.symm.trans hnone

theorem Reported.reportsIssued {sandboxId : String} {withheld : Prop}
    (h : Reported withheld (service.issuedKey sandboxId) (service.getSandbox sandboxId)) :
    service.ReportsIssued sandboxId := by
  intro sandboxInfo key hget hkey
  rw [hget] at h
  cases h with
  | absent _ hnone => exact absurd rfl (hnone sandboxInfo)
  | keyless _ hnone => cases hnone.symm.trans hkey
  | keyed _ hother hissued => exact hissued.trans (hother.symm.trans hkey)

end SandboxService

/-! ## Containers -/

namespace DockerSandboxService

variable (service : DockerSandboxService) (container : Container)

/-- The container runs and cannot be reached at the address of its `AGENT_SERVER`. -/
def Unreachable : Prop :=
  ∃ path appServer, service.healthCheckPath = some path ∧
    (service.exposedUrls container (some container.start.sessionApiKey)).find?
      (fun exposedUrl => exposedUrl.name = "AGENT_SERVER") = some appServer ∧
    service.reachable (service.replaceLocalhost appServer.url ++ path) = false

/-- What is reported of a running container before its health is checked. -/
def runningInfo (tag : String) : SandboxInfo where
  id := container.name
  createdByUserId := none
  sandboxSpecId := tag
  status := .running
  sessionApiKey := some container.start.sessionApiKey
  exposedUrls := some (service.exposedUrls container (some container.start.sessionApiKey))

variable {service container}

theorem containerToSandboxInfo_of_running {tag : String} {tags : List String}
    (htags : container.imageTags = tag :: tags)
    (hstatus : dockerStatusToSandboxStatus container.status = .running) :
    service.containerToSandboxInfo container = .ok (service.runningInfo container tag) := by
  unfold containerToSandboxInfo
  simp only [htags, hstatus, if_true, get?_getContainerEnvVars]
  rfl

/-- A container that does not run is reported without key and addresses. -/
theorem containerToSandboxInfo_of_not_running (service : DockerSandboxService) {tag : String}
    {tags : List String} (htags : container.imageTags = tag :: tags)
    (hstatus : dockerStatusToSandboxStatus container.status ≠ .running) :
    ∃ sandboxInfo, service.containerToSandboxInfo container = .ok sandboxInfo ∧
      sandboxInfo.sessionApiKey = none ∧ sandboxInfo.exposedUrls = none := by
  unfold containerToSandboxInfo
  simp only [htags, hstatus, if_false]
  exact ⟨_, rfl, rfl, rfl⟩

theorem containerToSandboxInfo_of_no_tag (htags : container.imageTags = []) :
    service.containerToSandboxInfo container = .error .indexError := by
  unfold containerToSandboxInfo
  simp only [htags]

theorem checkHealth_of_no_urls {sandboxInfo : SandboxInfo} (h : sandboxInfo.exposedUrls = none) :
    service.checkHealth sandboxInfo = .ok sandboxInfo := by
  unfold checkHealth
  rw [h]
  cases service.healthCheckPath <;> rfl

theorem checkHealth_of_appServer {sandboxInfo : SandboxInfo} {path : String}
    {urls : List ExposedUrl} {appServer : ExposedUrl} (hpath : service.healthCheckPath = some path)
    (hurls : sandboxInfo.exposedUrls = some urls)
    (hfind : urls.find? (fun exposedUrl => exposedUrl.name = "AGENT_SERVER") = some appServer) :
    service.checkHealth sandboxInfo =
      if service.reachable (service.replaceLocalhost appServer.url ++ path) then .ok sandboxInfo
      else .ok { sandboxInfo with status := .error, exposedUrls := none, sessionApiKey := none } := by
  unfold checkHealth
  rw [hpath, hurls]
  cases urls with
  | nil => cases hfind
  | cons url urls => simp only [hfind]

theorem checkHealth_of_no_appServer {sandboxInfo : SandboxInfo} {path : String}
    {urls : List ExposedUrl} (hpath : service.healthCheckPath = some path)
    (hurls : sandboxInfo.exposedUrls = some urls) (hne : urls ≠ [])
    (hfind : urls.find? (fun exposedUrl => exposedUrl.name = "AGENT_SERVER") = none) :
    service.checkHealth sandboxInfo = .error .runtimeError := by
  unfold checkHealth
  rw [hpath, hurls]
  cases urls with
  | nil => exact absurd rfl hne
  | cons url urls => simp only [hfind]

theorem unreachable_iff {path : String} {appServer : ExposedUrl}
    (hpath : service.healthCheckPath = some path)
    (hfind : (service.exposedUrls container (some container.start.sessionApiKey)).find?
      (fun exposedUrl => exposedUrl.name = "AGENT_SERVER") = some appServer) :
    service.Unreachable container ↔
      service.reachable (service.replaceLocalhost appServer.url ++ path) = false := by
  constructor
  · rintro ⟨path', appServer', hpath', hfind', hreach⟩
    cases hpath.symm.trans hpath'
    cases hfind.symm.trans hfind'
    exact hreach
  · exact fun hreach => ⟨path, appServer, hpath, hfind, hreach⟩

/-- The check of a running container lets the key stand, drops it, or stops. -/
theorem checkHealth_runningInfo_cases (service : DockerSandboxService) (container : Container)
    (tag : String) :
    service.checkHealth (service.runningInfo container tag)
        = .ok (service.runningInfo container tag) ∧ ¬ service.Unreachable container ∨
      (∃ sandboxInfo, service.checkHealth (service.runningInfo container tag) = .ok sandboxInfo ∧
        sandboxInfo.sessionApiKey = none ∧ service.Unreachable container) ∨
      service.checkHealth (service.runningInfo container tag) = .error .runtimeError ∧
        ¬ service.Unreachable container := by
  cases hpath : service.healthCheckPath with
  | none =>
    refine Or.inl ⟨?_, fun ⟨path, _, hsome, _⟩ => by cases hpath.symm.trans hsome⟩
    unfold checkHealth
    rw [hpath]
  | some path =>
    cases hfind : (service.exposedUrls container (some container.start.sessionApiKey)).find?
        (fun exposedUrl => exposedUrl.name = "AGENT_SERVER") with
    | none =>
      have hreach : ¬ service.Unreachable container :=
        fun ⟨_, _, _, hsome, _⟩ => by cases hfind.symm.trans hsome
      cases hurls : service.exposedUrls container (some container.start.sessionApiKey) with
      | nil =>
        refine Or.inl ⟨?_, hreach⟩
        unfold checkHealth
        rw [hpath, show (service.runningInfo container tag).exposedUrls = some [] from
          congrArg some hurls]
      | cons url urls =>
        rw [hurls] at hfind
        exact Or.inr (Or.inr ⟨checkHealth_of_no_appServer hpath (congrArg some hurls)
          (List.cons_ne_nil _ _) hfind, hreach⟩)
    | some appServer =>
      rw [checkHealth_of_appServer hpath rfl hfind, unreachable_iff hpath hfind]
      cases hreach : service.reachable (service.replaceLocalhost appServer.url ++ path) with
      | true => exact Or.inl ⟨rfl, fun h => by cases h⟩
      | false => exact Or.inr (Or.inl ⟨_, rfl, rfl, rfl⟩)

/-- A container is reported without its key where it does not run or cannot be reached. -/
def Withholds (service : DockerSandboxService) (sandboxId : String) : Prop :=
  service.containerNamePrefix.toList <+: sandboxId.toList ∧
    ∃ container, service.containers sandboxId = some container ∧ container.imageTags ≠ [] ∧
      (dockerStatusToSandboxStatus container.status = .running → service.Unreachable container)

theorem withholds_iff {sandboxId : String}
    (hnamed : service.containerNamePrefix.toList <+: sandboxId.toList)
    (hfound : service.containers sandboxId = some container) :
    service.Withholds sandboxId ↔ container.imageTags ≠ [] ∧
      (dockerStatusToSandboxStatus container.status = .running →
        service.Unreachable container) := by
  constructor
  · rintro ⟨-, other, hother, hwithholds⟩
    cases hfound.symm.trans hother
    exact hwithholds
  · exact fun h => ⟨hnamed, container, hfound, h⟩

/-- A container that was found is reported with the key it was started with, or withheld. -/
theorem container_reported {withheld : Prop}
    (hwithheld : withheld ↔ container.imageTags ≠ [] ∧
      (dockerStatusToSandboxStatus container.status = .running →
        service.Unreachable container)) :
    SandboxService.Reported withheld (some container.start.sessionApiKey)
      (service.containerToSandboxInfo container >>= fun sandboxInfo =>
        some <$> service.checkHealth sandboxInfo) := by
  cases htags : container.imageTags with
  | nil =>
    rw [containerToSandboxInfo_of_no_tag htags]
    exact .absent (fun h => (hwithheld.mp h).1 htags) fun sandboxInfo h => by cases h
  | cons tag tags =>
    have hne : container.imageTags ≠ [] := htags ▸ List.cons_ne_nil tag tags
    by_cases hstatus : dockerStatusToSandboxStatus container.status = .running
    · rw [containerToSandboxInfo_of_running htags hstatus]
      show SandboxService.Reported _ _ (some <$> service.checkHealth _)
      rcases checkHealth_runningInfo_cases service container tag with
        ⟨hcheck, hreach⟩ | ⟨sandboxInfo, hcheck, hkey, hreach⟩ | ⟨hcheck, hreach⟩
      · rw [hcheck]
        exact .keyed (fun h => hreach ((hwithheld.mp h).2 hstatus)) rfl rfl
      · rw [hcheck]
        exact .keyless (hwithheld.mpr ⟨hne, fun _ => hreach⟩) hkey
      · rw [hcheck]
        exact .absent (fun h => hreach ((hwithheld.mp h).2 hstatus)) fun sandboxInfo h => by cases h
    · obtain ⟨sandboxInfo, hinfo, hkey, hurls⟩ :=
        containerToSandboxInfo_of_not_running service htags hstatus
      rw [hinfo]
      show SandboxService.Reported _ _ (some <$> service.checkHealth _)
      rw [checkHealth_of_no_urls hurls]
      exact .keyless (hwithheld.mpr ⟨hne, fun h => absurd h hstatus⟩) hkey

theorem getSandbox_reported (service : DockerSandboxService) (sandboxId : String) :
    SandboxService.Reported (service.Withholds sandboxId)
      ((service.containers sandboxId).map (·.start.sessionApiKey))
      (service.getSandbox sandboxId) := by
  unfold getSandbox
  by_cases hnamed : service.containerNamePrefix.toList <+: sandboxId.toList
  · rw [if_neg (not_not.mpr hnamed)]
    cases hfound : service.containers sandboxId with
    | none =>
      refine .absent ?_ fun sandboxInfo h => by cases h
      rintro ⟨-, container, hsome, -⟩
      cases hfound.symm.trans hsome
    | some container => exact container_reported (withholds_iff hnamed hfound)
  · rw [if_pos hnamed]
    exact .absent (fun h => hnamed h.1) fun sandboxInfo h => by cases h

end DockerSandboxService

/-! ## Runtimes -/

namespace RemoteSandboxService

/-- A runtime that has no key, in an answer that is complete otherwise. -/
structure NullKey (runtime : Runtime) : Prop where
  key : runtime.get? "session_api_key" = some none
  urls : ∃ status urls, getSandboxStatusFromRuntime runtime = .ok status ∧
    exposedUrls runtime status none = .ok urls

/-- A sandbox is reported without a key where its runtime is not found or has none. -/
def Withholds (service : RemoteSandboxService) (sandboxId : String) : Prop :=
  (service.getStoredSandbox sandboxId).isSome ∧
    ∀ runtime, service.runtimes sandboxId = some runtime → runtime.entries ≠ [] → NullKey runtime

/-- A runtime is not reported, without its key, or with it. -/
theorem toSandboxInfo_cases (sandboxId : String) (stored : StoredRemoteSandbox)
    {runtime : Runtime} (hne : runtime.entries ≠ []) :
    (¬ NullKey runtime ∧ ∃ raised,
        toSandboxInfo sandboxId stored (some runtime) = .error raised) ∨
      (NullKey runtime ∧ ∃ sandboxInfo,
        toSandboxInfo sandboxId stored (some runtime) = .ok sandboxInfo ∧
          sandboxInfo.sessionApiKey = none) ∨
      (¬ NullKey runtime ∧ ∃ sandboxInfo key,
        toSandboxInfo sandboxId stored (some runtime) = .ok sandboxInfo ∧
          sandboxInfo.sessionApiKey = some key ∧
          runtime.get? "session_api_key" = some (some key)) := by
  have hfilter : (some runtime).filter (·.entries ≠ []) = some runtime := by
    rw [Option.filter_some, if_pos (decide_eq_true hne)]
  unfold toSandboxInfo
  rw [hfilter]
  cases hstatus : getSandboxStatusFromRuntime runtime with
  | error raised =>
    left
    refine ⟨?_, raised, ?_⟩
    · rintro ⟨-, status, urls, h, -⟩
      rw [hstatus] at h
      cases h
    · simp only [hstatus]
  | ok status =>
    cases hkey : runtime.get? "session_api_key" with
    | none =>
      left
      refine ⟨?_, .keyError "session_api_key", ?_⟩
      · rintro ⟨h, -⟩
        rw [hkey] at h
        cases h
      · simp only [hstatus, hkey]
    | some sessionApiKey =>
      simp only [hstatus, hkey]
      cases hurls : exposedUrls runtime status sessionApiKey with
      | error raised =>
        left
        refine ⟨?_, raised, rfl⟩
        rintro ⟨h, status', urls, hstatus', hok⟩
        rw [hkey] at h
        cases h
        rw [hstatus] at hstatus'
        cases hstatus'
        rw [hurls] at hok
        cases hok
      | ok urls =>
        right
        cases sessionApiKey with
        | none => exact Or.inl ⟨⟨hkey, status, urls, hstatus, hurls⟩, _, rfl, rfl⟩
        | some key =>
          refine Or.inr ⟨?_, _, key, rfl, rfl, rfl⟩
          rintro ⟨h, -⟩
          rw [hkey] at h
          cases h

theorem withholds_iff {service : RemoteSandboxService} {sandboxId : String} {runtime : Runtime}
    (hstored : (service.getStoredSandbox sandboxId).isSome)
    (hruntime : service.runtimes sandboxId = some runtime) (hne : runtime.entries ≠ []) :
    service.Withholds sandboxId ↔ NullKey runtime := by
  constructor
  · exact fun h => h.2 runtime hruntime hne
  · intro h
    refine ⟨hstored, fun other hother _ => ?_⟩
    cases hruntime.symm.trans hother
    exact h

theorem getSandbox_reported (service : RemoteSandboxService) (sandboxId : String) :
    SandboxService.Reported (service.Withholds sandboxId)
      ((service.runtimes sandboxId).bind (·.get? "session_api_key")).join
      (service.getSandbox sandboxId) := by
  unfold getSandbox
  cases hstored : service.getStoredSandbox sandboxId with
  | none =>
    refine .absent (fun h => ?_) fun sandboxInfo h => by cases h
    have hsome := h.1
    rw [hstored] at hsome
    cases hsome
  | some stored =>
    have hsome : (service.getStoredSandbox sandboxId).isSome := by
      rw [hstored]
      rfl
    show SandboxService.Reported _ _
      (some <$> toSandboxInfo sandboxId stored (service.runtimes sandboxId))
    by_cases hfound : ∃ runtime, service.runtimes sandboxId = some runtime ∧ runtime.entries ≠ []
    · obtain ⟨runtime, hruntime, hne⟩ := hfound
      have hwithholds := withholds_iff hsome hruntime hne
      rw [hruntime]
      rcases toSandboxInfo_cases sandboxId stored hne with
        ⟨hnot, raised, h⟩ | ⟨hnull, sandboxInfo, h, hkey⟩ | ⟨hnot, sandboxInfo, key, h, hkey, hget⟩
      · rw [h]
        exact .absent (hwithholds.not.mpr hnot) fun sandboxInfo h => by cases h
      · rw [h]
        exact .keyless (hwithholds.mpr hnull) hkey
      · rw [h]
        refine .keyed (hwithholds.not.mpr hnot) hkey ?_
        rw [Option.bind_some, hget]
        rfl
    · have hfilter : (service.runtimes sandboxId).filter (·.entries ≠ []) = none := by
        rw [Option.filter_eq_none_iff]
        intro runtime hruntime hne
        exact hfound ⟨runtime, hruntime, of_decide_eq_true hne⟩
      unfold toSandboxInfo
      simp only [hfilter]
      exact .keyless ⟨hsome, fun runtime hruntime hne => absurd ⟨runtime, hruntime, hne⟩ hfound⟩ rfl

end RemoteSandboxService

/-! ## Processes -/

namespace ProcessSandboxService

/-- A process is reported without its key where it does not run or does not answer. -/
def Withholds (service : ProcessSandboxService) (sandboxId : String) : Prop :=
  ∃ processInfo, service.processes sandboxId = some processInfo ∧
    ¬ (service.getProcessStatus processInfo = .running ∧ service.healthy processInfo)

theorem processToSandboxInfo_sessionApiKey (service : ProcessSandboxService) (sandboxId : String)
    (processInfo : ProcessInfo) :
    (service.processToSandboxInfo sandboxId processInfo).sessionApiKey
      = if service.getProcessStatus processInfo = .running ∧ service.healthy processInfo then
          some processInfo.sessionApiKey else none := by
  unfold processToSandboxInfo
  by_cases hstatus : service.getProcessStatus processInfo = .running
  · by_cases hhealthy : service.healthy processInfo = true
    · simp only [hstatus, hhealthy, if_true, and_self]
    · rw [Bool.not_eq_true] at hhealthy
      simp only [hstatus, hhealthy, if_true, Bool.false_eq_true, if_false, and_false]
  · simp only [hstatus, if_false, false_and]

theorem getSandbox_reported (service : ProcessSandboxService) (sandboxId : String) :
    SandboxService.Reported (service.Withholds sandboxId)
      ((service.processes sandboxId).map (·.sessionApiKey))
      (.ok ((service.processes sandboxId).map (service.processToSandboxInfo sandboxId))) := by
  cases hprocess : service.processes sandboxId with
  | none =>
    refine .absent ?_ fun sandboxInfo h => by cases h
    rintro ⟨processInfo, hsome, -⟩
    cases hprocess.symm.trans hsome
  | some processInfo =>
    have hkey := service.processToSandboxInfo_sessionApiKey sandboxId processInfo
    by_cases hanswers : service.getProcessStatus processInfo = .running ∧
        service.healthy processInfo
    · rw [if_pos hanswers] at hkey
      refine .keyed ?_ hkey rfl
      rintro ⟨other, hother, hnot⟩
      cases hprocess.symm.trans hother
      exact hnot hanswers
    · rw [if_neg hanswers] at hkey
      exact .keyless ⟨processInfo, hprocess, hanswers⟩ hkey

end ProcessSandboxService

/-! ## The three services -/

namespace SandboxService

/-- The sandbox is in a state in which its service withholds the key. -/
def Withholds : SandboxService → String → Prop
  | .docker service => service.Withholds
  | .remote service => service.Withholds
  | .process service => service.Withholds

/-- Each service reports the key that was issued, or none where it withholds it. -/
theorem getSandbox_reported (service : SandboxService) (sandboxId : String) :
    Reported (service.Withholds sandboxId) (service.issuedKey sandboxId)
      (service.getSandbox sandboxId) := by
  cases service with
  | docker service => exact service.getSandbox_reported sandboxId
  | remote service => exact service.getSandbox_reported sandboxId
  | process service => exact service.getSandbox_reported sandboxId

/-- **A webhook needs the key of its sandbox if and only if it has a header that is not empty or
the service does not withhold the key.** -/
theorem needsKey_iff (service : SandboxService) (sandboxId : String) (header : Option String) :
    service.NeedsKey sandboxId header ↔
      (∃ key, header = some key ∧ key ≠ "") ∨ ¬ service.Withholds sandboxId := by
  have hreported := getSandbox_reported service sandboxId
  rw [needsKey_iff_of_reportsIssued hreported.reportsIssued, hreported.keyless_iff]

end SandboxService

/-- A process that waits for its next request. -/
def sleepingProcess : SandboxService :=
  .process {
    healthCheckPath := "/alive"
    replaceLocalhost := id
    processes := fun _ => some {
      pid := 7
      port := 8000
      userId := none
      sessionApiKey := "key"
      sandboxSpecId := "spec" }
    psutil := fun _ => some ⟨true, "sleeping"⟩
    httpGet := fun _ => some 200 }

/-- A sleeping process counts as starting, and its webhooks need no key. -/
theorem not_needsKey_sleepingProcess : ¬ sleepingProcess.NeedsKey "sandbox" none := by
  intro hneeds
  obtain ⟨key, hkey, -⟩ := hneeds {
    id := "sandbox"
    createdByUserId := none
    sandboxSpecId := "spec"
    status := .starting
    sessionApiKey := none
    exposedUrls := none } (by rfl)
  cases hkey

end OpenHands.Sandboxes
