/-
# Saved statistics

Across restarts the statistics of a conversation are a record of what happened in it, up to
what came after the last save before a restart (`History`).  The metrics of a service are at
one place at a time: with its LLM, or among those that were restored (`Process.metricsOf`).
-/
import OpenHands.ConversationStats

namespace OpenHands

open Serialization

/-! ## What was recorded -/

/-- What happened to a service. -/
inductive StatsEntry
  | registered
  | cost (value : ℚ)
  | usage (usage : CompletionUsage)
  | latency

abbrev StatsLog := List (ServiceId × StatsEntry)

namespace StatsLog

/-- The services that were used. -/
def services (log : StatsLog) : List ServiceId := log.map Prod.fst

/-- The costs of a service. -/
def costs (log : StatsLog) (serviceId : ServiceId) : List ℚ :=
  log.filterMap fun entry =>
    if entry.1 = serviceId then
      match entry.2 with
      | .cost value => some value
      | _ => none
    else none

/-- The usages of a service. -/
def usages (log : StatsLog) (serviceId : ServiceId) : List CompletionUsage :=
  log.filterMap fun entry =>
    if entry.1 = serviceId then
      match entry.2 with
      | .usage usage => some usage
      | _ => none
    else none

end StatsLog

/-- What happened up to the last save, and what happened. -/
structure History where
  saved : StatsLog
  current : StatsLog

/-- What was not saved before a restart is not part of the history; a new process registers
the agent's LLM. -/
def History.after (h : History) : StatsOp → History
  | .getLlm serviceId _ => { h with current := h.current ++ [(serviceId, .registered)] }
  | .getLlmFromAgentConfig serviceId _ =>
    { h with current := h.current ++ [(serviceId, .registered)] }
  | .requestExtraneousCompletion serviceId _ =>
    { h with current := h.current ++ [(serviceId, .registered)] }
  | .addCost serviceId _ value => { h with current := h.current ++ [(serviceId, .cost value)] }
  | .addTokenUsage serviceId usage =>
    { h with current := h.current ++ [(serviceId, .usage usage)] }
  | .addResponseLatency serviceId _ _ =>
    { h with current := h.current ++ [(serviceId, .latency)] }
  | .saveMetrics => { h with saved := h.current }
  | .restart _ => { h with current := h.saved ++ [("agent", .registered)] }

/-- A process with the history of its conversation. -/
structure RecordedProcess where
  process : Process
  history : History

/-- The first process of a conversation. -/
def RecordedProcess.start (config : LLMConfig) : RecordedProcess where
  process := .start config none
  history := { saved := [], current := [("agent", .registered)] }

/-- One operation; what raises an error changes nothing. -/
def RecordedProcess.perform (r : RecordedProcess) (op : StatsOp) : RecordedProcess :=
  match r.process.step op with
  | .ok process => { process := process, history := r.history.after op }
  | .error _ => r

/-- The metrics are the sums of what was recorded for the service. -/
structure Totals (log : StatsLog) (serviceId : ServiceId) (m : Metrics) : Prop where
  cost : m.accumulatedCost = (log.costs serviceId).sum
  promptTokens : m.accumulatedTokenUsage.promptTokens
    = ((log.usages serviceId).map (·.promptTokens)).sum
  completionTokens : m.accumulatedTokenUsage.completionTokens
    = ((log.usages serviceId).map (·.completionTokens)).sum
  cacheReadTokens : m.accumulatedTokenUsage.cacheReadTokens
    = ((log.usages serviceId).map (·.cacheReadTokens)).sum
  cacheWriteTokens : m.accumulatedTokenUsage.cacheWriteTokens
    = ((log.usages serviceId).map (·.cacheWriteTokens)).sum

/-- Every service that was used has its metrics, and no other service has. -/
structure Records (log : StatsLog) (metricsOf : ServiceId → Option Metrics) : Prop where
  services : ∀ serviceId, (metricsOf serviceId).isSome ↔ serviceId ∈ log.services
  totals : ∀ serviceId m, metricsOf serviceId = some m → Totals log serviceId m

section

variable {log : StatsLog} {metricsOf : ServiceId → Option Metrics} {serviceId : ServiceId}
  {entry : StatsEntry} {m : Metrics}

theorem costs_append_of_ne {other : ServiceId} (hne : other ≠ serviceId) :
    StatsLog.costs (log ++ [(serviceId, entry)]) other = log.costs other := by
  unfold StatsLog.costs
  rw [List.filterMap_append, List.filterMap_cons_none, List.filterMap_nil, List.append_nil]
  exact if_neg (Ne.symm hne)

theorem usages_append_of_ne {other : ServiceId} (hne : other ≠ serviceId) :
    StatsLog.usages (log ++ [(serviceId, entry)]) other = log.usages other := by
  unfold StatsLog.usages
  rw [List.filterMap_append, List.filterMap_cons_none, List.filterMap_nil, List.append_nil]
  exact if_neg (Ne.symm hne)

theorem Totals.append_of_ne {other : ServiceId} (h : Totals log other m)
    (hne : other ≠ serviceId) : Totals (log ++ [(serviceId, entry)]) other m := by
  constructor
  · rw [costs_append_of_ne hne, h.cost]
  all_goals rw [usages_append_of_ne hne]
  · exact h.promptTokens
  · exact h.completionTokens
  · exact h.cacheReadTokens
  · exact h.cacheWriteTokens

/-- What happens to one service changes its metrics only. -/
theorem Records.append (h : Records log metricsOf)
    (hm : Totals (log ++ [(serviceId, entry)]) serviceId m) :
    Records (log ++ [(serviceId, entry)]) (Function.update metricsOf serviceId (some m)) := by
  constructor
  · intro other
    unfold StatsLog.services
    rw [List.map_append, List.mem_append, List.map_cons, List.map_nil, List.mem_singleton]
    by_cases hother : other = serviceId
    · rw [hother, Function.update_self]
      exact ⟨fun _ => Or.inr rfl, fun _ => rfl⟩
    · rw [Function.update_of_ne hother, h.services other]
      exact ⟨Or.inl, fun hmem => hmem.resolve_right hother⟩
  · intro other m' hm'
    by_cases hother : other = serviceId
    · rw [hother, Function.update_self] at hm'
      cases hm'
      rw [hother]
      exact hm
    · rw [Function.update_of_ne hother] at hm'
      exact (h.totals other m' hm').append_of_ne hother

theorem costs_append_self {cost? : Option ℚ}
    (hcost : (match entry with
      | .cost value => some value
      | _ => none) = cost?) :
    StatsLog.costs (log ++ [(serviceId, entry)]) serviceId
      = log.costs serviceId ++ cost?.toList := by
  unfold StatsLog.costs
  rw [List.filterMap_append]
  congr 1
  rw [← hcost]
  simp only [List.filterMap_cons, if_pos, List.filterMap_nil]
  cases entry <;> rfl

theorem usages_append_self {usage? : Option CompletionUsage}
    (husage : (match entry with
      | .usage usage => some usage
      | _ => none) = usage?) :
    StatsLog.usages (log ++ [(serviceId, entry)]) serviceId
      = log.usages serviceId ++ usage?.toList := by
  unfold StatsLog.usages
  rw [List.filterMap_append]
  congr 1
  rw [← husage]
  simp only [List.filterMap_cons, if_pos, List.filterMap_nil]
  cases entry <;> rfl

/-- An entry without a cost and a usage changes no sum. -/
theorem Totals.append_other (h : Totals log serviceId m) {m' : Metrics}
    (hcost : m'.accumulatedCost = m.accumulatedCost)
    (husage : m'.accumulatedTokenUsage = m.accumulatedTokenUsage)
    (hentry : entry = .registered ∨ entry = .latency) :
    Totals (log ++ [(serviceId, entry)]) serviceId m' := by
  have hnoCost : (match entry with
      | .cost value => some value
      | _ => none) = none := by
    rcases hentry with rfl | rfl <;> rfl
  have hnoUsage : (match entry with
      | .usage usage => some usage
      | _ => none) = none := by
    rcases hentry with rfl | rfl <;> rfl
  have hcosts : StatsLog.costs (log ++ [(serviceId, entry)]) serviceId = log.costs serviceId := by
    rw [costs_append_self hnoCost]
    exact List.append_nil _
  have husages : StatsLog.usages (log ++ [(serviceId, entry)]) serviceId
      = log.usages serviceId := by
    rw [usages_append_self hnoUsage]
    exact List.append_nil _
  constructor
  · rw [hcosts, hcost, h.cost]
  all_goals rw [husages, husage]
  · exact h.promptTokens
  · exact h.completionTokens
  · exact h.cacheReadTokens
  · exact h.cacheWriteTokens

theorem Totals.addCost (h : Totals log serviceId m) {now value : ℚ} {m' : Metrics}
    (hadd : m.addCost id now value = .ok m') :
    Totals (log ++ [(serviceId, .cost value)]) serviceId m' := by
  unfold Metrics.addCost at hadd
  split_ifs at hadd
  cases hadd
  have hcosts : StatsLog.costs (log ++ [(serviceId, .cost value)]) serviceId
      = log.costs serviceId ++ [value] := costs_append_self rfl
  have husages : StatsLog.usages (log ++ [(serviceId, .cost value)]) serviceId
      = log.usages serviceId := by
    rw [usages_append_self rfl]
    exact List.append_nil _
  constructor
  · rw [hcosts, List.sum_append, ← h.cost]
    simp
  all_goals rw [husages]
  · exact h.promptTokens
  · exact h.completionTokens
  · exact h.cacheReadTokens
  · exact h.cacheWriteTokens

theorem Totals.addTokenUsage (h : Totals log serviceId m) (usage : CompletionUsage) :
    Totals (log ++ [(serviceId, .usage usage)]) serviceId (m.addTokenUsage usage) := by
  have hcosts : StatsLog.costs (log ++ [(serviceId, .usage usage)]) serviceId
      = log.costs serviceId := by
    rw [costs_append_self rfl]
    exact List.append_nil _
  have husages : StatsLog.usages (log ++ [(serviceId, .usage usage)]) serviceId
      = log.usages serviceId ++ [usage] := usages_append_self rfl
  constructor
  · rw [hcosts]
    exact h.cost
  all_goals
    rw [husages, List.map_append, List.sum_append]
    unfold Metrics.addTokenUsage TokenUsage.add CompletionUsage.record
    simp [h.promptTokens, h.completionTokens, h.cacheReadTokens, h.cacheWriteTokens]

/-- A service that was not used has sums of nothing. -/
theorem totals_new (hnew : serviceId ∉ log.services) (modelName : String) :
    Totals log serviceId (.new modelName) := by
  have hnone : ∀ entry ∈ log, entry.1 ≠ serviceId :=
    fun entry hentry heq => hnew (heq ▸ List.mem_map_of_mem hentry)
  have hcosts : log.costs serviceId = [] := by
    unfold StatsLog.costs
    rw [List.filterMap_eq_nil_iff]
    exact fun entry hentry => if_neg (hnone entry hentry)
  have husages : log.usages serviceId = [] := by
    unfold StatsLog.usages
    rw [List.filterMap_eq_nil_iff]
    exact fun entry hentry => if_neg (hnone entry hentry)
  constructor
  · rw [hcosts]
    rfl
  all_goals
    rw [husages]
    rfl

end

/-! ## Where the metrics are -/

namespace Process

/-- The metrics of a service: those of its LLM, or those that were restored. -/
def metricsOf (p : Process) (serviceId : ServiceId) : Option Metrics :=
  ((p.stats.serviceToMetrics.get? serviceId).bind (p.heap[·]?)).or
    (p.stats.restoredMetrics.get? serviceId)

/-- The statistics share the metrics of each LLM, no two LLMs have the same metrics, and the
restored metrics are those of other services. -/
structure Linked (p : Process) : Prop where
  subscribed : p.registry.subscribed = true
  shared : ∀ s, (p.registry.serviceToLlm.get? s).map LLM.metrics
    = p.stats.serviceToMetrics.get? s
  live : ∀ s r, p.stats.serviceToMetrics.get? s = some r → r < p.heap.length
  distinct : ∀ s s' r, p.stats.serviceToMetrics.get? s = some r →
    p.stats.serviceToMetrics.get? s' = some r → s = s'
  waiting : ∀ s, p.stats.serviceToMetrics.get? s ≠ none → p.stats.restoredMetrics.get? s = none

section

variable {p : Process} {serviceId : ServiceId} {llm : LLM}

/-- An LLM that is new to the statistics. -/
structure NewLlm (p : Process) (serviceId : ServiceId) (llm : LLM) : Prop where
  subscribed : p.registry.subscribed = true
  listed : p.registry.serviceToLlm.get? serviceId = some llm
  shared : ∀ s, s ≠ serviceId → (p.registry.serviceToLlm.get? s).map LLM.metrics
    = p.stats.serviceToMetrics.get? s
  unknown : p.stats.serviceToMetrics.get? serviceId = none
  fresh : ∀ s r, p.stats.serviceToMetrics.get? s = some r → r < llm.metrics
  allocated : llm.metrics < p.heap.length
  distinct : ∀ s s' r, p.stats.serviceToMetrics.get? s = some r →
    p.stats.serviceToMetrics.get? s' = some r → s = s'
  waiting : ∀ s, p.stats.serviceToMetrics.get? s ≠ none → p.stats.restoredMetrics.get? s = none

/-- A registration of other metrics under a name that was not known. -/
theorem distinct_set {d : PyDict ServiceId MetricsRef} {ref : MetricsRef}
    (hfresh : ∀ s r, d.get? s = some r → r ≠ ref)
    (hdistinct : ∀ s s' r, d.get? s = some r → d.get? s' = some r → s = s')
    {s s' : ServiceId} {r : MetricsRef} (hs : (d.set serviceId ref).get? s = some r)
    (hs' : (d.set serviceId ref).get? s' = some r) : s = s' := by
  rw [PyDict.get?_set] at hs hs'
  split_ifs at hs hs' with h h' h'
  · rw [h, h']
  · cases hs
    exact absurd rfl (hfresh s' _ hs')
  · cases hs'
    exact absurd rfl (hfresh s _ hs)
  · exact hdistinct s s' r hs hs'

/-- The service has got the metrics `m` under a new reference; those of the others stay. -/
structure Registered (p p' : Process) (serviceId : ServiceId) (ref : MetricsRef) (m : Metrics) :
    Prop where
  subscribed : p'.registry.subscribed = true
  listed : (p'.registry.serviceToLlm.get? serviceId).map LLM.metrics = some ref
  shared : ∀ s, s ≠ serviceId → (p'.registry.serviceToLlm.get? s).map LLM.metrics
    = p.stats.serviceToMetrics.get? s
  set : p'.stats.serviceToMetrics = p.stats.serviceToMetrics.set serviceId ref
  fresh : ∀ s r, p.stats.serviceToMetrics.get? s = some r → r < ref
  kept : ∀ r, r < ref → p'.heap[r]? = p.heap[r]?
  stored : p'.heap[ref]? = some m
  waiting : ∀ s, p'.stats.restoredMetrics.get? s
    = if s = serviceId then none else p.stats.restoredMetrics.get? s

section Registered

variable {p' : Process} {ref : MetricsRef} {m : Metrics}

theorem Registered.linked (h : Registered p p' serviceId ref m) (hnew : NewLlm p serviceId llm) :
    p'.Linked := by
  have hget : ∀ s, p'.stats.serviceToMetrics.get? s
      = if s = serviceId then some ref else p.stats.serviceToMetrics.get? s := by
    intro s
    rw [h.set, PyDict.get?_set]
  have hallocated : ref < p'.heap.length := (List.getElem?_eq_some_iff.mp h.stored).1
  refine ⟨h.subscribed, fun s => ?_, fun s r hr => ?_, ?_, fun s hs => ?_⟩
  · rw [hget]
    split_ifs with hs
    · rw [hs]
      exact h.listed
    · exact h.shared s hs
  · rw [hget] at hr
    split_ifs at hr
    · cases hr
      exact hallocated
    · exact (h.fresh s r hr).trans hallocated
  · intro s s' r hs hs'
    rw [h.set] at hs hs'
    exact distinct_set (fun t r hr => Nat.ne_of_lt (h.fresh t r hr)) hnew.distinct hs hs'
  · rw [hget] at hs
    rw [h.waiting]
    split_ifs at hs ⊢
    · rfl
    · exact hnew.waiting s hs

theorem Registered.metricsOf_eq (h : Registered p p' serviceId ref m) :
    p'.metricsOf = Function.update p.metricsOf serviceId (some m) := by
  funext s
  unfold metricsOf
  rw [h.set, PyDict.get?_set, h.waiting]
  by_cases hs : s = serviceId
  · rw [hs, Function.update_self, if_pos rfl, Option.bind_some, h.stored]
    rfl
  · rw [Function.update_of_ne hs, if_neg hs, if_neg hs]
    cases hr : p.stats.serviceToMetrics.get? s with
    | none => rfl
    | some r => rw [Option.bind_some, Option.bind_some, h.kept r (h.fresh s r hr)]

end Registered

/-- The LLM keeps its metrics, or it gets a copy of what was restored. -/
theorem NewLlm.registered (h : NewLlm p serviceId llm) {m : Metrics}
    (hm : p.heap[llm.metrics]? = some m) :
    ∃ ref, Registered p (p.registerLlm serviceId llm) serviceId ref
      ((p.stats.restoredMetrics.get? serviceId).getD m) := by
  unfold Process.registerLlm
  cases hrestored : p.stats.restoredMetrics.get? serviceId with
  | none =>
    refine ⟨llm.metrics, h.subscribed, ?_, h.shared, rfl, h.fresh, fun r _ => rfl, hm,
      fun s => ?_⟩
    · rw [h.listed]
      rfl
    · split_ifs with hs
      · rw [hs]
        exact hrestored
      · rfl
  | some restored =>
    refine ⟨p.heap.length, h.subscribed, ?_, fun s hs => ?_, rfl,
      fun s r hr => (h.fresh s r hr).trans h.allocated, fun r hr => ?_, ?_, fun s => ?_⟩
    · rw [PyDict.get?_set, if_pos rfl]
      rfl
    · rw [PyDict.get?_set, if_neg hs]
      exact h.shared s hs
    · exact List.getElem?_append_left hr
    · exact List.getElem?_concat_length
    · exact PyDict.get?_pop ..

/-- A registered LLM shares its metrics, which are those that were restored if there are. -/
theorem NewLlm.registerLlm (h : NewLlm p serviceId llm) {m : Metrics}
    (hm : p.heap[llm.metrics]? = some m) :
    (p.registerLlm serviceId llm).Linked
      ∧ (p.registerLlm serviceId llm).file = p.file
      ∧ (p.registerLlm serviceId llm).metricsOf = Function.update p.metricsOf serviceId
          (some ((p.stats.restoredMetrics.get? serviceId).getD m)) := by
  obtain ⟨ref, hregistered⟩ := h.registered hm
  refine ⟨hregistered.linked h, ?_, hregistered.metricsOf_eq⟩
  unfold Process.registerLlm
  cases p.stats.restoredMetrics.get? serviceId <;> rfl

/-- An LLM that is asked for by its service is there, or it is made. -/
theorem getLlm_cases {p' : Process} {config : Option LLMConfig}
    (h : p.getLlm serviceId config = .ok p') :
    (p' = p ∧ p.registry.serviceToLlm.get? serviceId ≠ none)
      ∨ ∃ config, p' = p.createNewLlm serviceId config
        ∧ p.registry.serviceToLlm.get? serviceId = none := by
  unfold getLlm at h
  cases hllm : p.registry.serviceToLlm.get? serviceId with
  | some llm =>
    rw [hllm] at h
    simp only at h
    split_ifs at h
    cases h
    exact Or.inl ⟨rfl, Option.some_ne_none llm⟩
  | none =>
    rw [hllm] at h
    cases config with
    | none => cases h
    | some config =>
      cases h
      exact Or.inr ⟨config, rfl, rfl⟩

theorem getLlmFromAgentConfig_cases (p : Process) (serviceId : ServiceId)
    (config : LLMConfig) :
    (p.getLlmFromAgentConfig serviceId config = p
        ∧ p.registry.serviceToLlm.get? serviceId ≠ none)
      ∨ ∃ config', p.getLlmFromAgentConfig serviceId config = p.createNewLlm serviceId config'
        ∧ p.registry.serviceToLlm.get? serviceId = none := by
  unfold getLlmFromAgentConfig
  rw [← PyDict.isSome_get?]
  cases hllm : p.registry.serviceToLlm.get? serviceId with
  | some llm => exact Or.inl ⟨rfl, Option.some_ne_none llm⟩
  | none => exact Or.inr ⟨config, rfl, rfl⟩

/-- A completion asks the same LLM as the agent would get. -/
theorem requestExtraneousCompletion_eq (p : Process) (serviceId : ServiceId)
    (config : LLMConfig) :
    p.requestExtraneousCompletion serviceId config = p.getLlmFromAgentConfig serviceId config := by
  unfold requestExtraneousCompletion getLlmFromAgentConfig
  cases p.registry.serviceToLlm.contains serviceId <;> rfl

/-- A new LLM of a service that has none. -/
theorem createNewLlm_spec (h : p.Linked) (hnew : p.registry.serviceToLlm.get? serviceId = none)
    (config : LLMConfig) :
    (p.createNewLlm serviceId config).Linked
      ∧ (p.createNewLlm serviceId config).file = p.file
      ∧ (p.createNewLlm serviceId config).metricsOf = Function.update p.metricsOf serviceId
          (some ((p.metricsOf serviceId).getD (.new config.model))) := by
  have hunknown : p.stats.serviceToMetrics.get? serviceId = none := by
    rw [← h.shared, hnew]
    rfl
  set llm : LLM := ⟨config, p.heap.length⟩ with hllm
  set made : Process := { p with
    heap := p.heap ++ [Metrics.new config.model]
    registry := { p.registry with serviceToLlm := p.registry.serviceToLlm.set serviceId llm } }
    with hmade
  have hcreate : p.createNewLlm serviceId config = made.registerLlm serviceId llm := by
    have hnotify : p.createNewLlm serviceId config = made.notify serviceId llm := rfl
    rw [hnotify]
    exact if_pos h.subscribed
  have hmadeNew : NewLlm made serviceId llm := by
    refine ⟨h.subscribed, ?_, fun s hs => ?_, hunknown, h.live, ?_, h.distinct, h.waiting⟩
    · rw [hmade]
      simp only [PyDict.get?_set, if_pos]
    · rw [hmade]
      simp only [PyDict.get?_set]
      rw [if_neg hs]
      exact h.shared s
    · rw [hmade]
      simp only [List.length_append, List.length_singleton]
      exact Nat.lt_succ_self _
  have hmetrics : made.metricsOf = p.metricsOf := by
    funext s
    unfold metricsOf
    rw [hmade]
    simp only
    cases hr : p.stats.serviceToMetrics.get? s with
    | none => rfl
    | some r => rw [Option.bind_some, Option.bind_some, List.getElem?_append_left (h.live s r hr)]
  obtain ⟨hlinked, hfile, hafter⟩ := hmadeNew.registerLlm (m := .new config.model)
    (by rw [hmade]; exact List.getElem?_concat_length)
  rw [hcreate]
  refine ⟨hlinked, hfile, ?_⟩
  rw [hafter, hmetrics]
  congr 2
  unfold metricsOf
  rw [hunknown, Option.bind_none, Option.none_or]

/-- The metrics of a registered service are those of its LLM. -/
theorem Linked.metricsOf_eq (h : p.Linked)
    (hllm : p.registry.serviceToLlm.get? serviceId = some llm) :
    ∃ m, p.heap[llm.metrics]? = some m ∧ p.metricsOf serviceId = some m := by
  have hshared : p.stats.serviceToMetrics.get? serviceId = some llm.metrics := by
    rw [← h.shared, hllm]
    rfl
  have hlive := h.live serviceId _ hshared
  refine ⟨p.heap[llm.metrics], List.getElem?_eq_getElem hlive, ?_⟩
  unfold metricsOf
  rw [hshared, Option.bind_some, List.getElem?_eq_getElem hlive]
  rfl

/-- A cost that is not negative can be recorded. -/
theorem Linked.exists_addCost (h : p.Linked)
    (hllm : p.registry.serviceToLlm.get? serviceId = some llm) (now : ℚ) {value : ℚ}
    (hvalue : 0 ≤ value) : ∃ p', p.step (.addCost serviceId now value) = .ok p' := by
  obtain ⟨m, hm, -⟩ := h.metricsOf_eq hllm
  unfold step record Metrics.addCost
  simp only [hllm, hm, if_neg (not_lt.mpr hvalue)]
  exact ⟨_, rfl⟩

/-- What is recorded with an LLM changes the metrics of its service only. -/
theorem record_spec (h : p.Linked) {change : Metrics → Except MetricsError Metrics} {p' : Process}
    (hrecord : p.record serviceId change = .ok p') :
    p'.Linked ∧ p'.file = p.file ∧ ∃ m m', p.metricsOf serviceId = some m ∧ change m = .ok m'
      ∧ p'.metricsOf = Function.update p.metricsOf serviceId (some m') := by
  unfold record at hrecord
  cases hllm : p.registry.serviceToLlm.get? serviceId with
  | none =>
    rw [hllm] at hrecord
    cases hrecord
  | some llm =>
    obtain ⟨m, hm, hmetricsOf⟩ := h.metricsOf_eq hllm
    rw [hllm] at hrecord
    simp only [hm] at hrecord
    cases hchange : change m with
    | error error =>
      rw [hchange] at hrecord
      cases hrecord
    | ok m' =>
      rw [hchange] at hrecord
      cases hrecord
      have hshared : p.stats.serviceToMetrics.get? serviceId = some llm.metrics := by
        rw [← h.shared, hllm]
        rfl
      refine ⟨⟨h.subscribed, h.shared, fun s r hr => ?_, h.distinct, h.waiting⟩, rfl, m, m',
        hmetricsOf, hchange, ?_⟩
      · rw [List.length_set]
        exact h.live s r hr
      · funext s
        unfold metricsOf
        simp only
        by_cases hs : s = serviceId
        · rw [hs, Function.update_self, hshared, Option.bind_some,
            List.getElem?_set_self (h.live serviceId _ hshared)]
          rfl
        · rw [Function.update_of_ne hs]
          cases hr : p.stats.serviceToMetrics.get? s with
          | none => rfl
          | some r =>
            have hne : llm.metrics ≠ r := by
              rintro rfl
              exact hs (h.distinct s serviceId _ hr hshared)
            rw [Option.bind_some, Option.bind_some, List.getElem?_set_ne hne]

/-- The services of the metrics that are shared. -/
theorem registered_sublist (heap : List Metrics) (entries : List (ServiceId × MetricsRef)) :
    ((entries.filterMap fun entry =>
        (heap[entry.2]?).map fun metrics => (entry.1, metrics)).map Prod.fst).Sublist
      (entries.map Prod.fst) := by
  induction entries with
  | nil => exact List.Sublist.refl []
  | cons entry entries ih =>
    rw [List.filterMap_cons]
    cases heap[entry.2]? with
    | none => exact ih.cons entry.1
    | some metrics => exact ih.cons_cons entry.1

/-- The metrics that a service shares. -/
theorem find?_registered {heap : List Metrics} {entries : List (ServiceId × MetricsRef)}
    (hnodup : (entries.map Prod.fst).Nodup) (s : ServiceId) :
    ((entries.filterMap fun entry => (heap[entry.2]?).map fun metrics => (entry.1, metrics)).find?
        (·.1 = s)).map Prod.snd
      = ((entries.find? (·.1 = s)).map Prod.snd).bind (heap[·]?) := by
  induction entries with
  | nil => rfl
  | cons entry entries ih =>
    rw [List.map_cons, List.nodup_cons] at hnodup
    rw [List.filterMap_cons]
    by_cases hs : entry.1 = s
    · have hnone : entries.find? (·.1 = s) = none := by
        rw [List.find?_eq_none]
        intro other hother heq
        exact hnodup.1 (hs.trans (of_decide_eq_true heq).symm ▸ List.mem_map_of_mem hother)
      rw [List.find?_cons_of_pos (by simpa using hs), Option.map_some, Option.bind_some]
      cases heap[entry.2]? with
      | none =>
        rw [Option.map_none, ih hnodup.2, hnone]
        rfl
      | some metrics => simp [hs]
    · rw [List.find?_cons_of_neg (by simpa using hs), ← ih hnodup.2]
      cases heap[entry.2]? with
      | none => rfl
      | some metrics => simp [hs]

/-- Keys that are set one after another. -/
theorem get?_foldl_set {ν : Type} {entries : List (ServiceId × ν)} (d : PyDict ServiceId ν)
    (hnodup : (entries.map Prod.fst).Nodup) (s : ServiceId) :
    (entries.foldl (fun d entry => d.set entry.1 entry.2) d).get? s
      = ((entries.find? (·.1 = s)).map Prod.snd).or (d.get? s) := by
  induction entries generalizing d with
  | nil => rfl
  | cons entry entries ih =>
    rw [List.map_cons, List.nodup_cons] at hnodup
    rw [List.foldl_cons, ih _ hnodup.2, PyDict.get?_set]
    by_cases hs : s = entry.1
    · have hnone : entries.find? (·.1 = s) = none := by
        rw [List.find?_eq_none]
        intro other hother heq
        exact hnodup.1 (hs ▸ of_decide_eq_true heq ▸ List.mem_map_of_mem hother)
      rw [hnone, if_pos hs, List.find?_cons_of_pos (by simp [hs])]
      rfl
    · rw [if_neg hs, List.find?_cons_of_neg (by simpa using Ne.symm hs)]

/-- What is saved is the metrics of every service. -/
theorem get?_combinedMetrics (p : Process) (s : ServiceId) :
    p.combinedMetrics.get? s = p.metricsOf s := by
  have hnodup := p.stats.serviceToMetrics.nodup
  unfold combinedMetrics registeredMetrics
  rw [get?_foldl_set _ (hnodup.sublist (registered_sublist _ _)), find?_registered hnodup]
  rfl

/-- A new process has the metrics that were saved, and those of the agent's LLM. -/
theorem start_spec (config : LLMConfig) (file : Option (PyDict ServiceId Metrics)) :
    (start config file).Linked ∧ (start config file).file = file
      ∧ (start config file).metricsOf = Function.update (file.getD .empty).get? "agent"
          (some (((file.getD .empty).get? "agent").getD (.new config.model))) := by
  set llm : LLM := ⟨config, 0⟩ with hllm
  set made : Process := {
    heap := [Metrics.new config.model]
    registry := { serviceToLlm := PyDict.empty.set "agent" llm, subscribed := true }
    stats := { serviceToMetrics := .empty, restoredMetrics := file.getD .empty }
    file := file } with hmade
  have hstart : start config file = made.registerLlm "agent" llm := rfl
  have hnew : NewLlm made "agent" llm := by
    refine ⟨rfl, rfl, fun s hs => ?_, rfl, fun s r hr => ?_, Nat.zero_lt_one, ?_, ?_⟩
    · rw [hmade]
      simp only [PyDict.get?_set, if_neg hs]
      rfl
    · cases hr
    · intro s s' r hr
      cases hr
    · exact fun s hs => absurd rfl hs
  obtain ⟨hlinked, hfile, hafter⟩ := hnew.registerLlm (m := .new config.model) rfl
  rw [hstart]
  exact ⟨hlinked, hfile, hafter⟩

end

end Process

/-! ## Runs -/

/-- The metrics of the services, and those in the file, are what was recorded. -/
structure RecordedProcess.Faithful (r : RecordedProcess) : Prop where
  linked : r.process.Linked
  current : Records r.history.current r.process.metricsOf
  saved : Records r.history.saved (r.process.file.getD .empty).get?

theorem records_empty : Records [] (PyDict.empty : PyDict ServiceId Metrics).get? where
  services := fun _ => ⟨fun h => absurd h Bool.false_ne_true, fun h => absurd h List.not_mem_nil⟩
  totals := by
    intro serviceId m h
    cases h

/-- A registered service keeps its metrics, or starts with none. -/
theorem Records.register {log : StatsLog} {metricsOf : ServiceId → Option Metrics}
    (h : Records log metricsOf) (serviceId : ServiceId) (modelName : String) :
    Records (log ++ [(serviceId, .registered)]) (Function.update metricsOf serviceId
      (some ((metricsOf serviceId).getD (.new modelName)))) := by
  refine h.append ?_
  cases hm : metricsOf serviceId with
  | none =>
    have hnew : serviceId ∉ log.services := by
      rw [← h.services, hm]
      exact Bool.false_ne_true
    exact (totals_new hnew modelName).append_other rfl rfl (Or.inl rfl)
  | some m => exact (h.totals serviceId m hm).append_other rfl rfl (Or.inl rfl)

namespace RecordedProcess

theorem faithful_start (config : LLMConfig) : (start config).Faithful := by
  obtain ⟨hlinked, hfile, hmetrics⟩ := Process.start_spec config none
  refine ⟨hlinked, ?_, ?_⟩
  · change Records ([] ++ [("agent", .registered)]) (Process.start config none).metricsOf
    rw [hmetrics]
    exact records_empty.register "agent" config.model
  · change Records [] ((Process.start config none).file.getD .empty).get?
    rw [hfile]
    exact records_empty

section

variable {r : RecordedProcess} {serviceId : ServiceId} {p' : Process}

/-- A registration: the LLM is there, or it is made. -/
theorem Faithful.register (h : r.Faithful)
    (hp' : (p' = r.process ∧ r.process.registry.serviceToLlm.get? serviceId ≠ none)
      ∨ ∃ config, p' = r.process.createNewLlm serviceId config
        ∧ r.process.registry.serviceToLlm.get? serviceId = none) :
    Faithful ⟨p', { r.history with
      current := r.history.current ++ [(serviceId, .registered)] }⟩ := by
  rcases hp' with ⟨rfl, hthere⟩ | ⟨config, rfl, hnew⟩
  · obtain ⟨llm, hllm⟩ := Option.ne_none_iff_exists'.mp hthere
    obtain ⟨m, -, hm⟩ := h.linked.metricsOf_eq hllm
    refine ⟨h.linked, ?_, h.saved⟩
    have hregister := h.current.register serviceId ""
    rw [hm, Option.getD_some, ← hm, Function.update_eq_self] at hregister
    exact hregister
  · obtain ⟨hlinked, hfile, hmetrics⟩ := Process.createNewLlm_spec h.linked hnew config
    refine ⟨hlinked, ?_, ?_⟩
    · change Records _ (r.process.createNewLlm serviceId config).metricsOf
      rw [hmetrics]
      exact h.current.register serviceId config.model
    · change Records _ ((r.process.createNewLlm serviceId config).file.getD .empty).get?
      rw [hfile]
      exact h.saved

/-- What is recorded with an LLM. -/
theorem Faithful.record (h : r.Faithful) {change : Metrics → Except MetricsError Metrics}
    {entry : StatsEntry} (hrecord : r.process.record serviceId change = .ok p')
    (hchange : ∀ {m m'}, Totals r.history.current serviceId m → change m = .ok m' →
      Totals (r.history.current ++ [(serviceId, entry)]) serviceId m') :
    Faithful ⟨p', { r.history with current := r.history.current ++ [(serviceId, entry)] }⟩ := by
  obtain ⟨hlinked, hfile, m, m', hm, hm', hmetrics⟩ := Process.record_spec h.linked hrecord
  refine ⟨hlinked, ?_, ?_⟩
  · change Records _ p'.metricsOf
    rw [hmetrics]
    exact h.current.append (hchange (h.current.totals serviceId m hm) hm')
  · change Records _ (p'.file.getD .empty).get?
    rw [hfile]
    exact h.saved

/-- Every operation keeps the statistics faithful. -/
theorem Faithful.perform (h : r.Faithful) (op : StatsOp) : (r.perform op).Faithful := by
  unfold RecordedProcess.perform
  cases hstep : r.process.step op with
  | error error => exact h
  | ok p' =>
    cases op with
    | getLlm serviceId config =>
      exact h.register (Process.getLlm_cases hstep)
    | getLlmFromAgentConfig serviceId config =>
      cases hstep
      exact h.register (r.process.getLlmFromAgentConfig_cases serviceId config)
    | requestExtraneousCompletion serviceId config =>
      cases hstep
      rw [Process.requestExtraneousCompletion_eq]
      exact h.register (r.process.getLlmFromAgentConfig_cases serviceId config)
    | addCost serviceId now value =>
      exact h.record hstep fun htotals hadd => htotals.addCost hadd
    | addTokenUsage serviceId usage =>
      change r.process.record serviceId (fun m => .ok (m.addTokenUsage usage)) = .ok p' at hstep
      refine h.record hstep fun htotals hadd => ?_
      cases hadd
      exact htotals.addTokenUsage usage
    | addResponseLatency serviceId value responseId =>
      change r.process.record serviceId
        (fun m => .ok (m.addResponseLatency value responseId)) = .ok p' at hstep
      refine h.record hstep fun htotals hadd => ?_
      cases hadd
      exact htotals.append_other rfl rfl (Or.inr rfl)
    | saveMetrics =>
      cases hstep
      change Faithful ⟨r.process.saveMetrics, { r.history with saved := r.history.current }⟩
      refine ⟨⟨h.linked.subscribed, h.linked.shared, h.linked.live, h.linked.distinct,
        h.linked.waiting⟩, h.current, ?_⟩
      have hsaved : r.process.combinedMetrics.get? = r.process.metricsOf :=
        funext r.process.get?_combinedMetrics
      change Records r.history.current r.process.combinedMetrics.get?
      rw [hsaved]
      exact h.current
    | restart config =>
      cases hstep
      obtain ⟨hlinked, hfile, hmetrics⟩ := Process.start_spec config r.process.file
      refine ⟨hlinked, ?_, ?_⟩
      · change Records _ (Process.start config r.process.file).metricsOf
        rw [hmetrics]
        exact h.saved.register "agent" config.model
      · change Records _ ((Process.start config r.process.file).file.getD .empty).get?
        rw [hfile]
        exact h.saved

/-- The statistics are faithful in every run. -/
theorem faithful_run (config : LLMConfig) (ops : List StatsOp) :
    (Run.run perform (start config) ops).Faithful := by
  refine Run.run_invariant (I := Faithful) (C := fun _ _ => True) ?_ (faithful_start config)
    fun _ _ => trivial
  exact fun r op h _ => h.perform op

/-- In every run, over any number of restarts, a save writes each service that was used once,
with the sums of everything that was recorded for it. -/
theorem saveMetrics_file (config : LLMConfig) (ops : List StatsOp) :
    ∃ file, (Run.run perform (start config) ops).process.saveMetrics.file = some file
      ∧ file.keys.Nodup
      ∧ (∀ serviceId, serviceId ∈ file.keys
          ↔ serviceId ∈ (Run.run perform (start config) ops).history.current.services)
      ∧ ∀ serviceId m, file.get? serviceId = some m →
          Totals (Run.run perform (start config) ops).history.current serviceId m := by
  have h := (faithful_run config ops).current
  set r := Run.run perform (start config) ops
  refine ⟨r.process.combinedMetrics, rfl, r.process.combinedMetrics.nodup, fun s => ?_,
    fun s m hm => ?_⟩
  · rw [← h.services, ← r.process.get?_combinedMetrics, PyDict.isSome_get?]
    simp [PyDict.contains]
  · rw [r.process.get?_combinedMetrics] at hm
    exact h.totals s m hm

/-- A cost that is not negative is recorded for every service with an LLM. -/
theorem perform_addCost (config : LLMConfig) (ops : List StatsOp) {serviceId : ServiceId} {llm : LLM}
    (hllm : (Run.run perform (start config) ops).process.registry.serviceToLlm.get? serviceId
      = some llm) (now : ℚ) {value : ℚ} (hvalue : 0 ≤ value) :
    (Run.run perform (start config) (ops ++ [.addCost serviceId now value])).history.current
      = (Run.run perform (start config) ops).history.current ++ [(serviceId, .cost value)] := by
  obtain ⟨p', hstep⟩ := (faithful_run config ops).linked.exists_addCost hllm now hvalue
  rw [Run.run, List.foldl_concat, ← Run.run, perform, hstep]
  rfl

/-- What a process has paid is in the file of the next one. -/
example :
    (((Run.run perform (start ⟨"model", []⟩) [.addCost "agent" 1 2, .saveMetrics,
      .restart ⟨"model", []⟩, .addCost "agent" 3 1]).process.saveMetrics.file.bind (·.get? "agent")).map
        Metrics.accumulatedCost) = some 3 := by
  decide +kernel

end

end RecordedProcess

end OpenHands
