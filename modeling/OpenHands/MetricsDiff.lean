/-
# What was recorded after a snapshot of metrics

The metrics of an operation are the difference between the metrics of the LLM and a copy
that was taken before.  Latencies and token usages behind the copy are found by the length of
its lists, costs by the time of its last cost, and totals are subtracted.  The token totals are
therefore those of the records behind the copy; the listed costs are the costs behind the copy
exactly when all of them have a later time than the last cost of the copy.  The total of the
costs is a floating-point number, rounded whenever a cost is added and once more when the total
of the copy is taken off.
-/
import OpenHands.Lib.PyFloat
import OpenHands.LLMMetrics

namespace OpenHands.Serialization

namespace Metrics

/-- `Metrics.copy`. -/
def copy (m : Metrics) : Metrics := m

/-- `Metrics.diff`, as long as no sum leaves the range of `float`. -/
def diff (m baseline : Metrics) : Metrics where
  modelName := m.modelName
  accumulatedCost := PyFloat.rounded (m.accumulatedCost - baseline.accumulatedCost)
  costs :=
    match baseline.costs.getLast? with
    | some last => m.costs.filter fun cost => last.timestamp < cost.timestamp
    | none => m.costs
  responseLatencies := m.responseLatencies.drop baseline.responseLatencies.length
  tokenUsages := m.tokenUsages.drop baseline.tokenUsages.length
  accumulatedTokenUsage :=
    { model := m.modelName
      promptTokens := m.accumulatedTokenUsage.promptTokens
        - baseline.accumulatedTokenUsage.promptTokens
      completionTokens := m.accumulatedTokenUsage.completionTokens
        - baseline.accumulatedTokenUsage.completionTokens
      cacheReadTokens := m.accumulatedTokenUsage.cacheReadTokens
        - baseline.accumulatedTokenUsage.cacheReadTokens
      cacheWriteTokens := m.accumulatedTokenUsage.cacheWriteTokens
        - baseline.accumulatedTokenUsage.cacheWriteTokens
      contextWindow := m.accumulatedTokenUsage.contextWindow
      perTurnToken := 0
      responseId := "" }

end Metrics

/-! ## Records and their totals -/

/-- What metrics list. -/
structure MetricsRecords where
  costs : List Cost := []
  responseLatencies : List ResponseLatency := []
  tokenUsages : List TokenUsage := []

namespace MetricsRecords

/-- The records of `r` and behind them those of `s`. -/
def append (r s : MetricsRecords) : MetricsRecords where
  costs := r.costs ++ s.costs
  responseLatencies := r.responseLatencies ++ s.responseLatencies
  tokenUsages := r.tokenUsages ++ s.tokenUsages

/-- The sum of the costs. -/
def cost (r : MetricsRecords) : ℚ := (r.costs.map (·.cost)).sum

/-- The sum of one of the counts of the token usages. -/
def tokens (r : MetricsRecords) (count : TokenUsage → ℤ) : ℤ := (r.tokenUsages.map count).sum

theorem tokens_append (r s : MetricsRecords) (count : TokenUsage → ℤ) :
    (r.append s).tokens count = r.tokens count + s.tokens count := by
  unfold tokens append
  rw [List.map_append, List.sum_append]

end MetricsRecords

namespace Metrics

/-- The records of metrics. -/
def records (m : Metrics) : MetricsRecords where
  costs := m.costs
  responseLatencies := m.responseLatencies
  tokenUsages := m.tokenUsages

/-- The token totals of `m` are ahead of those of `baseline` by the sums of the records. -/
structure AheadBy (m baseline : Metrics) (r : MetricsRecords) : Prop where
  promptTokens : m.accumulatedTokenUsage.promptTokens
    = baseline.accumulatedTokenUsage.promptTokens + r.tokens (·.promptTokens)
  completionTokens : m.accumulatedTokenUsage.completionTokens
    = baseline.accumulatedTokenUsage.completionTokens + r.tokens (·.completionTokens)
  cacheReadTokens : m.accumulatedTokenUsage.cacheReadTokens
    = baseline.accumulatedTokenUsage.cacheReadTokens + r.tokens (·.cacheReadTokens)
  cacheWriteTokens : m.accumulatedTokenUsage.cacheWriteTokens
    = baseline.accumulatedTokenUsage.cacheWriteTokens + r.tokens (·.cacheWriteTokens)

/-- The token totals of the metrics are the sums of its records. -/
def Balanced (m : Metrics) : Prop := m.AheadBy (new m.modelName) m.records

end Metrics

/-- Metrics whose token totals are the sums of their records, as every LLM and every operation
below leaves them. -/
structure RecordedMetrics where
  metrics : Metrics
  balanced : metrics.Balanced

/-- The operations on metrics. -/
inductive MetricsOp
  | addCost (now value : ℚ)
  | addResponseLatency (value : ℚ) (responseId : String)
  | addTokenUsage (usage : CompletionUsage)
  | merge (other : RecordedMetrics)

namespace Metrics

/-- One operation; a negative cost raises an error and is not added. -/
def perform (m : Metrics) : MetricsOp → Metrics
  | .addCost now value =>
    match m.addCost PyFloat.rounded now value with
    | .ok m' => m'
    | .error _ => m
  | .addResponseLatency value responseId => m.addResponseLatency value responseId
  | .addTokenUsage usage => m.addTokenUsage usage
  | .merge other => m.merge PyFloat.rounded other.metrics

/-- The operations one after the other. -/
def performAll (m : Metrics) (ops : List MetricsOp) : Metrics := ops.foldl perform m

end Metrics

/-- What an operation records in metrics of the model. -/
def MetricsOp.recorded (modelName : String) : MetricsOp → MetricsRecords
  | .addCost now value => if value < 0 then {} else { costs := [⟨modelName, value, now⟩] }
  | .addResponseLatency value responseId =>
    { responseLatencies := [⟨modelName, max 0 value, responseId⟩] }
  | .addTokenUsage usage => { tokenUsages := [usage.record modelName usage.responseId] }
  | .merge other => other.metrics.records

/-- What the operations record, in order. -/
def recordedBy (modelName : String) : List MetricsOp → MetricsRecords
  | [] => {}
  | op :: ops => (op.recorded modelName).append (recordedBy modelName ops)

namespace Metrics

variable {m baseline : Metrics} {r s : MetricsRecords}

theorem AheadBy.refl (m : Metrics) : m.AheadBy m {} := by
  constructor <;> simp [MetricsRecords.tokens]

theorem AheadBy.trans {m' : Metrics} (h : m.AheadBy baseline r) (h' : m'.AheadBy m s) :
    m'.AheadBy baseline (r.append s) := by
  constructor
  all_goals rw [MetricsRecords.tokens_append, ← add_assoc]
  · rw [h'.promptTokens, h.promptTokens]
  · rw [h'.completionTokens, h.completionTokens]
  · rw [h'.cacheReadTokens, h.cacheReadTokens]
  · rw [h'.cacheWriteTokens, h.cacheWriteTokens]

/-! ## One operation -/

theorem perform_modelName (m : Metrics) (op : MetricsOp) :
    (m.perform op).modelName = m.modelName := by
  cases op with
  | addCost now value =>
    by_cases hneg : value < 0 <;> simp [perform, addCost, hneg]
  | addResponseLatency value responseId => rfl
  | addTokenUsage usage => rfl
  | merge other => rfl

/-- An operation lists what it records behind what is there. -/
theorem perform_records (m : Metrics) (op : MetricsOp) :
    (m.perform op).records = m.records.append (op.recorded m.modelName) := by
  unfold MetricsRecords.append
  cases op with
  | addCost now value =>
    unfold perform addCost MetricsOp.recorded records
    by_cases hneg : value < 0
    · simp [hneg]
    · simp [hneg]
  | addResponseLatency value responseId =>
    simp [perform, addResponseLatency, MetricsOp.recorded, records]
  | addTokenUsage usage => simp [perform, addTokenUsage, MetricsOp.recorded, records]
  | merge other => rfl

/-- An operation adds what it records to the token totals. -/
theorem perform_aheadBy (m : Metrics) (op : MetricsOp) :
    (m.perform op).AheadBy m (op.recorded m.modelName) := by
  cases op with
  | addCost now value =>
    unfold perform addCost MetricsOp.recorded
    by_cases hneg : value < 0
    · simp only [hneg, if_true]
      exact .refl m
    · simp only [hneg, if_false]
      constructor <;> simp [MetricsRecords.tokens]
  | addResponseLatency value responseId =>
    constructor <;> simp [perform, addResponseLatency, MetricsOp.recorded,
      MetricsRecords.tokens]
  | addTokenUsage usage =>
    constructor <;> simp [perform, addTokenUsage, MetricsOp.recorded, MetricsRecords.tokens,
      TokenUsage.add, CompletionUsage.record]
  | merge other =>
    -- The totals of the other metrics are the sums of what is taken over from it.
    obtain ⟨hprompt, hcompletion, hread, hwrite⟩ := other.balanced
    simp only [new, zero_add] at hprompt hcompletion hread hwrite
    constructor
    · exact congrArg (m.accumulatedTokenUsage.promptTokens + ·) hprompt
    · exact congrArg (m.accumulatedTokenUsage.completionTokens + ·) hcompletion
    · exact congrArg (m.accumulatedTokenUsage.cacheReadTokens + ·) hread
    · exact congrArg (m.accumulatedTokenUsage.cacheWriteTokens + ·) hwrite

/-! ## A run of operations -/

theorem performAll_modelName (m : Metrics) (ops : List MetricsOp) :
    (m.performAll ops).modelName = m.modelName := by
  induction ops generalizing m with
  | nil => rfl
  | cons op ops ih => exact (ih (m.perform op)).trans (m.perform_modelName op)

theorem performAll_records (m : Metrics) (ops : List MetricsOp) :
    (m.performAll ops).records = m.records.append (recordedBy m.modelName ops) := by
  induction ops generalizing m with
  | nil => simp [performAll, recordedBy, MetricsRecords.append, records]
  | cons op ops ih =>
    have hrest := ih (m.perform op)
    rw [m.perform_modelName, m.perform_records] at hrest
    rw [performAll, List.foldl_cons, ← performAll, hrest, recordedBy]
    simp [MetricsRecords.append]

theorem performAll_aheadBy (m : Metrics) (ops : List MetricsOp) :
    (m.performAll ops).AheadBy m (recordedBy m.modelName ops) := by
  induction ops generalizing m with
  | nil => exact .refl m
  | cons op ops ih =>
    have hrest := ih (m.perform op)
    rw [m.perform_modelName] at hrest
    exact (m.perform_aheadBy op).trans hrest

/-- What is recorded in new metrics is balanced, and can be merged into other metrics. -/
theorem balanced_performAll_new (modelName : String) (ops : List MetricsOp) :
    ((new modelName).performAll ops).Balanced := by
  have hname : ((new modelName).performAll ops).modelName = modelName :=
    performAll_modelName _ ops
  have hrecords : ((new modelName).performAll ops).records = recordedBy modelName ops := by
    rw [performAll_records]
    simp [MetricsRecords.append, records, new]
  unfold Balanced
  rw [hname, hrecords]
  exact performAll_aheadBy (new modelName) ops

/-! ## The difference -/

/-- The metrics list exactly the records, and their totals are the sums of the records. -/
structure Reports (m : Metrics) (r : MetricsRecords) : Prop where
  costs : m.costs = r.costs
  responseLatencies : m.responseLatencies = r.responseLatencies
  tokenUsages : m.tokenUsages = r.tokenUsages
  accumulatedCost : m.accumulatedCost = r.cost
  promptTokens : m.accumulatedTokenUsage.promptTokens = r.tokens (·.promptTokens)
  completionTokens : m.accumulatedTokenUsage.completionTokens = r.tokens (·.completionTokens)
  cacheReadTokens : m.accumulatedTokenUsage.cacheReadTokens = r.tokens (·.cacheReadTokens)
  cacheWriteTokens : m.accumulatedTokenUsage.cacheWriteTokens = r.tokens (·.cacheWriteTokens)

/-- Where the baseline has costs, its last cost is none earlier than its other costs and
earlier than every later cost. -/
def LastCostBefore (baseline : Metrics) (later : List Cost) : Prop :=
  ∀ last ∈ baseline.costs.getLast?, (∀ cost ∈ baseline.costs, cost.timestamp ≤ last.timestamp) ∧
    ∀ cost ∈ later, last.timestamp < cost.timestamp

/-- A filter keeps exactly the second part of a list when it keeps nothing of the first part
and everything of the second. -/
theorem filter_append_eq_right {α : Type*} {p : α → Bool} {xs ys : List α} :
    (xs ++ ys).filter p = ys ↔ (∀ x ∈ xs, p x = false) ∧ ∀ y ∈ ys, p y = true := by
  constructor
  · intro h
    -- What a filter leaves passes the filter.
    have hys : ∀ y ∈ ys, p y = true := fun y hy => (List.mem_filter.mp (h.symm ▸ hy)).2
    rw [List.filter_append, List.filter_eq_self.mpr hys, List.append_left_eq_self,
      List.filter_eq_nil_iff] at h
    exact ⟨fun x hx => Bool.eq_false_iff.mpr (h x hx), hys⟩
  · rintro ⟨hxs, hys⟩
    rw [List.filter_append, List.filter_eq_self.mpr hys,
      List.filter_eq_nil_iff.mpr fun x hx => Bool.eq_false_iff.mp (hxs x hx), List.nil_append]

/-- The costs of the difference are the later costs exactly when the time of the last cost of
the baseline separates them from the earlier ones. -/
theorem diff_costs_iff {later : List Cost} (hcosts : m.costs = baseline.costs ++ later) :
    (m.diff baseline).costs = later ↔ baseline.LastCostBefore later := by
  unfold diff LastCostBefore
  cases hlast : baseline.costs.getLast? with
  | none =>
    rw [List.getLast?_eq_none_iff] at hlast
    simp [hcosts, hlast]
  | some last =>
    simp only [hcosts, Option.mem_def, Option.some.injEq, forall_eq', filter_append_eq_right]
    simp

/-- The total is right when the costs add up to what its growth is rounded to; everything else
of the difference is right in any case. -/
theorem diff_reports_iff (h : m.AheadBy baseline r)
    (hrecords : m.records = baseline.records.append r) :
    (m.diff baseline).Reports r ↔ baseline.LastCostBefore r.costs ∧
      PyFloat.RoundsTo (m.accumulatedCost - baseline.accumulatedCost) r.cost := by
  have hcosts : m.costs = baseline.costs ++ r.costs := congrArg MetricsRecords.costs hrecords
  have hlatencies : m.responseLatencies = baseline.responseLatencies ++ r.responseLatencies :=
    congrArg MetricsRecords.responseLatencies hrecords
  have husages : m.tokenUsages = baseline.tokenUsages ++ r.tokenUsages :=
    congrArg MetricsRecords.tokenUsages hrecords
  rw [← diff_costs_iff hcosts, ← PyFloat.rounded_eq_iff]
  constructor
  · exact fun hreports => ⟨hreports.costs, hreports.accumulatedCost⟩
  · rintro ⟨hdiff, htotal⟩
    refine ⟨hdiff, ?_, ?_, htotal, ?_, ?_, ?_, ?_⟩ <;> unfold diff
    · simp [hlatencies]
    · simp [husages]
    · simp [h.promptTokens]
    · simp [h.completionTokens]
    · simp [h.cacheReadTokens]
    · simp [h.cacheWriteTokens]

/-- A later cost that is lost to rounding. -/
example :
    let m := (new "gpt").performAll [.addCost 0 (10 ^ 16)]
    ((m.performAll [.addCost 1 (1 / 2)]).diff m.copy).accumulatedCost = 0 := by decide +kernel

end Metrics

end OpenHands.Serialization
