/-
# The metrics of an LLM

What the completions of an LLM cost and used is added to its metrics, and metrics are added
up.  Amounts of money are floating-point numbers: `rounding` is what their arithmetic does to
an exact sum.  It is `PyFloat.rounded` where a result turns on the rounding, and `id` where
amounts are added as if they were exact.
-/
import Mathlib
import OpenHands.EventSerialization

namespace OpenHands.Serialization

/-- `TokenUsage.__add__`. -/
def TokenUsage.add (usage other : TokenUsage) : TokenUsage where
  model := usage.model
  promptTokens := usage.promptTokens + other.promptTokens
  completionTokens := usage.completionTokens + other.completionTokens
  cacheReadTokens := usage.cacheReadTokens + other.cacheReadTokens
  cacheWriteTokens := usage.cacheWriteTokens + other.cacheWriteTokens
  contextWindow := max usage.contextWindow other.contextWindow
  perTurnToken := other.perTurnToken
  responseId := usage.responseId

inductive MetricsError
  /-- `ValueError`: "Added cost cannot be negative." -/
  | negativeCost

/-- What one completion used: the arguments of `add_token_usage`. -/
structure CompletionUsage where
  promptTokens : ℤ
  completionTokens : ℤ
  cacheReadTokens : ℤ
  cacheWriteTokens : ℤ
  contextWindow : ℤ
  responseId : String

/-- A usage as the record of a model. -/
def CompletionUsage.record (usage : CompletionUsage) (model responseId : String) : TokenUsage where
  model := model
  promptTokens := usage.promptTokens
  completionTokens := usage.completionTokens
  cacheReadTokens := usage.cacheReadTokens
  cacheWriteTokens := usage.cacheWriteTokens
  contextWindow := usage.contextWindow
  perTurnToken := usage.promptTokens + usage.completionTokens
  responseId := responseId

namespace Metrics

/-- `Metrics(model_name)`. -/
def new (modelName : String) : Metrics where
  modelName := modelName
  accumulatedTokenUsage := { model := modelName }

/-- `Metrics.add_cost` at the time `now`. -/
def addCost (rounding : ℚ → ℚ) (m : Metrics) (now value : ℚ) : Except MetricsError Metrics :=
  if value < 0 then .error .negativeCost
  else
    .ok { m with
      accumulatedCost := rounding (m.accumulatedCost + value)
      costs := m.costs ++ [⟨m.modelName, value, now⟩] }

/-- `Metrics.add_response_latency`. -/
def addResponseLatency (m : Metrics) (value : ℚ) (responseId : String) : Metrics :=
  { m with
    responseLatencies := m.responseLatencies ++ [⟨m.modelName, max 0 value, responseId⟩] }

/-- `Metrics.add_token_usage`. -/
def addTokenUsage (m : Metrics) (usage : CompletionUsage) : Metrics :=
  { m with
    tokenUsages := m.tokenUsages ++ [usage.record m.modelName usage.responseId]
    accumulatedTokenUsage := m.accumulatedTokenUsage.add (usage.record m.modelName "") }

/-- `Metrics.merge`. -/
def merge (rounding : ℚ → ℚ) (m other : Metrics) : Metrics :=
  { m with
    accumulatedCost := rounding (m.accumulatedCost + other.accumulatedCost)
    maxBudgetPerTask := m.maxBudgetPerTask.or other.maxBudgetPerTask
    costs := m.costs ++ other.costs
    tokenUsages := m.tokenUsages ++ other.tokenUsages
    responseLatencies := m.responseLatencies ++ other.responseLatencies
    accumulatedTokenUsage := m.accumulatedTokenUsage.add other.accumulatedTokenUsage }

end Metrics

end OpenHands.Serialization
