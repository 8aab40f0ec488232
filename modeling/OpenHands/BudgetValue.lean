/-
# The value of the budget

The cost of a conversation is what its registered services cost and what the services cost
that are not registered again after a restart.  The budget's value counts the former only
(`accumulatedCost_getCombinedMetrics_add`), so it is the cost of the conversation exactly
when no other service had a cost.  Amounts are added without rounding.
-/
import OpenHands.SavedStats
import OpenHands.StateTracker
import Mathlib.Algebra.BigOperators.Group.Finset.Piecewise
import Mathlib.Algebra.Order.BigOperators.Group.List
import Mathlib.Algebra.Order.Ring.Rat

namespace OpenHands

open Serialization

/-! ## The cost of a conversation -/

/-- The cost of an entry. -/
def StatsEntry.cost? : StatsEntry → Option ℚ
  | .cost value => some value
  | _ => none

/-- Everything that was recorded as a cost. -/
def StatsLog.totalCost (log : StatsLog) : ℚ := (log.filterMap fun entry => entry.2.cost?).sum

theorem StatsLog.costs_eq (log : StatsLog) (serviceId : ServiceId) : log.costs serviceId
    = log.filterMap fun entry => if entry.1 = serviceId then entry.2.cost? else none := by
  unfold StatsLog.costs
  congr 1

/-- An amount that belongs to one of the keys. -/
theorem sum_map_ite {keys : List ServiceId} (hnodup : keys.Nodup) {key : ServiceId}
    (hkey : key ∈ keys) (value : ℚ) :
    (keys.map fun k => if key = k then value else 0).sum = value := by
  rw [← List.sum_toFinset _ hnodup, Finset.sum_ite_eq, if_pos (List.mem_toFinset.mpr hkey)]

/-- The costs of all services are all costs. -/
theorem sum_costs {keys : List ServiceId} (hnodup : keys.Nodup) {log : StatsLog}
    (hkeys : ∀ serviceId ∈ log.services, serviceId ∈ keys) :
    (keys.map fun k => (log.costs k).sum).sum = log.totalCost := by
  induction log with
  | nil =>
    refine List.sum_eq_zero fun x hx => ?_
    obtain ⟨k, -, rfl⟩ := List.mem_map.mp hx
    rfl
  | cons entry log ih =>
    have hstep : ∀ k, (StatsLog.costs (entry :: log) k).sum
        = (if entry.1 = k then entry.2.cost?.getD 0 else 0) + (StatsLog.costs log k).sum := by
      intro k
      rw [StatsLog.costs_eq, StatsLog.costs_eq, List.filterMap_cons]
      split_ifs with hk
      · cases entry.2.cost? with
        | none => exact (zero_add _).symm
        | some value => exact List.sum_cons
      · exact (zero_add _).symm
    have hentry : entry.1 ∈ keys := hkeys _ List.mem_cons_self
    rw [List.map_congr_left fun k _ => hstep k, List.sum_map_add, sum_map_ite hnodup hentry,
      ih fun s hs => hkeys s (List.mem_cons_of_mem _ hs)]
    unfold StatsLog.totalCost
    rw [List.filterMap_cons]
    cases entry.2.cost? with
    | none => exact zero_add _
    | some value => exact List.sum_cons.symm

/-! ## Registered and restored services -/

namespace Process

/-- What the services cost that were restored and not registered again. -/
def waitingCost (p : Process) : ℚ :=
  (p.stats.restoredMetrics.entries.map fun entry => entry.2.accumulatedCost).sum

/-- No service with a cost waits for its registration. -/
def NothingWaiting (p : Process) : Prop :=
  ∀ serviceId m, p.stats.restoredMetrics.get? serviceId = some m → m.accumulatedCost = 0

theorem accumulatedCost_getCombinedMetrics (p : Process) :
    p.getCombinedMetrics.accumulatedCost
      = (p.registeredMetrics.map fun entry => entry.2.accumulatedCost).sum := by
  have hfold : ∀ (list : List Metrics) (m : Metrics),
      (list.foldl (Metrics.merge id) m).accumulatedCost
        = m.accumulatedCost + (list.map (·.accumulatedCost)).sum := by
    intro list
    induction list with
    | nil => exact fun m => (add_zero _).symm
    | cons first list ih =>
      intro m
      rw [List.foldl_cons, ih, List.map_cons, List.sum_cons]
      exact add_assoc _ _ _
  unfold getCombinedMetrics
  rw [hfold, List.map_map]
  exact zero_add _

end Process

namespace RecordedProcess

variable {r : RecordedProcess}

/-- The costs of restored services are what was recorded for them. -/
theorem Faithful.waitingCost_eq (h : r.Faithful) : r.process.waitingCost
    = (r.process.stats.restoredMetrics.keys.map fun k => (r.history.current.costs k).sum).sum := by
  unfold Process.waitingCost PyDict.keys
  rw [List.map_map]
  congr 1
  refine List.map_congr_left fun entry hentry => ?_
  have hget := PyDict.get?_eq_some_iff.mpr hentry
  have hunregistered : r.process.stats.serviceToMetrics.get? entry.1 = none := by
    by_contra hregistered
    rw [h.linked.waiting _ hregistered] at hget
    cases hget
  refine (h.current.totals entry.1 entry.2 ?_).cost
  unfold Process.metricsOf
  rw [hunregistered, hget]
  rfl

/-- The costs of registered services are what was recorded for them. -/
theorem Faithful.registeredCost_eq (h : r.Faithful) :
    r.process.getCombinedMetrics.accumulatedCost
      = (r.process.stats.serviceToMetrics.keys.map fun k =>
          (r.history.current.costs k).sum).sum := by
  rw [r.process.accumulatedCost_getCombinedMetrics]
  unfold Process.registeredMetrics PyDict.keys
  rw [List.map_map, List.map_filterMap]
  congr 1
  rw [← List.filterMap_eq_map]
  refine List.filterMap_congr fun entry hentry => ?_
  have hget := PyDict.get?_eq_some_iff.mpr hentry
  have hlive := h.linked.live _ _ hget
  have hm : r.process.metricsOf entry.1 = some r.process.heap[entry.2] := by
    unfold Process.metricsOf
    rw [hget, Option.bind_some, List.getElem?_eq_getElem hlive]
    rfl
  rw [List.getElem?_eq_getElem hlive, Option.map_some, Option.map_some,
    (h.current.totals entry.1 _ hm).cost]
  rfl

/-- The combined metrics have the cost of the conversation, up to what the services cost that
wait for their registration. -/
theorem Faithful.accumulatedCost_getCombinedMetrics_add (h : r.Faithful) :
    r.process.getCombinedMetrics.accumulatedCost + r.process.waitingCost
      = r.history.current.totalCost := by
  have hnodup : (r.process.stats.serviceToMetrics.keys
      ++ r.process.stats.restoredMetrics.keys).Nodup := by
    refine List.nodup_append.mpr
      ⟨r.process.stats.serviceToMetrics.nodup, r.process.stats.restoredMetrics.nodup, ?_⟩
    rintro s hs s' hs' rfl
    have hregistered : r.process.stats.serviceToMetrics.get? s ≠ none :=
      fun hnone => PyDict.get?_eq_none_iff.mp hnone hs
    exact PyDict.get?_eq_none_iff.mp (h.linked.waiting s hregistered) hs'
  have hall : ∀ s ∈ r.history.current.services,
      s ∈ r.process.stats.serviceToMetrics.keys ++ r.process.stats.restoredMetrics.keys := by
    intro s hs
    by_contra hnot
    rw [List.mem_append, not_or] at hnot
    have hsome := (h.current.services s).mpr hs
    unfold Process.metricsOf at hsome
    rw [PyDict.get?_eq_none_iff.mpr hnot.1, PyDict.get?_eq_none_iff.mpr hnot.2] at hsome
    exact Bool.false_ne_true hsome
  rw [h.registeredCost_eq, h.waitingCost_eq, ← List.sum_append, ← List.map_append,
    sum_costs hnodup hall]

/-! ## Costs are not negative -/

/-- No cost is negative. -/
def CostsNonneg (r : RecordedProcess) : Prop :=
  (∀ entry ∈ r.history.saved, ∀ value ∈ entry.2.cost?, 0 ≤ value)
    ∧ ∀ entry ∈ r.history.current, ∀ value ∈ entry.2.cost?, 0 ≤ value

theorem forall_mem_concat {P : ServiceId × StatsEntry → Prop} {log : StatsLog}
    {entry : ServiceId × StatsEntry} (hlog : ∀ e ∈ log, P e) (hentry : P entry) :
    ∀ e ∈ log ++ [entry], P e := by
  intro e he
  rcases List.mem_append.mp he with he | he
  · exact hlog e he
  · rw [List.mem_singleton.mp he]
    exact hentry

theorem CostsNonneg.perform (h : r.CostsNonneg) (op : StatsOp) :
    (r.perform op).CostsNonneg := by
  unfold RecordedProcess.perform
  cases hstep : r.process.step op with
  | error error => exact h
  | ok p' =>
    cases op with
    | addCost serviceId now value =>
      refine ⟨h.1, forall_mem_concat h.2 fun v hv => ?_⟩
      cases hv
      by_contra hneg
      change r.process.record serviceId (·.addCost id now value) = .ok p' at hstep
      have hraises : ∀ m : Metrics, m.addCost id now value = .error .negativeCost :=
        fun m => if_pos (not_le.mp hneg)
      unfold Process.record at hstep
      simp only [hraises] at hstep
      split at hstep
      · cases hstep
      · split at hstep
        · cases hstep
        · cases hstep
    | saveMetrics => exact ⟨h.2, h.2⟩
    | restart config =>
      refine ⟨h.1, forall_mem_concat h.1 fun v hv => ?_⟩
      cases hv
    | _ =>
      refine ⟨h.1, forall_mem_concat h.2 fun v hv => ?_⟩
      cases hv

theorem costsNonneg_run (config : LLMConfig) (ops : List StatsOp) :
    (Run.run perform (start config) ops).CostsNonneg := by
  refine Run.run_invariant (I := CostsNonneg) (C := fun _ _ => True) (fun r op h _ => h.perform op)
    ⟨fun e he => absurd he List.not_mem_nil, fun e he v hv => ?_⟩ fun _ _ => trivial
  rw [List.mem_singleton.mp he] at hv
  cases hv

/-! ## The budget's value -/

/-- The value that the budget flag gets. -/
def budgetValue (r : RecordedProcess) : ℚ := r.process.getCombinedMetrics.accumulatedCost

/-- The budget flag of a state after `StateTracker.sync_budget_flag_with_metrics`. -/
def syncedBudget (r : RecordedProcess) (state : State) : Option BudgetControlFlag :=
  (StateTracker.syncBudgetFlagWithMetrics state (some r.budgetValue)).budgetFlag

/-- Nothing that was recorded as a cost is lost with a restart. -/
def KeepsCosts (r : RecordedProcess) : StatsOp → Prop
  | .restart _ => r.history.saved.totalCost = r.history.current.totalCost
  | _ => True

theorem costs_nonneg {log : StatsLog} (h : ∀ entry ∈ log, ∀ value ∈ entry.2.cost?, 0 ≤ value)
    (serviceId : ServiceId) : 0 ≤ (log.costs serviceId).sum := by
  refine List.sum_nonneg fun value hvalue => ?_
  rw [StatsLog.costs_eq] at hvalue
  obtain ⟨entry, hentry, hcost⟩ := List.mem_filterMap.mp hvalue
  split_ifs at hcost
  exact h entry hentry value hcost

/-- The restored services have no cost exactly when each of them has none. -/
theorem waitingCost_eq_zero_iff (h : r.Faithful) (hnonneg : r.CostsNonneg) :
    r.process.waitingCost = 0 ↔ r.process.NothingWaiting := by
  have hcost : ∀ s m, r.process.stats.restoredMetrics.get? s = some m → 0 ≤ m.accumulatedCost := by
    intro s m hm
    have hunregistered : r.process.stats.serviceToMetrics.get? s = none := by
      by_contra hregistered
      rw [h.linked.waiting _ hregistered] at hm
      cases hm
    have hmetricsOf : r.process.metricsOf s = some m := by
      unfold Process.metricsOf
      rw [hunregistered, hm]
      rfl
    rw [(h.current.totals s m hmetricsOf).cost]
    exact costs_nonneg hnonneg.2 s
  unfold Process.waitingCost
  constructor
  · intro hzero s m hm
    refine List.all_zero_of_le_zero_le_of_sum_eq_zero ?_ hzero ?_
    · intro value hvalue
      obtain ⟨entry, hentry, rfl⟩ := List.mem_map.mp hvalue
      exact hcost entry.1 entry.2 (PyDict.get?_eq_some_iff.mpr hentry)
    · exact List.mem_map.mpr ⟨(s, m), PyDict.mem_entries_of_get? hm, rfl⟩
  · intro hnothing
    refine List.sum_eq_zero fun value hvalue => ?_
    obtain ⟨entry, hentry, rfl⟩ := List.mem_map.mp hvalue
    exact hnothing entry.1 entry.2 (PyDict.get?_eq_some_iff.mpr hentry)

/-- The budget gets the cost of the conversation exactly when nothing waits. -/
theorem budgetValue_eq_iff (h : r.Faithful) (hnonneg : r.CostsNonneg) :
    r.budgetValue = r.history.current.totalCost ↔ r.process.NothingWaiting := by
  rw [← waitingCost_eq_zero_iff h hnonneg, ← h.accumulatedCost_getCombinedMetrics_add]
  exact left_eq_add

theorem totalCost_append (log log' : StatsLog) :
    StatsLog.totalCost (log ++ log') = log.totalCost + log'.totalCost := by
  unfold StatsLog.totalCost
  rw [List.filterMap_append, List.sum_append]

theorem totalCost_nonneg {log : StatsLog}
    (h : ∀ entry ∈ log, ∀ value ∈ entry.2.cost?, 0 ≤ value) : 0 ≤ log.totalCost := by
  refine List.sum_nonneg fun value hvalue => ?_
  obtain ⟨entry, hentry, hcost⟩ := List.mem_filterMap.mp hvalue
  exact h entry hentry value hcost

/-- What an operation does to the history: it adds an entry, saves, or starts again from what
was saved. -/
theorem current_after (h : History) (op : StatsOp) :
    (∃ entry, (h.after op).current = h.current ++ [entry])
      ∨ (h.after op).current = h.current
      ∨ ∃ config, op = .restart config
        ∧ (h.after op).current = h.saved ++ [("agent", .registered)] := by
  cases op with
  | saveMetrics => exact Or.inr (Or.inl rfl)
  | restart config => exact Or.inr (Or.inr ⟨config, rfl, rfl⟩)
  | _ => exact Or.inl ⟨_, rfl⟩

/-- The cost of a conversation grows with every operation that keeps it. -/
theorem totalCost_le_perform {op : StatsOp} (hnonneg : r.CostsNonneg) (hkeeps : r.KeepsCosts op) :
    r.history.current.totalCost ≤ (r.perform op).history.current.totalCost := by
  have hafter := (hnonneg.perform op).2
  unfold RecordedProcess.perform at hafter ⊢
  split at hafter
  · rcases current_after r.history op with ⟨entry, hcurrent⟩ | hcurrent | ⟨config, rfl, hcurrent⟩
    · simp only [hcurrent] at hafter ⊢
      rw [totalCost_append]
      refine le_add_of_nonneg_right (totalCost_nonneg fun e he => ?_)
      exact hafter e (List.mem_append_right _ he)
    · simp only [hcurrent]
      exact le_refl _
    · have hsaved : r.history.saved.totalCost = r.history.current.totalCost := hkeeps
      simp only [hcurrent]
      rw [totalCost_append, hsaved]
      exact le_of_eq (add_zero _).symm
  · exact le_refl _

theorem totalCost_le_run {ops : List StatsOp} (hnonneg : r.CostsNonneg)
    (hkeeps : ∀ p ∈ Run.steps perform r ops, p.1.KeepsCosts p.2) :
    r.history.current.totalCost ≤ (Run.run perform r ops).history.current.totalCost := by
  induction ops generalizing r with
  | nil => exact le_refl _
  | cons op ops ih =>
    rw [Run.steps_cons, List.forall_mem_cons] at hkeeps
    exact (totalCost_le_perform hnonneg hkeeps.1).trans (ih (hnonneg.perform op) hkeeps.2)

theorem run_append (r : RecordedProcess) (ops ops' : List StatsOp) :
    Run.run perform r (ops ++ ops') = Run.run perform (Run.run perform r ops) ops' :=
  List.foldl_append

/-- In every run the budget gets the cost of the conversation exactly when no restored service
with a cost waits for its registration; between two such states the budget does not decrease
unless a restart lost a cost. -/
theorem syncedBudget_iff (config : LLMConfig) (ops : List StatsOp) :
    ((∀ state : State, (Run.run perform (start config) ops).syncedBudget state
        = state.budgetFlag.map fun flag => { flag with
            currentValue := (Run.run perform (start config) ops).history.current.totalCost })
      ↔ (Run.run perform (start config) ops).process.NothingWaiting)
    ∧ ∀ later : List StatsOp,
      (∀ p ∈ Run.steps perform (Run.run perform (start config) ops) later, p.1.KeepsCosts p.2) →
      (Run.run perform (start config) ops).process.NothingWaiting →
      (Run.run perform (start config) (ops ++ later)).process.NothingWaiting →
        (Run.run perform (start config) ops).budgetValue
          ≤ (Run.run perform (start config) (ops ++ later)).budgetValue := by
  have hvalue : ∀ ops : List StatsOp, (Run.run perform (start config) ops).budgetValue
        = (Run.run perform (start config) ops).history.current.totalCost
      ↔ (Run.run perform (start config) ops).process.NothingWaiting := fun ops =>
    budgetValue_eq_iff (faithful_run config ops) (costsNonneg_run config ops)
  constructor
  · rw [← hvalue]
    constructor
    · intro hall
      have hflag := hall { budgetFlag := some { limitIncreaseAmount := 0, maxValue := 0 } }
      exact congrArg BudgetControlFlag.currentValue (Option.some.inj hflag)
    · intro heq state
      change state.budgetFlag.map _ = _
      rw [heq]
  · intro later hkeeps hnothing hnothing'
    rw [(hvalue ops).mpr hnothing, (hvalue _).mpr hnothing', run_append]
    exact totalCost_le_run (costsNonneg_run config ops) hkeeps

/-! ## A summary before a restart -/

def summaryConfig : LLMConfig where
  model := "gpt"
  settings := []

/-- A service is asked, its cost is saved. -/
def summaryOps : List StatsOp :=
  [.getLlm "summary" (some summaryConfig), .addCost "summary" 0 5, .saveMetrics]

theorem budgetValue_summary_le : (Run.run perform (start summaryConfig) []).budgetValue
    ≤ (Run.run perform (start summaryConfig) ([] ++ summaryOps)).budgetValue := by
  refine (syncedBudget_iff summaryConfig []).2 summaryOps ?_ ?_ ?_
  · intro p hp
    simp only [summaryOps, Run.steps_cons, Run.steps_nil, List.mem_cons, List.not_mem_nil,
      or_false] at hp
    rcases hp with rfl | rfl | rfl <;> trivial
  · intro s m hm
    cases hm
  · intro s m hm
    cases hm

/-- After a restart the summary's cost is not counted. -/
theorem budgetValue_restart :
    (Run.run perform (start summaryConfig) (summaryOps ++ [.restart summaryConfig])).budgetValue
        ≠ (Run.run perform (start summaryConfig)
            (summaryOps ++ [.restart summaryConfig])).history.current.totalCost
      ∧ (Run.run perform (start summaryConfig)
            (summaryOps ++ [.restart summaryConfig])).budgetValue
          < (Run.run perform (start summaryConfig) summaryOps).budgetValue := by
  have hbefore : (Run.run perform (start summaryConfig) summaryOps).budgetValue = 5 := by
    have heq : (Run.run perform (start summaryConfig) summaryOps).budgetValue
        = 0 + 0 + (0 + 5) := rfl
    rw [heq]
    norm_num
  have hafter : (Run.run perform (start summaryConfig)
      (summaryOps ++ [.restart summaryConfig])).budgetValue = 0 := by
    have heq : (Run.run perform (start summaryConfig)
        (summaryOps ++ [.restart summaryConfig])).budgetValue = 0 + 0 := rfl
    rw [heq]
    norm_num
  have htotal : (Run.run perform (start summaryConfig)
      (summaryOps ++ [.restart summaryConfig])).history.current.totalCost = 5 := by
    have heq : (Run.run perform (start summaryConfig)
        (summaryOps ++ [.restart summaryConfig])).history.current.totalCost = 5 + 0 := rfl
    rw [heq]
    norm_num
  rw [hbefore, hafter, htotal]
  norm_num

end RecordedProcess

end OpenHands
