/-
# Runs of a labelled system

A system is a function `step : σ → ι → σ`; a label carries whatever the
environment chooses in that step.  `run` performs a list of labels and `steps`
lists the state each label was performed in, so that a condition on the steps of
a run is a condition on the members of `steps`.

Safety is proved by `run_invariant` (an invariant that every admissible step
preserves holds at the end of every run of admissible steps) and read off step by
step by `forall_steps_of_invariant`.  Where being admissible is also necessary,
`forall_steps_iff` lifts the equivalence from one step to a run.  Counters are compared by
`run_account`.
-/
import Mathlib.Data.Int.Notation
import Mathlib.Data.List.Basic

namespace Run

variable {σ ι : Type*} (step : σ → ι → σ)

/-- The state after performing the labels in order. -/
def run (s : σ) (ls : List ι) : σ := ls.foldl step s

/-- The state in which each label is performed, with the label. -/
def steps : σ → List ι → List (σ × ι)
  | _, [] => []
  | s, l :: ls => (s, l) :: steps (step s l) ls

@[simp] theorem run_nil (s : σ) : run step s [] = s := rfl

@[simp] theorem run_cons (s : σ) (l : ι) (ls : List ι) :
    run step s (l :: ls) = run step (step s l) ls := rfl

@[simp] theorem steps_nil (s : σ) : steps step s [] = [] := rfl

@[simp] theorem steps_cons (s : σ) (l : ι) (ls : List ι) :
    steps step s (l :: ls) = (s, l) :: steps step (step s l) ls := rfl

variable {step}

/-- A step performs one of the labels. -/
theorem mem_of_mem_steps {s : σ} {ls : List ι} {p : σ × ι} (h : p ∈ steps step s ls) :
    p.2 ∈ ls := by
  induction ls generalizing s with
  | nil => cases h
  | cons l ls ih =>
    rcases List.mem_cons.mp h with rfl | h
    · exact List.mem_cons_self
    · exact List.mem_cons_of_mem l (ih h)

/-- **Invariant rule.**  What holds at the start and is preserved by every
admissible step holds at the end of every run of admissible steps. -/
theorem run_invariant {I : σ → Prop} {C : σ → ι → Prop}
    (hstep : ∀ s l, I s → C s l → I (step s l)) {s : σ} {ls : List ι} (h0 : I s)
    (hC : ∀ p ∈ steps step s ls, C p.1 p.2) : I (run step s ls) := by
  induction ls generalizing s with
  | nil =>
    rw [run_nil]
    exact h0
  | cons l ls ih =>
    rw [steps_cons, List.forall_mem_cons] at hC
    rw [run_cons]
    exact ih (hstep s l h0 hC.1) hC.2

/-- The invariant rule, read at every step of the run. -/
theorem forall_steps_of_invariant {I : σ → Prop} {C : σ → ι → Prop}
    (hstep : ∀ s l, I s → C s l → I (step s l)) {s : σ} {ls : List ι} (h0 : I s)
    (hC : ∀ p ∈ steps step s ls, C p.1 p.2) : ∀ p ∈ steps step s ls, I p.1 := by
  induction ls generalizing s with
  | nil => simp
  | cons l ls ih =>
    rw [steps_cons, List.forall_mem_cons] at hC ⊢
    exact ⟨h0, ih (hstep s l h0 hC.1) hC.2⟩

/-- What every step of a run does exactly when it is admissible: both sides agree up
to the first step that is not, and until then the invariant holds. -/
theorem forall_steps_iff {I : σ → Prop} {P C : σ → ι → Prop}
    (hiff : ∀ s l, I s → (P s l ↔ C s l)) (hstep : ∀ s l, I s → C s l → I (step s l)) {s : σ}
    {ls : List ι} (h0 : I s) :
    (∀ p ∈ steps step s ls, P p.1 p.2) ↔ ∀ p ∈ steps step s ls, C p.1 p.2 := by
  induction ls generalizing s with
  | nil => simp
  | cons l ls ih =>
    rw [steps_cons, List.forall_mem_cons, List.forall_mem_cons, hiff s l h0]
    exact and_congr_right fun hC => ih (hstep s l h0 hC)

/-- **Accounting rule.**  A quantity that gets ahead of another one by one in every step of a
kind is ahead by the number of these steps at the end of a run. -/
theorem run_account {f g : σ → ℤ} {C : σ → ι → Prop} [∀ s l, Decidable (C s l)]
    (hstep : ∀ s l, f (step s l) - f s = g (step s l) - g s + if C s l then 1 else 0) (s : σ)
    (ls : List ι) :
    f (run step s ls) - f s
      = g (run step s ls) - g s + (steps step s ls).countP fun p => C p.1 p.2 := by
  induction ls generalizing s with
  | nil => simp
  | cons l ls ih =>
    have hfirst := hstep s l
    have hrest := ih (step s l)
    rw [run_cons, steps_cons, List.countP_cons]
    by_cases hC : C s l
    · simp only [hC, if_true, decide_true, Int.natCast_add] at hfirst hrest ⊢
      omega
    · simp only [hC, if_false, decide_false, Bool.false_eq_true, Int.natCast_add] at hfirst hrest ⊢
      omega

end Run
