/-
# Duties

Work that is marked as taken before it is done.  Whoever looks for work skips the marked
items, so a marked item depends on the workers that hold it: when it is not done and no
worker holds it, it is orphaned, and stays undone.

`noOrphan_iff` says what a step of one worker has to look after: the items that the worker
lets go, and those that the step marks.
-/
import Mathlib.Logic.Basic

/-- The items that are marked, those that are done, and those that the workers hold. -/
structure Duties (ι α : Type*) where
  marked : α → Prop
  done : α → Prop
  holds : ι → α → Prop

namespace Duties

variable {ι α : Type*} {d d' : Duties ι α} {i : ι}

/-- The item is done, or a worker holds it. -/
def Attended (d : Duties ι α) (x : α) : Prop := d.done x ∨ ∃ i, d.holds i x

/-- No marked item is orphaned. -/
def NoOrphan (d : Duties ι α) : Prop := ∀ x, d.marked x → d.Attended x

/-- A step of the worker `i`: what is done stays done, and the other workers hold what they
held. -/
structure StepOf (i : ι) (d d' : Duties ι α) : Prop where
  done : ∀ x, d.done x → d'.done x
  holds : ∀ j, j ≠ i → ∀ x, d'.holds j x ↔ d.holds j x

/-- The step leaves the item marked and unheld by its worker, which has let it go or has
marked it. -/
def Dropped (i : ι) (d d' : Duties ι α) (x : α) : Prop :=
  d'.marked x ∧ ¬ d'.holds i x ∧ (d.holds i x ∨ ¬ d.marked x)

theorem not_dropped_self (x : α) : ¬ Dropped i d d x := by
  rintro ⟨hmarked, hheld, hlet | hunmarked⟩
  · exact hheld hlet
  · exact hunmarked hmarked

/-- **A step orphans no item** exactly when the items that it drops are done or held by
another worker. -/
theorem noOrphan_iff (hstep : StepOf i d d') (h : d.NoOrphan) :
    d'.NoOrphan ↔ ∀ x, Dropped i d d' x → d'.done x ∨ ∃ j, j ≠ i ∧ d.holds j x := by
  constructor
  · rintro hnone x ⟨hmarked, hheld, -⟩
    rcases hnone x hmarked with hdone | ⟨j, hj⟩
    · exact Or.inl hdone
    · by_cases hji : j = i
      · subst hji
        exact absurd hj hheld
      · exact Or.inr ⟨j, hji, (hstep.holds j hji x).mp hj⟩
  · intro hdropped x hmarked
    have hothers : (d.done x ∨ ∃ j, j ≠ i ∧ d.holds j x) → d'.Attended x := by
      rintro (hdone | ⟨j, hji, hj⟩)
      · exact Or.inl (hstep.done x hdone)
      · exact Or.inr ⟨j, (hstep.holds j hji x).mpr hj⟩
    by_cases hheld : d'.holds i x
    · exact Or.inr ⟨i, hheld⟩
    by_cases hlet : d.holds i x ∨ ¬ d.marked x
    · rcases hdropped x ⟨hmarked, hheld, hlet⟩ with hdone | hother
      · exact Or.inl hdone
      · exact hothers (Or.inr hother)
    · -- marked and unheld before: another worker holds it, or it was done
      rw [not_or, not_not] at hlet
      rcases h x hlet.2 with hdone | ⟨j, hj⟩
      · exact hothers (Or.inl hdone)
      · have hji : j ≠ i := by
          rintro rfl
          exact hlet.1 hj
        exact hothers (Or.inr ⟨j, hji, hj⟩)

end Duties
