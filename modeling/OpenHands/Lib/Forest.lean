/-
# Forests by parents

Every member of a forest names its parent or none.  Members come after their parents, so no one
descends from itself.

A removal that takes a member out and those of its children that it sees leaves a forest whose
parents are all there exactly if there was nothing else below the member.
-/
import Mathlib.Data.Nat.Notation
import Mathlib.Data.Option.Basic
import Mathlib.Logic.Function.Basic

namespace Forest

variable {κ : Type*} (parent : κ → Option κ)

/-- `c` is among the ancestors of a member. -/
inductive Descends (c : κ) : κ → Prop where
  | child {x : κ} (h : parent x = some c) : Descends c x
  | step {x p : κ} (h : parent x = some p) (hp : Descends c p) : Descends c x

/-- Members come after their parents. -/
def Ranked (rank : κ → ℕ) : Prop := ∀ x p, parent x = some p → rank p < rank x

variable {parent} {c x : κ}

theorem Descends.rank_lt {rank : κ → ℕ} (hrank : Ranked parent rank) (h : Descends parent c x) :
    rank c < rank x := by
  induction h with
  | child h => exact hrank _ _ h
  | step h _ ih => exact Nat.lt_trans ih (hrank _ _ h)

theorem not_descends_self {rank : κ → ℕ} (hrank : Ranked parent rank) (c : κ) :
    ¬ Descends parent c c := fun h => Nat.lt_irrefl _ (h.rank_lt hrank)

/-- A new member below one that is there comes last. -/
theorem Ranked.update [DecidableEq κ] {rank : κ → ℕ} (hrank : Ranked parent rank) {p? : Option κ}
    (hx : ∀ y, parent y ≠ some x) (hp : p? ≠ some x) :
    Ranked (Function.update parent x p?)
      (Function.update rank x ((p?.map rank).getD 0 + 1)) := by
  intro y p hparent
  by_cases hy : y = x
  · subst hy
    rw [Function.update_self] at hparent
    subst hparent
    rw [Function.update_self, Function.update_of_ne fun heq => hp (by rw [heq])]
    exact Nat.lt_succ_self _
  · rw [Function.update_of_ne hy] at hparent
    rw [Function.update_of_ne hy, Function.update_of_ne fun heq => hx y (by rw [← heq, hparent])]
    exact hrank y p hparent

variable {stored seen removed : κ → Prop}

/-- **What a removal of a member and of its children leaves is a forest without anything below
the member exactly if there were only children, and all of them were seen.** -/
theorem removal_iff (hclosed : ∀ x, stored x → ∀ p, parent x = some p → stored p)
    (hself : ¬ Descends parent c c)
    (hremoved : ∀ x, stored x → (removed x ↔ x = c ∨ parent x = some c ∧ seen x)) :
    ((∀ x, stored x → ¬ removed x → ¬ Descends parent c x) ∧
        ∀ x, stored x → ¬ removed x → ∀ p, parent x = some p → stored p ∧ ¬ removed p) ↔
      ∀ x, stored x → Descends parent c x → parent x = some c ∧ seen x := by
  constructor
  · rintro ⟨hnone, -⟩ x hx hbelow
    have hgone : removed x := by
      by_contra hkept
      exact hnone x hx hkept hbelow
    rcases (hremoved x hx).mp hgone with rfl | hchild
    · exact absurd hbelow hself
    · exact hchild
  · intro hseen
    have hnone : ∀ x, stored x → ¬ removed x → ¬ Descends parent c x :=
      fun x hx hkept hbelow => hkept ((hremoved x hx).mpr (Or.inr (hseen x hx hbelow)))
    refine ⟨hnone, fun x hx hkept p hparent => ?_⟩
    have hp := hclosed x hx p hparent
    refine ⟨hp, fun hgone => ?_⟩
    -- whose parent was removed is below the member
    rcases (hremoved p hp).mp hgone with rfl | ⟨hchild, -⟩
    · exact hnone x hx hkept (.child hparent)
    · exact hnone x hx hkept (.step hparent (.child hchild))

end Forest
