/-
# Removing the oldest first

A list is sorted from the newest member to the oldest, and members are taken from its end
until fewer than a limit are left.  Or it is sorted from the oldest to the newest, and a
number of members is taken from its beginning.
-/
import Mathlib.Data.List.Sort
import Mathlib.Order.Defs.LinearOrder

namespace OldestFirst

variable {α κ : Type*} [LinearOrder κ] (key : α → κ)

/-- `xs.sort(key=key, reverse=True)`, which keeps the order of members with one key. -/
def sortNewest (xs : List α) : List α := xs.mergeSort fun a b => decide (key b ≤ key a)

/-- `xs.sort(key=key)`. -/
def sortOldest (xs : List α) : List α := xs.mergeSort fun a b => decide (key a ≤ key b)

/-- `while len(xs) >= n: xs.pop()` on a list that is given from its end: what was taken and
what is left, unless there is nothing to take. -/
def popWhile (n : ℕ) : List α → Option (List α × List α)
  | [] => if n = 0 then none else some ([], [])
  | x :: xs =>
    if n ≤ xs.length + 1 then (popWhile n xs).map fun r => (x :: r.1, r.2) else some ([], x :: xs)

/-- The oldest members, without which fewer than `n` are left, and the others. -/
def evict (n : ℕ) (xs : List α) : Option (List α × List α) :=
  popWhile n (sortNewest key xs).reverse

variable {key} {n : ℕ} {xs : List α}

/-- A limit of one or more is reached by taking just as many as are too many. -/
theorem popWhile_eq (hn : 1 ≤ n) (xs : List α) :
    popWhile n xs = some (xs.take (xs.length + 1 - n), xs.drop (xs.length + 1 - n)) := by
  induction xs with
  | nil =>
      rw [popWhile, if_neg (by omega), List.take_nil, List.drop_nil]
  | cons x xs ih =>
      rw [popWhile, ih, List.length_cons]
      split
      next hle =>
        have hsucc : xs.length + 1 + 1 - n = (xs.length + 1 - n) + 1 := by omega
        rw [hsucc, List.take_succ_cons, List.drop_succ_cons]
        rfl
      next hlt =>
        have hzero : xs.length + 1 + 1 - n = 0 := by omega
        rw [hzero]
        rfl

theorem sortNewest_pairwise (xs : List α) :
    (sortNewest key xs).Pairwise fun a b => key b ≤ key a := by
  have htrans : ∀ a b c : α, decide (key b ≤ key a) = true → decide (key c ≤ key b) = true →
      decide (key c ≤ key a) = true := by
    intro a b c hab hbc
    rw [decide_eq_true_eq] at hab hbc ⊢
    exact le_trans hbc hab
  have htotal : ∀ a b : α, (decide (key b ≤ key a) || decide (key a ≤ key b)) = true := by
    intro a b
    rw [Bool.or_eq_true, decide_eq_true_eq, decide_eq_true_eq]
    exact le_total _ _
  have hsorted : (sortNewest key xs).Pairwise fun a b => decide (key b ≤ key a) = true :=
    List.pairwise_mergeSort htrans htotal xs
  exact hsorted.imp fun h => by simpa using h

/-- What is taken stands behind the `n - 1` newest. -/
theorem evict_eq (hn : 1 ≤ n) (xs : List α) :
    evict key n xs = some (((sortNewest key xs).drop (n - 1)).reverse,
      ((sortNewest key xs).take (n - 1)).reverse) := by
  unfold evict
  rw [popWhile_eq hn, List.take_reverse, List.drop_reverse, List.length_reverse]
  by_cases hlength : n ≤ (sortNewest key xs).length + 1
  · rw [show (sortNewest key xs).length - ((sortNewest key xs).length + 1 - n) = n - 1 by omega]
  · rw [List.drop_of_length_le (by omega), List.drop_of_length_le (by omega),
      List.take_of_length_le (by omega), List.take_of_length_le (by omega)]

/-- **What is taken is not newer than what is left, of which there is less than the limit.** -/
theorem exists_evict (hn : 1 ≤ n) (xs : List α) :
    ∃ taken left, evict key n xs = some (taken, left) ∧ (taken ++ left).Perm xs ∧
      left.length < n ∧ ∀ a ∈ taken, ∀ b ∈ left, key a ≤ key b := by
  have hperm : (sortNewest key xs).reverse.Perm xs :=
    (List.reverse_perm _).trans (List.mergeSort_perm _ _)
  have hsorted : (sortNewest key xs).reverse.Pairwise fun a b => key a ≤ key b :=
    List.pairwise_reverse.mpr (sortNewest_pairwise xs)
  refine ⟨_, _, popWhile_eq hn _, ?_, ?_, ?_⟩
  · rw [List.take_append_drop]
    exact hperm
  · rw [List.length_drop]
    omega
  · rw [← List.take_append_drop ((sortNewest key xs).reverse.length + 1 - n)
      (sortNewest key xs).reverse] at hsorted
    exact (List.pairwise_append.mp hsorted).2.2

theorem sortOldest_perm (key : α → κ) (xs : List α) : (sortOldest key xs).Perm xs :=
  List.mergeSort_perm _ _

theorem sortNewest_perm (key : α → κ) (xs : List α) : (sortNewest key xs).Perm xs :=
  List.mergeSort_perm _ _

/-- Members at the beginning are not newer than the others. -/
theorem key_le_of_mem_sortOldest (xs : List α) (m : ℕ) :
    ∀ a ∈ (sortOldest key xs).take m, ∀ b ∈ (sortOldest key xs).drop m, key a ≤ key b := by
  have htrans : ∀ a b c : α, decide (key a ≤ key b) = true → decide (key b ≤ key c) = true →
      decide (key a ≤ key c) = true := by
    intro a b c hab hbc
    rw [decide_eq_true_eq] at hab hbc ⊢
    exact le_trans hab hbc
  have htotal : ∀ a b : α, (decide (key a ≤ key b) || decide (key b ≤ key a)) = true := by
    intro a b
    rw [Bool.or_eq_true, decide_eq_true_eq, decide_eq_true_eq]
    exact le_total _ _
  have hsorted := List.pairwise_mergeSort htrans htotal xs
  change (sortOldest key xs).Pairwise _ at hsorted
  rw [← List.take_append_drop m (sortOldest key xs)] at hsorted
  intro a ha b hb
  exact of_decide_eq_true ((List.pairwise_append.mp hsorted).2.2 a ha b hb)

end OldestFirst
