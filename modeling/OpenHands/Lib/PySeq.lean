/-
# Python sequences: negative positions, slices, insertion, comprehensions

Subscripts, slices and `list.insert` with Python's meaning of a position: a negative
position counts from the end, and the bounds of a slice or an insertion are clamped
to the sequence while a subscript out of range raises.

In particular `l[a : -0]` is `l[a : 0]`: a slice that is meant to drop the last `k`
elements is empty when `k = 0` (`slice_stop_neg_zero`).
-/
import Mathlib.Data.List.Basic
import Mathlib.Algebra.Order.Group.Unbundled.Int
import Mathlib.Tactic.SplitIfs

namespace PySeq

variable {α : Type*}

/-! ## Positions -/

/-- The clamped position of a slice bound in a sequence of length `n`. -/
def bound (n : ℕ) (i : ℤ) : ℕ := if i < 0 then (i + n).toNat else min i.toNat n

/-- A bound that counts from the front. -/
theorem bound_of_nonneg (n : ℕ) {i : ℤ} (hi : 0 ≤ i) : bound n i = min i.toNat n := by
  rw [bound, if_neg (by omega)]

/-- A bound that counts from the end. -/
theorem bound_of_neg (n : ℕ) {i : ℤ} (hi : i < 0) : bound n i = (i + n).toNat := by
  rw [bound, if_pos hi]

/-! ## Slices -/

/-- `l[start:stop]`; an absent bound is the end of the sequence on that side. -/
def slice (l : List α) (start stop : Option ℤ) : List α :=
  (l.take (stop.elim l.length (bound l.length))).drop (start.elim 0 (bound l.length))

/-- `l[:n]` for a nonnegative `n`. -/
theorem slice_stop_of_nonneg (l : List α) {n : ℤ} (hn : 0 ≤ n) :
    slice l none (some n) = l.take n.toNat := by
  show (l.take (bound l.length n)).drop 0 = _
  rw [bound_of_nonneg _ hn, List.drop_zero]
  rcases Nat.le_total n.toNat l.length with hle | hle
  · rw [Nat.min_eq_left hle]
  · rw [Nat.min_eq_right hle, List.take_length, List.take_of_length_le hle]

/-- `l[:n]` is always a prefix. -/
theorem slice_stop_eq_take (l : List α) (n : ℤ) :
    slice l none (some n) = l.take (bound l.length n) := by
  show (l.take (bound l.length n)).drop 0 = _
  rw [List.drop_zero]

/-- `l[-k:]` for a positive `k`: the last `k` elements. -/
theorem slice_start_of_neg (l : List α) {k : ℕ} (hk : 0 < k) :
    slice l (some (-(k : ℤ))) none = l.drop (l.length - k) := by
  show (l.take l.length).drop (bound l.length (-(k : ℤ))) = _
  have hb : bound l.length (-(k : ℤ)) = l.length - k := by
    rw [bound_of_neg _ (by omega)]
    omega
  rw [List.take_length, hb]

/-- `l[a:-k]` for a positive `k`: what lies before the last `k` elements, from `a`. -/
theorem slice_of_nonneg_of_neg (l : List α) (a : ℕ) {k : ℕ} (hk : 0 < k) :
    slice l (some (a : ℤ)) (some (-(k : ℤ))) = (l.take (l.length - k)).drop a := by
  show (l.take (bound l.length (-(k : ℤ)))).drop (bound l.length (a : ℤ)) = _
  have hb : bound l.length (-(k : ℤ)) = l.length - k := by
    rw [bound_of_neg _ (by omega)]
    omega
  rw [hb, bound_of_nonneg _ (by omega), Int.toNat_natCast]
  rcases Nat.le_total a l.length with hle | hle
  · rw [Nat.min_eq_left hle]
  · -- both drops go past the end
    rw [Nat.min_eq_right hle, List.drop_of_length_le (by simp),
      List.drop_of_length_le (by simp; omega)]

/-- `l[a:-0]` is empty: minus zero is not a position from the end. -/
theorem slice_stop_neg_zero (l : List α) (start : Option ℤ) :
    slice l start (some (-((0 : ℕ) : ℤ))) = [] := by
  show (l.take (bound l.length (-((0 : ℕ) : ℤ)))).drop _ = []
  have hb : bound l.length (-((0 : ℕ) : ℤ)) = 0 := by
    rw [bound_of_nonneg _ (by simp)]
    simp
  rw [hb, List.take_zero, List.drop_nil]

/-! ## Subscripts -/

/-- `l[i]`; `none` where Python raises `IndexError`. -/
def item? (l : List α) (i : ℤ) : Option α :=
  if i < 0 then
    if i + l.length < 0 then none else l[(i + l.length).toNat]?
  else
    l[i.toNat]?

/-- A subscript that counts from the front. -/
theorem item?_natCast (l : List α) (i : ℕ) : item? l (i : ℤ) = l[i]? := by
  rw [item?, if_neg (by omega), Int.toNat_natCast]

/-! ## Insertion -/

/-- `l.insert(i, x)`. -/
def insert (l : List α) (i : ℤ) (x : α) : List α :=
  l.take (bound l.length i) ++ x :: l.drop (bound l.length i)

/-- Insertion at a position from the front that the sequence reaches. -/
theorem insert_append (l m : List α) (x : α) :
    insert (l ++ m) (l.length : ℤ) x = l ++ x :: m := by
  have hb : bound (l ++ m).length (l.length : ℤ) = l.length := by
    rw [bound_of_nonneg _ (by omega), Int.toNat_natCast, List.length_append]
    omega
  rw [insert, hb, List.take_left, List.drop_left]

theorem mem_insert {l : List α} {i : ℤ} {x y : α} : y ∈ insert l i x ↔ y = x ∨ y ∈ l := by
  rw [insert, List.mem_append, List.mem_cons]
  have hsplit : y ∈ l ↔ y ∈ l.take (bound l.length i) ∨ y ∈ l.drop (bound l.length i) := by
    rw [← List.mem_append, List.take_append_drop]
  rw [hsplit]
  exact or_left_comm

/-- An insertion is a new head, up to the order. -/
theorem insert_perm (l : List α) (i : ℤ) (x : α) : (insert l i x).Perm (x :: l) := by
  unfold insert
  refine List.perm_middle.trans (List.Perm.cons x ?_)
  rw [List.take_append_drop]

/-! ## Comprehensions -/

/-- A comprehension over calls that may raise has a result if all the calls have one. -/
theorem mapM_eq_some_iff {β : Type*} {f : α → Option β} {l : List α} {m : List β} :
    l.mapM f = some m ↔ l.map f = m.map some := by
  induction l generalizing m with
  | nil =>
      cases m with
      | nil => simp
      | cons y m => simp
  | cons x l ih =>
      rw [List.mapM_cons, List.map_cons]
      cases hx : f x with
      | none =>
          cases m with
          | nil => simp
          | cons y m => simp
      | some y =>
          cases hall : l.mapM f with
          | none =>
              cases m with
              | nil => simp
              | cons z m =>
                  rw [hall] at ih
                  simpa using fun _ => mt ih.mpr (by simp)
          | some n =>
              rw [hall] at ih
              have hsame := ih.mp rfl
              cases m with
              | nil => simp
              | cons z m => simp [hsame, List.map_inj_right]

end PySeq
