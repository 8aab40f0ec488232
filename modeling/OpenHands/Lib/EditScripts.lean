/-
# Edit scripts

A script goes through a list from left to right, and keeps, deletes or inserts at every step.
When it is carried out in place, each deletion and insertion is where the finished part ends.
-/
import Mathlib.Data.List.Basic

namespace EditScripts

variable {α : Type*}

/-- A step of a script. -/
inductive Op (α : Type*) where
  | keep (x : α)
  | delete (x : α)
  | insert (x : α)

/-- The list that a script starts from. -/
def source : List (Op α) → List α
  | [] => []
  | .keep x :: script => x :: source script
  | .delete x :: script => x :: source script
  | .insert _ :: script => source script

/-- The list that a script ends with. -/
def target : List (Op α) → List α
  | [] => []
  | .keep x :: script => x :: target script
  | .delete _ :: script => target script
  | .insert x :: script => x :: target script

theorem source_append (s t : List (Op α)) : source (s ++ t) = source s ++ source t := by
  induction s with
  | nil => rfl
  | cons op s ih => cases op <;> simp [source, ih]

theorem target_append (s t : List (Op α)) : target (s ++ t) = target s ++ target t := by
  induction s with
  | nil => rfl
  | cons op s ih => cases op <;> simp [target, ih]

@[simp] theorem source_map_keep (list : List α) : source (list.map Op.keep) = list := by
  induction list with
  | nil => rfl
  | cons x list ih => exact congrArg (x :: ·) ih

@[simp] theorem target_map_keep (list : List α) : target (list.map Op.keep) = list := by
  induction list with
  | nil => rfl
  | cons x list ih => exact congrArg (x :: ·) ih

/-- A deletion where the finished part ends. -/
theorem eraseIdx_length (done : List α) (x : α) (rest : List α) :
    (done ++ x :: rest).eraseIdx done.length = done ++ rest := by
  rw [List.eraseIdx_append_of_length_le (Nat.le_refl _), Nat.sub_self, List.eraseIdx_cons_zero]

end EditScripts
