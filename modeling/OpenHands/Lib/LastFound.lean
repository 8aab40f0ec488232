/-
# The last key that was found

A loop looks at the members of a list in turn; some of them find a key, which is remembered
until another one is found.  `last` is the key remembered after a list, and `since` are the
members from the one on that found it, while it was not remembered.
-/
import Mathlib.Data.List.DropRight
import Mathlib.Data.List.Induction

namespace LastFound

variable {α κ : Type*} (f : α → Option κ)

/-- The key found last. -/
def last (xs : List α) : Option κ := (xs.filterMap f).getLast?

theorem last_concat (xs : List α) (x : α) : last f (xs ++ [x]) = (f x).or (last f xs) := by
  unfold last
  rw [List.filterMap_append, List.getLast?_append]
  cases h : f x with
  | none => simp [h]
  | some k => simp [h]

theorem last_cons (x : α) (xs : List α) : last f (x :: xs) = (last f xs).or (f x) := by
  unfold last
  cases h : f x with
  | none => rw [List.filterMap_cons_none h, Option.or_none]
  | some k =>
    rw [List.filterMap_cons_some h, List.getLast?_cons]
    cases (xs.filterMap f).getLast? <;> rfl

theorem last_append (xs ys : List α) : last f (xs ++ ys) = (last f ys).or (last f xs) := by
  unfold last
  rw [List.filterMap_append, List.getLast?_append]

/-- The last key that the results of the members find. -/
theorem last_flatMap {β : Type*} (g : β → Option α) (xs : List β) :
    last f (xs.flatMap fun x => (g x).toList) = last (fun x => (g x).bind f) xs := by
  induction xs with
  | nil => rfl
  | cons x xs ih =>
      rw [List.flatMap_cons, last_append, last_cons, ih]
      cases g x with
      | none => rfl
      | some y => rw [Option.toList_some, last_cons, Option.bind_some]; rfl

/-- What is made of the key found last, when something is made of it. -/
theorem last_bind {μ : Type*} {h : κ → Option μ} {xs : List α} {k : κ} {m : μ}
    (hlast : last f xs = some k) (hk : h k = some m) :
    last (fun x => (f x).bind h) xs = some m := by
  induction xs using List.reverseRecOn with
  | nil => cases hlast
  | append_singleton xs x ih =>
      rw [last_concat] at hlast ⊢
      cases hx : f x with
      | none =>
          rw [hx, Option.none_or] at hlast
          exact ih hlast
      | some j =>
          rw [hx, Option.some_or] at hlast
          rw [Option.bind_some, Option.some.inj hlast, hk]
          rfl

theorem last_singleton (x : α) : last f [x] = f x := by
  rw [last_cons]
  rfl

variable [DecidableEq κ] (k : κ)

/-- The members after the last one that found another key. -/
def window (xs : List α) : List α := xs.rtakeWhile fun x => f x = none ∨ f x = some k

/-- The members from the one on that found `k` anew. -/
def since (xs : List α) : List α := (window f k xs).dropWhile fun x => f x = none

variable {f k} {xs : List α} {x : α}

theorem window_concat (h : f x = none ∨ f x = some k) :
    window f k (xs ++ [x]) = window f k xs ++ [x] := by
  unfold window
  rw [List.rtakeWhile_concat, if_pos (by simpa using h)]

theorem window_concat_of_ne (h : f x ≠ none) (h' : f x ≠ some k) :
    window f k (xs ++ [x]) = [] := by
  unfold window
  rw [List.rtakeWhile_concat, if_neg (by simp [h, h'])]

/-- The key found last was found in its window. -/
theorem exists_mem_window : last f xs = some k → ∃ y ∈ window f k xs, f y ≠ none := by
  induction xs using List.reverseRecOn with
  | nil =>
      intro h
      cases h
  | append_singleton xs x ih =>
      rw [last_concat]
      cases hx : f x with
      | none =>
          rw [Option.none_or, window_concat (Or.inl hx)]
          intro h
          obtain ⟨y, hy, hfound⟩ := ih h
          exact ⟨y, List.mem_append_left _ hy, hfound⟩
      | some j =>
          rw [Option.some_or]
          intro h
          rw [window_concat (Or.inr (hx.trans h))]
          exact ⟨x, List.mem_append_right _ List.mem_cons_self, by simp [hx]⟩

/-- Behind another key nothing was found in the window. -/
theorem forall_mem_window : last f xs ≠ some k → ∀ y ∈ window f k xs, f y = none := by
  induction xs using List.reverseRecOn with
  | nil =>
      intro _ y hy
      cases hy
  | append_singleton xs x ih =>
      rw [last_concat]
      cases hx : f x with
      | none =>
          rw [Option.none_or, window_concat (Or.inl hx)]
          intro h y hy
          rcases List.mem_append.mp hy with hy | hy
          · exact ih h y hy
          · exact List.mem_singleton.mp hy ▸ hx
      | some j =>
          rw [Option.some_or]
          intro h
          rw [window_concat_of_ne (by simp [hx]) (hx ▸ h)]
          intro y hy
          cases hy

/-- While a key is remembered every member that finds no other one comes after its finding. -/
theorem since_concat (hlast : last f xs = some k) (h : f x = none ∨ f x = some k) :
    since f k (xs ++ [x]) = since f k xs ++ [x] := by
  obtain ⟨y, hy, hfound⟩ := exists_mem_window hlast
  have hne : (window f k xs).dropWhile (fun x => f x = none) ≠ [] := by
    intro hnil
    have hall := List.dropWhile_eq_nil_iff.mp hnil y hy
    exact hfound (by simpa using hall)
  unfold since
  rw [window_concat h, List.dropWhile_append, if_neg (by simpa using hne)]

/-- A member that finds another key begins anew. -/
theorem since_concat_new (hlast : last f xs ≠ some k) (h : f x = some k) :
    since f k (xs ++ [x]) = [x] := by
  have hnil : (window f k xs).dropWhile (fun x => f x = none) = [] :=
    List.dropWhile_eq_nil_iff.mpr fun y hy => by simpa using forall_mem_window hlast y hy
  unfold since
  rw [window_concat (Or.inr h), List.dropWhile_append, if_pos (by simp [hnil]),
    List.dropWhile_cons_of_neg (by simp [h])]

end LastFound
