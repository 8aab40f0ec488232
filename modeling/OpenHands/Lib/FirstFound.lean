/-
# The first member that is found

`find?` looks for the first member of a list with a property, `behind` is what lies behind it.
Neither changes when members are filtered out that are not the first found one, and an
element that is appended is found only when nothing was.
-/
import Mathlib.Data.List.Basic

namespace FirstFound

variable {α : Type*} {p q : α → Bool} {l : List α} {a : α}

/-- What lies behind the first member with a property. -/
def behind (p : α → Bool) : List α → List α
  | [] => []
  | a :: l => if p a then l else behind p l

theorem behind_cons_of_pos (h : p a = true) : behind p (a :: l) = l := by
  rw [behind, if_pos h]

theorem behind_cons_of_neg (h : p a = false) : behind p (a :: l) = behind p l := by
  rw [behind, h, if_neg (by decide)]

/-- The first found member stays so under a filter that it passes. -/
theorem find?_filter_of_pos (h : l.find? p = some a) (ha : q a = true) :
    (l.filter q).find? p = some a := by
  obtain ⟨hpa, before, later, rfl, hbefore⟩ := List.find?_eq_some_iff_append.mp h
  rw [List.filter_append, List.filter_cons_of_pos ha, List.find?_eq_some_iff_append]
  refine ⟨hpa, before.filter q, later.filter q, rfl, ?_⟩
  intro b hb
  exact hbefore b (List.mem_of_mem_filter hb)

/-- What is not found in a list is not found in a part of it. -/
theorem find?_filter_eq_none (h : l.find? p = none) : (l.filter q).find? p = none := by
  rw [List.find?_eq_none] at h ⊢
  intro b hb
  exact h b (List.mem_of_mem_filter hb)

theorem find?_filter_eq (h : ∀ a ∈ l.find? p, q a = true) :
    (l.filter q).find? p = l.find? p := by
  cases hfound : l.find? p with
  | none => exact find?_filter_eq_none hfound
  | some a => exact find?_filter_of_pos hfound (h a hfound)

/-- A filter that the first found member passes filters what lies behind it. -/
theorem behind_filter (h : ∀ a ∈ l.find? p, q a = true) :
    behind p (l.filter q) = (behind p l).filter q := by
  induction l with
  | nil => rfl
  | cons b l ih =>
      rw [List.find?_cons] at h
      cases hb : p b with
      | true =>
          rw [hb] at h
          rw [List.filter_cons_of_pos (h b rfl), behind_cons_of_pos hb, behind_cons_of_pos hb]
      | false =>
          rw [hb] at h
          rw [behind_cons_of_neg hb, ← ih h]
          by_cases hq : q b = true
          · rw [List.filter_cons_of_pos hq, behind_cons_of_neg hb]
          · rw [List.filter_cons_of_neg hq]

/-- An element that is appended lies behind what was found before. -/
theorem behind_append_of_isSome (h : (l.find? p).isSome) (x : α) :
    behind p (l ++ [x]) = behind p l ++ [x] := by
  induction l with
  | nil => cases h
  | cons b l ih =>
      rw [List.cons_append]
      cases hb : p b with
      | true => rw [behind_cons_of_pos hb, behind_cons_of_pos hb]
      | false =>
          rw [List.find?_cons, hb] at h
          rw [behind_cons_of_neg hb, behind_cons_of_neg hb]
          exact ih h

/-- An element that is appended has nothing behind it. -/
theorem behind_append_of_none (h : l.find? p = none) (x : α) : behind p (l ++ [x]) = [] := by
  induction l with
  | nil =>
      rw [List.nil_append, behind]
      split_ifs <;> rfl
  | cons b l ih =>
      rw [List.find?_cons] at h
      cases hb : p b with
      | true =>
          rw [hb] at h
          cases h
      | false =>
          rw [hb] at h
          rw [List.cons_append, behind_cons_of_neg hb, ih h]

/-- What is found after an append was found before, or is the new element. -/
theorem find?_append_singleton (x : α) :
    (l ++ [x]).find? p = (l.find? p).or (if p x then some x else none) := by
  rw [List.find?_append, List.find?_singleton]

/-- A member that lies behind is a member. -/
theorem mem_of_mem_behind (h : a ∈ behind p l) : a ∈ l := by
  induction l with
  | nil => cases h
  | cons b l ih =>
      unfold behind at h
      split_ifs at h
      · exact List.mem_cons_of_mem b h
      · exact List.mem_cons_of_mem b (ih h)

end FirstFound
