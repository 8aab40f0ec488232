/-
# Lines with their ends

A text as the list of its lines, each with the separator that ends it (`file.readlines()`):
only the last line may lack it.  The lines of a concatenation are those of the parts where the
first part ends with the separator.
-/
import Mathlib.Data.List.Basic

namespace TextLines

variable {α : Type*} [DecidableEq α]

/-- The lines of a text, each with the separator that ends it. -/
def keepEnds (x : α) : List α → List (List α)
  | [] => []
  | c :: cs =>
    if c = x then [c] :: keepEnds x cs
    else
      match keepEnds x cs with
      | [] => [[c]]
      | line :: lines => (c :: line) :: lines

/-- A line with its end. -/
def Terminated (x : α) (line : List α) : Prop := ∃ text, x ∉ text ∧ line = text ++ [x]

variable {x : α} {s t line : List α} {lines : List (List α)}

@[simp] theorem keepEnds_nil : keepEnds x [] = [] := rfl

/-- The lines are the whole text. -/
theorem flatten_keepEnds (s : List α) : (keepEnds x s).flatten = s := by
  induction s with
  | nil => rfl
  | cons c cs ih =>
    unfold keepEnds
    by_cases hc : c = x
    · rw [if_pos hc, List.flatten_cons, ih, List.singleton_append]
    · rw [if_neg hc]
      cases hlines : keepEnds x cs with
      | nil =>
        rw [hlines] at ih
        rw [← ih]
        rfl
      | cons line lines =>
        rw [hlines] at ih
        rw [← ih]
        rfl

theorem keepEnds_eq_nil_iff : keepEnds x s = [] ↔ s = [] := by
  constructor
  · intro h
    rw [← flatten_keepEnds (x := x) s, h, List.flatten_nil]
  · rintro rfl
    rfl

/-- What stands in front of a separator is a line of its own. -/
theorem keepEnds_terminated_append (h : Terminated x line) (t : List α) :
    keepEnds x (line ++ t) = line :: keepEnds x t := by
  obtain ⟨text, hx, rfl⟩ := h
  induction text with
  | nil => simp [keepEnds]
  | cons c cs ih =>
    rw [List.mem_cons, not_or] at hx
    rw [List.cons_append, List.cons_append, keepEnds, if_neg (Ne.symm hx.1), ih hx.2]

theorem keepEnds_flatten_append (h : ∀ line ∈ lines, Terminated x line) (t : List α) :
    keepEnds x (lines.flatten ++ t) = lines ++ keepEnds x t := by
  induction lines with
  | nil => rfl
  | cons line lines ih =>
    rw [List.forall_mem_cons] at h
    rw [List.flatten_cons, List.append_assoc, keepEnds_terminated_append h.1, ih h.2,
      List.cons_append]

omit [DecidableEq α] in
theorem Terminated.cons {c : α} (hc : c ≠ x) (h : Terminated x line) :
    Terminated x (c :: line) := by
  obtain ⟨text, hx, rfl⟩ := h
  exact ⟨c :: text, List.not_mem_cons_of_ne_of_not_mem (Ne.symm hc) hx, rfl⟩

/-- Only the last line may lack its end. -/
theorem terminated_of_mem_dropLast (s : List α) :
    ∀ line ∈ (keepEnds x s).dropLast, Terminated x line := by
  induction s with
  | nil => intro line hline; exact absurd hline List.not_mem_nil
  | cons c cs ih =>
    unfold keepEnds
    by_cases hc : c = x
    · rw [if_pos hc]
      cases hlines : keepEnds x cs with
      | nil => intro line hline; exact absurd hline List.not_mem_nil
      | cons next lines =>
        rw [List.dropLast_cons_cons, List.forall_mem_cons, ← hlines]
        exact ⟨⟨[], List.not_mem_nil, by rw [hc]; rfl⟩, ih⟩
    · rw [if_neg hc]
      cases hlines : keepEnds x cs with
      | nil => intro line hline; exact absurd hline List.not_mem_nil
      | cons first lines =>
        rw [hlines] at ih
        cases lines with
        | nil => intro line hline; exact absurd hline List.not_mem_nil
        | cons next lines =>
          rw [List.dropLast_cons_cons, List.forall_mem_cons] at ih
          simp only [List.dropLast_cons_cons, List.forall_mem_cons]
          exact ⟨ih.1.cons hc, ih.2⟩

/-- The lines in front of a line have their ends. -/
theorem terminated_of_mem_take {k : ℕ} (hk : k < (keepEnds x s).length) :
    ∀ line ∈ (keepEnds x s).take k, Terminated x line := by
  intro line hline
  apply terminated_of_mem_dropLast s
  rw [List.dropLast_eq_take]
  exact (List.take_subset_take_left (keepEnds x s) (by omega)) hline

/-- In a text that ends with the separator all lines have their ends. -/
theorem terminated_of_getLast (h : ∀ c ∈ s.getLast?, c = x) :
    ∀ line ∈ keepEnds x s, Terminated x line := by
  rcases List.eq_nil_or_concat s with rfl | ⟨front, c, rfl⟩
  · intro line hline
    exact absurd hline List.not_mem_nil
  · rw [List.concat_eq_append] at h ⊢
    have hc : c = x := h c List.getLast?_concat
    subst hc
    clear h
    induction front with
    | nil =>
      intro line hline
      rw [List.nil_append, keepEnds, if_pos rfl, keepEnds_nil, List.mem_singleton] at hline
      exact ⟨[], List.not_mem_nil, hline⟩
    | cons d front ih =>
      rw [List.cons_append, keepEnds]
      by_cases hd : d = c
      · rw [if_pos hd, List.forall_mem_cons]
        exact ⟨⟨[], List.not_mem_nil, by rw [hd]; rfl⟩, ih⟩
      · rw [if_neg hd]
        cases hlines : keepEnds c (front ++ [c]) with
        | nil => exact absurd (keepEnds_eq_nil_iff.mp hlines) (by simp)
        | cons first lines =>
          rw [hlines, List.forall_mem_cons] at ih
          simp only [List.forall_mem_cons]
          exact ⟨ih.1.cons hd, ih.2⟩

/-- The lines of a text that ends with the separator come first. -/
theorem keepEnds_append (h : ∀ c ∈ s.getLast?, c = x) (t : List α) :
    keepEnds x (s ++ t) = keepEnds x s ++ keepEnds x t := by
  have hlines := keepEnds_flatten_append (terminated_of_getLast h) t
  rwa [flatten_keepEnds] at hlines

/-- The lines from a position on are the lines of their text. -/
theorem keepEnds_flatten_drop (s : List α) (k : ℕ) :
    keepEnds x ((keepEnds x s).drop k).flatten = (keepEnds x s).drop k := by
  by_cases hk : k < (keepEnds x s).length
  · have hsplit : ((keepEnds x s).take k).flatten ++ ((keepEnds x s).drop k).flatten = s := by
      rw [← List.flatten_append, List.take_append_drop, flatten_keepEnds]
    have hlines := keepEnds_flatten_append (terminated_of_mem_take hk)
      ((keepEnds x s).drop k).flatten
    rw [hsplit] at hlines
    have hwhole : (keepEnds x s).take k ++ keepEnds x ((keepEnds x s).drop k).flatten
        = (keepEnds x s).take k ++ (keepEnds x s).drop k := by
      rw [← hlines, List.take_append_drop]
    exact List.append_cancel_left hwhole
  · rw [List.drop_eq_nil_of_le (by omega)]
    rfl

end TextLines
