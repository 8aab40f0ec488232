/-
# Texts put together from their pieces

A text that is copied slice by slice is copied whole when the slices follow one another.  When
some characters are written twice, and none of them stands before an equal one, the copy says
which ones.
-/
import Mathlib.Data.List.Basic

namespace TextPieces

variable {α : Type*}

/-! ## Slices -/

/-- `text[start:stop]`. -/
def slice (text : List α) (start stop : ℕ) : List α := (text.drop start).take (stop - start)

variable {text : List α} {a b c i : ℕ}

theorem slice_append_slice (text : List α) (hab : a ≤ b) (hbc : b ≤ c) :
    slice text a b ++ slice text b c = slice text a c := by
  have hlength : c - a = (b - a) + (c - b) := by omega
  have hdrop : text.drop b = (text.drop a).drop (b - a) := by
    rw [List.drop_drop]
    congr 1
    omega
  unfold slice
  rw [hlength, List.take_add, hdrop]

@[simp] theorem slice_self (text : List α) (a : ℕ) : slice text a a = [] := by
  unfold slice
  rw [Nat.sub_self, List.take_zero]

theorem slice_length (text : List α) : slice text 0 text.length = text := by
  unfold slice
  rw [List.drop_zero, Nat.sub_zero, List.take_length]

theorem length_slice (hb : b ≤ text.length) : (slice text a b).length = b - a := by
  unfold slice
  rw [List.length_take, List.length_drop]
  omega

theorem getElem?_slice (text : List α) (a b i : ℕ) :
    (slice text a b)[i]? = if i < b - a then text[a + i]? else none := by
  unfold slice
  rw [List.getElem?_take, List.getElem?_drop]

/-- Slices that follow one another from one end to the other. -/
def Tiles (stop : ℕ) : ℕ → List (ℕ × ℕ) → Prop
  | start, [] => start = stop
  | start, span :: spans => span.1 = start ∧ start ≤ span.2 ∧ Tiles stop span.2 spans

theorem Tiles.le {stop : ℕ} : ∀ {spans : List (ℕ × ℕ)} {start : ℕ}, Tiles stop start spans →
    start ≤ stop
  | [], _, h => Nat.le_of_eq h
  | _ :: _, _, h => Nat.le_trans h.2.1 h.2.2.le

/-- No slice begins before the first one. -/
theorem Tiles.start_le {stop : ℕ} : ∀ {spans : List (ℕ × ℕ)} {start : ℕ}, Tiles stop start spans →
    ∀ span ∈ spans, start ≤ span.1
  | [], _, _, _, hspan => absurd hspan List.not_mem_nil
  | _ :: _, _, h, span, hspan => by
    rcases List.mem_cons.mp hspan with rfl | hspan
    · exact Nat.le_of_eq h.1.symm
    · exact Nat.le_trans h.2.1 (h.2.2.start_le span hspan)

/-! ## Characters that are written twice -/

/-- The text from an index on, with the marked characters twice. -/
def double (marked : ℕ → Bool) : ℕ → List α → List α
  | _, [] => []
  | i, c :: text =>
    if marked i then c :: c :: double marked (i + 1) text else c :: double marked (i + 1) text

variable {marked marked' : ℕ → Bool}

theorem double_append (marked : ℕ → Bool) (i : ℕ) (s t : List α) :
    double marked i (s ++ t) = double marked i s ++ double marked (i + s.length) t := by
  induction s generalizing i with
  | nil => rfl
  | cons c s ih =>
    rw [List.cons_append, double, double, ih, List.length_cons,
      show i + 1 + s.length = i + (s.length + 1) by omega]
    split_ifs <;> rfl

theorem double_congr (h : ∀ j, i ≤ j → j < i + text.length → marked j = marked' j) :
    double marked i text = double marked' i text := by
  induction text generalizing i with
  | nil => rfl
  | cons c text ih =>
    rw [List.length_cons] at h
    rw [double, double, h i (Nat.le_refl i) (by omega), ih fun j hj hlt => h j (by omega) (by omega)]

theorem double_eq_self (h : ∀ j, i ≤ j → j < i + text.length → marked j = false) :
    double marked i text = text := by
  induction text generalizing i with
  | nil => rfl
  | cons c text ih =>
    rw [List.length_cons] at h
    rw [double, h i (Nat.le_refl i) (by omega), ih fun j hj hlt => h j (by omega) (by omega)]
    exact if_neg Bool.false_ne_true

theorem eq_nil_of_double (h : double marked i text = []) : text = [] := by
  cases text with
  | nil => rfl
  | cons c text =>
    rw [double] at h
    split_ifs at h

/-- A character that is not marked anywhere is there as often as before. -/
theorem count_double [DecidableEq α] {d : α}
    (h : ∀ j, marked (i + j) = true → text[j]? ≠ some d) :
    (double marked i text).count d = text.count d := by
  induction text generalizing i with
  | nil => rfl
  | cons c text ih =>
    have hrest : ∀ j, marked (i + 1 + j) = true → text[j]? ≠ some d := by
      intro j hj
      rw [show i + 1 + j = i + (j + 1) by omega] at hj
      exact h (j + 1) hj
    have ih := ih hrest
    rw [double]
    split_ifs with hmarked
    · have hne : c ≠ d := fun heq => h 0 hmarked (by rw [heq]; rfl)
      rw [List.count_cons_of_ne hne, List.count_cons_of_ne hne, List.count_cons_of_ne hne, ih]
    · rw [List.count_cons, List.count_cons, ih]

/-- The marked characters stand before others. -/
def Separated (marked : ℕ → Bool) (i : ℕ) (text : List α) : Prop :=
  ∀ j, marked (i + j) = true → ∃ d ∈ text[j + 1]?, text[j]? ≠ some d

theorem Separated.tail {c : α} (h : Separated marked i (c :: text)) :
    Separated marked (i + 1) text := by
  intro j hj
  rw [show i + 1 + j = i + (j + 1) by omega] at hj
  exact h (j + 1) hj

/-- A marked character shows in front of the rest. -/
theorem ne_double_of_marked {c : α} {x : List α} (h : Separated marked i (c :: text))
    (hi : marked i = true) : c :: x ≠ double marked' (i + 1) text := by
  obtain ⟨d, hd, hne⟩ := h 0 hi
  intro heq
  cases text with
  | nil => cases heq
  | cons e text =>
    cases hd
    rw [double] at heq
    split_ifs at heq
    · exact hne (congrArg some (List.cons.inj heq).1)
    · exact hne (congrArg some (List.cons.inj heq).1)

/-- What is written twice can be read off, when no marked character stands before an equal
one. -/
theorem double_injective (h : Separated marked i text) (h' : Separated marked' i text)
    (heq : double marked i text = double marked' i text) :
    ∀ j < text.length, marked (i + j) = marked' (i + j) := by
  induction text generalizing i with
  | nil => exact fun j hj => absurd hj (Nat.not_lt_zero j)
  | cons c text ih =>
    have hfirst : marked i = marked' i ∧
        double marked (i + 1) text = double marked' (i + 1) text := by
      rw [double, double] at heq
      cases hi : marked i with
      | true =>
        cases hi' : marked' i with
        | true =>
          rw [hi, hi', if_pos rfl, if_pos rfl] at heq
          exact ⟨rfl, (List.cons.inj (List.cons.inj heq).2).2⟩
        | false =>
          rw [hi, hi', if_pos rfl, if_neg Bool.false_ne_true] at heq
          exact absurd (List.cons.inj heq).2 (ne_double_of_marked h hi)
      | false =>
        cases hi' : marked' i with
        | true =>
          rw [hi, hi', if_neg Bool.false_ne_true, if_pos rfl] at heq
          exact absurd (List.cons.inj heq).2.symm (ne_double_of_marked h' hi')
        | false =>
          rw [hi, hi', if_neg Bool.false_ne_true, if_neg Bool.false_ne_true] at heq
          exact ⟨rfl, (List.cons.inj heq).2⟩
    intro j hj
    cases j with
    | zero => exact hfirst.1
    | succ j =>
      have hrest := ih h.tail h'.tail hfirst.2 j (by rw [List.length_cons] at hj; omega)
      rw [show i + (j + 1) = i + 1 + j by omega]
      exact hrest

end TextPieces
