/-
# One row of a table

A query without an order that asks for one row gets any of the rows that match.  Its index
is `pickRow`, with a wish that is fulfilled if that row matches; every choice is the answer
to some wish.  What an update of that row does to the number of rows with some property is
`countP_modify_add`.
-/
import Mathlib.Data.List.Basic

variable {α : Type*}

/-- The index of a row that matches: the one that is wished for if it does, otherwise the
first. -/
def pickRow (p : α → Bool) (wish : ℕ) (rows : List α) : Option ℕ :=
  if rows[wish]?.any p then some wish else rows.findIdx? p

/-- Only a row that matches is picked. -/
theorem exists_of_pickRow {p : α → Bool} {wish : ℕ} {rows : List α} {i : ℕ}
    (h : pickRow p wish rows = some i) : ∃ row, rows[i]? = some row ∧ p row = true := by
  unfold pickRow at h
  split at h
  next hwish =>
    cases h
    cases hrow : rows[wish]? with
    | none =>
      rw [hrow] at hwish
      cases hwish
    | some row =>
      rw [hrow] at hwish
      exact ⟨row, rfl, hwish⟩
  next =>
    obtain ⟨hlt, hp, -⟩ := List.findIdx?_eq_some_iff_getElem.mp h
    exact ⟨rows[i], List.getElem?_eq_getElem hlt, hp⟩

/-- A row is picked unless none matches. -/
theorem pickRow_eq_none_iff {p : α → Bool} {wish : ℕ} {rows : List α} :
    pickRow p wish rows = none ↔ rows.countP p = 0 := by
  constructor
  · intro h
    unfold pickRow at h
    split at h
    · cases h
    · rw [List.countP_eq_zero]
      intro row hrow
      rw [List.findIdx?_eq_none_iff.mp h row hrow]
      exact Bool.false_ne_true
  · intro h
    rw [List.countP_eq_zero] at h
    by_contra hne
    obtain ⟨i, hi⟩ := Option.ne_none_iff_exists'.mp hne
    obtain ⟨row, hrow, hp⟩ := exists_of_pickRow hi
    exact h row (List.mem_of_getElem? hrow) hp

/-- An update of one row changes a number of rows by what it does to that row. -/
theorem countP_modify_add (q : α → Bool) (f : α → α) {row : α} :
    ∀ {rows : List α} {i : ℕ}, rows[i]? = some row →
      (rows.modify i f).countP q + (if q row then 1 else 0)
        = rows.countP q + if q (f row) then 1 else 0
  | [], i, h => by cases h
  | a :: rows, 0, h => by
    cases h
    rw [List.modify_zero_cons, List.countP_cons, List.countP_cons]
    omega
  | a :: rows, i + 1, h => by
    rw [List.modify_succ_cons, List.countP_cons, List.countP_cons]
    have hrec := countP_modify_add q f (show rows[i]? = some row from h)
    omega

variable {q : α → Bool} {f : α → α} {rows : List α} {i : ℕ} {row : α}

theorem countP_modify_of_eq (h : rows[i]? = some row) (hq : q (f row) = q row) :
    (rows.modify i f).countP q = rows.countP q := by
  have hcount := countP_modify_add q f h
  rw [hq] at hcount
  omega

theorem countP_modify_le (h : rows[i]? = some row) (hq : q (f row) = true → q row = true) :
    (rows.modify i f).countP q ≤ rows.countP q := by
  have hcount := countP_modify_add q f h
  by_cases hf : q (f row) = true
  · rw [if_pos hf, if_pos (hq hf)] at hcount
    omega
  · rw [if_neg hf] at hcount
    omega

theorem countP_modify_of_drop (h : rows[i]? = some row) (hq : q row = true)
    (hf : q (f row) = false) : (rows.modify i f).countP q + 1 = rows.countP q := by
  have hcount := countP_modify_add q f h
  rw [if_pos hq, hf] at hcount
  exact hcount
