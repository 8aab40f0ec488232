/-
# Pages read round after round

A list is read page by page with a cursor.  Whoever goes back to the first page after the last
one reads the list again and again: in round `k` it is page `k` modulo the number of pages, and
a whole number of passes reads the list so many times.

Several lists that are read side by side until all of them stand at their last pages are read for
as many rounds as the least common multiple of their numbers of pages.
-/
import Mathlib.Algebra.BigOperators.Group.List.Basic
import Mathlib.Data.List.Range
import Mathlib.Dynamics.PeriodicPts.Defs

namespace CyclicPages

variable {κ α : Type*}

/-- What there is at a cursor, whether it is the last page, and the cursor to go on with. -/
structure Reader (κ α : Type*) where
  start : κ
  page : κ → List α
  last : κ → Bool
  next : κ → κ

namespace Reader

variable (r : Reader κ α)

/-- The pages from a cursor on; behind the last one comes the start. -/
def Reads (c : κ) : List (List α) → Prop
  | [] => False
  | [page] => r.page c = page ∧ r.last c = true ∧ r.next c = r.start
  | page :: pages => r.page c = page ∧ r.last c = false ∧ Reads (r.next c) pages

/-- The cursor in a round. -/
def cursor (k : ℕ) : κ := r.next^[k] r.start

/-- What has been read before a round. -/
def readBefore (k : ℕ) : List α := (List.range k).flatMap fun i => r.page (r.cursor i)

variable {r} {c : κ} {pages : List (List α)}

theorem cursor_succ (k : ℕ) : r.cursor (k + 1) = r.next (r.cursor k) :=
  Function.iterate_succ_apply' r.next k r.start

theorem readBefore_succ (k : ℕ) :
    r.readBefore (k + 1) = r.readBefore k ++ r.page (r.cursor k) := by
  unfold readBefore
  rw [List.range_succ, List.flatMap_append, List.flatMap_singleton]

theorem forall_mem_readBefore_iff {k : ℕ} {p : α → Prop} :
    (∀ a ∈ r.readBefore k, p a) ↔ ∀ j < k, ∀ a ∈ r.page (r.cursor j), p a := by
  unfold readBefore
  simp only [List.mem_flatMap, List.mem_range]
  exact ⟨fun h j hj a ha => h a ⟨j, hj, ha⟩, fun h a ⟨j, hj, ha⟩ => h j hj a ha⟩

theorem Reads.ne_nil (h : r.Reads c pages) : pages ≠ [] := by
  rintro rfl
  exact h

/-- The pages of a pass, one after the other. -/
theorem Reads.iterate (h : r.Reads c pages) : ∀ {k : ℕ} (hk : k < pages.length),
    r.page (r.next^[k] c) = pages[k] ∧ (r.last (r.next^[k] c) = true ↔ k + 1 = pages.length) := by
  induction pages generalizing c with
  | nil => exact False.elim h
  | cons page pages ih =>
    intro k hk
    cases pages with
    | nil =>
      obtain ⟨hpage, hlast, -⟩ := h
      obtain rfl : k = 0 := by simpa using hk
      exact ⟨hpage, by simp [hlast]⟩
    | cons page' pages =>
      obtain ⟨hpage, hlast, hrest⟩ := h
      cases k with
      | zero => exact ⟨hpage, by simp [hlast]⟩
      | succ k =>
        rw [Function.iterate_succ_apply]
        obtain ⟨hpage', hlast'⟩ := ih hrest (Nat.lt_of_succ_lt_succ hk)
        refine ⟨hpage', hlast'.trans ?_⟩
        simp

/-- A pass ends at the start. -/
theorem Reads.iterate_length (h : r.Reads c pages) : r.next^[pages.length] c = r.start := by
  induction pages generalizing c with
  | nil => exact False.elim h
  | cons page pages ih =>
    cases pages with
    | nil => exact h.2.2
    | cons page' pages =>
      rw [List.length_cons, Function.iterate_succ_apply]
      exact ih h.2.2

variable (h : r.Reads r.start pages)

include h

theorem cursor_mod (k : ℕ) : r.cursor (k % pages.length) = r.cursor k :=
  Function.IsPeriodicPt.iterate_mod_apply h.iterate_length k

theorem length_pos : 0 < pages.length := List.length_pos_iff.mpr h.ne_nil

/-- The page of a round. -/
theorem page_cursor (k : ℕ) :
    r.page (r.cursor k) = pages.get ⟨k % pages.length, Nat.mod_lt k (length_pos h)⟩ := by
  rw [← cursor_mod h k]
  exact (h.iterate (Nat.mod_lt k (length_pos h))).1

/-- The last page comes when a whole number of passes is complete. -/
theorem last_cursor_iff (k : ℕ) : r.last (r.cursor k) = true ↔ pages.length ∣ k + 1 := by
  have hpos := length_pos h
  rw [← cursor_mod h k]
  refine (h.iterate (Nat.mod_lt k hpos)).2.trans ?_
  rw [Nat.dvd_iff_mod_eq_zero, Nat.add_mod]
  have hlt := Nat.mod_lt k hpos
  rcases Nat.lt_or_ge 1 pages.length with hone | hone
  · rw [Nat.mod_eq_of_lt hone]
    constructor
    · intro heq
      rw [heq, Nat.mod_self]
    · intro hzero
      by_contra hne
      rw [Nat.mod_eq_of_lt (by omega)] at hzero
      omega
  · obtain heq : pages.length = 1 := by omega
    rw [heq, Nat.mod_one]
    simp

/-- The first pass reads the list. -/
theorem readBefore_length : r.readBefore pages.length = pages.flatten := by
  have hpages : (List.range pages.length).map (fun i => r.page (r.cursor i)) = pages := by
    apply List.ext_getElem
    · simp
    · intro i hi _
      rw [List.length_map, List.length_range] at hi
      simp only [List.getElem_map, List.getElem_range, page_cursor h, List.get_eq_getElem,
        Nat.mod_eq_of_lt hi]
  unfold readBefore
  rw [List.flatMap_def, hpages]

/-- **So many passes read the list so many times.** -/
theorem readBefore_mul (passes : ℕ) :
    r.readBefore (passes * pages.length) = (List.replicate passes pages.flatten).flatten := by
  induction passes with
  | zero => simp [readBefore]
  | succ passes ih =>
    rw [Nat.succ_mul, List.replicate_succ', List.flatten_append, List.flatten_singleton, ← ih,
      ← readBefore_length h]
    unfold readBefore
    rw [List.range_add, List.flatMap_append, List.flatMap_map]
    congr 1
    apply List.flatMap_congr
    intro i _
    rw [← cursor_mod h, Nat.mul_add_mod_self_right, cursor_mod h]

theorem readBefore_of_dvd {k : ℕ} (hdvd : pages.length ∣ k) :
    r.readBefore k = (List.replicate (k / pages.length) pages.flatten).flatten := by
  rw [← readBefore_mul h, Nat.div_mul_cancel hdvd]

/-- After at least one pass everything has been read. -/
theorem mem_readBefore_iff {k : ℕ} (hdvd : pages.length ∣ k) (hk : 0 < k) {a : α} :
    a ∈ r.readBefore k ↔ a ∈ pages.flatten := by
  have hpasses : k / pages.length ≠ 0 :=
    Nat.ne_of_gt (Nat.div_pos (Nat.le_of_dvd hk hdvd) (length_pos h))
  rw [readBefore_of_dvd h hdvd, List.mem_flatten]
  constructor
  · rintro ⟨pass, hpass, ha⟩
    rw [List.eq_of_mem_replicate hpass] at ha
    exact ha
  · intro ha
    exact ⟨_, List.mem_replicate.mpr ⟨hpasses, rfl⟩, ha⟩

end Reader

/-! ## Copies of a list -/

theorem flatMap_flatten_replicate {β : Type*} (f : α → List β) (l : List α) (passes : ℕ) :
    (List.replicate passes l).flatten.flatMap f
      = (List.replicate passes (l.flatMap f)).flatten := by
  induction passes with
  | zero => rfl
  | succ passes ih =>
    rw [List.replicate_succ, List.replicate_succ, List.flatten_cons, List.flatten_cons,
      List.flatMap_append, ih]

theorem flatten_replicate_of {l : List α} {passes : ℕ} (h : l = [] ∨ passes = 1) :
    (List.replicate passes l).flatten = l := by
  rcases h with rfl | rfl <;> simp

/-- So many copies of a list are a rearrangement of it only if it is one copy, or it is empty. -/
theorem eq_nil_or_of_perm {l : List α} {passes : ℕ}
    (h : (List.replicate passes l).flatten.Perm l) : l = [] ∨ passes = 1 := by
  have hlength := h.length_eq
  rw [List.length_flatten, List.map_replicate, List.sum_replicate, smul_eq_mul] at hlength
  rcases Nat.eq_zero_or_pos l.length with hzero | hpos
  · exact Or.inl (List.length_eq_zero_iff.mp hzero)
  · right
    exact Nat.eq_of_mul_eq_mul_right hpos (hlength.trans (Nat.one_mul _).symm)

/-- Copies of a list that hold nothing twice are at most one. -/
theorem le_one_of_nodup {l : List α} {passes : ℕ}
    (h : (List.replicate passes l).flatten.Nodup) (hl : l ≠ []) : passes ≤ 1 := by
  by_contra hlt
  obtain ⟨a, ha⟩ := List.exists_mem_of_ne_nil l hl
  rw [show passes = (passes - 2) + 1 + 1 by omega, List.replicate_succ, List.replicate_succ,
    List.flatten_cons, List.flatten_cons] at h
  exact List.disjoint_of_nodup_append h ha (List.mem_append_left _ ha)

end CyclicPages
