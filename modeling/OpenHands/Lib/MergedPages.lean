/-
# Two sources merged page by page

Two lists are read in pages of at most `limit` members.  A page of the one and a page of the
other are sorted together, the newest first, and cut to `limit` members.  A source that is
exhausted begins again with its first page, until both are exhausted at once: after as many
pages as the least common multiple of the numbers of their pages.

What is read is complete, and nothing is read twice, exactly if every cut takes a page as a
whole or leaves it as a whole, and every page that is not empty is taken once.
-/
import Mathlib.Algebra.Order.Group.Nat
import Mathlib.Data.List.Nodup
import Mathlib.Data.List.Pairwise
import Mathlib.Data.List.Perm.Subperm
import OpenHands.Lib.OldestFirst

namespace MergedPages

open OldestFirst

variable {α κ : Type*} [LinearOrder κ] (key : α → κ) (limit : ℕ)

/-! ## One page -/

/-- Two pages sorted together and cut. -/
def cut (xs ys : List α) : List α := (sortNewest key (xs ++ ys)).take limit

/-- A full page leaves no place for others: they come after all of its members. -/
def Displaces (before : κ → κ → Prop) (full others : List α) : Prop :=
  full.length = limit ∧ ∀ a ∈ others, ∀ b ∈ full, before (key a) (key b)

/-- The pages fit together, or one of them displaces the other. -/
def Clean (xs ys : List α) : Prop :=
  xs.length + ys.length ≤ limit ∨ Displaces key limit (· < ·) ys xs ∨
    Displaces key limit (· ≤ ·) xs ys

variable {key limit} {xs ys : List α} {a b : α}

theorem cut_nodup (h : (xs ++ ys).Nodup) : (cut key limit xs ys).Nodup :=
  ((sortNewest_perm key _).nodup_iff.mpr h).sublist (List.take_sublist _ _)

theorem mem_of_mem_cut (h : a ∈ cut key limit xs ys) : a ∈ xs ∨ a ∈ ys :=
  List.mem_append.mp ((sortNewest_perm key _).mem_iff.mp (List.mem_of_mem_take h))

/-- What is not cut off is not older than what is. -/
theorem key_le_of_cut (ha : a ∈ xs ++ ys) (hcut : a ∉ cut key limit xs ys)
    (hb : b ∈ cut key limit xs ys) : key a ≤ key b := by
  have hsorted : (sortNewest key (xs ++ ys)).Pairwise fun a b => key b ≤ key a :=
    sortNewest_pairwise _
  have hmem : a ∈ sortNewest key (xs ++ ys) := (sortNewest_perm key _).mem_iff.mpr ha
  rw [← List.take_append_drop limit (sortNewest key (xs ++ ys))] at hsorted hmem
  have hdrop := (List.mem_append.mp hmem).resolve_left hcut
  exact (List.pairwise_append.mp hsorted).2.2 b hb a hdrop

/-- Of two members with one key the first is not cut off alone. -/
theorem mem_cut_of_sublist (hnodup : (xs ++ ys).Nodup) (hkey : key b ≤ key a)
    (hsub : List.Sublist [a, b] (xs ++ ys)) (hb : b ∈ cut key limit xs ys) :
    a ∈ cut key limit xs ys := by
  have hsorted : List.Sublist [a, b] (sortNewest key (xs ++ ys)) := by
    refine List.pair_sublist_mergeSort ?_ ?_ (decide_eq_true hkey) hsub
    · intro a b c hab hbc
      rw [decide_eq_true_eq] at hab hbc ⊢
      exact le_trans hbc hab
    · intro a b
      rw [Bool.or_eq_true, decide_eq_true_eq, decide_eq_true_eq]
      exact le_total _ _
  have hpage := (sortNewest_perm key (xs ++ ys)).nodup_iff.mpr hnodup
  rw [← List.take_append_drop limit (sortNewest key (xs ++ ys))] at hsorted hpage
  obtain ⟨front, back, heq, hfront, hback⟩ := List.sublist_append_iff.mp hsorted
  cases front with
  | nil =>
    -- both stand behind the cut, but `b` does not
    have hdrop : b ∈ (sortNewest key (xs ++ ys)).drop limit := by
      refine hback.subset ?_
      rw [← List.nil_append back, ← heq]
      exact List.mem_cons_of_mem _ (List.mem_singleton_self b)
    exact absurd hdrop (List.disjoint_of_nodup_append hpage hb)
  | cons c front =>
    obtain ⟨rfl, -⟩ := List.cons.inj heq
    exact hfront.subset List.mem_cons_self

theorem pair_sublist_append (ha : a ∈ xs) (hb : b ∈ ys) : List.Sublist [a, b] (xs ++ ys) :=
  List.Sublist.append (List.singleton_sublist.mpr ha) (List.singleton_sublist.mpr hb)

/-- Two members stand in one of two orders. -/
theorem pair_sublist_or (ha : a ∈ xs) (hb : b ∈ xs) (hne : a ≠ b) :
    List.Sublist [a, b] xs ∨ List.Sublist [b, a] xs := by
  obtain ⟨front, back, rfl⟩ := List.append_of_mem ha
  rcases List.mem_append.mp hb with hfront | hback
  · exact Or.inr (pair_sublist_append hfront List.mem_cons_self)
  · have htail := (List.mem_cons.mp hback).resolve_left (Ne.symm hne)
    exact Or.inl (((List.singleton_sublist.mpr htail).cons_cons a).trans
      (List.sublist_append_right _ _))

/-- The members of one page are cut off in one order, whatever the other page is. -/
theorem mem_cut_of_mem_cut {ys' : List α} (hnodup : (xs ++ ys).Nodup)
    (hnodup' : (xs ++ ys').Nodup) (ha : a ∈ xs) (hb : b ∈ xs)
    (hacut : a ∈ cut key limit xs ys) (hbcut : b ∉ cut key limit xs ys)
    (hbcut' : b ∈ cut key limit xs ys') : a ∈ cut key limit xs ys' := by
  by_contra hacut'
  have hba := key_le_of_cut (List.mem_append_left ys hb) hbcut hacut
  have hab := key_le_of_cut (List.mem_append_left ys' ha) hacut' hbcut'
  have hne : a ≠ b := fun heq => hbcut (heq ▸ hacut)
  rcases pair_sublist_or ha hb hne with hsub | hsub
  · exact hacut' (mem_cut_of_sublist hnodup' hba
      (hsub.trans (List.sublist_append_left xs ys')) hbcut')
  · exact hbcut (mem_cut_of_sublist hnodup hab
      (hsub.trans (List.sublist_append_left xs ys)) hacut)

theorem mem_cut_of_mem_cut_right {xs' : List α} (hnodup : (xs ++ ys).Nodup)
    (hnodup' : (xs' ++ ys).Nodup) (ha : a ∈ ys) (hb : b ∈ ys)
    (hacut : a ∈ cut key limit xs ys) (hbcut : b ∉ cut key limit xs ys)
    (hbcut' : b ∈ cut key limit xs' ys) : a ∈ cut key limit xs' ys := by
  by_contra hacut'
  have hba := key_le_of_cut (List.mem_append_right xs hb) hbcut hacut
  have hab := key_le_of_cut (List.mem_append_right xs' ha) hacut' hbcut'
  have hne : a ≠ b := fun heq => hbcut (heq ▸ hacut)
  rcases pair_sublist_or ha hb hne with hsub | hsub
  · exact hacut' (mem_cut_of_sublist hnodup' hba
      (hsub.trans (List.sublist_append_right xs' ys)) hbcut')
  · exact hbcut (mem_cut_of_sublist hnodup hab
      (hsub.trans (List.sublist_append_right xs ys)) hacut)

/-! ## Pages that fit or displace -/

theorem cut_of_fits (h : xs.length + ys.length ≤ limit) :
    (cut key limit xs ys).Perm (xs ++ ys) := by
  unfold cut
  rw [List.take_of_length_le]
  · exact sortNewest_perm key _
  · rw [(sortNewest_perm key _).length_eq, List.length_append]
    exact h

theorem length_cut (h : limit ≤ xs.length + ys.length) :
    (cut key limit xs ys).length = limit := by
  unfold cut
  rw [List.length_take, (sortNewest_perm key _).length_eq, List.length_append]
  exact Nat.min_eq_left h

/-- A full page whose members come first is what is left of the cut. -/
theorem cut_of_full {full others : List α} (hnodup : (xs ++ ys).Nodup)
    (hperm : (full ++ others).Perm (xs ++ ys)) (hfull : full.length = limit)
    (hfirst : ∀ a ∈ full, ∀ b ∈ others, b ∈ cut key limit xs ys → a ∈ cut key limit xs ys) :
    (cut key limit xs ys).Perm full := by
  have hlength : (cut key limit xs ys).length = limit := by
    refine length_cut ?_
    rw [← List.length_append, ← hperm.length_eq, List.length_append]
    omega
  have hparts := hperm.nodup_iff.mpr hnodup
  have hsubset : cut key limit xs ys ⊆ full := by
    intro b hb
    have hmem : b ∈ full ++ others :=
      hperm.mem_iff.mpr (List.mem_append.mpr (mem_of_mem_cut hb))
    rcases List.mem_append.mp hmem with hin | hout
    · exact hin
    · -- with `b` there would be more than `limit` members
      have hsub : List.Subperm (b :: full) (cut key limit xs ys) := by
        refine List.subperm_of_subset ?_ ?_
        · refine List.nodup_cons.mpr ⟨fun hin => ?_, hparts.of_append_left⟩
          exact List.disjoint_of_nodup_append hparts hin hout
        · exact List.cons_subset.mpr ⟨hb, fun a ha => hfirst a ha b hout hb⟩
      have hle := hsub.length_le
      rw [List.length_cons] at hle
      omega
  exact (List.subperm_of_subset (cut_nodup hnodup) hsubset).perm_of_length_le (by omega)

theorem cut_of_displaces_right (hnodup : (xs ++ ys).Nodup)
    (h : Displaces key limit (· < ·) ys xs) : (cut key limit xs ys).Perm ys := by
  refine cut_of_full hnodup List.perm_append_comm h.1 fun a ha b hb hbcut => ?_
  by_contra hacut
  exact absurd (key_le_of_cut (List.mem_append_right xs ha) hacut hbcut)
    (not_le_of_gt (h.2 b hb a ha))

theorem cut_of_displaces_left (hnodup : (xs ++ ys).Nodup)
    (h : Displaces key limit (· ≤ ·) xs ys) : (cut key limit xs ys).Perm xs :=
  cut_of_full hnodup (List.Perm.refl _) h.1 fun _ ha _ hb hbcut =>
    mem_cut_of_sublist hnodup (h.2 _ hb _ ha) (pair_sublist_append ha hb) hbcut

/-- Members that are all cut off are displaced. -/
theorem length_of_forall_not_mem {full others : List α} (hnodup : (xs ++ ys).Nodup)
    (hperm : (full ++ others).Perm (xs ++ ys)) (hfull : full.length ≤ limit) (ha : a ∈ others)
    (hnone : ∀ a ∈ others, a ∉ cut key limit xs ys) :
    full.length = limit ∧ ∀ b ∈ full, b ∈ cut key limit xs ys := by
  have hsubset : cut key limit xs ys ⊆ full := by
    intro b hb
    have hmem : b ∈ full ++ others :=
      hperm.mem_iff.mpr (List.mem_append.mpr (mem_of_mem_cut hb))
    exact (List.mem_append.mp hmem).resolve_right fun hout => hnone b hout hb
  have hcut : (cut key limit xs ys).Nodup := cut_nodup hnodup
  have hsub := List.subperm_of_subset hcut hsubset
  have hmore : limit ≤ xs.length + ys.length := by
    by_contra hless
    have hall : (cut key limit xs ys).Perm (xs ++ ys) := cut_of_fits (by omega)
    exact hnone a ha (hall.mem_iff.mpr (hperm.subset (List.mem_append_right full ha)))
  have hlength : (cut key limit xs ys).length = limit := length_cut hmore
  have hle := hsub.length_le
  refine ⟨by omega, fun b hb => ?_⟩
  exact (hsub.perm_of_length_le (by omega)).mem_iff.mpr hb

theorem displaces_right (hnodup : (xs ++ ys).Nodup) (hlimit : ys.length ≤ limit) (ha : a ∈ xs)
    (hnone : ∀ a ∈ xs, a ∉ cut key limit xs ys) : Displaces key limit (· < ·) ys xs := by
  obtain ⟨hlength, hall⟩ :=
    length_of_forall_not_mem hnodup List.perm_append_comm hlimit ha hnone
  refine ⟨hlength, fun a ha b hb => lt_of_not_ge fun hle => ?_⟩
  exact hnone a ha (mem_cut_of_sublist hnodup hle (pair_sublist_append ha hb) (hall b hb))

theorem displaces_left (hnodup : (xs ++ ys).Nodup) (hlimit : xs.length ≤ limit) (ha : a ∈ ys)
    (hnone : ∀ a ∈ ys, a ∉ cut key limit xs ys) : Displaces key limit (· ≤ ·) xs ys := by
  obtain ⟨hlength, hall⟩ :=
    length_of_forall_not_mem hnodup (List.Perm.refl _) hlimit ha hnone
  exact ⟨hlength, fun a ha b hb =>
    key_le_of_cut (List.mem_append_right xs ha) (hnone a ha) (hall b hb)⟩

/-- A clean cut takes a page as a whole unless it is displaced. -/
theorem mem_cut_left_iff (hnodup : (xs ++ ys).Nodup) (hclean : Clean key limit xs ys)
    (ha : a ∈ xs) : a ∈ cut key limit xs ys ↔ ¬ Displaces key limit (· < ·) ys xs := by
  constructor
  · intro hcut hdisplaced
    exact List.disjoint_of_nodup_append hnodup ha
      ((cut_of_displaces_right hnodup hdisplaced).mem_iff.mp hcut)
  · intro hnot
    rcases hclean with hfits | hright | hleft
    · exact (cut_of_fits hfits).mem_iff.mpr (List.mem_append_left ys ha)
    · exact absurd hright hnot
    · exact (cut_of_displaces_left hnodup hleft).mem_iff.mpr ha

theorem mem_cut_right_iff (hnodup : (xs ++ ys).Nodup) (hclean : Clean key limit xs ys)
    (ha : a ∈ ys) : a ∈ cut key limit xs ys ↔ ¬ Displaces key limit (· ≤ ·) xs ys := by
  constructor
  · intro hcut hdisplaced
    exact List.disjoint_of_nodup_append hnodup
      ((cut_of_displaces_left hnodup hdisplaced).mem_iff.mp hcut) ha
  · intro hnot
    rcases hclean with hfits | hright | hleft
    · exact (cut_of_fits hfits).mem_iff.mpr (List.mem_append_right xs ha)
    · exact (cut_of_displaces_right hnodup hright).mem_iff.mpr ha
    · exact absurd hleft hnot

/-! ## All pages -/

section Cycles

variable (key limit) (X Y : ℕ → List α) (m n : ℕ)

/-- What is read: page after page of both sources, of which the first has `m` pages and the
second has `n`. -/
def readAll : List α :=
  (List.range (m.lcm n)).flatMap fun t => cut key limit (X (t % m)) (Y (t % n))

/-- Every cut is clean, and every page that is not empty meets just one that does not displace
it. -/
structure Whole : Prop where
  clean : ∀ t < m.lcm n, Clean key limit (X (t % m)) (Y (t % n))
  left : ∀ i < m, X i ≠ [] →
    ∃! t, (t < m.lcm n ∧ t % m = i) ∧ ¬ Displaces key limit (· < ·) (Y (t % n)) (X i)
  right : ∀ j < n, Y j ≠ [] →
    ∃! t, (t < m.lcm n ∧ t % n = j) ∧ ¬ Displaces key limit (· ≤ ·) (X (t % m)) (Y j)

/-- All members of both sources. -/
def members : List α := (List.range m).flatMap X ++ (List.range n).flatMap Y

/-- A member of pages without duplicates is in one of them. -/
theorem index_unique {f : ℕ → List α} {k : ℕ} (h : ((List.range k).flatMap f).Nodup) {t t' : ℕ}
    (ht : t < k) (ht' : t' < k) {a : α} (ha : a ∈ f t) (ha' : a ∈ f t') : t = t' := by
  by_contra hne
  have hsymm : Std.Symm (Function.onFun List.Disjoint f) := ⟨fun _ _ hapart _ hb ha => hapart ha hb⟩
  have hapart := (List.nodup_flatMap.mp h).2.forall (List.mem_range.mpr ht)
    (List.mem_range.mpr ht') hne
  exact hapart ha ha'

/-- What pages hold together is a list without duplicates if every member is in just one. -/
theorem flatMap_perm_iff {f : ℕ → List α} {k : ℕ} {target : List α} (htarget : target.Nodup)
    (hf : ∀ t < k, (f t).Nodup) (hsub : ∀ t < k, f t ⊆ target) :
    ((List.range k).flatMap f).Perm target ↔ ∀ a ∈ target, ∃! t, t < k ∧ a ∈ f t := by
  constructor
  · intro hperm a ha
    obtain ⟨t, ht, hat⟩ := List.mem_flatMap.mp (hperm.mem_iff.mpr ha)
    exact ⟨t, ⟨List.mem_range.mp ht, hat⟩, fun t' ht' =>
      index_unique (hperm.nodup_iff.mpr htarget) ht'.1 (List.mem_range.mp ht) ht'.2 hat⟩
  · intro hone
    have hapart : (List.range k).Pairwise (Function.onFun List.Disjoint f) := by
      refine List.nodup_range.pairwise_of_forall_ne fun t ht t' ht' hne a hat hat' => hne ?_
      have hk := List.mem_range.mp ht
      exact (hone a (hsub t hk hat)).unique ⟨hk, hat⟩ ⟨List.mem_range.mp ht', hat'⟩
    have hnodup := List.nodup_flatMap.mpr ⟨fun t ht => hf t (List.mem_range.mp ht), hapart⟩
    refine (List.perm_ext_iff_of_nodup hnodup htarget).mpr fun a => ⟨fun ha => ?_, fun ha => ?_⟩
    · obtain ⟨t, ht, hat⟩ := List.mem_flatMap.mp ha
      exact hsub t (List.mem_range.mp ht) hat
    · obtain ⟨t, ⟨ht, hat⟩, -⟩ := hone a ha
      exact List.mem_flatMap.mpr ⟨t, List.mem_range.mpr ht, hat⟩

variable {key limit X Y m n} {a b : α} {i j t : ℕ}

theorem length_readAll_le (X Y : ℕ → List α) (m n : ℕ) :
    (readAll key limit X Y m n).length ≤ m.lcm n * limit := by
  unfold readAll
  induction m.lcm n with
  | zero => exact Nat.zero_le _
  | succ k ih =>
    have hcut : (cut key limit (X (k % m)) (Y (k % n))).length ≤ limit := List.length_take_le _ _
    rw [List.range_succ, List.flatMap_append, List.length_append, List.flatMap_singleton,
      Nat.succ_mul]
    exact Nat.add_le_add ih hcut

theorem mem_members_left (hi : i < m) (ha : a ∈ X i) : a ∈ members X Y m n :=
  List.mem_append_left _ (List.mem_flatMap.mpr ⟨i, List.mem_range.mpr hi, ha⟩)

theorem mem_members_right (hj : j < n) (ha : a ∈ Y j) : a ∈ members X Y m n :=
  List.mem_append_right _ (List.mem_flatMap.mpr ⟨j, List.mem_range.mpr hj, ha⟩)

theorem mem_members_iff : a ∈ members X Y m n ↔ (∃ i < m, a ∈ X i) ∨ ∃ j < n, a ∈ Y j := by
  simp [members]

/-- A member of the one source is none of the other. -/
theorem not_mem_right (h : (members X Y m n).Nodup) (hi : i < m) (hj : j < n) (ha : a ∈ X i) :
    a ∉ Y j := by
  intro hb
  exact List.disjoint_of_nodup_append h (List.mem_flatMap.mpr ⟨i, List.mem_range.mpr hi, ha⟩)
    (List.mem_flatMap.mpr ⟨j, List.mem_range.mpr hj, hb⟩)

/-- Two pages that are read together have no member twice. -/
theorem pages_nodup (h : (members X Y m n).Nodup) (hi : i < m) (hj : j < n) :
    (X i ++ Y j).Nodup := by
  refine List.nodup_append'.mpr ⟨?_, ?_, fun a ha hb => not_mem_right h hi hj ha hb⟩
  · exact (List.nodup_flatMap.mp h.of_append_left).1 i (List.mem_range.mpr hi)
  · exact (List.nodup_flatMap.mp h.of_append_right).1 j (List.mem_range.mpr hj)

variable (h : (members X Y m n).Nodup) (hm : 0 < m) (hn : 0 < n)

include h hm hn

theorem cut_page_nodup (t : ℕ) : (cut key limit (X (t % m)) (Y (t % n))).Nodup :=
  cut_nodup (pages_nodup h (Nat.mod_lt t hm) (Nat.mod_lt t hn))

/-- A member of a page is read only together with this page. -/
theorem mod_eq_of_mem_cut (hi : i < m) (ha : a ∈ X i)
    (hcut : a ∈ cut key limit (X (t % m)) (Y (t % n))) : t % m = i := by
  rcases mem_of_mem_cut hcut with hx | hy
  · exact index_unique h.of_append_left (Nat.mod_lt t hm) hi hx ha
  · exact absurd hy (not_mem_right h hi (Nat.mod_lt t hn) ha)

theorem mod_eq_of_mem_cut_right (hj : j < n) (ha : a ∈ Y j)
    (hcut : a ∈ cut key limit (X (t % m)) (Y (t % n))) : t % n = j := by
  rcases mem_of_mem_cut hcut with hx | hy
  · exact absurd ha (not_mem_right h (Nat.mod_lt t hm) hj hx)
  · exact index_unique h.of_append_right (Nat.mod_lt t hn) hj hy ha

omit hm in
/-- A clean cut takes a page unless it is displaced. -/
theorem mem_cut_page_iff (hi : i < m) (ha : a ∈ X i) (hmod : t % m = i)
    (hclean : Clean key limit (X (t % m)) (Y (t % n))) :
    a ∈ cut key limit (X (t % m)) (Y (t % n)) ↔
      ¬ Displaces key limit (· < ·) (Y (t % n)) (X i) := by
  subst hmod
  exact mem_cut_left_iff (pages_nodup h hi (Nat.mod_lt t hn)) hclean ha

omit hn in
theorem mem_cut_page_right_iff (hj : j < n) (ha : a ∈ Y j) (hmod : t % n = j)
    (hclean : Clean key limit (X (t % m)) (Y (t % n))) :
    a ∈ cut key limit (X (t % m)) (Y (t % n)) ↔
      ¬ Displaces key limit (· ≤ ·) (X (t % m)) (Y j) := by
  subst hmod
  exact mem_cut_right_iff (pages_nodup h (Nat.mod_lt t hm) hj) hclean ha

section Unique

variable (hone : ∀ a ∈ members X Y m n, ∃! t,
  t < m.lcm n ∧ a ∈ cut key limit (X (t % m)) (Y (t % n)))

include hone

/-- Where every member is read once, no page is taken in part. -/
theorem mem_cut_of_unique (ht : t < m.lcm n) (ha : a ∈ X (t % m)) (hb : b ∈ X (t % m))
    (hcut : a ∈ cut key limit (X (t % m)) (Y (t % n))) :
    b ∈ cut key limit (X (t % m)) (Y (t % n)) := by
  by_contra hbcut
  have hi := Nat.mod_lt t hm
  obtain ⟨t', ⟨ht', hbcut'⟩, -⟩ := hone b (mem_members_left hi hb)
  have hmod := mod_eq_of_mem_cut h hm hn hi hb hbcut'
  have hpages := pages_nodup h hi (Nat.mod_lt t hn)
  have hpages' := pages_nodup h hi (Nat.mod_lt t' hn)
  -- the other page that `b` is read with takes `a` as well
  have hacut' : a ∈ cut key limit (X (t' % m)) (Y (t' % n)) := by
    rw [hmod] at hbcut' ⊢
    exact mem_cut_of_mem_cut hpages hpages' ha hb hcut hbcut hbcut'
  have heq := (hone a (mem_members_left hi ha)).unique ⟨ht, hcut⟩ ⟨ht', hacut'⟩
  rw [← heq] at hbcut'
  exact hbcut hbcut'

theorem mem_cut_of_unique_right (ht : t < m.lcm n) (ha : a ∈ Y (t % n)) (hb : b ∈ Y (t % n))
    (hcut : a ∈ cut key limit (X (t % m)) (Y (t % n))) :
    b ∈ cut key limit (X (t % m)) (Y (t % n)) := by
  by_contra hbcut
  have hj := Nat.mod_lt t hn
  obtain ⟨t', ⟨ht', hbcut'⟩, -⟩ := hone b (mem_members_right hj hb)
  have hmod := mod_eq_of_mem_cut_right h hm hn hj hb hbcut'
  have hpages := pages_nodup h (Nat.mod_lt t hm) hj
  have hpages' := pages_nodup h (Nat.mod_lt t' hm) hj
  have hacut' : a ∈ cut key limit (X (t' % m)) (Y (t' % n)) := by
    rw [hmod] at hbcut' ⊢
    exact mem_cut_of_mem_cut_right hpages hpages' ha hb hcut hbcut hbcut'
  have heq := (hone a (mem_members_right hj ha)).unique ⟨ht, hcut⟩ ⟨ht', hacut'⟩
  rw [← heq] at hbcut'
  exact hbcut hbcut'

variable (hX : ∀ i < m, (X i).length ≤ limit) (hY : ∀ j < n, (Y j).length ≤ limit)

include hX hY

theorem clean_of_unique (ht : t < m.lcm n) : Clean key limit (X (t % m)) (Y (t % n)) := by
  have hpages := pages_nodup h (Nat.mod_lt t hm) (Nat.mod_lt t hn)
  have hxs := hX _ (Nat.mod_lt t hm)
  have hys := hY _ (Nat.mod_lt t hn)
  by_cases hxnone : ∀ a ∈ X (t % m), a ∉ cut key limit (X (t % m)) (Y (t % n))
  · rcases List.eq_nil_or_concat (X (t % m)) with hnil | ⟨front, a, hlast⟩
    · exact Or.inl (by rw [hnil, List.length_nil, Nat.zero_add]; exact hys)
    · have ha : a ∈ X (t % m) := by simp [hlast]
      exact Or.inr (Or.inl (displaces_right hpages hys ha hxnone))
  by_cases hynone : ∀ b ∈ Y (t % n), b ∉ cut key limit (X (t % m)) (Y (t % n))
  · rcases List.eq_nil_or_concat (Y (t % n)) with hnil | ⟨front, b, hlast⟩
    · exact Or.inl (by rw [hnil, List.length_nil, Nat.add_zero]; exact hxs)
    · have hb : b ∈ Y (t % n) := by simp [hlast]
      exact Or.inr (Or.inr (displaces_left hpages hxs hb hynone))
  -- something of both pages is read, so both are
  push Not at hxnone hynone
  obtain ⟨a, ha, hacut⟩ := hxnone
  obtain ⟨b, hb, hbcut⟩ := hynone
  have hall : X (t % m) ++ Y (t % n) ⊆ cut key limit (X (t % m)) (Y (t % n)) :=
    List.append_subset.mpr ⟨fun _ hc => mem_cut_of_unique h hm hn hone ht ha hc hacut,
      fun _ hc => mem_cut_of_unique_right h hm hn hone ht hb hc hbcut⟩
  have hle := (List.subperm_of_subset hpages hall).length_le
  rw [List.length_append] at hle
  exact Or.inl (hle.trans (List.length_take_le _ _))

theorem whole_of_unique : Whole key limit X Y m n where
  clean t ht := clean_of_unique h hm hn hone hX hY ht
  left i hi hne := by
    obtain ⟨a, ha⟩ := List.exists_mem_of_ne_nil _ hne
    obtain ⟨t, ⟨ht, hcut⟩, hunique⟩ := hone a (mem_members_left hi ha)
    have hclean : ∀ t' < m.lcm n, Clean key limit (X (t' % m)) (Y (t' % n)) :=
      fun _ ht' => clean_of_unique h hm hn hone hX hY ht'
    have hmod := mod_eq_of_mem_cut h hm hn hi ha hcut
    refine ⟨t, ⟨⟨ht, hmod⟩, (mem_cut_page_iff h hn hi ha hmod (hclean t ht)).mp hcut⟩, ?_⟩
    rintro t' ⟨⟨ht', hmod'⟩, hnot⟩
    exact hunique t' ⟨ht', (mem_cut_page_iff h hn hi ha hmod' (hclean t' ht')).mpr hnot⟩
  right j hj hne := by
    obtain ⟨a, ha⟩ := List.exists_mem_of_ne_nil _ hne
    obtain ⟨t, ⟨ht, hcut⟩, hunique⟩ := hone a (mem_members_right hj ha)
    have hclean : ∀ t' < m.lcm n, Clean key limit (X (t' % m)) (Y (t' % n)) :=
      fun _ ht' => clean_of_unique h hm hn hone hX hY ht'
    have hmod := mod_eq_of_mem_cut_right h hm hn hj ha hcut
    refine ⟨t, ⟨⟨ht, hmod⟩,
      (mem_cut_page_right_iff h hm hj ha hmod (hclean t ht)).mp hcut⟩, ?_⟩
    rintro t' ⟨⟨ht', hmod'⟩, hnot⟩
    exact hunique t' ⟨ht', (mem_cut_page_right_iff h hm hj ha hmod' (hclean t' ht')).mpr hnot⟩

end Unique

/-- Where the cuts are whole, every member is read once. -/
theorem unique_of_whole (hwhole : Whole key limit X Y m n) (ha : a ∈ members X Y m n) :
    ∃! t, t < m.lcm n ∧ a ∈ cut key limit (X (t % m)) (Y (t % n)) := by
  have hclean := hwhole.clean
  rcases mem_members_iff.mp ha with ⟨i, hi, hx⟩ | ⟨j, hj, hy⟩
  · obtain ⟨t, ⟨⟨ht, hmod⟩, hnot⟩, hunique⟩ := hwhole.left i hi (List.ne_nil_of_mem hx)
    refine ⟨t, ⟨ht, (mem_cut_page_iff h hn hi hx hmod (hclean t ht)).mpr hnot⟩, ?_⟩
    rintro t' ⟨ht', hcut⟩
    have hmod' := mod_eq_of_mem_cut h hm hn hi hx hcut
    exact hunique t' ⟨⟨ht', hmod'⟩,
      (mem_cut_page_iff h hn hi hx hmod' (hclean t' ht')).mp hcut⟩
  · obtain ⟨t, ⟨⟨ht, hmod⟩, hnot⟩, hunique⟩ := hwhole.right j hj (List.ne_nil_of_mem hy)
    refine ⟨t, ⟨ht, (mem_cut_page_right_iff h hm hj hy hmod (hclean t ht)).mpr hnot⟩, ?_⟩
    rintro t' ⟨ht', hcut⟩
    have hmod' := mod_eq_of_mem_cut_right h hm hn hj hy hcut
    exact hunique t' ⟨⟨ht', hmod'⟩,
      (mem_cut_page_right_iff h hm hj hy hmod' (hclean t' ht')).mp hcut⟩

/-- **All members are read, each of them once, exactly if the cuts are whole.** -/
theorem readAll_perm_iff (hX : ∀ i < m, (X i).length ≤ limit)
    (hY : ∀ j < n, (Y j).length ≤ limit) :
    (readAll key limit X Y m n).Perm (members X Y m n) ↔ Whole key limit X Y m n := by
  have hsub : ∀ t < m.lcm n, cut key limit (X (t % m)) (Y (t % n)) ⊆ members X Y m n := by
    intro t _ a ha
    rcases mem_of_mem_cut ha with hx | hy
    · exact mem_members_left (Nat.mod_lt t hm) hx
    · exact mem_members_right (Nat.mod_lt t hn) hy
  rw [readAll, flatMap_perm_iff h (fun t _ => cut_page_nodup h hm hn t) hsub]
  exact ⟨fun hone => whole_of_unique h hm hn hone hX hY,
    fun hwhole a ha => unique_of_whole h hm hn hwhole ha⟩

omit h hn in
/-- Sources with the same number of pages go together, and their pages have to fit. -/
theorem whole_self_iff : Whole key limit X Y m m ↔
    ∀ t < m, (X t).length + (Y t).length ≤ limit := by
  constructor
  · intro hwhole t ht
    have hclean := hwhole.clean t (by rwa [Nat.lcm_self])
    rw [Nat.mod_eq_of_lt ht] at hclean
    rcases hclean with hfits | hright | hleft
    · exact hfits
    · rcases List.eq_nil_or_concat (X t) with hnil | ⟨front, a, hlast⟩
      · rw [hnil, List.length_nil, Nat.zero_add]
        exact hright.1.le
      · -- the page is taken in the only request that reads it
        obtain ⟨t', ⟨⟨ht', rfl⟩, hnot⟩, -⟩ := hwhole.left t ht (by simp [hlast])
        exact absurd hright hnot
    · rcases List.eq_nil_or_concat (Y t) with hnil | ⟨front, b, hlast⟩
      · rw [hnil, List.length_nil, Nat.add_zero]
        exact hleft.1.le
      · obtain ⟨t', ⟨⟨ht', rfl⟩, hnot⟩, -⟩ := hwhole.right t ht (by simp [hlast])
        exact absurd hleft hnot
  · intro hfits
    refine ⟨fun t _ => Or.inl (hfits _ (Nat.mod_lt t hm)), fun i hi hne => ?_, fun j hj hne => ?_⟩
    · have hlength := List.length_pos_iff.mpr hne
      refine ⟨i, ⟨⟨by rwa [Nat.lcm_self], Nat.mod_eq_of_lt hi⟩, fun hdisplaced => ?_⟩, ?_⟩
      · have hfull := hdisplaced.1
        have hle := hfits i hi
        rw [Nat.mod_eq_of_lt hi] at hfull
        omega
      · rintro t ⟨⟨ht, hmod⟩, -⟩
        rwa [Nat.lcm_self, ← Nat.mod_eq_iff_lt (Nat.pos_iff_ne_zero.mp hm), hmod, eq_comm] at ht
    · have hlength := List.length_pos_iff.mpr hne
      refine ⟨j, ⟨⟨by rwa [Nat.lcm_self], Nat.mod_eq_of_lt hj⟩, fun hdisplaced => ?_⟩, ?_⟩
      · have hfull := hdisplaced.1
        have hle := hfits j hj
        rw [Nat.mod_eq_of_lt hj] at hfull
        omega
      · rintro t ⟨⟨ht, hmod⟩, -⟩
        rwa [Nat.lcm_self, ← Nat.mod_eq_iff_lt (Nat.pos_iff_ne_zero.mp hm), hmod, eq_comm] at ht

end Cycles

end MergedPages
