/-
# Replacing a text everywhere

`s.replace(pat, new)` puts `new` for every occurrence of `pat` that a scan from the left
finds.  When `new`, put for one occurrence after another, never comes to spell a text together
with what stands beside it, a text is found afterwards only where it stood before
(`Replaced.infix_of_spellsNone`), and `pat` itself is gone (`Replaced.absent`).
-/
import Mathlib.Logic.Relation
import OpenHands.Lib.PyRe

namespace PyReplace

open PyStr PyRe

variable {α : Type*}

/-- `s.replace(pat, new)`; the empty pattern is found around every character. -/
def replace [DecidableEq α] (pat new s : List α) : List α :=
  if hne : pat ≠ [] then replaceAll pat hne new s else new ++ s.flatMap (fun c => c :: new)

/-! ## Occurrences that go over a seam -/

/-- The text occurs in `a ++ new ++ b` and takes a part of `new`, or goes over it. -/
def Spelled (t a new b : List α) : Prop :=
  ∃ c d, c ++ (t ++ d) = a ++ (new ++ b) ∧ a.length < c.length + t.length ∧
    c.length < a.length + new.length

/-- A text that is not spelled is found on one of the two sides. -/
theorem infix_cases_of_not_spelled {t a new b : List α} (hnot : ¬ Spelled t a new b)
    (h : t <:+: a ++ (new ++ b)) : t <:+: a ∨ t <:+: b := by
  obtain ⟨c, d, hcd⟩ := h
  rw [List.append_assoc] at hcd
  by_cases hbefore : c.length + t.length ≤ a.length
  · left
    have hleads : c ++ t <+: a := by
      refine List.prefix_of_prefix_length_le ⟨d, ?_⟩ (List.prefix_append a (new ++ b)) ?_
      · rw [List.append_assoc, hcd]
      · rwa [List.length_append]
    exact (List.infix_append' c t []).trans (by rw [List.append_nil]; exact hleads.isInfix)
  · by_cases hbehind : a.length + new.length ≤ c.length
    · right
      have hends : t ++ d <:+ b := by
        refine List.suffix_of_suffix_length_le ⟨c, hcd⟩ ⟨a ++ new, List.append_assoc a new b⟩ ?_
        have hlength := congrArg List.length hcd
        simp only [List.length_append] at hlength ⊢
        omega
      exact (List.prefix_append t d).isInfix.trans hends.isInfix
    · exact absurd ⟨c, d, hcd, by omega, by omega⟩ hnot

/-- What is spelled beside a part of the sides is spelled beside the whole. -/
theorem Spelled.extend {t a new b : List α} (h : Spelled t a new b) (l r : List α) :
    Spelled t (l ++ a) new (b ++ r) := by
  obtain ⟨c, d, hcd, hbefore, hbehind⟩ := h
  refine ⟨l ++ c, d ++ r, ?_, ?_, ?_⟩
  · have hsame := congrArg (fun s => l ++ (s ++ r)) hcd
    simpa only [List.append_assoc] using hsame
  · rw [List.length_append, List.length_append]
    omega
  · rw [List.length_append, List.length_append]
    omega

/-- The text stands apart from a mask: neither is in the other, and they do not overlap. -/
structure Apart (s mask : List α) : Prop where
  notIn : ¬ s <:+: mask
  notAround : ¬ mask <:+: s
  notBefore : ∀ u v, s = u ++ v → v ≠ [] → ¬ v <+: mask
  notAfter : ∀ u v, s = u ++ v → u ≠ [] → ¬ u <:+ mask

/-- A text that stands apart from a mask is never spelled with it. -/
theorem Apart.not_spelled {t a mask b : List α} (h : Apart t mask) : ¬ Spelled t a mask b := by
  rintro ⟨c, d, hcd, hbefore, hbehind⟩
  rcases List.append_eq_append_iff.mp hcd with ⟨x, rfl, hx⟩ | ⟨x, rfl, hx⟩
  · -- the text begins in front of the mask
    rw [List.length_append] at hbefore
    rcases List.append_eq_append_iff.mp hx with ⟨y, rfl, -⟩ | ⟨y, rfl, hy⟩
    · rw [List.length_append] at hbefore
      omega
    · have hne : y ≠ [] := by
        rintro rfl
        simp at hbefore
      rcases List.append_eq_append_iff.mp hy with ⟨z, rfl, -⟩ | ⟨z, rfl, -⟩
      · exact h.notAround (List.infix_append' x mask z)
      · exact h.notBefore x y rfl hne (List.prefix_append y z)
  · -- the text begins in the mask
    rw [List.length_append] at hbehind
    rcases List.append_eq_append_iff.mp hx with ⟨y, rfl, -⟩ | ⟨y, rfl, hy⟩
    · rw [List.length_append] at hbehind
      omega
    · have hne : y ≠ [] := by
        rintro rfl
        simp at hbehind
      rcases List.append_eq_append_iff.mp hy with ⟨z, rfl, -⟩ | ⟨z, rfl, -⟩
      · exact h.notIn ⟨x, z, List.append_assoc x t z⟩
      · exact h.notAfter y z rfl hne (List.suffix_append x y)

/-! ## One occurrence after another -/

/-- One occurrence of one of the texts gives way to `new`. -/
inductive PutsOne (pats : List (List α)) (new : List α) : List α → List α → Prop
  | mk (a pat b : List α) (hpat : pat ∈ pats) : PutsOne pats new (a ++ (pat ++ b)) (a ++ (new ++ b))

/-- Whichever occurrences of the texts give way to `new`, one after another and in whatever
order, the `new` that is put last spells none of the texts. -/
def SpellsNone (pats : List (List α)) (new s : List α) : Prop :=
  ∀ a pat b, pat ∈ pats → Relation.ReflTransGen (PutsOne pats new) s (a ++ (pat ++ b)) →
    ∀ t ∈ pats, ¬ Spelled t a new b

theorem spellsNone_of_apart {pats : List (List α)} {new : List α}
    (hapart : ∀ pat ∈ pats, Apart pat new) (s : List α) : SpellsNone pats new s :=
  fun _ _ _ _ _ t ht => (hapart t ht).not_spelled

theorem SpellsNone.trans {pats : List (List α)} {new s s' : List α} (h : SpellsNone pats new s)
    (hreach : Relation.ReflTransGen (PutsOne pats new) s s') : SpellsNone pats new s' :=
  fun a pat b hpat hlast => h a pat b hpat (hreach.trans hlast)

/-- Where none of the texts occurs, `new` is put for nothing. -/
theorem spellsNone_of_absent {pats : List (List α)} {new s : List α}
    (habsent : ∀ pat ∈ pats, ¬ pat <:+: s) : SpellsNone pats new s := by
  intro a pat b hpat hreach
  rcases Relation.ReflTransGen.cases_head hreach with rfl | ⟨s', hstep, -⟩
  · exact absurd ⟨a, b, List.append_assoc a pat b⟩ (habsent pat hpat)
  · cases hstep with
    | mk a' pat' b' hpat' =>
        exact absurd ⟨a', b', List.append_assoc a' pat' b'⟩ (habsent pat' hpat')

/-! ## What a replacement leaves -/

section

variable {pats : List (List α)} {pat new : List α}

/-- A text, and the text with the occurrences replaced: what stands between them has none. -/
inductive Replaced (pat new : List α) : List α → List α → Prop
  | last {s : List α} (hs : ¬ pat <:+: s) : Replaced pat new s s
  | next {before after result : List α} (hbefore : ¬ pat <:+: before)
      (hafter : Replaced pat new after result) :
    Replaced pat new (before ++ (pat ++ after)) (before ++ (new ++ result))

/-- The occurrences of a replacement give way one after another, the last one first. -/
theorem Replaced.reach {s₀ s result : List α} (h : Replaced pat new s result) (hpat : pat ∈ pats)
    (l : List α) (hreach : Relation.ReflTransGen (PutsOne pats new) s₀ (l ++ s)) :
    Relation.ReflTransGen (PutsOne pats new) s₀ (l ++ result) := by
  induction h generalizing l with
  | last _ => exact hreach
  | @next before after result _ _ ih =>
      have hothers : Relation.ReflTransGen (PutsOne pats new) s₀
          ((l ++ before) ++ (pat ++ result)) := by
        rw [← List.append_assoc]
        apply ih
        simpa only [List.append_assoc] using hreach
      rw [← List.append_assoc]
      exact hothers.tail (PutsOne.mk (l ++ before) pat result hpat)

/-- In the text before the last occurrence gives way, the others have given way already. -/
theorem Replaced.not_spelled {s₀ before after result l t : List α} (hclear : SpellsNone pats new s₀)
    (hafter : Replaced pat new after result) (hpat : pat ∈ pats)
    (hreach : Relation.ReflTransGen (PutsOne pats new) s₀ (l ++ (before ++ (pat ++ after))))
    (ht : t ∈ pats) : ¬ Spelled t before new result := by
  intro hspelled
  have hothers : Relation.ReflTransGen (PutsOne pats new) s₀
      ((l ++ before) ++ (pat ++ result)) := by
    rw [← List.append_assoc]
    apply hafter.reach hpat
    simpa only [List.append_assoc] using hreach
  have hwhole := hspelled.extend l []
  rw [List.append_nil] at hwhole
  exact hclear _ pat _ hpat hothers t ht hwhole

/-- Where `new` spells none of the texts, each is found only where it stood before. -/
theorem Replaced.infix_of_spellsNone {s₀ s result t : List α} (h : Replaced pat new s result)
    (hclear : SpellsNone pats new s₀) (hpat : pat ∈ pats) (ht : t ∈ pats) (l : List α)
    (hreach : Relation.ReflTransGen (PutsOne pats new) s₀ (l ++ s)) (hpart : t <:+: result) :
    t <:+: s := by
  induction h generalizing l with
  | last _ => exact hpart
  | @next before after result _ hafter ih =>
      have hnot := Replaced.not_spelled hclear hafter hpat hreach ht
      rcases infix_cases_of_not_spelled hnot hpart with hbefore | hresult
      · exact List.infix_append_of_infix_left hbefore
      · have hrest : t <:+: after := by
          refine ih (l ++ (before ++ pat)) ?_ hresult
          simpa only [List.append_assoc] using hreach
        exact List.infix_append_of_infix_right (List.infix_append_of_infix_right hrest)

/-- What was replaced is gone. -/
theorem Replaced.absent {s₀ s result : List α} (h : Replaced pat new s result)
    (hclear : SpellsNone pats new s₀) (hpat : pat ∈ pats) (l : List α)
    (hreach : Relation.ReflTransGen (PutsOne pats new) s₀ (l ++ s)) : ¬ pat <:+: result := by
  induction h generalizing l with
  | last hs => exact hs
  | @next before after result hbefore hafter ih =>
      intro hpart
      have hnot := Replaced.not_spelled hclear hafter hpat hreach hpat
      rcases infix_cases_of_not_spelled hnot hpart with hin | hin
      · exact hbefore hin
      · refine ih (l ++ (before ++ pat)) ?_ hin
        simpa only [List.append_assoc] using hreach

end

variable [DecidableEq α]

section

variable {pat new : List α} {hne : pat ≠ []}

theorem matchStart_literal_eq_none {s : List α} (h : ¬ pat <+: s) :
    (literal pat hne).matchStart s = none := by
  unfold Pattern.matchStart afterLiteral
  rw [show (literal pat hne).lead = pat from rfl, if_neg h]
  rfl

theorem matchStart_literal_of_leading {s : List α} (h : pat <+: s) :
    (literal pat hne).matchStart s = some ((), s.drop pat.length) := by
  unfold Pattern.matchStart afterLiteral
  rw [show (literal pat hne).lead = pat from rfl, if_pos h]
  rfl

/-- The first occurrence is replaced, and then those after it. -/
theorem replaceAll_of_cut : ∀ {s before after : List α}, cut pat s = some (before, after) →
    replaceAll pat hne new s = before ++ new ++ replaceAll pat hne new after
  | [], before, after, h => by
    unfold cut at h
    rw [if_neg hne] at h
    cases h
  | c :: s, before, after, h => by
    unfold cut at h
    split_ifs at h with hpat
    · cases h
      exact (literal pat hne).sub_of_some _ (matchStart_literal_of_leading hpat)
    · obtain ⟨⟨x, y⟩, hcut, hxy⟩ := Option.map_eq_some_iff.mp h
      cases hxy
      have hstep : replaceAll pat hne new (c :: s) = c :: replaceAll pat hne new s :=
        (literal pat hne).sub_cons_of_none _ (matchStart_literal_eq_none hpat)
      rw [hstep, replaceAll_of_cut hcut]
      rfl

theorem replaceAll_of_absent : ∀ {s : List α}, ¬ pat <:+: s → replaceAll pat hne new s = s
  | [], _ => rfl
  | c :: s, h => by
    rw [List.infix_cons_iff, not_or] at h
    have hstep : replaceAll pat hne new (c :: s) = c :: replaceAll pat hne new s :=
      (literal pat hne).sub_cons_of_none _ (matchStart_literal_eq_none h.1)
    rw [hstep, replaceAll_of_absent h.2]

theorem replaced_replaceAll (s : List α) : Replaced pat new s (replaceAll pat hne new s) := by
  induction hn : s.length using Nat.strong_induction_on generalizing s with
  | h n ih =>
    cases hcut : cut pat s with
    | none =>
      have hnot := cut_eq_none_iff.mp hcut
      rw [replaceAll_of_absent hnot]
      exact .last hnot
    | some parts =>
      obtain ⟨before, after⟩ := parts
      have hs := eq_of_cut hcut
      have hpos := List.length_pos_of_ne_nil hne
      have hlt : after.length < n := by
        rw [← hn, hs, List.length_append, List.length_append]
        omega
      rw [replaceAll_of_cut hcut, List.append_assoc]
      conv_lhs => rw [hs, List.append_assoc]
      exact .next (not_infix_of_cut hne hcut) (ih _ hlt after rfl)

end

section

variable {new s : List α}

/-- Several texts replaced one after another. -/
def replaceEach (pats : List (List α)) (new s : List α) : List α :=
  pats.foldl (fun s pat => replace pat new s) s

theorem replaced_replace {pat : List α} (hne : pat ≠ []) (s : List α) :
    Replaced pat new s (replace pat new s) := by
  unfold replace
  rw [dif_pos hne]
  exact replaced_replaceAll s

/-- Several texts are replaced in turn: the texts that were absent stay so. -/
theorem infix_of_infix_replaceEach {all pats : List (List α)} (hne : ∀ pat ∈ pats, pat ≠ [])
    (hsub : pats ⊆ all) (hclear : SpellsNone all new s) {t : List α} (ht : t ∈ all)
    (h : t <:+: replaceEach pats new s) : t <:+: s := by
  induction pats generalizing s with
  | nil => exact h
  | cons pat pats ih =>
      rw [List.forall_mem_cons] at hne
      obtain ⟨hpat, hothers⟩ := List.cons_subset.mp hsub
      have hfirst := (replaced_replace hne.1 s : Replaced pat new s _)
      have hreach : Relation.ReflTransGen (PutsOne all new) s (replace pat new s) :=
        hfirst.reach hpat [] .refl
      exact hfirst.infix_of_spellsNone hclear hpat ht [] .refl
        (ih hne.2 hothers (hclear.trans hreach) h)

/-- Of several texts none is left, where `new` spells none of them. -/
theorem not_infix_replaceEach {all pats : List (List α)} (hne : ∀ pat ∈ pats, pat ≠ [])
    (hsub : pats ⊆ all) (hclear : SpellsNone all new s) {t : List α} (ht : t ∈ pats) :
    ¬ t <:+: replaceEach pats new s := by
  induction pats generalizing s with
  | nil => exact absurd ht List.not_mem_nil
  | cons pat pats ih =>
      rw [List.forall_mem_cons] at hne
      obtain ⟨hpat, hothers⟩ := List.cons_subset.mp hsub
      have hfirst := (replaced_replace hne.1 s : Replaced pat new s _)
      have hrest : SpellsNone all new (replace pat new s) :=
        hclear.trans (hfirst.reach hpat [] .refl)
      rcases List.mem_cons.mp ht with rfl | hmem
      · intro hpart
        exact hfirst.absent hclear hpat [] .refl
          (infix_of_infix_replaceEach hne.2 hothers hrest hpat hpart)
      · exact ih hne.2 hothers hrest hmem

end

end PyReplace
