/-
# Python strings

Strings as Python sees them: sequences of characters.  The operations that search stand
on lists of any kind; what matters about the patterns of this development is that their
first character does not come again in them, so two occurrences never overlap.
-/
import Mathlib.Data.List.Basic
import Mathlib.Data.List.DropRight

namespace PyStr

/-- `c.isspace()`. -/
def isSpace (c : Char) : Bool :=
  c.toNat ∈ [0x20, 0x85, 0xA0, 0x1680, 0x2028, 0x2029, 0x202F, 0x205F, 0x3000] ||
    (0x09 ≤ c.toNat && c.toNat ≤ 0x0D) || (0x1C ≤ c.toNat && c.toNat ≤ 0x1F) ||
    (0x2000 ≤ c.toNat && c.toNat ≤ 0x200A)

/-- `not s.strip()`. -/
def isBlank (s : String) : Bool := s.toList.all isSpace

theorem isSpace_of_isDigit {c : Char} (h : c.isDigit = true) : isSpace c = false := by
  unfold Char.isDigit at h
  simp only [ge_iff_le, Bool.and_eq_true, decide_eq_true_eq] at h
  have hlow : 48 ≤ c.toNat := h.1
  have hhigh : c.toNat ≤ 57 := h.2
  unfold isSpace
  simp only [List.mem_cons, List.not_mem_nil, Bool.or_eq_false_iff, Bool.and_eq_false_iff,
    decide_eq_false_iff_not, or_false]
  omega

/-! ## Occurrences in a concatenation -/

section Occurrences

variable {α : Type*} {pat a b : List α}

/-- A pattern that cannot run over the seam is a prefix of the first part. -/
theorem prefix_append_iff_of_head (ha : a ≠ []) (hb : ∀ c ∈ b.head?, c ∉ pat.tail) :
    pat <+: a ++ b ↔ pat <+: a := by
  constructor
  · intro hpat
    rcases List.prefix_or_prefix_of_prefix hpat (List.prefix_append a b) with h | ⟨t, rfl⟩
    · exact h
    · cases t with
      | nil => exact ⟨[], by simp⟩
      | cons d t =>
        have ht : d :: t <+: b := (List.prefix_append_right_inj a).mp hpat
        obtain ⟨u, rfl⟩ := ht
        refine absurd ?_ (hb d rfl)
        rw [List.tail_append_of_ne_nil ha]
        exact List.mem_append_right _ List.mem_cons_self
  · exact fun h => h.trans (List.prefix_append a b)

/-- A pattern that cannot run over the seam occurs in one of the two parts. -/
theorem infix_append_iff_of_head (hb : ∀ c ∈ b.head?, c ∉ pat.tail) :
    pat <:+: a ++ b ↔ pat <:+: a ∨ pat <:+: b := by
  rw [List.infix_append_iff_ne_nil]
  constructor
  · rintro (h | h | ⟨l₁, l₂, h₁, h₂, rfl, -, hl₂⟩)
    · exact Or.inl h
    · exact Or.inr h
    · obtain ⟨d, l₂, rfl⟩ := List.exists_cons_of_ne_nil h₂
      obtain ⟨u, rfl⟩ := hl₂
      refine absurd ?_ (hb d rfl)
      rw [List.tail_append_of_ne_nil h₁]
      exact List.mem_append_right _ List.mem_cons_self
  · rintro (h | h)
    · exact Or.inl h
    · exact Or.inr (Or.inl h)

/-- A character that a pattern does not have separates its occurrences. -/
theorem infix_append_cons_iff {d : α} (hne : pat ≠ []) (hd : d ∉ pat) :
    pat <:+: a ++ d :: b ↔ pat <:+: a ∨ pat <:+: b := by
  have hseam : ∀ c ∈ (d :: b).head?, c ∉ pat.tail := by
    intro c hc
    cases hc
    exact fun h => hd (List.mem_of_mem_tail h)
  rw [infix_append_iff_of_head hseam, List.infix_cons_iff]
  constructor
  · rintro (h | h | h)
    · exact Or.inl h
    · obtain ⟨c, pat, rfl⟩ := List.exists_cons_of_ne_nil hne
      rw [List.cons_prefix_cons] at h
      exact absurd (h.1 ▸ List.mem_cons_self) hd
    · exact Or.inr h
  · rintro (h | h)
    · exact Or.inl h
    · exact Or.inr (Or.inr h)

/-- A pattern does not begin where its first character is missing. -/
theorem infix_append_iff_of_notMem (hne : pat ≠ []) (ha : ∀ c ∈ pat.head?, c ∉ a) :
    pat <:+: a ++ b ↔ pat <:+: b := by
  obtain ⟨c, pat, rfl⟩ := List.exists_cons_of_ne_nil hne
  induction a with
  | nil => rfl
  | cons x a ih =>
    rw [List.cons_append, List.infix_cons_iff, List.cons_prefix_cons]
    rw [ih fun d hd hmem => ha d hd (List.mem_cons_of_mem x hmem)]
    constructor
    · rintro (⟨rfl, -⟩ | h)
      · exact absurd List.mem_cons_self (ha c rfl)
      · exact h
    · exact Or.inr

/-- A run of characters of a kind ends where a text of another kind begins. -/
theorem takeWhile_append_of_head {p : α → Bool} {rest : List α}
    (h : ∀ c ∈ rest.head?, p c = false) (s : List α) :
    (s ++ rest).takeWhile p = s.takeWhile p ∧ (s ++ rest).dropWhile p = s.dropWhile p ++ rest := by
  induction s with
  | nil =>
    cases rest with
    | nil => exact ⟨rfl, rfl⟩
    | cons c rest =>
      have hc : ¬ p c = true := by
        rw [h c rfl]
        exact Bool.false_ne_true
      exact ⟨List.takeWhile_cons_of_neg hc, List.dropWhile_cons_of_neg hc⟩
  | cons c s ih =>
    by_cases hc : p c = true
    · rw [List.cons_append, List.takeWhile_cons_of_pos hc, List.dropWhile_cons_of_pos hc]
      rw [List.takeWhile_cons_of_pos hc, List.dropWhile_cons_of_pos hc, ih.1, ih.2]
      exact ⟨rfl, rfl⟩
    · rw [List.cons_append, List.takeWhile_cons_of_neg hc, List.dropWhile_cons_of_neg hc]
      rw [List.takeWhile_cons_of_neg hc, List.dropWhile_cons_of_neg hc]
      exact ⟨rfl, rfl⟩

/-- A character that a pattern does not have cannot be part of a prefix. -/
theorem prefix_append_cons_iff {d : α} (hd : d ∉ pat) : pat <+: a ++ d :: b ↔ pat <+: a := by
  cases a with
  | nil =>
    cases pat with
    | nil => exact ⟨fun _ => List.prefix_refl _, fun _ => List.nil_prefix⟩
    | cons c pat =>
      rw [List.nil_append, List.cons_prefix_cons, List.prefix_nil]
      constructor
      · rintro ⟨rfl, -⟩
        exact absurd List.mem_cons_self hd
      · exact fun h => absurd h (List.cons_ne_nil c pat)
  | cons c a =>
    refine prefix_append_iff_of_head (List.cons_ne_nil c a) ?_
    intro e he
    cases he
    exact fun h => hd (List.mem_of_mem_tail h)

end Occurrences

/-! ## Searching -/

section Searching

variable {α : Type*} [DecidableEq α]

/-- What stands before the first `pat` and after it. -/
def cut (pat : List α) : List α → Option (List α × List α)
  | [] => if pat = [] then some ([], []) else none
  | c :: s =>
    if pat <+: c :: s then some ([], (c :: s).drop pat.length)
    else (cut pat s).map fun parts => (c :: parts.1, parts.2)

/-- `s.split(pat)[0]`. -/
def splitHead (pat s : List α) : List α :=
  match cut pat s with
  | some (before, _) => before
  | none => s

/-- `s.replace(pat, new, 1)`. -/
def replaceFirst (pat new s : List α) : List α :=
  match cut pat s with
  | some (before, after) => before ++ new ++ after
  | none => s

theorem eq_of_cut {pat : List α} :
    ∀ {s before after : List α}, cut pat s = some (before, after) →
      s = before ++ pat ++ after
  | [], before, after, h => by
    unfold cut at h
    split_ifs at h with hpat
    cases h
    rw [hpat]
    rfl
  | c :: s, before, after, h => by
    unfold cut at h
    split_ifs at h with hpat
    · cases h
      obtain ⟨t, ht⟩ := hpat
      rw [← ht, List.drop_left, List.nil_append]
    · obtain ⟨⟨x, y⟩, hcut, hxy⟩ := Option.map_eq_some_iff.mp h
      cases hxy
      rw [eq_of_cut hcut]
      rfl

theorem cut_eq_none_iff {pat : List α} :
    ∀ {s : List α}, cut pat s = none ↔ ¬ pat <:+: s
  | [] => by
    unfold cut
    rw [List.infix_nil]
    split_ifs with hpat
    · exact ⟨False.elim, fun h => absurd hpat h⟩
    · exact ⟨fun _ => hpat, fun _ => rfl⟩
  | c :: s => by
    unfold cut
    rw [List.infix_cons_iff]
    split_ifs with hpat
    · exact ⟨False.elim, fun h => absurd (Or.inl hpat) h⟩
    · rw [Option.map_eq_none_iff, cut_eq_none_iff]
      exact ⟨fun h => not_or.mpr ⟨hpat, h⟩, fun h => (not_or.mp h).2⟩

theorem isSome_cut_iff {pat s : List α} : (cut pat s).isSome ↔ pat <:+: s := by
  rw [← not_iff_not, Bool.not_eq_true, Option.isSome_eq_false_iff, Option.isNone_iff_eq_none]
  exact cut_eq_none_iff

/-- The occurrence that is found is the first one. -/
theorem length_le_of_cut {pat : List α} :
    ∀ {s before after x y : List α}, cut pat s = some (before, after) →
      s = x ++ pat ++ y → before.length ≤ x.length
  | [], before, after, x, y, h, hs => by
    have hs' := eq_of_cut h
    have hlen := congrArg List.length hs'
    rw [List.length_append, List.length_append, List.length_nil] at hlen
    omega
  | c :: s, before, after, x, y, h, hs => by
    unfold cut at h
    split_ifs at h with hpat
    · cases h
      exact Nat.zero_le _
    · obtain ⟨⟨before', after'⟩, hcut, hxy⟩ := Option.map_eq_some_iff.mp h
      cases hxy
      cases x with
      | nil => exact absurd ⟨y, hs.symm⟩ hpat
      | cons d x =>
        rw [List.cons_append, List.cons_append] at hs
        have hle := length_le_of_cut hcut (List.cons.inj hs).2
        exact Nat.succ_le_succ hle

/-- What stands before the first occurrence has none. -/
theorem not_infix_of_cut {pat s before after : List α} (hne : pat ≠ [])
    (h : cut pat s = some (before, after)) : ¬ pat <:+: before := by
  rintro ⟨x, y, rfl⟩
  have hs := eq_of_cut h
  have hle := length_le_of_cut h (x := x) (y := y ++ pat ++ after) (by rw [hs]; simp)
  have hpos := List.length_pos_of_ne_nil hne
  rw [List.length_append, List.length_append] at hle
  omega

/-- A pattern at the start is found there. -/
theorem cut_append_left {pat : List α} (hne : pat ≠ []) (b : List α) :
    cut pat (pat ++ b) = some ([], b) := by
  obtain ⟨c, pat, rfl⟩ := List.exists_cons_of_ne_nil hne
  rw [List.cons_append, cut, ← List.cons_append, if_pos (List.prefix_append _ _)]
  rw [List.drop_left]

/-- A pattern that does not overlap itself is found where it was put. -/
theorem cut_append {pat a : List α} (hne : pat ≠ []) (hhead : ∀ c ∈ pat.head?, c ∉ pat.tail)
    (ha : ¬ pat <:+: a) (b : List α) : cut pat (a ++ pat ++ b) = some (a, b) := by
  induction a with
  | nil => exact cut_append_left hne b
  | cons x a ih =>
    have hseam : ∀ c ∈ (pat ++ b).head?, c ∉ pat.tail := by
      rw [List.head?_append_of_ne_nil _ hne]
      exact hhead
    have hpat : ¬ pat <+: x :: a ++ (pat ++ b) := by
      rw [prefix_append_iff_of_head (List.cons_ne_nil x a) hseam]
      exact fun h => ha h.isInfix
    rw [List.append_assoc, List.cons_append, cut, ← List.cons_append, if_neg hpat]
    rw [← List.append_assoc, ih fun h => ha (List.infix_cons_iff.mpr (Or.inr h))]
    rfl

/-- A pattern whose first character is not in the text before it is found behind that text. -/
theorem cut_append_of_head_notMem {pat : List α} {x : α} {a : List α} (ha : x ∉ a)
    (b : List α) : cut (x :: pat) (a ++ x :: pat ++ b) = some (a, b) := by
  induction a with
  | nil => exact cut_append_left (List.cons_ne_nil x pat) b
  | cons c a ih =>
    have hne : x ≠ c := fun heq => ha (heq ▸ List.mem_cons_self)
    have hpat : ¬ x :: pat <+: c :: (a ++ x :: pat ++ b) :=
      fun h => hne (List.cons_prefix_cons.mp h).1
    rw [List.cons_append, List.cons_append, cut, if_neg hpat]
    rw [ih fun hmem => ha (List.mem_cons_of_mem c hmem)]
    rfl

/-- A pattern is found behind a character that it does not have. -/
theorem cut_append_cons {pat a : List α} {d : α} (hne : pat ≠ []) (hd : d ∉ pat)
    (ha : ¬ pat <:+: a) (b : List α) : cut pat (a ++ d :: (pat ++ b)) = some (a ++ [d], b) := by
  induction a with
  | nil =>
    have hpat : ¬ pat <+: d :: (pat ++ b) := by
      intro h
      obtain ⟨c, t, rfl⟩ := List.exists_cons_of_ne_nil hne
      exact hd (by rw [(List.cons_prefix_cons.mp h).1]; exact List.mem_cons_self)
    rw [List.nil_append, cut, if_neg hpat, cut_append_left hne]
    rfl
  | cons x a ih =>
    have hpat : ¬ pat <+: x :: a ++ d :: (pat ++ b) := by
      rw [prefix_append_cons_iff hd]
      exact fun h => ha h.isInfix
    rw [List.cons_append, cut, ← List.cons_append, if_neg hpat,
      ih fun h => ha (List.infix_cons_iff.mpr (Or.inr h))]
    rfl

theorem splitHead_of_cut {pat s before after : List α} (h : cut pat s = some (before, after)) :
    splitHead pat s = before := by
  unfold splitHead
  rw [h]

theorem replaceFirst_of_cut {pat new s before after : List α}
    (h : cut pat s = some (before, after)) :
    replaceFirst pat new s = before ++ new ++ after := by
  unfold replaceFirst
  rw [h]

theorem replaceFirst_append_left {pat : List α} (hne : pat ≠ []) (new b : List α) :
    replaceFirst pat new (pat ++ b) = new ++ b := by
  rw [replaceFirst_of_cut (cut_append_left hne b)]
  rfl

theorem replaceFirst_nil_nil (s : List α) : replaceFirst [] [] s = s := by
  cases s with
  | nil => rfl
  | cons c s =>
    have hcut : cut [] (c :: s) = some ([], c :: s) := by
      unfold cut
      rw [if_pos (List.nil_prefix)]
      rfl
    rw [replaceFirst_of_cut hcut]
    rfl

end Searching

/-! ## Surrounding whitespace -/

section Stripping

/-- `s.lstrip()`. -/
def lstrip (s : List Char) : List Char := s.dropWhile isSpace

/-- `s.rstrip()`. -/
def rstrip (s : List Char) : List Char := s.rdropWhile isSpace

/-- `s.strip()`. -/
def strip (s : List Char) : List Char := rstrip (lstrip s)

/-- Equal up to surrounding whitespace. -/
def SameText (s t : List Char) : Prop := strip s = strip t

instance (s t : List Char) : Decidable (SameText s t) := decEq _ _

/-- The characters that are no whitespace. -/
def ink (s : List Char) : List Char := s.filter fun c => !isSpace c

@[simp] theorem ink_append (s t : List Char) : ink (s ++ t) = ink s ++ ink t :=
  List.filter_append ..

theorem ink_eq_nil_iff {s : List Char} : ink s = [] ↔ ∀ c ∈ s, isSpace c := by
  unfold ink
  rw [List.filter_eq_nil_iff]
  exact ⟨fun h c hc => by simpa using h c hc, fun h c hc => by simpa using h c hc⟩

theorem ink_lstrip (s : List Char) : ink (lstrip s) = ink s := by
  have hblank : ink (s.takeWhile isSpace) = [] :=
    ink_eq_nil_iff.mpr fun c hc => List.mem_takeWhile_imp hc
  unfold lstrip
  conv_rhs => rw [← List.takeWhile_append_dropWhile (p := isSpace) (l := s)]
  rw [ink_append, hblank, List.nil_append]

theorem ink_rstrip (s : List Char) : ink (rstrip s) = ink s := by
  have hblank : ink (s.rtakeWhile isSpace) = [] :=
    ink_eq_nil_iff.mpr fun c hc => List.mem_rtakeWhile_imp hc
  unfold rstrip
  conv_rhs => rw [← List.rdropWhile_append_rtakeWhile (p := isSpace) (l := s)]
  rw [ink_append, hblank, List.append_nil]

@[simp] theorem ink_strip (s : List Char) : ink (strip s) = ink s := by
  unfold strip
  rw [ink_rstrip, ink_lstrip]

theorem SameText.refl (s : List Char) : SameText s s := Eq.refl (strip s)

theorem SameText.ink_eq {s t : List Char} (h : SameText s t) : ink s = ink t := by
  rw [← ink_strip s, ← ink_strip t, h]

/-- What stands before a visible character is all that `lstrip` can reach. -/
theorem lstrip_append_of_head {s t : List Char} {c : Char} (hc : isSpace c = false) :
    lstrip (s ++ c :: t) = lstrip s ++ c :: t := by
  unfold lstrip
  rw [List.dropWhile_append]
  split_ifs with hblank
  · rw [List.isEmpty_iff] at hblank
    rw [hblank, List.dropWhile_cons_of_neg (by rw [hc]; exact Bool.false_ne_true)]
    rfl
  · rfl

theorem rstrip_append_blank {s w : List Char} (hw : ∀ c ∈ w, isSpace c) :
    rstrip (s ++ w) = rstrip s := by
  induction w using List.reverseRecOn with
  | nil => rw [List.append_nil]
  | append_singleton w c ih =>
    unfold rstrip
    rw [← List.append_assoc, List.rdropWhile_concat_pos _ _ _ (hw c (by simp))]
    exact ih fun d hd => hw d (List.mem_append_left _ hd)

theorem lstrip_append_blank {s w : List Char} (hw : ∀ c ∈ w, isSpace c) :
    ∃ v : List Char, (∀ c ∈ v, isSpace c) ∧ lstrip (s ++ w) = lstrip s ++ v := by
  unfold lstrip
  rw [List.dropWhile_append]
  split_ifs with hblank
  · rw [List.isEmpty_iff] at hblank
    refine ⟨[], fun c hc => absurd hc List.not_mem_nil, ?_⟩
    rw [hblank, List.dropWhile_eq_nil_iff.mpr hw]
    rfl
  · exact ⟨w, hw, rfl⟩

theorem sameText_append_blank {s w : List Char} (hw : ∀ c ∈ w, isSpace c) :
    SameText (s ++ w) s := by
  obtain ⟨v, hv, heq⟩ := lstrip_append_blank (s := s) hw
  unfold SameText strip
  rw [heq, rstrip_append_blank hv]

theorem sameText_lstrip (s : List Char) : SameText (lstrip s) s := by
  unfold SameText strip lstrip
  rw [List.dropWhile_idempotent]

theorem lstrip_of_head {s : List Char} (h : ∀ c ∈ s.head?, isSpace c = false) :
    lstrip s = s := by
  unfold lstrip
  cases s with
  | nil => rfl
  | cons c s => rw [List.dropWhile_cons_of_neg (by rw [h c rfl]; exact Bool.false_ne_true)]

/-- A text without whitespace has none around it. -/
theorem strip_of_forall {s : List Char} (h : ∀ c ∈ s, isSpace c = false) : strip s = s := by
  have hleft : lstrip s = s := lstrip_of_head fun c hc => h c (List.mem_of_head? hc)
  unfold strip
  rw [hleft]
  unfold rstrip
  rw [List.rdropWhile_eq_self_iff]
  intro hne hspace
  rw [h _ (List.getLast_mem hne)] at hspace
  exact Bool.false_ne_true hspace

theorem head?_lstrip {s : List Char} : ∀ c ∈ (lstrip s).head?, isSpace c = false := by
  intro c hc
  have hnot := List.head?_dropWhile_not isSpace s
  unfold lstrip at hc
  rw [Option.mem_def.mp hc] at hnot
  exact hnot

theorem head?_strip {s : List Char} : ∀ c ∈ (strip s).head?, isSpace c = false := by
  intro c hc
  obtain ⟨t, ht⟩ : strip s <+: lstrip s := List.rdropWhile_prefix isSpace (lstrip s)
  refine head?_lstrip (s := s) c ?_
  rw [← ht]
  rw [Option.mem_def, List.head?_append, Option.mem_def.mp hc]
  rfl

theorem sameText_strip (s : List Char) : SameText (strip s) s := by
  unfold SameText
  rw [strip, lstrip_of_head head?_strip]
  unfold strip rstrip
  rw [List.rdropWhile_idempotent]

/-- A pattern between visible characters occurs inside the surrounding whitespace. -/
theorem infix_strip_iff {pat s : List Char} (hne : pat ≠ [])
    (hhead : ∀ c ∈ pat.head?, isSpace c = false) (hlast : ∀ c ∈ pat.getLast?, isSpace c = false) :
    pat <:+: strip s ↔ pat <:+: s := by
  have hleft : ∀ {pat s : List Char}, pat ≠ [] → (∀ c ∈ pat.head?, isSpace c = false) →
      (pat <:+: s.dropWhile isSpace ↔ pat <:+: s) := by
    intro pat s hne hhead
    conv_rhs => rw [← List.takeWhile_append_dropWhile (p := isSpace) (l := s)]
    rw [infix_append_iff_of_notMem hne]
    intro c hc hmem
    have hspace := List.mem_takeWhile_imp hmem
    rw [hhead c hc] at hspace
    exact Bool.false_ne_true hspace
  unfold strip rstrip List.rdropWhile
  rw [← List.reverse_infix, List.reverse_reverse, hleft]
  · rw [List.reverse_infix]
    exact hleft hne hhead
  · exact fun h => hne (List.reverse_eq_nil_iff.mp h)
  · rw [List.head?_reverse]
    exact hlast

end Stripping

end PyStr
