/-
# Lines and words of Python strings

`str.splitlines` cuts at every character that Python takes for the end of a line, and
`str.split` at whitespace.  What a program prints with one line for each item is read back as
it was printed when the items have no such characters and, where the text is stripped before,
when nothing can be stripped from the first and the last of them.
-/
import OpenHands.Lib.PyStr

namespace PyStr

/-! ## Lines -/

/-- The characters that end a line for `str.splitlines`. -/
def isLineBreak (c : Char) : Bool :=
  c.toNat ∈ [0x0A, 0x0B, 0x0C, 0x0D, 0x1C, 0x1D, 0x1E, 0x85, 0x2028, 0x2029]

/-- `s.splitlines()`. -/
def splitlines : List Char → List (List Char)
  | [] => []
  | c :: cs =>
    -- "\r\n" is one end of a line.
    if c = '\r' ∧ cs.head? = some '\n' then splitlines cs
    else if isLineBreak c then [] :: splitlines cs
    else
      match splitlines cs with
      | [] => [[c]]
      | line :: lines => (c :: line) :: lines

/-- The lines of a program, each with its end. -/
def unlines (lines : List (List Char)) : List Char := (lines.map (· ++ ['\n'])).flatten

variable {s t line : List Char} {lines : List (List Char)} {c : Char}

theorem isSpace_of_isLineBreak (h : isLineBreak c) : isSpace c := by
  unfold isLineBreak at h
  unfold isSpace
  simp only [decide_eq_true_eq, List.mem_cons, List.not_mem_nil, or_false] at h
  simp only [Bool.or_eq_true, Bool.and_eq_true, decide_eq_true_eq, List.mem_cons,
    List.not_mem_nil, or_false]
  omega

theorem splitlines_cons (hc : isLineBreak c = false) (cs : List Char) :
    splitlines (c :: cs)
      = (c :: (splitlines cs).head?.getD []) :: (splitlines cs).tail := by
  have hcr : ¬ (c = '\r' ∧ cs.head? = some '\n') := by
    rintro ⟨rfl, -⟩
    exact absurd hc (by decide)
  rw [splitlines, if_neg hcr, if_neg (by rw [hc]; exact Bool.false_ne_true)]
  cases splitlines cs <;> rfl

theorem splitlines_eq_nil_iff : splitlines s = [] ↔ s = [] := by
  constructor
  · induction s with
    | nil => exact fun _ => rfl
    | cons c s ih =>
      rw [splitlines]
      split_ifs with hcr hbreak
      · intro h
        rw [ih h] at hcr
        exact absurd hcr.2 (by decide)
      · exact fun h => (nomatch h)
      · cases splitlines s <;> exact fun h => (nomatch h)
  · rintro rfl
    rfl

/-- A text without the end of a line begins the first line. -/
theorem splitlines_append (hne : s ≠ []) (hs : ∀ c ∈ s, isLineBreak c = false) (t : List Char) :
    splitlines (s ++ t) = (s ++ (splitlines t).head?.getD []) :: (splitlines t).tail := by
  induction s with
  | nil => exact absurd rfl hne
  | cons c s ih =>
    rw [List.forall_mem_cons] at hs
    rw [List.cons_append, splitlines_cons hs.1]
    cases s with
    | nil => rfl
    | cons d s =>
      rw [ih (List.cons_ne_nil d s) hs.2]
      rfl

theorem splitlines_of_forall (hne : s ≠ []) (hs : ∀ c ∈ s, isLineBreak c = false) :
    splitlines s = [s] := by
  have h := splitlines_append hne hs []
  rw [List.append_nil] at h
  simpa [splitlines] using h

/-- What ends with "\n" does not run into the line behind it. -/
theorem splitlines_append_newline (s t : List Char) :
    splitlines (s ++ '\n' :: t) = splitlines (s ++ ['\n']) ++ splitlines t := by
  have hnewline : ∀ t, splitlines ('\n' :: t) = [] :: splitlines t := by
    intro t
    rw [splitlines, if_neg fun h => absurd h.1 (by decide), if_pos (by decide)]
  induction s with
  | nil =>
    rw [List.nil_append, List.nil_append, hnewline, hnewline]
    rfl
  | cons c s ih =>
    have hhead : (s ++ '\n' :: t).head? = (s ++ ['\n']).head? := by
      cases s <;> rfl
    rw [List.cons_append, List.cons_append, splitlines, splitlines, hhead, ih]
    split_ifs
    · rfl
    · rfl
    · have hne : splitlines (s ++ ['\n']) ≠ [] := fun h => by
        simpa using splitlines_eq_nil_iff.mp h
      obtain ⟨line, lines, hlines⟩ := List.exists_cons_of_ne_nil hne
      rw [hlines]
      rfl

theorem splitlines_unlines_append (lines : List (List Char)) (t : List Char) :
    splitlines (unlines lines ++ t)
      = (lines.map fun line => splitlines (line ++ ['\n'])).flatten ++ splitlines t := by
  induction lines with
  | nil => rfl
  | cons line lines ih =>
    have hsplit : unlines (line :: lines) ++ t = line ++ '\n' :: (unlines lines ++ t) := by
      simp [unlines]
    rw [hsplit, splitlines_append_newline, ih, List.map_cons, List.flatten_cons, List.append_assoc]

theorem splitlines_newline (hs : ∀ c ∈ s, isLineBreak c = false) :
    splitlines (s ++ ['\n']) = [s] := by
  cases s with
  | nil => decide
  | cons c s =>
    rw [splitlines_append (List.cons_ne_nil c s) hs]
    simp [splitlines, isLineBreak]

/-- No line has the end of a line in it. -/
theorem isLineBreak_of_mem_splitlines :
    ∀ {s line : List Char}, line ∈ splitlines s → ∀ c ∈ line, isLineBreak c = false
  | [], _, h => absurd h List.not_mem_nil
  | d :: cs, line, h => by
    rw [splitlines] at h
    split_ifs at h with hcr hbreak
    · exact isLineBreak_of_mem_splitlines h
    · rcases List.mem_cons.mp h with rfl | h
      · exact fun c hc => absurd hc List.not_mem_nil
      · exact isLineBreak_of_mem_splitlines h
    · rw [Bool.not_eq_true] at hbreak
      cases hlines : splitlines cs with
      | nil =>
        rw [hlines] at h
        intro c hc
        rw [List.mem_singleton.mp h, List.mem_singleton] at hc
        rw [hc, hbreak]
      | cons first lines =>
        have ih := fun line (hline : line ∈ splitlines cs) => isLineBreak_of_mem_splitlines hline
        rw [hlines] at h ih
        rcases List.mem_cons.mp h with rfl | h
        · exact List.forall_mem_cons.mpr ⟨hbreak, ih first List.mem_cons_self⟩
        · exact ih line (List.mem_cons_of_mem first h)

/-- A text that is one line has no ends of lines but at its end. -/
theorem eq_append_of_splitlines_eq_singleton :
    ∀ {s line : List Char}, splitlines s = [line] →
      ∃ ends, s = line ++ ends ∧ ∀ c ∈ ends, isLineBreak c
  | [], _, h => by cases h
  | c :: cs, line, h => by
    rw [splitlines] at h
    split_ifs at h with hcr hbreak
    · obtain ⟨ends, rfl, hends⟩ := eq_append_of_splitlines_eq_singleton h
      have hline : line = [] := by
        cases line with
        | nil => rfl
        | cons d line =>
          cases hcr.2
          have hd := isLineBreak_of_mem_splitlines (h ▸ List.mem_cons_self) '\n' List.mem_cons_self
          exact absurd hd (by decide)
      subst hline
      exact ⟨c :: ends, rfl, List.forall_mem_cons.mpr ⟨by rw [hcr.1]; decide, hends⟩⟩
    · obtain ⟨rfl, hcs⟩ := List.cons.inj h
      rw [splitlines_eq_nil_iff.mp hcs]
      exact ⟨[c], rfl, List.forall_mem_singleton.mpr hbreak⟩
    · cases hlines : splitlines cs with
      | nil =>
        rw [hlines] at h
        rw [splitlines_eq_nil_iff.mp hlines, ← (List.cons.inj h).1]
        exact ⟨[], rfl, by simp⟩
      | cons first lines =>
        rw [hlines] at h
        obtain ⟨rfl, rfl⟩ := List.cons.inj h
        obtain ⟨ends, rfl, hends⟩ := eq_append_of_splitlines_eq_singleton hlines
        exact ⟨ends, rfl, hends⟩

/-- A text that ends with a visible character has no ends of lines in it when it is one line
with what stands behind it. -/
theorem isLineBreak_of_length_splitlines {w : List Char}
    (hlast : ∀ c ∈ s.getLast?, isSpace c = false)
    (h : (splitlines (s ++ w)).length = 1) : ∀ c ∈ s, isLineBreak c = false := by
  obtain ⟨line, hline⟩ := List.length_eq_one_iff.mp h
  have hbreaks : ∀ c ∈ line, isLineBreak c = false :=
    isLineBreak_of_mem_splitlines (s := s ++ w) (by rw [hline]; exact List.mem_cons_self)
  obtain ⟨ends, heq, hends⟩ := eq_append_of_splitlines_eq_singleton hline
  rcases List.append_eq_append_iff.mp heq with ⟨a, rfl, -⟩ | ⟨a, rfl, rfl⟩
  · exact fun c hc => hbreaks c (List.mem_append_left a hc)
  · rcases List.eq_nil_or_concat a with rfl | ⟨a, c, rfl⟩
    · rw [List.append_nil]
      exact hbreaks
    · -- The last character would be the end of a line.
      rw [List.concat_eq_append] at hlast hends
      have hc := hlast c (by rw [← List.append_assoc]; exact List.getLast?_concat)
      rw [isSpace_of_isLineBreak (hends c (by simp))] at hc
      cases hc

/-- A text that begins with whitespace has a first line that does, or is empty. -/
theorem isSpace_of_head?_splitlines (hs : ∀ c ∈ s.head?, isSpace c) :
    ∀ c ∈ ((splitlines s).head?.getD []).head?, isSpace c := by
  intro d hd
  induction s with
  | nil => cases hd
  | cons c s ih =>
    rw [splitlines] at hd
    split_ifs at hd with hcr hbreak
    · refine ih (fun e he => ?_) hd
      rw [hcr.2] at he
      cases he
      decide
    · cases hd
    · cases hlines : splitlines s with
      | nil =>
        rw [hlines] at hd
        cases hd
        exact hs _ rfl
      | cons line lines =>
        rw [hlines] at hd
        cases hd
        exact hs _ rfl

/-- The last line ends as the text does. -/
theorem getLast?_splitlines (hc : isLineBreak c = false) (s : List Char) :
    (splitlines (s ++ [c])).getLast?.bind List.getLast? = some c := by
  induction s with
  | nil =>
    rw [List.nil_append, splitlines_cons hc]
    rfl
  | cons d s ih =>
    rw [List.cons_append, splitlines]
    split_ifs with hcr hbreak
    · exact ih
    · cases hlines : splitlines (s ++ [c]) with
      | nil =>
        rw [hlines] at ih
        cases ih
      | cons line lines =>
        rw [hlines] at ih
        rw [List.getLast?_cons_cons]
        exact ih
    · cases hlines : splitlines (s ++ [c]) with
      | nil =>
        rw [hlines] at ih
        cases ih
      | cons line lines =>
        rw [hlines] at ih
        cases lines with
        | nil =>
          cases line with
          | nil => cases ih
          | cons e line => exact ih
        | cons next lines => exact ih

/-! ## Lines of stripped texts -/

/-- `rstrip` reaches no further than the last visible character. -/
theorem rstrip_append_of_ne_nil (s : List Char) (ht : rstrip t ≠ []) :
    rstrip (s ++ t) = s ++ rstrip t := by
  unfold rstrip List.rdropWhile at ht ⊢
  have hvisible : ¬ (t.reverse.dropWhile isSpace).isEmpty = true := by
    rw [List.isEmpty_iff]
    exact fun h => ht (by rw [h]; rfl)
  rw [List.reverse_append, List.dropWhile_append, if_neg hvisible, List.reverse_append,
    List.reverse_reverse]

/-- Nothing is stripped from a text that begins and ends with visible characters. -/
theorem rstrip_of_getLast (h : ∀ c ∈ s.getLast?, isSpace c = false) : rstrip s = s := by
  unfold rstrip
  rw [List.rdropWhile_eq_self_iff]
  intro hne hspace
  rw [h _ (List.getLast?_eq_some_getLast hne)] at hspace
  exact Bool.false_ne_true hspace

theorem unlines_append_singleton (lines : List (List Char)) (line : List Char) :
    unlines (lines ++ [line]) = unlines lines ++ line ++ ['\n'] := by
  unfold unlines
  rw [List.map_append, List.flatten_append]
  simp

/-- Only the end of the last line is stripped from the lines of a program, when the first has
nothing to strip at its beginning. -/
theorem strip_unlines (hhead : ∀ c ∈ (unlines lines ++ line).head?, isSpace c = false)
    (hline : rstrip line ≠ []) :
    strip (unlines (lines ++ [line])) = unlines lines ++ rstrip line := by
  have hne : unlines lines ++ line ≠ [] := by
    intro h
    rw [(List.append_eq_nil_iff.mp h).2] at hline
    exact hline rfl
  have hleft : lstrip (unlines lines ++ line ++ ['\n']) = unlines lines ++ line ++ ['\n'] := by
    apply lstrip_of_head
    rw [List.head?_append_of_ne_nil _ hne]
    exact hhead
  unfold strip
  rw [unlines_append_singleton, hleft, rstrip_append_blank (List.forall_mem_singleton.mpr rfl),
    rstrip_append_of_ne_nil _ hline]

/-- The lines of a program are read back, but for what is stripped from the last one. -/
theorem splitlines_strip_unlines
    (hlines : ∀ line ∈ lines, ∀ c ∈ line, isLineBreak c = false)
    (hlast : ∀ c ∈ line, isLineBreak c = false)
    (hhead : ∀ c ∈ (unlines lines ++ line).head?, isSpace c = false)
    (hline : rstrip line ≠ []) :
    splitlines (strip (unlines (lines ++ [line]))) = lines ++ [rstrip line] := by
  have hrstrip : ∀ c ∈ rstrip line, isLineBreak c = false :=
    fun c hc => hlast c ((List.rdropWhile_prefix isSpace line).subset hc)
  have hmap : lines.map (fun line => splitlines (line ++ ['\n'])) = lines.map fun line => [line] :=
    List.map_congr_left fun line hmem => splitlines_newline (hlines line hmem)
  rw [strip_unlines hhead hline, splitlines_unlines_append, splitlines_of_forall hline hrstrip,
    hmap, ← List.flatMap_def, List.flatMap_singleton']

/-- What is stripped has no whitespace at its end. -/
theorem getLast?_strip {s : List Char} : ∀ c ∈ (strip s).getLast?, isSpace c = false := by
  intro c hc
  have hnot := List.head?_dropWhile_not isSpace (lstrip s).reverse
  unfold strip rstrip List.rdropWhile at hc
  rw [List.getLast?_reverse] at hc
  rw [Option.mem_def.mp hc] at hnot
  exact hnot

/-! ## Words -/

/-- `s.split()`. -/
def words (s : List Char) : List (List Char) := (s.splitOnP isSpace).filter (· ≠ [])

variable {w : List Char}

theorem words_of_forall (hne : w ≠ []) (hw : ∀ c ∈ w, isSpace c = false) : words w = [w] := by
  unfold words
  rw [List.splitOnP_eq_singleton hw]
  simp [hne]

/-- Whitespace separates words. -/
theorem words_append_space (s : List Char) (hc : isSpace c) (t : List Char) :
    words (s ++ c :: t) = words s ++ words t := by
  unfold words
  rw [List.splitOnP_append_cons s t hc, List.filter_append]

theorem words_cons_space (hc : isSpace c) (t : List Char) : words (c :: t) = words t := by
  have h := words_append_space [] hc t
  rwa [List.nil_append, show words [] = [] by simp [words], List.nil_append] at h

theorem words_append (s : List Char) (ht : ∀ c ∈ t.head?, isSpace c) :
    words (s ++ t) = words s ++ words t := by
  cases t with
  | nil => simp [words]
  | cons c t => rw [words_append_space s (ht c rfl), words_cons_space (ht c rfl)]

theorem isSpace_of_mem_words (h : w ∈ words s) : ∀ c ∈ w, isSpace c = false := by
  unfold words at h
  replace h := (List.mem_filter.mp h).1
  induction s generalizing w with
  | nil =>
    rw [List.splitOnP_nil, List.mem_singleton] at h
    rw [h]
    exact fun c hc => absurd hc List.not_mem_nil
  | cons d s ih =>
    rw [List.splitOnP_cons_eq_if_modifyHead] at h
    split_ifs at h with hd
    · rcases List.mem_cons.mp h with rfl | h
      · exact fun c hc => absurd hc List.not_mem_nil
      · exact ih h
    · obtain ⟨first, parts, hparts⟩ := List.exists_cons_of_ne_nil (List.splitOnP_ne_nil isSpace s)
      rw [hparts] at h ih
      rw [List.modifyHead_cons] at h
      rcases List.mem_cons.mp h with rfl | h
      · rw [Bool.not_eq_true] at hd
        exact List.forall_mem_cons.mpr ⟨hd, ih List.mem_cons_self⟩
      · exact ih (List.mem_cons_of_mem first h)

end PyStr
