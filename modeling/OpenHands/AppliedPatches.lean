/-
# What a patch does to its source

A diff shows the lines around the changes; what it shows of a line that stays or goes may differ
from the line itself.  The changes that are read from its text number the lines that are shown,
and applied to the source of the diff they give its target: a kept line as the source has it.
Backwards they give the source again, with the deleted lines as the diff shows them.
-/
import Mathlib
import OpenHands.Lib.Fallible
import OpenHands.Patches

namespace OpenHands.Patches

open EditScripts Fallible PyRe

/-! ## Diffs -/

/-- A line of a hunk: a line that stays, with what is shown of it, a line that goes, likewise, a
new line, and a remark (`\ No newline at end of file`). -/
inductive DiffLine where
  | context (line shown : Text)
  | removed (line shown : Text)
  | added (line : Text)
  | note (text : Text)

namespace DiffLine

/-- What the line stands for. -/
def ops : DiffLine → List (Op Text)
  | .context line _ => [.keep line]
  | .removed line _ => [.delete line]
  | .added line => [.insert line]
  | .note _ => []

/-- The line as it is written. -/
def render : DiffLine → Text
  | .context _ shown => ' ' :: shown
  | .removed _ shown => '-' :: shown
  | .added line => '+' :: line
  | .note text => '\\' :: text

/-- What is shown of a line of the source is the line, up to whitespace. -/
def Matches : DiffLine → Prop
  | .context line shown | .removed line shown =>
    line = shown ∨ normalized shown = normalized line
  | _ => True

end DiffLine

/-- The script of the lines of a hunk. -/
def script (lines : List DiffLine) : List (Op Text) := lines.flatMap DiffLine.ops

/-- The lines of the old file that a hunk covers. -/
def oldLen (lines : List DiffLine) : ℕ := (source (script lines)).length

/-- The lines of the new file. -/
def newLen (lines : List DiffLine) : ℕ := (target (script lines)).length

/-- The changes of the lines of a hunk, when the next lines have these numbers. -/
def numbered (hunkN : ℕ) : ℕ → ℕ → List DiffLine → List Change
  | _, _, [] => []
  | o, n, .context _ shown :: lines =>
    ⟨some o, some n, shown, hunkN⟩ :: numbered hunkN (o + 1) (n + 1) lines
  | o, n, .removed _ shown :: lines => ⟨some o, none, shown, hunkN⟩ :: numbered hunkN (o + 1) n lines
  | o, n, .added line :: lines => ⟨none, some n, line, hunkN⟩ :: numbered hunkN o (n + 1) lines
  | o, n, .note _ :: lines => numbered hunkN o n lines

/-- A hunk: the lines before it that are not shown, its lines, and what stands behind its range. -/
structure Hunk where
  skipped : List Text
  lines : List DiffLine
  heading : Text

/-- A number and a length; a length of 1 is left out. -/
def renderRange (start len : ℕ) : Text :=
  Nat.toDigits 10 start ++ if len = 1 then [] else ',' :: Nat.toDigits 10 len

/-- The first line of a hunk.  Where a file has no line in it, the number of the line before is
written. -/
def Hunk.start (hunk : Hunk) (o n : ℕ) : Text :=
  ['@', '@', ' ', '-']
    ++ renderRange (if oldLen hunk.lines = 0 then o - 1 else o) (oldLen hunk.lines)
    ++ ([' ', '+']
      ++ renderRange (if newLen hunk.lines = 0 then n - 1 else n) (newLen hunk.lines)
      ++ ([' ', '@', '@'] ++ hunk.heading))

/-- A diff: the hunks, and the lines behind the last one. -/
structure Diff where
  hunks : List Hunk
  rest : List Text

/-- The script of hunks. -/
def hunksScript (hunks : List Hunk) : List (Op Text) :=
  hunks.flatMap fun hunk => hunk.skipped.map Op.keep ++ script hunk.lines

/-- The script of a diff. -/
def Diff.script (d : Diff) : List (Op Text) := hunksScript d.hunks ++ d.rest.map Op.keep

/-- The texts of hunks, when the next lines have these numbers. -/
def hunkBlocks : ℕ → ℕ → List Hunk → List (List Text)
  | _, _, [] => []
  | o, n, hunk :: hunks =>
    let o := o + hunk.skipped.length
    let n := n + hunk.skipped.length
    (hunk.start o n :: hunk.lines.map DiffLine.render)
      :: hunkBlocks (o + oldLen hunk.lines) (n + newLen hunk.lines) hunks

/-- The changes of hunks, numbered from `hunkN` on. -/
def hunksChanges : ℕ → ℕ → ℕ → List Hunk → List Change
  | _, _, _, [] => []
  | hunkN, o, n, hunk :: hunks =>
    let o := o + hunk.skipped.length
    let n := n + hunk.skipped.length
    numbered hunkN o n hunk.lines
      ++ hunksChanges (hunkN + 1) (o + oldLen hunk.lines) (n + newLen hunk.lines) hunks

/-- The changes of a diff. -/
def Diff.changes (d : Diff) : List Change := hunksChanges 1 1 1 d.hunks

/-- The text of a diff, behind the lines that name the files. -/
def Diff.render (d : Diff) (header : List Text) : List Text :=
  header ++ (hunkBlocks 1 1 d.hunks).flatten

/-- Every line that is shown is a line of the source, up to whitespace. -/
def Diff.Matches (d : Diff) : Prop := ∀ hunk ∈ d.hunks, ∀ line ∈ hunk.lines, line.Matches

/-! ## The text of a diff -/

/-- A digit is none of the other characters of a range. -/
theorem renderRange_append {start len : ℕ} {c : Char} (hc : c.isDigit = false) (hcomma : c ≠ ',')
    (rest : Text) :
    hunkRange (renderRange start len ++ c :: rest) = some (start, len, c :: rest) := by
  have hdigits : ∀ n, ∀ d ∈ Nat.toDigits 10 n, d.isDigit = true := fun n d hd =>
    Nat.isDigit_of_mem_toDigits (by decide) (by decide) hd
  have hstop : ¬ c.isDigit = true := by
    rw [hc]
    exact Bool.false_ne_true
  unfold hunkRange renderRange
  by_cases hlen : len = 1
  · rw [if_pos hlen, List.append_nil, run_append_cons Nat.toDigits_ne_nil (hdigits _) hc]
    have hliteral : afterLiteral [','] (c :: rest) = none := by
      unfold afterLiteral
      rw [if_neg]
      simpa using Ne.symm hcomma
    simp only [Option.map_some, hliteral, Option.getD_none,
      List.takeWhile_cons_of_neg hstop, List.dropWhile_cons_of_neg hstop,
      Nat.ofDigitChars_ten_toDigits, if_true, hlen]
  · rw [if_neg hlen, List.append_assoc, List.cons_append,
      run_append_cons Nat.toDigits_ne_nil (hdigits _) (by decide)]
    have htake : (Nat.toDigits 10 len ++ c :: rest).takeWhile Char.isDigit = Nat.toDigits 10 len := by
      rw [List.takeWhile_append_of_pos (hdigits _), List.takeWhile_cons_of_neg hstop, List.append_nil]
    have hdrop : (Nat.toDigits 10 len ++ c :: rest).dropWhile Char.isDigit = c :: rest := by
      rw [List.dropWhile_append_of_pos (hdigits _), List.dropWhile_cons_of_neg hstop]
    have hliteral : afterLiteral [','] (',' :: (Nat.toDigits 10 len ++ c :: rest))
        = some (Nat.toDigits 10 len ++ c :: rest) := afterLiteral_append [','] _
    simp only [Option.map_some, hliteral, Option.getD_some, htake, hdrop,
      Nat.ofDigitChars_ten_toDigits, Nat.toDigits_ne_nil, if_false]

/-- The first line of a hunk is read as it was written. -/
theorem unifiedHunkStart_start (hunk : Hunk) (o n : ℕ) :
    unifiedHunkStart (hunk.start o n)
      = some ⟨if oldLen hunk.lines = 0 then o - 1 else o, oldLen hunk.lines,
          if newLen hunk.lines = 0 then n - 1 else n, newLen hunk.lines⟩ := by
  have hplus : ∀ rest, afterLiteral [' ', '+'] (' ' :: '+' :: rest) = some rest :=
    afterLiteral_append [' ', '+']
  have hend : ∀ rest, afterLiteral [' ', '@', '@'] (' ' :: '@' :: '@' :: rest) = some rest :=
    afterLiteral_append [' ', '@', '@']
  unfold unifiedHunkStart Hunk.start
  simp only [List.append_assoc, afterLiteral_append, Option.bind_eq_bind, Option.bind_some]
  simp only [List.cons_append, List.nil_append, hplus, hend,
    renderRange_append (c := ' ') (by decide) (by decide), Option.bind_some]
  rfl

/-- The other lines of a hunk are not taken for the beginning of one. -/
theorem unifiedHunkStart_render (line : DiffLine) : unifiedHunkStart line.render = none := by
  have hliteral : afterLiteral ['@', '@', ' ', '-'] line.render = none := by
    unfold afterLiteral
    rw [if_neg]
    cases line <;> simp [DiffLine.render]
  unfold unifiedHunkStart
  rw [hliteral]
  rfl

theorem parseLines_cons (h : HunkStart) (hunkN r i : ℕ) (kind : Char) (line : Text)
    (rest : List Text) : parseLines h hunkN r i ((kind :: line) :: rest) =
      if kind = '-' ∧ (r ≠ h.oldLen ∨ r = 0) then
        ⟨some (h.old + r), none, line, hunkN⟩ :: parseLines h hunkN (r + 1) i rest
      else if kind = '+' ∧ (i ≠ h.newLen ∨ i = 0) then
        ⟨none, some (h.new + i), line, hunkN⟩ :: parseLines h hunkN r (i + 1) rest
      else if kind = ' ' then
        ⟨some (h.old + r), some (h.new + i), line, hunkN⟩
          :: parseLines h hunkN (r + 1) (i + 1) rest
      else parseLines h hunkN r i rest := rfl

/-- The lines of a hunk get the numbers that its first line announces. -/
theorem parseLines_render {h : HunkStart} (hunkN : ℕ) {lines : List DiffLine} {r i : ℕ}
    (hr : r + oldLen lines = h.oldLen) (hi : i + newLen lines = h.newLen) :
    parseLines h hunkN r i (lines.map DiffLine.render)
      = numbered hunkN (h.old + r) (h.new + i) lines := by
  induction lines generalizing r i with
  | nil => rfl
  | cons line lines ih =>
    rw [List.map_cons]
    cases line with
    | context line shown =>
      have hr' : r + 1 + oldLen lines = h.oldLen := by
        rw [← hr]
        show r + 1 + oldLen lines = r + (oldLen lines + 1)
        omega
      have hi' : i + 1 + newLen lines = h.newLen := by
        rw [← hi]
        show i + 1 + newLen lines = i + (newLen lines + 1)
        omega
      rw [DiffLine.render, parseLines_cons, if_neg (by simp), if_neg (by simp), if_pos rfl,
        ih hr' hi']
      rfl
    | removed line shown =>
      have hr' : r + 1 + oldLen lines = h.oldLen := by
        rw [← hr]
        show r + 1 + oldLen lines = r + (oldLen lines + 1)
        omega
      rw [DiffLine.render, parseLines_cons, if_pos ⟨rfl, Or.inl (by omega)⟩, ih hr' hi]
      rfl
    | added line =>
      have hi' : i + 1 + newLen lines = h.newLen := by
        rw [← hi]
        show i + 1 + newLen lines = i + (newLen lines + 1)
        omega
      rw [DiffLine.render, parseLines_cons, if_neg (by simp), if_pos ⟨rfl, Or.inl (by omega)⟩,
        ih hr hi']
      rfl
    | note text =>
      rw [DiffLine.render, parseLines_cons, if_neg (by simp), if_neg (by simp), if_neg (by simp)]
      exact ih hr hi

/-- The number of a file that has no line in the hunk is not used. -/
theorem numbered_congr (hunkN : ℕ) {lines : List DiffLine} {o o' n n' : ℕ}
    (ho : oldLen lines = 0 ∨ o = o') (hn : newLen lines = 0 ∨ n = n') :
    numbered hunkN o n lines = numbered hunkN o' n' lines := by
  induction lines generalizing o o' n n' with
  | nil => rfl
  | cons line lines ih =>
    cases line with
    | context line shown =>
      have ho' : o = o' := ho.resolve_left (Nat.succ_ne_zero _)
      have hn' : n = n' := hn.resolve_left (Nat.succ_ne_zero _)
      rw [ho', hn']
    | removed line shown =>
      have ho' : o = o' := ho.resolve_left (Nat.succ_ne_zero _)
      simp only [numbered]
      rw [ho', ih (Or.inr rfl) hn]
    | added line =>
      have hn' : n = n' := hn.resolve_left (Nat.succ_ne_zero _)
      simp only [numbered]
      rw [hn', ih ho (Or.inr rfl)]
    | note text => exact ih ho hn

/-- A hunk is read as it was written. -/
theorem parseHunk_block (hunkN : ℕ) (hunk : Hunk) (o n : ℕ) :
    parseHunk hunkN (hunk.start o n :: hunk.lines.map DiffLine.render)
      = numbered hunkN o n hunk.lines := by
  rw [parseHunk, unifiedHunkStart_start]
  dsimp only
  rw [parseLines_render hunkN (Nat.zero_add _) (Nat.zero_add _)]
  refine numbered_congr hunkN ?_ ?_
  · by_cases h : oldLen hunk.lines = 0
    · exact Or.inl h
    · exact Or.inr (if_neg h)
  · by_cases h : newLen hunk.lines = 0
    · exact Or.inl h
    · exact Or.inr (if_neg h)

theorem parseHunk_of_forall (hunkN : ℕ) {lines : List Text}
    (h : ∀ line ∈ lines, unifiedHunkStart line = none) : parseHunk hunkN lines = [] := by
  induction lines with
  | nil => rfl
  | cons line lines ih =>
    rw [List.forall_mem_cons] at h
    rw [parseHunk, h.1]
    exact ih h.2

/-- Nothing is split where nothing matches. -/
theorem splitByRegex_append {α : Type} {p : α → Bool} {first l : List α} {rest : List (List α)}
    (hl : splitByRegex p l = first :: rest) {pre : List α} (hpre : ∀ x ∈ pre, p x = false) :
    splitByRegex p (pre ++ l) = (pre ++ first) :: rest := by
  induction pre with
  | nil => exact hl
  | cons x pre ih =>
    rw [List.forall_mem_cons] at hpre
    rw [List.cons_append, splitByRegex, ih hpre.2, hpre.1]
    rfl

/-- Blocks that begin with a match, and have no other, are split from one another. -/
theorem splitByRegex_flatten {α : Type} {p : α → Bool} {blocks : List (List α)}
    (hblocks : ∀ block ∈ blocks, ∃ x xs, block = x :: xs ∧ p x = true ∧ ∀ y ∈ xs, p y = false)
    {pre : List α} (hpre : ∀ x ∈ pre, p x = false) :
    splitByRegex p (pre ++ blocks.flatten) = pre :: blocks := by
  induction blocks generalizing pre with
  | nil =>
    have h := splitByRegex_append (p := p) (l := []) rfl hpre
    rw [List.append_nil pre] at h
    rw [List.flatten_nil, List.append_nil, h]
  | cons block blocks ih =>
    rw [List.forall_mem_cons] at hblocks
    obtain ⟨⟨x, xs, rfl, hx, hxs⟩, hrest⟩ := hblocks
    have hblock : splitByRegex p ((x :: xs) ++ blocks.flatten) = [] :: (x :: xs) :: blocks := by
      rw [List.cons_append, splitByRegex, ih hrest hxs, hx]
      rfl
    have h := splitByRegex_append hblock hpre
    rw [List.append_nil] at h
    exact h

theorem hunkBlocks_spec (hunks : List Hunk) : ∀ o n, ∀ block ∈ hunkBlocks o n hunks,
    ∃ x xs, block = x :: xs ∧ (unifiedHunkStart x).isSome = true ∧
      ∀ y ∈ xs, (unifiedHunkStart y).isSome = false := by
  induction hunks with
  | nil => exact fun o n block h => absurd h List.not_mem_nil
  | cons hunk hunks ih =>
    intro o n
    rw [hunkBlocks, List.forall_mem_cons]
    refine ⟨⟨_, _, rfl, ?_, ?_⟩, ih _ _⟩
    · rw [unifiedHunkStart_start]
      rfl
    · intro y hy
      obtain ⟨line, -, rfl⟩ := List.mem_map.mp hy
      rw [unifiedHunkStart_render]
      rfl

theorem flatten_mapIdx_hunkBlocks (hunks : List Hunk) : ∀ hunkN o n : ℕ,
    ((hunkBlocks o n hunks).mapIdx fun i => parseHunk (i + hunkN)).flatten
      = hunksChanges hunkN o n hunks := by
  induction hunks with
  | nil => exact fun hunkN o n => rfl
  | cons hunk hunks ih =>
    intro hunkN o n
    have hnext : (fun i => parseHunk (i + 1 + hunkN)) = fun i => parseHunk (i + (hunkN + 1)) := by
      funext i
      congr 1
      omega
    rw [hunkBlocks, List.mapIdx_cons, List.flatten_cons, Nat.zero_add, parseHunk_block, hnext, ih]
    rfl

/-- **The text of a diff is read as its changes**, whatever stands before the first hunk. -/
theorem parseUnifiedDiff_render (d : Diff) {header : List Text}
    (hheader : ∀ line ∈ header, unifiedHunkStart line = none) :
    parseUnifiedDiff (d.render header) = if d.changes = [] then none else some d.changes := by
  have hsplit : splitByRegex (fun line => (unifiedHunkStart line).isSome) (d.render header)
      = header :: hunkBlocks 1 1 d.hunks := by
    refine splitByRegex_flatten (hunkBlocks_spec d.hunks 1 1) fun line hline => ?_
    rw [hheader line hline]
    rfl
  have hchanges : ((header :: hunkBlocks 1 1 d.hunks).mapIdx parseHunk).flatten = d.changes := by
    rw [List.mapIdx_cons, List.flatten_cons, parseHunk_of_forall 0 hheader, List.nil_append,
      flatten_mapIdx_hunkBlocks]
    rfl
  unfold parseUnifiedDiff
  rw [hsplit]
  dsimp only
  rw [hchanges]

/-! ## The source of a diff -/

theorem item?_done (done : List Text) (x : Text) (rest : List Text) :
    PySeq.item? (done ++ x :: rest) (((done.length + 1 : ℕ) : ℤ) - 1) = some x := by
  have hcast : ((done.length + 1 : ℕ) : ℤ) - 1 = (done.length : ℤ) := by omega
  rw [hcast, PySeq.item?_natCast, List.getElem?_append_right (Nat.le_refl _), Nat.sub_self]
  rfl

/-- A line that is shown up to whitespace is accepted. -/
theorem checkChange_done {done : List Text} {x : Text} {rest : List Text} {c : Change}
    (hold : c.old = some (done.length + 1)) (hmatch : x = c.line ∨ normalized c.line = normalized x) :
    checkChange (done ++ x :: rest) c = .ok () := by
  have hlength : ¬ (done ++ x :: rest).length < done.length + 1 := by
    rw [List.length_append, List.length_cons]
    omega
  unfold checkChange
  rw [hold]
  dsimp only
  rw [if_neg hlength, item?_done]
  dsimp only
  refine if_neg fun h => ?_
  rcases hmatch with heq | heq
  · exact h.1 heq
  · exact h.2 heq

/-- What a hunk shows of the source is compared with the lines it stands for. -/
theorem checkChange_numbered (hunkN : ℕ) {lines : List DiffLine}
    (hmatches : ∀ line ∈ lines, line.Matches) : ∀ (n : ℕ) (done rest : List Text),
    ∀ c ∈ numbered hunkN (done.length + 1) n lines,
      checkChange (done ++ (source (script lines) ++ rest)) c = .ok () := by
  induction lines with
  | nil => exact fun n done rest c hc => absurd hc List.not_mem_nil
  | cons line lines ih =>
    intro n done rest
    rw [List.forall_mem_cons] at hmatches
    obtain ⟨hline, hlines⟩ := hmatches
    have hnext (x : Text) (n : ℕ) : ∀ c ∈ numbered hunkN (done.length + 1 + 1) n lines,
        checkChange (done ++ x :: (source (script lines) ++ rest)) c = .ok () := by
      have h := ih hlines n (done ++ [x]) rest
      rw [List.length_append, List.length_singleton, List.append_assoc] at h
      exact h
    cases line with
    | context x shown =>
      rw [numbered, List.forall_mem_cons]
      exact ⟨checkChange_done rfl hline, hnext x (n + 1)⟩
    | removed x shown =>
      rw [numbered, List.forall_mem_cons]
      exact ⟨checkChange_done rfl hline, hnext x n⟩
    | added x =>
      rw [numbered, List.forall_mem_cons]
      exact ⟨rfl, ih hlines (n + 1) done rest⟩
    | note text => exact ih hlines n done rest

theorem checkChange_hunks (hunks : List Hunk) : ∀ (hunkN n : ℕ) (done rest : List Text),
    (∀ hunk ∈ hunks, ∀ line ∈ hunk.lines, line.Matches) →
      ∀ c ∈ hunksChanges hunkN (done.length + 1) n hunks,
        checkChange (done ++ (source (hunksScript hunks) ++ rest)) c = .ok () := by
  induction hunks with
  | nil => exact fun hunkN n done rest _ c hc => absurd hc List.not_mem_nil
  | cons hunk hunks ih =>
    intro hunkN n done rest hmatches c hc
    rw [List.forall_mem_cons] at hmatches
    have hsource : done ++ (source (hunksScript (hunk :: hunks)) ++ rest)
        = (done ++ hunk.skipped) ++ (source (script hunk.lines)
          ++ (source (hunksScript hunks) ++ rest)) := by
      unfold hunksScript
      rw [List.flatMap_cons, source_append, source_append, source_map_keep]
      simp only [List.append_assoc]
    rw [hsource]
    have hskipped : done.length + 1 + hunk.skipped.length = (done ++ hunk.skipped).length + 1 := by
      rw [List.length_append]
      omega
    rw [hunksChanges, hskipped] at hc
    rcases List.mem_append.mp hc with hc | hc
    · exact checkChange_numbered hunkN hmatches.1 _ _ _ c hc
    · have hdone : (done ++ hunk.skipped).length + 1 + oldLen hunk.lines
          = (done ++ hunk.skipped ++ source (script hunk.lines)).length + 1 := by
        simp only [List.length_append]
        unfold oldLen
        omega
      rw [hdone] at hc
      rw [← List.append_assoc (done ++ hunk.skipped)]
      exact ih _ _ _ rest hmatches.2 c hc

/-! ## The target of a diff -/

theorem deleteItem_done (done : List Text) (x : Text) (rest : List Text) :
    deleteItem (done ++ x :: rest) (done.length : ℤ) = some (done ++ rest) := by
  have hlt : (done.length : ℤ) < ((done ++ x :: rest).length : ℤ) := by
    rw [List.length_append, List.length_cons]
    omega
  unfold deleteItem
  rw [if_neg (by omega), if_pos hlt, Int.toNat_natCast, eraseIdx_length]

/-- The changes of a hunk finish its lines: `r` deletions and `i` insertions before are what the
numbers of the two files differ by. -/
theorem foldlM_numbered (hunkN : ℕ) (lines : List DiffLine) : ∀ (o r i : ℕ) (done rest : List Text),
    o + i = done.length + 1 + r →
    ∃ r' i', (numbered hunkN o (done.length + 1) lines).foldlM applyChange
        ⟨done ++ (source (script lines) ++ rest), r, i⟩
          = .ok ⟨done ++ (target (script lines) ++ rest), r', i'⟩ ∧
      o + oldLen lines + i' = done.length + 1 + newLen lines + r' := by
  induction lines with
  | nil => exact fun o r i done rest hnumbers => ⟨r, i, rfl, hnumbers⟩
  | cons line lines ih =>
    intro o r i done rest hnumbers
    cases line with
    | context x shown =>
      have h := ih (o + 1) r i (done ++ [x]) rest (by
        rw [List.length_append, List.length_singleton]
        omega)
      rw [List.length_append, List.length_singleton, List.append_assoc, List.append_assoc] at h
      obtain ⟨r', i', hfold, hcount⟩ := h
      refine ⟨r', i', hfold, ?_⟩
      show o + (oldLen lines + 1) + i' = done.length + 1 + (newLen lines + 1) + r'
      omega
    | removed x shown =>
      obtain ⟨r', i', hfold, hcount⟩ := ih (o + 1) (r + 1) i done rest (by omega)
      -- the old line has moved by what was removed and inserted before it
      have hindex : (o : ℤ) - 1 - r + i = done.length := by omega
      have hdelete : applyChange ⟨done ++ x :: (source (script lines) ++ rest), r, i⟩
          ⟨some o, none, shown, hunkN⟩ = .ok ⟨done ++ (source (script lines) ++ rest), r + 1, i⟩ := by
        unfold applyChange
        dsimp only
        rw [hindex, deleteItem_done]
      refine ⟨r', i', ?_, ?_⟩
      · rw [numbered, List.foldlM_cons]
        show (applyChange ⟨done ++ x :: (source (script lines) ++ rest), r, i⟩ _ >>= _) = _
        rw [hdelete]
        exact hfold
      · show o + (oldLen lines + 1) + i' = done.length + 1 + newLen lines + r'
        omega
    | added x =>
      have h := ih o r (i + 1) (done ++ [x]) rest (by
        rw [List.length_append, List.length_singleton]
        omega)
      rw [List.length_append, List.length_singleton, List.append_assoc, List.append_assoc] at h
      obtain ⟨r', i', hfold, hcount⟩ := h
      have hinsert : applyChange ⟨done ++ (source (script lines) ++ rest), r, i⟩
          ⟨none, some (done.length + 1), x, hunkN⟩
            = .ok ⟨done ++ x :: (source (script lines) ++ rest), r, i + 1⟩ := by
        unfold applyChange
        have hindex : ((done.length + 1 : ℕ) : ℤ) - 1 = done.length := by omega
        dsimp only
        rw [hindex, PySeq.insert_append]
      refine ⟨r', i', ?_, ?_⟩
      · rw [numbered, List.foldlM_cons]
        show (applyChange ⟨done ++ (source (script lines) ++ rest), r, i⟩ _ >>= _) = _
        rw [hinsert]
        exact hfold
      · show o + oldLen lines + i' = done.length + 1 + (newLen lines + 1) + r'
        omega
    | note text => exact ih o r i done rest hnumbers

theorem foldlM_hunks (hunks : List Hunk) : ∀ (hunkN o r i : ℕ) (done rest : List Text),
    o + i = done.length + 1 + r →
      ∃ r' i', (hunksChanges hunkN o (done.length + 1) hunks).foldlM applyChange
        ⟨done ++ (source (hunksScript hunks) ++ rest), r, i⟩
          = .ok ⟨done ++ (target (hunksScript hunks) ++ rest), r', i'⟩ := by
  induction hunks with
  | nil => exact fun hunkN o r i done rest _ => ⟨r, i, rfl⟩
  | cons hunk hunks ih =>
    intro hunkN o r i done rest hnumbers
    -- either side of the change, split where its first hunk ends
    have hlists (side : List (Op Text) → List Text)
        (hside : ∀ s t, side (s ++ t) = side s ++ side t)
        (hkeep : ∀ l : List Text, side (l.map Op.keep) = l) :
        done ++ (side (hunksScript (hunk :: hunks)) ++ rest)
          = (done ++ hunk.skipped) ++ (side (script hunk.lines)
            ++ (side (hunksScript hunks) ++ rest)) := by
      unfold hunksScript
      rw [List.flatMap_cons, hside, hside, hkeep]
      simp only [List.append_assoc]
    rw [hlists source source_append source_map_keep, hlists target target_append target_map_keep]
    have hskipped : done.length + 1 + hunk.skipped.length = (done ++ hunk.skipped).length + 1 := by
      rw [List.length_append]
      omega
    obtain ⟨r', i', hfold, hcount⟩ := foldlM_numbered hunkN hunk.lines
      (o + hunk.skipped.length) r i (done ++ hunk.skipped)
      (source (hunksScript hunks) ++ rest) (by omega)
    have hdone : (done ++ hunk.skipped).length + 1 + newLen hunk.lines
        = (done ++ hunk.skipped ++ target (script hunk.lines)).length + 1 := by
      simp only [List.length_append]
      unfold newLen
      omega
    obtain ⟨r'', i'', hrest⟩ := ih (hunkN + 1) (o + hunk.skipped.length + oldLen hunk.lines) r' i'
      (done ++ hunk.skipped ++ target (script hunk.lines)) rest (by omega)
    refine ⟨r'', i'', ?_⟩
    rw [hunksChanges, hskipped, List.foldlM_append, hfold, hdone]
    simp only [List.append_assoc] at hrest ⊢
    exact hrest

theorem forM_eq_ok {ε α : Type} {f : α → Except ε PUnit} {l : List α}
    (h : ∀ a ∈ l, f a = .ok ⟨⟩) : l.forM f = .ok ⟨⟩ := by
  induction l with
  | nil => rfl
  | cons a l ih =>
    rw [List.forall_mem_cons] at h
    show (f a >>= fun _ => l.forM f) = _
    rw [h.1]
    exact ih h.2

/-- The changes of a diff turn its source into its target. -/
theorem applyDiff_changes (d : Diff) (hmatches : d.Matches) :
    applyDiff d.changes (source d.script) false = .ok (target d.script) := by
  have hcheck : d.changes.forM (checkChange (source d.script)) = .ok ⟨⟩ := by
    refine forM_eq_ok fun c hc => ?_
    have h := checkChange_hunks d.hunks 1 1 [] d.rest hmatches c hc
    rw [Diff.script, source_append, source_map_keep]
    exact h
  obtain ⟨r, i, hfold⟩ := foldlM_hunks d.hunks 1 1 0 0 [] d.rest rfl
  have hedited : d.changes.foldlM applyChange ⟨source d.script, 0, 0⟩
      = .ok ⟨target d.script, r, i⟩ := by
    rw [Diff.script, source_append, source_map_keep, target_append, target_map_keep]
    exact hfold
  unfold applyDiff
  rw [if_neg Bool.false_ne_true]
  show (d.changes.forM (checkChange (source d.script)) >>= fun _ => _) = _
  rw [hcheck]
  show (d.changes.foldlM applyChange ⟨source d.script, 0, 0⟩ >>= fun _ => _) = _
  rw [hedited]
  rfl

/-! ## Backwards -/

/-- The line, with its two sides exchanged. -/
def DiffLine.flip : DiffLine → DiffLine
  | .context line shown => .context line shown
  | .removed _ shown => .added shown
  | .added line => .removed line line
  | .note text => .note text

/-- What a line shows of the source: a line that stays is the line itself. -/
def DiffLine.shownSource : DiffLine → List Text
  | .context line _ => [line]
  | .removed _ shown => [shown]
  | _ => []

/-- The source, with the deleted lines as they are shown. -/
def Diff.shownSource (d : Diff) : List Text :=
  (d.hunks.flatMap fun hunk => hunk.skipped ++ hunk.lines.flatMap DiffLine.shownSource) ++ d.rest

def Hunk.flip (hunk : Hunk) : Hunk := { hunk with lines := hunk.lines.map DiffLine.flip }

def Diff.flip (d : Diff) : Diff := { d with hunks := d.hunks.map Hunk.flip }

theorem source_flip (lines : List DiffLine) :
    source (script (lines.map DiffLine.flip)) = target (script lines) := by
  induction lines with
  | nil => rfl
  | cons line lines ih =>
    cases line with
    | context x shown => exact congrArg (x :: ·) ih
    | removed x shown => exact ih
    | added x => exact congrArg (x :: ·) ih
    | note text => exact ih

theorem target_flip (lines : List DiffLine) :
    target (script (lines.map DiffLine.flip)) = lines.flatMap DiffLine.shownSource := by
  induction lines with
  | nil => rfl
  | cons line lines ih =>
    cases line with
    | context x shown => exact congrArg (x :: ·) ih
    | removed x shown => exact congrArg (shown :: ·) ih
    | added x => exact ih
    | note text => exact ih

theorem length_shownSource (lines : List DiffLine) :
    (lines.flatMap DiffLine.shownSource).length = oldLen lines := by
  induction lines with
  | nil => rfl
  | cons line lines ih =>
    cases line with
    | context x shown => exact congrArg (· + 1) ih
    | removed x shown => exact congrArg (· + 1) ih
    | added x => exact ih
    | note text => exact ih

theorem oldLen_flip (lines : List DiffLine) : oldLen (lines.map DiffLine.flip) = newLen lines :=
  congrArg List.length (source_flip lines)

theorem newLen_flip (lines : List DiffLine) : newLen (lines.map DiffLine.flip) = oldLen lines := by
  rw [← length_shownSource, ← target_flip]
  rfl

theorem reverse_numbered (hunkN : ℕ) (lines : List DiffLine) : ∀ o n : ℕ,
    (numbered hunkN o n lines).map reverseChange
      = numbered hunkN n o (lines.map DiffLine.flip) := by
  induction lines with
  | nil => exact fun o n => rfl
  | cons line lines ih =>
    intro o n
    cases line with
    | context x shown => exact congrArg (_ :: ·) (ih _ _)
    | removed x shown => exact congrArg (_ :: ·) (ih _ _)
    | added x => exact congrArg (_ :: ·) (ih _ _)
    | note text => exact ih o n

theorem reverse_hunks (hunks : List Hunk) : ∀ hunkN o n : ℕ,
    (hunksChanges hunkN o n hunks).map reverseChange
      = hunksChanges hunkN n o (hunks.map Hunk.flip) := by
  induction hunks with
  | nil => exact fun hunkN o n => rfl
  | cons hunk hunks ih =>
    intro hunkN o n
    rw [hunksChanges, List.map_append, reverse_numbered, ih, List.map_cons, hunksChanges]
    show _ ++ _ = numbered hunkN (n + hunk.skipped.length) (o + hunk.skipped.length)
        (hunk.lines.map DiffLine.flip)
      ++ hunksChanges (hunkN + 1)
        (n + hunk.skipped.length + oldLen (hunk.lines.map DiffLine.flip))
        (o + hunk.skipped.length + newLen (hunk.lines.map DiffLine.flip)) (hunks.map Hunk.flip)
    rw [oldLen_flip, newLen_flip]

/-- The two lists of a script of hunks, side by side. -/
theorem source_hunksFlip (hunks : List Hunk) :
    source (hunksScript (hunks.map Hunk.flip)) = target (hunksScript hunks) := by
  induction hunks with
  | nil => rfl
  | cons hunk hunks ih =>
    unfold hunksScript at ih ⊢
    rw [List.map_cons, List.flatMap_cons, List.flatMap_cons, source_append, source_append, ih,
      target_append, target_append]
    show source (hunk.skipped.map Op.keep) ++ source (script (hunk.lines.map DiffLine.flip)) ++ _ = _
    rw [source_flip, source_map_keep, target_map_keep]

theorem target_hunksFlip (hunks : List Hunk) :
    target (hunksScript (hunks.map Hunk.flip))
      = hunks.flatMap fun hunk => hunk.skipped ++ hunk.lines.flatMap DiffLine.shownSource := by
  induction hunks with
  | nil => rfl
  | cons hunk hunks ih =>
    unfold hunksScript at ih ⊢
    rw [List.map_cons, List.flatMap_cons, List.flatMap_cons, target_append, target_append, ih]
    show target (hunk.skipped.map Op.keep) ++ target (script (hunk.lines.map DiffLine.flip)) ++ _ = _
    rw [target_flip, target_map_keep]

/-- What matches the source matches the target, where the lines that are added are their own. -/
theorem Diff.Matches.flip {d : Diff} (hmatches : d.Matches) : d.flip.Matches := by
  intro hunk hhunk line hline
  obtain ⟨hunk, hmem, rfl⟩ := List.mem_map.mp hhunk
  obtain ⟨line, hshown, rfl⟩ := List.mem_map.mp hline
  have hmatch := hmatches hunk hmem line hshown
  cases line with
  | context x shown => exact hmatch
  | removed x shown => trivial
  | added x => exact Or.inl rfl
  | note text => trivial

/-- **A diff carries its source over into its target, and back**: forwards the lines that stay
are those of the source, backwards the lines that come back are those that the diff shows. -/
theorem applyDiff_both (d : Diff) (hmatches : d.Matches) :
    applyDiff d.changes (source d.script) false = .ok (target d.script) ∧
      applyDiff d.changes (target d.script) true = .ok d.shownSource := by
  refine ⟨applyDiff_changes d hmatches, ?_⟩
  have hsource : source d.flip.script = target d.script := by
    unfold Diff.script
    rw [source_append, target_append, source_map_keep, target_map_keep]
    exact congrArg (· ++ d.rest) (source_hunksFlip d.hunks)
  have htarget : target d.flip.script = d.shownSource := by
    unfold Diff.script
    rw [target_append, target_map_keep]
    exact congrArg (· ++ d.rest) (target_hunksFlip d.hunks)
  have hchanges : d.changes.map reverseChange = d.flip.changes := reverse_hunks d.hunks 1 1 1
  have h := applyDiff_changes d.flip hmatches.flip
  rw [hsource, htarget, ← hchanges] at h
  exact h

/-! ## Files -/

/-- The text of a file with these lines. -/
def fileText (newline : Newline) (lines : List Text) : Text :=
  lines.flatMap fun line => line ++ newline.chars

/-- Lines that no kind of line end divides. -/
def Undivided (lines : List Text) : Prop := ∀ line ∈ lines, '\r' ∉ line ∧ '\n' ∉ line

theorem newline_mem (newline : Newline) : '\n' ∈ newline.chars := by
  cases newline <;> decide

theorem detectNewline_fileText (newline : Newline) {lines : List Text} (hne : lines ≠ [])
    (hlines : Undivided lines) : detectNewline (fileText newline lines) = some newline := by
  obtain ⟨line, rest, rfl⟩ := List.exists_cons_of_ne_nil hne
  have hfirst : fileText newline (line :: rest)
      = line ++ newline.chars ++ fileText newline rest := List.flatMap_cons
  cases newline with
  | crlf => exact if_pos ⟨line, fileText .crlf rest, hfirst.symm⟩
  | lf =>
    have hno : '\r' ∉ fileText .lf (line :: rest) := by
      intro hmem
      obtain ⟨l, hl, hr⟩ := List.mem_flatMap.mp hmem
      rcases List.mem_append.mp hr with hr | hr
      · exact (hlines l hl).1 hr
      · exact absurd hr (by decide)
    have hcrlf : ¬ ['\r', '\n'] <:+: fileText .lf (line :: rest) :=
      fun h => hno (h.subset List.mem_cons_self)
    have hlf : '\n' ∈ fileText .lf (line :: rest) := by
      rw [hfirst]
      exact List.mem_append_left _ (List.mem_append_right _ (newline_mem .lf))
    unfold detectNewline
    rw [if_neg hcrlf, if_pos hlf]

theorem keepCrlf_append {line : Text} (hline : '\r' ∉ line) (rest : Text) :
    keepCrlf (line ++ ['\r', '\n'] ++ rest) = (line ++ ['\r', '\n']) :: keepCrlf rest := by
  induction line with
  | nil => rfl
  | cons c line ih =>
    rw [List.mem_cons, not_or] at hline
    rw [List.cons_append, List.cons_append, keepCrlf, ih hline.2]
    exact fun rest' hc => absurd hc.symm hline.1

theorem readlines_fileText (newline : Newline) {lines : List Text} (hlines : Undivided lines) :
    readlines (some newline) (fileText newline lines) = lines.map (· ++ newline.chars) := by
  cases newline with
  | crlf =>
    induction lines with
    | nil => rfl
    | cons line lines ih =>
      have hsplit := List.forall_mem_cons.mp hlines
      have hrest : keepCrlf (fileText .crlf lines) = lines.map (· ++ Newline.crlf.chars) :=
        ih hsplit.2
      show keepCrlf (line ++ ['\r', '\n'] ++ fileText .crlf lines) = _
      rw [keepCrlf_append hsplit.1.1, hrest]
      rfl
  | lf =>
    have hterminated : ∀ line ∈ lines.map (· ++ ['\n']), TextLines.Terminated '\n' line := by
      intro line hline
      obtain ⟨text, htext, rfl⟩ := List.mem_map.mp hline
      exact ⟨text, (hlines text htext).2, rfl⟩
    have h := TextLines.keepEnds_flatten_append hterminated []
    rw [List.append_nil, TextLines.keepEnds_nil, List.append_nil, ← List.flatMap_def] at h
    exact h

/-- Stripping takes off what was written behind a line. -/
theorem strip_append {p : Char → Bool} {line tail : Text} (hline : ∀ c ∈ line, p c = false)
    (htail : ∀ c ∈ tail, p c = true) : ((line ++ tail).dropWhile p).rdropWhile p = line := by
  have hfirst : (line ++ tail).dropWhile p = if line = [] then [] else line ++ tail := by
    cases line with
    | nil => exact List.dropWhile_eq_nil_iff.mpr htail
    | cons c line =>
      rw [List.cons_append, List.dropWhile_cons_of_neg]
      · rfl
      · rw [hline c List.mem_cons_self]
        exact Bool.false_ne_true
  rw [hfirst]
  by_cases hnil : line = []
  · rw [if_pos hnil, hnil]
    rfl
  · have hlast : line.reverse.dropWhile p = line.reverse := by
      cases hreverse : line.reverse with
      | nil => rfl
      | cons c rest =>
        have hc : c ∈ line := List.mem_reverse.mp (by rw [hreverse]; exact List.mem_cons_self)
        rw [List.dropWhile_cons_of_neg]
        rw [hline c hc]
        exact Bool.false_ne_true
    rw [if_neg hnil, List.rdropWhile, List.reverse_append,
      List.dropWhile_append_of_pos fun c hc => htail c (List.mem_reverse.mp hc), hlast,
      List.reverse_reverse]

theorem splitContent_fileText (newline : Newline) {lines : List Text} (hlines : Undivided lines) :
    (readlines (some newline) (fileText newline lines)).map (stripNewline (some newline))
      = lines := by
  rw [readlines_fileText newline hlines, List.map_map]
  conv_rhs => rw [← List.map_id lines]
  refine List.map_congr_left fun line hline => strip_append ?_ fun c hc => decide_eq_true hc
  intro c hc
  obtain ⟨hr, hn⟩ := hlines line hline
  have hno : ∀ d ∈ newline.chars, c ≠ d := by
    rintro d hd rfl
    cases newline with
    | crlf =>
      rcases List.mem_cons.mp hd with rfl | hd
      · exact hr hc
      · rw [List.mem_singleton.mp hd] at hc
        exact hn hc
    | lf =>
      rw [List.mem_singleton.mp hd] at hc
      exact hn hc
  exact decide_eq_false fun hd => hno c hd rfl

/-- Printed lines are the lines of the file. -/
theorem printLines_eq (newline : Newline) {lines : List Text} (hlines : ∀ line ∈ lines, '\n' ∉ line) :
    printLines (some newline) lines = fileText newline lines := by
  have hline : ∀ line ∈ lines, (line ++ ['\n']).flatMap
      (fun c => if c = '\n' then newline.chars else [c]) = line ++ newline.chars := by
    intro line hmem
    have hkeep : line.flatMap (fun c => if c = '\n' then newline.chars else [c]) = line := by
      conv_rhs => rw [← List.flatMap_singleton' line]
      refine List.flatMap_congr fun c hc => if_neg ?_
      rintro rfl
      exact hlines line hmem hc
    rw [List.flatMap_append, hkeep, List.flatMap_singleton, if_pos rfl]
  unfold printLines PyStr.unlines fileText
  rw [← List.flatMap_def, List.flatMap_assoc]
  exact List.flatMap_congr hline

/-- **A file is patched through the text of its diff**: whatever its kind of line ends, its lines
are those of the target then, with the same ends. -/
theorem patchFile_render (newline : Newline) (d : Diff) {header : List Text}
    (hheader : ∀ line ∈ header, unifiedHunkStart line = none) (hmatches : d.Matches)
    (hne : source d.script ≠ []) (hsource : Undivided (source d.script))
    (htarget : ∀ line ∈ target d.script, '\n' ∉ line) :
    patchFile (fileText newline (source d.script)) (parseUnifiedDiff (d.render header))
      = .ok (fileText newline (target d.script)) := by
  have happly := applyDiff_changes d hmatches
  rw [parseUnifiedDiff_render d hheader]
  by_cases hnil : d.changes = []
  · rw [hnil] at happly
    rw [if_pos hnil, ← Except.ok.inj happly]
    rfl
  · rw [if_neg hnil]
    unfold patchFile
    dsimp only
    rw [detectNewline_fileText newline hne hsource, splitContent_fileText newline hsource, happly]
    exact congrArg Except.ok (printLines_eq newline htarget)

/-- The second of three lines is replaced; the diff shows the first with another indentation. -/
def secondReplaced : Diff where
  hunks := [⟨[], [.context [' ', 'a'] ['a'], .removed ['b'] ['b'], .added ['c']], []⟩]
  rest := [['d']]

theorem matches_secondReplaced : secondReplaced.Matches := by
  intro hunk hhunk line hline
  rw [List.mem_singleton.mp hhunk] at hline
  have hcases : line = .context [' ', 'a'] ['a'] ∨ line = .removed ['b'] ['b']
      ∨ line = .added ['c'] := by
    simpa using hline
  rcases hcases with rfl | rfl | rfl
  · exact Or.inr (by decide)
  · exact Or.inl rfl
  · trivial

theorem applyDiff_secondReplaced :
    applyDiff secondReplaced.changes [[' ', 'a'], ['b'], ['d']] false
        = .ok [[' ', 'a'], ['c'], ['d']] ∧
      applyDiff secondReplaced.changes [[' ', 'a'], ['c'], ['d']] true
        = .ok [[' ', 'a'], ['b'], ['d']] :=
  applyDiff_both secondReplaced matches_secondReplaced

theorem patchFile_secondReplaced :
    patchFile [' ', 'a', '\r', '\n', 'b', '\r', '\n', 'd', '\r', '\n']
        (parseUnifiedDiff
          (secondReplaced.render [['-', '-', '-', ' ', 'f'], ['+', '+', '+', ' ', 'f']]))
      = .ok [' ', 'a', '\r', '\n', 'c', '\r', '\n', 'd', '\r', '\n'] :=
  patchFile_render .crlf secondReplaced (by decide) matches_secondReplaced (by decide)
    (by unfold Undivided; decide) (by decide)

end OpenHands.Patches
