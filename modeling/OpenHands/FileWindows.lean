/-
# Looking at a file through a window

`open_file`, `goto_line`, `scroll_down` and `scroll_up` (agent_skills/file_ops/file_ops.py) print
a window of a file with numbered lines.  The window lies around a line after the first two and
begins at a line after the others; near the ends of the file it is moved.

The header counts the lines that are read from the file, which end with `\n`; the numbers are those
of `splitlines`, for which other characters end a line too.
-/
import OpenHands.Lib.PyLines
import OpenHands.Lib.TextLines
import OpenHands.SameStores

namespace OpenHands.FileOps

open Stores (Path universalNewlines notMem_universalNewlines)
open PyStr (isLineBreak)

/-- `WINDOW`. -/
def WINDOW : ℤ := 100

/-- `_clamp`. -/
def clamp (value minValue maxValue : ℤ) : ℤ := max minValue (min value maxValue)

/-! ## The lines of a file -/

/-- `s.splitlines(True)`. -/
def splitlinesKeep : List Char → List (List Char)
  | [] => []
  | c :: cs =>
    if isLineBreak c ∧ ¬(c = '\r' ∧ cs.head? = some '\n') then [c] :: splitlinesKeep cs
    else
      match splitlinesKeep cs with
      | [] => [[c]]
      | line :: lines => (c :: line) :: lines

/-- `content`, with a newline at its end. -/
def ended (content : List Char) : List Char :=
  if content.getLast? = some '\n' then content else content ++ ['\n']

/-- `max(1, sum(1 for _ in file))`. -/
def headerTotal (content : List Char) : ℤ := max 1 ((TextLines.keepEnds '\n' content).length : ℤ)

/-! ## The window -/

/-- `start` and `end`. -/
structure Bounds where
  start : ℤ
  stop : ℤ
  deriving DecidableEq, Repr

/-- The bounds of the window for `CURRENT_LINE`. -/
def windowBounds (currentLine totalLines window : ℤ) (ignoreWindow : Bool) : Bounds :=
  let halfWindow := max 1 (window / 2)
  let start := if ignoreWindow then max 1 currentLine else max 1 (currentLine - halfWindow)
  let stop := if ignoreWindow then min totalLines (currentLine + window)
    else min totalLines (currentLine + halfWindow)
  let stop := if start = 1 then min totalLines (start + window - 1) else stop
  let start := if stop = totalLines then max 1 (stop - window + 1) else start
  ⟨start, stop⟩

/-- What a command prints: a header and a window of numbered lines. -/
structure View where
  file : Path
  headerTotal : ℤ
  totalLines : ℤ
  bounds : Bounds
  numbered : List (ℤ × List Char)
  hint : Bool := false
  deriving DecidableEq, Repr

/-- The numbers of the window with their lines. -/
def numberedLines (lines : List (List Char)) (bounds : Bounds) : List (ℤ × List Char) :=
  (List.range (bounds.stop + 1 - bounds.start).toNat).map fun k : ℕ =>
    (bounds.start + (k : ℤ), (lines[(bounds.start + (k : ℤ) - 1).toNat]?).getD [])

/-- `_print_window`: the new current line, and the window. -/
def printWindow (file : Path) (content : List Char) (targetedLine window : ℤ)
    (ignoreWindow : Bool) : ℤ × View :=
  let lines := splitlinesKeep (ended content)
  let totalLines : ℤ := lines.length
  let currentLine := clamp targetedLine 1 totalLines
  let bounds := windowBounds currentLine totalLines window ignoreWindow
  (currentLine, {
    file
    headerTotal := headerTotal content
    totalLines
    bounds
    numbered := numberedLines lines bounds })

/-- An integer in decimal digits. -/
def decimal (n : ℤ) : List Char := (toString n).toList

/-- The text of a window. -/
def View.window (self : View) : List Char :=
  PyStr.rstrip ((if 1 < self.bounds.start then
      '(' :: decimal (self.bounds.start - 1) ++ " more lines above)\n".toList
    else "(this is the beginning of the file)\n".toList)
    ++ (self.numbered.map fun entry => decimal entry.1 ++ '|' :: ended entry.2).flatten
    ++ (if self.bounds.stop < self.totalLines then
      '(' :: decimal (self.totalLines - self.bounds.stop) ++ " more lines below)\n".toList
    else "(this is the end of the file)\n".toList))

/-- The text that is printed. -/
def View.text (self : View) : List Char :=
  "[File: ".toList ++ self.file ++ " (".toList ++ decimal self.headerTotal
    ++ " lines total)]\n".toList ++ self.window
    ++ (if self.hint then "\n[Use `scroll_down` to view the next 100 lines of the file!]".toList
      else [])

/-! ## The commands -/

/-- `CURRENT_FILE` and `CURRENT_LINE`. -/
structure Editor where
  currentFile : Option Path := none
  currentLine : ℤ := 1
  deriving DecidableEq, Repr

/-- The file system: the text of a file by its absolute path, and `os.path.abspath`. -/
structure Files where
  text : Path → Option (List Char)
  abspath : Path → Path

/-- What is read from a file in text mode. -/
def Files.content (files : Files) (path : Path) : Option (List Char) :=
  (files.text path).map universalNewlines

/-- A command of the agent. -/
inductive Command
  | openFile (path : Path) (lineNumber contextLines : Option ℤ)
  | gotoLine (lineNumber : Option ℤ)
  | scrollDown
  | scrollUp
  deriving DecidableEq, Repr

/-- What a command prints. -/
inductive Output
  | error (message : List Char)
  | view (view : View)
  deriving DecidableEq, Repr

/-- `_output_error`. -/
def outputError (message : List Char) : Output := .error ("ERROR: ".toList ++ message)

/-- `not isinstance(line_number, int) or line_number < 1 or line_number > total_lines`, negated. -/
def validLine? (lineNumber : Option ℤ) (total : ℤ) : Option ℤ :=
  lineNumber.filter fun n => decide (1 ≤ n) && decide (n ≤ total)

/-- `open_file`. -/
def openFile (files : Files) (path : Path) (lineNumber contextLines : Option ℤ) (self : Editor) :
    Output × Editor :=
  match files.content (files.abspath path) with
  | none => (outputError ("File ".toList ++ path ++ " not found.".toList), self)
  | some content =>
    let self := { self with currentFile := some (files.abspath path) }
    let total := headerTotal content
    match validLine? lineNumber total with
    | none =>
      (outputError ("Line number must be between 1 and ".toList ++ decimal total), self)
    | some n =>
      let contextLines := (contextLines.filter fun c => decide (1 ≤ c)).getD WINDOW
      let (currentLine, view) :=
        printWindow (files.abspath path) content n (clamp contextLines 1 100) false
      -- the text of the window ends with "more lines below)"
      (.view { view with hint := decide (view.bounds.stop < view.totalLines) },
        { self with currentLine })

/-- A command on the current file. -/
def onCurrentFile (files : Files) (self : Editor)
    (command : Path → List Char → Output × Editor) : Output × Editor :=
  match self.currentFile.bind fun file => (files.content file).map fun content => (file, content) with
  | none => (outputError "No file open. Use the open_file function first.".toList, self)
  | some (file, content) => command file content

/-- `goto_line`. -/
def gotoLine (files : Files) (lineNumber : Option ℤ) (self : Editor) : Output × Editor :=
  onCurrentFile files self fun file content =>
    let total := headerTotal content
    match validLine? lineNumber total with
    | none =>
      (outputError ("Line number must be between 1 and ".toList ++ decimal total ++ ['.']), self)
    | some n =>
      let (currentLine, view) := printWindow file content (clamp n 1 total) WINDOW false
      (.view view, { self with currentLine })

/-- `scroll_down` and `scroll_up`: by a number of lines. -/
def scroll (files : Files) (by_ : ℤ) (self : Editor) : Output × Editor :=
  onCurrentFile files self fun file content =>
    let total := headerTotal content
    let (currentLine, view) :=
      printWindow file content (clamp (self.currentLine + by_) 1 total) WINDOW true
    (.view view, { self with currentLine })

/-- `scroll_down`. -/
def scrollDown (files : Files) (self : Editor) : Output × Editor := scroll files WINDOW self

/-- `scroll_up`. -/
def scrollUp (files : Files) (self : Editor) : Output × Editor := scroll files (-WINDOW) self

/-- A command. -/
def Command.perform (files : Files) (self : Editor) : Command → Output × Editor
  | .openFile path lineNumber contextLines => FileOps.openFile files path lineNumber contextLines self
  | .gotoLine lineNumber => FileOps.gotoLine files lineNumber self
  | .scrollDown => FileOps.scrollDown files self
  | .scrollUp => FileOps.scrollUp files self

/-- What a list of commands prints. -/
def outputs (files : Files) : Editor → List Command → List Output
  | _, [] => []
  | self, command :: commands =>
    (command.perform files self).1 :: outputs files (command.perform files self).2 commands

/-! ## The lines and their number -/

section Lines

variable {s content : List Char}

theorem splitlinesKeep_ne_nil : ∀ {s : List Char}, s ≠ [] → splitlinesKeep s ≠ []
  | [], h => absurd rfl h
  | c :: cs, _ => by
      unfold splitlinesKeep
      split_ifs
      · exact List.cons_ne_nil _ _
      · cases splitlinesKeep cs with
        | nil => exact List.cons_ne_nil _ _
        | cons line lines => exact List.cons_ne_nil _ _

theorem getLast?_ended (content : List Char) : (ended content).getLast? = some '\n' := by
  unfold ended
  split_ifs with h
  · exact h
  · exact List.getLast?_concat

/-- A text that ends with a newline has as many lines as there are ends of lines in it. -/
theorem length_splitlinesKeep (hcr : '\r' ∉ s) (hlast : s.getLast? = some '\n') :
    (splitlinesKeep s).length = s.countP isLineBreak := by
  induction s with
  | nil => cases hlast
  | cons c cs ih =>
      have hc : c ≠ '\r' := fun h => hcr (h ▸ List.mem_cons_self)
      have hcs : '\r' ∉ cs := fun h => hcr (List.mem_cons_of_mem _ h)
      by_cases hnil : cs = []
      · subst hnil
        have hnewline : c = '\n' := by simpa using hlast
        subst hnewline
        decide
      · have hlength := ih hcs (by rwa [List.getLast?_cons_of_ne_nil hnil] at hlast)
        unfold splitlinesKeep
        rw [List.countP_cons]
        by_cases hbreak : isLineBreak c
        · rw [if_pos ⟨hbreak, fun h => hc h.1⟩, if_pos hbreak, List.length_cons, hlength]
        · rw [if_neg fun h => hbreak h.1, if_neg hbreak, ← hlength]
          cases hlines : splitlinesKeep cs with
          | nil => exact absurd hlines (splitlinesKeep_ne_nil hnil)
          | cons line lines => rfl

/-- The lines that end with a newline alone. -/
theorem length_keepEnds (hlast : s.getLast? = some '\n') :
    (TextLines.keepEnds '\n' s).length = s.count '\n' := by
  induction s with
  | nil => cases hlast
  | cons c cs ih =>
      by_cases hnil : cs = []
      · subst hnil
        have hnewline : c = '\n' := by simpa using hlast
        subst hnewline
        rfl
      · have hlength := ih (by rwa [List.getLast?_cons_of_ne_nil hnil] at hlast)
        unfold TextLines.keepEnds
        by_cases hc : c = '\n'
        · rw [if_pos hc, List.length_cons, hlength, hc, List.count_cons_self]
        · rw [if_neg hc, List.count_cons_of_ne hc, ← hlength]
          cases hlines : TextLines.keepEnds '\n' cs with
          | nil => exact absurd (TextLines.keepEnds_eq_nil_iff.mp hlines) hnil
          | cons line lines => rfl

/-- A last line without its newline is a line as well. -/
theorem length_keepEnds_append_newline (hne : s ≠ []) (hlast : s.getLast? ≠ some '\n') :
    (TextLines.keepEnds '\n' (s ++ ['\n'])).length = (TextLines.keepEnds '\n' s).length := by
  induction s with
  | nil => exact absurd rfl hne
  | cons c cs ih =>
      by_cases hnil : cs = []
      · subst hnil
        have hc : c ≠ '\n' := fun h => hlast (by rw [h]; rfl)
        simp [TextLines.keepEnds, hc]
      · have hlength := ih hnil (by rwa [List.getLast?_cons_of_ne_nil hnil] at hlast)
        rw [List.cons_append]
        unfold TextLines.keepEnds
        by_cases hc : c = '\n'
        · rw [if_pos hc, if_pos hc, List.length_cons, List.length_cons, hlength]
        · rw [if_neg hc, if_neg hc]
          cases hlines : TextLines.keepEnds '\n' cs with
          | nil => exact absurd (TextLines.keepEnds_eq_nil_iff.mp hlines) hnil
          | cons line lines =>
              cases hlines' : TextLines.keepEnds '\n' (cs ++ ['\n']) with
              | nil =>
                  have hempty := TextLines.keepEnds_eq_nil_iff.mp hlines'
                  exact absurd (List.append_eq_nil_iff.mp hempty).1 hnil
              | cons line' lines' =>
                  rw [hlines, hlines'] at hlength
                  exact hlength

theorem headerTotal_eq (content : List Char) :
    headerTotal content = ((ended content).count '\n' : ℤ) := by
  have hcount := length_keepEnds (getLast?_ended content)
  have hpos : 0 < (ended content).count '\n' :=
    List.count_pos_iff.mpr (List.mem_of_getLast? (getLast?_ended content))
  unfold headerTotal
  by_cases hnil : content = []
  · subst hnil
    decide
  · have hlength : (TextLines.keepEnds '\n' content).length
        = (TextLines.keepEnds '\n' (ended content)).length := by
      unfold ended
      split_ifs with hlast
      · rfl
      · exact (length_keepEnds_append_newline hnil hlast).symm
    rw [hlength, hcount]
    omega

theorem totalLines_eq (hcr : '\r' ∉ content) :
    (splitlinesKeep (ended content)).length = (ended content).countP isLineBreak := by
  apply length_splitlinesKeep _ (getLast?_ended content)
  unfold ended
  split_ifs
  · exact hcr
  · intro h
    rcases List.mem_append.mp h with h | h
    · exact hcr h
    · exact absurd (List.mem_singleton.mp h) (by decide)

/-- With no other ends of lines `splitlines` and the file have the same lines. -/
theorem splitlinesKeep_eq (hcr : '\r' ∉ s) (hbreaks : ∀ c ∈ s, isLineBreak c → c = '\n') :
    splitlinesKeep s = TextLines.keepEnds '\n' s := by
  induction s with
  | nil => rfl
  | cons c cs ih =>
      have hc : c ≠ '\r' := fun h => hcr (h ▸ List.mem_cons_self)
      have hrest := ih (fun h => hcr (List.mem_cons_of_mem _ h))
        fun d hd => hbreaks d (List.mem_cons_of_mem _ hd)
      unfold splitlinesKeep TextLines.keepEnds
      rw [hrest]
      by_cases hnewline : c = '\n'
      · have hbreak : isLineBreak c := by
          rw [hnewline]
          decide
        rw [if_pos ⟨hbreak, fun h => hc h.1⟩, if_pos hnewline]
      · rw [if_neg fun h => hnewline (hbreaks c List.mem_cons_self h.1), if_neg hnewline]
        cases TextLines.keepEnds '\n' cs <;> rfl

theorem mem_ended {c : Char} : c ∈ ended content ↔ c ∈ content ∨ c = '\n' := by
  unfold ended
  split_ifs with h
  · exact ⟨Or.inl, fun hc => hc.elim id fun hc => hc ▸ List.mem_of_getLast? h⟩
  · rw [List.mem_append, List.mem_singleton]

/-- The header counts no more lines than there are, and all of them when nothing but a newline
ends a line. -/
theorem headerTotal_le (hcr : '\r' ∉ content) :
    headerTotal content ≤ ((splitlinesKeep (ended content)).length : ℤ) ∧
      (headerTotal content = ((splitlinesKeep (ended content)).length : ℤ) ↔
        ∀ c ∈ content, isLineBreak c → c = '\n') := by
  have hsub : ∀ c, (c == '\n') = true → isLineBreak c = true := by
    intro c hc
    rw [eq_of_beq hc]
    decide
  rw [headerTotal_eq, totalLines_eq hcr]
  have hle : (ended content).count '\n' ≤ (ended content).countP isLineBreak :=
    List.countP_mono_left fun c _ => hsub c
  refine ⟨Int.ofNat_le.mpr hle, ?_⟩
  rw [Int.natCast_inj]
  constructor
  · intro heq c hc hbreak
    -- with as many newlines as ends of lines there are no others
    have hsame : (ended content).filter (· == '\n') = (ended content).filter isLineBreak := by
      apply (List.monotone_filter_right (ended content) hsub).eq_of_length
      rw [← List.countP_eq_length_filter, ← List.countP_eq_length_filter]
      exact heq
    have hmem : c ∈ (ended content).filter isLineBreak :=
      List.mem_filter.mpr ⟨mem_ended.mpr (Or.inl hc), hbreak⟩
    rw [← hsame] at hmem
    exact eq_of_beq (List.mem_filter.mp hmem).2
  · intro hbreaks
    refine le_antisymm hle (List.countP_mono_left fun c hc hbreak => ?_)
    rcases mem_ended.mp hc with hc | rfl
    · exact beq_iff_eq.mpr (hbreaks c hc hbreak)
    · exact beq_self_eq_true _

end Lines

/-! ## The bounds of a window -/

section Windows

variable {line total window : ℤ}

/-- A window around a line lies in the file, and has the line unless it is one line high. -/
theorem windowBounds_around (hline : 1 ≤ line) (htotal : line ≤ total) (hwindow : 1 ≤ window) :
    1 ≤ (windowBounds line total window false).start ∧
      (windowBounds line total window false).start ≤ (windowBounds line total window false).stop ∧
      (windowBounds line total window false).stop ≤ total ∧
      ((windowBounds line total window false).start ≤ line ∧
          line ≤ (windowBounds line total window false).stop ↔
        ¬(window = 1 ∧ 2 ≤ line ∧ (line = 2 ∨ line = total - 1))) := by
  unfold windowBounds
  simp only [Bool.false_eq_true, if_false]
  split_ifs
  · omega
  · omega
  · omega
  · omega

/-- A window that begins at a line lies in the file, and has the line unless the end of the file
comes right behind the window. -/
theorem windowBounds_from (hline : 1 ≤ line) (htotal : line ≤ total) (hwindow : 1 ≤ window) :
    1 ≤ (windowBounds line total window true).start ∧
      (windowBounds line total window true).start ≤ (windowBounds line total window true).stop ∧
      (windowBounds line total window true).stop ≤ total ∧
      ((windowBounds line total window true).start ≤ line ∧
          line ≤ (windowBounds line total window true).stop ↔
        ¬(2 ≤ line ∧ line = total - window)) := by
  unfold windowBounds
  simp only [if_true]
  split_ifs
  · omega
  · omega
  · omega
  · omega

end Windows

/-! ## A file of two lines -/

def twoLines : Files := ⟨fun _ => some ['a', '\n', 'b'], id⟩

/-- The window of the second line, one line high. -/
def lastLine : View where
  file := ['/', 'f']
  headerTotal := 2
  totalLines := 2
  bounds := ⟨1, 1⟩
  numbered := [(1, ['a', '\n'])]
  hint := true

def openedLast : Editor := ⟨some ['/', 'f'], 2⟩

theorem perform_openedLast : (Command.openFile ['/', 'f'] (some 2) (some 1)).perform twoLines {}
    = (.view lastLine, openedLast) := by
  rfl

/-! ## What a command prints -/

/-- The size of the window of a command, and whether it begins at the current line. -/
def Command.windowOf : Command → ℤ × Bool
  | .openFile _ _ contextLines =>
    (clamp ((contextLines.filter fun c => decide (1 ≤ c)).getD WINDOW) 1 100, false)
  | .gotoLine _ => (WINDOW, false)
  | .scrollDown => (WINDOW, true)
  | .scrollUp => (WINDOW, true)

/-- The current line is not in the window: the window is one line high and stands at the second
line or at the last but one, or it was scrolled and ends with the file one line further down. -/
def Missed : Command → ℤ → ℤ → Prop
  | .openFile _ _ contextLines, line, total =>
    contextLines = some 1 ∧ 2 ≤ line ∧ (line = 2 ∨ line = total - 1)
  | .gotoLine _, _, _ => False
  | .scrollDown, line, total => 2 ≤ line ∧ line = total - 100
  | .scrollUp, line, total => 2 ≤ line ∧ line = total - 100

section Commands

variable {files : Files} {self self' : Editor} {command : Command} {v : View}

theorem le_clamp (value : ℤ) {lo hi : ℤ} (h : lo ≤ hi) :
    lo ≤ clamp value lo hi ∧ clamp value lo hi ≤ hi := by
  unfold clamp
  omega

/-- What the scrolling commands move by. -/
def Command.scrolledBy : Command → Option ℤ
  | .openFile _ _ _ => none
  | .gotoLine _ => none
  | .scrollDown => some WINDOW
  | .scrollUp => some (-WINDOW)

/-- A command printed a window of a file around a line, or from a line on. -/
structure Printed (files : Files) (before : Editor) (command : Command) (v : View) (after : Editor)
    (content : List Char) (target : ℤ) : Prop where
  content_eq : files.content v.file = some content
  after_eq : after = ⟨some v.file,
    (printWindow v.file content target command.windowOf.1 command.windowOf.2).1⟩
  view_eq : { v with hint := false }
    = (printWindow v.file content target command.windowOf.1 command.windowOf.2).2
  one_le : 1 ≤ target
  le_total : target ≤ headerTotal content
  of_scrolled : ∀ n, command.scrolledBy = some n → before.currentFile = some v.file ∧
    target = clamp (before.currentLine + n) 1 (headerTotal content)

theorem one_le_headerTotal (content : List Char) : 1 ≤ headerTotal content := by
  unfold headerTotal
  omega

theorem validLine?_eq_some {lineNumber : Option ℤ} {total n : ℤ}
    (h : validLine? lineNumber total = some n) : 1 ≤ n ∧ n ≤ total := by
  obtain ⟨-, hvalid⟩ := Option.filter_eq_some_iff.mp h
  simpa using hvalid

theorem onCurrentFile_view {run : Path → List Char → Output × Editor}
    (h : onCurrentFile files self run = (.view v, self')) :
    ∃ file content, self.currentFile = some file ∧ files.content file = some content ∧
      run file content = (.view v, self') := by
  unfold onCurrentFile at h
  cases hfile : self.currentFile with
  | none =>
      rw [hfile] at h
      cases h
  | some file =>
      rw [hfile, Option.bind_some] at h
      cases hcontent : files.content file with
      | none =>
          rw [hcontent] at h
          cases h
      | some content =>
          rw [hcontent] at h
          exact ⟨file, content, rfl, hcontent, h⟩

theorem scroll_view {n : ℤ} (h : scroll files n self = (.view v, self')) :
    ∃ content, self.currentFile = some v.file ∧ files.content v.file = some content ∧
      self' = ⟨some v.file, (printWindow v.file content
        (clamp (self.currentLine + n) 1 (headerTotal content)) WINDOW true).1⟩ ∧
      v = (printWindow v.file content
        (clamp (self.currentLine + n) 1 (headerTotal content)) WINDOW true).2 := by
  obtain ⟨file, content, hfile, hcontent, hrun⟩ := onCurrentFile_view h
  cases hrun
  exact ⟨content, hfile, hcontent, by rw [← hfile]; rfl, rfl⟩

/-- A command that prints a window shows lines of the file that is open then. -/
theorem exists_printed (h : command.perform files self = (.view v, self')) :
    ∃ content target, Printed files self command v self' content target := by
  cases command with
  | openFile path lineNumber contextLines =>
      change openFile files path lineNumber contextLines self = (.view v, self') at h
      unfold openFile at h
      cases hcontent : files.content (files.abspath path) with
      | none =>
          rw [hcontent] at h
          cases h
      | some content =>
          rw [hcontent] at h
          dsimp only at h
          cases hn : validLine? lineNumber (headerTotal content) with
          | none =>
              rw [hn] at h
              cases h
          | some n =>
              rw [hn] at h
              cases h
              obtain ⟨hone, hle⟩ := validLine?_eq_some hn
              exact ⟨content, n, hcontent, rfl, rfl, hone, hle, fun k hk => by cases hk⟩
  | gotoLine lineNumber =>
      obtain ⟨file, content, hfile, hcontent, hrun⟩ := onCurrentFile_view h
      dsimp only at hrun
      cases hn : validLine? lineNumber (headerTotal content) with
      | none =>
          rw [hn] at hrun
          cases hrun
      | some n =>
          rw [hn] at hrun
          cases hrun
          obtain ⟨hone, hle⟩ := le_clamp n (one_le_headerTotal content)
          exact ⟨content, clamp n 1 (headerTotal content), hcontent, by rw [hfile]; rfl, rfl, hone,
            hle, fun k hk => by cases hk⟩
  | scrollDown =>
      obtain ⟨content, hfile, hcontent, hself, hv⟩ := scroll_view h
      obtain ⟨hone, hle⟩ := le_clamp (self.currentLine + WINDOW) (one_le_headerTotal content)
      refine ⟨content, _, hcontent, hself, ?_, hone, hle, fun k hk => ?_⟩
      · rw [hv]
        rfl
      · cases hk
        exact ⟨hfile, rfl⟩
  | scrollUp =>
      obtain ⟨content, hfile, hcontent, hself, hv⟩ := scroll_view h
      obtain ⟨hone, hle⟩ := le_clamp (self.currentLine + -WINDOW) (one_le_headerTotal content)
      refine ⟨content, _, hcontent, hself, ?_, hone, hle, fun k hk => ?_⟩
      · rw [hv]
        rfl
      · cases hk
        exact ⟨hfile, rfl⟩

/-- What stands in a window: its numbers and the lines they are the numbers of. -/
theorem mem_numberedLines {lines : List (List Char)} {bounds : Bounds} (hstart : 1 ≤ bounds.start)
    (hstop : bounds.stop ≤ lines.length) {i : ℤ} {line : List Char} :
    (i, line) ∈ numberedLines lines bounds ↔
      bounds.start ≤ i ∧ i ≤ bounds.stop ∧ lines[(i - 1).toNat]? = some line := by
  unfold numberedLines
  rw [List.mem_map]
  constructor
  · rintro ⟨k, hk, heq⟩
    obtain ⟨rfl, rfl⟩ := Prod.mk.inj heq
    rw [List.mem_range] at hk
    have hlt : (bounds.start + k - 1).toNat < lines.length := by omega
    refine ⟨by omega, by omega, ?_⟩
    rw [List.getElem?_eq_getElem hlt]
    rfl
  · rintro ⟨hge, hle, hline⟩
    refine ⟨(i - bounds.start).toNat, List.mem_range.mpr (by omega), ?_⟩
    have hi : bounds.start + ((i - bounds.start).toNat : ℤ) = i := by omega
    rw [hi, hline]
    rfl

theorem notMem_content {path : Path} {content : List Char} (h : files.content path = some content) :
    '\r' ∉ content := by
  obtain ⟨text, -, rfl⟩ := Option.map_eq_some_iff.mp h
  exact notMem_universalNewlines text

/-- The bounds of the window of a command, at the line that is current then. -/
theorem Printed.bounds {content : List Char} {target : ℤ}
    (h : Printed files self command v self' content target) :
    self'.currentLine = target ∧ v.totalLines = ((splitlinesKeep (ended content)).length : ℤ) ∧
      v.headerTotal = headerTotal content ∧
      v.numbered = numberedLines (splitlinesKeep (ended content)) v.bounds ∧
      v.bounds = windowBounds target v.totalLines command.windowOf.1 command.windowOf.2 := by
  have hle := (headerTotal_le (notMem_content h.content_eq)).1
  have hone := h.one_le
  have htotal := h.le_total
  -- the line is in the file, so printing moves nothing
  have hclamp : clamp target 1 ((splitlinesKeep (ended content)).length : ℤ) = target := by
    unfold clamp
    omega
  have hv := h.view_eq
  unfold printWindow at hv
  dsimp only at hv
  rw [hclamp] at hv
  simp only [View.mk.injEq] at hv
  obtain ⟨-, hheader, hlines, hbounds, hnumbered, -⟩ := hv
  refine ⟨?_, hlines, hheader, ?_, ?_⟩
  · rw [h.after_eq]
    exact hclamp
  · rw [hbounds]
    exact hnumbered
  · rw [hlines]
    exact hbounds

/-- The window of a command lies in the file, and has the current line but in the listed cases. -/
theorem shown_iff {line total : ℤ} (hline : 1 ≤ line) (htotal : line ≤ total) (command : Command) :
    1 ≤ (windowBounds line total command.windowOf.1 command.windowOf.2).start ∧
      (windowBounds line total command.windowOf.1 command.windowOf.2).start
        ≤ (windowBounds line total command.windowOf.1 command.windowOf.2).stop ∧
      (windowBounds line total command.windowOf.1 command.windowOf.2).stop ≤ total ∧
      ((windowBounds line total command.windowOf.1 command.windowOf.2).start ≤ line ∧
          line ≤ (windowBounds line total command.windowOf.1 command.windowOf.2).stop ↔
        ¬Missed command line total) := by
  cases command with
  | openFile path lineNumber contextLines =>
      -- a window of one line is only had by asking for it
      have hone : (Command.openFile path lineNumber contextLines).windowOf.1 = 1 ↔
          contextLines = some 1 := by
        show clamp ((contextLines.filter fun c => decide (1 ≤ c)).getD WINDOW) 1 100 = 1 ↔ _
        unfold clamp
        cases contextLines with
        | none =>
            refine iff_of_false ?_ (by simp)
            decide
        | some c =>
            rw [Option.some_inj]
            by_cases hc : 1 ≤ c
            · rw [Option.filter_some, if_pos (decide_eq_true hc), Option.getD_some]
              omega
            · rw [Option.filter_some, if_neg (by simpa using hc), Option.getD_none]
              refine iff_of_false ?_ (by omega)
              decide
      have hwindow : 1 ≤ (Command.openFile path lineNumber contextLines).windowOf.1 :=
        (le_clamp _ (by omega)).1
      obtain ⟨hstart, hle, hstop, hiff⟩ := windowBounds_around hline htotal hwindow
      rw [hone] at hiff
      exact ⟨hstart, hle, hstop, hiff⟩
  | gotoLine lineNumber =>
      obtain ⟨hstart, hle, hstop, hiff⟩ := windowBounds_around hline htotal
        (show 1 ≤ WINDOW by decide)
      exact ⟨hstart, hle, hstop, hiff.trans (iff_of_true (fun h => absurd h.1 (by decide)) id)⟩
  | scrollDown => exact windowBounds_from hline htotal (by decide)
  | scrollUp => exact windowBounds_from hline htotal (by decide)

/-- Every window that a command prints, in whatever state: it lies in the file, each number in it
stands before the line that it counts, the current line is shown but in the listed cases, and the
header counts all lines when nothing but a newline ends one, which are then those of the file. -/
theorem view_spec (h : command.perform files self = (.view v, self')) :
    ∃ content, files.content v.file = some content ∧
      1 ≤ v.bounds.start ∧ v.bounds.start ≤ v.bounds.stop ∧ v.bounds.stop ≤ v.totalLines ∧
      (∀ i line, (i, line) ∈ v.numbered ↔ v.bounds.start ≤ i ∧ i ≤ v.bounds.stop ∧
        (splitlinesKeep (ended content))[(i - 1).toNat]? = some line) ∧
      (v.bounds.start ≤ self'.currentLine ∧ self'.currentLine ≤ v.bounds.stop ↔
        ¬Missed command self'.currentLine v.totalLines) ∧
      v.headerTotal ≤ v.totalLines ∧
      (v.headerTotal = v.totalLines ↔ ∀ c ∈ content, isLineBreak c → c = '\n') ∧
      (v.headerTotal = v.totalLines →
        splitlinesKeep (ended content) = TextLines.keepEnds '\n' (ended content)) := by
  obtain ⟨content, target, hprinted⟩ := exists_printed h
  obtain ⟨hcurrent, htotal, hheader, hnumbered, hbounds⟩ := hprinted.bounds
  have hcr := notMem_content hprinted.content_eq
  obtain ⟨hle, hplain⟩ := headerTotal_le hcr
  have hline : target ≤ v.totalLines := by
    rw [htotal]
    exact le_trans hprinted.le_total hle
  obtain ⟨hstart, hnonempty, hstop, hshown⟩ := shown_iff hprinted.one_le hline command
  rw [← hbounds] at hstart hnonempty hstop hshown
  refine ⟨content, hprinted.content_eq, hstart, hnonempty, hstop, ?_, ?_, ?_, ?_, ?_⟩
  · intro i line
    rw [hnumbered]
    exact mem_numberedLines hstart (htotal ▸ hstop)
  · rw [hcurrent]
    exact hshown
  · rw [hheader, htotal]
    exact hle
  · rw [hheader, htotal]
    exact hplain
  · intro heq
    rw [hheader, htotal] at heq
    have hbreaks := hplain.mp heq
    apply splitlinesKeep_eq
    · intro hmem
      exact (mem_ended.mp hmem).elim hcr (by decide)
    · intro c hc hbreak
      exact (mem_ended.mp hc).elim (fun hmem => hbreaks c hmem hbreak) id

end Commands

/-- A window of one line does not have the second of two lines. -/
theorem view_spec_lastLine : ∃ content, twoLines.content ['/', 'f'] = some content ∧
    (1 : ℤ) ≤ 1 ∧ (1 : ℤ) ≤ 1 ∧ (1 : ℤ) ≤ 2 ∧
    (∀ i line, (i, line) ∈ [((1 : ℤ), ['a', '\n'])] ↔ 1 ≤ i ∧ i ≤ 1 ∧
      (splitlinesKeep (ended content))[(i - 1).toNat]? = some line) ∧
    ((1 : ℤ) ≤ 2 ∧ (2 : ℤ) ≤ 1 ↔ ¬Missed (.openFile ['/', 'f'] (some 2) (some 1)) 2 2) ∧
    (2 : ℤ) ≤ 2 ∧ ((2 : ℤ) = 2 ↔ ∀ c ∈ content, isLineBreak c → c = '\n') ∧
    ((2 : ℤ) = 2 → splitlinesKeep (ended content) = TextLines.keepEnds '\n' (ended content)) :=
  view_spec perform_openedLast

/-! ## Scrolling through a file -/

/-- A line is in one of the windows. -/
def Displayed (outs : List Output) (i : ℤ) : Prop :=
  ∃ v, Output.view v ∈ outs ∧ v.bounds.start ≤ i ∧ i ≤ v.bounds.stop

section Scrolling

variable {files : Files} {self self' : Editor} {command : Command} {v : View} {file : Path}
  {content : List Char} {i line header total : ℤ}

theorem displayed_cons (out : Output) (outs : List Output) :
    Displayed (out :: outs) i ↔ Displayed [out] i ∨ Displayed outs i := by
  unfold Displayed
  constructor
  · rintro ⟨v, hv, hi⟩
    rcases List.mem_cons.mp hv with hv | hv
    · exact Or.inl ⟨v, hv ▸ List.mem_singleton.mpr rfl, hi⟩
    · exact Or.inr ⟨v, hv, hi⟩
  · rintro (⟨v, hv, hi⟩ | ⟨v, hv, hi⟩)
    · exact ⟨v, List.mem_singleton.mp hv ▸ List.mem_cons_self, hi⟩
    · exact ⟨v, List.mem_cons_of_mem _ hv, hi⟩

theorem displayed_view : Displayed [.view v] i ↔ v.bounds.start ≤ i ∧ i ≤ v.bounds.stop := by
  unfold Displayed
  constructor
  · rintro ⟨v', hv', hi⟩
    cases List.mem_singleton.mp hv'
    exact hi
  · exact fun hi => ⟨v, List.mem_singleton.mpr rfl, hi⟩

/-- The line at which the first window begins after a scroll from a line. -/
def firstStart (line header total : ℤ) : ℤ :=
  (windowBounds (min (line + 100) header) total 100 true).start

/-- The last line that is shown after `k` scrolls from a line. -/
def lastStop (line header total : ℤ) (k : ℕ) : ℤ :=
  (windowBounds (min (line + 100 * k) header) total 100 true).stop

/-- A window of a scroll and the next one: no line is left out between them. -/
theorem firstStart_le (hscrolled : 2 ≤ line ∨ header = 1) (hline : 1 ≤ line)
    (hheader : line ≤ header) (htotal : header ≤ total) :
    (windowBounds line total 100 true).start ≤ firstStart line header total ∧
      firstStart line header total ≤ (windowBounds line total 100 true).stop + 1 := by
  unfold firstStart windowBounds
  simp only [if_true]
  split_ifs
  all_goals omega

theorem stop_mono (total : ℤ) {line' : ℤ} (hline : 1 ≤ line) (hle : line ≤ line') :
    (windowBounds line total 100 true).stop ≤ (windowBounds line' total 100 true).stop := by
  unfold windowBounds
  simp only [if_true]
  split_ifs
  all_goals omega

/-- One scroll. -/
theorem scrollDown_view (hfile : self.currentFile = some file)
    (hcontent : files.content file = some content) (hline : 1 ≤ self.currentLine)
    (hheader : self.currentLine ≤ headerTotal content) :
    ∃ v, Command.scrollDown.perform files self = (.view v,
        ⟨some file, min (self.currentLine + 100) (headerTotal content)⟩) ∧
      v.bounds = windowBounds (min (self.currentLine + 100) (headerTotal content))
        ((splitlinesKeep (ended content)).length : ℤ) 100 true := by
  have hle := (headerTotal_le (notMem_content hcontent)).1
  have hperform : Command.scrollDown.perform files self =
      (.view (printWindow file content (clamp (self.currentLine + WINDOW) 1 (headerTotal content))
          WINDOW true).2,
        ⟨self.currentFile, (printWindow file content
          (clamp (self.currentLine + WINDOW) 1 (headerTotal content)) WINDOW true).1⟩) := by
    show scroll files WINDOW self = _
    unfold scroll onCurrentFile
    rw [hfile, Option.bind_some, hcontent]
    rfl
  have htarget : clamp (clamp (self.currentLine + WINDOW) 1 (headerTotal content)) 1
      ((splitlinesKeep (ended content)).length : ℤ)
        = min (self.currentLine + 100) (headerTotal content) := by
    unfold clamp WINDOW
    omega
  refine ⟨(printWindow file content (clamp (self.currentLine + WINDOW) 1 (headerTotal content))
    WINDOW true).2, ?_, ?_⟩
  · rw [hperform, hfile]
    unfold printWindow
    dsimp only
    rw [htarget]
  · unfold printWindow
    dsimp only
    rw [htarget]
    rfl

/-- What `k` scrolls display: all lines from the first window on, up to the end of the last one. -/
theorem displayed_scrolls (hcontent : files.content file = some content) (k : ℕ)
    (hfile : self.currentFile = some file) (hline : 1 ≤ self.currentLine)
    (hheader : self.currentLine ≤ headerTotal content) :
    Displayed (outputs files self (List.replicate k .scrollDown)) i ↔
      0 < k ∧ firstStart self.currentLine (headerTotal content)
          ((splitlinesKeep (ended content)).length : ℤ) ≤ i ∧
        i ≤ lastStop self.currentLine (headerTotal content)
          ((splitlinesKeep (ended content)).length : ℤ) k := by
  have hle := (headerTotal_le (notMem_content hcontent)).1
  unfold lastStop
  induction k generalizing self with
  | zero =>
      refine iff_of_false ?_ (fun h => absurd h.1 (lt_irrefl 0))
      rintro ⟨v, hv, -⟩
      cases hv
  | succ k ih =>
      obtain ⟨v, hperform, hbounds⟩ := scrollDown_view hfile hcontent hline hheader
      have hone : 1 ≤ min (self.currentLine + 100) (headerTotal content) := by omega
      have hrest := @ih ⟨some file, min (self.currentLine + 100) (headerTotal content)⟩ rfl hone
        (min_le_right _ _)
      dsimp only at hrest
      rw [List.replicate_succ]
      show Displayed ((Command.scrollDown.perform files self).1 ::
        outputs files (Command.scrollDown.perform files self).2 _) i ↔ _
      rw [hperform, displayed_cons, displayed_view, hbounds]
      refine (or_congr Iff.rfl hrest).trans ?_
      have hnext : min (min (self.currentLine + 100) (headerTotal content) + 100 * (k : ℤ))
          (headerTotal content)
            = min (self.currentLine + 100 * ((k + 1 : ℕ) : ℤ)) (headerTotal content) := by
        omega
      rw [hnext]
      show _ ↔ 0 < k + 1 ∧ (windowBounds (min (self.currentLine + 100) (headerTotal content)) _ 100
        true).start ≤ i ∧ _
      obtain ⟨hstart, hgap⟩ := firstStart_le (by omega) hone (min_le_right _ _) hle
      have hstop := stop_mono ((splitlinesKeep (ended content)).length : ℤ) hone (show
        min (self.currentLine + 100) (headerTotal content)
          ≤ min (self.currentLine + 100 * ((k + 1 : ℕ) : ℤ)) (headerTotal content) by omega)
      rcases Nat.eq_zero_or_pos k with rfl | hk
      · -- a single scroll
        have hlast : min (self.currentLine + 100 * ((0 + 1 : ℕ) : ℤ)) (headerTotal content)
            = min (self.currentLine + 100) (headerTotal content) := by
          omega
        rw [hlast]
        omega
      · omega

/-- What a command and `k` scrolls after it display. -/
theorem displayed_run_iff (h : command.perform files self = (.view v, self')) (k : ℕ) (i : ℤ) :
    Displayed (outputs files self (command :: List.replicate k .scrollDown)) i ↔
      v.bounds.start ≤ i ∧ i ≤ v.bounds.stop ∨
        0 < k ∧ firstStart self'.currentLine v.headerTotal v.totalLines ≤ i ∧
          i ≤ lastStop self'.currentLine v.headerTotal v.totalLines k := by
  obtain ⟨content, target, hprinted⟩ := exists_printed h
  obtain ⟨hcurrent, htotal, hheader, -, -⟩ := hprinted.bounds
  have hfile : self'.currentFile = some v.file := by rw [hprinted.after_eq]
  have hone := hprinted.one_le
  have hle := hprinted.le_total
  show Displayed ((command.perform files self).1 ::
    outputs files (command.perform files self).2 _) i ↔ _
  rw [h, displayed_cons, displayed_view, hheader, htotal]
  rw [← hcurrent] at hone hle
  exact or_congr Iff.rfl (displayed_scrolls hprinted.content_eq k hfile hone hle)

/-- **Scrolling to the end.**  From the first line of a window on all lines of the file are
displayed by `k` scrolls exactly when the window ends with the file, or the first scroll begins
right behind it at the latest and the last one reaches the end. -/
theorem all_displayed_iff (h : command.perform files self = (.view v, self')) (k : ℕ) :
    (∀ i, v.bounds.start ≤ i → i ≤ v.totalLines →
        Displayed (outputs files self (command :: List.replicate k .scrollDown)) i) ↔
      v.bounds.stop = v.totalLines ∨
        0 < k ∧ firstStart self'.currentLine v.headerTotal v.totalLines ≤ v.bounds.stop + 1 ∧
          v.totalLines ≤ lastStop self'.currentLine v.headerTotal v.totalLines k := by
  obtain ⟨content, target, hprinted⟩ := exists_printed h
  obtain ⟨hcurrent, htotal, -, -, hbounds⟩ := hprinted.bounds
  have hheader := (headerTotal_le (notMem_content hprinted.content_eq)).1
  have hline : target ≤ v.totalLines := by
    rw [htotal]
    exact le_trans hprinted.le_total hheader
  obtain ⟨-, hnonempty, hstop, -⟩ := shown_iff hprinted.one_le hline command
  rw [← hbounds] at hnonempty hstop
  simp only [displayed_run_iff h]
  constructor
  · intro hall
    by_cases hend : v.bounds.stop = v.totalLines
    · exact Or.inl hend
    · -- the line behind the window and the last line are in later windows
      have hbehind := hall (v.bounds.stop + 1) (by omega) (by omega)
      have hlast := hall v.totalLines (by omega) le_rfl
      omega
  · intro hreach i hstart hi
    omega

/-- A scroll behind a window of one line. -/
theorem all_displayed_lastLine :
    (∀ i, (1 : ℤ) ≤ i → i ≤ 2 → Displayed (outputs twoLines {}
        (.openFile ['/', 'f'] (some 2) (some 1) :: List.replicate 1 .scrollDown)) i) ↔
      (1 : ℤ) = 2 ∨ 0 < 1 ∧ firstStart 2 2 2 ≤ 1 + 1 ∧ 2 ≤ lastStop 2 2 2 1 :=
  all_displayed_iff perform_openedLast 1

/-- The first window of a file. -/
theorem openFile_view (self : Editor) {path : Path}
    (hcontent : files.content (files.abspath path) = some content) :
    ∃ v, (Command.openFile path (some 1) none).perform files self
        = (.view v, ⟨some (files.abspath path), 1⟩) ∧
      v.headerTotal = headerTotal content ∧
      v.totalLines = ((splitlinesKeep (ended content)).length : ℤ) ∧
      v.bounds = windowBounds 1 ((splitlinesKeep (ended content)).length : ℤ) 100 false := by
  have hpos := one_le_headerTotal content
  have hle := (headerTotal_le (notMem_content hcontent)).1
  have hvalid : validLine? (some 1) (headerTotal content) = some 1 := by
    unfold validLine?
    rw [Option.filter_some, if_pos]
    simpa using hpos
  have htarget : clamp 1 1 ((splitlinesKeep (ended content)).length : ℤ) = 1 := by
    unfold clamp
    omega
  have hcurrent : (printWindow (files.abspath path) content 1 100 false).1 = 1 := htarget
  have hwindow : clamp ((Option.filter (fun c : ℤ => decide (1 ≤ c)) none).getD WINDOW) 1 100
      = 100 := by
    decide
  refine ⟨{ (printWindow (files.abspath path) content 1 100 false).2 with
    hint := decide ((printWindow (files.abspath path) content 1 100 false).2.bounds.stop
      < (printWindow (files.abspath path) content 1 100 false).2.totalLines) }, ?_, rfl, rfl, ?_⟩
  · show openFile files path (some 1) none self = _
    unfold openFile
    rw [hcontent]
    dsimp only
    rw [hvalid]
    dsimp only
    rw [hwindow]
    exact congrArg (fun n => (Output.view _, (⟨some (files.abspath path), n⟩ : Editor))) hcurrent
  · unfold printWindow
    dsimp only
    rw [htarget]

theorem windowBounds_first (htotal : 1 ≤ total) :
    windowBounds 1 total 100 false = ⟨1, min total 100⟩ := by
  have hhalf : max 1 (1 - max 1 ((100 : ℤ) / 2)) = 1 := by decide
  unfold windowBounds
  simp only [Bool.false_eq_true, if_false]
  rw [hhalf, if_pos rfl]
  split_ifs
  · rw [Bounds.mk.injEq]
    omega
  · rw [Bounds.mk.injEq]
    omega

theorem firstStart_first (htotal : 101 ≤ total) :
    firstStart 1 total total = if total ≤ 201 then total - 99 else 101 := by
  unfold firstStart windowBounds
  simp only [if_true]
  split_ifs
  all_goals omega

theorem lastStop_first {k : ℕ} (hk : 0 < k) (htotal : 101 ≤ total) :
    lastStop 1 total total k = min total (100 * k + 101) := by
  unfold lastStop windowBounds
  simp only [if_true]
  split_ifs
  all_goals omega

/-- **Reading a file from its first line on.**  A file in which nothing but a newline ends a line is
displayed completely by `open_file` and `k` scrolls if they reach its end, unless it has 201 lines:
then line 101 is passed over. -/
theorem open_scroll_iff {path : Path} (hcontent : files.content (files.abspath path) = some content)
    (hbreaks : ∀ c ∈ content, isLineBreak c → c = '\n') (k : ℕ) :
    ((∀ i, 1 ≤ i → i ≤ headerTotal content → Displayed (outputs files self
        (.openFile path (some 1) none :: List.replicate k .scrollDown)) i) ↔
      headerTotal content ≤ 100 ∨
        0 < k ∧ headerTotal content ≤ 100 * k + 101 ∧ headerTotal content ≠ 201) ∧
    (headerTotal content = 201 → ¬ Displayed (outputs files self
        (.openFile path (some 1) none :: List.replicate k .scrollDown)) 101) := by
  have htotal := (headerTotal_le (notMem_content hcontent)).2.mpr hbreaks
  have hpos := one_le_headerTotal content
  obtain ⟨v, hopen, hheader, hlines, hbounds⟩ := openFile_view self hcontent
  rw [← htotal] at hlines hbounds
  rw [windowBounds_first hpos] at hbounds
  simp only [displayed_run_iff hopen, hheader, hlines, hbounds]
  constructor
  swap
  · -- the first window ends with line 100, and the next one begins with line 102
    intro htwo hline
    rw [firstStart_first (by omega), htwo, if_pos le_rfl] at hline
    omega
  by_cases hshort : headerTotal content ≤ 100
  · exact iff_of_true (fun i hi hle => Or.inl ⟨hi, le_min hle (le_trans hle hshort)⟩) (Or.inl hshort)
  · rcases Nat.eq_zero_or_pos k with rfl | hk
    · -- no scroll: line 101 is not displayed
      refine iff_of_false (fun hall => ?_) (by omega)
      have hbehind := hall 101 (by omega) (by omega)
      omega
    · rw [firstStart_first (by omega), lastStop_first hk (by omega)]
      constructor
      · intro hall
        have hbehind := hall 101 (by omega) (by omega)
        have hlast := hall (headerTotal content) hpos le_rfl
        split_ifs at hbehind hlast
        · omega
        · omega
      · intro hreach i hi hle
        split_ifs
        · omega
        · omega

end Scrolling

/-- A file of empty lines. -/
def emptyLines (n : ℕ) : Files := ⟨fun _ => some (List.replicate n '\n'), id⟩

theorem content_emptyLines (n : ℕ) (path : Path) :
    (emptyLines n).content path = some (List.replicate n '\n') := by
  have hcr : '\r' ∉ List.replicate n '\n' :=
    fun h => absurd (List.eq_of_mem_replicate h) (by decide)
  exact congrArg some (Stores.universalNewlines_eq_iff.mpr hcr)

theorem headerTotal_replicate {n : ℕ} (hn : 1 ≤ n) : headerTotal (List.replicate n '\n') = n := by
  have hlast : (List.replicate n '\n').getLast? = some '\n' := by
    rw [List.getLast?_replicate, if_neg (by omega)]
  unfold headerTotal
  rw [length_keepEnds hlast, List.count_replicate_self]
  omega

/-- One scroll shows the rest of 150 lines, and three scrolls do not show line 101 of 201. -/
theorem open_scroll_emptyLines :
    (∀ i, 1 ≤ i → i ≤ 150 → Displayed (outputs (emptyLines 150) {}
        (.openFile ['/', 'f'] (some 1) none :: List.replicate 1 .scrollDown)) i) ∧
      ¬ Displayed (outputs (emptyLines 201) {}
        (.openFile ['/', 'f'] (some 1) none :: List.replicate 3 .scrollDown)) 101 := by
  have hbreaks : ∀ n : ℕ, ∀ c ∈ List.replicate n '\n', isLineBreak c → c = '\n' :=
    fun _ _ hc _ => List.eq_of_mem_replicate hc
  constructor
  · have htotal : headerTotal (List.replicate 150 '\n') = 150 := headerTotal_replicate (by decide)
    rw [← htotal]
    exact (open_scroll_iff (content_emptyLines 150 _) (hbreaks 150) 1).1.mpr (by omega)
  · exact (open_scroll_iff (content_emptyLines 201 _) (hbreaks 201) 3).2
      (headerTotal_replicate (by decide))

end OpenHands.FileOps
