/-
# Patches of the resolver

The resolver hands its work on as a unified diff.  `parse_unified_diff` (resolver/patching/patch.py)
numbers the lines of every hunk from the numbers in its first line, and `apply_diff` (apply.py)
compares the source with what the hunks show of it and edits the lines in place.  `apply_patch`
(send_pull_request.py) does so for a file and keeps its kind of line ends.
-/
import OpenHands.FileStores
import OpenHands.Lib.EditScripts
import OpenHands.Lib.PyLines
import OpenHands.Lib.PyRe
import OpenHands.Lib.PySeq
import OpenHands.Lib.TextLines

namespace OpenHands.Patches

open PyRe

abbrev Text := List Char

/-- `Change`, of a unified diff: the numbers of the line before and after. -/
structure Change where
  old : Option ℕ
  new : Option ℕ
  line : Text
  hunk : ℕ
  deriving DecidableEq

/-! ## Parsing -/

/-- `split_by_regex`: the items before the first match, and those from each match on. -/
def splitByRegex {α : Type} (matches_ : α → Bool) : List α → List (List α)
  | [] => [[]]
  | item :: items =>
    match splitByRegex matches_ items with
    | [] => [[item]]
    | first :: rest =>
      if matches_ item then [] :: (item :: first) :: rest else (item :: first) :: rest

/-- What the first line of a hunk says. -/
structure HunkStart where
  old : ℕ
  oldLen : ℕ
  new : ℕ
  newLen : ℕ

/-- `(\d+),?(\d*)`: no shorter match of the digits helps what follows.  Without a second number
the length is 1. -/
def hunkRange (s : Text) : Option (ℕ × ℕ × Text) :=
  (run Char.isDigit s).map fun (start, rest) =>
    let rest := (afterLiteral [','] rest).getD rest
    let len := rest.takeWhile Char.isDigit
    (Nat.ofDigitChars 10 start 0, if len = [] then 1 else Nat.ofDigitChars 10 len 0,
      rest.dropWhile Char.isDigit)

/-- `unified_hunk_start`, `^@@ -(\d+),?(\d*) \+(\d+),?(\d*) @@(.*)$`. -/
def unifiedHunkStart (line : Text) : Option HunkStart := do
  let rest ← afterLiteral ['@', '@', ' ', '-'] line
  let (old, oldLen, rest) ← hunkRange rest
  let rest ← afterLiteral [' ', '+'] rest
  let (new, newLen, rest) ← hunkRange rest
  let _ ← afterLiteral [' ', '@', '@'] rest
  return ⟨old, oldLen, new, newLen⟩

/-- The lines of a hunk: `r` of the old and `i` of the new lines have been read. -/
def parseLines (h : HunkStart) (hunkN : ℕ) : ℕ → ℕ → List Text → List Change
  | _, _, [] => []
  | r, i, n :: rest =>
    -- An empty line is a line of context.
    let kind := n.headD ' '
    let line := n.tail
    if kind = '-' ∧ (r ≠ h.oldLen ∨ r = 0) then
      ⟨some (h.old + r), none, line, hunkN⟩ :: parseLines h hunkN (r + 1) i rest
    else if kind = '+' ∧ (i ≠ h.newLen ∨ i = 0) then
      ⟨none, some (h.new + i), line, hunkN⟩ :: parseLines h hunkN r (i + 1) rest
    else if kind = ' ' then
      ⟨some (h.old + r), some (h.new + i), line, hunkN⟩
        :: parseLines h hunkN (r + 1) (i + 1) rest
    else parseLines h hunkN r i rest

/-- One round of the loop over the hunks: the lines up to the first one of the hunk are dropped. -/
def parseHunk (hunkN : ℕ) : List Text → List Change
  | [] => []
  | line :: hunk =>
    match unifiedHunkStart line with
    | some h => parseLines h hunkN 0 0 hunk
    | none => parseHunk hunkN hunk

/-- `parse_unified_diff`. -/
def parseUnifiedDiff (lines : List Text) : Option (List Change) :=
  let hunks := splitByRegex (fun line => (unifiedHunkStart line).isSome) lines
  let changes := (hunks.mapIdx parseHunk).flatten
  if changes = [] then none else some changes

/-! ## Applying -/

/-- What `apply_diff` raises. -/
inductive ApplyError where
  | hunkApplyException (message : Text) (hunk : ℕ)
  | indexError
  deriving DecidableEq

/-- `' '.join(line.split())`. -/
def normalized (line : Text) : Text := [' '].intercalate (PyStr.words line)

/-- The comparison of the source with a line of the diff. -/
def checkChange (lines : List Text) (c : Change) : Except ApplyError Unit :=
  match c.old with
  | none => .ok ()
  | some old =>
    if lines.length < old then
      .error (.hunkApplyException ("context line ".toList ++ Nat.toDigits 10 old ++ ", \"".toList
        ++ c.line ++ "\" does not exist in source".toList) c.hunk)
    else
      match PySeq.item? lines ((old : ℤ) - 1) with
      | none => .error .indexError
      | some source =>
        if source ≠ c.line ∧ normalized c.line ≠ normalized source then
          .error (.hunkApplyException ("context line ".toList ++ Nat.toDigits 10 old
            ++ ", \"".toList ++ c.line ++ "\" does not match \"".toList ++ source
            ++ "\"".toList) c.hunk)
        else .ok ()

/-- `del lines[i]`; `none` where Python raises `IndexError`. -/
def deleteItem (lines : List Text) (i : ℤ) : Option (List Text) :=
  if i < 0 then
    if i + lines.length < 0 then none else some (lines.eraseIdx (i + lines.length).toNat)
  else if i < lines.length then some (lines.eraseIdx i.toNat)
  else none

/-- The lines, and how many have been deleted and inserted. -/
structure Edited where
  lines : List Text
  r : ℕ
  i : ℕ

/-- One change. -/
def applyChange (s : Edited) (c : Change) : Except ApplyError Edited :=
  match c.old, c.new with
  | some old, none =>
    match deleteItem s.lines ((old : ℤ) - 1 - s.r + s.i) with
    | some lines => .ok { s with lines, r := s.r + 1 }
    | none => .error .indexError
  | none, some new =>
    .ok { s with lines := PySeq.insert s.lines ((new : ℤ) - 1) c.line, i := s.i + 1 }
  | _, _ => .ok s

/-- `_reverse`. -/
def reverseChange (c : Change) : Change := { c with old := c.new, new := c.old }

/-- `apply_diff`, without the `patch` program. -/
def applyDiff (changes : List Change) (text : List Text) (reverse : Bool) :
    Except ApplyError (List Text) := do
  let changes := if reverse then changes.map reverseChange else changes
  changes.forM (checkChange text)
  let edited ← changes.foldlM applyChange ⟨text, 0, 0⟩
  return edited.lines

/-! ## Files -/

/-- The line ends that are found in a file. -/
inductive Newline where
  | crlf | lf
  deriving DecidableEq

def Newline.chars : Newline → Text
  | .crlf => ['\r', '\n']
  | .lf => ['\n']

/-- `newline`; `None` if there is no line end. -/
def detectNewline (content : Text) : Option Newline :=
  if ['\r', '\n'] <:+: content then some .crlf
  else if '\n' ∈ content then some .lf
  else none

/-- The lines of a text up to each `\r\n`. -/
def keepCrlf : Text → List Text
  | [] => []
  | '\r' :: '\n' :: rest => ['\r', '\n'] :: keepCrlf rest
  | c :: rest =>
    match keepCrlf rest with
    | [] => [[c]]
    | line :: lines => (c :: line) :: lines

/-- `readlines` of a file that is opened with this `newline`. -/
def readlines (newline : Option Newline) (content : Text) : List Text :=
  match newline with
  | some .crlf => keepCrlf content
  | some .lf => TextLines.keepEnds '\n' content
  | none => TextLines.keepEnds '\n' (Stores.universalNewlines content)

/-- `x.strip(newline)`: the characters of the line end, and whitespace if there is none. -/
def stripNewline (newline : Option Newline) (line : Text) : Text :=
  match newline with
  | some newline => (line.dropWhile (· ∈ newline.chars)).rdropWhile (· ∈ newline.chars)
  | none => PyStr.strip line

/-- What `print(line, file=f)` writes for every line: each `\n` becomes the line end. -/
def printLines (newline : Option Newline) (lines : List Text) : Text :=
  (PyStr.unlines lines).flatMap fun c =>
    if c = '\n' then (newline.getD .lf).chars else [c]

/-- What `apply_patch` leaves of a file, for a diff that neither deletes nor renames it. -/
def patchFile (content : Text) (changes : Option (List Change)) : Except ApplyError Text :=
  match changes with
  | none => .ok content
  | some changes => do
    let newline := detectNewline content
    let splitContent := (readlines newline content).map (stripNewline newline)
    let newContent ← applyDiff changes splitContent false
    return printLines newline newContent

end OpenHands.Patches
