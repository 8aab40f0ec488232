/-
# Changes in a working tree

`get_changes_in_repo` reads the lines of `git diff --name-status` and of `git ls-files`, and
`get_git_changes` puts together what it gives for a directory and for the repositories in it.
The lines are cut at whitespace where git separates with tabs, and the repositories are told
apart by the beginnings of paths.
-/
import Mathlib
import OpenHands.Lib.Fallible
import OpenHands.Lib.PyLines

namespace OpenHands.GitChanges

open Fallible PyStr

abbrev Text := List Char

/-! ## What git knows -/

/-- A file name as git prints it: one with a tab or a newline is quoted. -/
structure Name where
  text : Text
  ne_nil : text ≠ []
  noTab : '\t' ∉ text
  noNewline : '\n' ∉ text

/-- The letters of `git diff --name-status` that come without a score. -/
inductive Status
  | added
  | deleted
  | modified
  | typeChanged
  | unmerged
  | unknown

def Status.letter : Status → Char
  | .added => 'A'
  | .deleted => 'D'
  | .modified => 'M'
  | .typeChanged => 'T'
  | .unmerged => 'U'
  | .unknown => 'X'

inductive DiffEntry
  | changed (status : Status) (path : Name)
  | renamed (score : ℕ) (oldPath newPath : Name)
  | copied (score : ℕ) (oldPath newPath : Name)

/-- A similarity in at least three digits. -/
def scoreText (score : ℕ) : Text :=
  List.replicate (3 - (Nat.toDigits 10 score).length) '0' ++ Nat.toDigits 10 score

def DiffEntry.status : DiffEntry → Text
  | .changed status _ => [status.letter]
  | .renamed score _ _ => 'R' :: scoreText score
  | .copied score _ _ => 'C' :: scoreText score

def DiffEntry.paths : DiffEntry → List Name
  | .changed _ path => [path]
  | .renamed _ oldPath newPath | .copied _ oldPath newPath => [oldPath, newPath]

/-- A line of `git diff --name-status`: the fields are separated by tabs. -/
def DiffEntry.line (entry : DiffEntry) : Text :=
  entry.status ++ (entry.paths.map fun path => '\t' :: path.text).flatten

/-- A repository: its differences to the reference and its untracked files.  A reference is
always found, the empty tree in any case. -/
structure Repo where
  diff : List DiffEntry
  untracked : List Name

/-! ## The changes -/

structure Change where
  status : Text
  path : Text
  deriving DecidableEq

inductive Error
  /-- `error_running_cmd:{returncode}:{content}`. -/
  | errorRunningCmd (returncode : ℤ) (content : Text)
  /-- `unexpected_value_in_git_diff:{changed_files}`. -/
  | unexpectedValueInGitDiff (changedFiles : List Text)
  /-- `unexpected_status_in_git_diff:{changed_files}`. -/
  | unexpectedStatusInGitDiff (changedFiles : List Text)
  deriving DecidableEq

/-- `subprocess.CompletedProcess`. -/
structure CompletedProcess where
  returncode : ℤ
  stdout : Text
  stderr : Text

/-- `run`, when the command has run. -/
def run (result : CompletedProcess) : Except Error Text :=
  let byteContent := if result.stderr ≠ [] then result.stderr else result.stdout
  if result.returncode ≠ 0 then .error (.errorRunningCmd result.returncode byteContent)
  else .ok (strip byteContent)

/-- `git --no-pager diff --name-status {ref}`. -/
def Repo.gitDiff (repo : Repo) : CompletedProcess :=
  ⟨0, unlines (repo.diff.map DiffEntry.line), []⟩

/-- `git --no-pager ls-files --others --exclude-standard`. -/
def Repo.gitLsFiles (repo : Repo) : CompletedProcess :=
  ⟨0, unlines (repo.untracked.map Name.text), []⟩

/-- The changes that the parts of a line stand for. -/
def partsChanges (changedFiles : List Text) : List Text → Except Error (List Change)
  | [first, second, third] =>
    let status := strip first
    if "R".toList <+: status then
      .ok [⟨"D".toList, strip second⟩, ⟨"A".toList, strip third⟩]
    else if "C".toList <+: status then .ok [⟨"A".toList, strip third⟩]
    else .error (.unexpectedValueInGitDiff changedFiles)
  | [first, second] =>
    let status := strip first
    let path := strip second
    let status :=
      if status = "??".toList then "A".toList
      else if status = "*".toList then "M".toList
      else status
    if status = "M".toList ∨ status = "A".toList ∨ status = "D".toList ∨ status = "U".toList then
      .ok [⟨status, path⟩]
    else .error (.unexpectedStatusInGitDiff changedFiles)
  -- Fewer than two parts, or too many.
  | _ => .error (.unexpectedValueInGitDiff changedFiles)

/-- The changes that a line of the differences stands for. -/
def lineChanges (changedFiles : List Text) (line : Text) : Except Error (List Change) :=
  if strip line = [] then .error (.unexpectedValueInGitDiff changedFiles)
  else partsChanges changedFiles (words line)

/-- `get_changes_in_repo`; a directory that is no repository has no reference. -/
def getChangesInRepo : Option Repo → Except Error (List Change)
  | none => .ok []
  | some repo => do
    let changedFiles := splitlines (← run repo.gitDiff)
    let changes ← changedFiles.mapM (lineChanges changedFiles)
    let untrackedFiles := splitlines (← run repo.gitLsFiles)
    return changes.flatten ++
      (untrackedFiles.filter (· ≠ [])).map fun path => ⟨"A".toList, path⟩

/-- A directory with the repositories that are directly in it (the set `git_dirs`, in the order
of an iteration). -/
structure Workspace where
  root : Option Repo
  gitDirs : List (Text × Option Repo)

def underDir (gitDir : Text) (change : Change) : Change :=
  { change with path := gitDir ++ '/' :: change.path }

/-- `get_git_changes`. -/
def getGitChanges (workspace : Workspace) : Except Error (List Change) := do
  let changes ← getChangesInRepo workspace.root
  -- `next(iter(git_dir for git_dir in git_dirs if change['path'].startswith(git_dir)), None)`
  let changes := changes.filter fun change =>
    (workspace.gitDirs.find? fun gitDir => gitDir.1 <+: change.path).isNone
  let nested ← workspace.gitDirs.mapM fun gitDir => do
    let gitDirChanges ← getChangesInRepo gitDir.2
    return gitDirChanges.map (underDir gitDir.1)
  return (changes ++ nested.flatten).insertionSort fun c d => c.path ≤ d.path

/-! ## What the changes are -/

/-- A rename takes a file away and adds one; a copy adds one. -/
def DiffEntry.changes : DiffEntry → List Change
  | .changed status path => [⟨[status.letter], path.text⟩]
  | .renamed _ oldPath newPath => [⟨"D".toList, oldPath.text⟩, ⟨"A".toList, newPath.text⟩]
  | .copied _ _ newPath => [⟨"A".toList, newPath.text⟩]

def Repo.changes (repo : Repo) : List Change :=
  (repo.diff.map DiffEntry.changes).flatten ++
    repo.untracked.map fun path => ⟨"A".toList, path.text⟩

/-- The changes in a directory that may be a repository. -/
def changesOf : Option Repo → List Change
  | none => []
  | some repo => repo.changes

/-- A path is a directory or lies in it. -/
def Inside (dir path : Text) : Prop := path = dir ∨ dir ++ ['/'] <+: path

instance (dir path : Text) : Decidable (Inside dir path) :=
  inferInstanceAs (Decidable (_ ∨ _))

namespace Workspace

variable (workspace : Workspace)

def repos : List (Option Repo) := workspace.root :: workspace.gitDirs.map Prod.snd

/-- The path lies in one of the repositories of the workspace. -/
def Nested (path : Text) : Prop := ∃ gitDir ∈ workspace.gitDirs, Inside gitDir.1 path

instance (path : Text) : Decidable (workspace.Nested path) :=
  inferInstanceAs (Decidable (∃ gitDir ∈ _, _))

/-- The changes outside of the nested repositories, and theirs. -/
def changes : List Change :=
  (changesOf workspace.root).filter (fun change => ¬ workspace.Nested change.path) ++
    (workspace.gitDirs.map fun gitDir => (changesOf gitDir.2).map (underDir gitDir.1)).flatten

/-- Every repository gives its changes, and the workspace gives them all, up to the order. -/
structure Exact : Prop where
  repos : ∀ repo ∈ workspace.repos, getChangesInRepo repo = .ok (changesOf repo)
  all : ∃ changes, getGitChanges workspace = .ok changes ∧ changes.Perm workspace.changes

end Workspace

/-! ## Where they are found -/

/-- A name without whitespace. -/
def Name.Visible (path : Name) : Prop := ∀ c ∈ path.text, isSpace c = false

/-- The status is one that the loop knows, and the paths of the changes have no whitespace.  The
old path of a copy is not among them: it may have whitespace in front or behind. -/
def DiffEntry.Plain : DiffEntry → Prop
  | .changed status path => status ≠ .typeChanged ∧ status ≠ .unknown ∧ path.Visible
  | .renamed _ oldPath newPath => oldPath.Visible ∧ newPath.Visible
  | .copied _ oldPath newPath =>
    (∀ c ∈ oldPath.text, isLineBreak c = false) ∧ (words oldPath.text).length = 1 ∧
      newPath.Visible

/-- The names have no line breaks, the first does not begin with whitespace and the last does
not end with it. -/
structure PlainNames (names : List Name) : Prop where
  breaks : ∀ path ∈ names, ∀ c ∈ path.text, isLineBreak c = false
  first : ∀ path ∈ names.head?, ∀ c ∈ path.text.head?, isSpace c = false
  last : ∀ path ∈ names.getLast?, ∀ c ∈ path.text.getLast?, isSpace c = false

structure Repo.Plain (repo : Repo) : Prop where
  diff : ∀ entry ∈ repo.diff, entry.Plain
  untracked : PlainNames repo.untracked

structure Workspace.Plain (workspace : Workspace) : Prop where
  repos : ∀ repo, some repo ∈ workspace.repos → repo.Plain
  /-- No change outside of the nested repositories has a path that begins like one of them. -/
  apart : ∀ change ∈ changesOf workspace.root, ∀ gitDir ∈ workspace.gitDirs,
    gitDir.1 <+: change.path → workspace.Nested change.path

/-! ## Lines of the differences -/

variable {entry : DiffEntry} {changedFiles : List Text} {line rest : Text}

theorem isSpace_of_mem_scoreText (score : ℕ) : ∀ c ∈ scoreText score, isSpace c = false := by
  intro c hc
  rcases List.mem_append.mp hc with hc | hc
  · rw [List.eq_of_mem_replicate hc]
    decide
  · exact isSpace_of_isDigit (Nat.isDigit_of_mem_toDigits (by decide) (by decide) hc)

theorem isSpace_letter (status : Status) : isSpace status.letter = false := by
  cases status <;> decide

theorem isSpace_of_mem_status (entry : DiffEntry) : ∀ c ∈ entry.status, isSpace c = false := by
  cases entry with
  | changed status path => exact List.forall_mem_singleton.mpr (isSpace_letter status)
  | renamed score oldPath newPath =>
    exact List.forall_mem_cons.mpr ⟨by decide, isSpace_of_mem_scoreText score⟩
  | copied score oldPath newPath =>
    exact List.forall_mem_cons.mpr ⟨by decide, isSpace_of_mem_scoreText score⟩

theorem status_ne_nil (entry : DiffEntry) : entry.status ≠ [] := by
  cases entry <;> exact List.cons_ne_nil _ _

/-- The status is the first word of a line. -/
theorem words_status_append (entry : DiffEntry) (hrest : ∀ c ∈ rest.head?, isSpace c) :
    words (entry.status ++ rest) = entry.status :: words rest := by
  rw [words_append _ hrest, words_of_forall (status_ne_nil entry) (isSpace_of_mem_status entry),
    List.singleton_append]

theorem strip_status_append_ne_nil (entry : DiffEntry) (rest : Text) :
    strip (entry.status ++ rest) ≠ [] := by
  intro h
  have hink := ink_strip (entry.status ++ rest)
  rw [h, ink_append] at hink
  have hblank : ink entry.status = [] := (List.append_eq_nil_iff.mp hink.symm).1
  obtain ⟨c, status, hstatus⟩ := List.exists_cons_of_ne_nil (status_ne_nil entry)
  have hc := isSpace_of_mem_status entry c (by rw [hstatus]; exact List.mem_cons_self)
  rw [ink_eq_nil_iff.mp hblank c (by rw [hstatus]; exact List.mem_cons_self)] at hc
  cases hc

theorem lineChanges_status (entry : DiffEntry) (hrest : ∀ c ∈ rest.head?, isSpace c) :
    lineChanges changedFiles (entry.status ++ rest)
      = partsChanges changedFiles (entry.status :: words rest) := by
  rw [lineChanges, if_neg (strip_status_append_ne_nil entry rest), words_status_append entry hrest]

/-- A line that gives changes gives one at least, and their paths are words. -/
theorem lineChanges_paths {changes : List Change}
    (h : lineChanges changedFiles line = .ok changes) :
    changes ≠ [] ∧ ∀ change ∈ changes, ∀ c ∈ change.path, isSpace c = false := by
  have hword : ∀ word ∈ words line, ∀ c ∈ strip word, isSpace c = false := by
    intro word hmem
    rw [strip_of_forall (isSpace_of_mem_words hmem)]
    exact isSpace_of_mem_words hmem
  unfold lineChanges at h
  split_ifs at h
  generalize words line = parts at h hword
  match parts with
  | [] => cases h
  | [first] => cases h
  | [first, second] =>
    have hsecond := hword second (by simp)
    simp only [partsChanges] at h
    split_ifs at h
    all_goals
      cases h
      exact ⟨List.cons_ne_nil _ _, List.forall_mem_singleton.mpr hsecond⟩
  | [first, second, third] =>
    have hsecond := hword second (by simp)
    have hthird := hword third (by simp)
    simp only [partsChanges] at h
    split_ifs at h
    · cases h
      refine ⟨List.cons_ne_nil _ _, ?_⟩
      exact List.forall_mem_cons.mpr ⟨hsecond, List.forall_mem_singleton.mpr hthird⟩
    · cases h
      exact ⟨List.cons_ne_nil _ _, List.forall_mem_singleton.mpr hthird⟩
  | first :: second :: third :: fourth :: parts => cases h

/-- Parts that begin with the status and give changes at all have as many paths as the entry,
and give as many changes. -/
theorem length_of_partsChanges {parts : List Text} {changes : List Change}
    (h : partsChanges changedFiles (entry.status :: parts) = .ok changes) :
    (entry.status ≠ "T".toList ∧ entry.status ≠ "X".toList) ∧
      changes.length = entry.changes.length ∧ parts.length = entry.paths.length := by
  have hstatus := strip_of_forall (isSpace_of_mem_status entry)
  match parts with
  | [] => cases h
  | [second] =>
    simp only [partsChanges, hstatus] at h
    cases entry with
    | changed status path =>
      cases status <;> simp [DiffEntry.status, Status.letter] at h
      all_goals
        subst h
        exact ⟨by simp [DiffEntry.status, Status.letter], rfl, rfl⟩
    | renamed score oldPath newPath => simp [DiffEntry.status] at h
    | copied score oldPath newPath => simp [DiffEntry.status] at h
  | [second, third] =>
    simp only [partsChanges, hstatus] at h
    cases entry with
    | changed status path => cases status <;> simp [DiffEntry.status, Status.letter] at h
    | renamed score oldPath newPath =>
      simp [DiffEntry.status] at h
      subst h
      exact ⟨by simp [DiffEntry.status], rfl, rfl⟩
    | copied score oldPath newPath =>
      simp [DiffEntry.status] at h
      subst h
      exact ⟨by simp [DiffEntry.status], rfl, rfl⟩
  | second :: third :: fourth :: parts => cases h

/-! ## The line of an entry -/

/-- The fields of a line behind the status. -/
def fields (paths : List Name) : Text := (paths.map fun path => '\t' :: path.text).flatten

theorem head?_fields (paths : List Name) : ∀ c ∈ (fields paths).head?, isSpace c := by
  intro c hc
  cases paths with
  | nil => cases hc
  | cons path paths =>
    cases hc
    decide

theorem words_fields (paths : List Name) :
    words (fields paths) = (paths.map fun path => words path.text).flatten := by
  induction paths with
  | nil => simp [fields, words]
  | cons path paths ih =>
    have hfields : fields (path :: paths) = '\t' :: (path.text ++ fields paths) := rfl
    rw [hfields, words_cons_space (by decide), words_append _ (head?_fields paths), ih]
    rfl

/-- The path that a line ends with. -/
def DiffEntry.newPath : DiffEntry → Name
  | .changed _ path => path
  | .renamed _ _ newPath | .copied _ _ newPath => newPath

theorem isSpace_of_getLast?_line (h : entry.newPath.Visible) :
    ∀ c ∈ entry.line.getLast?, isSpace c = false := by
  obtain ⟨front, hline⟩ : ∃ front, entry.line = front ++ entry.newPath.text := by
    cases entry with
    | changed status path =>
      refine ⟨[status.letter, '\t'], ?_⟩
      simp [DiffEntry.line, DiffEntry.status, DiffEntry.paths, DiffEntry.newPath]
    | renamed score oldPath newPath =>
      refine ⟨'R' :: scoreText score ++ '\t' :: oldPath.text ++ ['\t'], ?_⟩
      simp [DiffEntry.line, DiffEntry.status, DiffEntry.paths, DiffEntry.newPath]
    | copied score oldPath newPath =>
      refine ⟨'C' :: scoreText score ++ '\t' :: oldPath.text ++ ['\t'], ?_⟩
      simp [DiffEntry.line, DiffEntry.status, DiffEntry.paths, DiffEntry.newPath]
  intro c hc
  rw [hline, List.getLast?_append_of_ne_nil _ entry.newPath.ne_nil] at hc
  exact h c (List.mem_of_getLast? hc)

theorem words_of_visible {path : Name} (h : path.Visible) : words path.text = [path.text] :=
  words_of_forall path.ne_nil h

/-- The line of an entry without whitespace in its paths gives its changes. -/
theorem lineChanges_line (h : entry.Plain) :
    lineChanges changedFiles entry.line = .ok entry.changes := by
  have hline : entry.line = entry.status ++ fields entry.paths := rfl
  have hstatus := strip_of_forall (isSpace_of_mem_status entry)
  rw [hline, lineChanges_status entry (head?_fields _), words_fields]
  cases entry with
  | changed status path =>
    obtain ⟨htype, hunknown, hpath⟩ := h
    simp only [DiffEntry.paths, List.map_cons, List.map_nil, List.flatten_cons, List.flatten_nil,
      words_of_visible hpath, List.append_nil, partsChanges, hstatus, strip_of_forall hpath]
    cases status with
    | added => rfl
    | deleted => rfl
    | modified => rfl
    | typeChanged => exact absurd rfl htype
    | unmerged => rfl
    | unknown => exact absurd rfl hunknown
  | renamed score oldPath newPath =>
    obtain ⟨hold, hnew⟩ := h
    simp only [DiffEntry.paths, List.map_cons, List.map_nil, List.flatten_cons, List.flatten_nil,
      words_of_visible hold, words_of_visible hnew, List.append_nil, List.singleton_append,
      partsChanges, hstatus, strip_of_forall hold, strip_of_forall hnew]
    rw [if_pos (by simp [DiffEntry.status])]
    rfl
  | copied score oldPath newPath =>
    obtain ⟨-, hold, hnew⟩ := h
    obtain ⟨word, hword⟩ := List.length_eq_one_iff.mp hold
    simp only [DiffEntry.paths, List.map_cons, List.map_nil, List.flatten_cons, List.flatten_nil,
      hword, words_of_visible hnew, List.append_nil, List.singleton_append,
      partsChanges, hstatus, strip_of_forall hnew]
    rw [if_neg (by simp [DiffEntry.status]), if_pos (by simp [DiffEntry.status])]
    rfl

/-! ## The output of `git diff` -/

/-- The lines that come from an entry: the first begins with its status, and it is the only one
where the entry has no line breaks. -/
structure Reads (entry : DiffEntry) (piece : List Text) : Prop where
  first : ∃ rest more, piece = (entry.status ++ rest) :: more ∧ ∀ c ∈ rest.head?, isSpace c
  noBreaks : (∀ c ∈ entry.line.getLast?, isSpace c = false) → piece.length = 1 →
    ∀ c ∈ entry.line, isLineBreak c = false
  whole : (∀ c ∈ entry.line.getLast?, isSpace c = false) →
    (∀ c ∈ entry.line, isLineBreak c = false) → piece = [entry.line]

theorem isLineBreak_of_isSpace {c : Char} (h : isSpace c = false) : isLineBreak c = false := by
  cases hbreak : isLineBreak c with
  | false => rfl
  | true => rw [isSpace_of_isLineBreak hbreak] at h; cases h

theorem line_ne_nil (entry : DiffEntry) : entry.line ≠ [] :=
  List.append_ne_nil_of_left_ne_nil (status_ne_nil entry) _

/-- The first line of a text that begins with the status. -/
theorem exists_first (entry : DiffEntry) {t : Text} (ht : ∀ c ∈ t.head?, isSpace c) :
    ∃ rest more, splitlines (entry.status ++ t) = (entry.status ++ rest) :: more ∧
      ∀ c ∈ rest.head?, isSpace c := by
  have hbreaks : ∀ c ∈ entry.status, isLineBreak c = false :=
    fun c hc => isLineBreak_of_isSpace (isSpace_of_mem_status entry c hc)
  exact ⟨_, _, splitlines_append (status_ne_nil entry) hbreaks t, isSpace_of_head?_splitlines ht⟩

theorem reads_newline (entry : DiffEntry) : Reads entry (splitlines (entry.line ++ ['\n'])) := by
  constructor
  · have hline : entry.line ++ ['\n'] = entry.status ++ (fields entry.paths ++ ['\n']) :=
      List.append_assoc ..
    rw [hline]
    apply exists_first
    intro c hc
    cases hfields : fields entry.paths with
    | nil =>
      rw [hfields] at hc
      cases hc
      decide
    | cons d t =>
      rw [hfields] at hc
      exact head?_fields entry.paths c (by rw [hfields]; exact hc)
  · exact fun hlast hlength => isLineBreak_of_length_splitlines hlast hlength
  · exact fun _ hbreaks => splitlines_newline hbreaks

/-- `rstrip` leaves the status of a line. -/
theorem rstrip_line (entry : DiffEntry) :
    rstrip entry.line = entry.status ++ rstrip (fields entry.paths) := by
  change rstrip (entry.status ++ fields entry.paths) = _
  by_cases hrest : rstrip (fields entry.paths) = []
  · have hblank : ∀ c ∈ fields entry.paths, isSpace c := List.rdropWhile_eq_nil_iff.mp hrest
    rw [rstrip_append_blank hblank, hrest, List.append_nil]
    apply rstrip_of_getLast
    intro c hc
    exact isSpace_of_mem_status entry c (List.mem_of_getLast? hc)
  · exact rstrip_append_of_ne_nil _ hrest

theorem reads_rstrip (entry : DiffEntry) : Reads entry (splitlines (rstrip entry.line)) := by
  constructor
  · rw [rstrip_line]
    apply exists_first
    intro c hc
    obtain ⟨t, ht⟩ := List.rdropWhile_prefix isSpace (fields entry.paths)
    refine head?_fields entry.paths c ?_
    rw [← ht, Option.mem_def, List.head?_append]
    exact Option.or_eq_some_iff.mpr (.inl hc)
  · intro hlast hlength
    rw [rstrip_of_getLast hlast, ← List.append_nil entry.line] at hlength
    exact isLineBreak_of_length_splitlines hlast hlength
  · intro hlast hbreaks
    rw [rstrip_of_getLast hlast]
    exact splitlines_of_forall (line_ne_nil entry) hbreaks

theorem head?_status_append (entry : DiffEntry) (t : Text) :
    ∀ c ∈ (entry.status ++ t).head?, isSpace c = false := by
  intro c hc
  rw [List.head?_append_of_ne_nil _ (status_ne_nil entry)] at hc
  exact isSpace_of_mem_status entry c (List.mem_of_head? hc)

/-- The lines of the output are those of the entries, one entry behind the other. -/
theorem exists_pieces (diff : List DiffEntry) :
    ∃ pieces, splitlines (strip (unlines (diff.map DiffEntry.line))) = pieces.flatten ∧
      List.Forall₂ Reads diff pieces := by
  rcases List.eq_nil_or_concat diff with rfl | ⟨front, last, rfl⟩
  · exact ⟨[], rfl, .nil⟩
  have hhead : ∀ c ∈ (unlines (front.map DiffEntry.line) ++ last.line).head?, isSpace c = false := by
    cases front with
    | nil => exact head?_status_append last _
    | cons entry front =>
      rw [List.map_cons, unlines, List.map_cons, List.flatten_cons, DiffEntry.line]
      simp only [List.append_assoc]
      exact head?_status_append entry _
  have hne : rstrip last.line ≠ [] := by
    rw [rstrip_line]
    exact List.append_ne_nil_of_left_ne_nil (status_ne_nil last) _
  refine ⟨front.map (fun entry => splitlines (entry.line ++ ['\n'])) ++
    [splitlines (rstrip last.line)], ?_, ?_⟩
  · rw [List.concat_eq_append, List.map_append, List.map_singleton, strip_unlines hhead hne,
      splitlines_unlines_append, List.flatten_append, List.map_map, List.flatten_singleton]
    rfl
  · rw [List.concat_eq_append]
    refine List.rel_append ?_ (.cons (reads_rstrip last) .nil)
    rw [List.forall₂_map_right_iff, List.forall₂_same]
    exact fun entry _ => reads_newline entry

/-- What can be said about an entry that has given its changes. -/
structure DiffEntry.Found (entry : DiffEntry) : Prop where
  status : entry.status ≠ "T".toList ∧ entry.status ≠ "X".toList
  noBreaks : (∀ c ∈ entry.line.getLast?, isSpace c = false) →
    ∀ c ∈ entry.line, isLineBreak c = false
  words : (∀ c ∈ entry.line.getLast?, isSpace c = false) →
    (words (fields entry.paths)).length = entry.paths.length

theorem length_le_flatten {lines : List Text} {changes : List (List Change)}
    (h : List.Forall₂ (fun line found => lineChanges changedFiles line = .ok found) lines changes) :
    lines.length ≤ changes.flatten.length := by
  induction h with
  | nil => exact Nat.zero_le _
  | cons hline hlines ih =>
    have hpos := List.length_pos_of_ne_nil (lineChanges_paths hline).1
    rw [List.flatten_cons, List.length_append, List.length_cons]
    omega

/-- The lines give as many changes as the entries have at least, and not more only when every
entry gives its own. -/
theorem length_flatten_of_pieces {diff : List DiffEntry} {pieces : List (List Text)}
    {changes : List (List Change)} (h : List.Forall₂ Reads diff pieces)
    (hchanges : List.Forall₂ (fun line found => lineChanges changedFiles line = .ok found)
      pieces.flatten changes) :
    (diff.map DiffEntry.changes).flatten.length ≤ changes.flatten.length ∧
      (changes.flatten.length = (diff.map DiffEntry.changes).flatten.length →
        ∀ entry ∈ diff, entry.Found) := by
  induction h generalizing changes with
  | nil =>
    cases hchanges
    exact ⟨le_refl _, by simp⟩
  | @cons entry piece diff pieces hread hreads ih =>
    obtain ⟨rest, more, rfl, hrest⟩ := hread.first
    rw [List.flatten_cons, List.cons_append] at hchanges
    cases hchanges with
    | @cons _ found _ changes hfound hchanges =>
      -- What the further lines of the entry give, and what the other entries give.
      have hmore := (List.forall₂_take_append _ _ _ hchanges.flip).flip
      have hothers := (List.forall₂_drop_append _ _ _ hchanges.flip).flip
      have hchangesSplit := List.take_append_drop more.length changes
      have hmoreLength := length_le_flatten hmore
      obtain ⟨hle, heq⟩ := ih hothers
      rw [lineChanges_status entry hrest] at hfound
      obtain ⟨hstatus, hlength, hparts⟩ := length_of_partsChanges hfound
      have htotal : (found :: changes).flatten.length = entry.changes.length +
          (changes.take more.length).flatten.length +
            (changes.drop more.length).flatten.length := by
        rw [List.flatten_cons, List.length_append, hlength]
        conv_lhs => rw [← hchangesSplit, List.flatten_append, List.length_append]
        omega
      have hexpected : ((entry :: diff).map DiffEntry.changes).flatten.length
          = entry.changes.length + (diff.map DiffEntry.changes).flatten.length := by
        rw [List.map_cons, List.flatten_cons, List.length_append]
      rw [htotal, hexpected]
      refine ⟨by omega, fun hsame => ?_⟩
      have hnil : more = [] := List.eq_nil_of_length_eq_zero (by omega)
      subst hnil
      have hfoundEntry : entry.Found := by
        refine ⟨hstatus, fun hlast => hread.noBreaks hlast rfl, fun hlast => ?_⟩
        have hline := hread.whole hlast (hread.noBreaks hlast rfl)
        have hfields : rest = fields entry.paths :=
          List.append_cancel_left (List.singleton_inj.mp hline)
        rw [← hfields]
        exact hparts
      exact List.forall_mem_cons.mpr ⟨hfoundEntry, heq (by omega)⟩

theorem isSpace_of_mem_flatten {lines : List Text}
    {changes : List (List Change)}
    (h : List.Forall₂ (fun line found => lineChanges changedFiles line = .ok found) lines changes) :
    ∀ change ∈ changes.flatten, ∀ c ∈ change.path, isSpace c = false := by
  induction h with
  | nil => exact fun change hchange => absurd hchange List.not_mem_nil
  | cons hline hlines ih =>
    rw [List.flatten_cons]
    exact List.forall_mem_append.mpr ⟨(lineChanges_paths hline).2, ih⟩

/-- An entry whose changes are found has plain names. -/
theorem DiffEntry.Found.plain (h : entry.Found)
    (hpaths : ∀ change ∈ entry.changes, ∀ c ∈ change.path, isSpace c = false) : entry.Plain := by
  cases entry with
  | changed status path =>
    refine ⟨?_, ?_, hpaths _ List.mem_cons_self⟩
    · rintro rfl
      exact h.status.1 rfl
    · rintro rfl
      exact h.status.2 rfl
  | renamed score oldPath newPath =>
    exact ⟨hpaths _ List.mem_cons_self, hpaths _ (List.mem_cons_of_mem _ List.mem_cons_self)⟩
  | copied score oldPath newPath =>
    have hnew : newPath.Visible := hpaths _ List.mem_cons_self
    have hlast : ∀ c ∈ (DiffEntry.copied score oldPath newPath).line.getLast?, isSpace c = false :=
      isSpace_of_getLast?_line hnew
    refine ⟨?_, ?_, hnew⟩
    · intro c hc
      refine h.noBreaks hlast c ?_
      simp [DiffEntry.line, DiffEntry.paths, hc]
    · have hwords := h.words hlast
      rw [words_fields] at hwords
      simpa [DiffEntry.paths, words_of_visible hnew] using hwords

/-- The line of an entry with plain names is read as it is. -/
theorem Reads.eq_of_plain {piece : List Text} (hread : Reads entry piece) (h : entry.Plain) :
    piece = [entry.line] := by
  have hstatus : ∀ c ∈ entry.status, isLineBreak c = false :=
    fun c hc => isLineBreak_of_isSpace (isSpace_of_mem_status entry c hc)
  have hpaths : entry.newPath.Visible ∧
      ∀ path ∈ entry.paths, ∀ c ∈ path.text, isLineBreak c = false := by
    cases entry with
    | changed status path =>
      obtain ⟨-, -, hpath⟩ := h
      exact ⟨hpath, List.forall_mem_singleton.mpr fun c hc => isLineBreak_of_isSpace (hpath c hc)⟩
    | renamed score oldPath newPath =>
      obtain ⟨hold, hnew⟩ := h
      refine ⟨hnew, List.forall_mem_cons.mpr ⟨fun c hc => isLineBreak_of_isSpace (hold c hc), ?_⟩⟩
      exact List.forall_mem_singleton.mpr fun c hc => isLineBreak_of_isSpace (hnew c hc)
    | copied score oldPath newPath =>
      obtain ⟨hold, -, hnew⟩ := h
      refine ⟨hnew, List.forall_mem_cons.mpr ⟨hold, ?_⟩⟩
      exact List.forall_mem_singleton.mpr fun c hc => isLineBreak_of_isSpace (hnew c hc)
  refine hread.whole (isSpace_of_getLast?_line hpaths.1) ?_
  intro c hc
  rcases List.mem_append.mp hc with hc | hc
  · exact hstatus c hc
  · obtain ⟨field, hfield, hc⟩ := List.mem_flatten.mp hc
    obtain ⟨path, hpath, rfl⟩ := List.mem_map.mp hfield
    rcases List.mem_cons.mp hc with rfl | hc
    · decide
    · exact hpaths.2 path hpath c hc

/-! ## The untracked files -/

/-- The untracked files that `get_changes_in_repo` reads. -/
def untrackedFiles (untracked : List Name) : List Text :=
  (splitlines (strip (unlines (untracked.map Name.text)))).filter (· ≠ [])

theorem untrackedFiles_of_plainNames {untracked : List Name} (h : PlainNames untracked) :
    untrackedFiles untracked = untracked.map Name.text := by
  obtain ⟨hbreaks, hfirst, hlast⟩ := h
  rcases List.eq_nil_or_concat untracked with rfl | ⟨front, last, rfl⟩
  · rfl
  rw [List.concat_eq_append] at hbreaks hfirst hlast ⊢
  rw [List.forall_mem_append, List.forall_mem_singleton] at hbreaks
  have hlines : ∀ line ∈ front.map Name.text, ∀ c ∈ line, isLineBreak c = false :=
    List.forall_mem_map.mpr hbreaks.1
  have hhead : ∀ c ∈ (unlines (front.map Name.text) ++ last.text).head?, isSpace c = false := by
    cases front with
    | nil => exact hfirst last rfl
    | cons path front =>
      intro c hc
      refine hfirst path rfl c ?_
      rw [List.map_cons, unlines, List.map_cons, List.flatten_cons, List.append_assoc,
        List.append_assoc, List.head?_append_of_ne_nil _ path.ne_nil] at hc
      exact hc
  have hrstrip : rstrip last.text = last.text := rstrip_of_getLast (hlast last List.getLast?_concat)
  have hne : rstrip last.text ≠ [] := by
    rw [hrstrip]
    exact last.ne_nil
  rw [untrackedFiles, List.map_append, List.map_singleton,
    splitlines_strip_unlines hlines hbreaks.2 hhead hne, hrstrip, List.filter_eq_self]
  intro line hline
  rw [← List.map_singleton (f := Name.text), ← List.map_append] at hline
  obtain ⟨path, -, rfl⟩ := List.mem_map.mp hline
  exact decide_eq_true path.ne_nil

/-- The first line begins as the text does. -/
theorem isSpace_of_head?_lines {s : Text} (hs : ∀ c ∈ s.head?, isSpace c = false) :
    ∀ line ∈ ((splitlines s).filter (· ≠ [])).head?, ∀ c ∈ line.head?, isSpace c = false := by
  intro line hline c hc
  cases s with
  | nil => cases hline
  | cons d s =>
    have hd := hs d rfl
    rw [splitlines_cons (isLineBreak_of_isSpace hd), List.filter_cons_of_pos (by simp)] at hline
    cases hline
    cases hc
    exact hd

/-- The last line ends as the text does. -/
theorem isSpace_of_getLast?_lines {s : Text} (hs : ∀ c ∈ s.getLast?, isSpace c = false) :
    ∀ line ∈ ((splitlines s).filter (· ≠ [])).getLast?, ∀ c ∈ line.getLast?, isSpace c = false := by
  intro line hline c hc
  rcases List.eq_nil_or_concat s with rfl | ⟨s, d, rfl⟩
  · cases hline
  rw [List.concat_eq_append] at hs hline
  have hd := hs d List.getLast?_concat
  obtain ⟨last, hlast, hend⟩ :=
    Option.bind_eq_some_iff.mp (getLast?_splitlines (isLineBreak_of_isSpace hd) s)
  obtain ⟨lines, hlines⟩ := List.getLast?_eq_some_iff.mp hlast
  have hne : last ≠ [] := by
    rintro rfl
    cases hend
  rw [hlines, List.filter_append, List.filter_cons_of_pos (by simpa using hne), List.filter_nil,
    List.getLast?_concat] at hline
  cases hline
  rw [Option.mem_def, hend] at hc
  cases hc
  exact hd

/-- Names that are read as they are have no line breaks and no whitespace to strip. -/
theorem plainNames_of_untrackedFiles {untracked : List Name}
    (h : untrackedFiles untracked = untracked.map Name.text) : PlainNames untracked := by
  have hfirst := isSpace_of_head?_lines (s := strip (unlines (untracked.map Name.text))) head?_strip
  have hlast :=
    isSpace_of_getLast?_lines (s := strip (unlines (untracked.map Name.text))) getLast?_strip
  unfold untrackedFiles at h
  rw [h] at hfirst hlast
  refine ⟨?_, ?_, ?_⟩
  · intro path hpath
    have hmem : path.text ∈ untracked.map Name.text := List.mem_map_of_mem hpath
    rw [← h] at hmem
    exact isLineBreak_of_mem_splitlines (List.mem_of_mem_filter hmem)
  · intro path hpath
    refine hfirst path.text ?_
    rw [List.head?_map, Option.mem_def.mp hpath]
    rfl
  · intro path hpath
    refine hlast path.text ?_
    rw [List.getLast?_map, Option.mem_def.mp hpath]
    rfl

/-- No words stand in front of the names that are read: they would be read as well. -/
theorem eq_nil_of_untracked {untracked : List Name} {found : List Text}
    (hfound : ∀ word ∈ found, ∀ c ∈ word, isSpace c = false)
    (h : untracked.map Name.text = found ++ untrackedFiles untracked) : found = [] := by
  by_contra hne
  have hplain : PlainNames untracked := by
    refine ⟨?_, ?_, ?_⟩
    · intro path hpath
      have hmem : path.text ∈ untracked.map Name.text := List.mem_map_of_mem hpath
      rw [h] at hmem
      rcases List.mem_append.mp hmem with hmem | hmem
      · exact fun c hc => isLineBreak_of_isSpace (hfound _ hmem c hc)
      · exact isLineBreak_of_mem_splitlines (List.mem_of_mem_filter hmem)
    · intro path hpath c hc
      have hhead := congrArg List.head? h
      rw [List.head?_map, Option.mem_def.mp hpath, List.head?_append_of_ne_nil _ hne] at hhead
      exact hfound _ (List.mem_of_head? hhead.symm) c (List.mem_of_head? hc)
    · intro path hpath c hc
      have hlast := congrArg List.getLast? h
      rw [List.getLast?_map, Option.mem_def.mp hpath] at hlast
      by_cases hfiles : untrackedFiles untracked = []
      · rw [hfiles, List.append_nil] at hlast
        exact hfound _ (List.mem_of_getLast? hlast.symm) c (List.mem_of_getLast? hc)
      · rw [List.getLast?_append_of_ne_nil _ hfiles] at hlast
        exact isSpace_of_getLast?_lines getLast?_strip _ hlast.symm c hc
  rw [untrackedFiles_of_plainNames hplain] at h
  exact hne (List.self_eq_append_left.mp h)

/-! ## Repositories -/

theorem getChangesInRepo_some (repo : Repo) :
    getChangesInRepo (some repo) =
      (let changedFiles := splitlines (strip (unlines (repo.diff.map DiffEntry.line)))
      (changedFiles.mapM (lineChanges changedFiles)).map fun changes => changes.flatten ++
        (untrackedFiles repo.untracked).map fun path => ⟨"A".toList, path⟩) := by
  rfl

theorem flatten_of_plain {diff : List DiffEntry} {pieces : List (List Text)}
    (hreads : List.Forall₂ Reads diff pieces) (h : ∀ entry ∈ diff, entry.Plain) :
    pieces.flatten = diff.map DiffEntry.line := by
  induction hreads with
  | nil => rfl
  | cons hread hreads ih =>
    rw [List.forall_mem_cons] at h
    rw [List.flatten_cons, hread.eq_of_plain h.1, ih h.2]
    rfl

theorem getChangesInRepo_of_plain {repo : Repo} (h : repo.Plain) :
    getChangesInRepo (some repo) = .ok repo.changes := by
  obtain ⟨pieces, hlines, hreads⟩ := exists_pieces repo.diff
  have hpieces : pieces.flatten = repo.diff.map DiffEntry.line :=
    flatten_of_plain hreads h.diff
  have hchanges : ∀ files, (repo.diff.map DiffEntry.line).mapM (lineChanges files)
      = .ok (repo.diff.map DiffEntry.changes) := by
    intro files
    rw [mapM_ok_iff, List.forall₂_map_left_iff, List.forall₂_map_right_iff, List.forall₂_same]
    exact fun entry hentry => lineChanges_line (h.diff entry hentry)
  rw [getChangesInRepo_some, hlines, hpieces, untrackedFiles_of_plainNames h.untracked]
  simp [hchanges, Except.map, Repo.changes]

/-- The changes of a repository are found as they are exactly when its names are plain. -/
theorem getChangesInRepo_iff (repo : Repo) :
    getChangesInRepo (some repo) = .ok repo.changes ↔ repo.Plain := by
  refine ⟨fun h => ?_, getChangesInRepo_of_plain⟩
  rw [getChangesInRepo_some] at h
  obtain ⟨changes, hchanges, hall⟩ := map_ok_iff.mp h
  obtain ⟨pieces, hlines, hreads⟩ := exists_pieces repo.diff
  rw [hlines, mapM_ok_iff] at hchanges
  obtain ⟨hle, hfound⟩ := length_flatten_of_pieces hreads hchanges
  have hvisible := isSpace_of_mem_flatten hchanges
  -- The differences give all their changes, and perhaps more.
  unfold Repo.changes at hall
  obtain ⟨more, hdiff, huntracked⟩ : ∃ more,
      changes.flatten = (repo.diff.map DiffEntry.changes).flatten ++ more ∧
        (repo.untracked.map fun path => (⟨"A".toList, path.text⟩ : Change))
          = more ++ (untrackedFiles repo.untracked).map fun path => ⟨"A".toList, path⟩ := by
    rcases List.append_eq_append_iff.mp hall with ⟨more, hdiff, huntracked⟩ | h
    · have hmore : more = [] := by
        rw [hdiff, List.length_append] at hle
        exact List.eq_nil_of_length_eq_zero (by omega)
      subst hmore
      exact ⟨[], by rw [hdiff, List.append_nil, List.append_nil], huntracked.symm⟩
    · exact h
  have hnames : repo.untracked.map Name.text
      = more.map Change.path ++ untrackedFiles repo.untracked := by
    have hpaths := congrArg (List.map Change.path) huntracked
    rw [List.map_append, List.map_map, List.map_map] at hpaths
    exact hpaths.trans (congrArg _ (List.map_id _))
  have hmore : more = [] := by
    refine List.map_eq_nil_iff.mp (eq_nil_of_untracked ?_ hnames)
    refine List.forall_mem_map.mpr fun change hchange => hvisible change ?_
    rw [hdiff]
    exact List.mem_append_right _ hchange
  subst hmore
  rw [List.append_nil] at hdiff
  constructor
  · intro entry hentry
    refine (hfound (by rw [hdiff]) entry hentry).plain ?_
    intro change hchange
    refine hvisible change ?_
    rw [hdiff]
    exact List.mem_flatten.mpr ⟨_, List.mem_map_of_mem hentry, hchange⟩
  · exact plainNames_of_untrackedFiles hnames.symm

theorem getChangesInRepo_eq_iff (repo : Option Repo) :
    getChangesInRepo repo = .ok (changesOf repo) ↔ ∀ r, repo = some r → r.Plain := by
  cases repo with
  | none => exact ⟨fun _ _ h => (nomatch h), fun _ => rfl⟩
  | some repo => exact (getChangesInRepo_iff repo).trans ⟨fun h _ hr => Option.some.inj hr ▸ h,
      fun h => h repo rfl⟩

/-! ## Workspaces -/

namespace Workspace

variable {workspace : Workspace}

/-- The filter of `get_git_changes`. -/
def outer (workspace : Workspace) (change : Change) : Bool :=
  (workspace.gitDirs.find? fun gitDir => gitDir.1 <+: change.path).isNone

theorem outer_iff (change : Change) : workspace.outer change = true ↔
    ∀ gitDir ∈ workspace.gitDirs, ¬ gitDir.1 <+: change.path := by
  unfold outer
  rw [Option.isNone_iff_eq_none, List.find?_eq_none]
  simp

/-- What `get_git_changes` gives when the changes of every repository are found. -/
theorem getGitChanges_of_repos
    (h : ∀ repo ∈ workspace.repos, getChangesInRepo repo = .ok (changesOf repo)) :
    getGitChanges workspace = .ok (((changesOf workspace.root).filter workspace.outer ++
      (workspace.gitDirs.map fun gitDir => (changesOf gitDir.2).map (underDir gitDir.1)).flatten)
        |>.insertionSort fun c d => c.path ≤ d.path) := by
  unfold repos at h
  rw [List.forall_mem_cons] at h
  have hnested : (workspace.gitDirs.mapM fun gitDir => do
      let gitDirChanges ← getChangesInRepo gitDir.2
      return gitDirChanges.map (underDir gitDir.1))
        = .ok (workspace.gitDirs.map fun gitDir => (changesOf gitDir.2).map (underDir gitDir.1)) := by
    rw [mapM_ok_iff, List.forall₂_map_right_iff, List.forall₂_same]
    intro gitDir hgitDir
    rw [h.2 gitDir.2 (List.mem_map_of_mem hgitDir)]
    rfl
  unfold getGitChanges
  rw [h.1, hnested]
  rfl

/-- The changes of a workspace are found as they are exactly when all names are plain and no
change outside of the nested repositories has a path that begins like one of them. -/
theorem exact_iff (workspace : Workspace) : workspace.Exact ↔ workspace.Plain := by
  have hrepos : (∀ repo ∈ workspace.repos, getChangesInRepo repo = .ok (changesOf repo)) ↔
      ∀ repo, some repo ∈ workspace.repos → repo.Plain := by
    simp only [getChangesInRepo_eq_iff]
    exact ⟨fun h repo hrepo => h (some repo) hrepo repo rfl,
      fun h repo hrepo r hr => h r (hr ▸ hrepo)⟩
  have hnested : ∀ change : Change, workspace.Nested change.path →
      ∃ gitDir ∈ workspace.gitDirs, gitDir.1 <+: change.path := by
    rintro change ⟨gitDir, hgitDir, heq | hinside⟩
    · exact ⟨gitDir, hgitDir, heq ▸ List.prefix_refl _⟩
    · exact ⟨gitDir, hgitDir, (List.prefix_append _ _).trans hinside⟩
  constructor
  · intro h
    refine ⟨hrepos.mp h.repos, ?_⟩
    intro change hchange gitDir hgitDir hprefix
    by_contra houtside
    obtain ⟨changes, hchanges, hperm⟩ := h.all
    rw [getGitChanges_of_repos h.repos] at hchanges
    cases hchanges
    have hfilter := (List.perm_append_right_iff _).mp ((List.perm_insertionSort _ _).symm.trans hperm)
    have hmem : change ∈ (changesOf workspace.root).filter workspace.outer :=
      hfilter.mem_iff.mpr (List.mem_filter.mpr ⟨hchange, decide_eq_true houtside⟩)
    exact (outer_iff change).mp (List.mem_filter.mp hmem).2 gitDir hgitDir hprefix
  · intro h
    refine ⟨hrepos.mpr h.repos, _, getGitChanges_of_repos (hrepos.mpr h.repos), ?_⟩
    refine (List.perm_insertionSort _ _).trans ((List.perm_append_right_iff _).mpr ?_)
    have hfilter : (changesOf workspace.root).filter workspace.outer
        = (changesOf workspace.root).filter fun change => ¬ workspace.Nested change.path := by
      apply List.filter_congr
      intro change hchange
      rw [Bool.eq_iff_iff, outer_iff, decide_eq_true_iff]
      constructor
      · intro houter hinside
        obtain ⟨gitDir, hgitDir, hprefix⟩ := hnested change hinside
        exact houter gitDir hgitDir hprefix
      · exact fun houtside gitDir hgitDir hprefix =>
          houtside (h.apart change hchange gitDir hgitDir hprefix)
    rw [hfilter]

/-- A file with a space in its name: `get_changes_in_repo` raises. -/
theorem space_raises : ¬ Exact ⟨some ⟨[.changed .modified
    ⟨"a b".toList, by decide, by decide, by decide⟩], []⟩, []⟩ := by
  intro h
  have hrepo := h.repos _ List.mem_cons_self
  revert hrepo
  decide

end Workspace

end OpenHands.GitChanges
