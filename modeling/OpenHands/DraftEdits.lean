/-
# Edits by a draft editor

`llm_based_edit` (runtime/utils/edit.py): a language model applies the draft of an edit to a range
of lines, and a linter looks at the result.  What it rejects is written to the file all the same and
handed to `correct_edit`, which asks the model for one more edit and begins anew, until the linter is
content or the retries are used up.
-/
import OpenHands.FileActions
import OpenHands.Lib.JsonText

namespace OpenHands.DraftEdits

open FileActions (ActionExecutor Files)
open JsonText (intText)
open PyStr (cut strip)

abbrev Text := List Char

/-- `'\n'.join(lines)`. -/
def joinLines (lines : List Text) : Text := ['\n'].intercalate lines

/-! ## The draft editor -/

structure FileEditAction where
  path : String
  content : Text
  start : ℤ := 1
  end_ : ℤ := -1

structure Message where
  role : String
  content : Text

/-- A response: the text of its message, and what `response_to_actions` makes of it, if it does not
raise; an action of another class is `none`. -/
structure Reply where
  content : Option Text
  actions : Option (List (Option FileEditAction))

/-- A group of changes, as `get_edit_groups` gives it. -/
structure EditGroup where
  beforeEdits : List Text
  afterEdits : List Text

/-- A chunk with its range of lines and `str(normalized_lcs)`. -/
structure Chunk where
  text : Text
  lineRange : ℕ × ℕ
  normalizedLcs : Text

/-- What the mixin takes from its surroundings.  The calls of the draft editor and of the linter
are numbered; a call that raises gives nothing. -/
structure Editor extends ActionExecutor where
  enableAutoLint : Bool
  correctNum : ℤ
  completion : ℕ → List Message → Option Reply
  /-- `visualize()` of the errors of `lint_file_diff`, for copies with the suffix of the path. -/
  lintFileDiff : ℕ → (path : String) → (oldContent newContent : Text) → Option (List Text)
  getDiff : (oldContent newContent : Text) → String → Text
  getEditGroups : (oldContent newContent : Text) → List EditGroup
  getTopKChunkMatches : (text query : Text) → Option (List Chunk)

/-- `USER_MSG.format(...)`. -/
def userMsg (oldContents draftChanges : Text) : Text :=
  ("\nCode changes will be provided in the form of a draft. You will need to apply the draft to " ++
    "the original code.\nThe original code will be enclosed within `<original_code>` tags.\n" ++
    "The draft will be enclosed within `<update_snippet>` tags.\n" ++
    "You need to output the update code within `<updated_code>` tags.\n\n" ++
    "Within the `<updated_code>` tag, include only the final code after updation. Do not include " ++
    "any explanations or other content within these tags.\n\n<original_code>").toList ++
  oldContents ++ "</original_code>\n\n<update_snippet>".toList ++ draftChanges ++
  "</update_snippet>\n    ".toList

/-- `CORRECT_SYS_MSG`. -/
def correctSysMsg : Text :=
  ("You are a code repair assistant. Now you have an original file content and error information " ++
    "from a static code checking tool (lint tool). Your task is to automatically modify and " ++
    "return the repaired complete code based on these error messages and refer to the current " ++
    "file content.\n\n" ++
    "The following are the specific task steps you need to complete:\n\n" ++
    "Carefully read the current file content to ensure that you fully understand its code " ++
    "structure.\n\n" ++
    "According to the lint error prompt, accurately locate and analyze the cause of the " ++
    "problem.\n\n" ++
    "Modify the original file content and fix all errors prompted by the lint tool.\n\n" ++
    "Return complete, runnable, and error-fixed code, paying attention to maintaining the overall " ++
    "style and specifications of the original code.\n\nPlease note:\n\n" ++
    "Please strictly follow the lint error prompts to make modifications and do not miss any " ++
    "problems.\n\n" ++
    "The modified code must be complete and cannot introduce new errors or bugs.\n\n" ++
    "The modified code must maintain the original code function and logic, and no changes " ++
    "unrelated to error repair should be made.").toList

/-- `CORRECT_USER_MSG.format(...)`. -/
def correctUserMsg (fileContent lintError : Text) : Text :=
  ("THE FOLLOWING ARE THE ORIGINAL FILE CONTENTS AND THE ERROR INFORMATION REPORTED BY THE LINT " ++
    "TOOL\n\n# CURRENT FILE CONTENT:\n```\n").toList ++ fileContent ++
  "\n```\n\n# ERROR MESSAGE FROM STATIC CODE CHECKING TOOL:\n```\n".toList ++ lintError ++
  "\n```".toList

/-- `_extract_code`: the first match of `<updated_code>(.*?)</updated_code>`, without a first line
that is a comment of the editor. -/
def extractCode (string : Text) : Option Text := do
  let (_, behind) ← cut "<updated_code>".toList string
  let (content, _) ← cut "</updated_code>".toList behind
  if "#EDIT:".toList <+: content then
    match cut ['\n'] content with
    | some (_, rest) => pure rest
    | none => pure content
  else pure content

/-- A number of calls of the draft editor, or of the linter, and what came of them; nothing where a
call raises. -/
abbrev Counted (α : Type) := Option α × ℕ

/-- `get_new_file_contents` with `num_retries` calls left, from the call `asked` on. -/
def getNewFileContents (x : Editor) (oldContents draftChanges : Text) :
    (numRetries asked : ℕ) → Counted (Option Text)
  | 0, asked => (some none, asked)
  | numRetries + 1, asked =>
    match x.completion asked [⟨"user", userMsg oldContents draftChanges⟩] with
    | none => (none, asked + 1)
    | some reply =>
      match reply.content with
      | none => (none, asked + 1)
      | some content =>
        match extractCode content with
        | some newContents => (some (some newContents), asked + 1)
        | none => getNewFileContents x oldContents draftChanges numRetries (asked + 1)

/-! ## Errors -/

inductive Observation
  | error (content : Text)
  | fileEdit (content : Text) (path : String) (prevExist : Bool) (oldContent newContent : Text)

def invalidRange (start end_ : ℤ) (totalLines : ℕ) : Text :=
  "Invalid range for editing: start=".toList ++ intText start ++ ", end=".toList ++ intText end_ ++
    ", total lines=".toList ++ intText totalLines

/-- `_validate_range`. -/
def validateRange (start end_ : ℤ) (totalLines : ℕ) : Option Text :=
  if (start < 1 ∧ start ≠ -1) ∨ totalLines < start ∨ (end_ < start ∧ end_ ≠ -1 ∧ start ≠ -1) then
    some (invalidRange start end_ totalLines ++ ". start must be >= 1 and <=".toList ++
      intText totalLines ++ (" (total lines of the edited file), start <= end, or start == -1 " ++
        "(append to the end of the file).").toList)
  else if (end_ < 1 ∧ end_ ≠ -1) ∨ totalLines < end_ ∨ (end_ < start ∧ start ≠ -1 ∧ end_ ≠ -1) then
    some (invalidRange start end_ totalLines ++ ". end must be >= 1 and <= ".toList ++
      intText totalLines ++ (" (total lines of the edited file), end >= start, or end == -1 " ++
        "(to edit till the end of the file).").toList)
  else none

/-- `visualize_diff(change_applied=False)`. -/
def visualizeDiff (x : Editor) (path : String) (oldContent newContent : Text) : Text :=
  let editGroups := x.getEditGroups oldContent newContent
  let count := intText editGroups.length
  let shown := editGroups.zipIdx.flatMap fun (group, i) =>
    (if i = 0 then [] else ["-------------------------".toList]) ++
      ["[begin of ATTEMPTED edit ".toList ++ intText (i + 1) ++ " / ".toList ++ count ++ [']'],
        "(content before ATTEMPTED edit)".toList] ++ group.beforeEdits ++
      ["(content after ATTEMPTED edit)".toList] ++ group.afterEdits ++
      ["[end of ATTEMPTED edit ".toList ++ intText (i + 1) ++ " / ".toList ++ count ++ [']']]
  joinLines (("[Changes are NOT applied to ".toList ++ path.toList ++
    " - Here's how the file looks like if changes are applied.]".toList) :: shown)

/-- The message of `_get_lint_error`. -/
def lintErrorMessage (x : Editor) (filepath : String) (oldContent newContent : Text)
    (updatedLintError : List Text) : Text :=
  "\n[Linting failed for edited file ".toList ++ filepath.toList ++ ". ".toList ++
    intText updatedLintError.length ++ " lint errors found.]\n[begin attempted changes]\n".toList ++
    visualizeDiff x filepath oldContent newContent ++ "\n[end attempted changes]\n".toList ++
    List.replicate 40 '-' ++ ['\n'] ++
    List.replicate 20 '-' ++ "First 5 lint errors".toList ++ List.replicate 20 '-' ++ ['\n'] ++
    (updatedLintError.take 5).zipIdx.flatMap fun (lintError, i) =>
      "[begin lint error ".toList ++ intText i ++ "]\n".toList ++ strip lintError ++
        "\n[end lint error ".toList ++ intText i ++ "]\n".toList ++ List.replicate 40 '-' ++ ['\n']

/-- `Chunk.visualize`, which asserts that the range is that of the lines. -/
def Chunk.visualize (chunk : Chunk) : Option Text :=
  let lines := chunk.text.splitOn '\n'
  if (lines.length : ℤ) = chunk.lineRange.2 - chunk.lineRange.1 + 1 then
    some (lines.zipIdx.flatMap fun (line, i) =>
      intText (chunk.lineRange.1 + i) ++ '|' :: line ++ ['\n'])
  else none

/-- `MAX_LINES_TO_EDIT`. -/
def maxLinesToEdit : ℤ := 300

/-- A snippet in the message about a range that is too long. -/
def snippet (path : String) (chunk : Chunk) (i : ℕ) : Option Text := do
  let shown ← chunk.visualize
  pure ("[begin relevant snippet ".toList ++ intText (i + 1) ++ ". Line range: L".toList ++
    intText chunk.lineRange.1 ++ "-L".toList ++ intText chunk.lineRange.2 ++ ". Similarity: ".toList ++
    chunk.normalizedLcs ++ "]\n[Browse around it via `open_file(\"".toList ++ path.toList ++
    "\", ".toList ++ intText ((chunk.lineRange.1 + chunk.lineRange.2) / 2 : ℕ) ++ ")`]\n".toList ++
    shown ++ "\n[end relevant snippet ".toList ++ intText (i + 1) ++ "]\n".toList ++
    List.replicate 40 '-' ++ ['\n'])

/-- The message about a range that is too long. -/
def rangeTooLong (path : String) (startIdx endIdx : ℤ) (topkChunks : List Chunk) : Option Text := do
  let snippets ← topkChunks.zipIdx.mapM fun (chunk, i) => snippet path chunk i
  pure (("[Edit error: The range of lines to edit is too long.]\n" ++
    "[The maximum number of lines allowed to edit at once is ").toList ++ intText maxLinesToEdit ++
    ". Got (L".toList ++ intText (startIdx + 1) ++ "-L".toList ++ intText endIdx ++ ") ".toList ++
    intText (endIdx - startIdx) ++ " lines.]\n".toList ++
    "Here are some snippets that maybe relevant to the provided edit.\n".toList ++ snippets.flatten ++
    ("Consider using `open_file` to explore around the relevant snippets if needed.\n" ++
      "**IMPORTANT**: Please REDUCE the range of edits to less than ").toList ++
    intText maxLinesToEdit ++ (" lines by setting `start` and `end` in the edit action " ++
      "(e.g. `<file_edit path=\"").toList ++ path.toList ++
    "\" start=[PUT LINE NUMBER HERE] end=[PUT LINE NUMBER HERE] />`). ".toList)

/-! ## An edit -/

/-- The files, and how often the draft editor and the linter were called. -/
structure State where
  files : Files
  asked : ℕ := 0
  linted : ℕ := 0

/-- What `llm_based_edit` comes to before it hands over to `correct_edit`. -/
inductive Attempt
  | raised
  | returned (observation : Observation)
  /-- The linter has rejected the content, which has been written. -/
  | rejected (errorObs fileContent : Text)

namespace Editor

variable (x : Editor)

/-- The new content is linted, and written whatever the linter says. -/
def lintAndWrite (s : State) (action : FileEditAction) (originalFileContent updatedContent : Text) :
    Attempt × State :=
  let (errors, linted) : Counted (List Text) :=
    if x.enableAutoLint then
      (x.lintFileDiff s.linted action.path originalFileContent updatedContent, s.linted + 1)
    else (some [], s.linted)
  let s := { s with linted }
  match errors with
  | none => (.raised, s)
  | some errors =>
    match x.write s.files { path := action.path, content := updatedContent } with
    | .error _ => (.raised, s)
    -- An error of the write is not looked at.
    | .ok (files, _) =>
      if errors ≠ [] then
        (.rejected (lintErrorMessage x action.path originalFileContent updatedContent errors)
          updatedContent, { s with files })
      else
        (.returned (.fileEdit (x.getDiff originalFileContent updatedContent action.path)
          action.path true originalFileContent updatedContent), { s with files })

/-- `llm_based_edit` of a file with the content. -/
def editFile (s : State) (action : FileEditAction) (originalFileContent : Text) : Attempt × State :=
  let oldFileLines := originalFileContent.splitOn '\n'
  match validateRange action.start action.end_ oldFileLines.length with
  | some error => (.returned (.error error), s)
  | none =>
    if action.start = -1 then
      x.lintAndWrite s action originalFileContent
        (joinLines (oldFileLines ++ action.content.splitOn '\n'))
    else
      let startIdx := action.start - 1
      let endIdx : ℤ := if action.end_ ≠ -1 then action.end_ - 1 + 1 else oldFileLines.length
      if maxLinesToEdit + 1 < endIdx - startIdx then
        match (x.getTopKChunkMatches originalFileContent action.content).bind
            (rangeTooLong action.path startIdx endIdx) with
        | some error => (.returned (.error error), s)
        | none => (.raised, s)
      else
        let contentToEdit := joinLines (PySeq.slice oldFileLines (some startIdx) (some endIdx))
        let (editedContent, asked) := getNewFileContents x contentToEdit action.content 3 s.asked
        let s := { s with asked }
        match editedContent with
        | none => (.raised, s)
        | some none =>
          (.returned (.error (("Failed to get new file contents. " ++
            "Please try to reduce the number of edits and try again.").toList)), s)
        | some (some editedContent) =>
          x.lintAndWrite s action originalFileContent
            (joinLines (PySeq.slice oldFileLines none (some startIdx) ++ editedContent.splitOn '\n' ++
              PySeq.slice oldFileLines (some endIdx) none))

/-- `llm_based_edit` of a file that does not exist. -/
def createFile (s : State) (action : FileEditAction) : Attempt × State :=
  match x.write s.files { path := action.path, content := strip action.content } with
  | .error _ => (.raised, s)
  | .ok (files, .error error) => (.returned (.error error.toList), { s with files })
  | .ok (files, .fileWrite _ _) =>
    (.returned (.fileEdit (x.getDiff [] action.content action.path) action.path false []
      action.content), { s with files })
  | .ok (files, .fileRead _ _) => (.raised, { s with files })

/-- `llm_based_edit` up to the call of `correct_edit`. -/
def attempt (s : State) (action : FileEditAction) : Attempt × State :=
  match x.read s.files { path := action.path } with
  | .error _ => (.raised, s)
  | .ok (.error error) =>
    if "file not found".toList <:+: error.toList.map Char.toLower then x.createFile s action
    else (.raised, s)
  | .ok (.fileWrite _ _) => (.raised, s)
  | .ok (.fileRead _ content) => x.editFile s action content

/-- `check_retry_num`. -/
def checkRetryNum (retryNum : ℤ) : Bool := x.correctNum < retryNum

/-- The one edit of the answer to the error, if there is just one. -/
def correction (s : State) (fileContent errorObs : Text) : Option FileEditAction × State :=
  let reply := x.completion s.asked
    [⟨"system", correctSysMsg⟩, ⟨"user", correctUserMsg fileContent errorObs⟩]
  let s := { s with asked := s.asked + 1 }
  match reply.bind Reply.actions with
  | some [some action] => (some action, s)
  | _ => (none, s)

mutual

/-- `llm_based_edit`, or nothing where it raises. -/
def llmBasedEdit (s : State) (action : FileEditAction) (retryNum : ℤ) :
    Option Observation × State :=
  match x.attempt s action with
  | (.raised, s) => (none, s)
  | (.returned observation, s) => (some observation, s)
  | (.rejected errorObs fileContent, s) => correctEdit s fileContent errorObs retryNum
termination_by ((x.correctNum - retryNum).toNat, 1)

/-- `correct_edit`; what is raised behind its first lines is caught. -/
def correctEdit (s : State) (fileContent errorObs : Text) (retryNum : ℤ) :
    Option Observation × State :=
  if _hstop : x.checkRetryNum (retryNum + 1) then (some (.error errorObs), s)
  else
    match x.correction s fileContent errorObs with
    | (none, s) => (some (.error errorObs), s)
    | (some action, s) =>
      match llmBasedEdit s action (retryNum + 1) with
      | (some observation, s) => (some observation, s)
      | (none, s) => (some (.error errorObs), s)
termination_by ((x.correctNum - retryNum).toNat, 0)
decreasing_by
  simp only [checkRetryNum, decide_eq_true_eq, not_lt] at _hstop
  left
  omega

end

end Editor

end OpenHands.DraftEdits
