/-
# What an edit by a draft editor leaves behind

A result that the linter rejects stays in the file, and so does the draft of a new file whose owner
cannot be set; a call that ends with an error does not take this back.  Where the linter rejects
nothing and a new file gets its owner, an error comes before anything is written.
-/
import OpenHands.DraftEdits

namespace OpenHands.DraftEdits

open FileActions (ActionExecutor Files)
open PyStr (strip)

namespace Editor

variable (x : Editor)

/-! ## What is left in a file -/

/-- The path of an action below the root. -/
def parts (action : FileEditAction) : List (List Char) := (x.resolvePath action.path).parts

/-- The bytes of a text written as a whole. -/
def written (content : Text) : ByteArray := (String.ofList (content ++ ['\n'])).toUTF8

/-- An error leaves the file as it was. -/
def ErrorKeepsFile (s : State) (action : FileEditAction) (retryNum : ℤ) : Prop :=
  ∀ error, (x.llmBasedEdit s action retryNum).1 = some (.error error) →
    FileTree.node? (x.llmBasedEdit s action retryNum).2.files (x.parts action)
      = FileTree.node? s.files (x.parts action)

end Editor

/-! ## Writing -/

section

variable {x : ActionExecutor} {t t' : Files} {path : String} {content : Text}
  {obs : FileActions.Observation} {key : List (List Char)}

/-- Making directories keeps what is there. -/
theorem get?_makedirsFrom_of_some {done names : List (List Char)} {node : FileTree.Node ByteArray}
    (h : FileTree.makedirsFrom t done names = .ok t') (hkey : t.get? key = some node) :
    t'.get? key = some node := by
  induction names generalizing t done with
  | nil =>
    cases h
    exact hkey
  | cons name rest ih =>
    rw [FileTree.makedirsFrom] at h
    cases hnode : t.get? (done ++ [name]) with
    | none =>
      rw [hnode] at h
      refine ih h ?_
      rw [PyDict.get?_set, if_neg, hkey]
      rintro rfl
      rw [hnode] at hkey
      cases hkey
    | some found =>
      rw [hnode] at h
      cases found with
      | file data => cases h
      | dir => exact ih h hkey

theorem node?_makeParent {dirname : List (List Char)} {node : FileTree.Node ByteArray}
    (h : ActionExecutor.makeParent t dirname = .ok t') (hkey : FileTree.node? t key = some node) :
    FileTree.node? t' key = some node := by
  unfold ActionExecutor.makeParent at h
  split_ifs at h
  · cases h
    exact hkey
  · unfold FileTree.node? at hkey ⊢
    split_ifs at hkey ⊢
    · exact hkey
    · exact get?_makedirsFrom_of_some h hkey

/-- A write either reports an error and keeps the files but for directories on the way, or stores
the content with a line end. -/
theorem write_cases (h : x.write t { path, content } = .ok (t', obs)) :
    ∃ u, ActionExecutor.makeParent t (x.resolvePath path).parts.dropLast = .ok u ∧
      ((t' = u ∧ (∃ error, obs = .error error) ∧
          ∀ data, FileTree.node? u (x.resolvePath path).parts = some (.file data) →
            String.fromUTF8? data = none) ∨
        ∃ newFile, newFile.flatten = content ++ ['\n'] ∧
          x.store u (x.resolvePath path) newFile = (t', obs) ∧
          FileTree.node? u (x.resolvePath path).parts ≠ some .dir ∧
          ∀ data, FileTree.node? u (x.resolvePath path).parts = some (.file data) →
            (String.fromUTF8? data).isSome) := by
  unfold ActionExecutor.write at h
  obtain ⟨u, hu, h⟩ := Fallible.bind_eq_ok_iff.mp h
  refine ⟨u, hu, ?_⟩
  split at h
  · rename_i hnode
    split at h
    · cases h
    · refine Or.inr ⟨_, FileActions.flatten_split content, Except.ok.inj h, ?_, ?_⟩
      · rw [hnode]
        intro heq
        cases heq
      · intro data hdata
        rw [hnode] at hdata
        cases hdata
  · rename_i hnode
    cases h
    refine Or.inl ⟨rfl, ⟨_, rfl⟩, fun data hdata => ?_⟩
    rw [hnode] at hdata
    cases hdata
  · rename_i data hnode
    have hsame : ∀ data', FileTree.node? u (x.resolvePath path).parts = some (.file data') →
        data' = data := by
      intro data' hdata
      rw [hnode] at hdata
      cases hdata
      rfl
    split at h
    · rename_i text htext
      refine Or.inr ⟨_, ?_, Except.ok.inj h, ?_, fun data' hdata => ?_⟩
      · rw [FileActions.insertLines, if_pos rfl, if_pos rfl]
        simp [FileActions.flatten_split]
      · rw [hnode]
        intro heq
        cases heq
      · rw [hsame data' hdata, htext]
        rfl
    · rename_i hnone
      cases h
      refine Or.inl ⟨rfl, ⟨_, rfl⟩, fun data' hdata => ?_⟩
      rw [hsame data' hdata, hnone]

theorem node?_store_of_ne {p : Stores.RelPath} {newFile : List (List Char)} (hne : key ≠ p.parts) :
    FileTree.node? (x.store t p newFile).1 key = FileTree.node? t key := by
  unfold FileTree.node? ActionExecutor.store
  split_ifs
  · rfl
  · rw [PyDict.get?_set, if_neg hne]

/-- A write changes the file at its path if it can be decoded, and no other file. -/
theorem node?_write (h : x.write t { path, content } = .ok (t', obs)) {data : ByteArray}
    (hkey : FileTree.node? t key = some (.file data)) :
    FileTree.node? t' key
      = some (.file (if (x.resolvePath path).parts = key ∧ (String.fromUTF8? data).isSome then
          Editor.written content else data)) := by
  obtain ⟨u, hu, hcases⟩ := write_cases h
  have hkept := node?_makeParent hu hkey
  rcases hcases with ⟨rfl, -, hbad⟩ | ⟨newFile, hnew, hstore, -, hgood⟩
  · rw [if_neg, hkept]
    rintro ⟨rfl, hsome⟩
    rw [hbad data hkept] at hsome
    cases hsome
  · have ht' : t' = (x.store u (x.resolvePath path) newFile).1 := by rw [hstore]
    rw [ht']
    by_cases hpath : (x.resolvePath path).parts = key
    · rw [← hpath] at hkept ⊢
      rw [if_pos ⟨rfl, hgood data hkept⟩, FileActions.node?_store, hnew, Editor.written]
    · rw [if_neg fun hand => hpath hand.1, node?_store_of_ne (Ne.symm hpath), hkept]

/-- A write to a file that is not there reports an error only where the owner cannot be set. -/
theorem chown_of_write {error : String} (h : x.write t { path, content } = .ok (t', .error error))
    (hnone : FileTree.node? t (x.resolvePath path).parts = none) :
    (x.chown (x.resolvePath path)).isSome := by
  obtain ⟨u, hstore⟩ := FileActions.created_spec hnone h
  have hobs := congrArg Prod.snd hstore
  unfold ActionExecutor.store at hobs
  cases hchown : x.chown (x.resolvePath path) with
  | none =>
      rw [hchown] at hobs
      cases hobs
  | some message => rfl

/-- A directory stays one. -/
theorem node?_write_of_dir (h : x.write t { path, content } = .ok (t', obs))
    (hdir : FileTree.node? t (x.resolvePath path).parts = some .dir) :
    FileTree.node? t' (x.resolvePath path).parts = some .dir := by
  obtain ⟨u, hu, ⟨rfl, -, -⟩ | ⟨newFile, -, -, hne, -⟩⟩ := write_cases h
  · exact node?_makeParent hu hdir
  · exact absurd (node?_makeParent hu hdir) hne

/-- What can be read is a file. -/
theorem node?_of_read {p : Stores.RelPath} (h : x.read t { path } = .ok (.fileRead p content)) :
    ∃ data, FileTree.node? t (x.resolvePath path).parts = some (.file data) := by
  unfold ActionExecutor.read ActionExecutor.openFile at h
  cases hnode : FileTree.node? t (x.resolvePath path).parts with
  | some node =>
    cases node with
    | file data => exact ⟨data, rfl⟩
    | dir =>
      simp only [hnode] at h
      split_ifs at h <;> cases h
  | none =>
    simp only [hnode] at h
    split_ifs at h <;> simp at h

/-- A file that is said not to be found cannot be decoded. -/
theorem fromUTF8?_of_notFound {error : String} (h : x.read t { path } = .ok (.error error))
    (herror : "file not found".toList <:+: error.toList.map Char.toLower) {data : ByteArray}
    (hnode : FileTree.node? t (x.resolvePath path).parts = some (.file data)) :
    String.fromUTF8? data = none := by
  unfold ActionExecutor.read ActionExecutor.openFile at h
  simp only [hnode] at h
  split_ifs at h
  · cases h
    exact absurd herror (by decide)
  · split at h
    · cases h
    · split at h
      · cases h
      · assumption

end

namespace Editor

/-! ## A condition on the call -/

/-- The first of the three answers of the draft editor that has new contents between its tags;
each of the answers before it has none. -/
def Offers (x : Editor) (asked : ℕ) (oldContents draftChanges newContents : Text) : Prop :=
  ∃ k < 3, (∀ j < k, ∃ reply content,
      x.completion (asked + j) [⟨"user", userMsg oldContents draftChanges⟩] = some reply ∧
        reply.content = some content ∧ extractCode content = none) ∧
    ∃ reply content, x.completion (asked + k) [⟨"user", userMsg oldContents draftChanges⟩]
      = some reply ∧ reply.content = some content ∧ extractCode content = some newContents

/-- What an action makes of a text: its draft is appended, or what the draft editor offers
replaces the range of lines. -/
inductive Revises (x : Editor) (asked : ℕ) (action : FileEditAction) (old : Text) : Text → Prop
  | append (hstart : action.start = -1) :
    Revises x asked action old (joinLines (old.splitOn '\n' ++ action.content.splitOn '\n'))
  | replace {startIdx endIdx : ℤ} {new : Text} (hstart : action.start ≠ -1)
    (hfrom : startIdx = action.start - 1)
    (hto : endIdx = if action.end_ ≠ -1 then action.end_ else ((old.splitOn '\n').length : ℤ))
    (hshort : endIdx - startIdx ≤ maxLinesToEdit + 1)
    (hoffers : Offers x asked
      (joinLines (PySeq.slice (old.splitOn '\n') (some startIdx) (some endIdx)))
      action.content new) :
    Revises x asked action old
      (joinLines (PySeq.slice (old.splitOn '\n') none (some startIdx) ++ new.splitOn '\n' ++
        PySeq.slice (old.splitOn '\n') (some endIdx) none))

/-- The linter is on, the range of the action is one of the file, and the linter finds errors in
what the action makes of the file. -/
def LinterRejects (x : Editor) (s : State) (action : FileEditAction) : Prop :=
  x.enableAutoLint = true ∧ ∃ path old updated errors,
    x.read s.files { path := action.path } = .ok (.fileRead path old) ∧
      validateRange action.start action.end_ (old.splitOn '\n').length = none ∧
      Revises x s.asked action old updated ∧
      x.lintFileDiff s.linted action.path old updated = some errors ∧ errors ≠ []

/-- The file is said not to be found, there is none, and the owner of a new one cannot be set. -/
def CannotOwn (x : Editor) (s : State) (action : FileEditAction) : Prop :=
  FileTree.node? s.files (x.parts action) = none ∧
    (∃ error, x.read s.files { path := action.path } = .ok (.error error) ∧
      "file not found".toList <:+: error.toList.map Char.toLower) ∧
    (x.chown (x.resolvePath action.path)).isSome

section

variable {x : Editor} {s s' : State} {action : FileEditAction} {errorObs updated : Text}

theorem offers_of_getNewFileContents {oldContents draftChanges newContents : Text}
    {numRetries asked asked' : ℕ}
    (h : getNewFileContents x oldContents draftChanges numRetries asked
      = (some (some newContents), asked')) :
    ∃ k < numRetries, (∀ j < k, ∃ reply content,
        x.completion (asked + j) [⟨"user", userMsg oldContents draftChanges⟩] = some reply ∧
          reply.content = some content ∧ extractCode content = none) ∧
      ∃ reply content, x.completion (asked + k) [⟨"user", userMsg oldContents draftChanges⟩]
        = some reply ∧ reply.content = some content ∧ extractCode content = some newContents := by
  induction numRetries generalizing asked with
  | zero => cases h
  | succ numRetries ih =>
      rw [getNewFileContents] at h
      split at h
      · cases h
      · rename_i reply hreply
        split at h
        · cases h
        · rename_i content hcontent
          split at h
          · rename_i found hcode
            cases h
            exact ⟨0, Nat.succ_pos _, fun j hj => absurd hj (Nat.not_lt_zero j),
              reply, content, hreply, hcontent, hcode⟩
          · -- an answer without the tags: the next one is asked for
            rename_i hcode
            obtain ⟨k, hk, hbefore, hfound⟩ := ih h
            refine ⟨k + 1, by omega, ?_, ?_⟩
            · intro j hj
              rcases j with _ | j
              · exact ⟨reply, content, hreply, hcontent, hcode⟩
              · rw [show asked + (j + 1) = asked + 1 + j by omega]
                exact hbefore j (by omega)
            · rw [show asked + (k + 1) = asked + 1 + k by omega]
              exact hfound

/-- What comes to a rejection has been rejected by the linter. -/
theorem lint_of_rejected {old new : Text} {t : State}
    (h : x.lintAndWrite t action old new = (.rejected errorObs updated, s')) :
    x.enableAutoLint = true ∧ ∃ errors,
      x.lintFileDiff t.linted action.path old new = some errors ∧ errors ≠ [] := by
  unfold lintAndWrite at h
  by_cases hlint : x.enableAutoLint = true
  · refine ⟨hlint, ?_⟩
    simp only [hlint, if_true] at h
    cases herrors : x.lintFileDiff t.linted action.path old new with
    | none =>
        rw [herrors] at h
        cases h
    | some errors =>
        rw [herrors] at h
        simp only at h
        refine ⟨errors, rfl, ?_⟩
        rintro rfl
        split at h
        · cases h
        · simp at h
  · rw [if_neg hlint] at h
    simp only at h
    cases hwrite : x.write t.files { path := action.path, content := new } with
    | error error =>
        rw [hwrite] at h
        cases h
    | ok result =>
        rw [hwrite] at h
        simp at h

/-- An edit of a file that is rejected has been rejected by the linter. -/
theorem linterRejects_of_editFile {path : Stores.RelPath} {old : Text}
    (hread : x.read s.files { path := action.path } = .ok (.fileRead path old))
    (h : x.editFile s action old = (.rejected errorObs updated, s')) : LinterRejects x s action := by
  unfold editFile at h
  simp only at h
  cases hrange : validateRange action.start action.end_ (old.splitOn '\n').length with
  | some error =>
      rw [hrange] at h
      cases h
  | none =>
      rw [hrange] at h
      simp only at h
      by_cases hstart : action.start = -1
      · rw [if_pos hstart] at h
        obtain ⟨hlint, errors, herrors, hne⟩ := lint_of_rejected h
        exact ⟨hlint, path, old, _, errors, hread, hrange, .append hstart, herrors, hne⟩
      · rw [if_neg hstart] at h
        have hto : (if action.end_ ≠ -1 then action.end_ - 1 + 1
            else ((old.splitOn '\n').length : ℤ))
            = if action.end_ ≠ -1 then action.end_ else ((old.splitOn '\n').length : ℤ) := by
          rw [sub_add_cancel]
        generalize (if action.end_ ≠ -1 then action.end_ - 1 + 1
          else ((old.splitOn '\n').length : ℤ)) = endIdx at h hto
        split at h
        · split at h <;> cases h
        · rename_i hshort
          split at h
          · cases h
          · cases h
          · rename_i new hnew
            obtain ⟨hlint, errors, herrors, hne⟩ := lint_of_rejected h
            have hoffers := offers_of_getNewFileContents (Prod.ext hnew rfl)
            exact ⟨hlint, path, old, _, errors, hread, hrange,
              .replace hstart rfl hto (not_lt.mp hshort) hoffers, herrors, hne⟩

/-- So has an attempt. -/
theorem linterRejects_of_attempt (h : x.attempt s action = (.rejected errorObs updated, s')) :
    LinterRejects x s action := by
  unfold attempt at h
  cases hread : x.read s.files { path := action.path } with
  | error error =>
      rw [hread] at h
      cases h
  | ok shown =>
      rw [hread] at h
      cases shown with
      | fileWrite path old => cases h
      | fileRead path old => exact linterRejects_of_editFile hread h
      | error error =>
          simp only at h
          split_ifs at h
          · unfold createFile at h
            split at h <;> cases h
          · cases h

theorem lintAndWrite_ne_error {old new error : Text} {t : State} :
    x.lintAndWrite t action old new ≠ (.returned (.error error), s') := by
  intro h
  unfold lintAndWrite at h
  split at h
  rename_i errors linted _
  cases errors with
  | none => cases h
  | some errors =>
      simp only at h
      cases hwrite : x.write t.files { path := action.path, content := new } with
      | error raised =>
          rw [hwrite] at h
          cases h
      | ok result =>
          rw [hwrite] at h
          simp only at h
          split_ifs at h <;> cases h

/-- An edit of a file that ends with an error has written nothing. -/
theorem files_of_editFile {old error : Text}
    (h : x.editFile s action old = (.returned (.error error), s')) : s'.files = s.files := by
  unfold editFile at h
  simp only at h
  generalize (if action.end_ ≠ -1 then action.end_ - 1 + 1
    else ((old.splitOn '\n').length : ℤ)) = endIdx at h
  split at h
  · cases h
    rfl
  · split_ifs at h
    · exact absurd h lintAndWrite_ne_error
    · split at h
      · cases h
        rfl
      · cases h
    · split at h
      · cases h
      · cases h
        rfl
      · exact absurd h lintAndWrite_ne_error

/-- The draft of a file that is not found leaves what is there, unless it is a new file without its
owner. -/
theorem node?_of_createFile {message : String} {error : Text} (howner : ¬ CannotOwn x s action)
    (hread : x.read s.files { path := action.path } = .ok (.error message))
    (hnotFound : "file not found".toList <:+: message.toList.map Char.toLower)
    (h : x.createFile s action = (.returned (.error error), s')) :
    FileTree.node? s'.files (x.parts action) = FileTree.node? s.files (x.parts action) := by
  unfold createFile at h
  cases hwrite : x.write s.files { path := action.path, content := strip action.content } with
  | error raised =>
      rw [hwrite] at h
      cases h
  | ok result =>
      obtain ⟨files, obs⟩ := result
      rw [hwrite] at h
      cases obs with
      | fileWrite path content => cases h
      | fileRead path content => cases h
      | error refused =>
          cases h
          cases hnode : FileTree.node? s.files (x.parts action) with
          | none =>
              exact absurd ⟨hnode, ⟨message, hread, hnotFound⟩, chown_of_write hwrite hnode⟩ howner
          | some node =>
              cases node with
              | dir => exact node?_write_of_dir hwrite hnode
              | file data =>
                  -- it is not a text, and the writer refuses it
                  have hbad := fromUTF8?_of_notFound hread hnotFound hnode
                  rw [node?_write hwrite hnode, hbad, if_neg]
                  rintro ⟨-, hsome⟩
                  cases hsome

/-- An attempt that ends with an error leaves what is there, unless it leaves a new file without its
owner. -/
theorem node?_of_attempt {error : Text} (howner : ¬ CannotOwn x s action)
    (h : x.attempt s action = (.returned (.error error), s')) :
    FileTree.node? s'.files (x.parts action) = FileTree.node? s.files (x.parts action) := by
  unfold attempt at h
  cases hread : x.read s.files { path := action.path } with
  | error raised =>
      rw [hread] at h
      cases h
  | ok shown =>
      rw [hread] at h
      cases shown with
      | fileWrite path content => cases h
      | fileRead path content => rw [files_of_editFile h]
      | error message =>
          simp only at h
          split_ifs at h with hnotFound
          · exact node?_of_createFile howner hread hnotFound h
          · cases h

/-- **An error leaves the file as it was** when the linter does not reject what the action makes of
the file, and no new file is left without its owner. -/
theorem errorKeepsFile_of_not_linterRejects (x : Editor) (s : State) (action : FileEditAction)
    (retryNum : ℤ) (hlint : ¬ LinterRejects x s action) (howner : ¬ CannotOwn x s action) :
    x.ErrorKeepsFile s action retryNum := by
  intro error herror
  rw [llmBasedEdit] at herror ⊢
  cases hattempt : x.attempt s action with
  | mk end_ s' =>
      rw [hattempt] at herror
      cases end_ with
      | raised => cases herror
      | rejected errorObs updated => exact absurd (linterRejects_of_attempt hattempt) hlint
      | returned observation =>
          cases herror
          exact node?_of_attempt howner hattempt

end

end Editor

/-! ## A rejected edit -/

/-- A sandbox with the file `/notes.py` and nothing else. -/
def pySandbox : ActionExecutor :=
  { FileActions.notesSandbox with
    resolvePath := fun _ => ⟨[['n', 'o', 't', 'e', 's', '.', 'p', 'y']], by decide, by decide⟩ }

/-- The draft editor replaces everything with `(`, which no program of Python is, and no correction
is tried. -/
def strictEditor : Editor where
  toActionExecutor := pySandbox
  enableAutoLint := true
  correctNum := 0
  completion _ _ := some ⟨some "<updated_code>(</updated_code>".toList, some []⟩
  lintFileDiff _ path _ newContent :=
    if path = "notes.py" ∧ newContent = ['('] then some ["'(' was never closed".toList] else some []
  getDiff _ _ _ := []
  getEditGroups _ _ := []
  getTopKChunkMatches _ _ := some []

/-- The file `/notes.py` with the text `a`. -/
def notesState : State :=
  { files := .set .empty [['n', 'o', 't', 'e', 's', '.', 'p', 'y']]
      (.file (String.ofList ['a']).toUTF8) }

theorem hasText_notesState : FileActions.HasText pySandbox notesState.files "notes.py" ['a'] := by
  constructor
  · rfl
  · unfold FileTree.node?
    rw [if_neg (pySandbox.resolvePath "notes.py").ne_nil]
    exact (PyDict.get?_set _ _ _ _).trans (if_pos rfl)

theorem read_notesState : strictEditor.read notesState.files { path := "notes.py" }
    = .ok (.fileRead (strictEditor.resolvePath "notes.py") ['a']) :=
  FileActions.read_spec ⟨rfl, by decide⟩ hasText_notesState.file 0 (-1)

/-- The edit of the whole file. -/
def wholeFile : FileEditAction := { path := "notes.py", content := ['('] }

/-- The linter rejects the edit, which has been written. -/
theorem attempt_wholeFile : ∃ errorObs s',
    strictEditor.attempt notesState wholeFile = (.rejected errorObs ['('], s') ∧
      FileTree.node? s'.files (strictEditor.parts wholeFile)
        = some (.file (Editor.written ['('])) := by
  have hedit : strictEditor.editFile notesState wholeFile ['a']
      = strictEditor.lintAndWrite { notesState with asked := 1 } wholeFile ['a'] ['('] := by
    rfl
  have hlint : (if strictEditor.enableAutoLint = true then
      (strictEditor.lintFileDiff notesState.linted wholeFile.path ['a'] ['('], notesState.linted + 1)
      else (some [], notesState.linted)) = (some ["'(' was never closed".toList], 1) := rfl
  have hwrite : strictEditor.write notesState.files { path := wholeFile.path, content := ['('] }
      = .ok (strictEditor.store notesState.files (strictEditor.resolvePath "notes.py")
          (FileActions.insertLines (['('].splitOn '\n') (FileActions.readlines ['a']) 0 (-1))) :=
    FileActions.write_spec hasText_notesState ['('] 0 (-1)
  refine ⟨lintErrorMessage strictEditor "notes.py" ['a'] ['('] ["'(' was never closed".toList],
    { files := _, asked := 1, linted := 1 }, ?_, node?_write hwrite hasText_notesState.file⟩
  rw [Editor.attempt, show wholeFile.path = "notes.py" from rfl, read_notesState]
  dsimp only
  rw [hedit, Editor.lintAndWrite]
  dsimp only
  rw [hlint]
  dsimp only
  rw [hwrite]
  dsimp only
  rw [if_pos (List.cons_ne_nil _ _)]
  rfl

/-- The error says that the changes are not applied, and the file has the new text. -/
theorem not_errorKeepsFile_wholeFile : ¬ strictEditor.ErrorKeepsFile notesState wholeFile 0 := by
  obtain ⟨errorObs, s', hattempt, hnode⟩ := attempt_wholeFile
  have hend : strictEditor.llmBasedEdit notesState wholeFile 0 = (some (.error errorObs), s') := by
    rw [Editor.llmBasedEdit, hattempt]
    dsimp only
    rw [Editor.correctEdit, dif_pos (by decide)]
  intro hkeeps
  have hsame := hkeeps errorObs (by rw [hend])
  rw [hend, hnode] at hsame
  have hbytes := FileTree.Node.file.inj (Option.some.inj (hsame.trans hasText_notesState.file))
  have htexts := congrArg String.fromUTF8? hbytes
  rw [Editor.written, WebHook.fromUTF8?_toUTF8, WebHook.fromUTF8?_toUTF8] at htexts
  exact absurd (String.ofList_injective (Option.some.inj htexts)) (by decide)

/-- An edit of a line that the file does not have is refused, and the file is as it was. -/
theorem errorKeepsFile_noLine :
    validateRange 5 5 1 ≠ none ∧
      strictEditor.ErrorKeepsFile notesState ⟨"notes.py", ['('], 5, 5⟩ 0 := by
  have hrange : validateRange 5 5 1 ≠ none := by decide
  refine ⟨hrange, Editor.errorKeepsFile_of_not_linterRejects strictEditor notesState _ 0 ?_ ?_⟩
  · rintro ⟨-, path, old, updated, errors, hread, hnone, -⟩
    rw [read_notesState] at hread
    cases hread
    exact hrange hnone
  · rintro ⟨hnode, -⟩
    have hfile := hasText_notesState.file
    cases hfile.symm.trans hnode

end OpenHands.DraftEdits
