/-
# File edits

`FileEditObservation` of `openhands/events/observation/files.py`: the text that stands for
an edit of a file.  The text of an LLM-based edit shows the hunks of the difference, which
`SequenceMatcher` finds.  It is computed once and kept in `_diff_cache`, so reading the
text changes the observation.

  * `exists_str_iff` — when an edit has a text;
  * `FileEdit.str_again` — the text is the same when it is read again.
-/
import OpenHands.Event
import OpenHands.Lib.PyStr

namespace OpenHands

/-! ## The groups of a difference -/

/-- The tags of the opcodes. -/
inductive OpcodeTag where
  | replace | delete | insert | equal
  deriving DecidableEq, Repr

/-- An opcode: the lines `i1` to `i2` of the old text become the lines `j1` to `j2` of the
new text. -/
structure Opcode where
  tag : OpcodeTag
  i1 : ℕ
  i2 : ℕ
  j1 : ℕ
  j2 : ℕ
  deriving DecidableEq, Repr

/-- `SequenceMatcher(None, old_lines, new_lines).get_grouped_opcodes(n_context_lines)`; no
group is empty. -/
abbrev GroupedOpcodes : Type :=
  (oldLines newLines : List String) → (nContextLines : ℕ) →
    List {group : List Opcode // group ≠ []}

/-- An edit group. -/
structure EditGroup where
  beforeEdits : List String := []
  afterEdits : List String := []
  deriving DecidableEq, Repr

/-- The number of a line, to the right in a column. -/
def lineNumber (width lineNum : ℕ) : String :=
  String.ofList (List.replicate (width - (toString lineNum).length) ' ') ++ toString lineNum

/-- The lines from `start` to `stop` with their numbers. -/
def numberedLines (sign : String) (width : ℕ) (lines : List String) (start stop : ℕ) :
    List String :=
  ((lines.drop start).take (stop - start)).zipIdx.map fun (line, idx) =>
    sign ++ lineNumber width (start + idx + 1) ++ "|" ++ line

/-- The lines of one opcode are added to its group. -/
def EditGroup.add (indentPadSize : ℕ) (oldLines newLines : List String) (curGroup : EditGroup)
    (op : Opcode) : EditGroup :=
  let before (sign : String) (width : ℕ) := numberedLines sign width oldLines op.i1 op.i2
  let after (sign : String) (width : ℕ) := numberedLines sign width newLines op.j1 op.j2
  match op.tag with
  | .equal => ⟨curGroup.beforeEdits ++ before "" indentPadSize,
      curGroup.afterEdits ++ after "" indentPadSize⟩
  | .replace => ⟨curGroup.beforeEdits ++ before "-" (indentPadSize - 1),
      curGroup.afterEdits ++ after "+" (indentPadSize - 1)⟩
  | .delete => { curGroup with
      beforeEdits := curGroup.beforeEdits ++ before "-" (indentPadSize - 1) }
  | .insert => { curGroup with
      afterEdits := curGroup.afterEdits ++ after "+" (indentPadSize - 1) }

/-! ## The observation -/

/-- `FileEditSource`. -/
inductive FileEditSource where
  | llmBasedEdit | ohAci
  deriving DecidableEq, Repr

/-- The fields of a `FileEditObservation` beside its content. -/
structure FileEdit where
  path : String := ""
  prevExist : Bool := false
  oldContent : Option String := none
  newContent : Option String := none
  implSource : FileEditSource := .llmBasedEdit
  diffCache : Option String := none
  deriving DecidableEq, Repr

namespace FileEdit

variable (groupedOpcodes : GroupedOpcodes)

/-- `get_edit_groups`. -/
def getEditGroups (nContextLines : ℕ) (e : FileEdit) : List EditGroup :=
  match e.oldContent, e.newContent with
  | some oldContent, some newContent =>
    let oldLines := oldContent.splitOn "\n"
    let newLines := newContent.splitOn "\n"
    (groupedOpcodes oldLines newLines nContextLines).map fun group =>
      let indentPadSize := (toString (group.val.getLast group.property).j1).length + 1
      group.val.foldl (EditGroup.add indentPadSize oldLines newLines) {}
  | _, _ => []

/-- The part of the visualization that shows one group. -/
def groupLines (opType : String) (total : ℕ) (group : EditGroup) (i : ℕ) : List String :=
  (if i = 0 then [] else ["-------------------------"]) ++
    [s!"[begin of {opType} {i + 1} / {total}]", s!"(content before {opType})"] ++
    group.beforeEdits ++ [s!"(content after {opType})"] ++ group.afterEdits ++
    [s!"[end of {opType} {i + 1} / {total}]"]

/-- The visualization of an edit that is not cached. -/
def renderDiff (nContextLines : ℕ) (changeApplied : Bool) (e : FileEdit) : String :=
  if changeApplied ∧ e.oldContent = e.newContent then
    "(no changes detected. Please make sure your edits change the content of the existing " ++
      "file.)\n"
  else
    let editGroups := e.getEditGroups groupedOpcodes nContextLines
    let header :=
      if changeApplied then s!"[Existing file {e.path} is edited with {editGroups.length} changes.]"
      else s!"[Changes are NOT applied to {e.path} - Here's how the file looks like " ++
        "if changes are applied.]"
    let opType := if changeApplied then "edit" else "ATTEMPTED edit"
    "\n".intercalate (header ::
      editGroups.zipIdx.flatMap fun (group, i) => groupLines opType editGroups.length group i)

/-- `visualize_diff`; the result is cached. -/
def visualizeDiff (nContextLines : ℕ) (changeApplied : Bool) (e : FileEdit) : String × FileEdit :=
  match e.diffCache with
  | some diff => (diff, e)
  | none =>
    let diff := e.renderDiff groupedOpcodes nContextLines changeApplied
    (diff, { e with diffCache := some diff })

/-- `__str__`, of an observation with this content. -/
def str (content : String) (e : FileEdit) : Except PyError (String × FileEdit) :=
  if e.implSource = .ohAci then .ok (content, e)
  else if !e.prevExist then
    if e.oldContent = some "" then
      .ok (s!"[New file {e.path} is created with the provided content.]\n", e)
    else .error .assertionError
  else
    let (diff, e) := e.visualizeDiff groupedOpcodes 2 true
    .ok (String.ofList (PyStr.rstrip diff.toList) ++ "\n", e)

/-- What `__str__` asserts: a file that an LLM-based edit created had no content before. -/
def NewFileEmpty (e : FileEdit) : Prop :=
  e.implSource = .llmBasedEdit → e.prevExist = false → e.oldContent = some ""

instance (e : FileEdit) : Decidable e.NewFileEmpty := by
  unfold NewFileEmpty
  infer_instance

variable {groupedOpcodes} {content text : String} {e e' : FileEdit}

/-- **An edit has a text** exactly when the assertion about new files holds. -/
theorem exists_str_iff :
    (∃ read, e.str groupedOpcodes content = .ok read) ↔ e.NewFileEmpty := by
  unfold str NewFileEmpty
  cases e.implSource with
  | ohAci =>
      rw [if_pos rfl]
      exact ⟨fun _ h => (nomatch h), fun _ => ⟨_, rfl⟩⟩
  | llmBasedEdit =>
      rw [if_neg (by decide)]
      cases e.prevExist with
      | true => exact ⟨fun _ _ h => (nomatch h), fun _ => ⟨_, rfl⟩⟩
      | false =>
          by_cases hold : e.oldContent = some ""
          · simp [hold]
          · simp [hold]

/-- Reading a text again finds it in the cache. -/
theorem visualizeDiff_again (n : ℕ) (applied : Bool) (e : FileEdit) :
    (e.visualizeDiff groupedOpcodes n applied).2.visualizeDiff groupedOpcodes n applied
      = e.visualizeDiff groupedOpcodes n applied := by
  unfold visualizeDiff
  cases hcache : e.diffCache with
  | none => rfl
  | some diff => simp only [hcache]

/-- Only the cache is changed. -/
theorem visualizeDiff_frame (groupedOpcodes : GroupedOpcodes) (n : ℕ) (applied : Bool) (e : FileEdit) :
    (e.visualizeDiff groupedOpcodes n applied).2
      = { e with diffCache := (e.visualizeDiff groupedOpcodes n applied).2.diffCache } := by
  unfold visualizeDiff
  cases e.diffCache with
  | none => rfl
  | some diff => rfl

/-- **The text of an edit is the same** when it is read again. -/
theorem str_again (h : e.str groupedOpcodes content = .ok (text, e')) :
    e'.str groupedOpcodes content = .ok (text, e') := by
  by_cases hsource : e.implSource = .ohAci
  · have hread : e.str groupedOpcodes content = .ok (content, e) := by
      unfold str
      rw [if_pos hsource]
    rw [hread] at h
    cases h
    exact hread
  · cases hexist : e.prevExist with
    | false =>
        unfold str at h
        simp only [if_neg hsource, hexist, Bool.not_false, if_true] at h
        split_ifs at h with hold
        cases h
        unfold str
        simp only [if_neg hsource, hexist, hold, Bool.not_false, if_true]
    | true =>
        unfold str at h
        simp only [if_neg hsource, hexist, Bool.not_true, Bool.false_eq_true, if_false] at h
        cases h
        have hframe := visualizeDiff_frame groupedOpcodes 2 true e
        have hsource' : (e.visualizeDiff groupedOpcodes 2 true).2.implSource ≠ .ohAci := by
          rw [hframe]
          exact hsource
        have hexist' : (e.visualizeDiff groupedOpcodes 2 true).2.prevExist = true := by
          rw [hframe]
          exact hexist
        unfold str
        simp only [if_neg hsource', hexist', Bool.not_true, Bool.false_eq_true, if_false,
          visualizeDiff_again]

end FileEdit

end OpenHands
