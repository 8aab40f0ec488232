/-
# Writing and reading files in the sandbox

`FileWriteAction` and `FileReadAction` of the action server (runtime/utils/files.py and
runtime/action_execution_server.py) on the directory tree of the sandbox.  The writer ends
every line of the content with `\n`, also the last one; the reader clamps its range.
-/
import OpenHands.Event
import OpenHands.Lib.Base64
import OpenHands.Lib.Fallible
import OpenHands.Lib.PySeq
import OpenHands.Lib.TextLines
import OpenHands.SameStores

namespace OpenHands.FileActions

open Fallible
open Stores (RelPath universalNewlines)

/-! ## Lines -/

/-- `file.readlines()`. -/
def readlines (text : List Char) : List (List Char) :=
  TextLines.keepEnds '\n' (universalNewlines text)

/-- `read_lines`. -/
def readLines (allLines : List (List Char)) (start end_ : ℤ) : List (List Char) :=
  let start := max start 0
  let start := min start allLines.length
  let end_ := if end_ = -1 then -1 else max end_ 0
  let end_ := min end_ allLines.length
  if end_ = -1 then
    if start = 0 then allLines else PySeq.slice allLines (some start) none
  else
    let numLines : ℤ := allLines.length
    let begin := max 0 (min start (numLines - 2))
    let end_ := if end_ > numLines then -1 else max (begin + 1) end_
    PySeq.slice allLines (some begin) (some end_)

/-- `insert_lines`. -/
def insertLines (toInsert original : List (List Char)) (start end_ : ℤ) : List (List Char) :=
  (if start = 0 then [[]] else PySeq.slice original none (some start))
    ++ toInsert.map (· ++ ['\n'])
    ++ if end_ = -1 then [[]] else PySeq.slice original (some end_) none

/-! ## The action server -/

/-- The files of the sandbox. -/
abbrev Files := FileTree (List Char) ByteArray

structure FileReadAction where
  path : String
  start : ℤ := 0
  end_ : ℤ := -1

structure FileWriteAction where
  path : String
  content : List Char
  start : ℤ := 0
  end_ : ℤ := -1

inductive Observation
  | fileRead (path : RelPath) (content : List Char)
  | fileWrite (path : RelPath) (content : List Char)
  | error (content : String)

/-- What the action server takes from its surroundings. -/
structure ActionExecutor where
  workingDir : String
  /-- `is_binary(path)`. -/
  isBinary : String → Bool
  /-- `self._resolve_path(path, working_dir)`, below the root of the sandbox. -/
  resolvePath : String → RelPath
  /-- `mimetypes.guess_type`. -/
  guessType : RelPath → Option String
  /-- The text of the `PermissionError` of `os.chmod` and `os.chown`, if they raise it. -/
  chown : RelPath → Option String

/-- `str(filepath)`. -/
def fileName (filepath : RelPath) : List Char := '/' :: filepath.chars

/-- `filepath.lower().endswith(suffixes)`. -/
def hasSuffix (filepath : RelPath) (suffixes : List String) : Bool :=
  suffixes.any fun suffix => suffix.toList <:+ (fileName filepath).map Char.toLower

namespace ActionExecutor

variable (x : ActionExecutor)

/-- The type of an image, a document or a video, which is read as a data URL. -/
def mediaType (filepath : RelPath) : Option String :=
  if hasSuffix filepath [".png", ".jpg", ".jpeg", ".bmp", ".gif"] then
    some ((x.guessType filepath).getD "image/png")
  else if hasSuffix filepath [".pdf"] then some "application/pdf"
  else if hasSuffix filepath [".mp4", ".webm", ".ogg"] then
    some ((x.guessType filepath).getD "video/mp4")
  else none

/-- `open(filepath)` for reading. -/
def openFile (t : Files) (filepath : RelPath) : Except FileTree.FsError (FileTree.Node ByteArray) :=
  match FileTree.node? t filepath.parts with
  | some node => .ok node
  | none =>
    if filepath.parts.inits.any fun path =>
      match FileTree.node? t path with
      | some (.file _) => true
      | _ => false
    then .error .notADirectory
    else .error .fileNotFound

/-- `ActionExecutor.read`, for an action whose source is not the editor. -/
def read (t : Files) (action : FileReadAction) : Except FileTree.FsError Observation :=
  if x.isBinary action.path then .ok (.error "ERROR_BINARY_FILE")
  else
    let filepath := x.resolvePath action.path
    let name := String.ofList (fileName filepath)
    match openFile t filepath with
    | .error .fileNotFound =>
      .ok (.error ("File not found: " ++ name ++ ". Your current working directory is "
        ++ x.workingDir ++ "."))
    | .error error => .error error
    | .ok .dir =>
      .ok (.error ("Path is a directory: " ++ name ++ ". You can only read files"))
    | .ok (.file data) =>
      match x.mediaType filepath with
      | some mime =>
        .ok (.fileRead filepath (("data:" ++ mime ++ ";base64,").toList
          ++ Base64.encode data.toList))
      | none =>
        match String.fromUTF8? data with
        | some text =>
          .ok (.fileRead filepath (readLines (readlines text.toList) action.start
            action.end_).flatten)
        | none => .ok (.error ("File could not be decoded as utf-8: " ++ name ++ "."))

/-- `if not os.path.exists(dirname): os.makedirs(dirname)`. -/
def makeParent (t : Files) (dirname : List (List Char)) : Except FileTree.FsError Files :=
  if (FileTree.node? t dirname).isSome then .ok t else FileTree.makedirs t dirname

/-- The file after `file.writelines(new_file)`, with its owner. -/
def store (t : Files) (filepath : RelPath) (newFile : List (List Char)) : Files × Observation :=
  (t.set filepath.parts (.file (String.ofList newFile.flatten).toUTF8),
    match x.chown filepath with
    | none => .fileWrite filepath []
    | some e => .error ("File " ++ String.ofList (fileName filepath)
        ++ " written, but failed to change ownership and permissions: " ++ e))

/-- `ActionExecutor.write`. -/
def write (t : Files) (action : FileWriteAction) :
    Except FileTree.FsError (Files × Observation) := do
  let filepath := x.resolvePath action.path
  let name := String.ofList (fileName filepath)
  let insert := action.content.splitOn '\n'
  let dirname := filepath.parts.dropLast
  let t ← makeParent t dirname
  match FileTree.node? t filepath.parts with
  | none =>
    match FileTree.node? t dirname with
    | some (.file _) => .error .notADirectory
    | _ => .ok (x.store t filepath (insert.map (· ++ ['\n'])))
  | some .dir =>
    .ok (t, .error ("Path is a directory: " ++ name ++ ". You can only write to files"))
  | some (.file data) =>
    match String.fromUTF8? data with
    | some text =>
      .ok (x.store t filepath (insertLines insert (readlines text.toList) action.start
        action.end_))
    | none => .ok (t, .error ("File could not be decoded as utf-8: " ++ name))

end ActionExecutor

/-! ## Text mode -/

theorem universalNewlines_cons {c : Char} (hc : c ≠ '\r') (rest : List Char) :
    universalNewlines (c :: rest) = c :: universalNewlines rest := by
  rw [universalNewlines]
  · rintro r rfl
    exact absurd rfl hc
  · rintro rfl
    exact absurd rfl hc

theorem universalNewlines_cr {rest : List Char} (hrest : rest.head? ≠ some '\n') :
    universalNewlines ('\r' :: rest) = '\n' :: universalNewlines rest := by
  rw [universalNewlines]
  rintro r rfl
  exact hrest rfl

/-- What a line end closes is translated on its own. -/
theorem universalNewlines_append (s t : List Char) :
    universalNewlines (s ++ '\n' :: t)
      = universalNewlines (s ++ ['\n']) ++ universalNewlines t := by
  induction s using Stores.universalNewlines.induct with
  | case1 =>
    rw [List.nil_append, List.nil_append, universalNewlines_cons (by decide)]
    rfl
  | case2 rest ih =>
    simp only [List.cons_append, universalNewlines]
    rw [ih]
  | case3 rest hrest ih =>
    cases rest with
    | nil => simp [universalNewlines]
    | cons c rest =>
      have hc : c ≠ '\n' := fun hc => hrest rest (by rw [hc])
      have hhead : ∀ u, (c :: rest ++ u).head? ≠ some '\n' := by
        intro u h
        exact hc (Option.some.inj h)
      rw [List.cons_append, List.cons_append (a := '\r'), universalNewlines_cr (hhead _),
        universalNewlines_cr (hhead _), ih]
      rfl
  | case4 c rest _ hc ih =>
    have hne : c ≠ '\r' := fun h => hc h
    rw [List.cons_append, List.cons_append, universalNewlines_cons hne,
      universalNewlines_cons hne, ih, List.cons_append]

/-- A text without carriage returns is read as it is. -/
theorem universalNewlines_append_of_notMem {s : List Char} (hs : '\r' ∉ s) (t : List Char) :
    universalNewlines (s ++ t) = s ++ universalNewlines t := by
  induction s with
  | nil => rfl
  | cons c s ih =>
    rw [List.mem_cons, not_or] at hs
    rw [List.cons_append, universalNewlines_cons (Ne.symm hs.1), ih hs.2, List.cons_append]

/-- A text in text mode that ends with a line end still does. -/
theorem getLast?_universalNewlines (s : List Char) :
    (universalNewlines (s ++ ['\n'])).getLast? = some '\n' := by
  induction s using Stores.universalNewlines.induct with
  | case1 => rfl
  | case2 rest ih =>
    simp only [List.cons_append, universalNewlines]
    rw [List.getLast?_cons, ih]
    rfl
  | case3 rest hrest ih =>
    cases rest with
    | nil => rfl
    | cons c rest =>
      have hhead : (c :: rest ++ ['\n']).head? ≠ some '\n' := by
        intro h
        exact hrest rest (by rw [Option.some.inj h])
      rw [List.cons_append, universalNewlines_cr hhead, List.getLast?_cons, ih]
      rfl
  | case4 c rest _ hc ih =>
    rw [List.cons_append, universalNewlines_cons (fun h => hc h), List.getLast?_cons, ih]
    rfl

/-- The content split at its line ends and every part ended again: the content with one more
line end. -/
theorem flatten_split (content : List Char) :
    ((content.splitOn '\n').map (· ++ ['\n'])).flatten = content ++ ['\n'] := by
  have hparts : ∀ parts : List (List Char), parts ≠ [] →
      (parts.map (· ++ ['\n'])).flatten = ['\n'].intercalate parts ++ ['\n'] := by
    intro parts hne
    induction parts with
    | nil => exact absurd rfl hne
    | cons part parts ih =>
      cases parts with
      | nil => simp
      | cons next parts =>
        rw [List.map_cons, List.flatten_cons, ih (List.cons_ne_nil _ _),
          List.intercalate_cons_cons]
        simp
  rw [hparts _ (List.splitOn_ne_nil _ _), List.intercalate_splitOn]

/-! ## Ranges of lines -/

/-- The line behind a range: `-1` stands for the end of the file. -/
def stopLine (lines : ℕ) (end_ : ℤ) : ℕ := if end_ = -1 then lines else end_.toNat

/-- `0 <= start <= end <= lines`, or `end = -1`. -/
structure IsRange (lines : ℕ) (start end_ : ℤ) : Prop where
  nonneg : 0 ≤ start
  start_le : start ≤ stopLine lines end_
  stop_le : stopLine lines end_ ≤ lines
  sentinel : end_ = -1 ∨ 0 ≤ end_

/-- The lines of a range. -/
def linesOf (lines : List (List Char)) (start end_ : ℤ) : List (List Char) :=
  (lines.take (stopLine lines.length end_)).drop start.toNat

/-- The reader returns the lines of the range, unless only the last of several lines is
asked for by its number. -/
theorem readLines_eq {lines : List (List Char)} {start end_ : ℤ}
    (hrange : IsRange lines.length start end_) (hstrict : end_ = -1 ∨ start < end_)
    (hfront : end_ = -1 ∨ start + 2 ≤ lines.length ∨ lines.length ≤ 1) :
    readLines lines start end_ = linesOf lines start end_ := by
  obtain ⟨hnonneg, hstart, hstop, hsentinel⟩ := hrange
  unfold readLines linesOf stopLine at *
  by_cases hend : end_ = -1
  · subst hend
    simp only [if_true] at hstart ⊢
    have hmin : min (-1 : ℤ) lines.length = -1 := by omega
    have hclamp : min (max start 0) (lines.length : ℤ) = start := by omega
    rw [if_pos hmin, hclamp, List.take_length]
    by_cases hzero : start = 0
    · rw [if_pos hzero, hzero]
      rfl
    · rw [if_neg hzero]
      simp only [PySeq.slice, Option.elim_some, Option.elim_none, List.take_length,
        PySeq.bound_of_nonneg _ hnonneg]
      congr 1
      omega
  · simp only [if_neg hend] at hstart hstop ⊢
    have hend' : 0 ≤ end_ := by omega
    have hmin : min (max end_ 0) (lines.length : ℤ) = end_ := by omega
    have hclamp : min (max start 0) (lines.length : ℤ) = start := by omega
    have hbegin : max 0 (min start ((lines.length : ℤ) - 2)) = start := by omega
    rw [hmin, if_neg hend, hclamp, hbegin, if_neg (by omega)]
    have hmax : max (start + 1) end_ = end_ := by omega
    simp only [PySeq.slice, Option.elim_some, hmax, PySeq.bound_of_nonneg _ hnonneg,
      PySeq.bound_of_nonneg _ hend']
    congr 1
    · omega
    · congr 1
      omega

/-- The writer puts the new lines in the place of the range. -/
theorem insertLines_eq {new lines : List (List Char)} {start end_ : ℤ}
    (hrange : IsRange lines.length start end_) :
    (insertLines new lines start end_).flatten
      = (lines.take start.toNat).flatten ++ (new.map (· ++ ['\n'])).flatten
        ++ (lines.drop (stopLine lines.length end_)).flatten := by
  obtain ⟨hnonneg, -, hstop, hsentinel⟩ := hrange
  have hfront : (if start = 0 then [[]] else PySeq.slice lines none (some start)).flatten
      = (lines.take start.toNat).flatten := by
    by_cases hzero : start = 0
    · rw [if_pos hzero, hzero]
      rfl
    · rw [if_neg hzero, PySeq.slice_stop_of_nonneg lines hnonneg]
  have hback : (if end_ = -1 then [[]] else PySeq.slice lines (some end_) none).flatten
      = (lines.drop (stopLine lines.length end_)).flatten := by
    unfold stopLine at hstop ⊢
    by_cases hend : end_ = -1
    · rw [if_pos hend, if_pos hend, List.drop_length]
      rfl
    · rw [if_neg hend] at hstop
      rw [if_neg hend, if_neg hend]
      simp only [PySeq.slice, Option.elim_some, Option.elim_none, List.take_length]
      rw [PySeq.bound_of_nonneg _ (hsentinel.resolve_left hend)]
      congr 2
      omega
  unfold insertLines
  rw [List.flatten_append, List.flatten_append, hfront, hback]

/-! ## Writing and reading back -/

section

variable {x : ActionExecutor} {t t' : Files} {path : String} {text content : List Char}
  {start end_ : ℤ}

/-- There is a file with the text, in a directory. -/
structure HasText (x : ActionExecutor) (t : Files) (path : String) (text : List Char) : Prop where
  dir : FileTree.node? t (x.resolvePath path).parts.dropLast = some .dir
  file : FileTree.node? t (x.resolvePath path).parts
    = some (.file (String.ofList text).toUTF8)

/-- The path is read as a text: it is that of no binary file, image, document or video. -/
structure ReadsText (x : ActionExecutor) (path : String) : Prop where
  notBinary : x.isBinary path = false
  noMedia : x.mediaType (x.resolvePath path) = none

theorem readlines_of_notMem (htext : '\r' ∉ text) :
    readlines text = TextLines.keepEnds '\n' text := by
  unfold readlines
  rw [Stores.universalNewlines_eq_iff.mpr htext]

theorem flatten_readlines (text : List Char) : (readlines text).flatten = universalNewlines text :=
  TextLines.flatten_keepEnds _

theorem read_spec (hpath : ReadsText x path)
    (hfile : FileTree.node? t (x.resolvePath path).parts
      = some (.file (String.ofList text).toUTF8)) (start end_ : ℤ) :
    x.read t { path, start, end_ }
      = .ok (.fileRead (x.resolvePath path) (readLines (readlines text) start end_).flatten) := by
  unfold ActionExecutor.read ActionExecutor.openFile
  simp only [hpath.notBinary, hpath.noMedia, hfile, WebHook.fromUTF8?_toUTF8, String.toList_ofList,
    Bool.false_eq_true, if_false]

/-- The whole file is read. -/
theorem readLines_all (lines : List (List Char)) : readLines lines 0 (-1) = lines := by
  have hrange : IsRange lines.length 0 (-1) := by
    constructor <;> simp [stopLine]
  rw [readLines_eq hrange (Or.inl rfl) (Or.inl rfl)]
  simp [linesOf, stopLine]

theorem node?_store (x : ActionExecutor) (t : Files) (p : RelPath) (newFile : List (List Char)) :
    FileTree.node? (x.store t p newFile).1 p.parts
      = some (.file (String.ofList newFile.flatten).toUTF8) := by
  unfold FileTree.node? ActionExecutor.store
  rw [if_neg p.ne_nil, PyDict.get?_set, if_pos rfl]

theorem write_spec (h : HasText x t path text) (content : List Char) (start end_ : ℤ) :
    x.write t { path, content, start, end_ }
      = .ok (x.store t (x.resolvePath path)
          (insertLines (content.splitOn '\n') (readlines text) start end_)) := by
  unfold ActionExecutor.write ActionExecutor.makeParent
  simp only [h.dir, h.file, Option.isSome_some, if_true, WebHook.fromUTF8?_toUTF8, String.toList_ofList,
    bind, Except.bind]

theorem read_after_store (hpath : ReadsText x path) (t : Files) (newFile : List (List Char)) :
    x.read (x.store t (x.resolvePath path) newFile).1 { path }
      = .ok (.fileRead (x.resolvePath path) (universalNewlines newFile.flatten)) := by
  rw [read_spec hpath (node?_store x t _ newFile), readLines_all, flatten_readlines]

/-- Writing and reading agree on the files of a path. -/
structure WriteReadAgree (x : ActionExecutor) (path : String) : Prop where
  /-- What is written to a new file is read back with one more line end. -/
  created : ∀ t t' content obs, FileTree.node? t (x.resolvePath path).parts = none →
    x.write t { path, content } = .ok (t', obs) →
      x.read t' { path }
        = .ok (.fileRead (x.resolvePath path) (universalNewlines (content ++ ['\n'])))
  /-- What is written to a file as a whole is read back with one more line end. -/
  rewritten : ∀ t text content, HasText x t path text →
    ∃ t' obs, x.write t { path, content } = .ok (t', obs) ∧
      x.read t' { path }
        = .ok (.fileRead (x.resolvePath path) (universalNewlines (content ++ ['\n'])))
  /-- Reading a range returns its lines. -/
  range : ∀ t text start end_, HasText x t path text → '\r' ∉ text →
    IsRange (readlines text).length start end_ → (end_ = -1 ∨ start < end_) →
    (end_ = -1 ∨ start + 2 ≤ (readlines text).length ∨ (readlines text).length ≤ 1) →
      x.read t { path, start, end_ }
        = .ok (.fileRead (x.resolvePath path) (linesOf (readlines text) start end_).flatten)
  /-- Writing a range puts the lines of the content in its place. -/
  replaced : ∀ t text content start end_, HasText x t path text → '\r' ∉ text →
    IsRange (readlines text).length start end_ →
    (start < (readlines text).length ∨ ∀ c ∈ text.getLast?, c = '\n') →
      ∃ t' obs text', x.write t { path, content, start, end_ } = .ok (t', obs) ∧
        HasText x t' path text' ∧
        readlines text' = (readlines text).take start.toNat ++ readlines (content ++ ['\n'])
          ++ (readlines text).drop (stopLine (readlines text).length end_)

/-- Making directories changes nothing below them. -/
theorem get?_makedirsFrom {t t' : Files} {done parts key : List (List Char)}
    (h : FileTree.makedirsFrom t done parts = .ok t')
    (hkey : done.length + parts.length < key.length) : t'.get? key = t.get? key := by
  induction parts generalizing t done with
  | nil =>
    cases h
    rfl
  | cons name rest ih =>
    rw [List.length_cons] at hkey
    have hlater : (done ++ [name]).length + rest.length < key.length := by
      rw [List.length_append, List.length_singleton]
      omega
    have hne : done ++ [name] ≠ key := by
      rintro rfl
      omega
    rw [FileTree.makedirsFrom] at h
    cases hnode : t.get? (done ++ [name]) with
    | none =>
      rw [hnode] at h
      rw [ih h hlater, PyDict.get?_set, if_neg (by exact fun heq => hne heq.symm)]
    | some node =>
      rw [hnode] at h
      cases node with
      | file data => cases h
      | dir => exact ih h hlater

theorem created_spec {obs : Observation}
    (hnone : FileTree.node? t (x.resolvePath path).parts = none)
    (hwrite : x.write t { path, content } = .ok (t', obs)) :
    ∃ u, x.store u (x.resolvePath path) ((content.splitOn '\n').map (· ++ ['\n'])) = (t', obs) := by
  have hshort : (x.resolvePath path).parts.dropLast.length < (x.resolvePath path).parts.length := by
    have hpos := List.length_pos_of_ne_nil (x.resolvePath path).ne_nil
    rw [List.length_dropLast]
    omega
  unfold ActionExecutor.write at hwrite
  obtain ⟨u, hu, hrest⟩ := bind_eq_ok_iff.mp hwrite
  -- Whether directories are made or not, there is still nothing at the path.
  have hkept : FileTree.node? u (x.resolvePath path).parts = none := by
    unfold ActionExecutor.makeParent at hu
    unfold FileTree.node? at hnone ⊢
    rw [if_neg (x.resolvePath path).ne_nil] at hnone ⊢
    split_ifs at hu
    · cases hu
      exact hnone
    · rw [get?_makedirsFrom hu (by simpa using hshort), hnone]
  simp only [hkept] at hrest
  split at hrest
  · cases hrest
  · exact ⟨u, Except.ok.inj hrest⟩

theorem hasText_store (h : HasText x t path text) (newFile : List (List Char)) :
    HasText x (x.store t (x.resolvePath path) newFile).1 path newFile.flatten := by
  refine ⟨?_, node?_store x t _ newFile⟩
  have hne : (x.resolvePath path).parts.dropLast ≠ (x.resolvePath path).parts := by
    intro heq
    have hlength := congrArg List.length heq
    have hpos := List.length_pos_of_ne_nil (x.resolvePath path).ne_nil
    rw [List.length_dropLast] at hlength
    omega
  have hdir := h.dir
  unfold FileTree.node? ActionExecutor.store at *
  by_cases hroot : (x.resolvePath path).parts.dropLast = []
  · rw [if_pos hroot]
  · rw [if_neg hroot] at hdir ⊢
    rw [PyDict.get?_set, if_neg hne]
    exact hdir

/-- The lines of a file after a range was replaced. -/
theorem readlines_replaced (htext : '\r' ∉ text) {k : ℕ}
    (hk : k < (readlines text).length ∨ ∀ c ∈ text.getLast?, c = '\n') (content : List Char)
    (stop : ℕ) :
    readlines (((readlines text).take k).flatten ++ (content ++ ['\n'])
        ++ ((readlines text).drop stop).flatten)
      = (readlines text).take k ++ readlines (content ++ ['\n']) ++ (readlines text).drop stop := by
  rw [readlines_of_notMem htext] at hk ⊢
  have hmem : ∀ lines : List (List Char), lines ⊆ TextLines.keepEnds '\n' text →
      '\r' ∉ lines.flatten := by
    intro lines hlines hc
    obtain ⟨line, hline, hc⟩ := List.mem_flatten.mp hc
    apply htext
    rw [← TextLines.flatten_keepEnds (x := '\n') text]
    exact List.mem_flatten.mpr ⟨line, hlines hline, hc⟩
  have hdrop := hmem _ (List.drop_subset stop _)
  -- The lines in front of the range have their ends, so the content starts a new line.
  have htake : ∀ line ∈ (TextLines.keepEnds '\n' text).take k, TextLines.Terminated '\n' line := by
    rcases hk with hk | hk
    · exact TextLines.terminated_of_mem_take hk
    · exact fun line hline => TextLines.terminated_of_getLast hk line (List.mem_of_mem_take hline)
  unfold readlines
  rw [List.append_assoc, universalNewlines_append_of_notMem (hmem _ (List.take_subset k _)),
    List.append_assoc, List.singleton_append, universalNewlines_append,
    Stores.universalNewlines_eq_iff.mpr hdrop,
    TextLines.keepEnds_flatten_append htake, TextLines.keepEnds_append,
    TextLines.keepEnds_flatten_drop, List.append_assoc]
  intro c hc
  rw [getLast?_universalNewlines] at hc
  exact (Option.some.inj hc).symm

/-- Writing and reading agree for every path that is read as text, but for the last line asked
for alone and for new lines behind a last line without its end. -/
theorem writeReadAgree (hpath : ReadsText x path) : WriteReadAgree x path := by
  constructor
  · intro t t' content obs hnone hwrite
    obtain ⟨u, hstore⟩ := created_spec hnone hwrite
    have ht' : t' = _ := congrArg Prod.fst hstore.symm
    rw [ht', read_after_store hpath, flatten_split]
  · intro t text content hfile
    have hrange : IsRange (readlines text).length 0 (-1) := by
      constructor <;> simp [stopLine]
    refine ⟨(x.store t (x.resolvePath path) _).1, _, write_spec hfile content 0 (-1), ?_⟩
    rw [read_after_store hpath, insertLines_eq hrange, flatten_split]
    simp [stopLine]
  · intro t text start end_ hfile _ hrange hstrict hfront
    rw [read_spec hpath hfile.file, readLines_eq hrange hstrict hfront]
  · intro t text content start end_ hfile htext hrange hends
    refine ⟨(x.store t (x.resolvePath path) _).1, _, _, write_spec hfile content start end_,
      hasText_store hfile _, ?_⟩
    rw [insertLines_eq hrange, flatten_split, readlines_replaced htext]
    have hnonneg := hrange.nonneg
    exact hends.imp_left fun h => by omega

end

/-- A sandbox with the file `/notes` and nothing else. -/
def notesSandbox : ActionExecutor where
  workingDir := "/"
  isBinary _ := false
  resolvePath _ := ⟨[['n', 'o', 't', 'e', 's']], by decide, by decide⟩
  guessType _ := none
  chown _ := none

theorem readsText_notes : ReadsText notesSandbox "notes" := ⟨rfl, by decide⟩

/-- The sandbox with a text in its file. -/
def notes (text : List Char) : Files :=
  .set .empty [['n', 'o', 't', 'e', 's']] (.file (String.ofList text).toUTF8)

theorem hasText_notes (text : List Char) : HasText notesSandbox (notes text) "notes" text := by
  constructor
  · rfl
  · unfold FileTree.node?
    rw [if_neg (notesSandbox.resolvePath "notes").ne_nil]
    exact (PyDict.get?_set _ _ _ _).trans (if_pos rfl)

theorem writeReadAgree_notes : WriteReadAgree notesSandbox "notes" :=
  writeReadAgree readsText_notes

/-- The content `a` is read back with a line end; of two lines, the second one asked for alone
comes with the first; and `b` written behind the unended line `a` makes one line with it. -/
theorem read_ne_written :
    (∀ t' obs, notesSandbox.write (notes []) { path := "notes", content := ['a'] } = .ok (t', obs) →
      notesSandbox.read t' { path := "notes" }
        ≠ .ok (.fileRead (notesSandbox.resolvePath "notes") ['a'])) ∧
    notesSandbox.read (notes ['a', '\n', 'b']) { path := "notes", start := 1, end_ := 2 }
      ≠ .ok (.fileRead (notesSandbox.resolvePath "notes") ['b']) ∧
    ∀ t' obs, notesSandbox.write (notes ['a']) ⟨"notes", ['b'], 1, 1⟩ = .ok (t', obs) →
      notesSandbox.read t' { path := "notes" }
        = .ok (.fileRead (notesSandbox.resolvePath "notes") ['a', 'b', '\n']) := by
  refine ⟨?_, ?_, ?_⟩
  · intro t' obs hwrite hread
    rw [write_spec (hasText_notes [])] at hwrite
    cases hwrite
    have hback := read_after_store readsText_notes (notes [])
      (insertLines (['a'].splitOn '\n') (readlines []) 0 (-1))
    have heq := Observation.fileRead.inj (Except.ok.inj (hback.symm.trans hread))
    exact absurd heq.2 (by decide)
  · intro hread
    rw [read_spec readsText_notes (hasText_notes _).file] at hread
    have heq := Observation.fileRead.inj (Except.ok.inj hread)
    exact absurd heq.2 (by decide)
  · intro t' obs hwrite
    rw [write_spec (hasText_notes ['a'])] at hwrite
    cases hwrite
    exact read_after_store readsText_notes (notes ['a'])
      (insertLines (['b'].splitOn '\n') (readlines ['a']) 1 1)

end OpenHands.FileActions
