/-
# Metadata in the prompt of the shell

The prompt of the shell holds a JSON text between two markers, and `bash` puts the values into it
as they are.  The pane is searched for the markers, and the metadata is read from the text between
them.  A value with a quotation mark, a backslash or a control character is not read back, nor one
that holds the closing marker.
-/
import OpenHands.Lib.JsonSplices
import OpenHands.Lib.PyFloat
import OpenHands.Lib.PyRe

namespace OpenHands.PS1Metadata

open JsonText PyStr

abbrev Text := List Char

/-! ## The prompt -/

/-- `CMD_OUTPUT_PS1_BEGIN`. -/
def ps1Begin : Text := "\n###PS1JSON###\n".toList

/-- `CMD_OUTPUT_PS1_END`. -/
def ps1End : Text := "\n###PS1END###".toList

/-- The values of the prompt, in their order. -/
inductive Placeholder
  | pid
  | exitCode
  | username
  | hostname
  | workingDir
  | pyInterpreterPath
  deriving DecidableEq

namespace Placeholder

def all : List Placeholder := [pid, exitCode, username, hostname, workingDir, pyInterpreterPath]

def key : Placeholder → String
  | pid => "pid"
  | exitCode => "exit_code"
  | username => "username"
  | hostname => "hostname"
  | workingDir => "working_dir"
  | pyInterpreterPath => "py_interpreter_path"

def text : Placeholder → Text
  | pid => "$!".toList
  | exitCode => "$?".toList
  | username => "\\u".toList
  | hostname => "\\h".toList
  | workingDir => "$(pwd)".toList
  | pyInterpreterPath => "$(which python 2>/dev/null || echo \"\")".toList

end Placeholder

/-- `json.dumps(d, indent=2)` for a dictionary of strings. -/
def dumpsIndented (entries : List (Text × Text)) : Text :=
  "\x7b\n  ".toList ++
    (List.intersperse ",\n  ".toList
      (entries.map fun entry => quote entry.1 ++ ": ".toList ++ quote entry.2)).flatten ++
    "\n\x7d".toList

/-- `.replace('"', r'\"')`. -/
def escapeQuotes (text : Text) : Text := text.flatMap fun c => if c = '"' then ['\\', '"'] else [c]

/-- `to_ps1_prompt`. -/
def toPs1Prompt : Text :=
  ps1Begin ++ escapeQuotes (dumpsIndented (Placeholder.all.map fun p => (p.key.toList, p.text))) ++
    ps1End ++ ['\n']

/-- A placeholder as it stands in the prompt. -/
def Placeholder.escaped (p : Placeholder) : Text := escapeQuotes (p.text.flatMap escape)

/-- What `bash` makes of the prompt: the placeholders become their values, and the quotation marks
lose their backslashes.  The number counts the characters of a placeholder that are left. -/
def expand (value : Placeholder → Text) : ℕ → Text → Text
  | _, [] => []
  | skip + 1, _ :: text => expand value skip text
  | 0, c :: text =>
    match Placeholder.all.find? fun p => p.escaped <+: c :: text with
    | some p => value p ++ expand value (p.escaped.length - 1) text
    | none =>
      if ['\\', '"'] <+: c :: text then expand value 0 text else c :: expand value 0 text

/-! ## Matches -/

/-- A match of the regular expression: `start()`, `group(1)` and `end()`. -/
structure Match where
  start : ℕ
  group : Text
  stop : ℕ

def beginMarker : Text := strip ps1Begin

def endMarker : Text := strip ps1End

/-- `(.*?)` up to the closing marker, from the start of a line on. -/
def matchAt (lineStart : Bool) (text : Text) : Option (Text × Text) :=
  if lineStart then (PyRe.afterLiteral beginMarker text).bind (cut endMarker) else none

/-- The matches of a text that begins at a position, one after the other. -/
def scan : ℕ → Bool → ℕ → Text → List Match
  | 0, _, _, _ => []
  | _, _, _, [] => []
  | fuel + 1, lineStart, pos, c :: text =>
    match matchAt lineStart (c :: text) with
    | some (group, rest) =>
      let stop := pos + beginMarker.length + group.length + endMarker.length
      ⟨pos, group, stop⟩ :: scan fuel false stop rest
    | none => scan fuel (c = '\n') (pos + 1) text

/-- `CMD_OUTPUT_METADATA_PS1_REGEX.finditer(text)`; each step takes a character at least. -/
def finditer (text : Text) : List Match := scan text.length true 0 text

/-- The matches begin where the search begins, or behind. -/
theorem le_start_of_mem_scan {found : Match} : ∀ {fuel : ℕ} {lineStart : Bool} {pos : ℕ}
    {text : Text}, found ∈ scan fuel lineStart pos text → pos ≤ found.start
  | 0, _, _, _, h => absurd h List.not_mem_nil
  | _ + 1, _, _, [], h => absurd h List.not_mem_nil
  | fuel + 1, lineStart, pos, c :: text, h => by
    rw [scan] at h
    split at h
    · rcases List.mem_cons.mp h with rfl | h
      · exact le_refl _
      · have hle := le_start_of_mem_scan h
        omega
    · exact (Nat.le_succ pos).trans (le_start_of_mem_scan h)

/-- `matches_ps1_metadata`. -/
def matchesPs1Metadata (F : FloatFormat) (text : Text) : List Match :=
  (finditer text).filter fun found => (loads F (strip found.group)).isSome

/-! ## The metadata of a match -/

/-- `CmdOutputMetadata`. -/
structure CmdOutputMetadata where
  exitCode : ℤ := -1
  pid : ℤ := -1
  username : Option Text := none
  hostname : Option Text := none
  workingDir : Option Text := none
  pyInterpreterPath : Option Text := none
  outputPrefix : Text := []
  outputSuffix : Text := []
  deriving DecidableEq

/-- `str(value)` for strings and numbers; no other text is one of a number. -/
def numberText (F : FloatFormat) : PyJson → Option Text
  | .str s => some s.toList
  | .int i => some (intText i)
  | .float x => some (F.text x)
  | _ => none

/-- `int(float(str(value)))`, or `-1` where this raises `ValueError`; an `OverflowError` is not
caught. -/
def intOf (F : FloatFormat) (value : PyJson) : Option ℤ :=
  match (numberText F value).bind PyFloat.ofText with
  | none => some (-1)
  | some .nan => some (-1)
  | some x => x.toInt

/-- A numeric field of the model. -/
def intField (F : FloatFormat) (metadata : PyDict String PyJson) (key : String) : Option ℤ :=
  match metadata.get? key with
  | none => some (-1)
  | some value => intOf F value

/-- A field `str | None` of the model. -/
def textField (metadata : PyDict String PyJson) (key : String) : Option (Option Text) :=
  match metadata.get? key with
  | none => some none
  | some .null => some none
  | some (.str s) => some (some s.toList)
  | some _ => none

/-- A field `str = ''` of the model. -/
def affixField (metadata : PyDict String PyJson) (key : String) : Option Text :=
  match metadata.get? key with
  | none => some []
  | some (.str s) => some s.toList
  | some _ => none

/-- The numeric fields are converted, and the model is made of the dictionary. -/
def CmdOutputMetadata.ofDict (F : FloatFormat) (metadata : PyDict String PyJson) :
    Option CmdOutputMetadata := do
  let pid ← intField F metadata "pid"
  let exitCode ← intField F metadata "exit_code"
  let username ← textField metadata "username"
  let hostname ← textField metadata "hostname"
  let workingDir ← textField metadata "working_dir"
  let pyInterpreterPath ← textField metadata "py_interpreter_path"
  let outputPrefix ← affixField metadata "prefix"
  let outputSuffix ← affixField metadata "suffix"
  pure {
    exitCode := exitCode
    pid := pid
    username := username
    hostname := hostname
    workingDir := workingDir
    pyInterpreterPath := pyInterpreterPath
    outputPrefix := outputPrefix
    outputSuffix := outputSuffix }

/-- `from_ps1_match`, or nothing where it raises. -/
def fromPs1Match (F : FloatFormat) (found : Match) : Option CmdOutputMetadata :=
  match loads F found.group with
  | some (.obj entries) => CmdOutputMetadata.ofDict F (PyDict.ofEntries entries)
  | _ => none

theorem ofDict_eq_some_iff {F : FloatFormat} {metadata : PyDict String PyJson}
    {m : CmdOutputMetadata} : CmdOutputMetadata.ofDict F metadata = some m ↔
      intField F metadata "pid" = some m.pid ∧
      intField F metadata "exit_code" = some m.exitCode ∧
      textField metadata "username" = some m.username ∧
      textField metadata "hostname" = some m.hostname ∧
      textField metadata "working_dir" = some m.workingDir ∧
      textField metadata "py_interpreter_path" = some m.pyInterpreterPath ∧
      affixField metadata "prefix" = some m.outputPrefix ∧
      affixField metadata "suffix" = some m.outputSuffix := by
  unfold CmdOutputMetadata.ofDict
  constructor
  · intro h
    obtain ⟨pid, hpid, h⟩ := Option.bind_eq_some_iff.mp h
    obtain ⟨exitCode, hexitCode, h⟩ := Option.bind_eq_some_iff.mp h
    obtain ⟨username, husername, h⟩ := Option.bind_eq_some_iff.mp h
    obtain ⟨hostname, hhostname, h⟩ := Option.bind_eq_some_iff.mp h
    obtain ⟨workingDir, hworkingDir, h⟩ := Option.bind_eq_some_iff.mp h
    obtain ⟨path, hpath, h⟩ := Option.bind_eq_some_iff.mp h
    obtain ⟨before, hbefore, h⟩ := Option.bind_eq_some_iff.mp h
    obtain ⟨behind, hbehind, h⟩ := Option.bind_eq_some_iff.mp h
    cases h
    exact ⟨hpid, hexitCode, husername, hhostname, hworkingDir, hpath, hbefore, hbehind⟩
  · rintro ⟨hpid, hexitCode, husername, hhostname, hworkingDir, hpath, hbefore, hbehind⟩
    rw [hpid, hexitCode, husername, hhostname, hworkingDir, hpath, hbefore, hbehind]
    rfl

theorem textField_eq_some_iff {metadata : PyDict String PyJson} {key : String} {u : Text} :
    textField metadata key = some (some u) ↔
      metadata.get? key = some (.str (String.ofList u)) := by
  unfold textField
  constructor
  · intro h
    split at h
    · cases h
    · cases h
    · rename_i s hget
      cases h
      rw [hget, String.ofList_toList]
    · cases h
  · intro h
    rw [h]
    simp only [String.toList_ofList]

/-- The digits of a number are read back exactly when the number is one of `float`. -/
theorem intOf_toDigits (F : FloatFormat) (n : ℕ) :
    intOf F (.str (String.ofList (Nat.toDigits 10 n))) = some (n : ℤ) ↔
      PyFloat.Representable n := by
  have htext : (numberText F (.str (String.ofList (Nat.toDigits 10 n)))).bind PyFloat.ofText
      = some (PyFloat.nearest n) := by
    rw [numberText, String.toList_ofList, Option.bind_some, PyFloat.ofText_toDigits]
  rw [← PyFloat.toInt_nearest_iff, intOf, htext]
  unfold PyFloat.nearest
  split_ifs <;> rfl

/-! ## Rendered prompts -/

/-- What the placeholders stand for. -/
structure Values where
  exitCode : ℕ
  pid : ℕ
  username : Text
  hostname : Text
  workingDir : Text
  pyInterpreterPath : Text

namespace Values

def text (values : Values) : Placeholder → Text
  | .pid => Nat.toDigits 10 values.pid
  | .exitCode => Nat.toDigits 10 values.exitCode
  | .username => values.username
  | .hostname => values.hostname
  | .workingDir => values.workingDir
  | .pyInterpreterPath => values.pyInterpreterPath

/-- The prompt in the pane. -/
def prompt (values : Values) : Text := expand values.text 0 toPs1Prompt

/-- The metadata with these values. -/
def metadata (values : Values) : CmdOutputMetadata where
  exitCode := values.exitCode
  pid := values.pid
  username := some values.username
  hostname := some values.hostname
  workingDir := some values.workingDir
  pyInterpreterPath := some values.pyInterpreterPath

/-- The rendered prompt is a match, between its first and its last line break, and the metadata
read from it has the values. -/
def Recovered (F : FloatFormat) (values : Values) : Prop :=
  ∃ found ∈ matchesPs1Metadata F values.prompt,
    found.start = 1 ∧ found.stop + 1 = values.prompt.length ∧
      fromPs1Match F found = some values.metadata

/-- The names and paths stand for themselves in a JSON text and do not hold the closing marker, and
the numbers are numbers of `float`. -/
structure Readable (values : Values) : Prop where
  texts : ∀ p ∈ [Placeholder.username, .hostname, .workingDir, .pyInterpreterPath],
    Verbatim (values.text p) ∧ ¬ endMarker <:+: values.text p
  exitCode : PyFloat.Representable values.exitCode
  pid : PyFloat.Representable values.pid

def fields (values : Values) : List (Text × Text) :=
  Placeholder.all.map fun p => (p.key.toList, values.text p)

def group (values : Values) : Text := '\n' :: splicedObject values.fields ++ ['\n']

theorem beginMarker_eq : beginMarker = "###PS1JSON###".toList := by decide

theorem endMarker_eq : endMarker = "###PS1END###".toList := by decide

/-- The characters that stay and the placeholders of a prompt, in order. -/
def pieces : ℕ → Text → List (Char ⊕ Placeholder)
  | _, [] => []
  | skip + 1, _ :: text => pieces skip text
  | 0, c :: text =>
    match Placeholder.all.find? fun p => p.escaped <+: c :: text with
    | some p => .inr p :: pieces (p.escaped.length - 1) text
    | none => if ['\\', '"'] <+: c :: text then pieces 0 text else .inl c :: pieces 0 text

theorem expand_eq_pieces (value : Placeholder → Text) (skip : ℕ) (text : Text) :
    expand value skip text = (pieces skip text).flatMap (Sum.elim (fun c => [c]) value) := by
  induction text generalizing skip with
  | nil => cases skip <;> rfl
  | cons c text ih =>
    cases skip with
    | succ skip => exact ih skip
    | zero =>
      rw [expand, pieces]
      split
      · rw [List.flatMap_cons, ← ih]
        rfl
      · split_ifs
        · exact ih 0
        · rw [List.flatMap_cons, ← ih]
          rfl

/-- A text without placeholders. -/
def plain (text : String) : List (Char ⊕ Placeholder) := text.toList.map Sum.inl

theorem flatMap_plain (value : Placeholder → Text) (text : String) :
    (plain text).flatMap (Sum.elim (fun c => [c]) value) = text.toList := by
  unfold plain
  rw [List.flatMap_map]
  exact List.flatMap_singleton' text.toList

theorem pieces_toPs1Prompt : pieces 0 toPs1Prompt =
    plain "\n###PS1JSON###\n\x7b\n  \"pid\": \"" ++ .inr .pid ::
      (plain "\",\n  \"exit_code\": \"" ++ .inr .exitCode ::
      (plain "\",\n  \"username\": \"" ++ .inr .username ::
      (plain "\",\n  \"hostname\": \"" ++ .inr .hostname ::
      (plain "\",\n  \"working_dir\": \"" ++ .inr .workingDir ::
      (plain "\",\n  \"py_interpreter_path\": \"" ++ .inr .pyInterpreterPath ::
        plain "\"\n\x7d\n###PS1END###\n"))))) := by
  decide +kernel

theorem prompt_eq (values : Values) :
    values.prompt = '\n' :: (beginMarker ++ (values.group ++ (endMarker ++ ['\n']))) := by
  have hprompt : values.prompt = "\n###PS1JSON###\n\x7b\n  \"pid\": \"".toList ++
      (values.text .pid ++ ("\",\n  \"exit_code\": \"".toList ++
      (values.text .exitCode ++ ("\",\n  \"username\": \"".toList ++
      (values.text .username ++ ("\",\n  \"hostname\": \"".toList ++
      (values.text .hostname ++ ("\",\n  \"working_dir\": \"".toList ++
      (values.text .workingDir ++ ("\",\n  \"py_interpreter_path\": \"".toList ++
      (values.text .pyInterpreterPath ++ "\"\n\x7d\n###PS1END###\n".toList))))))))))) := by
    unfold prompt
    rw [expand_eq_pieces, pieces_toPs1Prompt]
    simp only [List.flatMap_append, List.flatMap_cons, flatMap_plain, Sum.elim_inr]
  rw [hprompt, beginMarker_eq, endMarker_eq]
  simp [group, splicedObject, spliced, fields, Placeholder.all, Placeholder.key]

/-- The first match begins at the prompt and ends at the first closing marker. -/
theorem finditer_prompt (values : Values) :
    ∃ first behind others,
      cut endMarker (values.group ++ (endMarker ++ ['\n'])) = some (first, behind) ∧
      finditer values.prompt = ⟨1, first, first.length + 26⟩ :: others ∧
      ∀ found ∈ others, 1 < found.start := by
  have hmarker : endMarker <:+: values.group ++ (endMarker ++ ['\n']) :=
    ⟨values.group, ['\n'], by simp⟩
  obtain ⟨⟨first, behind⟩, hcut⟩ := Option.isSome_iff_exists.mp (isSome_cut_iff.mpr hmarker)
  have hlength : ∃ n, values.prompt.length = n + 2 := by
    rw [prompt_eq, beginMarker_eq]
    exact ⟨_, rfl⟩
  obtain ⟨n, hlength⟩ := hlength
  have hmatch : matchAt true (beginMarker ++ (values.group ++ (endMarker ++ ['\n'])))
      = some (first, behind) := by
    rw [matchAt, if_pos rfl, PyRe.afterLiteral_append, Option.bind_some, hcut]
  have hnone : matchAt true ('\n' :: (beginMarker ++ (values.group ++ (endMarker ++ ['\n'])))) = none := by
    rw [beginMarker_eq]
    rfl
  have hmarker : beginMarker ++ (values.group ++ (endMarker ++ ['\n']))
      = '#' :: ("##PS1JSON###".toList ++ (values.group ++ (endMarker ++ ['\n']))) := by
    rw [beginMarker_eq]
    rfl
  have hstop : 0 + 1 + beginMarker.length + first.length + endMarker.length
      = first.length + 26 := by
    rw [beginMarker_eq, endMarker_eq]
    change 0 + 1 + 13 + first.length + 12 = _
    omega
  refine ⟨first, behind, scan n false (first.length + 26) behind, hcut, ?_, ?_⟩
  · rw [finditer, hlength, prompt_eq, scan, hnone]
    simp only
    rw [hmarker] at hmatch ⊢
    rw [decide_true, scan, hmatch, ← hstop]
  · intro found hfound
    have hle := le_start_of_mem_scan hfound
    omega

/-- The match is the prompt exactly when its text does not have the closing marker. -/
theorem recovered_iff_of_group (F : FloatFormat) (values : Values) :
    values.Recovered F ↔ ¬ endMarker <:+: values.group ∧
      (loads F (strip values.group)).isSome ∧
      fromPs1Match F ⟨1, values.group, values.group.length + 26⟩ = some values.metadata := by
  obtain ⟨first, behind, others, hcut, hfinditer, hothers⟩ := values.finditer_prompt
  have hlength : values.prompt.length = values.group.length + 27 := by
    rw [prompt_eq, beginMarker_eq, endMarker_eq]
    simp
  unfold Recovered matchesPs1Metadata
  rw [hfinditer]
  constructor
  · rintro ⟨found, hfound, hstart, hstop, hread⟩
    obtain ⟨hmem, hloads⟩ := List.mem_filter.mp hfound
    rcases List.mem_cons.mp hmem with rfl | hmem
    · have hfirst : first = values.group := by
        have heq := eq_of_cut hcut
        rw [List.append_assoc] at heq
        refine (List.append_inj heq ?_).1.symm
        simp only at hstop
        omega
      rw [hfirst] at hloads hread hcut
      exact ⟨not_infix_of_cut (by decide) hcut, hloads, hread⟩
    · exact absurd hstart (Nat.ne_of_gt (hothers found hmem))
  · rintro ⟨hmissing, hloads, hread⟩
    have hgroup : first = values.group := by
      have hne : endMarker ≠ [] := by decide
      have hbreak : '\n' ∉ endMarker := by decide
      have hfields : ¬ endMarker <:+: '\n' :: splicedObject values.fields :=
        fun h => hmissing (h.trans ⟨[], ['\n'], rfl⟩)
      have hcut' := cut_append_cons hne hbreak hfields ['\n']
      have hsame : values.group ++ (endMarker ++ ['\n'])
          = '\n' :: splicedObject values.fields ++ '\n' :: (endMarker ++ ['\n']) := by
        simp [group]
      rw [hsame, hcut'] at hcut
      exact (congrArg Prod.fst (Option.some.inj hcut)).symm
    rw [hgroup]
    refine ⟨_, List.mem_filter.mpr ⟨List.mem_cons_self, hloads⟩, rfl, ?_, hread⟩
    rw [hlength]

theorem group_eq (values : Values) :
    values.group = ['\n'] ++ splicedObject values.fields ++ ['\n'] := rfl

theorem nodup_keys (values : Values) : (values.fields.map Prod.fst).Nodup :=
  (by decide : (Placeholder.all.map fun p => p.key.toList).Nodup)

theorem fields_ne_nil (values : Values) : values.fields ≠ [] := List.cons_ne_nil _ _

theorem mem_fields (values : Values) (p : Placeholder) :
    (p.key.toList, values.text p) ∈ values.fields :=
  List.mem_map.mpr ⟨p, by cases p <;> decide, rfl⟩

theorem verbatim_key {values : Values} {entry : Text × Text} (h : entry ∈ values.fields) :
    Verbatim entry.1 := by
  obtain ⟨p, hp, rfl⟩ := List.mem_map.mp h
  exact (by decide : ∀ p ∈ Placeholder.all, Verbatim p.key.toList) p hp

theorem verbatim_toDigits (n : ℕ) : Verbatim (Nat.toDigits 10 n) := by
  intro c hc
  have hdigit : c.isDigit = true := Nat.isDigit_of_mem_toDigits (by omega) (by omega) hc
  refine ⟨?_, ?_, ?_⟩
  · rintro rfl
    exact absurd hdigit (by decide)
  · rintro rfl
    exact absurd hdigit (by decide)
  · rw [Char.isDigit, Bool.and_eq_true, decide_eq_true_eq] at hdigit
    exact le_trans (by decide) (UInt32.le_iff_toNat_le.mp hdigit.1)

/-- The group is the text of the object between two line breaks. -/
theorem strip_group (values : Values) : strip values.group = splicedObject values.fields := by
  obtain ⟨text, htext⟩ := drop_spliced values.fields_ne_nil
  have hobject : splicedObject values.fields = '\x7b' :: '\n' :: ' ' :: ' ' :: (text ++ ['\x7d']) := by
    rw [← htext]
    rfl
  have hstrip : lstrip values.group = splicedObject values.fields ++ ['\n'] := by
    rw [group, hobject]
    rfl
  have hblank : ∀ c ∈ ['\n'], PyStr.isSpace c = true := List.forall_mem_singleton.mpr rfl
  rw [strip, hstrip, rstrip_append_blank hblank, hobject, rstrip,
    ← List.cons_append, ← List.cons_append, ← List.cons_append, ← List.cons_append,
    List.rdropWhile_concat_neg _ _ _ (by decide)]

/-- The closing marker is in the group only where it is in a name or a path. -/
theorem endMarker_infix_group_iff (values : Values) :
    endMarker <:+: values.group ↔
      ∃ p ∈ [Placeholder.username, .hostname, .workingDir, .pyInterpreterPath],
        endMarker <:+: values.text p := by
  have hgroup : endMarker <:+: values.group ↔ endMarker <:+: splicedObject values.fields := by
    have hsame : values.group = [] ++ '\n' :: (splicedObject values.fields ++ '\n' :: []) := rfl
    rw [hsame, infix_append_cons_iff (by decide) (by decide),
      infix_append_cons_iff (by decide) (by decide)]
    simp [endMarker_eq]
  have hmarks : ∀ c ∈ ['\x7b', '\x7d', '\n', ' ', ',', ':', '"'], c ∉ endMarker := by
    rw [endMarker_eq]
    simp
  rw [hgroup, infix_splicedObject_iff (by decide) hmarks values.fields_ne_nil]
  have hsharp : ∀ {s : Text}, endMarker <:+: s → '#' ∈ s := by
    intro s h
    rw [endMarker_eq] at h
    exact h.subset (by decide)
  have hdigits : ∀ n, ¬ endMarker <:+: Nat.toDigits 10 n := fun n h =>
    absurd (Nat.isDigit_of_mem_toDigits (by omega) (by omega) (hsharp h)) (by decide)
  have hkeys : ∀ p ∈ Placeholder.all, ¬ endMarker <:+: p.key.toList := fun p hp h =>
    (by decide : ∀ p ∈ Placeholder.all, '#' ∉ p.key.toList) p hp (hsharp h)
  constructor
  · rintro ⟨entry, hentry, h⟩
    obtain ⟨p, hp, rfl⟩ := List.mem_map.mp hentry
    replace h := h.resolve_left (hkeys p hp)
    cases p with
    | pid => exact absurd h (hdigits _)
    | exitCode => exact absurd h (hdigits _)
    | username => exact ⟨.username, by decide, h⟩
    | hostname => exact ⟨.hostname, by decide, h⟩
    | workingDir => exact ⟨.workingDir, by decide, h⟩
    | pyInterpreterPath => exact ⟨.pyInterpreterPath, by decide, h⟩
  · rintro ⟨p, -, h⟩
    exact ⟨_, values.mem_fields p, Or.inr h⟩

/-- The dictionary that is read when the values stand for themselves. -/
def dict (values : Values) : PyDict String PyJson :=
  PyDict.ofEntries (values.fields.map stringEntry)

theorem get?_dict (values : Values) (p : Placeholder) :
    values.dict.get? p.key = some (.str (String.ofList (values.text p))) := by
  have hget := get?_stringEntry values.nodup_keys (values.mem_fields p)
  rw [String.ofList_toList] at hget
  rw [dict, hget]

theorem affixField_dict (values : Values) {key : String}
    (hkey : key ∉ Placeholder.all.map Placeholder.key) :
    affixField values.dict key = some [] := by
  have hnone : values.dict.get? key = none := by
    rw [PyDict.get?_eq_none_iff]
    intro hmem
    obtain ⟨entry, hentry, hfst⟩ := List.mem_map.mp hmem
    have hread := PyDict.mem_of_mem_ofEntries hentry
    obtain ⟨field, hfield, rfl⟩ := List.mem_map.mp hread
    obtain ⟨p, hp, rfl⟩ := List.mem_map.mp hfield
    refine hkey (List.mem_map.mpr ⟨p, hp, ?_⟩)
    rw [← hfst]
    exact String.ofList_toList.symm
  rw [affixField, hnone]

/-- The values are those of the metadata when the numbers are numbers of `float`. -/
theorem ofDict_dict_iff (F : FloatFormat) (values : Values) :
    CmdOutputMetadata.ofDict F values.dict = some values.metadata ↔
      PyFloat.Representable values.pid ∧ PyFloat.Representable values.exitCode := by
  have hint : ∀ p n, values.text p = Nat.toDigits 10 n →
      (intField F values.dict p.key = some (n : ℤ) ↔ PyFloat.Representable n) := by
    intro p n htext
    rw [intField, get?_dict, htext]
    exact intOf_toDigits F n
  have hpid := hint .pid values.pid rfl
  have hexitCode := hint .exitCode values.exitCode rfl
  rw [ofDict_eq_some_iff]
  constructor
  · rintro ⟨h, h', -⟩
    exact ⟨hpid.mp h, hexitCode.mp h'⟩
  · rintro ⟨h, h'⟩
    exact ⟨hpid.mpr h, hexitCode.mpr h', textField_eq_some_iff.mpr (get?_dict values .username),
      textField_eq_some_iff.mpr (get?_dict values .hostname),
      textField_eq_some_iff.mpr (get?_dict values .workingDir),
      textField_eq_some_iff.mpr (get?_dict values .pyInterpreterPath),
      affixField_dict values (by decide), affixField_dict values (by decide)⟩

/-- What is read when the values stand for themselves. -/
theorem fromPs1Match_group (F : FloatFormat) {values : Values} {start stop : ℕ}
    (h : ∀ entry ∈ values.fields, Verbatim entry.2) :
    fromPs1Match F ⟨start, values.group, stop⟩ = CmdOutputMetadata.ofDict F values.dict := by
  have hblank : ∀ c ∈ ['\n'], JsonText.isSpace c = true := List.forall_mem_singleton.mpr rfl
  have hloads := loads_splicedObject (F := F) values.fields_ne_nil values.nodup_keys
    (fun entry hentry => ⟨verbatim_key hentry, h entry hentry⟩) hblank hblank
  rw [← group_eq] at hloads
  rw [fromPs1Match, hloads, dict]

/-- The keys of the names and the paths. -/
def IsText (key : Text) : Prop := key ≠ "pid".toList ∧ key ≠ "exit_code".toList

instance (key : Text) : Decidable (IsText key) := inferInstanceAs (Decidable (_ ∧ _))

/-- When the names and paths are read back, all values stand for themselves. -/
theorem verbatim_of_fromPs1Match {F : FloatFormat} {values : Values} {start stop : ℕ}
    (h : fromPs1Match F ⟨start, values.group, stop⟩ = some values.metadata) :
    ∀ entry ∈ values.fields, Verbatim entry.2 := by
  unfold fromPs1Match at h
  split at h
  · rename_i entries hloads
    obtain ⟨-, -, husername, hhostname, hworkingDir, hpath, -⟩ := ofDict_eq_some_iff.mp h
    have hblank : ∀ c ∈ ['\n'], JsonText.isSpace c = true := List.forall_mem_singleton.mpr rfl
    have htight : Tight IsText values.fields := by
      have htexts : ∀ ps : List Placeholder, (∀ p ∈ ps, IsText p.key.toList) →
          ∀ entry ∈ ps.map fun p => (p.key.toList, values.text p), IsText entry.1 := by
        intro ps hps entry hentry
        obtain ⟨p, hp, rfl⟩ := List.mem_map.mp hentry
        exact hps p hp
      refine ⟨Or.inl (verbatim_toDigits _), Or.inl (verbatim_toDigits _),
        Or.inr ⟨?_, htexts [.username, .hostname, .workingDir, .pyInterpreterPath] (by decide)⟩,
        Or.inr ⟨?_, htexts [.hostname, .workingDir, .pyInterpreterPath] (by decide)⟩,
        Or.inr ⟨?_, htexts [.workingDir, .pyInterpreterPath] (by decide)⟩,
        Or.inr ⟨?_, htexts [.pyInterpreterPath] (by decide)⟩, trivial⟩
      all_goals
        rw [List.length_map]
        decide
    rw [group_eq] at hloads
    refine verbatim_of_loads values.fields_ne_nil htight values.nodup_keys
      (fun entry => verbatim_key) hblank hblank hloads ?_
    intro entry hentry hknown
    obtain ⟨p, -, rfl⟩ := List.mem_map.mp hentry
    rw [String.ofList_toList]
    cases p with
    | pid => exact absurd rfl hknown.1
    | exitCode => exact absurd rfl hknown.2
    | username => exact textField_eq_some_iff.mp husername
    | hostname => exact textField_eq_some_iff.mp hhostname
    | workingDir => exact textField_eq_some_iff.mp hworkingDir
    | pyInterpreterPath => exact textField_eq_some_iff.mp hpath
  · cases h

variable {F : FloatFormat} {values : Values}

theorem readable_of_recovered (h : values.Recovered F) : values.Readable := by
  rw [recovered_iff_of_group, endMarker_infix_group_iff] at h
  obtain ⟨hmarker, -, hread⟩ := h
  have hverbatim := verbatim_of_fromPs1Match hread
  rw [fromPs1Match_group F hverbatim, ofDict_dict_iff] at hread
  refine ⟨fun p hp => ⟨?_, fun h => hmarker ⟨p, hp, h⟩⟩, hread.2, hread.1⟩
  exact hverbatim _ (values.mem_fields p)

theorem recovered_of_readable (h : values.Readable) : values.Recovered F := by
  have hverbatim : ∀ entry ∈ values.fields, Verbatim entry.2 := by
    intro entry hentry
    obtain ⟨p, -, rfl⟩ := List.mem_map.mp hentry
    cases p with
    | pid => exact verbatim_toDigits _
    | exitCode => exact verbatim_toDigits _
    | username => exact (h.texts .username (by decide)).1
    | hostname => exact (h.texts .hostname (by decide)).1
    | workingDir => exact (h.texts .workingDir (by decide)).1
    | pyInterpreterPath => exact (h.texts .pyInterpreterPath (by decide)).1
  rw [recovered_iff_of_group, endMarker_infix_group_iff, strip_group]
  refine ⟨fun ⟨p, hp, hmarker⟩ => (h.texts p hp).2 hmarker, ?_, ?_⟩
  · have hblank : ∀ c ∈ ([] : Text), JsonText.isSpace c = true := by simp
    have hloads := loads_splicedObject (F := F) values.fields_ne_nil values.nodup_keys
      (fun entry hentry => ⟨verbatim_key hentry, hverbatim entry hentry⟩) hblank hblank
    rw [List.nil_append, List.append_nil] at hloads
    rw [hloads]
    rfl
  · rw [fromPs1Match_group F hverbatim, ofDict_dict_iff]
    exact ⟨h.pid, h.exitCode⟩

/-- The prompt is found and its values are read back exactly when they can be read. -/
theorem recovered_iff (F : FloatFormat) (values : Values) :
    values.Recovered F ↔ values.Readable :=
  ⟨readable_of_recovered, recovered_of_readable⟩

end Values

/-- The working directory has a quotation mark in its name. -/
def quotedDirectory : Values where
  exitCode := 0
  pid := 42
  username := "root".toList
  hostname := "sandbox".toList
  workingDir := "/workspace/a\"b".toList
  pyInterpreterPath := "/usr/bin/python".toList

/-- The text between the markers is not JSON. -/
theorem not_recovered_quotedDirectory : ¬ quotedDirectory.Recovered onlyIntegers := fun h =>
  absurd ((Values.readable_of_recovered h).texts .workingDir (by decide)).1 (by decide)

end OpenHands.PS1Metadata
