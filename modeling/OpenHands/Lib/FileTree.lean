/-
# Directory trees

A tree of files and directories: a node for every path but the root, and the calls of an
operating system that a program makes on it (`os.makedirs`, `open`, `os.listdir`,
`os.remove`, `shutil.rmtree`).  Each call is described by what it leaves at a path.
-/
import Mathlib.Data.List.Infix
import OpenHands.Lib.PyDict

/-- A file with its content, or a directory. -/
inductive FileTree.Node (β : Type*)
  | file (content : β)
  | dir
  deriving DecidableEq

/-- The nodes below the root. -/
abbrev FileTree (κ β : Type*) := PyDict (List κ) (FileTree.Node β)

namespace FileTree

/-- What the calls raise. -/
inductive FsError
  | fileExists
  | isADirectory
  | notADirectory
  | fileNotFound
  deriving DecidableEq, Repr

variable {κ β : Type*} [DecidableEq κ]

/-- The node of a path; the root is a directory. -/
def node? (t : FileTree κ β) (path : List κ) : Option (Node β) :=
  if path = [] then some .dir else t.get? path

/-- `os.makedirs(path, exist_ok=True)`, from the directory `done` on. -/
def makedirsFrom (t : FileTree κ β) (done : List κ) : List κ → Except FsError (FileTree κ β)
  | [] => .ok t
  | name :: rest =>
    match t.get? (done ++ [name]) with
    | none => makedirsFrom (t.set (done ++ [name]) .dir) (done ++ [name]) rest
    | some .dir => makedirsFrom t (done ++ [name]) rest
    | some (.file _) => .error (if rest = [] then .fileExists else .notADirectory)

/-- `os.makedirs(path, exist_ok=True)`. -/
def makedirs (t : FileTree κ β) (path : List κ) : Except FsError (FileTree κ β) :=
  makedirsFrom t [] path

/-- `open(path, 'w')` and writing the content, in a directory that exists. -/
def openWrite (t : FileTree κ β) (path : List κ) (content : β) : Except FsError (FileTree κ β) :=
  match node? t path with
  | some .dir => .error .isADirectory
  | _ => .ok (t.set path (.file content))

/-- `os.remove(path)`. -/
def remove (t : FileTree κ β) (path : List κ) : FileTree κ β := t.pop path

/-- `shutil.rmtree(path)`. -/
def rmtree (t : FileTree κ β) (path : List κ) : FileTree κ β :=
  t.filterKeys fun key => !(path <+: key)

/-- `os.listdir(path)` of a directory. -/
def listdir (t : FileTree κ β) (path : List κ) : List κ :=
  t.keys.filterMap fun key => if key.dropLast = path then key.getLast? else none

/-! ## What the calls do -/

section Calls

variable {t : FileTree κ β} {path key done : List κ} {content : β}

/-- `key` is one of the directories that lead from `done` along `path`. -/
def Leads (done path key : List κ) : Prop := ∃ sub, sub ≠ [] ∧ sub <+: path ∧ key = done ++ sub

omit [DecidableEq κ] in
theorem leads_cons_iff {name : κ} {rest : List κ} :
    Leads done (name :: rest) key ↔ key = done ++ [name] ∨ Leads (done ++ [name]) rest key := by
  constructor
  · rintro ⟨sub, hne, hsub, rfl⟩
    obtain ⟨first, sub, rfl⟩ := List.exists_cons_of_ne_nil hne
    obtain ⟨rfl, hrest⟩ := List.cons_prefix_cons.mp hsub
    by_cases hnil : sub = []
    · exact Or.inl (by rw [hnil])
    · exact Or.inr ⟨sub, hnil, hrest, by simp⟩
  · rintro (rfl | ⟨sub, -, hsub, rfl⟩)
    · exact ⟨[name], List.cons_ne_nil _ _, ⟨rest, rfl⟩, rfl⟩
    · exact ⟨name :: sub, List.cons_ne_nil _ _, List.cons_prefix_cons.mpr ⟨rfl, hsub⟩, by simp⟩

omit [DecidableEq κ] in
theorem leads_nil_iff : Leads [] path key ↔ key ≠ [] ∧ key <+: path := by
  constructor
  · rintro ⟨sub, hne, hsub, rfl⟩
    exact ⟨hne, hsub⟩
  · rintro ⟨hne, hsub⟩
    exact ⟨key, hne, hsub, rfl⟩

open scoped Classical in
/-- With no file in the way every directory on the way is there afterwards, and nothing else has
changed. -/
theorem makedirsFrom_spec
    (hfree : ∀ key, Leads done path key → ∀ content, t.get? key ≠ some (.file content)) :
    ∃ t', makedirsFrom t done path = .ok t' ∧
      ∀ key, t'.get? key = if Leads done path key then some .dir else t.get? key := by
  induction path generalizing t done with
  | nil =>
      refine ⟨t, rfl, fun key => ?_⟩
      rw [if_neg]
      rintro ⟨sub, hne, hsub, -⟩
      exact hne (List.prefix_nil.mp hsub)
  | cons name rest ih =>
      have hhere : ∀ content, t.get? (done ++ [name]) ≠ some (.file content) :=
        hfree _ (leads_cons_iff.mpr (Or.inl rfl))
      have hlater : ∀ key, Leads (done ++ [name]) rest key →
          ∀ content, t.get? key ≠ some (.file content) :=
        fun key hkey => hfree key (leads_cons_iff.mpr (Or.inr hkey))
      unfold makedirsFrom
      cases hnode : t.get? (done ++ [name]) with
      | none =>
          have hfree' : ∀ key, Leads (done ++ [name]) rest key →
              ∀ content, (t.set (done ++ [name]) .dir).get? key ≠ some (.file content) := by
            intro key hkey content
            rw [PyDict.get?_set]
            split_ifs
            · intro h
              cases h
            · exact hlater key hkey content
          obtain ⟨t', ht', hget⟩ := ih hfree'
          refine ⟨t', ht', fun key => ?_⟩
          rw [hget, PyDict.get?_set, leads_cons_iff]
          by_cases hkey : key = done ++ [name]
          · simp [hkey]
          · simp [hkey]
      | some node =>
          cases node with
          | file content => exact absurd hnode (hhere content)
          | dir =>
              obtain ⟨t', ht', hget⟩ := ih hlater
              refine ⟨t', ht', fun key => ?_⟩
              rw [hget, leads_cons_iff]
              by_cases hkey : key = done ++ [name]
              · simp [hkey, hnode]
              · simp [hkey]

/-- With no file in the way the directories of a path are there afterwards. -/
theorem makedirs_spec
    (hfree : ∀ key, key ≠ [] → key <+: path → ∀ content, t.get? key ≠ some (.file content)) :
    ∃ t', makedirs t path = .ok t' ∧
      ∀ key, t'.get? key = if key ≠ [] ∧ key <+: path then some .dir else t.get? key := by
  have hfree' : ∀ key, Leads [] path key → ∀ content, t.get? key ≠ some (.file content) :=
    fun key hkey => hfree key (leads_nil_iff.mp hkey).1 (leads_nil_iff.mp hkey).2
  obtain ⟨t', ht', hget⟩ := makedirsFrom_spec hfree'
  refine ⟨t', ht', fun key => ?_⟩
  rw [hget]
  by_cases hkey : key ≠ [] ∧ key <+: path
  · rw [if_pos hkey, if_pos (leads_nil_iff.mpr hkey)]
  · rw [if_neg hkey, if_neg (fun h => hkey (leads_nil_iff.mp h))]

theorem openWrite_of_ne_dir (hnode : node? t path ≠ some .dir) :
    openWrite t path content = .ok (t.set path (.file content)) := by
  unfold openWrite
  split
  · rename_i hdir
    exact absurd hdir hnode
  · rfl

theorem get?_rmtree : (t.rmtree path).get? key = if path <+: key then none else t.get? key := by
  unfold rmtree
  rw [PyDict.get?_filterKeys]
  by_cases h : path <+: key
  · simp [h]
  · simp [h]

/-- A directory lists the names of its nodes. -/
theorem mem_listdir {name : κ} : name ∈ t.listdir path ↔ (t.get? (path ++ [name])).isSome := by
  rw [PyDict.isSome_get?_iff]
  unfold listdir
  rw [List.mem_filterMap]
  constructor
  · rintro ⟨key, hkey, hname⟩
    split_ifs at hname with hpath
    rw [← hpath, List.dropLast_append_getLast? name hname]
    exact hkey
  · intro hkey
    exact ⟨path ++ [name], hkey, by simp⟩

theorem nodup_listdir : (t.listdir path).Nodup := by
  unfold listdir
  refine t.nodup.filterMap ?_
  intro key key' name hkey hkey'
  rw [Option.mem_def] at hkey hkey'
  split_ifs at hkey hkey' with h h'
  rw [← List.dropLast_append_getLast? name hkey, ← List.dropLast_append_getLast? name hkey', h, h']

end Calls

end FileTree
