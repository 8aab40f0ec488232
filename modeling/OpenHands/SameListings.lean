/-
# The listings of the two file stores

What `list` of a path returns in stores that agree, and the two stores over whole runs.

The dictionary lists what starts with the path: a stored path that merely starts with it
stands in the listing itself, or as a directory that need not exist.  A directory of the tree
stays when its last file is removed, and is listed only there.
-/
import OpenHands.Lib.PyStr
import OpenHands.SameStores

namespace OpenHands.Stores

/-- A directory of the tree. -/
def IsDir (s : Pair) (key : List Path) : Prop := FileTree.node? s.disk.tree key = some .dir

/-- Both stores list the same entries, or raise. -/
def SameList (s : Pair) (path : RelPath) : Prop :=
  match s.memory.list path.chars, s.disk.list path with
  | .ok listed, .ok listed' => listed.Perm listed'
  | .error _, .error _ => True
  | _, _ => False

/-- The path is stored as a file, or is a directory of which two things hold: a stored path that
merely starts with it goes on with the name of one of its directories and a slash, and each of its
directories has a stored path below it, or one that starts with the path, the name of the directory
and a slash. -/
def PlainList (s : Pair) (path : RelPath) : Prop :=
  path.chars ∈ s.memory.files.keys ∨
  (IsDir s path.parts ∧
    (∀ key ∈ s.memory.files.keys, path.chars <+: key → ¬(path.chars ++ ['/']) <+: key →
      ∃ name, IsDir s (path.parts ++ [name]) ∧ (path.chars ++ name ++ ['/']) <+: key) ∧
    ∀ name, IsDir s (path.parts ++ [name]) → ∃ key ∈ s.memory.files.keys,
      (path.chars ++ '/' :: name ++ ['/']) <+: key ∨ (path.chars ++ name ++ ['/']) <+: key)

section Listings

variable {W : RelPath → Prop} {s : Pair} {path : RelPath}

theorem node?_concat (tree : FileTree Path ByteArray) (key : List Path) (name : Path) :
    FileTree.node? tree (key ++ [name]) = tree.get? (key ++ [name]) :=
  if_neg (List.append_ne_nil_of_right_ne_nil key (List.cons_ne_nil _ _))

/-- The keys of the dictionary are paths. -/
theorem Agrees.keys (h : Agrees W s) {key : Path} (hkey : key ∈ s.memory.files.keys) :
    ∃ q : RelPath, key = q.chars ∧ ∃ content, s.disk.tree.get? q.parts = some (.file content) := by
  obtain ⟨text, htext⟩ := Option.isSome_iff_exists.mp (PyDict.isSome_get?_iff.mpr hkey)
  obtain ⟨q, -, hchars, hfile, -⟩ := h.onDisk _ _ htext
  exact ⟨q, hchars, _, hfile⟩

/-- The names in the tree are names of paths. -/
theorem Agrees.valid_name (h : Agrees W s) {key : List Path} {name : Path}
    (hnode : (s.disk.tree.get? (key ++ [name])).isSome) : name ≠ [] ∧ '/' ∉ name := by
  obtain ⟨node, hnode⟩ := Option.isSome_iff_exists.mp hnode
  have hname : ∃ p : RelPath, name ∈ p.parts := by
    cases node with
    | file content =>
        obtain ⟨p, -, -, hparts, -⟩ := h.inMemory _ _ hnode
        exact ⟨p, hparts ▸ List.mem_append_right _ (List.mem_singleton.mpr rfl)⟩
    | dir =>
        obtain ⟨-, p, -, hleads, -⟩ := h.dirs _ hnode
        exact ⟨p, hleads.subset (List.mem_append_right _ (List.mem_singleton.mpr rfl))⟩
  obtain ⟨p, hp⟩ := hname
  exact ⟨(p.valid name hp).1, (p.valid name hp).2.1⟩

/-- The two forms of an entry. -/
theorem entry_cases (s : Pair) (path : RelPath) {name : Path} (hslash : '/' ∉ name) :
    (IsDir s (path.parts ++ [name]) ∧ s.disk.entry path name = path.chars ++ '/' :: name ++ ['/']) ∨
    (¬IsDir s (path.parts ++ [name]) ∧ s.disk.entry path name = path.chars ++ '/' :: name) := by
  have hjoin : pathJoin path.chars name = path.chars ++ '/' :: name :=
    RelPath.pathJoin_chars fun hhead =>
      hslash (List.mem_of_mem_head? (Option.mem_def.mpr hhead))
  unfold LocalFileStore.entry
  dsimp only
  rw [hjoin]
  by_cases hname : IsDir s (path.parts ++ [name])
  · refine Or.inl ⟨hname, ?_⟩
    rw [show FileTree.node? s.disk.tree (path.parts ++ [name]) = some .dir from hname]
  · refine Or.inr ⟨hname, ?_⟩
    split
    · rename_i hnode
      exact absurd hnode hname
    · rfl

/-- No two names have the same entry. -/
theorem entry_injective {name name' : Path} (hslash : '/' ∉ name) (hslash' : '/' ∉ name')
    (heq : s.disk.entry path name = s.disk.entry path name') : name = name' := by
  rcases entry_cases s path hslash with ⟨-, h1⟩ | ⟨-, h1⟩
  · rcases entry_cases s path hslash' with ⟨-, h2⟩ | ⟨-, h2⟩
    · rw [h1, h2] at heq
      simpa using heq
    · rw [h1, h2] at heq
      have hsame : name ++ ['/'] = name' := by simpa using heq
      exact absurd (hsame ▸ List.mem_append_right _ (List.mem_singleton.mpr rfl)) hslash'
  · rcases entry_cases s path hslash' with ⟨-, h2⟩ | ⟨-, h2⟩
    · rw [h1, h2] at heq
      have hsame : name = name' ++ ['/'] := by simpa using heq
      exact absurd (hsame ▸ List.mem_append_right _ (List.mem_singleton.mpr rfl)) hslash
    · rw [h1, h2] at heq
      simpa using heq

/-- The entry of a name in the tree is that of a file, or that of a directory. -/
theorem Agrees.entry_of_listdir (h : Agrees W s) {name : Path}
    (hname : name ∈ FileTree.listdir s.disk.tree path.parts) :
    (∃ q : RelPath, q.chars ∈ s.memory.files.keys ∧ q.parts = path.parts ++ [name] ∧
      s.disk.entry path name = q.chars) ∨
    IsDir s (path.parts ++ [name]) ∧ s.disk.entry path name = path.chars ++ '/' :: name ++ ['/'] := by
  have hslash := (h.valid_name (FileTree.mem_listdir.mp hname)).2
  rcases entry_cases s path hslash with ⟨hsub, heq⟩ | ⟨hsub, heq⟩
  · exact Or.inr ⟨hsub, heq⟩
  · obtain ⟨node, hnode⟩ := Option.isSome_iff_exists.mp (FileTree.mem_listdir.mp hname)
    cases node with
    | dir => exact absurd ((node?_concat _ _ _).trans hnode) hsub
    | file content =>
        obtain ⟨q, text, -, hparts, htext⟩ := h.inMemory _ _ hnode
        refine Or.inl ⟨q, PyDict.isSome_get?_iff.mp (by rw [htext]; rfl), hparts.symm, ?_⟩
        rw [heq, RelPath.chars_of_parts hparts.symm (List.cons_ne_nil _ _),
          List.intercalate_singleton]

/-- A file of the directory is listed by its path. -/
theorem Agrees.file_listed (h : Agrees W s) {q : RelPath} (hkey : q.chars ∈ s.memory.files.keys)
    {name : Path} (hparts : q.parts = path.parts ++ [name]) :
    name ∈ FileTree.listdir s.disk.tree path.parts ∧ s.disk.entry path name = q.chars := by
  obtain ⟨q', hchars, content, hfile⟩ := h.keys hkey
  have hqq : q = q' := RelPath.chars_injective hchars
  subst hqq
  rw [hparts] at hfile
  have hname : name ∈ FileTree.listdir s.disk.tree path.parts :=
    FileTree.mem_listdir.mpr (by rw [hfile]; rfl)
  refine ⟨hname, ?_⟩
  rcases entry_cases s path (h.valid_name (FileTree.mem_listdir.mp hname)).2 with
    ⟨hsub, -⟩ | ⟨-, heq⟩
  · have hboth := (node?_concat _ _ _).symm.trans hsub
    rw [hfile] at hboth
    cases hboth
  · rw [heq, RelPath.chars_of_parts hparts (List.cons_ne_nil _ _), List.intercalate_singleton]

/-- A directory of the directory is listed with a slash. -/
theorem Agrees.dir_listed (h : Agrees W s) {name : Path} (hsub : IsDir s (path.parts ++ [name])) :
    name ∈ FileTree.listdir s.disk.tree path.parts ∧
      s.disk.entry path name = path.chars ++ '/' :: name ++ ['/'] := by
  have hnode : s.disk.tree.get? (path.parts ++ [name]) = some .dir :=
    (node?_concat _ _ _).symm.trans hsub
  have hname : name ∈ FileTree.listdir s.disk.tree path.parts :=
    FileTree.mem_listdir.mpr (by rw [hnode]; rfl)
  refine ⟨hname, ?_⟩
  rcases entry_cases s path (h.valid_name (FileTree.mem_listdir.mp hname)).2 with
    ⟨-, heq⟩ | ⟨hnot, -⟩
  · exact heq
  · exact absurd hsub hnot

/-- What the tree lists: its files by their paths, its directories with a slash. -/
theorem Agrees.list_disk (h : Agrees W s) (hdir : IsDir s path.parts) :
    ∃ listed, s.disk.list path = .ok listed ∧ listed.Nodup ∧ ∀ y, y ∈ listed ↔
      (∃ q : RelPath, q.chars ∈ s.memory.files.keys ∧
        (∃ name, q.parts = path.parts ++ [name]) ∧ y = q.chars) ∨
      ∃ name, IsDir s (path.parts ++ [name]) ∧ y = path.chars ++ '/' :: name ++ ['/'] := by
  have hlist : s.disk.list path
      = .ok ((FileTree.listdir s.disk.tree path.parts).map (s.disk.entry path)) := by
    unfold LocalFileStore.list
    rw [show FileTree.node? s.disk.tree path.parts = some .dir from hdir]
  have hslash : ∀ name ∈ FileTree.listdir s.disk.tree path.parts, '/' ∉ name :=
    fun name hname => (h.valid_name (FileTree.mem_listdir.mp hname)).2
  refine ⟨_, hlist, ?_, fun y => ?_⟩
  · refine List.Nodup.map_on ?_ FileTree.nodup_listdir
    intro name hname name' hname' heq
    exact entry_injective (hslash name hname) (hslash name' hname') heq
  · rw [List.mem_map]
    constructor
    · rintro ⟨name, hname, rfl⟩
      rcases h.entry_of_listdir hname with ⟨q, hkey, hparts, heq⟩ | ⟨hsub, heq⟩
      · exact Or.inl ⟨q, hkey, ⟨name, hparts⟩, heq⟩
      · exact Or.inr ⟨name, hsub, heq⟩
    · rintro (⟨q, hkey, ⟨name, hparts⟩, rfl⟩ | ⟨name, hsub, rfl⟩)
      · exact ⟨name, h.file_listed hkey hparts⟩
      · exact ⟨name, h.dir_listed hsub⟩

/-- A path does not end like the entry of a directory. -/
theorem chars_ne_dirEntry (q : RelPath) (y : Path) : q.chars ≠ y ++ ['/'] := by
  intro h
  exact RelPath.getLast?_chars (by rw [h, List.getLast?_concat])

/-- An entry of the dictionary is one of the tree, when the stored paths that merely start with
the listed one go on with the name of a directory. -/
theorem Agrees.entry_of_memory (h : Agrees W s) {q : RelPath} (hkey : q.chars ∈ s.memory.files.keys)
    (hleads : path.chars <+: q.chars) (hne : q ≠ path)
    (hstarts : ¬(path.chars ++ ['/']) <+: q.chars →
      ∃ name, IsDir s (path.parts ++ [name]) ∧ (path.chars ++ name ++ ['/']) <+: q.chars) :
    (∃ q' : RelPath, q'.chars ∈ s.memory.files.keys ∧
        (∃ name, q'.parts = path.parts ++ [name]) ∧ entryOf path.chars q.chars = q'.chars) ∨
      ∃ name, IsDir s (path.parts ++ [name]) ∧
        entryOf path.chars q.chars = path.chars ++ '/' :: name ++ ['/'] := by
  have hsibling : ∀ {name rest : Path}, '/' ∉ name → name ≠ [] →
      q.chars = path.chars ++ (name ++ rest) →
      ∃ name', '/' ∉ name' ∧ IsDir s (path.parts ++ [name']) ∧ name' ++ ['/'] <+: name ++ rest := by
    intro name rest hslash hname hchars
    have hnot : ¬(path.chars ++ ['/']) <+: q.chars := by
      rw [hchars, List.prefix_append_right_inj]
      obtain ⟨c, cs, rfl⟩ := List.exists_cons_of_ne_nil hname
      intro hpre
      have hc := (List.cons_prefix_cons.mp hpre).1
      exact hslash (hc ▸ List.mem_cons_self)
    obtain ⟨name', hdir', hpre⟩ := hstarts hnot
    have hvalid := h.valid_name (by rw [← node?_concat, show _ = _ from hdir']; rfl)
    rw [hchars, List.append_assoc, List.prefix_append_right_inj] at hpre
    exact ⟨name', hvalid.2, hdir', hpre⟩
  obtain ⟨name, hlast | ⟨rest, hmore⟩⟩ := follows_of_prefix hleads hne
  · rw [entryOf_of_last hlast]
    rcases hlast.eq with hchars | hchars
    · refine Or.inl ⟨q, hkey, ⟨name, ?_⟩, rfl⟩
      rw [RelPath.parts_of_chars hchars, List.append_nil, List.splitOn_eq_singleton hlast.noSlash]
    · obtain ⟨name', -, -, hpre⟩ := hsibling hlast.noSlash hlast.ne_nil hchars
      rw [List.append_nil] at hpre
      exact absurd (hpre.subset (List.mem_append_right _ (List.mem_singleton.mpr rfl)))
        hlast.noSlash
  · rw [entryOf_of_more hmore]
    refine Or.inr ⟨name, ?_, rfl⟩
    rcases hmore.eq with hchars | hchars
    · have hparts : q.parts = path.parts ++ name :: rest.splitOn '/' := by
        rw [RelPath.parts_of_chars hchars, List.splitOn_append_cons_self_of_not_mem hmore.noSlash]
      obtain ⟨q', hq', content, hfile⟩ := h.keys hkey
      have hqq : q = q' := RelPath.chars_injective hq'
      subst hqq
      refine (node?_concat _ _ _).trans (h.closed _ _ _ hfile ?_ ?_ ?_)
      · exact List.append_ne_nil_of_right_ne_nil _ (List.cons_ne_nil _ _)
      · rw [hparts]
        exact ⟨rest.splitOn '/', by simp⟩
      · rw [hparts]
        intro heq
        have hlen := congrArg List.length heq
        have hpos := List.length_pos_iff.mpr (List.splitOn_ne_nil '/' rest)
        simp only [List.length_append, List.length_cons, List.length_nil] at hlen
        omega
    · obtain ⟨name', hslash', hdir', tail, htail⟩ := hsibling hmore.noSlash hmore.ne_nil hchars
      rw [List.append_assoc, List.singleton_append] at htail
      have hsplit := congrArg (List.splitOn '/') htail
      rw [List.splitOn_append_cons_self_of_not_mem hslash',
        List.splitOn_append_cons_self_of_not_mem hmore.noSlash] at hsplit
      rw [← (List.cons.inj hsplit).1]
      exact hdir'

/-- What a path of the dictionary adds when it is followed by a name and a slash. -/
theorem entryOf_of_dir {name key : Path} (hname : name ≠ [] ∧ '/' ∉ name)
    (hkey : (path.chars ++ '/' :: name ++ ['/']) <+: key ∨ (path.chars ++ name ++ ['/']) <+: key) :
    path.chars <+: key ∧ entryOf path.chars key = path.chars ++ '/' :: name ++ ['/'] := by
  have hfollows : ∃ rest, Follows path.chars name key ('/' :: rest) := by
    rcases hkey with ⟨rest, rfl⟩ | ⟨rest, rfl⟩
    · exact ⟨rest, hname.1, hname.2, Or.inl (by simp)⟩
    · exact ⟨rest, hname.1, hname.2, Or.inr (by simp)⟩
  obtain ⟨rest, hfollows⟩ := hfollows
  refine ⟨?_, entryOf_of_more hfollows⟩
  rcases hfollows.eq with h | h
  · exact ⟨_, h.symm⟩
  · exact ⟨_, h.symm⟩

/-- What the tree lists for a path. -/
def DiskEntry (s : Pair) (path : RelPath) (y : Path) : Prop :=
  (∃ q : RelPath, q.chars ∈ s.memory.files.keys ∧
    (∃ name, q.parts = path.parts ++ [name]) ∧ y = q.chars) ∨
  ∃ name, IsDir s (path.parts ++ [name]) ∧ y = path.chars ++ '/' :: name ++ ['/']

/-- A path that merely starts with the listed one goes on with the name of a directory, if its
entry is one of the tree. -/
theorem exists_dir_of_diskEntry {q : RelPath} (hleads : path.chars <+: q.chars) (hne : q ≠ path)
    (hnot : ¬(path.chars ++ ['/']) <+: q.chars)
    (hentry : DiskEntry s path (entryOf path.chars q.chars)) :
    ∃ name, IsDir s (path.parts ++ [name]) ∧ (path.chars ++ name ++ ['/']) <+: q.chars := by
  obtain ⟨name, hlast | ⟨rest, hmore⟩⟩ := follows_of_prefix hleads hne
  · rw [entryOf_of_last hlast] at hentry
    rcases hentry with ⟨q', -, ⟨name', hparts⟩, heq⟩ | ⟨name', -, heq⟩
    · rw [heq, RelPath.chars_of_parts hparts (List.cons_ne_nil _ _),
        List.intercalate_singleton] at hnot
      exact absurd ⟨name', by simp⟩ hnot
    · exact absurd heq (chars_ne_dirEntry q _)
  · rcases hmore.eq with hchars | hchars
    · exact absurd ⟨name ++ '/' :: rest, by rw [hchars]; simp⟩ hnot
    · rw [entryOf_of_more hmore] at hentry
      rcases hentry with ⟨q', -, -, heq⟩ | ⟨name', hdir', heq⟩
      · exact absurd heq.symm (chars_ne_dirEntry q' _)
      · have hsame : name = name' := by simpa using heq
        exact ⟨name, hsame ▸ hdir', rest, by rw [hchars]; simp⟩

/-- A path whose entry is that of a directory goes on with its name and a slash. -/
theorem prefix_of_entryOf_dir {q : RelPath} {name : Path} (hleads : path.chars <+: q.chars)
    (hne : q ≠ path) (heq : entryOf path.chars q.chars = path.chars ++ '/' :: name ++ ['/']) :
    (path.chars ++ '/' :: name ++ ['/']) <+: q.chars ∨
      (path.chars ++ name ++ ['/']) <+: q.chars := by
  obtain ⟨name', hlast | ⟨rest, hmore⟩⟩ := follows_of_prefix hleads hne
  · rw [entryOf_of_last hlast] at heq
    exact absurd heq (chars_ne_dirEntry q _)
  · rw [entryOf_of_more hmore] at heq
    have hsame : name' = name := by simpa using heq
    subst hsame
    rcases hmore.eq with hchars | hchars
    · exact Or.inl ⟨rest, by rw [hchars]; simp⟩
    · exact Or.inr ⟨rest, by rw [hchars]; simp⟩

/-- An entry of the tree is one of the dictionary, when each directory has a stored path below it
or beside it. -/
theorem Agrees.entry_of_disk (h : Agrees W s)
    (hdirs : ∀ name, IsDir s (path.parts ++ [name]) → ∃ key ∈ s.memory.files.keys,
      (path.chars ++ '/' :: name ++ ['/']) <+: key ∨ (path.chars ++ name ++ ['/']) <+: key)
    {y : Path} (hentry : DiskEntry s path y) :
    ∃ key ∈ s.memory.files.keys, path.chars <+: key ∧ y = entryOf path.chars key := by
  rcases hentry with ⟨q, hkey, ⟨name, hparts⟩, rfl⟩ | ⟨name, hname, rfl⟩
  · have hchars := RelPath.chars_of_parts hparts (List.cons_ne_nil _ _)
    rw [List.intercalate_singleton] at hchars
    have hvalid := q.valid name (by rw [hparts]; simp)
    have hlast : Follows path.chars name q.chars [] :=
      ⟨hvalid.1, hvalid.2.1, Or.inl (by rw [hchars, List.append_nil])⟩
    exact ⟨_, hkey, ⟨'/' :: name, hchars.symm⟩, (entryOf_of_last hlast).symm⟩
  · obtain ⟨key, hkey, hpre⟩ := hdirs name hname
    have hvalid := h.valid_name (by rw [← node?_concat, show _ = _ from hname]; rfl)
    obtain ⟨hleads, heq⟩ := entryOf_of_dir hvalid hpre
    exact ⟨key, hkey, hleads, heq.symm⟩

/-- Of a path that is not stored and is a directory the stores list the same entries exactly when
the listing is plain. -/
theorem Agrees.same_entries_iff (h : Agrees W s) (hself : path.chars ∉ s.memory.files.keys)
    (hdir : IsDir s path.parts) :
    (∀ y, (∃ key ∈ s.memory.files.keys, path.chars <+: key ∧ y = entryOf path.chars key) ↔
      DiskEntry s path y) ↔ PlainList s path := by
  have hne : ∀ q : RelPath, q.chars ∈ s.memory.files.keys → q ≠ path :=
    fun q hkey heq => hself (heq ▸ hkey)
  constructor
  · intro hsame
    refine Or.inr ⟨hdir, ?_, ?_⟩
    · intro key hkey hleads hnot
      obtain ⟨q, rfl, -⟩ := h.keys hkey
      exact exists_dir_of_diskEntry hleads (hne q hkey) hnot
        ((hsame _).mp ⟨_, hkey, hleads, rfl⟩)
    · intro name hname
      obtain ⟨key, hkey, hleads, heq⟩ := (hsame _).mpr (Or.inr ⟨name, hname, rfl⟩)
      obtain ⟨q, rfl, -⟩ := h.keys hkey
      exact ⟨q.chars, hkey, prefix_of_entryOf_dir hleads (hne q hkey) heq.symm⟩
  · rintro (hstored | ⟨-, hstarts, hdirs⟩) y
    · exact absurd hstored hself
    · constructor
      · rintro ⟨key, hkey, hleads, rfl⟩
        obtain ⟨q, rfl, -⟩ := h.keys hkey
        exact h.entry_of_memory hkey hleads (hne q hkey) (hstarts _ hkey hleads)
      · exact h.entry_of_disk hdirs

/-- **In stores that agree the listings of a path agree exactly when they are plain.** -/
theorem Agrees.sameList_iff (h : Agrees W s) (path : RelPath) :
    SameList s path ↔ PlainList s path := by
  unfold SameList
  by_cases hself : path.chars ∈ s.memory.files.keys
  · -- of a stored file both listings raise
    obtain ⟨error, hmemory⟩ := InMemoryFileStore.foldlM_listStep_of_mem hself []
    have hlist : s.memory.list path.chars = .error error := hmemory
    obtain ⟨q, hchars, content, hfile⟩ := h.keys hself
    have hqq : path = q := RelPath.chars_injective hchars
    subst hqq
    have hdisk : s.disk.list path = .error (.os .notADirectory) := by
      unfold LocalFileStore.list
      rw [node?_parts, hfile]
    rw [hlist, hdisk]
    exact iff_of_true trivial (Or.inl hself)
  · obtain ⟨listed, hmemory, hnodup, hmem⟩ := InMemoryFileStore.foldlM_listStep
      (fun key hkey => (h.keys hkey).imp fun _ hq => hq.1) s.memory.files.nodup hself
      List.nodup_nil (fun _ _ => List.not_mem_nil)
    have hlist : s.memory.list path.chars = .ok listed := hmemory
    rw [hlist]
    by_cases hdir : IsDir s path.parts
    · obtain ⟨listed', hdisk, hnodup', hmem'⟩ := h.list_disk hdir
      rw [hdisk]
      show listed.Perm listed' ↔ _
      rw [List.perm_ext_iff_of_nodup hnodup hnodup', ← h.same_entries_iff hself hdir]
      refine forall_congr' fun y => ?_
      rw [hmem, hmem', or_iff_right List.not_mem_nil]
      rfl
    · -- without the directory the tree raises, which the dictionary does not
      have hdisk : ∃ error, s.disk.list path = .error error := by
        unfold LocalFileStore.list
        split
        · exact ⟨_, rfl⟩
        · exact ⟨_, rfl⟩
        · rename_i hnode
          exact absurd hnode hdir
      obtain ⟨error, hdisk⟩ := hdisk
      rw [hdisk]
      refine iff_of_false id ?_
      rintro (hstored | ⟨hdir', -⟩)
      · exact hself hstored
      · exact hdir hdir'

end Listings

/-! ## Whole runs -/

theorem Workload.covers (w : Workload) :
    ∀ call ∈ w.calls, Covers (fun p => p ∈ writtenPaths w.calls) call := by
  intro call hcall
  cases call with
  | write p contents => exact List.mem_filterMap.mpr ⟨_, hcall, rfl⟩
  | delete p => trivial

/-- **The two file stores.**  Both stores have the same effect in every step of a run exactly when
every call is plain; then every path reads the same at its end, and a path lists the same exactly
when its listing is plain there; and in any store a deletion removes the path and what lies below
it, and nothing else, exactly when no other stored path starts with it. -/
theorem same_stores_iff (w : Workload) :
    ((∀ p ∈ Run.steps Pair.step {} w.calls, SameStep p.1 p.2)
      ↔ ∀ p ∈ Run.steps Pair.step {} w.calls, PlainStep p.1 p.2) ∧
    ((∀ p ∈ Run.steps Pair.step {} w.calls, PlainStep p.1 p.2) →
      SameReads (Run.run Pair.step {} w.calls) ∧
      ∀ path, SameList (Run.run Pair.step {} w.calls) path
        ↔ PlainList (Run.run Pair.step {} w.calls) path) ∧
    ∀ path, ExactDelete (Run.run Pair.step {} w.calls).memory path ↔
      ∀ key ∈ (Run.run Pair.step {} w.calls).memory.files.keys, path <+: key →
        key = path ∨ (path ++ ['/']) <+: key := by
  have hrun := agrees_start.run (fun p q hp hq => w.tidy p hp q hq) w.covers
  refine ⟨hrun.1, fun hplain => ⟨(hrun.2 hplain).sameReads, (hrun.2 hplain).sameList_iff⟩, ?_⟩
  exact fun path => exactDelete_iff

/-- The path of the metadata of a conversation. -/
def metadataPath (sid : Path) (hsid : sid ≠ [] ∧ '/' ∉ sid ∧ sid ≠ ['.'] ∧ sid ≠ ['.', '.']) :
    RelPath where
  parts := ["sessions".toList, sid, "metadata.json".toList]
  ne_nil := List.cons_ne_nil _ _
  valid := by
    intro name hname
    simp only [List.mem_cons, List.not_mem_nil, or_false] at hname
    rcases hname with rfl | rfl | rfl
    · decide
    · exact hsid
    · decide

/-- Two conversations of which the second has an id that starts with the id of the first, and the
first one is deleted. -/
def deletedConversation : Workload where
  calls :=
    [.write (metadataPath ['1'] (by decide)) (.str "x"),
     .write (metadataPath ['1', '2'] (by decide)) (.str "y"),
     .delete ⟨["sessions".toList, ['1']], by decide, by decide⟩]
  tidy := by decide

/-- The deletion also removes the metadata of the second conversation from the dictionary. -/
theorem not_sameStores :
    ¬∀ p ∈ Run.steps Pair.step {} deletedConversation.calls, SameStep p.1 p.2 := by
  intro h
  have hplain := (agrees_start.run (fun p q hp hq => deletedConversation.tidy p hp q hq)
    deletedConversation.covers).1.mp h
  simp only [deletedConversation, Run.steps_cons, Run.steps_nil, List.forall_mem_cons] at hplain
  have hdelete := hplain.2.2.1
  have hkey := hdelete (metadataPath ['1', '2'] (by decide)).chars (by decide) (by decide)
  exact absurd hkey (by decide)

end OpenHands.Stores
