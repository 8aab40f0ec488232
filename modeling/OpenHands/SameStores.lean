/-
# The two file stores

The same calls on an `InMemoryFileStore` and on a `LocalFileStore`.  They agree in every
state exactly when every call is plain: contents are text without carriage returns, and no
stored path merely starts with a deleted one.  In the states of such a run the listings of a path
agree exactly when `PlainList` holds.
-/
import OpenHands.Lib.Run
import OpenHands.StoreListing

namespace OpenHands.Stores

open WebHook (Contents fromUTF8?_toUTF8)

/-! ## Two stores side by side -/

/-- The two stores. -/
structure Pair where
  memory : InMemoryFileStore := {}
  disk : LocalFileStore := {}

/-- A call that changes a store. -/
inductive FileCall
  | write (path : RelPath) (contents : Contents)
  | delete (path : RelPath)

/-- The same call on both; a call that raises changes nothing. -/
def Pair.step (s : Pair) : FileCall → Pair
  | .write path contents =>
    { memory := (s.memory.write path.chars contents).toOption.getD s.memory
      disk := (s.disk.write path contents).toOption.getD s.disk }
  | .delete path =>
    { memory := s.memory.delete path.chars
      disk := s.disk.delete path }

/-- Every path reads the same, or raises in both. -/
def SameReads (s : Pair) : Prop :=
  ∀ path : RelPath, (s.memory.read path.chars).toOption = (s.disk.read path).toOption

/-- The call raises in both stores or in none. -/
def SameOutcome (s : Pair) : FileCall → Prop
  | .write path contents =>
    (s.memory.write path.chars contents).isOk = (s.disk.write path contents).isOk
  | .delete _ => True

/-- The call has the same outcome, and afterwards every path reads the same. -/
def SameStep (s : Pair) (call : FileCall) : Prop := SameOutcome s call ∧ SameReads (s.step call)

/-- A call is plain: what is written is text without carriage returns; a stored path that starts
with a deleted one is that path or lies below it. -/
def PlainStep (s : Pair) : FileCall → Prop
  | .write _ contents => ∃ text, InMemoryFileStore.text? contents = some text ∧ '\r' ∉ text.toList
  | .delete path =>
    ∀ key ∈ s.memory.files.keys, path.chars <+: key →
      key = path.chars ∨ (path.chars ++ ['/']) <+: key

/-- The paths that are written. -/
def writtenPaths (calls : List FileCall) : List RelPath :=
  calls.filterMap fun
    | .write path _ => some path
    | .delete _ => none

/-- Calls in which no path is both a file and a directory. -/
structure Workload where
  calls : List FileCall
  tidy : ∀ p ∈ writtenPaths calls, ∀ q ∈ writtenPaths calls, p.parts <+: q.parts → p = q

/-! ## Text mode -/

theorem notMem_universalNewlines (s : List Char) : '\r' ∉ universalNewlines s := by
  induction s using universalNewlines.induct with
  | case1 => exact List.not_mem_nil
  | case2 rest ih =>
      rw [universalNewlines]
      exact List.not_mem_cons_of_ne_of_not_mem (by decide) ih
  | case3 rest hrest ih =>
      rw [universalNewlines]
      · exact List.not_mem_cons_of_ne_of_not_mem (by decide) ih
      · exact hrest
  | case4 c rest h h' ih =>
      rw [universalNewlines]
      · exact List.not_mem_cons_of_ne_of_not_mem (fun hc => h' hc.symm) ih
      · exact h
      · exact h'

/-- Text mode keeps a text exactly when it has no carriage return. -/
theorem universalNewlines_eq_iff {s : List Char} : universalNewlines s = s ↔ '\r' ∉ s := by
  constructor
  · intro h
    rw [← h]
    exact notMem_universalNewlines s
  · intro h
    induction s using universalNewlines.induct with
    | case1 => rfl
    | case2 rest _ => exact absurd List.mem_cons_self h
    | case3 rest _ _ => exact absurd List.mem_cons_self h
    | case4 c rest h' h'' ih =>
        rw [universalNewlines]
        · rw [ih (fun hmem => h (List.mem_cons_of_mem c hmem))]
        · exact h'
        · exact h''

/-! ## The invariant -/

/-- The stores agree: the dictionary holds the files of the tree, and the tree has the
directories above them.  `W` are the paths that are ever written. -/
structure Agrees (W : RelPath → Prop) (s : Pair) : Prop where
  onDisk : ∀ key text, s.memory.files.get? key = some text → ∃ p, W p ∧ key = p.chars ∧
    s.disk.tree.get? p.parts = some (.file text.toUTF8) ∧ '\r' ∉ text.toList
  inMemory : ∀ key content, s.disk.tree.get? key = some (.file content) → ∃ p text, W p ∧
    key = p.parts ∧ s.memory.files.get? p.chars = some text
  dirs : ∀ key, s.disk.tree.get? key = some .dir →
    key ≠ [] ∧ ∃ p, W p ∧ key <+: p.parts ∧ key ≠ p.parts
  closed : ∀ key sub node, s.disk.tree.get? key = some node → sub ≠ [] → sub <+: key → sub ≠ key →
    s.disk.tree.get? sub = some .dir

theorem node?_parts (tree : FileTree Path ByteArray) (p : RelPath) :
    FileTree.node? tree p.parts = tree.get? p.parts := if_neg p.ne_nil

section Invariant

variable {W : RelPath → Prop} (htidy : ∀ p q, W p → W q → p.parts <+: q.parts → p = q)
  {s : Pair}

theorem agrees_start : Agrees W {} where
  onDisk := by
    intro key text h
    cases h
  inMemory := by
    intro key content h
    cases h
  dirs := by
    intro key h
    cases h
  closed := by
    intro key sub node h
    cases h

/-- A file of the tree holds the text of the dictionary. -/
theorem Agrees.get?_memory (h : Agrees W s) {p : RelPath} {content : ByteArray}
    (hfile : s.disk.tree.get? p.parts = some (.file content)) :
    ∃ text, s.memory.files.get? p.chars = some text ∧ content = text.toUTF8 := by
  obtain ⟨q, text, -, hparts, htext⟩ := h.inMemory _ _ hfile
  have hpq : p = q := RelPath.parts_injective hparts
  subst hpq
  obtain ⟨q, -, hchars, hfile', -⟩ := h.onDisk _ _ htext
  have hpq : p = q := RelPath.chars_injective hchars
  subst hpq
  rw [hfile] at hfile'
  cases hfile'
  exact ⟨text, htext, rfl⟩

theorem Agrees.get?_disk (h : Agrees W s) {p : RelPath} {text : String}
    (htext : s.memory.files.get? p.chars = some text) :
    W p ∧ s.disk.tree.get? p.parts = some (.file text.toUTF8) ∧ '\r' ∉ text.toList := by
  obtain ⟨q, hW, hchars, hfile, hplain⟩ := h.onDisk _ _ htext
  have hpq : p = q := RelPath.chars_injective hchars
  subst hpq
  exact ⟨hW, hfile, hplain⟩

/-- In stores that agree every path reads the same. -/
theorem Agrees.sameReads (h : Agrees W s) : SameReads s := by
  intro p
  unfold InMemoryFileStore.read LocalFileStore.read
  rw [node?_parts]
  cases htext : s.memory.files.get? p.chars with
  | some text =>
      obtain ⟨-, hfile, hplain⟩ := h.get?_disk htext
      rw [hfile]
      dsimp only
      rw [fromUTF8?_toUTF8]
      dsimp only
      rw [universalNewlines_eq_iff.mpr hplain, String.ofList_toList]
  | none =>
      cases hnode : s.disk.tree.get? p.parts with
      | none => rfl
      | some node =>
          cases node with
          | dir => rfl
          | file content =>
              obtain ⟨text, htext', -⟩ := h.get?_memory hnode
              rw [htext] at htext'
              cases htext'

/-! ## Writing -/

include htidy in
/-- A write reaches the disk: the file, and the directories above it. -/
theorem Agrees.write_disk (h : Agrees W s) {p : RelPath} (hp : W p) (contents : Contents) :
    ∃ tree, s.disk.write p contents = .ok { tree } ∧ ∀ key, tree.get? key =
      if key = p.parts then some (.file contents.toBytes)
      else if key ≠ [] ∧ key <+: p.parts then some .dir else s.disk.tree.get? key := by
  have hlast : p.parts = p.parts.dropLast ++ [p.parts.getLast p.ne_nil] :=
    (List.dropLast_append_getLast p.ne_nil).symm
  have hleads : ∀ key : List Path, key <+: p.parts ↔ key = p.parts ∨ key <+: p.parts.dropLast := by
    intro key
    conv_lhs => rw [hlast, List.prefix_concat_iff]
    rw [← hlast]
  have hproper : ∀ key : List Path, key <+: p.parts.dropLast → key ≠ p.parts := by
    rintro key hkey rfl
    have hlen := hkey.length_le
    rw [List.length_dropLast] at hlen
    have hpos := List.length_pos_iff.mpr p.ne_nil
    omega
  have hfree : ∀ key, key ≠ [] → key <+: p.parts.dropLast →
      ∀ content, s.disk.tree.get? key ≠ some (.file content) := by
    intro key _ hkey content hfile
    obtain ⟨q, -, hq, rfl, -⟩ := h.inMemory _ _ hfile
    have hqp := htidy q p hq hp ((hleads _).mpr (Or.inr hkey))
    exact hproper _ hkey (by rw [hqp])
  obtain ⟨tree, hmake, hget⟩ := FileTree.makedirs_spec hfree
  have hnode : FileTree.node? tree p.parts ≠ some .dir := by
    rw [node?_parts, hget, if_neg (fun hkey => hproper _ hkey.2 rfl)]
    intro hdir
    obtain ⟨-, q, hq, hpq, hne⟩ := h.dirs _ hdir
    exact hne (by rw [htidy p q hp hq hpq])
  refine ⟨tree.set p.parts (.file contents.toBytes), ?_, fun key => ?_⟩
  · unfold LocalFileStore.write
    rw [hmake]
    dsimp only
    rw [FileTree.openWrite_of_ne_dir hnode]
  · rw [PyDict.get?_set, hget]
    by_cases hkey : key = p.parts
    · rw [if_pos hkey, if_pos hkey]
    · rw [if_neg hkey, if_neg hkey]
      simp only [hleads key, hkey, false_or]

theorem text?_toBytes {contents : Contents} {text : String}
    (h : InMemoryFileStore.text? contents = some text) : contents.toBytes = text.toUTF8 := by
  cases contents with
  | str s =>
      cases h
      rfl
  | bytes b =>
      unfold InMemoryFileStore.text? String.fromUTF8? at h
      dsimp only at h
      split_ifs at h
      cases h
      rfl

/-- A write that succeeds on both sides. -/
theorem step_write {p : RelPath} {contents : Contents} {text : String}
    {tree : FileTree Path ByteArray} (htext : InMemoryFileStore.text? contents = some text)
    (hdisk : s.disk.write p contents = .ok { tree }) : s.step (.write p contents)
      = { memory := { files := s.memory.files.set p.chars text }, disk := { tree } } := by
  have hmemory : s.memory.write p.chars contents
      = .ok { files := s.memory.files.set p.chars text } := by
    unfold InMemoryFileStore.write
    rw [htext]
  unfold Pair.step
  dsimp only
  rw [hmemory, hdisk]
  rfl

include htidy in
/-- A plain write keeps the agreement. -/
theorem Agrees.write (h : Agrees W s) {p : RelPath} (hp : W p) {contents : Contents} {text : String}
    (htext : InMemoryFileStore.text? contents = some text) (hplain : '\r' ∉ text.toList) :
    Agrees W (s.step (.write p contents)) := by
  obtain ⟨tree, hdisk, hget⟩ := h.write_disk htidy hp contents
  rw [step_write htext hdisk]
  have hother : ∀ q, W q → q ≠ p → tree.get? q.parts = s.disk.tree.get? q.parts := by
    intro q hq hne
    have hparts : q.parts ≠ p.parts := fun heq => hne (RelPath.parts_injective heq)
    rw [hget, if_neg hparts, if_neg (fun hkey => hne (htidy q p hq hp hkey.2))]
  constructor
  · intro key text' hkey
    rw [PyDict.get?_set] at hkey
    split_ifs at hkey with heq
    · cases hkey
      refine ⟨p, hp, heq, ?_, hplain⟩
      rw [hget, if_pos rfl, text?_toBytes htext]
    · obtain ⟨q, hq, rfl, hfile, hplain'⟩ := h.onDisk _ _ hkey
      have hne : q ≠ p := fun hqp => heq (by rw [hqp])
      exact ⟨q, hq, rfl, by rw [hother q hq hne]; exact hfile, hplain'⟩
  · intro key content hkey
    rw [hget] at hkey
    split_ifs at hkey with heq hdir
    · exact ⟨p, text, hp, heq, by rw [PyDict.get?_set, if_pos rfl]⟩
    · cases hkey
    · obtain ⟨q, text', hq, rfl, hold⟩ := h.inMemory _ _ hkey
      have hne : q.chars ≠ p.chars := fun hqp => heq (by rw [RelPath.chars_injective hqp])
      exact ⟨q, text', hq, rfl, by rw [PyDict.get?_set, if_neg hne]; exact hold⟩
  · intro key hkey
    rw [hget] at hkey
    split_ifs at hkey with heq hdir
    · cases hkey
    · exact ⟨hdir.1, p, hp, hdir.2, heq⟩
    · exact h.dirs key hkey
  · intro key sub node hkey hsub hleads hne
    have habove : sub <+: p.parts → sub ≠ p.parts → tree.get? sub = some .dir := by
      intro hsub' hne'
      rw [hget, if_neg hne', if_pos ⟨hsub, hsub'⟩]
    rw [hget] at hkey
    split_ifs at hkey with heq hdir
    · exact habove (heq ▸ hleads) (heq ▸ hne)
    · refine habove (hleads.trans hdir.2) ?_
      rintro rfl
      exact heq (hdir.2.eq_of_length_le hleads.length_le)
    · have hold := h.closed key sub node hkey hsub hleads hne
      have hne' : sub ≠ p.parts := by
        rintro rfl
        obtain ⟨-, q, hq, hpq, hneq⟩ := h.dirs _ hold
        exact hneq (by rw [htidy p q hp hq hpq])
      rw [hget, if_neg hne']
      split_ifs
      · rfl
      · exact hold

/-! ## Deleting -/

/-- A deletion removes the path and everything below it from the tree. -/
theorem Agrees.get?_delete_disk (h : Agrees W s) (p : RelPath) (key : List Path) :
    (s.disk.delete p).tree.get? key
      = if p.parts <+: key then none else s.disk.tree.get? key := by
  -- what lies below a path that is no directory is nothing
  have hbelow : s.disk.tree.get? p.parts ≠ some .dir → key ≠ p.parts → p.parts <+: key →
      s.disk.tree.get? key = none := by
    intro hnode hne hleads
    cases hkey : s.disk.tree.get? key with
    | none => rfl
    | some node => exact absurd (h.closed key _ node hkey p.ne_nil hleads (Ne.symm hne)) hnode
  unfold LocalFileStore.delete
  rw [node?_parts]
  cases hnode : s.disk.tree.get? p.parts with
  | none =>
      split_ifs with hleads
      · by_cases heq : key = p.parts
        · rw [heq]
          exact hnode
        · exact hbelow (by rw [hnode]; intro h'; cases h') heq hleads
      · rfl
  | some node =>
      cases node with
      | dir => exact FileTree.get?_rmtree
      | file content =>
          show (PyDict.pop _ _).get? key = _
          rw [PyDict.get?_pop]
          by_cases heq : key = p.parts
          · rw [if_pos heq, if_pos (heq ▸ List.prefix_refl _)]
          · rw [if_neg heq]
            split_ifs with hleads
            · exact hbelow (by rw [hnode]; intro h'; cases h') heq hleads
            · rfl

/-- The dictionary loses every path that starts with the deleted one. -/
theorem get?_delete_memory (memory : InMemoryFileStore) (path key : Path) :
    (memory.delete path).files.get? key
      = if path <+: key then none else memory.files.get? key := by
  unfold InMemoryFileStore.delete
  dsimp only
  rw [PyDict.get?_foldl_pop]
  by_cases hkey : key ∈ memory.files.keys
  · simp [hkey]
  · have hnone := PyDict.get?_eq_none_iff.mpr hkey
    simp [hkey, hnone]

/-- A deletion is exact when it removes the path and what lies below it, and nothing else. -/
def ExactDelete (memory : InMemoryFileStore) (path : Path) : Prop :=
  ∀ key, (memory.delete path).files.get? key
    = if key = path ∨ (path ++ ['/']) <+: key then none else memory.files.get? key

/-- **A deletion is exact exactly when no other stored path starts with the deleted one.** -/
theorem exactDelete_iff {memory : InMemoryFileStore} {path : Path} :
    ExactDelete memory path ↔ ∀ key ∈ memory.files.keys, path <+: key →
      key = path ∨ (path ++ ['/']) <+: key := by
  have hstarts : ∀ key, key = path ∨ (path ++ ['/']) <+: key → path <+: key := by
    rintro key (rfl | hkey)
    · exact List.prefix_refl _
    · exact (List.prefix_append path ['/']).trans hkey
  unfold ExactDelete
  constructor
  · intro h key hkey hleads
    by_contra hout
    have hread := h key
    rw [get?_delete_memory, if_pos hleads, if_neg hout] at hread
    exact PyDict.get?_eq_none_iff.mp hread.symm hkey
  · intro h key
    rw [get?_delete_memory]
    by_cases hin : key = path ∨ (path ++ ['/']) <+: key
    · rw [if_pos hin, if_pos (hstarts key hin)]
    · rw [if_neg hin]
      split_ifs with hleads
      · exact (PyDict.get?_eq_none_iff.mpr fun hkey => hin (h key hkey hleads)).symm
      · rfl

/-- A plain deletion keeps the agreement. -/
theorem Agrees.delete (h : Agrees W s) {p : RelPath} (hplain : PlainStep s (.delete p)) :
    Agrees W (s.step (.delete p)) := by
  have hmemory : ∀ q : RelPath, (s.memory.delete p.chars).files.get? q.chars
      = if p.parts <+: q.parts then none else s.memory.files.get? q.chars := by
    intro q
    have hcover : q.chars = p.chars ∨ (p.chars ++ ['/']) <+: q.chars ↔ p.parts <+: q.parts := by
      rw [RelPath.below_iff]
      constructor
      · rintro (heq | hbelow)
        · rw [RelPath.chars_injective heq]
        · exact hbelow.1
      · intro hleads
        by_cases heq : p.parts = q.parts
        · exact Or.inl (by rw [RelPath.parts_injective heq])
        · exact Or.inr ⟨hleads, heq⟩
    rw [exactDelete_iff.mpr hplain q.chars]
    by_cases hleads : p.parts <+: q.parts
    · rw [if_pos hleads, if_pos (hcover.mpr hleads)]
    · rw [if_neg hleads, if_neg (fun hin => hleads (hcover.mp hin))]
  have hdisk := h.get?_delete_disk p
  constructor
  · intro key text hkey
    have hold : s.memory.files.get? key = some text := by
      have hread := get?_delete_memory s.memory p.chars key
      rw [show (s.step (.delete p)).memory = s.memory.delete p.chars from rfl, hread] at hkey
      split_ifs at hkey
      exact hkey
    obtain ⟨q, hq, rfl, hfile, htext⟩ := h.onDisk _ _ hold
    refine ⟨q, hq, rfl, ?_, htext⟩
    have hkey' : (s.memory.delete p.chars).files.get? q.chars = some text := hkey
    rw [hmemory] at hkey'
    split_ifs at hkey' with hleads
    show (s.disk.delete p).tree.get? q.parts = _
    rw [hdisk, if_neg hleads]
    exact hfile
  · intro key content hkey
    have hkey' : (s.disk.delete p).tree.get? key = some (.file content) := hkey
    rw [hdisk] at hkey'
    split_ifs at hkey' with hleads
    obtain ⟨q, text, hq, rfl, htext⟩ := h.inMemory _ _ hkey'
    refine ⟨q, text, hq, rfl, ?_⟩
    show (s.memory.delete p.chars).files.get? q.chars = _
    rw [hmemory, if_neg hleads]
    exact htext
  · intro key hkey
    have hkey' : (s.disk.delete p).tree.get? key = some .dir := hkey
    rw [hdisk] at hkey'
    split_ifs at hkey'
    exact h.dirs key hkey'
  · intro key sub node hkey hsub hleads hne
    have hkey' : (s.disk.delete p).tree.get? key = some node := hkey
    rw [hdisk] at hkey'
    split_ifs at hkey' with hgone
    show (s.disk.delete p).tree.get? sub = _
    rw [hdisk, if_neg (fun h' => hgone (h'.trans hleads))]
    exact h.closed key sub node hkey' hsub hleads hne

/-! ## Plain calls and agreement -/

/-- The paths of a call are among those that are ever written. -/
def Covers (W : RelPath → Prop) : FileCall → Prop
  | .write path _ => W path
  | .delete _ => True

include htidy in
/-- A write that both stores read back the same is one of a text without carriage returns. -/
theorem Agrees.plainStep_write (h : Agrees W s) {p : RelPath} (hp : W p) {contents : Contents}
    (hsame : SameStep s (.write p contents)) : PlainStep s (.write p contents) := by
  obtain ⟨houtcome, hreads⟩ := hsame
  obtain ⟨tree, hdisk, hget⟩ := h.write_disk htidy hp contents
  have hok : (s.memory.write p.chars contents).isOk = true := by
    have heq : (s.memory.write p.chars contents).isOk = (s.disk.write p contents).isOk := houtcome
    rw [heq, hdisk]
    rfl
  unfold InMemoryFileStore.write at hok
  cases htext : InMemoryFileStore.text? contents with
  | none =>
      rw [htext] at hok
      cases hok
  | some text =>
      refine ⟨text, htext, ?_⟩
      have hread := hreads p
      rw [step_write htext hdisk] at hread
      unfold InMemoryFileStore.read LocalFileStore.read at hread
      rw [node?_parts] at hread
      dsimp only at hread
      rw [PyDict.get?_set, if_pos rfl, hget, if_pos rfl] at hread
      dsimp only at hread
      rw [text?_toBytes htext, fromUTF8?_toUTF8] at hread
      have heq : text = String.ofList (universalNewlines text.toList) :=
        Option.some.inj hread
      rw [← universalNewlines_eq_iff]
      conv_rhs => rw [heq]
      rw [String.toList_ofList]

/-- A path that the dictionary loses and the tree keeps reads differently. -/
theorem Agrees.plainStep_delete (h : Agrees W s) {p : RelPath}
    (hsame : SameStep s (.delete p)) : PlainStep s (.delete p) := by
  intro key hkey hleads
  by_contra hout
  rw [not_or] at hout
  obtain ⟨text, htext⟩ := Option.isSome_iff_exists.mp (PyDict.isSome_get?_iff.mpr hkey)
  obtain ⟨q, -, rfl, hfile, -⟩ := h.onDisk _ _ htext
  have hkept : ¬p.parts <+: q.parts := by
    intro hparts
    by_cases heq : p.parts = q.parts
    · exact hout.1 (by rw [RelPath.parts_injective heq])
    · exact hout.2 (RelPath.below_iff.mpr ⟨hparts, heq⟩)
  have hread := hsame.2 q
  have hmemory : (s.memory.delete p.chars).files.get? q.chars = none := by
    rw [get?_delete_memory, if_pos hleads]
  have hdisk : (s.disk.delete p).tree.get? q.parts = some (.file text.toUTF8) := by
    rw [h.get?_delete_disk, if_neg hkept]
    exact hfile
  unfold Pair.step InMemoryFileStore.read LocalFileStore.read at hread
  dsimp only at hread
  rw [node?_parts, hmemory, hdisk] at hread
  dsimp only at hread
  rw [fromUTF8?_toUTF8] at hread
  cases hread

include htidy in
/-- In stores that agree a call has the same effect exactly when it is plain, and then they
agree afterwards. -/
theorem Agrees.sameStep_iff (h : Agrees W s) {call : FileCall} (hcall : Covers W call) :
    (SameStep s call ↔ PlainStep s call) ∧ (PlainStep s call → Agrees W (s.step call)) := by
  have hagree : PlainStep s call → Agrees W (s.step call) := by
    cases call with
    | write p contents =>
        rintro ⟨text, htext, hplain⟩
        exact h.write htidy hcall htext hplain
    | delete p => exact h.delete
  refine ⟨⟨fun hsame => ?_, fun hplain => ⟨?_, (hagree hplain).sameReads⟩⟩, hagree⟩
  · cases call with
    | write p contents => exact h.plainStep_write htidy hcall hsame
    | delete p => exact h.plainStep_delete hsame
  · cases call with
    | write p contents =>
        obtain ⟨text, htext, -⟩ := hplain
        obtain ⟨tree, hdisk, -⟩ := h.write_disk htidy hcall contents
        show (s.memory.write p.chars contents).isOk = (s.disk.write p contents).isOk
        unfold InMemoryFileStore.write
        rw [htext, hdisk]
        rfl
    | delete p => trivial

include htidy in
/-- All calls of a run have the same effect exactly when all are plain, and then the stores
agree at the end. -/
theorem Agrees.run (h : Agrees W s) {calls : List FileCall} (hcalls : ∀ call ∈ calls, Covers W call) :
    ((∀ p ∈ Run.steps Pair.step s calls, SameStep p.1 p.2)
      ↔ ∀ p ∈ Run.steps Pair.step s calls, PlainStep p.1 p.2) ∧
    ((∀ p ∈ Run.steps Pair.step s calls, PlainStep p.1 p.2) →
      Agrees W (Run.run Pair.step s calls)) := by
  induction calls generalizing s with
  | nil => exact ⟨by simp, fun _ => h⟩
  | cons call calls ih =>
      rw [List.forall_mem_cons] at hcalls
      obtain ⟨hiff, hagree⟩ := h.sameStep_iff htidy hcalls.1
      rw [Run.steps_cons, List.forall_mem_cons, List.forall_mem_cons, Run.run_cons]
      constructor
      · constructor
        · rintro ⟨hsame, hrest⟩
          have hplain := hiff.mp hsame
          exact ⟨hplain, (ih (hagree hplain) hcalls.2).1.mp hrest⟩
        · rintro ⟨hplain, hrest⟩
          exact ⟨hiff.mpr hplain, (ih (hagree hplain) hcalls.2).1.mpr hrest⟩
      · rintro ⟨hplain, hrest⟩
        exact (ih (hagree hplain) hcalls.2).2 hrest

end Invariant

end OpenHands.Stores
