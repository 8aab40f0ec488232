/-
# The file store in a bucket

`S3FileStore` (storage/s3.py) keeps the file of a path under the path as its key.  There are no
directories: what lies below a path is found by listing the keys that start with the path and a
slash.  A listing is one page of keys (`list_objects_v2`), and the store asks for the first one.

Every request to the bucket can fail, before or after it has taken effect.
-/
import OpenHands.Lib.Run
import OpenHands.StoreListing

namespace OpenHands.Buckets

open Stores (Path RelPath)
open WebHook (Contents)

/-- The objects of a bucket. -/
abbrev Bucket := PyDict Path ByteArray

/-- What a request raises: a `ClientError` with its code, or something else; with its text. -/
inductive Failure
  | clientError (code text : String)
  | other (text : String)
  deriving DecidableEq, Repr

/-- A failure of a request, before it has taken effect or after it has. -/
inductive Fault
  | refused (failure : Failure)
  | lost (failure : Failure)
  deriving DecidableEq, Repr

/-- The client: its listings, and which of its requests fail. -/
structure Client where
  /-- The keys of a bucket that start with a prefix, as one listing returns them. -/
  listKeys : Bucket → Path → List Path
  fault : ℕ → Option Fault

/-- A bucket and the number of requests that were made. -/
structure World where
  bucket : Bucket := .empty
  requests : ℕ := 0

/-- What the operations of the stores raise. -/
inductive Raised
  | fileNotFoundError (message : String)
  | failure (failure : Failure)
  deriving DecidableEq, Repr

/-- `S3FileStore`. -/
structure S3FileStore where
  bucket : String
  client : Client

/-! ## The requests -/

namespace Client

variable (self : Client)

/-- A request that changes the bucket. -/
def request (effect : Bucket → Bucket) (w : World) : Option Failure × World :=
  match self.fault w.requests with
  | none => (none, ⟨effect w.bucket, w.requests + 1⟩)
  | some (.refused failure) => (some failure, ⟨w.bucket, w.requests + 1⟩)
  | some (.lost failure) => (some failure, ⟨effect w.bucket, w.requests + 1⟩)

/-- A request that reads the bucket. -/
def ask {α : Type} (answer : Bucket → α) (w : World) : Except Failure α × World :=
  match self.fault w.requests with
  | none => (.ok (answer w.bucket), ⟨w.bucket, w.requests + 1⟩)
  | some (.refused failure) => (.error failure, ⟨w.bucket, w.requests + 1⟩)
  | some (.lost failure) => (.error failure, ⟨w.bucket, w.requests + 1⟩)

/-- `put_object`. -/
def putObject (key : Path) (body : ByteArray) (w : World) : Option Failure × World :=
  self.request (fun bucket => bucket.set key body) w

/-- `delete_object`: no failure when there is no such object. -/
def deleteObject (key : Path) (w : World) : Option Failure × World :=
  self.request (fun bucket => bucket.pop key) w

/-- `delete_object` for one key after the other, up to the first failure. -/
def deleteObjects : List Path → World → Option Failure × World
  | [], w => (none, w)
  | key :: keys, w =>
    match self.deleteObject key w with
    | (none, w) => deleteObjects keys w
    | (some failure, w) => (some failure, w)

end Client

/-! ## Paths and keys -/

/-- `sub_path.index('/', start)`. -/
def indexFrom (sub_path : Path) (start : ℕ) : Option ℕ :=
  ((sub_path.drop start).idxOf? '/').map (start + ·)

/-- The path whose keys `list` asks for. -/
def listedPath (path : Path) : Path :=
  if path = [] ∨ path = ['/'] then []
  else if path.getLast? = some '/' then path
  else path ++ ['/']

/-- The entry of a key that is not the path itself: the key up to its first slash behind the
path, or the key. -/
def entryOfKey (path sub_path : Path) : Option Path :=
  match indexFrom sub_path (path.length + 1) with
  | some index => if index ≠ path.length then some (sub_path.take (index + 1)) else none
  | none => some sub_path

/-- The set of the entries of the keys. -/
def entriesOf (path : Path) (keys : List Path) : List Path :=
  ((keys.filter (· ≠ path)).filterMap (entryOfKey path)).dedup

/-- The path that `delete` removes. -/
def sanitized (path : Path) : Path :=
  let path := if path = [] ∨ path = ['/'] then [] else path
  if path.getLast? = some '/' then path.dropLast else path

/-! ## `S3FileStore` -/

namespace S3FileStore

variable (self : S3FileStore)

def noBucket : String := "Error: The bucket '" ++ self.bucket ++ "' does not exist."

def denied : String := "Error: Access denied to bucket '" ++ self.bucket ++ "'."

def noKey (path : Path) : String :=
  "Error: The object key '" ++ String.ofList path ++ "' does not exist in bucket '" ++ self.bucket
    ++ "'."

/-- The handlers of `write`. -/
def writeRaises (path : Path) : Failure → Raised
  | .clientError code text =>
    if code = "AccessDenied" then .fileNotFoundError (denied self)
    else if code = "NoSuchBucket" then .fileNotFoundError (noBucket self)
    else .fileNotFoundError ("Error: Failed to write to bucket '" ++ self.bucket ++ "' at path "
      ++ String.ofList path ++ ": " ++ text)
  | .other text => .failure (.other text)

/-- `write`. -/
def write (path : Path) (contents : Contents) (w : World) : Option Raised × World :=
  match self.client.putObject path contents.toBytes w with
  | (none, w) => (none, w)
  | (some failure, w) => (some (writeRaises self path failure), w)

/-- `list`: the set as a list, in any order. -/
def list (path : Path) (w : World) : Except Failure (List Path) × World :=
  let path := listedPath path
  match self.client.ask (fun bucket => self.client.listKeys bucket path) w with
  | (.ok keys, w) => (.ok (entriesOf path keys), w)
  | (.error failure, w) => (.error failure, w)

/-- The handlers of `delete`. -/
def deleteRaises (path : Path) : Failure → Raised
  | .clientError code text =>
    if code = "NoSuchBucket" then .fileNotFoundError (noBucket self)
    else if code = "AccessDenied" then .fileNotFoundError (denied self)
    else if code = "NoSuchKey" then .fileNotFoundError (noKey self path)
    else .fileNotFoundError ("Error: Failed to delete key '" ++ String.ofList path
      ++ "' from bucket '" ++ self.bucket ++ "': " ++ text)
  | .other text =>
    .fileNotFoundError ("Error: Failed to delete key '" ++ String.ofList path ++ "' from bucket '"
      ++ self.bucket ++ ": " ++ text)

/-- The body of `delete`: the keys of one listing, then the path itself. -/
def deleteKeys (path : Path) (w : World) : Option Failure × World :=
  match self.client.ask (fun bucket => self.client.listKeys bucket (path ++ ['/'])) w with
  | (.error failure, w) => (some failure, w)
  | (.ok keys, w) => self.client.deleteObjects (keys ++ [path]) w

/-- `delete`. -/
def delete (path : Path) (w : World) : Option Raised × World :=
  let path := sanitized path
  match deleteKeys self path w with
  | (none, w) => (none, w)
  | (some failure, w) => (some (deleteRaises self path failure), w)

end S3FileStore

/-! ## The files of a bucket -/

/-- The contents of the paths that are stored. -/
abbrev Files := RelPath → Option ByteArray

/-- The files of a bucket. -/
def filesOf (bucket : Bucket) : Files := fun q => bucket.get? q.chars

/-- A call that changes a store. -/
inductive Call
  | write (path : RelPath) (contents : Contents)
  | delete (path : RelPath)

open scoped Classical in
/-- What a call is for: a deletion removes the path and everything below it. -/
noncomputable def Files.perform (files : Files) : Call → Files
  | .write path contents => fun q => if q = path then some contents.toBytes else files q
  | .delete path => fun q => if path.parts <+: q.parts then none else files q

/-- A call that returned has been performed.  One that raised has been performed for some of the
files, and the others are as before. -/
def Settled (before after : Files) (call : Call) (raised : Option Raised) : Prop :=
  match raised with
  | none => after = before.perform call
  | some _ => ∀ q, after q = before q ∨ after q = before.perform call q

/-- The call of the store. -/
def S3FileStore.perform (self : S3FileStore) (w : World) : Call → Option Raised × World
  | .write path contents => S3FileStore.write self path.chars contents w
  | .delete path => S3FileStore.delete self path.chars w

/-- The next state of the bucket. -/
def S3FileStore.step (self : S3FileStore) (w : World) (call : Call) : World :=
  (self.perform w call).2

/-- The call leaves the files as a call of a file system does. -/
def S3FileStore.SettledStep (self : S3FileStore) (w : World) (call : Call) : Prop :=
  Settled (filesOf w.bucket) (filesOf (self.step w call).bucket) call (self.perform w call).1

/-- The keys below a path. -/
def keysBelow (bucket : Bucket) (path : RelPath) : List Path :=
  bucket.keys.filter fun key => (path.chars ++ ['/']) <+: key

/-- A deletion that returns finds no more than `maxKeys` keys below its path. -/
def S3FileStore.FitsPage (self : S3FileStore) (maxKeys : ℕ) (w : World) : Call → Prop
  | .write _ _ => True
  | .delete path => (self.perform w (.delete path)).1 = none →
      (keysBelow w.bucket path).length ≤ maxKeys

/-- The listing of a client: keys that start with the prefix, each once, at most `maxKeys`, and
all of them where there are no more. -/
structure Client.Pages (client : Client) (maxKeys : ℕ) : Prop where
  nodup : ∀ bucket path, (client.listKeys bucket path).Nodup
  isBelow : ∀ bucket path, ∀ key ∈ client.listKeys bucket path, key ∈ bucket.keys ∧ path <+: key
  length_le : ∀ bucket path, (client.listKeys bucket path).length ≤ maxKeys
  complete : ∀ bucket path, (bucket.keys.filter fun key => path <+: key).length ≤ maxKeys →
    ∀ key ∈ bucket.keys, path <+: key → key ∈ client.listKeys bucket path

/-- The pages are full where there are more keys. -/
def Client.FillsPages (client : Client) (maxKeys : ℕ) : Prop :=
  ∀ bucket path, maxKeys < (bucket.keys.filter fun key => path <+: key).length →
    maxKeys ≤ (client.listKeys bucket path).length

/-- The keys are paths, as those that the store writes (`holdsPaths_step`). -/
def Bucket.HoldsPaths (bucket : Bucket) : Prop := ∀ key ∈ bucket.keys, ∃ q : RelPath, key = q.chars

/-! ## What the requests do -/

section Requests

variable {self : Client} {effect : Bucket → Bucket} {w : World} {key : Path} {keys : List Path}

theorem Client.request_bucket (self : Client) (effect : Bucket → Bucket) (w : World) :
    (self.request effect w).2.bucket = effect w.bucket ∨
      (self.request effect w).1 ≠ none ∧ (self.request effect w).2.bucket = w.bucket := by
  unfold Client.request
  rcases self.fault w.requests with _ | ⟨failure | failure⟩
  · exact Or.inl rfl
  · exact Or.inr ⟨Option.some_ne_none failure, rfl⟩
  · exact Or.inl rfl

@[simp] theorem Client.ask_bucket {α : Type} (self : Client) (answer : Bucket → α) (w : World) :
    (self.ask answer w).2.bucket = w.bucket := by
  unfold Client.ask
  rcases self.fault w.requests with _ | ⟨failure | failure⟩ <;> rfl

theorem Client.eq_of_ask_ok {α : Type} {answer : Bucket → α} {a : α} {w' : World}
    (h : self.ask answer w = (.ok a, w')) : a = answer w.bucket := by
  unfold Client.ask at h
  rcases hfault : self.fault w.requests with _ | ⟨failure | failure⟩
  · rw [hfault] at h
    cases h
    rfl
  · rw [hfault] at h
    cases h
  · rw [hfault] at h
    cases h

/-- Deletions one after the other: only keys of the list are removed. -/
theorem Client.get?_deleteObjects (self : Client) (keys : List Path) (w : World) (key : Path) :
    (self.deleteObjects keys w).2.bucket.get? key = w.bucket.get? key ∨
      key ∈ keys ∧ (self.deleteObjects keys w).2.bucket.get? key = none := by
  induction keys generalizing w with
  | nil => exact Or.inl rfl
  | cons first keys ih =>
      have hfirst : (self.deleteObject first w).2.bucket.get? key = w.bucket.get? key ∨
          key = first ∧ (self.deleteObject first w).2.bucket.get? key = none := by
        rcases self.request_bucket (fun bucket => bucket.pop first) w with h | ⟨-, h⟩
        · unfold Client.deleteObject
          rw [h, PyDict.get?_pop]
          split_ifs with hkey
          · exact Or.inr ⟨hkey, rfl⟩
          · exact Or.inl rfl
        · unfold Client.deleteObject
          exact Or.inl (by rw [h])
      unfold Client.deleteObjects
      rcases hdone : self.deleteObject first w with ⟨_ | failure, w'⟩
      · rw [hdone] at hfirst
        show (self.deleteObjects keys w').2.bucket.get? key = w.bucket.get? key ∨
          key ∈ first :: keys ∧ (self.deleteObjects keys w').2.bucket.get? key = none
        rcases ih w' with h | ⟨hmem, h⟩
        · rw [h]
          rcases hfirst with h' | ⟨rfl, h'⟩
          · exact Or.inl h'
          · exact Or.inr ⟨List.mem_cons_self, h'⟩
        · exact Or.inr ⟨List.mem_cons_of_mem _ hmem, h⟩
      · rw [hdone] at hfirst
        show w'.bucket.get? key = w.bucket.get? key ∨ key ∈ first :: keys ∧ w'.bucket.get? key = none
        rcases hfirst with h | ⟨rfl, h⟩
        · exact Or.inl h
        · exact Or.inr ⟨List.mem_cons_self, h⟩

/-- Without a failure all keys of the list are removed. -/
theorem Client.get?_deleteObjects_of_mem (h : (self.deleteObjects keys w).1 = none)
    (hkey : key ∈ keys) : (self.deleteObjects keys w).2.bucket.get? key = none := by
  induction keys generalizing w with
  | nil => cases hkey
  | cons first keys ih =>
      unfold Client.deleteObjects at h ⊢
      rcases hdone : self.deleteObject first w with ⟨_ | failure, w'⟩
      · rw [hdone] at h
        show (self.deleteObjects keys w').2.bucket.get? key = none
        rcases List.mem_cons.mp hkey with rfl | hmem
        · have hgone : w'.bucket.get? key = none := by
            unfold Client.deleteObject at hdone
            rcases self.request_bucket (fun bucket => bucket.pop key) w with hpop | ⟨hne, -⟩
            · rw [hdone] at hpop
              rw [hpop, PyDict.get?_pop, if_pos rfl]
            · rw [hdone] at hne
              exact absurd rfl hne
          rcases self.get?_deleteObjects keys w' key with h' | ⟨-, h'⟩
          · rw [h', hgone]
          · exact h'
        · exact ih h hmem
      · rw [hdone] at h
        cases h

end Requests

/-! ## One call -/

section Calls

variable {self : S3FileStore} {maxKeys : ℕ} {w : World} {path q : RelPath} {key : Path}

theorem covers_iff : path.parts <+: q.parts ↔ q = path ∨ (path.chars ++ ['/']) <+: q.chars := by
  rw [RelPath.below_iff]
  constructor
  · intro h
    by_cases heq : path.parts = q.parts
    · exact Or.inl (RelPath.parts_injective heq.symm)
    · exact Or.inr ⟨h, heq⟩
  · rintro (rfl | ⟨h, -⟩)
    · exact List.prefix_rfl
    · exact h

theorem sanitized_chars (path : RelPath) : sanitized path.chars = path.chars := by
  have hslash : path.chars ≠ ['/'] := by
    intro h
    have hlast := @RelPath.getLast?_chars path
    rw [h] at hlast
    exact hlast rfl
  have hroot : ¬(path.chars = [] ∨ path.chars = ['/']) := by
    rintro (h | h)
    · exact RelPath.chars_ne_nil h
    · exact hslash h
  unfold sanitized
  dsimp only
  rw [if_neg hroot, if_neg RelPath.getLast?_chars]

theorem mem_keysBelow (hpages : self.client.Pages maxKeys) (bucket : Bucket)
    (hkey : key ∈ self.client.listKeys bucket (path.chars ++ ['/'])) :
    key ∈ keysBelow bucket path := by
  obtain ⟨hmem, hbelow⟩ := hpages.isBelow _ _ key hkey
  exact List.mem_filter.mpr ⟨hmem, decide_eq_true hbelow⟩

theorem nodup_keysBelow (bucket : Bucket) (path : RelPath) : (keysBelow bucket path).Nodup := by
  have hkeys : bucket.keys.Nodup := bucket.nodup
  exact hkeys.filter _

/-- A listing shows all keys below a path when they fit in a page, and only then. -/
theorem forall_listed_iff (hpages : self.client.Pages maxKeys) (bucket : Bucket) :
    (∀ key ∈ keysBelow bucket path, key ∈ self.client.listKeys bucket (path.chars ++ ['/'])) ↔
      (keysBelow bucket path).length ≤ maxKeys := by
  constructor
  · intro h
    exact ((nodup_keysBelow bucket path).subperm h).length_le.trans (hpages.length_le _ _)
  · intro hfits key hkey
    obtain ⟨hmem, hbelow⟩ := List.mem_filter.mp hkey
    exact hpages.complete bucket _ hfits key hmem (of_decide_eq_true hbelow)

/-- The length of a full page. -/
theorem length_listed (hpages : self.client.Pages maxKeys) (hfull : self.client.FillsPages maxKeys)
    (bucket : Bucket) (path : RelPath) :
    (self.client.listKeys bucket (path.chars ++ ['/'])).length
      = min maxKeys (keysBelow bucket path).length := by
  have hlisted : (self.client.listKeys bucket (path.chars ++ ['/'])).length
      ≤ (keysBelow bucket path).length :=
    ((hpages.nodup bucket _).subperm fun key hkey => mem_keysBelow hpages bucket hkey).length_le
  rcases Nat.lt_or_ge maxKeys (keysBelow bucket path).length with hmore | hfits
  · rw [min_eq_left hmore.le]
    exact le_antisymm (hpages.length_le _ _) (hfull bucket _ hmore)
  · rw [min_eq_right hfits]
    exact le_antisymm hlisted ((nodup_keysBelow bucket path).subperm
      ((forall_listed_iff hpages bucket).mpr hfits)).length_le

/-- The keys that a deletion goes through. -/
def deletedKeys (self : S3FileStore) (bucket : Bucket) (path : RelPath) : List Path :=
  self.client.listKeys bucket (path.chars ++ ['/']) ++ [path.chars]

/-- A deletion removes only keys that it goes through. -/
theorem get?_delete (self : S3FileStore) (path : RelPath) (w : World) (key : Path) :
    (self.perform w (.delete path)).2.bucket.get? key = w.bucket.get? key ∨
      key ∈ deletedKeys self w.bucket path ∧
        (self.perform w (.delete path)).2.bucket.get? key = none := by
  have hkeys : (S3FileStore.deleteKeys self path.chars w).2.bucket.get? key = w.bucket.get? key ∨
      key ∈ deletedKeys self w.bucket path ∧
        (S3FileStore.deleteKeys self path.chars w).2.bucket.get? key = none := by
    unfold S3FileStore.deleteKeys
    have hask := self.client.ask_bucket
      (fun bucket => self.client.listKeys bucket (path.chars ++ ['/'])) w
    rcases hlist : self.client.ask (fun bucket => self.client.listKeys bucket (path.chars ++ ['/'])) w
      with ⟨failure | keys, w'⟩
    · rw [hlist] at hask
      exact Or.inl (by rw [hask])
    · rw [hlist] at hask
      have hdeleted : keys ++ [path.chars] = deletedKeys self w.bucket path := by
        rw [Client.eq_of_ask_ok hlist]
        rfl
      dsimp only
      rw [hdeleted, ← show w'.bucket = w.bucket from hask]
      exact self.client.get?_deleteObjects _ w' key
  show (S3FileStore.delete self path.chars w).2.bucket.get? key = _ ∨ _ ∧
    (S3FileStore.delete self path.chars w).2.bucket.get? key = none
  unfold S3FileStore.delete
  dsimp only
  rw [sanitized_chars]
  rcases hdone : S3FileStore.deleteKeys self path.chars w with ⟨_ | failure, w'⟩
  · rw [hdone] at hkeys
    exact hkeys
  · rw [hdone] at hkeys
    exact hkeys

/-- A deletion that returns removes all keys that it goes through. -/
theorem get?_delete_of_mem (h : (self.perform w (.delete path)).1 = none)
    (hkey : key ∈ deletedKeys self w.bucket path) :
    (self.perform w (.delete path)).2.bucket.get? key = none := by
  change (S3FileStore.delete self path.chars w).1 = none at h
  show (S3FileStore.delete self path.chars w).2.bucket.get? key = none
  unfold S3FileStore.delete at h ⊢
  dsimp only at h ⊢
  rw [sanitized_chars] at h ⊢
  have hgone : (S3FileStore.deleteKeys self path.chars w).1 = none →
      (S3FileStore.deleteKeys self path.chars w).2.bucket.get? key = none := by
    unfold S3FileStore.deleteKeys
    rcases hlist : self.client.ask (fun bucket => self.client.listKeys bucket (path.chars ++ ['/'])) w
      with ⟨failure | keys, w'⟩
    · intro hnone
      cases hnone
    · intro hnone
      apply Client.get?_deleteObjects_of_mem hnone
      rw [Client.eq_of_ask_ok hlist]
      exact hkey
  rcases hdone : S3FileStore.deleteKeys self path.chars w with ⟨_ | failure, w'⟩
  · rw [hdone] at hgone
    exact hgone rfl
  · rw [hdone] at h
    cases h

/-- The keys that a deletion goes through are covered by it. -/
theorem prefix_of_mem_deletedKeys (hpages : self.client.Pages maxKeys)
    (hkey : q.chars ∈ deletedKeys self w.bucket path) : path.parts <+: q.parts := by
  rcases List.mem_append.mp hkey with hmem | hmem
  · exact covers_iff.mpr (Or.inr (hpages.isBelow _ _ _ hmem).2)
  · exact covers_iff.mpr (Or.inl (RelPath.chars_injective (List.mem_singleton.mp hmem)))

/-- A finished deletion whose listing had every key below the path leaves no file it covers. -/
theorem filesOf_delete_of_covers (hraised : (self.perform w (.delete path)).1 = none)
    (hlisted : ∀ key ∈ keysBelow w.bucket path,
      key ∈ self.client.listKeys w.bucket (path.chars ++ ['/']))
    (hcovers : path.parts <+: q.parts) :
    filesOf (self.perform w (.delete path)).2.bucket q = none := by
  by_cases hmem : q.chars ∈ deletedKeys self w.bucket path
  · exact get?_delete_of_mem hraised hmem
  · rcases get?_delete self path w q.chars with h | ⟨hmem', -⟩
    · -- the key was not gone through, so it was not in the bucket before either
      show (self.perform w (.delete path)).2.bucket.get? q.chars = none
      rw [h, PyDict.get?_eq_none_iff]
      intro hkey
      apply hmem
      rcases covers_iff.mp hcovers with rfl | hbelow
      · exact List.mem_append_right _ (List.mem_singleton.mpr rfl)
      · exact List.mem_append_left _
          (hlisted _ (List.mem_filter.mpr ⟨hkey, decide_eq_true hbelow⟩))
    · exact absurd hmem' hmem

/-- A deletion leaves the files outside its path as they are. -/
theorem filesOf_delete_of_not_covers (hpages : self.client.Pages maxKeys)
    (hcovers : ¬path.parts <+: q.parts) :
    filesOf (self.perform w (.delete path)).2.bucket q = filesOf w.bucket q := by
  rcases get?_delete self path w q.chars with h | ⟨hmem, -⟩
  · exact h
  · exact absurd (prefix_of_mem_deletedKeys hpages hmem) hcovers

theorem settledStep_delete_iff (hpages : self.client.Pages maxKeys)
    (hpaths : Bucket.HoldsPaths w.bucket) :
    self.SettledStep w (.delete path) ↔ self.FitsPage maxKeys w (.delete path) := by
  have hgone : ∀ q, q.chars ∈ deletedKeys self w.bucket path →
      (filesOf w.bucket).perform (.delete path) q = none :=
    fun q hq => if_pos (prefix_of_mem_deletedKeys hpages hq)
  unfold S3FileStore.SettledStep S3FileStore.step
  show _ ↔ ((self.perform w (.delete path)).1 = none → (keysBelow w.bucket path).length ≤ maxKeys)
  cases hraised : (self.perform w (.delete path)).1 with
  | some raised =>
      -- a deletion that raised may be unfinished
      refine iff_of_true (fun q => ?_) (fun h => absurd h (Option.some_ne_none raised))
      rcases get?_delete self path w q.chars with h | ⟨hmem, h⟩
      · exact Or.inl h
      · exact Or.inr (h.trans (hgone q hmem).symm)
  | none =>
      rw [← forall_listed_iff hpages w.bucket]
      constructor
      · -- a key below the path that was not listed would still be there
        intro hsettled _ key hkey
        obtain ⟨hmem, hbelow⟩ := List.mem_filter.mp hkey
        obtain ⟨q, rfl⟩ := hpaths key hmem
        have hbelow := of_decide_eq_true hbelow
        have hafter : (self.perform w (.delete path)).2.bucket.get? q.chars = none :=
          (congrFun hsettled q).trans (if_pos (covers_iff.mpr (Or.inr hbelow)))
        rcases get?_delete self path w q.chars with h | ⟨hdeleted, -⟩
        · rw [hafter] at h
          exact absurd hmem (PyDict.get?_eq_none_iff.mp h.symm)
        · rcases List.mem_append.mp hdeleted with hlisted | hself
          · exact hlisted
          · have hqp := RelPath.chars_injective (List.mem_singleton.mp hself)
            exact absurd (congrArg RelPath.parts hqp.symm) (RelPath.below_iff.mp hbelow).2
      · intro hlisted
        show filesOf (self.perform w (.delete path)).2.bucket
          = (filesOf w.bucket).perform (.delete path)
        funext q
        by_cases hcovers : path.parts <+: q.parts
        · rw [filesOf_delete_of_covers hraised (hlisted rfl) hcovers]
          exact (if_pos hcovers).symm
        · rw [filesOf_delete_of_not_covers hpages hcovers]
          exact (if_neg hcovers).symm

/-- What a write does with the bucket. -/
theorem write_cases (self : S3FileStore) (w : World) (path : RelPath) (contents : Contents) :
    (self.step w (.write path contents)).bucket = w.bucket.set path.chars contents.toBytes ∨
      (self.perform w (.write path contents)).1 ≠ none ∧
        (self.step w (.write path contents)).bucket = w.bucket := by
  have hput := self.client.request_bucket (fun bucket => bucket.set path.chars contents.toBytes) w
  show (S3FileStore.write self path.chars contents w).2.bucket = _ ∨
    (S3FileStore.write self path.chars contents w).1 ≠ none ∧
      (S3FileStore.write self path.chars contents w).2.bucket = _
  unfold S3FileStore.write Client.putObject
  rcases hdone : self.client.request (fun bucket => bucket.set path.chars contents.toBytes) w with
    ⟨_ | failure, w'⟩
  · rw [hdone] at hput
    rcases hput with h | ⟨hne, -⟩
    · exact Or.inl h
    · exact absurd rfl hne
  · rw [hdone] at hput
    rcases hput with h | ⟨-, h⟩
    · exact Or.inl h
    · exact Or.inr ⟨Option.some_ne_none _, h⟩

theorem settledStep_write (self : S3FileStore) (w : World) (path : RelPath) (contents : Contents) :
    self.SettledStep w (.write path contents) := by
  have hset : filesOf (w.bucket.set path.chars contents.toBytes)
      = (filesOf w.bucket).perform (.write path contents) := by
    funext q
    show (w.bucket.set path.chars contents.toBytes).get? q.chars
      = if q = path then some contents.toBytes else w.bucket.get? q.chars
    rw [PyDict.get?_set]
    by_cases hq : q = path
    · rw [if_pos hq, if_pos (congrArg RelPath.chars hq)]
    · rw [if_neg hq, if_neg fun h => hq (RelPath.chars_injective h)]
  unfold S3FileStore.SettledStep
  rcases write_cases self w path contents with h | ⟨hraised, h⟩
  · rw [h, hset]
    cases (self.perform w (.write path contents)).1 with
    | none => rfl
    | some raised => exact fun q => Or.inr rfl
  · rw [h]
    cases hresult : (self.perform w (.write path contents)).1 with
    | none => exact absurd hresult hraised
    | some raised => exact fun q => Or.inl rfl

/-- The keys stay paths. -/
theorem holdsPaths_step (self : S3FileStore) (w : World) (call : Call)
    (hpaths : Bucket.HoldsPaths w.bucket) : Bucket.HoldsPaths (self.step w call).bucket := by
  intro key hkey
  have hsome : ((self.step w call).bucket.get? key).isSome := PyDict.isSome_get?_iff.mpr hkey
  cases call with
  | delete path =>
      rcases get?_delete self path w key with h | ⟨-, h⟩
      · apply hpaths
        rw [← PyDict.isSome_get?_iff, ← h]
        exact hsome
      · rw [show (self.step w (.delete path)).bucket.get? key = none from h] at hsome
        cases hsome
  | write path contents =>
      by_cases hpath : key = path.chars
      · exact ⟨path, hpath⟩
      · apply hpaths
        rw [← PyDict.isSome_get?_iff]
        rcases write_cases self w path contents with h | ⟨-, h⟩
        · rw [h, PyDict.get?_set, if_neg hpath] at hsome
          exact hsome
        · rw [h] at hsome
          exact hsome

end Calls

/-! ## A bucket with two events -/

/-- A client whose listing returns the first keys in their order. -/
def pagedClient (maxKeys : ℕ) (fault : ℕ → Option Fault) : Client where
  listKeys bucket path :=
    ((bucket.keys.filter fun key => path <+: key).insertionSort (· ≤ ·)).take maxKeys
  fault

theorem pages_pagedClient (maxKeys : ℕ) (fault : ℕ → Option Fault) :
    (pagedClient maxKeys fault).Pages maxKeys where
  nodup bucket path := by
    have hkeys : bucket.keys.Nodup := bucket.nodup
    exact ((List.perm_insertionSort _ _).nodup_iff.mpr (hkeys.filter _)).sublist
      (List.take_sublist _ _)
  isBelow bucket path key hkey := by
    obtain ⟨hmem, hbelow⟩ := List.mem_filter.mp
      ((List.perm_insertionSort _ _).mem_iff.mp (List.mem_of_mem_take hkey))
    exact ⟨hmem, of_decide_eq_true hbelow⟩
  length_le bucket path := List.length_take_le _ _
  complete bucket path hfits key hkey hbelow := by
    show key ∈ List.take _ _
    rw [List.take_of_length_le (by rw [List.length_insertionSort]; exact hfits)]
    exact (List.perm_insertionSort _ _).mem_iff.mpr
      (List.mem_filter.mpr ⟨hkey, decide_eq_true hbelow⟩)

theorem fillsPages_pagedClient (maxKeys : ℕ) (fault : ℕ → Option Fault) :
    (pagedClient maxKeys fault).FillsPages maxKeys := by
  intro bucket path hmore
  show maxKeys ≤ (List.take _ _).length
  rw [List.length_take, List.length_insertionSort]
  exact le_min le_rfl hmore.le

theorem holdsPaths_empty : Bucket.HoldsPaths .empty := by
  intro key hkey
  cases hkey

/-- A conversation of two events. -/
def conversation : RelPath := ⟨[['c']], by decide, by decide⟩

def firstEvent : RelPath := ⟨[['c'], ['0']], by decide, by decide⟩

def secondEvent : RelPath := ⟨[['c'], ['1']], by decide, by decide⟩

/-- A store whose listings have `maxKeys` keys and whose requests do not fail. -/
def plainStore (maxKeys : ℕ) : S3FileStore := ⟨"sessions", pagedClient maxKeys fun _ => none⟩

def twoEvents (maxKeys : ℕ) : World :=
  Run.run (plainStore maxKeys).step {} [.write firstEvent (.bytes .empty),
    .write secondEvent (.bytes .empty)]

theorem holdsPaths_twoEvents (maxKeys : ℕ) : Bucket.HoldsPaths (twoEvents maxKeys).bucket :=
  holdsPaths_step _ _ _ (holdsPaths_step _ _ _ holdsPaths_empty)


/-! ## What is listed -/

/-- An entry of a path: a file of it, or a directory that leads to a file. -/
inductive Child (files : Files) (path : RelPath) : Path → Prop
  | file {q : RelPath} {name : Path} (isFile : (files q).isSome)
      (parts_eq : q.parts = path.parts ++ [name]) : Child files path q.chars
  | directory {q : RelPath} {name : Path} {rest : List Path} (isFile : (files q).isSome)
      (parts_eq : q.parts = path.parts ++ name :: rest) (isBelow : rest ≠ []) :
      Child files path (path.chars ++ '/' :: (name ++ ['/']))

section Listings

variable {self : S3FileStore} {maxKeys : ℕ} {w : World} {path q : RelPath} {name : Path}
  {rest : List Path} {entries : List Path}

theorem listedPath_chars (path : RelPath) : listedPath path.chars = path.chars ++ ['/'] := by
  have hroot : ¬(path.chars = [] ∨ path.chars = ['/']) := by
    rintro (h | h)
    · exact RelPath.chars_ne_nil h
    · have hlast := @RelPath.getLast?_chars path
      rw [h] at hlast
      exact hlast rfl
  unfold listedPath
  rw [if_neg hroot, if_neg RelPath.getLast?_chars]

/-- The first slash is looked for behind the first character of the name, which is no slash. -/
theorem indexFrom_append (hname : name ≠ []) (hslash : '/' ∉ name) (dir : Path) :
    indexFrom (dir ++ name) (dir.length + 1) = none ∧
      ∀ more, indexFrom (dir ++ (name ++ '/' :: more)) (dir.length + 1)
        = some (dir.length + name.length) := by
  obtain ⟨c, cs, rfl⟩ := List.exists_cons_of_ne_nil hname
  have hcs : '/' ∉ cs := fun h => hslash (List.mem_cons_of_mem _ h)
  have hdrop : ∀ more, (dir ++ (c :: cs ++ more)).drop (dir.length + 1) = cs ++ more := by
    intro more
    rw [← List.drop_drop, List.drop_left]
    rfl
  constructor
  · have hfirst := hdrop []
    rw [List.append_nil, List.append_nil] at hfirst
    unfold indexFrom
    rw [hfirst, List.idxOf?_eq_none_iff.mpr hcs]
    rfl
  · intro more
    have hindex : (cs ++ '/' :: more).idxOf? '/' = some cs.length := by
      rw [List.idxOf?_eq_some_iff]
      refine ⟨by simp, by simp, fun j hj => ?_⟩
      rw [List.getElem_append_left hj]
      exact fun h => hcs (h ▸ List.getElem_mem hj)
    unfold indexFrom
    rw [hdrop, hindex]
    show some (dir.length + 1 + cs.length) = some (dir.length + (c :: cs).length)
    rw [List.length_cons, Nat.add_assoc, Nat.add_comm 1]

/-- The key of a file below a path gives the entry that leads to the file. -/
theorem entryOfKey_chars (hparts : q.parts = path.parts ++ name :: rest) :
    entryOfKey (path.chars ++ ['/']) q.chars
      = some (if rest = [] then q.chars else path.chars ++ '/' :: (name ++ ['/'])) := by
  have hvalid := q.valid name (by rw [hparts]; simp)
  have hchars := RelPath.chars_of_parts hparts (List.cons_ne_nil _ _)
  obtain ⟨hlast, hmore⟩ := indexFrom_append hvalid.1 hvalid.2.1 (path.chars ++ ['/'])
  unfold entryOfKey
  by_cases hrest : rest = []
  · subst hrest
    have hkey : q.chars = (path.chars ++ ['/']) ++ name := by
      rw [hchars, List.intercalate_singleton, List.append_assoc, List.singleton_append]
    rw [hkey, hlast, if_pos rfl]
  · obtain ⟨next, rest, rfl⟩ := List.exists_cons_of_ne_nil hrest
    have hkey : q.chars
        = (path.chars ++ ['/']) ++ (name ++ '/' :: ['/'].intercalate (next :: rest)) := by
      rw [hchars, List.intercalate_cons_cons]
      simp
    have hne : (path.chars ++ ['/']).length + name.length ≠ (path.chars ++ ['/']).length := by
      have hpos := List.length_pos_of_ne_nil hvalid.1
      omega
    have htake : q.chars.take ((path.chars ++ ['/']).length + name.length + 1)
        = path.chars ++ '/' :: (name ++ ['/']) := by
      have hstart : q.chars = (path.chars ++ '/' :: (name ++ ['/'])) ++
          ['/'].intercalate (next :: rest) := by
        rw [hkey]
        simp
      rw [hstart]
      apply List.take_left'
      simp
      omega
    rw [hkey, hmore]
    dsimp only
    rw [if_pos hne, if_neg hrest, ← hkey, htake]

/-- A path below another one has a name behind it. -/
theorem exists_parts_of_below (h : (path.chars ++ ['/']) <+: q.chars) :
    ∃ name rest, q.parts = path.parts ++ name :: rest := by
  obtain ⟨⟨more, hmore⟩, hne⟩ := RelPath.below_iff.mp h
  obtain ⟨name, rest, rfl⟩ := List.exists_cons_of_ne_nil (l := more) (by
    rintro rfl
    exact hne (by rw [← hmore, List.append_nil]))
  exact ⟨name, rest, hmore.symm⟩

theorem below_of_parts (h : q.parts = path.parts ++ name :: rest) :
    (path.chars ++ ['/']) <+: q.chars := by
  rw [RelPath.below_iff, h]
  exact ⟨List.prefix_append _ _, fun heq => List.cons_ne_nil _ _ (List.self_eq_append_right.mp heq)⟩

/-- No path is the key of a directory. -/
theorem chars_ne_directory : q.chars ≠ path.chars ++ ['/'] := by
  intro h
  have hlast := @RelPath.getLast?_chars q
  rw [h, List.getLast?_concat] at hlast
  exact hlast rfl

theorem mem_entriesOf {keys : List Path} {entry : Path} {dir : Path} :
    entry ∈ entriesOf dir keys ↔ ∃ key ∈ keys, key ≠ dir ∧ entryOfKey dir key = some entry := by
  unfold entriesOf
  rw [List.mem_dedup, List.mem_filterMap]
  constructor
  · rintro ⟨key, hkey, hentry⟩
    obtain ⟨hmem, hne⟩ := List.mem_filter.mp hkey
    exact ⟨key, hmem, of_decide_eq_true hne, hentry⟩
  · rintro ⟨key, hmem, hne, hentry⟩
    exact ⟨key, List.mem_filter.mpr ⟨hmem, decide_eq_true hne⟩, hentry⟩

theorem list_eq_ok (h : (S3FileStore.list self path.chars w).1 = .ok entries) :
    entries = entriesOf (path.chars ++ ['/'])
      (self.client.listKeys w.bucket (path.chars ++ ['/'])) := by
  unfold S3FileStore.list at h
  dsimp only at h
  rw [listedPath_chars] at h
  rcases hask : self.client.ask (fun bucket => self.client.listKeys bucket (path.chars ++ ['/'])) w
    with ⟨failure | keys, w'⟩
  · rw [hask] at h
    cases h
  · rw [hask] at h
    cases h
    rw [Client.eq_of_ask_ok hask]

/-- In a directory without directories the entries are the keys of the page. -/
theorem entriesOf_of_flat (hpages : self.client.Pages maxKeys)
    (hpaths : Bucket.HoldsPaths w.bucket) (hflat : ∀ q rest name, (filesOf w.bucket q).isSome →
      q.parts = path.parts ++ name :: rest → rest = []) :
    entriesOf (path.chars ++ ['/']) (self.client.listKeys w.bucket (path.chars ++ ['/']))
      = self.client.listKeys w.bucket (path.chars ++ ['/']) := by
  have hkeys : ∀ key ∈ self.client.listKeys w.bucket (path.chars ++ ['/']),
      key ≠ path.chars ++ ['/'] ∧ entryOfKey (path.chars ++ ['/']) key = some key := by
    intro key hkey
    obtain ⟨hmem, hbelow⟩ := hpages.isBelow _ _ key hkey
    obtain ⟨q, rfl⟩ := hpaths key hmem
    obtain ⟨name, rest, hparts⟩ := exists_parts_of_below hbelow
    refine ⟨chars_ne_directory, ?_⟩
    rw [entryOfKey_chars hparts,
      if_pos (hflat q rest name (PyDict.isSome_get?_iff.mpr hmem) hparts)]
  have hfilter : (self.client.listKeys w.bucket (path.chars ++ ['/'])).filter
      (· ≠ path.chars ++ ['/']) = self.client.listKeys w.bucket (path.chars ++ ['/']) :=
    List.filter_eq_self.mpr fun key hkey => decide_eq_true (hkeys key hkey).1
  unfold entriesOf
  rw [hfilter, List.filterMap_congr (g := some) fun key hkey => (hkeys key hkey).2,
    List.filterMap_some, List.Nodup.dedup (hpages.nodup _ _)]

/-- What a listing returns: each entry once, only entries of the path, and all of them when its
keys fit in a page.  In a directory without directories it shows a page of its files, a full one
if pages are full. -/
theorem list_spec (hpages : self.client.Pages maxKeys) (hpaths : Bucket.HoldsPaths w.bucket)
    (h : (S3FileStore.list self path.chars w).1 = .ok entries) :
    entries.Nodup ∧ (∀ entry ∈ entries, Child (filesOf w.bucket) path entry) ∧
      ((keysBelow w.bucket path).length ≤ maxKeys →
        ∀ entry, Child (filesOf w.bucket) path entry → entry ∈ entries) ∧
      (self.client.FillsPages maxKeys → (∀ q rest name, (filesOf w.bucket q).isSome →
          q.parts = path.parts ++ name :: rest → rest = []) →
        entries.length = min maxKeys (keysBelow w.bucket path).length) := by
  rw [list_eq_ok h]
  refine ⟨List.nodup_dedup _, fun entry hentry => ?_, fun hfits entry hchild => ?_,
    fun hfull hflat => ?_⟩
  · obtain ⟨key, hkey, -, hof⟩ := mem_entriesOf.mp hentry
    obtain ⟨hmem, hbelow⟩ := hpages.isBelow _ _ key hkey
    obtain ⟨q, rfl⟩ := hpaths key hmem
    obtain ⟨name, rest, hparts⟩ := exists_parts_of_below hbelow
    have hfile : (filesOf w.bucket q).isSome := PyDict.isSome_get?_iff.mpr hmem
    rw [entryOfKey_chars hparts] at hof
    cases hof
    by_cases hrest : rest = []
    · rw [if_pos hrest]
      exact .file hfile (hrest ▸ hparts)
    · rw [if_neg hrest]
      exact .directory hfile hparts hrest
  · have hlisted : ∀ {q : RelPath} {name rest}, (filesOf w.bucket q).isSome →
        q.parts = path.parts ++ name :: rest →
        q.chars ∈ self.client.listKeys w.bucket (path.chars ++ ['/']) := by
      intro q name rest hfile hparts
      apply (forall_listed_iff hpages w.bucket).mpr hfits
      exact List.mem_filter.mpr ⟨PyDict.isSome_get?_iff.mp hfile,
        decide_eq_true (below_of_parts hparts)⟩
    rw [mem_entriesOf]
    cases hchild with
    | file hfile hparts =>
        exact ⟨_, hlisted hfile hparts, chars_ne_directory, by
          rw [entryOfKey_chars hparts, if_pos rfl]⟩
    | directory hfile hparts hrest =>
        exact ⟨_, hlisted hfile hparts, chars_ne_directory, by
          rw [entryOfKey_chars hparts, if_neg hrest]⟩
  · rw [entriesOf_of_flat hpages hpaths hflat]
    exact length_listed hpages hfull w.bucket path

end Listings

/-- One of two events is listed on a page of one. -/
theorem list_twoEvents : [['c', '/', '0']].Nodup ∧
    (∀ entry ∈ [['c', '/', '0']], Child (filesOf (twoEvents 1).bucket) conversation entry) ∧
    ((keysBelow (twoEvents 1).bucket conversation).length ≤ 1 →
      ∀ entry, Child (filesOf (twoEvents 1).bucket) conversation entry → entry ∈ [['c', '/', '0']]) ∧
    ((plainStore 1).client.FillsPages 1 → (∀ q rest name, (filesOf (twoEvents 1).bucket q).isSome →
        q.parts = conversation.parts ++ name :: rest → rest = []) →
      [['c', '/', '0']].length = min 1 (keysBelow (twoEvents 1).bucket conversation).length) :=
  have hlist : (S3FileStore.list (plainStore 1) conversation.chars (twoEvents 1)).1
      = .ok [['c', '/', '0']] := by decide
  list_spec (pages_pagedClient 1 _) (holdsPaths_twoEvents 1) hlist

/-! ## Runs -/

section Runs

variable {self : S3FileStore} {maxKeys : ℕ} {w : World}

/-- In a run every call leaves the files as a call of a file system does, whatever requests fail,
as long as no deletion that returns finds more keys below its path than a page holds. -/
theorem settledSteps_iff (hpages : self.client.Pages maxKeys) (hpaths : Bucket.HoldsPaths w.bucket)
    (calls : List Call) :
    (∀ s ∈ Run.steps self.step w calls, self.SettledStep s.1 s.2) ↔
      ∀ s ∈ Run.steps self.step w calls, self.FitsPage maxKeys s.1 s.2 := by
  refine Run.forall_steps_iff (I := fun w => Bucket.HoldsPaths w.bucket) (fun w call h => ?_)
    (fun w call h _ => holdsPaths_step self w call h) hpaths
  cases call with
  | write path contents => exact iff_of_true (settledStep_write self w path contents) trivial
  | delete path => exact settledStep_delete_iff hpages h

end Runs

/-- Two events are deleted on a page of two. -/
theorem settledSteps_twoEvents :
    (∀ s ∈ Run.steps (plainStore 2).step (twoEvents 2) [.delete conversation],
        (plainStore 2).SettledStep s.1 s.2) ↔
      ∀ s ∈ Run.steps (plainStore 2).step (twoEvents 2) [.delete conversation],
        (plainStore 2).FitsPage 2 s.1 s.2 :=
  settledSteps_iff (pages_pagedClient 2 _) (holdsPaths_twoEvents 2) _

section Deletions

variable {self : S3FileStore} {maxKeys : ℕ} {w : World}

/-- What is left below its path by a deletion that returns. -/
theorem mem_keysBelow_delete_iff {path : RelPath}
    (h : (self.perform w (.delete path)).1 = none) (key : Path) :
    key ∈ keysBelow (self.step w (.delete path)).bucket path ↔
      key ∈ keysBelow w.bucket path ∧
        key ∉ self.client.listKeys w.bucket (path.chars ++ ['/']) := by
  rw [keysBelow, keysBelow, List.mem_filter, List.mem_filter, ← PyDict.isSome_get?_iff,
    ← PyDict.isSome_get?_iff]
  show ((self.perform w (.delete path)).2.bucket.get? key).isSome = true ∧ _ ↔ _
  rcases get?_delete self path w key with hsame | ⟨hdeleted, hgone⟩
  · rw [hsame]
    refine ⟨fun ⟨hkey, hbelow⟩ => ⟨⟨hkey, hbelow⟩, fun hlisted => ?_⟩, fun hkey => hkey.1⟩
    have hnone := get?_delete_of_mem h (List.mem_append_left _ hlisted)
    rw [hsame] at hnone
    rw [hnone] at hkey
    cases hkey
  · rw [hgone]
    constructor
    · rintro ⟨hkey, -⟩
      cases hkey
    · rintro ⟨⟨-, hbelow⟩, hlisted⟩
      rcases List.mem_append.mp hdeleted with hkey | hkey
      · exact absurd hkey hlisted
      · -- the path itself is not below it
        have hstart := (of_decide_eq_true hbelow).length_le
        rw [List.mem_singleton.mp hkey, List.length_append, List.length_singleton] at hstart
        omega

/-- A deletion that returns removes one page of the keys below its path. -/
theorem length_keysBelow_delete (hpages : self.client.Pages maxKeys)
    (hfull : self.client.FillsPages maxKeys) {path : RelPath}
    (h : (self.perform w (.delete path)).1 = none) :
    (keysBelow (self.step w (.delete path)).bucket path).length
      = (keysBelow w.bucket path).length - maxKeys := by
  have hsplit : (keysBelow w.bucket path).Perm
      (self.client.listKeys w.bucket (path.chars ++ ['/']) ++
        keysBelow (self.step w (.delete path)).bucket path) := by
    have hdisjoint : (self.client.listKeys w.bucket (path.chars ++ ['/'])).Disjoint
        (keysBelow (self.step w (.delete path)).bucket path) :=
      fun key hlisted hkey => ((mem_keysBelow_delete_iff h key).mp hkey).2 hlisted
    rw [List.perm_ext_iff_of_nodup (nodup_keysBelow _ _) (List.nodup_append'.mpr
      ⟨hpages.nodup _ _, nodup_keysBelow _ _, hdisjoint⟩)]
    intro key
    rw [List.mem_append, mem_keysBelow_delete_iff h]
    constructor
    · intro hkey
      by_cases hlisted : key ∈ self.client.listKeys w.bucket (path.chars ++ ['/'])
      · exact Or.inl hlisted
      · exact Or.inr ⟨hkey, hlisted⟩
    · rintro (hlisted | ⟨hkey, -⟩)
      · exact mem_keysBelow hpages w.bucket hlisted
      · exact hkey
  have hlength := hsplit.length_eq
  have hpage := length_listed hpages hfull w.bucket path
  rw [List.length_append] at hlength
  omega

/-- The deletions of a path that return, one after the other: each of them removes one page of
what is left below the path, and nothing outside is touched. -/
theorem length_keysBelow_deletes (hpages : self.client.Pages maxKeys)
    (hfull : self.client.FillsPages maxKeys) (path : RelPath) (k : ℕ)
    (hreturned : ∀ s ∈ Run.steps self.step w (List.replicate k (.delete path)),
      (self.perform s.1 s.2).1 = none) :
    (keysBelow (Run.run self.step w (List.replicate k (.delete path))).bucket path).length
        = (keysBelow w.bucket path).length - k * maxKeys ∧
      ∀ q : RelPath, ¬path.parts <+: q.parts →
        filesOf (Run.run self.step w (List.replicate k (.delete path))).bucket q
          = filesOf w.bucket q := by
  induction k generalizing w with
  | zero => simp
  | succ k ih =>
      rw [List.replicate_succ, Run.steps_cons, List.forall_mem_cons] at hreturned
      rw [List.replicate_succ, Run.run_cons]
      obtain ⟨hlength, hsame⟩ := ih hreturned.2
      constructor
      · rw [hlength, length_keysBelow_delete hpages hfull hreturned.1, Nat.succ_mul, Nat.sub_sub,
          Nat.add_comm]
      · intro q hq
        rw [hsame q hq]
        rcases get?_delete self path w q.chars with h | ⟨hdeleted, -⟩
        · exact h
        · exact absurd (prefix_of_mem_deletedKeys hpages hdeleted) hq

end Deletions

/-- Two deletions remove two events, one page of one key each. -/
theorem deletes_twoEvents :
    (keysBelow (Run.run (plainStore 1).step (twoEvents 1)
        (List.replicate 2 (.delete conversation))).bucket conversation).length
        = (keysBelow (twoEvents 1).bucket conversation).length - 2 * 1 ∧
      ∀ q : RelPath, ¬conversation.parts <+: q.parts →
        filesOf (Run.run (plainStore 1).step (twoEvents 1)
          (List.replicate 2 (.delete conversation))).bucket q = filesOf (twoEvents 1).bucket q :=
  length_keysBelow_deletes (pages_pagedClient 1 _) (fillsPages_pagedClient 1 _) conversation 2
    (by decide)

end OpenHands.Buckets
