/-
# File stores

`InMemoryFileStore` (storage/memory.py), a flat dictionary of paths, and `LocalFileStore`
(storage/local.py), a directory tree.  Paths are relative and normal (`RelPath`); a path as a
`str` is the list of its characters.
-/
import Mathlib
import OpenHands.BatchedWebHook
import OpenHands.Lib.FileTree

namespace OpenHands.Stores

open WebHook (Contents)

/-! ## Paths -/

/-- A path as a `str`. -/
abbrev Path := List Char

/-- A relative path: names joined by slashes, none of them empty, `.` or `..`. -/
structure RelPath where
  parts : List Path
  ne_nil : parts ≠ []
  valid : ∀ name ∈ parts, name ≠ [] ∧ '/' ∉ name ∧ name ≠ ['.'] ∧ name ≠ ['.', '.']
  deriving DecidableEq

/-- The path as a `str`. -/
def RelPath.chars (p : RelPath) : Path := ['/'].intercalate p.parts

/-- `os.path.join(a, b)`. -/
def pathJoin (a b : Path) : Path :=
  if b.head? = some '/' then b
  else if a = [] ∨ a.getLast? = some '/' then a ++ b
  else a ++ '/' :: b

/-- What the operations of the stores raise. -/
inductive StoreError
  | unicodeDecodeError
  | fileNotFound (path : Path)
  | indexError
  | os (error : FileTree.FsError)
  deriving DecidableEq, Repr

/-! ## `InMemoryFileStore` -/

/-- `InMemoryFileStore`. -/
structure InMemoryFileStore where
  files : PyDict Path String := .empty

namespace InMemoryFileStore

/-- The text that is stored for contents. -/
def text? : Contents → Option String
  | .str s => some s
  | .bytes b => String.fromUTF8? b

/-- `write`. -/
def write (self : InMemoryFileStore) (path : Path) (contents : Contents) :
    Except StoreError InMemoryFileStore :=
  match text? contents with
  | some text => .ok { files := self.files.set path text }
  | none => .error .unicodeDecodeError

/-- `read`. -/
def read (self : InMemoryFileStore) (path : Path) : Except StoreError String :=
  match self.files.get? path with
  | some text => .ok text
  | none => .error (.fileNotFound path)

/-- The body of the loop of `list`. -/
def listStep (path : Path) (files : List Path) (file : Path) : Except StoreError (List Path) :=
  if path <+: file then
    let suffix := file.drop path.length
    let parts := suffix.splitOn '/'
    let parts := if parts.head? = some [] then parts.tail else parts
    match parts with
    | [] => .error .indexError
    | [_] => .ok (files ++ [file])
    | name :: _ =>
      let dirPath := pathJoin path name
      let dirPath := if dirPath.getLast? = some '/' then dirPath else dirPath ++ ['/']
      .ok (if dirPath ∈ files then files else files ++ [dirPath])
  else .ok files

/-- `list`. -/
def list (self : InMemoryFileStore) (path : Path) : Except StoreError (List Path) :=
  self.files.keys.foldlM (listStep path) []

/-- `delete`. -/
def delete (self : InMemoryFileStore) (path : Path) : InMemoryFileStore :=
  let keysToDelete := self.files.keys.filter fun key => path <+: key
  { files := keysToDelete.foldl PyDict.pop self.files }

end InMemoryFileStore

/-! ## `LocalFileStore` -/

/-- `LocalFileStore`: the tree below its root. -/
structure LocalFileStore where
  tree : FileTree Path ByteArray := .empty

/-- Reading in text mode: every kind of line end becomes `\n`. -/
def universalNewlines : List Char → List Char
  | [] => []
  | '\r' :: '\n' :: rest => '\n' :: universalNewlines rest
  | '\r' :: rest => '\n' :: universalNewlines rest
  | c :: rest => c :: universalNewlines rest

namespace LocalFileStore

/-- `write`. -/
def write (self : LocalFileStore) (path : RelPath) (contents : Contents) :
    Except StoreError LocalFileStore :=
  match FileTree.makedirs self.tree path.parts.dropLast with
  | .error error => .error (.os error)
  | .ok tree =>
    match FileTree.openWrite tree path.parts contents.toBytes with
    | .error error => .error (.os error)
    | .ok tree => .ok { tree }

/-- `read`. -/
def read (self : LocalFileStore) (path : RelPath) : Except StoreError String :=
  match FileTree.node? self.tree path.parts with
  | none => .error (.os .fileNotFound)
  | some .dir => .error (.os .isADirectory)
  | some (.file content) =>
    match String.fromUTF8? content with
    | some text => .ok (String.ofList (universalNewlines text.toList))
    | none => .error .unicodeDecodeError

/-- An entry of a listing; a directory ends with a slash. -/
def entry (self : LocalFileStore) (path : RelPath) (name : Path) : Path :=
  let f := pathJoin path.chars name
  match FileTree.node? self.tree (path.parts ++ [name]) with
  | some .dir => f ++ ['/']
  | _ => f

/-- `list`. -/
def list (self : LocalFileStore) (path : RelPath) : Except StoreError (List Path) :=
  match FileTree.node? self.tree path.parts with
  | none => .error (.os .fileNotFound)
  | some (.file _) => .error (.os .notADirectory)
  | some .dir => .ok ((FileTree.listdir self.tree path.parts).map (self.entry path))

/-- `delete`. -/
def delete (self : LocalFileStore) (path : RelPath) : LocalFileStore :=
  match FileTree.node? self.tree path.parts with
  | none => self
  | some (.file _) => { tree := FileTree.remove self.tree path.parts }
  | some .dir => { tree := FileTree.rmtree self.tree path.parts }

end LocalFileStore

end OpenHands.Stores
