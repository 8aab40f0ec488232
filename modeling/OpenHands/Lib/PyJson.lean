/-
# Plain Python data

The values that JSON can carry: what a Python object is made of once enumeration members,
dataclass instances and models have been turned into their values and fields.
-/
import Mathlib.Data.Rat.Defs

/-- `None`, numbers, strings, lists and dictionaries with string keys. -/
inductive PyJson where
  | null
  | bool (b : Bool)
  | int (i : ℤ)
  | float (x : ℚ)
  | str (s : String)
  | arr (items : List PyJson)
  | obj (entries : List (String × PyJson))

namespace PyJson

/-- `None` for an absent value. -/
def ofOption {α : Type*} (f : α → PyJson) : Option α → PyJson
  | some a => f a
  | none => .null

/-- `v is None`. -/
def isNull : PyJson → Bool
  | .null => true
  | _ => false

/-- `True` and `False` are numbers, too. -/
def number? : PyJson → Option ℚ
  | .bool b => some (if b then 1 else 0)
  | .int i => some i
  | .float x => some x
  | _ => none

mutual

/-- `v == w`: numbers of different kinds may be equal, and the order of entries does not
matter. -/
def pyEq : PyJson → PyJson → Bool
  | .null, .null => true
  | .str s, .str t => s = t
  | .arr xs, .arr ys => pyEqItems xs ys
  | .obj xs, .obj ys => xs.length = ys.length && pyEqEntries xs ys
  | v, w =>
    match v.number?, w.number? with
    | some x, some y => x = y
    | _, _ => false

def pyEqItems : List PyJson → List PyJson → Bool
  | [], [] => true
  | x :: xs, y :: ys => pyEq x y && pyEqItems xs ys
  | _, _ => false

/-- The entries have equal values in the other dictionary. -/
def pyEqEntries : List (String × PyJson) → List (String × PyJson) → Bool
  | [], _ => true
  | (k, v) :: xs, ys =>
    (match ys.find? fun entry => entry.1 = k with
      | some entry => pyEq v entry.2
      | none => false) && pyEqEntries xs ys

end

end PyJson
