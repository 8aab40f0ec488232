/-
# JSON texts

What `json.dumps` writes and `json.loads` reads, character by character.  The texts of
floating point numbers are a parameter: a format writes a number so that the reader takes
it for the same number.
-/
import OpenHands.Lib.PyDict
import OpenHands.Lib.PyJson
import OpenHands.Lib.PyStr

namespace JsonText

/-! ## Numbers -/

/-- `-` or nothing. -/
def scanMinus : List Char → List Char × List Char
  | [] => ([], [])
  | c :: s => if c = '-' then (['-'], s) else ([], c :: s)

/-- `0`, or digits that begin with another one. -/
def scanInt : List Char → Option (List Char × List Char)
  | [] => none
  | c :: s =>
    if c = '0' then some (['0'], s)
    else if c.isDigit then some (c :: s.takeWhile Char.isDigit, s.dropWhile Char.isDigit)
    else none

/-- A point and digits, or nothing. -/
def scanFraction : List Char → List Char × List Char
  | [] => ([], [])
  | c :: s =>
    if c = '.' ∧ s.takeWhile Char.isDigit ≠ [] then
      ('.' :: s.takeWhile Char.isDigit, s.dropWhile Char.isDigit)
    else ([], c :: s)

/-- A sign or nothing. -/
def scanSign : List Char → List Char × List Char
  | [] => ([], [])
  | c :: s => if c = '+' ∨ c = '-' then ([c], s) else ([], c :: s)

/-- `e` with a sign and digits, or nothing. -/
def scanExponent : List Char → List Char × List Char
  | [] => ([], [])
  | c :: s =>
    if (c = 'e' ∨ c = 'E') ∧ (scanSign s).2.takeWhile Char.isDigit ≠ [] then
      (c :: (scanSign s).1 ++ (scanSign s).2.takeWhile Char.isDigit,
        (scanSign s).2.dropWhile Char.isDigit)
    else ([], c :: s)

/-- A number as it stands in a text. -/
structure Numeral where
  minus : List Char
  int : List Char
  fraction : List Char
  exponent : List Char

namespace Numeral

def text (n : Numeral) : List Char := n.minus ++ n.int ++ n.fraction ++ n.exponent

/-- A fraction or an exponent makes a number a floating point number. -/
def isFloat (n : Numeral) : Bool := n.fraction ≠ [] || n.exponent ≠ []

/-- `int(text)` for a number without fraction and exponent. -/
def toInt (n : Numeral) : ℤ :=
  if n.minus = [] then Nat.ofDigitChars 10 n.int 0 else -(Nat.ofDigitChars 10 n.int 0 : ℤ)

end Numeral

/-- The number at the start of a text. -/
def scanNumeral (s : List Char) : Option (Numeral × List Char) :=
  (scanInt (scanMinus s).2).map fun int =>
    (⟨(scanMinus s).1, int.1, (scanFraction int.2).1, (scanExponent (scanFraction int.2).2).1⟩,
      (scanExponent (scanFraction int.2).2).2)

/-- How floating point numbers are written and read: what was read is written as a float
literal, which is read as the same number. -/
structure FloatFormat where
  /-- `repr(x)`. -/
  text : ℚ → List Char
  /-- `float(literal)`. -/
  read : List Char → Option ℚ
  scanNumeral_text : ∀ {literal : List Char} {x : ℚ}, read literal = some x →
    ∃ n : Numeral, n.isFloat ∧ n.text = text x ∧ scanNumeral (text x) = some (n, [])
  read_text : ∀ {literal : List Char} {x : ℚ}, read literal = some x → read (text x) = some x

/-- No number with a point is written or read. -/
def onlyIntegers : FloatFormat where
  text _ := []
  read _ := none
  scanNumeral_text h := by cases h
  read_text h := by cases h

/-- `str(i)`. -/
def intText : ℤ → List Char
  | .ofNat n => Nat.toDigits 10 n
  | .negSucc n => '-' :: Nat.toDigits 10 (n + 1)

/-- A number of a JSON text. -/
def readNumber (F : FloatFormat) (s : List Char) : Option (PyJson × List Char) :=
  (scanNumeral s).bind fun found =>
    if found.1.isFloat then (F.read found.1.text).map fun x => (.float x, found.2)
    else some (.int found.1.toInt, found.2)

/-! ## Strings -/

/-- `\uXXXX`. -/
def unicodeEscape (n : ℕ) : List Char :=
  ['\\', 'u', Nat.digitChar (n / 0x1000 % 0x10), Nat.digitChar (n / 0x100 % 0x10),
    Nat.digitChar (n / 0x10 % 0x10), Nat.digitChar (n % 0x10)]

/-- A character between quotation marks, all of it ASCII. -/
def escape (c : Char) : List Char :=
  if c = '"' then ['\\', '"']
  else if c = '\\' then ['\\', '\\']
  else if c = '\n' then ['\\', 'n']
  else if c = '\r' then ['\\', 'r']
  else if c = '\t' then ['\\', 't']
  else if c = '\x0c' then ['\\', 'f']
  else if c = '\x08' then ['\\', 'b']
  else if 0x20 ≤ c.toNat ∧ c.toNat ≤ 0x7E then [c]
  else if c.toNat < 0x10000 then unicodeEscape c.toNat
  -- a character beyond the basic plane is written as two surrogates
  else unicodeEscape (0xD800 + (c.toNat - 0x10000) / 0x400)
    ++ unicodeEscape (0xDC00 + (c.toNat - 0x10000) % 0x400)

/-- A string between quotation marks. -/
def quote (s : List Char) : List Char := '"' :: s.flatMap escape ++ ['"']

def hexValue (c : Char) : Option ℕ :=
  if c.isDigit then some (c.toNat - '0'.toNat)
  else if 'a' ≤ c ∧ c ≤ 'f' then some (c.toNat - 'a'.toNat + 10)
  else if 'A' ≤ c ∧ c ≤ 'F' then some (c.toNat - 'A'.toNat + 10)
  else none

/-- Four hexadecimal digits. -/
def readHex : List Char → Option (ℕ × List Char)
  | a :: b :: c :: d :: s =>
    match hexValue a, hexValue b, hexValue c, hexValue d with
    | some a, some b, some c, some d => some (0x1000 * a + 0x100 * b + 0x10 * c + d, s)
    | _, _, _, _ => none
  | _ => none

/-- What follows `\u`: one character, or the first of two surrogates. -/
def readUnicode (s : List Char) : Option (Char × List Char) :=
  (readHex s).bind fun high =>
    if 0xD800 ≤ high.1 ∧ high.1 < 0xDC00 then
      if ['\\', 'u'] <+: high.2 then
        (readHex (high.2.drop 2)).bind fun low =>
          if 0xDC00 ≤ low.1 ∧ low.1 < 0xE000 then
            some (Char.ofNat (0x10000 + (high.1 - 0xD800) * 0x400 + (low.1 - 0xDC00)), low.2)
          else none
      else none
    else if 0xDC00 ≤ high.1 ∧ high.1 < 0xE000 then none
    else some (Char.ofNat high.1, high.2)

/-- The character an escape stands for. -/
def unescape (c : Char) : Option Char :=
  if c = '"' then some '"'
  else if c = '\\' then some '\\'
  else if c = '/' then some '/'
  else if c = 'n' then some '\n'
  else if c = 'r' then some '\r'
  else if c = 't' then some '\t'
  else if c = 'f' then some '\x0c'
  else if c = 'b' then some '\x08'
  else none

/-- A character of a string, which control characters cannot be. -/
def readChar : List Char → Option (Char × List Char)
  | [] => none
  | c :: s =>
    if c = '\\' then
      match s with
      | [] => none
      | d :: s => if d = 'u' then readUnicode s else (unescape d).map fun c => (c, s)
    else if c.toNat < 0x20 then none
    else some (c, s)

/-- The characters up to the closing quotation mark. -/
def readChars : ℕ → List Char → Option (List Char × List Char)
  | 0, _ => none
  | _, [] => none
  | fuel + 1, c :: s =>
    if c = '"' then some ([], s)
    else
      (readChar (c :: s)).bind fun first =>
        (readChars fuel first.2).map fun others => (first.1 :: others.1, others.2)

/-- A string after its opening quotation mark. -/
def readString (s : List Char) : Option (String × List Char) :=
  (readChars (s.length + 1) s).map fun found => (String.ofList found.1, found.2)

/-! ## Values -/

/-- Whitespace of JSON. -/
def isSpace (c : Char) : Bool := c = ' ' || c = '\t' || c = '\n' || c = '\r'

def skipSpace (s : List Char) : List Char := s.dropWhile isSpace

mutual

/-- `json.dumps(v)`. -/
def dumps (F : FloatFormat) : PyJson → List Char
  | .null => ['n', 'u', 'l', 'l']
  | .bool true => ['t', 'r', 'u', 'e']
  | .bool false => ['f', 'a', 'l', 's', 'e']
  | .int i => intText i
  | .float x => F.text x
  | .str s => quote s.toList
  | .arr items => '[' :: dumpItems F items ++ [']']
  | .obj entries => '{' :: dumpEntries F entries ++ ['}']

def dumpItems (F : FloatFormat) : List PyJson → List Char
  | [] => []
  | v :: items =>
    dumps F v ++ if items.isEmpty then [] else ',' :: ' ' :: dumpItems F items

def dumpEntries (F : FloatFormat) : List (String × PyJson) → List Char
  | [] => []
  | (k, v) :: entries =>
    quote k.toList ++ ':' :: ' ' :: dumps F v
      ++ if entries.isEmpty then [] else ',' :: ' ' :: dumpEntries F entries

end

/-- `null`, `true` and `false`. -/
def readKeyword (s : List Char) : Option (PyJson × List Char) :=
  if ['n', 'u', 'l', 'l'] <+: s then some (.null, s.drop 4)
  else if ['t', 'r', 'u', 'e'] <+: s then some (.bool true, s.drop 4)
  else if ['f', 'a', 'l', 's', 'e'] <+: s then some (.bool false, s.drop 5)
  else none

mutual

/-- A value at the start of a text. -/
def readValue (F : FloatFormat) : ℕ → List Char → Option (PyJson × List Char)
  | 0, _ => none
  | _, [] => none
  | fuel + 1, c :: s =>
    if c = '"' then (readString s).map fun found => (.str found.1, found.2)
    else if c = '[' then
      if (skipSpace s).head? = some ']' then some (.arr [], (skipSpace s).tail)
      else (readItems F fuel (skipSpace s)).map fun found => (.arr found.1, found.2)
    else if c = '{' then
      if (skipSpace s).head? = some '}' then some (.obj [], (skipSpace s).tail)
      else
        (readEntries F fuel (skipSpace s)).map fun found =>
          -- a key that comes again gets the later value
          (.obj (PyDict.ofEntries found.1).entries, found.2)
    else (readKeyword (c :: s)).or (readNumber F (c :: s))

/-- The values of a list and its closing bracket. -/
def readItems (F : FloatFormat) : ℕ → List Char → Option (List PyJson × List Char)
  | 0, _ => none
  | fuel + 1, s =>
    (readValue F fuel s).bind fun first =>
      if (skipSpace first.2).head? = some ',' then
        (readItems F fuel (skipSpace (skipSpace first.2).tail)).map fun others =>
          (first.1 :: others.1, others.2)
      else if (skipSpace first.2).head? = some ']' then
        some ([first.1], (skipSpace first.2).tail)
      else none

/-- The entries of a dictionary and its closing brace. -/
def readEntries (F : FloatFormat) : ℕ → List Char → Option (List (String × PyJson) × List Char)
  | 0, _ => none
  | fuel + 1, s =>
    if s.head? = some '"' then
      (readString s.tail).bind fun key =>
        if (skipSpace key.2).head? = some ':' then
          (readValue F fuel (skipSpace (skipSpace key.2).tail)).bind fun value =>
            if (skipSpace value.2).head? = some ',' then
              (readEntries F fuel (skipSpace (skipSpace value.2).tail)).map fun others =>
                ((key.1, value.1) :: others.1, others.2)
            else if (skipSpace value.2).head? = some '}' then
              some ([(key.1, value.1)], (skipSpace value.2).tail)
            else none
        else none
    else none

end

/-- `json.loads(s)`: one value, and nothing but whitespace around it. -/
def loads (F : FloatFormat) (s : List Char) : Option PyJson :=
  (readValue F (2 * s.length + 2) (skipSpace s)).bind fun found =>
    if skipSpace found.2 = [] then some found.1 else none

end JsonText
