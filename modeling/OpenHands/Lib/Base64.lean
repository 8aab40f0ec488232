/-
# Base64

`base64.b64encode` and the lenient `base64.b64decode` (the reader of `binascii`): characters
outside the alphabet are skipped, padding counts only after the second character of a
group, and what follows complete padding is not read.
-/
import Mathlib.Data.List.GetD
import Mathlib.Data.List.Nodup

namespace Base64

/-- The 64 characters, in the order of their values. -/
def alphabet : List Char :=
  ['A', 'B', 'C', 'D', 'E', 'F', 'G', 'H', 'I', 'J', 'K', 'L', 'M',
   'N', 'O', 'P', 'Q', 'R', 'S', 'T', 'U', 'V', 'W', 'X', 'Y', 'Z',
   'a', 'b', 'c', 'd', 'e', 'f', 'g', 'h', 'i', 'j', 'k', 'l', 'm',
   'n', 'o', 'p', 'q', 'r', 's', 't', 'u', 'v', 'w', 'x', 'y', 'z',
   '0', '1', '2', '3', '4', '5', '6', '7', '8', '9', '+', '/']

/-- The character of a value. -/
def digit (n : ℕ) : Char := alphabet.getD n '='

/-- The value of a character. -/
def value? (c : Char) : Option ℕ :=
  if c ∈ alphabet then some (alphabet.idxOf c) else none

/-- `base64.b64encode(data)`. -/
def encode : List UInt8 → List Char
  | [] => []
  | [a] => [digit (a.toNat / 4), digit (a.toNat % 4 * 16), '=', '=']
  | [a, b] =>
    [digit (a.toNat / 4), digit (a.toNat % 4 * 16 + b.toNat / 16), digit (b.toNat % 16 * 4), '=']
  | a :: b :: c :: rest =>
    digit (a.toNat / 4) :: digit (a.toNat % 4 * 16 + b.toNat / 16)
      :: digit (b.toNat % 16 * 4 + c.toNat / 64) :: digit (c.toNat % 64) :: encode rest

/-- The reader: `quad` characters of the group have been read, `left` holds their bits that
are not yet part of a byte, `pads` counts the padding. -/
def decodeFrom (quad left pads : ℕ) : List Char → Option (List UInt8)
  | [] => if quad = 0 then some [] else none
  | c :: cs =>
    if c = '=' then
      if 2 ≤ quad then
        if 4 ≤ quad + (pads + 1) then some [] else decodeFrom quad left (pads + 1) cs
      else decodeFrom quad left pads cs
    else
      match value? c, quad with
      | none, _ => decodeFrom quad left pads cs
      | some v, 0 => decodeFrom 1 v 0 cs
      | some v, 1 => (decodeFrom 2 (v % 16) 0 cs).map (UInt8.ofNat (left * 4 + v / 16) :: ·)
      | some v, 2 => (decodeFrom 3 (v % 4) 0 cs).map (UInt8.ofNat (left * 16 + v / 4) :: ·)
      | some v, _ => (decodeFrom 0 0 0 cs).map (UInt8.ofNat (left * 64 + v) :: ·)

/-- `base64.b64decode(text)`. -/
def decode (text : List Char) : Option (List UInt8) := decodeFrom 0 0 0 text

/-! ## Digits -/

/-- The value of a character, from its code. -/
def codeValue (c : Char) : ℕ :=
  if 97 ≤ c.toNat then c.toNat - 71
  else if 65 ≤ c.toNat then c.toNat - 65
  else if 48 ≤ c.toNat then c.toNat + 4
  else if c.toNat = 43 then 62
  else 63

theorem nodup_alphabet : alphabet.Nodup := by
  have hcodes : alphabet.map codeValue = List.range 64 := by rfl
  refine List.Nodup.of_map codeValue ?_
  rw [hcodes]
  exact List.nodup_range

theorem digit_mem {n : ℕ} (hn : n < 64) : digit n ∈ alphabet := by
  have hget : digit n = alphabet.get ⟨n, hn⟩ := List.getD_eq_getElem _ _ hn
  rw [hget]
  exact List.get_mem alphabet _

theorem value?_digit {n : ℕ} (hn : n < 64) : value? (digit n) = some n := by
  have hget : digit n = alphabet.get ⟨n, hn⟩ := List.getD_eq_getElem _ _ hn
  rw [value?, if_pos (digit_mem hn), hget]
  exact congrArg some (nodup_alphabet.idxOf_getElem n hn)

theorem digit_ne_pad {n : ℕ} (hn : n < 64) : digit n ≠ '=' := by
  have hpad : '=' ∉ alphabet := by simp [alphabet]
  exact fun h => hpad (h ▸ digit_mem hn)

theorem digit_isAscii {n : ℕ} (hn : n < 64) : (digit n).toNat < 128 := by
  have hall : alphabet.all (fun c => c.toNat < 128) = true := by rfl
  exact of_decide_eq_true (List.all_eq_true.mp hall _ (digit_mem hn))

theorem ofNat_eq {a : UInt8} {n : ℕ} (h : n = a.toNat) : UInt8.ofNat n = a := by
  rw [h, UInt8.ofNat_toNat]

/-! ## Round trip -/

section Group

variable {v left pads : ℕ} {cs : List Char} (hv : v < 64)

include hv

/-- Reading a digit. -/
theorem decodeFrom_digit {quad : ℕ} : decodeFrom quad left pads (digit v :: cs) =
    match quad with
    | 0 => decodeFrom 1 v 0 cs
    | 1 => (decodeFrom 2 (v % 16) 0 cs).map (UInt8.ofNat (left * 4 + v / 16) :: ·)
    | 2 => (decodeFrom 3 (v % 4) 0 cs).map (UInt8.ofNat (left * 16 + v / 4) :: ·)
    | _ => (decodeFrom 0 0 0 cs).map (UInt8.ofNat (left * 64 + v) :: ·) := by
  rw [decodeFrom.eq_def]
  simp only [if_neg (digit_ne_pad hv), value?_digit hv]
  rcases quad with _ | _ | _ | quad <;> rfl

theorem decodeFrom_zero : decodeFrom 0 left pads (digit v :: cs) = decodeFrom 1 v 0 cs :=
  decodeFrom_digit hv

theorem decodeFrom_one : decodeFrom 1 left pads (digit v :: cs)
    = (decodeFrom 2 (v % 16) 0 cs).map (UInt8.ofNat (left * 4 + v / 16) :: ·) :=
  decodeFrom_digit hv

theorem decodeFrom_two : decodeFrom 2 left pads (digit v :: cs)
    = (decodeFrom 3 (v % 4) 0 cs).map (UInt8.ofNat (left * 16 + v / 4) :: ·) :=
  decodeFrom_digit hv

theorem decodeFrom_three : decodeFrom 3 left pads (digit v :: cs)
    = (decodeFrom 0 0 0 cs).map (UInt8.ofNat (left * 64 + v) :: ·) :=
  decodeFrom_digit hv

end Group

/-- **Decoding the encoded bytes gives them back.** -/
theorem decode_encode (data : List UInt8) : decode (encode data) = some data := by
  unfold decode
  induction data using encode.induct with
  | case1 => rfl
  | case2 a =>
      have ha := a.toNat_lt
      rw [encode, decodeFrom_zero (by omega), decodeFrom_one (by omega),
        ofNat_eq (a := a) (by omega)]
      rfl
  | case3 a b =>
      have ha := a.toNat_lt
      have hb := b.toNat_lt
      rw [encode, decodeFrom_zero (by omega), decodeFrom_one (by omega),
        decodeFrom_two (by omega), ofNat_eq (a := a) (by omega), ofNat_eq (a := b) (by omega)]
      rfl
  | case4 a b c rest ih =>
      have ha := a.toNat_lt
      have hb := b.toNat_lt
      have hc := c.toNat_lt
      rw [encode, decodeFrom_zero (by omega), decodeFrom_one (by omega),
        decodeFrom_two (by omega), decodeFrom_three (by omega), ih,
        ofNat_eq (a := a) (by omega), ofNat_eq (a := b) (by omega), ofNat_eq (a := c) (by omega)]
      rfl

/-- The encoded text is ASCII. -/
theorem encode_isAscii (data : List UInt8) : ∀ c ∈ encode data, c.toNat < 128 := by
  have hpad : '='.toNat < 128 := by decide
  induction data using encode.induct with
  | case1 =>
      intro c hc
      exact absurd hc List.not_mem_nil
  | case2 a =>
      have ha := a.toNat_lt
      simp only [encode, List.forall_mem_cons]
      exact ⟨digit_isAscii (by omega), digit_isAscii (by omega), hpad, hpad, by simp⟩
  | case3 a b =>
      have ha := a.toNat_lt
      have hb := b.toNat_lt
      simp only [encode, List.forall_mem_cons]
      exact ⟨digit_isAscii (by omega), digit_isAscii (by omega), digit_isAscii (by omega), hpad,
        by simp⟩
  | case4 a b c rest ih =>
      have ha := a.toNat_lt
      have hb := b.toNat_lt
      have hc := c.toNat_lt
      simp only [encode, List.forall_mem_cons]
      exact ⟨digit_isAscii (by omega), digit_isAscii (by omega), digit_isAscii (by omega),
        digit_isAscii (by omega), ih⟩

end Base64
