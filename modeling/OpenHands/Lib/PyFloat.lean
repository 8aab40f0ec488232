/-
# Floating point numbers of Python

What `float(text)` reads is the nearest number with 53 binary digits; of two that are equally
near, it is the one whose last digit is zero.  The digits of a text are those of ASCII.
-/
import Mathlib.Data.Int.Log
import Mathlib.Data.Rat.Floor
import OpenHands.Lib.PyStr

/-- A number of `float`, up to the sign of zero and infinity. -/
inductive PyFloat
  | finite (x : ℚ)
  | infinite
  | nan

namespace PyFloat

open PyStr

/-! ## Rounding -/

/-- The nearest integer, the even one of two. -/
def roundEven (x : ℚ) : ℤ :=
  if x - ⌊x⌋ < 1 / 2 then ⌊x⌋
  else if 1 / 2 < x - ⌊x⌋ then ⌊x⌋ + 1
  else ⌊x⌋ + ⌊x⌋ % 2

/-- The place of the last of the 53 digits. -/
def lastPlace (x : ℚ) : ℤ := max (Int.log 2 |x| - 52) (-1074)

/-- The number rounded to its last place. -/
def rounded (x : ℚ) : ℚ := roundEven (x / 2 ^ lastPlace x) * 2 ^ lastPlace x

def nearest (x : ℚ) : PyFloat := if |rounded x| < 2 ^ 1024 then finite (rounded x) else infinite

@[simp] theorem roundEven_intCast (n : ℤ) : roundEven n = n := by
  simp [roundEven]

/-- The rounded number is less than a half away, or a half away and even. -/
theorem roundEven_near (x : ℚ) :
    |x - roundEven x| < 1 / 2 ∨ |x - roundEven x| = 1 / 2 ∧ Even (roundEven x) := by
  have hle := Int.floor_le x
  have hlt := Int.lt_floor_add_one x
  unfold roundEven
  split_ifs with hlow hhigh
  · left
    rw [abs_lt]
    constructor <;> linarith
  · left
    push_cast
    rw [abs_lt]
    constructor <;> linarith
  · right
    have hhalf : x - ⌊x⌋ = 1 / 2 := le_antisymm (not_lt.mp hhigh) (not_lt.mp hlow)
    rcases Int.emod_two_eq_zero_or_one ⌊x⌋ with heven | hodd
    · rw [heven, add_zero, hhalf]
      exact ⟨abs_of_pos (by norm_num), Int.even_iff.mpr heven⟩
    · rw [hodd]
      refine ⟨?_, Int.even_iff.mpr (by omega)⟩
      push_cast
      rw [abs_of_neg (by linarith)]
      linarith

/-- There is no other such number. -/
theorem roundEven_eq_of_near {x : ℚ} {n : ℤ}
    (hnear : |x - n| < 1 / 2 ∨ |x - n| = 1 / 2 ∧ Even n) : roundEven x = n := by
  have hle := Int.floor_le x
  have hlt := Int.lt_floor_add_one x
  have heven (hhalf : |x - n| = 1 / 2) : n % 2 = 0 := by
    rcases hnear with h | h
    · exact absurd hhalf h.ne
    · exact Int.even_iff.mp h.2
  have hdist : |x - n| ≤ 1 / 2 := by
    rcases hnear with h | h
    · exact h.le
    · exact h.1.le
  rw [abs_le] at hdist
  -- the number lies in the unit that begins at `n`, or in the one before
  have hfloor : ⌊x⌋ = n ∨ ⌊x⌋ = n - 1 := by
    have h1 : (⌊x⌋ : ℚ) < n + 1 := by linarith
    have h2 : (n : ℚ) - 2 < ⌊x⌋ := by linarith
    have h1' : ⌊x⌋ < n + 1 := by exact_mod_cast h1
    have h2' : n - 2 < ⌊x⌋ := by exact_mod_cast h2
    omega
  unfold roundEven
  rcases hfloor with hfloor | hfloor
  · rw [hfloor]
    split_ifs with hlow hhigh
    · rfl
    · linarith
    · rw [heven (by rw [abs_of_nonneg (by linarith)]; linarith), add_zero]
  · rw [hfloor]
    push_cast
    split_ifs with hlow hhigh
    · linarith
    · omega
    · have hmod := heven (by rw [abs_of_nonpos (by linarith)]; linarith)
      omega

/-- An integer is the rounded number when it is less than a half away, or a half away and
even. -/
theorem roundEven_eq_iff (x : ℚ) (n : ℤ) :
    roundEven x = n ↔ |x - n| < 1 / 2 ∨ |x - n| = 1 / 2 ∧ Even n := by
  constructor
  · rintro rfl
    exact roundEven_near x
  · exact roundEven_eq_of_near

/-- `s` is what `x` is rounded to: a multiple of the last place of `x` that is less than half
of it away, or half of it away and an even multiple. -/
def RoundsTo (x s : ℚ) : Prop :=
  ∃ n : ℤ, s = n * 2 ^ lastPlace x ∧
    (|x - s| < 2 ^ lastPlace x / 2 ∨ |x - s| = 2 ^ lastPlace x / 2 ∧ Even n)

theorem rounded_eq_iff (x s : ℚ) : rounded x = s ↔ RoundsTo x s := by
  unfold rounded RoundsTo
  have hpos : (0 : ℚ) < 2 ^ lastPlace x := zpow_pos two_pos _
  generalize (2 : ℚ) ^ lastPlace x = u at hpos ⊢
  have hscale : ∀ n : ℤ, |x - n * u| = |x / u - n| * u := by
    intro n
    rw [← abs_of_pos hpos, ← abs_mul, abs_of_pos hpos, sub_mul, div_mul_cancel₀ x hpos.ne']
  constructor
  · rintro rfl
    refine ⟨roundEven (x / u), rfl, ?_⟩
    rw [hscale]
    rcases roundEven_near (x / u) with hnear | ⟨hhalf, heven⟩
    · left
      nlinarith
    · right
      rw [hhalf]
      exact ⟨by ring, heven⟩
  · rintro ⟨n, rfl, hnear⟩
    rw [hscale] at hnear
    have hround : roundEven (x / u) = n := by
      rw [roundEven_eq_iff]
      rcases hnear with hnear | ⟨hhalf, heven⟩
      · left
        nlinarith
      · right
        refine ⟨?_, heven⟩
        exact mul_right_cancel₀ hpos.ne' (by rw [hhalf]; ring)
    rw [hround]

/-- The number has at most 53 binary digits up to the last that is not zero. -/
def Representable (n : ℕ) : Prop := 2 ^ (Nat.log 2 n - 52) ∣ n ∧ n < 2 ^ 1024

instance (n : ℕ) : Decidable (Representable n) := inferInstanceAs (Decidable (_ ∧ _))

theorem lastPlace_natCast (n : ℕ) : lastPlace n = (Nat.log 2 n : ℤ) - 52 := by
  unfold lastPlace
  rw [Nat.abs_cast, Int.log_natCast]
  omega

/-- A natural number is rounded to one with fewer digits, or not at all. -/
theorem rounded_natCast (n : ℕ) :
    ∃ m : ℤ, rounded n = m ∧ (m = n ↔ 2 ^ (Nat.log 2 n - 52) ∣ n) := by
  unfold rounded
  rw [lastPlace_natCast]
  by_cases hlog : Nat.log 2 n ≤ 52
  · -- The last place is not above the point.
    have hplace : (Nat.log 2 n : ℤ) - 52 = -((52 - Nat.log 2 n : ℕ) : ℤ) := by omega
    have hzero : Nat.log 2 n - 52 = 0 := by omega
    have hscaled : (n : ℚ) / 2 ^ ((Nat.log 2 n : ℤ) - 52)
        = ((n * 2 ^ (52 - Nat.log 2 n) : ℕ) : ℤ) := by
      rw [hplace, zpow_neg, zpow_natCast, div_inv_eq_mul]
      push_cast
      rfl
    refine ⟨n, ?_, iff_of_true rfl (by rw [hzero]; exact one_dvd n)⟩
    rw [hscaled, roundEven_intCast, ← hscaled]
    exact div_mul_cancel₀ _ (zpow_ne_zero _ two_ne_zero)
  · have hplace : (Nat.log 2 n : ℤ) - 52 = ((Nat.log 2 n - 52 : ℕ) : ℤ) := by omega
    rw [hplace, zpow_natCast]
    generalize Nat.log 2 n - 52 = k
    refine ⟨roundEven ((n : ℚ) / 2 ^ k) * 2 ^ k, by push_cast; rfl, ?_, ?_⟩
    · intro heq
      have hdvd : (2 : ℤ) ^ k ∣ n := ⟨roundEven ((n : ℚ) / 2 ^ k), by rw [← heq, mul_comm]⟩
      exact_mod_cast hdvd
    · rintro ⟨m, rfl⟩
      have hscaled : ((2 ^ k * m : ℕ) : ℚ) / 2 ^ k = ((m : ℤ) : ℚ) := by
        push_cast
        exact mul_div_cancel_left₀ _ (by positivity)
      rw [hscaled, roundEven_intCast]
      push_cast
      exact mul_comm _ _

/-! ## Reading a text -/

/-- Digits, between which underscores may stand. -/
def scanDigits : List Char → List Char × List Char
  | [] => ([], [])
  | [c] => if c.isDigit then ([c], []) else ([], [c])
  | c :: d :: s =>
    if c.isDigit then
      if d = '_' ∧ s.head?.any Char.isDigit then (c :: (scanDigits s).1, (scanDigits s).2)
      else (c :: (scanDigits (d :: s)).1, (scanDigits (d :: s)).2)
    else ([], c :: d :: s)

/-- A point and digits, or nothing. -/
def scanFraction : List Char → List Char × List Char
  | [] => ([], [])
  | c :: s => if c = '.' then scanDigits s else ([], c :: s)

/-- `e` with a sign and digits, or nothing. -/
def scanExponent : List Char → ℤ × List Char
  | [] => (0, [])
  | c :: s =>
    let sign : ℤ := if s.head? = some '-' then -1 else 1
    let digits := scanDigits (if s.head? = some '-' ∨ s.head? = some '+' then s.tail else s)
    if (c = 'e' ∨ c = 'E') ∧ digits.1 ≠ [] then (sign * Nat.ofDigitChars 10 digits.1 0, digits.2)
    else (0, c :: s)

/-- A number without a sign. -/
def readMagnitude (s : List Char) : Option PyFloat :=
  if s.map Char.toLower = "inf".toList ∨ s.map Char.toLower = "infinity".toList then some infinite
  else if s.map Char.toLower = "nan".toList then some nan
  else
    let int := scanDigits s
    let fraction := scanFraction int.2
    let exponent := scanExponent fraction.2
    if int.1 ++ fraction.1 ≠ [] ∧ exponent.2 = [] then
      some (nearest (Nat.ofDigitChars 10 (int.1 ++ fraction.1) 0
        * 10 ^ (exponent.1 - fraction.1.length)))
    else none

/-- `-x`. -/
def neg : PyFloat → PyFloat
  | finite x => finite (-x)
  | infinite => infinite
  | nan => nan

/-- `float(text)`. -/
def ofText (text : List Char) : Option PyFloat :=
  match strip text with
  | [] => none
  | c :: s =>
    if c = '-' then (readMagnitude s).map neg
    else if c = '+' then readMagnitude s
    else readMagnitude (c :: s)

theorem toLower_of_isDigit {c : Char} (h : c.isDigit = true) : c.toLower = c := by
  rw [Char.isDigit, Bool.and_eq_true, decide_eq_true_eq, decide_eq_true_eq] at h
  unfold Char.toLower
  rw [dif_neg]
  rintro ⟨hupper, -⟩
  exact absurd (UInt32.le_trans hupper h.2) (by decide)

theorem scanDigits_of_forall : ∀ {s : List Char}, (∀ c ∈ s, c.isDigit = true) →
    scanDigits s = (s, [])
  | [], _ => rfl
  | [c], h => by rw [scanDigits, if_pos (h c List.mem_cons_self)]
  | c :: d :: s, h => by
    have hd : d ≠ '_' := by
      rintro rfl
      exact absurd (h '_' (by simp)) (by decide)
    rw [scanDigits, if_pos (h c List.mem_cons_self), if_neg fun hunderscore => hd hunderscore.1,
      scanDigits_of_forall fun x hx => h x (List.mem_cons_of_mem c hx)]

/-- The digits of a number are read as the nearest number. -/
theorem ofText_toDigits (n : ℕ) : ofText (Nat.toDigits 10 n) = some (nearest n) := by
  have hdigits : ∀ c ∈ Nat.toDigits 10 n, c.isDigit = true := fun c hc =>
    Nat.isDigit_of_mem_toDigits (by omega) (by omega) hc
  have hmagnitude : readMagnitude (Nat.toDigits 10 n) = some (nearest n) := by
    have hword : ∀ word : List Char, 'n' ∈ word →
        (Nat.toDigits 10 n).map Char.toLower ≠ word := by
      rintro word hn hmap
      rw [← hmap] at hn
      obtain ⟨c, hc, hlower⟩ := List.mem_map.mp hn
      rw [toLower_of_isDigit (hdigits c hc)] at hlower
      rw [hlower] at hc
      exact absurd (hdigits 'n' hc) (by decide)
    unfold readMagnitude
    rw [if_neg (not_or.mpr ⟨hword _ (by decide), hword _ (by decide)⟩),
      if_neg (hword _ (by decide)), scanDigits_of_forall hdigits]
    simp [scanFraction, scanExponent, Nat.toDigits_ne_nil, Nat.ofDigitChars_ten_toDigits]
  unfold ofText
  rw [strip_of_forall fun c hc => isSpace_of_isDigit (hdigits c hc)]
  obtain ⟨c, s, hs⟩ := List.exists_cons_of_ne_nil (Nat.toDigits_ne_nil (n := n) (b := 10))
  have hc : c.isDigit = true := hdigits c (by rw [hs]; exact List.mem_cons_self)
  rw [hs] at hmagnitude ⊢
  have hminus : c ≠ '-' := by
    rintro rfl
    exact absurd hc (by decide)
  have hplus : c ≠ '+' := by
    rintro rfl
    exact absurd hc (by decide)
  simp only [if_neg hminus, if_neg hplus, hmagnitude]

/-! ## Integers -/

/-- `int(x)`, which raises `OverflowError` or `ValueError`. -/
def toInt : PyFloat → Option ℤ
  | finite x => some (if 0 ≤ x then ⌊x⌋ else ⌈x⌉)
  | infinite => none
  | nan => none

@[simp] theorem toInt_intCast (m : ℤ) : (finite m).toInt = some m := by
  simp [toInt]

/-- The integer that is read back is the same exactly when it can be represented. -/
theorem toInt_nearest_iff (n : ℕ) : (nearest n).toInt = some (n : ℤ) ↔ Representable n := by
  obtain ⟨m, hm, hdvd⟩ := rounded_natCast n
  unfold nearest Representable
  rw [hm, ← hdvd]
  by_cases hlt : |(m : ℚ)| < 2 ^ 1024
  · rw [if_pos hlt, toInt_intCast, Option.some.injEq]
    refine ⟨fun h => ⟨h, ?_⟩, And.left⟩
    rw [h, Int.cast_natCast, Nat.abs_cast] at hlt
    exact_mod_cast hlt
  · rw [if_neg hlt]
    refine iff_of_false (Option.some_ne_none _).symm fun h => hlt ?_
    rw [h.1, Int.cast_natCast, Nat.abs_cast]
    exact_mod_cast h.2

end PyFloat
