/-
# Reading back a JSON text

What `dumps` writes, `loads` reads as the same value.  A value that was itself read has
what this takes: dictionaries without a repeated key, and floating point numbers that
the format can write.
-/
import OpenHands.Lib.JsonText

namespace JsonText

/-! ## Numbers -/

/-- No number goes on with this text. -/
def Stops (rest : List Char) : Prop :=
  ∀ c ∈ rest.head?, c.isDigit = false ∧ c ≠ '.' ∧ c ≠ 'e' ∧ c ≠ 'E' ∧ c ≠ '+' ∧ c ≠ '-'

theorem digits_append {rest : List Char} (h : Stops rest) (s : List Char) :
    (s ++ rest).takeWhile Char.isDigit = s.takeWhile Char.isDigit
      ∧ (s ++ rest).dropWhile Char.isDigit = s.dropWhile Char.isDigit ++ rest :=
  PyStr.takeWhile_append_of_head (fun c hc => (h c hc).1) s

theorem scanMinus_append {s rest : List Char} (hs : s ≠ []) :
    scanMinus (s ++ rest) = ((scanMinus s).1, (scanMinus s).2 ++ rest) := by
  obtain ⟨c, s, rfl⟩ := List.exists_cons_of_ne_nil hs
  rw [List.cons_append, scanMinus, scanMinus]
  split_ifs <;> rfl

theorem scanInt_append {s rest : List Char} {int : List Char × List Char}
    (h : scanInt s = some int) (hrest : Stops rest) :
    scanInt (s ++ rest) = some (int.1, int.2 ++ rest) := by
  cases s with
  | nil => exact absurd h (Option.some_ne_none int).symm
  | cons c s =>
    rw [scanInt] at h
    rw [List.cons_append, scanInt, (digits_append hrest s).1, (digits_append hrest s).2]
    split_ifs at h ⊢
    · cases h
      rfl
    · cases h
      rfl

theorem scanFraction_append {rest : List Char} (hrest : Stops rest) (s : List Char) :
    scanFraction (s ++ rest) = ((scanFraction s).1, (scanFraction s).2 ++ rest) := by
  cases s with
  | nil =>
    cases rest with
    | nil => rfl
    | cons c rest =>
      have hc : ¬ (c = '.' ∧ rest.takeWhile Char.isDigit ≠ []) := fun h => (hrest c rfl).2.1 h.1
      change scanFraction (c :: rest) = ([], c :: rest)
      rw [scanFraction, if_neg hc]
  | cons c s =>
    rw [List.cons_append, scanFraction, scanFraction]
    rw [(digits_append hrest s).1, (digits_append hrest s).2]
    split_ifs <;> rfl

theorem scanSign_append {rest : List Char} (hrest : Stops rest) (s : List Char) :
    scanSign (s ++ rest) = ((scanSign s).1, (scanSign s).2 ++ rest) := by
  cases s with
  | nil =>
    cases rest with
    | nil => rfl
    | cons c rest =>
      obtain ⟨-, -, -, -, hplus, hminus⟩ := hrest c rfl
      change scanSign (c :: rest) = ([], c :: rest)
      rw [scanSign, if_neg (not_or.mpr ⟨hplus, hminus⟩)]
  | cons c s =>
    rw [List.cons_append, scanSign, scanSign]
    split_ifs <;> rfl

theorem scanExponent_append {rest : List Char} (hrest : Stops rest) (s : List Char) :
    scanExponent (s ++ rest) = ((scanExponent s).1, (scanExponent s).2 ++ rest) := by
  cases s with
  | nil =>
    cases rest with
    | nil => rfl
    | cons c rest =>
      obtain ⟨-, -, he, hE, -, -⟩ := hrest c rfl
      change scanExponent (c :: rest) = ([], c :: rest)
      rw [scanExponent, if_neg fun h => (not_or.mpr ⟨he, hE⟩) h.1]
  | cons c s =>
    rw [List.cons_append, scanExponent, scanExponent, scanSign_append hrest s]
    simp only [(digits_append hrest (scanSign s).2).1, (digits_append hrest (scanSign s).2).2]
    split_ifs <;> rfl

/-- A number is read in the same way when a text follows that it cannot go on with. -/
theorem scanNumeral_append {s rest : List Char} {n : Numeral} {after : List Char}
    (h : scanNumeral s = some (n, after)) (hrest : Stops rest) :
    scanNumeral (s ++ rest) = some (n, after ++ rest) := by
  obtain ⟨int, hint, hn⟩ := Option.map_eq_some_iff.mp h
  cases hn
  have hs : s ≠ [] := by
    rintro rfl
    exact absurd hint (Option.some_ne_none int).symm
  unfold scanNumeral
  rw [scanMinus_append hs, scanInt_append hint hrest]
  simp only [Option.map_some, scanFraction_append hrest, scanExponent_append hrest]

/-- A number begins with its sign or a digit. -/
theorem head_of_scanNumeral {s after : List Char} {n : Numeral}
    (h : scanNumeral s = some (n, after)) : ∃ c t, s = c :: t ∧ (c = '-' ∨ c.isDigit) := by
  obtain ⟨int, hint, -⟩ := Option.map_eq_some_iff.mp h
  cases s with
  | nil => exact absurd hint (Option.some_ne_none int).symm
  | cons c s =>
    refine ⟨c, s, rfl, ?_⟩
    rw [scanMinus] at hint
    split_ifs at hint with hc
    · exact Or.inl hc
    · rw [scanInt] at hint
      split_ifs at hint with hzero hdigit
      · exact Or.inr (by rw [hzero]; rfl)
      · exact Or.inr hdigit

theorem digitChar_ne_zero : ∀ n < 10, 0 < n → Nat.digitChar n ≠ '0' := by
  decide

/-- Only zero is written with a leading zero. -/
theorem head_toDigits {n : ℕ} (hn : 0 < n) : ∀ c ∈ (Nat.toDigits 10 n).head?, c ≠ '0' := by
  induction n using Nat.strong_induction_on with
  | _ n ih =>
    by_cases hlt : n < 10
    · rw [Nat.toDigits_of_lt_base hlt]
      intro c hc
      cases hc
      exact digitChar_ne_zero n hlt hn
    · rw [Nat.toDigits_of_base_le (by omega) (by omega)]
      rw [List.head?_append_of_ne_nil _ Nat.toDigits_ne_nil]
      exact ih (n / 10) (by omega) (by omega)

theorem scanInt_toDigits (n : ℕ) :
    scanInt (Nat.toDigits 10 n) = some (Nat.toDigits 10 n, []) := by
  by_cases hn : n = 0
  · rw [hn]
    rfl
  · obtain ⟨c, t, ht⟩ := List.exists_cons_of_ne_nil (Nat.toDigits_ne_nil (n := n) (b := 10))
    have hdigit : ∀ d ∈ c :: t, d.isDigit = true := by
      intro d hd
      rw [← ht] at hd
      exact Nat.isDigit_of_mem_toDigits (by omega) (by omega) hd
    have hzero : c ≠ '0' := head_toDigits (Nat.pos_of_ne_zero hn) c (by rw [ht]; rfl)
    rw [ht, scanInt, if_neg hzero, if_pos (hdigit c List.mem_cons_self)]
    have htail : ∀ d ∈ t, d.isDigit = true := fun d hd => hdigit d (List.mem_cons_of_mem c hd)
    rw [List.takeWhile_eq_self_iff.mpr htail, List.dropWhile_eq_nil_iff.mpr htail]

/-- The sign and the digits of an integer. -/
theorem scanNumeral_intText (i : ℤ) :
    ∃ n : Numeral, scanNumeral (intText i) = some (n, []) ∧ n.isFloat = false ∧ n.toInt = i := by
  cases i with
  | ofNat k =>
    obtain ⟨c, t, ht⟩ := List.exists_cons_of_ne_nil (Nat.toDigits_ne_nil (n := k) (b := 10))
    have hc : c ≠ '-' := by
      have hdigit : c.isDigit = true := Nat.isDigit_of_mem_toDigits (b := 10) (n := k)
        (by omega) (by omega) (by rw [ht]; exact List.mem_cons_self)
      rintro rfl
      exact absurd hdigit (by decide)
    have hminus : scanMinus (Nat.toDigits 10 k) = ([], Nat.toDigits 10 k) := by
      rw [ht, scanMinus, if_neg hc]
    refine ⟨⟨[], Nat.toDigits 10 k, [], []⟩, ?_, rfl, ?_⟩
    · unfold scanNumeral intText
      simp only [hminus, scanInt_toDigits]
      rfl
    · unfold Numeral.toInt
      rw [if_pos rfl, Nat.ofDigitChars_ten_toDigits]
      rfl
  | negSucc k =>
    have hminus : scanMinus ('-' :: Nat.toDigits 10 (k + 1))
        = (['-'], Nat.toDigits 10 (k + 1)) := by
      rw [scanMinus, if_pos rfl]
    refine ⟨⟨['-'], Nat.toDigits 10 (k + 1), [], []⟩, ?_, rfl, ?_⟩
    · unfold scanNumeral intText
      simp only [hminus, scanInt_toDigits]
      rfl
    · unfold Numeral.toInt
      rw [if_neg (List.cons_ne_nil _ _), Nat.ofDigitChars_ten_toDigits]
      rfl

theorem readNumber_intText (F : FloatFormat) (i : ℤ) {rest : List Char} (hrest : Stops rest) :
    readNumber F (intText i ++ rest) = some (.int i, rest) := by
  obtain ⟨n, hscan, hfloat, hint⟩ := scanNumeral_intText i
  unfold readNumber
  rw [scanNumeral_append hscan hrest, Option.bind_some]
  simp only [hfloat, hint]
  rfl

theorem readNumber_text (F : FloatFormat) {literal : List Char} {x : ℚ}
    (hread : F.read literal = some x) {rest : List Char} (hrest : Stops rest) :
    readNumber F (F.text x ++ rest) = some (.float x, rest) := by
  obtain ⟨n, hfloat, htext, hscan⟩ := F.scanNumeral_text hread
  unfold readNumber
  rw [scanNumeral_append hscan hrest, Option.bind_some]
  simp only [hfloat, htext, F.read_text hread]
  rfl

/-! ## Strings -/

theorem hexValue_digitChar : ∀ d < 0x10, hexValue (Nat.digitChar d) = some d := by
  decide

theorem readHex_unicodeEscape {n : ℕ} (hn : n < 0x10000) (rest : List Char) :
    readHex ((unicodeEscape n).drop 2 ++ rest) = some (n, rest) := by
  have hdigits : 0x1000 * (n / 0x1000 % 0x10) + 0x100 * (n / 0x100 % 0x10)
      + 0x10 * (n / 0x10 % 0x10) + n % 0x10 = n := by omega
  unfold unicodeEscape readHex
  simp only [List.drop_succ_cons, List.drop_zero, List.cons_append, List.nil_append]
  rw [hexValue_digitChar _ (by omega), hexValue_digitChar _ (by omega)]
  rw [hexValue_digitChar _ (by omega), hexValue_digitChar _ (by omega)]
  simp only [hdigits]

theorem toNat_valid (c : Char) : c.toNat < 0xD800 ∨ (0xDFFF < c.toNat ∧ c.toNat < 0x110000) :=
  c.valid

/-- What is written for a character is read as this character. -/
theorem readChar_escape (c : Char) (rest : List Char) :
    readChar (escape c ++ rest) = some (c, rest) := by
  have hvalid := toNat_valid c
  unfold escape
  split_ifs with h₁ h₂ h₃ h₄ h₅ h₆ h₇ h₈ h₉
  · rw [h₁]; rfl
  · rw [h₂]; rfl
  · rw [h₃]; rfl
  · rw [h₄]; rfl
  · rw [h₅]; rfl
  · rw [h₆]; rfl
  · rw [h₇]; rfl
  · rw [List.singleton_append, readChar.eq_def]
    simp only
    rw [if_neg h₂, if_neg (by omega)]
  · have hread : readUnicode ((unicodeEscape c.toNat).drop 2 ++ rest) = some (c, rest) := by
      unfold readUnicode
      rw [readHex_unicodeEscape h₉, Option.bind_some]
      simp only
      rw [if_neg (by omega), if_neg (by omega), Char.ofNat_toNat]
    exact hread
  · -- the two surrogates carry the upper and the lower ten bits
    have hhigh : 0xD800 + (c.toNat - 0x10000) / 0x400 < 0x10000 := by omega
    have hlow : 0xDC00 + (c.toNat - 0x10000) % 0x400 < 0x10000 := by omega
    have hpoint : 0x10000 + (0xD800 + (c.toNat - 0x10000) / 0x400 - 0xD800) * 0x400
        + (0xDC00 + (c.toNat - 0x10000) % 0x400 - 0xDC00) = c.toNat := by omega
    have hread : readUnicode ((unicodeEscape (0xD800 + (c.toNat - 0x10000) / 0x400)).drop 2
        ++ (unicodeEscape (0xDC00 + (c.toNat - 0x10000) % 0x400) ++ rest)) = some (c, rest) := by
      unfold readUnicode
      rw [readHex_unicodeEscape hhigh, Option.bind_some]
      simp only
      rw [if_pos (by omega), if_pos ⟨_, rfl⟩]
      have hlength : 2 ≤ (unicodeEscape (0xDC00 + (c.toNat - 0x10000) % 0x400)).length :=
        Nat.le_add_left 2 4
      rw [List.drop_append_of_le_length hlength, readHex_unicodeEscape hlow, Option.bind_some]
      simp only
      rw [if_pos (by omega), hpoint, Char.ofNat_toNat]
    rw [List.append_assoc]
    exact hread

theorem head_escape (c : Char) : ∃ d t, escape c = d :: t ∧ d ≠ '"' := by
  unfold escape
  split_ifs with h₁ h₂ h₃ h₄ h₅ h₆ h₇ h₈ h₉
  all_goals first
    | exact ⟨_, _, rfl, by decide⟩
    | exact ⟨_, _, rfl, h₁⟩

theorem readChars_flatMap_escape (rest : List Char) :
    ∀ {s : List Char} {fuel : ℕ}, s.length < fuel →
      readChars fuel (s.flatMap escape ++ '"' :: rest) = some (s, rest)
  | _, 0, h => absurd h (Nat.not_lt_zero _)
  | [], fuel + 1, _ => by
    rw [List.flatMap_nil, List.nil_append, readChars, if_pos rfl]
  | c :: s, fuel + 1, h => by
    obtain ⟨d, t, hescape, hd⟩ := head_escape c
    have hfirst : readChar (d :: (t ++ (s.flatMap escape ++ '"' :: rest)))
        = some (c, s.flatMap escape ++ '"' :: rest) := by
      rw [← List.cons_append, ← hescape]
      exact readChar_escape c _
    rw [List.flatMap_cons, hescape, List.append_assoc, List.cons_append, readChars, if_neg hd]
    rw [hfirst, Option.bind_some]
    simp only
    rw [readChars_flatMap_escape rest (Nat.lt_of_succ_lt_succ h)]
    rfl

theorem length_le_flatMap_escape (s : List Char) : s.length ≤ (s.flatMap escape).length := by
  induction s with
  | nil => exact Nat.zero_le _
  | cons c s ih =>
    obtain ⟨d, t, hescape, -⟩ := head_escape c
    rw [List.flatMap_cons, hescape, List.length_append, List.length_cons, List.length_cons]
    omega

/-- A string between quotation marks is read to its end. -/
theorem readString_flatMap_escape (s : String) (rest : List Char) :
    readString (s.toList.flatMap escape ++ '"' :: rest) = some (s, rest) := by
  have hle := length_le_flatMap_escape s.toList
  unfold readString
  rw [readChars_flatMap_escape rest (by rw [List.length_append]; omega)]
  rw [Option.map_some, String.ofList_toList]

/-! ## Values -/

/-- A value that a JSON text can stand for. -/
inductive Readable (F : FloatFormat) : PyJson → Prop
  | null : Readable F .null
  | bool (b : Bool) : Readable F (.bool b)
  | int (i : ℤ) : Readable F (.int i)
  | float {x : ℚ} {literal : List Char} (h : F.read literal = some x) : Readable F (.float x)
  | str (s : String) : Readable F (.str s)
  | arr {items : List PyJson} (h : ∀ v ∈ items, Readable F v) : Readable F (.arr items)
  | obj {entries : List (String × PyJson)} (hnodup : (entries.map Prod.fst).Nodup)
      (h : ∀ entry ∈ entries, Readable F entry.2) : Readable F (.obj entries)

theorem readKeyword_eq_none {c : Char} {s : List Char} (hn : c ≠ 'n') (ht : c ≠ 't')
    (hf : c ≠ 'f') : readKeyword (c :: s) = none := by
  unfold readKeyword
  rw [if_neg fun h => hn (List.cons_prefix_cons.mp h).1.symm]
  rw [if_neg fun h => ht (List.cons_prefix_cons.mp h).1.symm]
  rw [if_neg fun h => hf (List.cons_prefix_cons.mp h).1.symm]

/-- What begins like a number is read as one. -/
theorem readValue_of_readNumber {F : FloatFormat} {c : Char} {s rest : List Char} {v : PyJson}
    (hc : c = '-' ∨ c.isDigit) (h : readNumber F (c :: s) = some (v, rest)) (fuel : ℕ) :
    readValue F (fuel + 1) (c :: s) = some (v, rest) := by
  have hne : ∀ d : Char, d ≠ '-' → d.isDigit = false → c ≠ d := by
    rintro d hminus hdigit rfl
    rcases hc with hc | hc
    · exact hminus hc
    · rw [hdigit] at hc
      exact Bool.false_ne_true hc
  rw [readValue, if_neg (hne _ (by decide) rfl), if_neg (hne _ (by decide) rfl)]
  rw [if_neg (hne _ (by decide) rfl)]
  rw [readKeyword_eq_none (hne _ (by decide) rfl) (hne _ (by decide) rfl)
    (hne _ (by decide) rfl)]
  rw [Option.none_or, h]

theorem readValue_intText (F : FloatFormat) (i : ℤ) (fuel : ℕ) {rest : List Char}
    (hrest : Stops rest) : readValue F (fuel + 1) (intText i ++ rest) = some (.int i, rest) := by
  obtain ⟨n, hscan, -, -⟩ := scanNumeral_intText i
  obtain ⟨c, t, htext, hc⟩ := head_of_scanNumeral hscan
  have hnumber := readNumber_intText F i hrest
  rw [htext, List.cons_append] at hnumber ⊢
  exact readValue_of_readNumber hc hnumber fuel

theorem readValue_text (F : FloatFormat) {literal : List Char} {x : ℚ}
    (hread : F.read literal = some x) (fuel : ℕ) {rest : List Char} (hrest : Stops rest) :
    readValue F (fuel + 1) (F.text x ++ rest) = some (.float x, rest) := by
  obtain ⟨n, -, -, hscan⟩ := F.scanNumeral_text hread
  obtain ⟨c, t, htext, hc⟩ := head_of_scanNumeral hscan
  have hnumber := readNumber_text F hread hrest
  rw [htext, List.cons_append] at hnumber ⊢
  exact readValue_of_readNumber hc hnumber fuel

/-- A value begins with a visible character that closes no bracket. -/
theorem head_dumps (F : FloatFormat) {v : PyJson} (hv : Readable F v) :
    ∃ c t, dumps F v = c :: t ∧ isSpace c = false ∧ c ≠ ']' ∧ c ≠ '}' := by
  have hnumber : ∀ {s : List Char} {n : Numeral}, scanNumeral s = some (n, []) →
      ∃ c t, s = c :: t ∧ isSpace c = false ∧ c ≠ ']' ∧ c ≠ '}' := by
    intro s n hscan
    obtain ⟨c, t, htext, hc⟩ := head_of_scanNumeral hscan
    refine ⟨c, t, htext, ?_⟩
    rcases hc with rfl | hc
    · decide
    · refine ⟨?_, ?_, ?_⟩
      · unfold isSpace
        simp only [Bool.or_eq_false_iff, decide_eq_false_iff_not]
        refine ⟨⟨⟨?_, ?_⟩, ?_⟩, ?_⟩ <;> (rintro rfl; exact absurd hc (by decide))
      · rintro rfl
        exact absurd hc (by decide)
      · rintro rfl
        exact absurd hc (by decide)
  cases hv with
  | null => exact ⟨_, _, rfl, by decide⟩
  | bool b => cases b <;> exact ⟨_, _, rfl, by decide⟩
  | int i =>
    obtain ⟨n, hscan, -, -⟩ := scanNumeral_intText i
    exact hnumber hscan
  | float hread =>
    obtain ⟨n, -, -, hscan⟩ := F.scanNumeral_text hread
    exact hnumber hscan
  | str s => exact ⟨'"', _, rfl, by decide⟩
  | arr _ => exact ⟨'[', _, by rw [dumps, List.cons_append], by decide⟩
  | obj _ _ => exact ⟨'{', _, by rw [dumps, List.cons_append], by decide⟩

theorem skipSpace_cons {c : Char} (hc : isSpace c = false) (s : List Char) :
    skipSpace (c :: s) = c :: s := by
  unfold skipSpace
  rw [List.dropWhile_cons_of_neg (by rw [hc]; exact Bool.false_ne_true)]

theorem skipSpace_dumps {F : FloatFormat} {v : PyJson} (hv : Readable F v) (rest : List Char) :
    skipSpace (dumps F v ++ rest) = dumps F v ++ rest := by
  obtain ⟨c, t, hdumps, hc, -, -⟩ := head_dumps F hv
  rw [hdumps, List.cons_append, skipSpace_cons hc]

theorem skipSpace_space_cons (s : List Char) : skipSpace (' ' :: s) = skipSpace s := by
  unfold skipSpace
  rw [List.dropWhile_cons_of_pos (by decide)]

theorem stops_nil : Stops [] := fun c hc => absurd hc (Option.not_mem_none c)

theorem stops_cons {c : Char} (hc : c = ',' ∨ c = ']' ∨ c = '}') (s : List Char) :
    Stops (c :: s) := by
  intro d hd
  cases hd
  rcases hc with rfl | rfl | rfl <;> decide

theorem dumpItems_cons_cons (F : FloatFormat) (v w : PyJson) (items : List PyJson) :
    dumpItems F (v :: w :: items) = dumps F v ++ ',' :: ' ' :: dumpItems F (w :: items) := by
  rw [dumpItems]
  rfl

theorem dumpEntries_cons_cons (F : FloatFormat) (k : String) (v : PyJson)
    (entry : String × PyJson) (entries : List (String × PyJson)) :
    dumpEntries F ((k, v) :: entry :: entries)
      = quote k.toList ++ ':' :: ' ' :: dumps F v
        ++ ',' :: ' ' :: dumpEntries F (entry :: entries) := by
  rw [dumpEntries]
  rfl

theorem readValue_quote (F : FloatFormat) (s : String) (fuel : ℕ) (rest : List Char) :
    readValue F (fuel + 1) (quote s.toList ++ rest) = some (.str s, rest) := by
  unfold quote
  rw [List.cons_append, List.cons_append, List.append_assoc, readValue, if_pos rfl]
  rw [List.singleton_append, readString_flatMap_escape]
  rfl

mutual

/-- What is written for a value is read as this value, with two steps for each character. -/
theorem readValue_dumps (F : FloatFormat) : ∀ {v : PyJson}, Readable F v →
    ∀ {fuel : ℕ} {rest : List Char}, 2 * (dumps F v).length < fuel → Stops rest →
      readValue F fuel (dumps F v ++ rest) = some (v, rest)
  | _, _, 0, _, hfuel, _ => absurd hfuel (Nat.not_lt_zero _)
  | .null, _, _ + 1, rest, _, _ => rfl
  | .bool true, _, _ + 1, rest, _, _ => rfl
  | .bool false, _, _ + 1, rest, _, _ => rfl
  | .int i, _, fuel + 1, rest, _, hrest => readValue_intText F i fuel hrest
  | .float x, .float hread, fuel + 1, rest, _, hrest => readValue_text F hread fuel hrest
  | .str s, _, fuel + 1, rest, _, _ => readValue_quote F s fuel rest
  | .arr [], _, fuel + 1, rest, _, _ => rfl
  | .obj [], _, fuel + 1, rest, _, _ => rfl
  | .arr (v :: items), .arr hitems, fuel + 1, rest, hfuel, hrest => by
    rw [dumps, List.length_append, List.length_cons] at hfuel
    have hread : readItems F fuel (dumpItems F (v :: items) ++ ']' :: rest)
        = some (v :: items, rest) :=
      readItems_dumpItems F hitems (List.cons_ne_nil v items) (by omega)
    obtain ⟨c, t, hdumps, hspace, hc, -⟩ := head_dumps F (hitems v List.mem_cons_self)
    have hhead : dumpItems F (v :: items) = c :: (t ++ if items.isEmpty then []
        else ',' :: ' ' :: dumpItems F items) := by
      rw [dumpItems, hdumps]
      rfl
    rw [hhead, List.cons_append] at hread
    rw [dumps, hhead, List.append_assoc, List.cons_append, List.cons_append, readValue]
    rw [if_neg (by decide), if_pos rfl, List.singleton_append, skipSpace_cons hspace]
    rw [if_neg (by rw [List.head?_cons, Option.some.injEq]; exact hc), hread]
    rfl
  | .obj ((k, v) :: entries), .obj hnodup hentries, fuel + 1, rest, hfuel, hrest => by
    rw [dumps, List.length_append, List.length_cons] at hfuel
    have hread : readEntries F fuel (dumpEntries F ((k, v) :: entries) ++ '}' :: rest)
        = some ((k, v) :: entries, rest) :=
      readEntries_dumpEntries F hentries (List.cons_ne_nil (k, v) entries) (by omega)
    have hhead : dumpEntries F ((k, v) :: entries)
        = '"' :: (k.toList.flatMap escape ++ ['"'] ++ ':' :: ' ' :: dumps F v
          ++ if entries.isEmpty then [] else ',' :: ' ' :: dumpEntries F entries) := by
      rw [dumpEntries]
      rfl
    rw [hhead, List.cons_append] at hread
    rw [dumps, hhead, List.append_assoc, List.cons_append, List.cons_append, readValue]
    rw [if_neg (by decide), if_neg (by decide), if_pos rfl, List.singleton_append]
    rw [skipSpace_cons (by decide), List.head?_cons, if_neg (by decide), hread]
    rw [Option.map_some]
    simp only [PyDict.entries_ofEntries hnodup]

/-- The values of a list and its closing bracket. -/
theorem readItems_dumpItems (F : FloatFormat) : ∀ {items : List PyJson},
    (∀ v ∈ items, Readable F v) → items ≠ [] →
      ∀ {fuel : ℕ} {rest : List Char}, 2 * (dumpItems F items).length + 1 < fuel →
        readItems F fuel (dumpItems F items ++ ']' :: rest) = some (items, rest)
  | _, _, _, 0, _, hfuel => absurd hfuel (Nat.not_lt_zero _)
  | [], _, hne, _ + 1, _, _ => absurd rfl hne
  | [v], hitems, _, fuel + 1, rest, hfuel => by
    have hv := hitems v List.mem_cons_self
    have hdumps : dumpItems F [v] = dumps F v := by
      rw [dumpItems]
      exact List.append_nil _
    rw [hdumps] at hfuel ⊢
    rw [readItems, readValue_dumps F hv (by omega) (stops_cons (Or.inr (Or.inl rfl)) rest)]
    rw [Option.bind_some]
    simp only
    rw [skipSpace_cons (by decide), List.head?_cons, if_neg (by decide), if_pos rfl]
    rfl
  | v :: w :: items, hitems, _, fuel + 1, rest, hfuel => by
    have hv := hitems v List.mem_cons_self
    rw [dumpItems_cons_cons, List.length_append, List.length_cons, List.length_cons] at hfuel
    have hread : readItems F fuel (dumpItems F (w :: items) ++ ']' :: rest)
        = some (w :: items, rest) := readItems_dumpItems F
      (fun u hu => hitems u (List.mem_cons_of_mem v hu)) (List.cons_ne_nil w items) (by omega)
    obtain ⟨c, t, hdumps, hspace, -, -⟩ :=
      head_dumps F (hitems w (List.mem_cons_of_mem v List.mem_cons_self))
    have hhead : dumpItems F (w :: items) = c :: (t ++ if items.isEmpty then []
        else ',' :: ' ' :: dumpItems F items) := by
      rw [dumpItems, hdumps]
      rfl
    rw [dumpItems_cons_cons, List.append_assoc, List.cons_append, List.cons_append, readItems]
    rw [readValue_dumps F hv (by omega) (stops_cons (Or.inl rfl) _), Option.bind_some]
    simp only
    rw [skipSpace_cons (by decide), List.head?_cons, if_pos rfl, List.tail_cons,
      skipSpace_space_cons]
    rw [hhead, List.cons_append] at hread ⊢
    rw [skipSpace_cons hspace, hread]
    rfl

/-- The entries of a dictionary and its closing brace. -/
theorem readEntries_dumpEntries (F : FloatFormat) : ∀ {entries : List (String × PyJson)},
    (∀ entry ∈ entries, Readable F entry.2) → entries ≠ [] →
      ∀ {fuel : ℕ} {rest : List Char}, 2 * (dumpEntries F entries).length + 1 < fuel →
        readEntries F fuel (dumpEntries F entries ++ '}' :: rest) = some (entries, rest)
  | _, _, _, 0, _, hfuel => absurd hfuel (Nat.not_lt_zero _)
  | [], _, hne, _ + 1, _, _ => absurd rfl hne
  | [(k, v)], hentries, _, fuel + 1, rest, hfuel => by
    have hv : Readable F v := hentries (k, v) List.mem_cons_self
    have hdumps : dumpEntries F [(k, v)]
        = '"' :: (k.toList.flatMap escape ++ '"' :: ':' :: ' ' :: dumps F v) := by
      rw [dumpEntries]
      simp [quote]
    rw [hdumps, List.length_cons, List.length_append, List.length_cons, List.length_cons,
      List.length_cons] at hfuel
    rw [hdumps, List.cons_append, readEntries, List.head?_cons, if_pos rfl, List.tail_cons]
    rw [List.append_assoc, List.cons_append, readString_flatMap_escape, Option.bind_some]
    simp only [List.cons_append]
    rw [skipSpace_cons (by decide), List.head?_cons, if_pos rfl, List.tail_cons,
      skipSpace_space_cons]
    rw [skipSpace_dumps hv]
    rw [readValue_dumps F hv (by omega) (stops_cons (Or.inr (Or.inr rfl)) rest)]
    rw [Option.bind_some]
    simp only
    rw [skipSpace_cons (by decide), List.head?_cons, if_neg (by decide), if_pos rfl]
    rfl
  | (k, v) :: entry :: entries, hentries, _, fuel + 1, rest, hfuel => by
    have hv : Readable F v := hentries (k, v) List.mem_cons_self
    have hdumps : dumpEntries F ((k, v) :: entry :: entries)
        = '"' :: (k.toList.flatMap escape ++ '"' :: ':' :: ' ' :: (dumps F v
          ++ ',' :: ' ' :: dumpEntries F (entry :: entries))) := by
      rw [dumpEntries_cons_cons]
      simp [quote]
    rw [hdumps, List.length_cons, List.length_append, List.length_cons, List.length_cons,
      List.length_cons, List.length_append, List.length_cons, List.length_cons] at hfuel
    have hread : readEntries F fuel (dumpEntries F (entry :: entries) ++ '}' :: rest)
        = some (entry :: entries, rest) := readEntries_dumpEntries F
      (fun u hu => hentries u (List.mem_cons_of_mem (k, v) hu))
      (List.cons_ne_nil entry entries) (by omega)
    have hhead : ∃ t, dumpEntries F (entry :: entries) = '"' :: t := by
      rw [dumpEntries]
      exact ⟨_, rfl⟩
    obtain ⟨t, ht⟩ := hhead
    rw [hdumps, List.cons_append, readEntries, List.head?_cons, if_pos rfl, List.tail_cons]
    rw [List.append_assoc, List.cons_append, readString_flatMap_escape, Option.bind_some]
    simp only [List.cons_append, List.append_assoc]
    rw [skipSpace_cons (by decide), List.head?_cons, if_pos rfl, List.tail_cons,
      skipSpace_space_cons]
    rw [skipSpace_dumps hv]
    rw [readValue_dumps F hv (by omega) (stops_cons (Or.inl rfl) _), Option.bind_some]
    simp only
    rw [skipSpace_cons (by decide), List.head?_cons, if_pos rfl, List.tail_cons,
      skipSpace_space_cons]
    rw [ht, List.cons_append] at hread ⊢
    rw [skipSpace_cons (by decide), hread]
    rfl

end

/-- What is written for a value is read as this value. -/
theorem loads_dumps (F : FloatFormat) {v : PyJson} (hv : Readable F v) :
    loads F (dumps F v) = some v := by
  have hread : readValue F (2 * (dumps F v).length + 2) (dumps F v ++ []) = some (v, []) :=
    readValue_dumps F hv (by omega) stops_nil
  have hskip := skipSpace_dumps hv []
  rw [List.append_nil] at hread hskip
  unfold loads
  rw [hskip, hread]
  rfl

/-! ## What was read -/

theorem readable_of_readNumber {F : FloatFormat} {s rest : List Char} {v : PyJson}
    (h : readNumber F s = some (v, rest)) : Readable F v := by
  obtain ⟨found, -, h⟩ := Option.bind_eq_some_iff.mp h
  split_ifs at h with hfloat
  · obtain ⟨x, hread, hv⟩ := Option.map_eq_some_iff.mp h
    cases hv
    exact .float hread
  · cases h
    exact .int _

theorem readable_of_readKeyword {F : FloatFormat} {s rest : List Char} {v : PyJson}
    (h : readKeyword s = some (v, rest)) : Readable F v := by
  unfold readKeyword at h
  split_ifs at h
  · cases h
    exact .null
  · cases h
    exact .bool true
  · cases h
    exact .bool false

mutual

/-- A value that was read can be written and read again. -/
theorem readable_of_readValue {F : FloatFormat} : ∀ {fuel : ℕ} {s rest : List Char} {v : PyJson},
    readValue F fuel s = some (v, rest) → Readable F v
  | 0, _, _, _, h => absurd h (Option.some_ne_none _).symm
  | _ + 1, [], _, _, h => absurd h (Option.some_ne_none _).symm
  | fuel + 1, c :: s, rest, v, h => by
    rw [readValue] at h
    split_ifs at h
    · obtain ⟨found, -, hv⟩ := Option.map_eq_some_iff.mp h
      cases hv
      exact .str _
    · cases h
      exact .arr fun v hv => absurd hv List.not_mem_nil
    · obtain ⟨found, hfound, hv⟩ := Option.map_eq_some_iff.mp h
      cases hv
      exact .arr (readable_of_readItems hfound)
    · cases h
      exact .obj List.nodup_nil fun entry hentry => absurd hentry List.not_mem_nil
    · obtain ⟨found, hfound, hv⟩ := Option.map_eq_some_iff.mp h
      cases hv
      exact .obj (PyDict.ofEntries found.1).nodup fun entry hentry =>
        readable_of_readEntries hfound entry (PyDict.mem_of_mem_ofEntries hentry)
    · rcases Option.or_eq_some_iff.mp h with h | ⟨-, h⟩
      · exact readable_of_readKeyword h
      · exact readable_of_readNumber h

theorem readable_of_readItems {F : FloatFormat} : ∀ {fuel : ℕ} {s : List Char}
    {found : List PyJson × List Char}, readItems F fuel s = some found →
      ∀ v ∈ found.1, Readable F v
  | 0, _, _, h => absurd h (Option.some_ne_none _).symm
  | fuel + 1, s, found, h => by
    rw [readItems] at h
    obtain ⟨first, hfirst, h⟩ := Option.bind_eq_some_iff.mp h
    have hv := readable_of_readValue hfirst
    split_ifs at h
    · obtain ⟨others, hothers, hfound⟩ := Option.map_eq_some_iff.mp h
      cases hfound
      intro v hmem
      rcases List.mem_cons.mp hmem with rfl | hmem
      · exact hv
      · exact readable_of_readItems hothers v hmem
    · cases h
      intro v hmem
      rw [List.mem_singleton.mp hmem]
      exact hv

theorem readable_of_readEntries {F : FloatFormat} : ∀ {fuel : ℕ} {s : List Char}
    {found : List (String × PyJson) × List Char}, readEntries F fuel s = some found →
      ∀ entry ∈ found.1, Readable F entry.2
  | 0, _, _, h => absurd h (Option.some_ne_none _).symm
  | fuel + 1, s, found, h => by
    rw [readEntries] at h
    split_ifs at h
    obtain ⟨key, -, h⟩ := Option.bind_eq_some_iff.mp h
    split_ifs at h
    obtain ⟨value, hvalue, h⟩ := Option.bind_eq_some_iff.mp h
    have hv := readable_of_readValue hvalue
    split_ifs at h
    · obtain ⟨others, hothers, hfound⟩ := Option.map_eq_some_iff.mp h
      cases hfound
      intro entry hmem
      rcases List.mem_cons.mp hmem with rfl | hmem
      · exact hv
      · exact readable_of_readEntries hothers entry hmem
    · cases h
      intro entry hmem
      rw [List.mem_singleton.mp hmem]
      exact hv

end

theorem readable_of_loads {F : FloatFormat} {s : List Char} {v : PyJson}
    (h : loads F s = some v) : Readable F v := by
  obtain ⟨found, hfound, h⟩ := Option.bind_eq_some_iff.mp h
  split_ifs at h
  cases h
  exact readable_of_readValue hfound

/-- What was read from one text is read from the text that is written for it. -/
theorem loads_dumps_of_loads {F : FloatFormat} {s : List Char} {v : PyJson}
    (h : loads F s = some v) : loads F (dumps F v) = some v :=
  loads_dumps F (readable_of_loads h)

end JsonText
