/-
# Strings that are put into a JSON text as they are

A text may be put together by writing strings between quotation marks without escaping them.  A
string without quotation marks, backslashes and control characters is read as it is.  Instead of
any other string a different one is read, and for the string to come once more, under the same
key, the text is too short.
-/
import Mathlib
import OpenHands.Lib.JsonText

namespace JsonText

/-- The string stands for itself between quotation marks. -/
def Verbatim (s : List Char) : Prop := ∀ c ∈ s, c ≠ '"' ∧ c ≠ '\\' ∧ 0x20 ≤ c.toNat

instance (s : List Char) : Decidable (Verbatim s) := List.decidableBAll _ s

/-! ## Reading a string -/

theorem readChars_of_verbatim (rest : List Char) :
    ∀ {s : List Char} {fuel : ℕ}, Verbatim s → s.length < fuel →
      readChars fuel (s ++ '"' :: rest) = some (s, rest)
  | _, 0, _, h => absurd h (Nat.not_lt_zero _)
  | [], fuel + 1, _, _ => by rw [List.nil_append, readChars, if_pos rfl]
  | c :: s, fuel + 1, hs, h => by
    obtain ⟨hquote, hbackslash, hcontrol⟩ := hs c List.mem_cons_self
    have hfirst : readChar (c :: (s ++ '"' :: rest)) = some (c, s ++ '"' :: rest) := by
      rw [readChar.eq_def]
      simp only
      rw [if_neg hbackslash, if_neg (Nat.not_lt.mpr hcontrol)]
    rw [List.cons_append, readChars, if_neg hquote, hfirst, Option.bind_some,
      readChars_of_verbatim rest (fun d hd => hs d (List.mem_cons_of_mem c hd))
        (Nat.lt_of_succ_lt_succ h)]
    rfl

theorem readString_of_verbatim {s : List Char} (hs : Verbatim s) (rest : List Char) :
    readString (s ++ '"' :: rest) = some (String.ofList s, rest) := by
  unfold readString
  rw [readChars_of_verbatim rest hs (by rw [List.length_append]; omega)]
  rfl

theorem le_toNat_of_hexValue {c : Char} {n : ℕ} (h : hexValue c = some n) : 0x20 ≤ c.toNat := by
  unfold hexValue at h
  split_ifs at h with hdigit hlower hupper
  · rw [Char.isDigit, Bool.and_eq_true, decide_eq_true_eq] at hdigit
    exact le_trans (by decide) (UInt32.le_iff_toNat_le.mp hdigit.1)
  · exact le_trans (by decide) (UInt32.le_iff_toNat_le.mp hlower.1)
  · exact le_trans (by decide) (UInt32.le_iff_toNat_le.mp hupper.1)

/-- Four characters are taken, and none is a control character. -/
theorem split_of_readHex {s rest : List Char} {n : ℕ} (h : readHex s = some (n, rest)) :
    ∃ digits, s = digits ++ rest ∧ digits.length = 4 ∧ ∀ c ∈ digits, 0x20 ≤ c.toNat := by
  unfold readHex at h
  split at h
  · rename_i a b c d s
    split at h
    · rename_i x y z w hx hy hz hw
      cases h
      refine ⟨[a, b, c, d], rfl, rfl, ?_⟩
      intro e he
      simp only [List.mem_cons, List.not_mem_nil, or_false] at he
      rcases he with rfl | rfl | rfl | rfl
      · exact le_toNat_of_hexValue hx
      · exact le_toNat_of_hexValue hy
      · exact le_toNat_of_hexValue hz
      · exact le_toNat_of_hexValue hw
    · cases h
  · cases h

theorem split_of_readUnicode {s rest : List Char} {x : Char} (h : readUnicode s = some (x, rest)) :
    ∃ digits, s = digits ++ rest ∧ ∀ c ∈ digits, 0x20 ≤ c.toNat := by
  obtain ⟨⟨high, after⟩, hhigh, h⟩ := Option.bind_eq_some_iff.mp h
  obtain ⟨digits, hs, -, hdigits⟩ := split_of_readHex hhigh
  simp only at h
  split at h
  · obtain ⟨hescape, h⟩ := Option.ite_none_right_eq_some.mp h
    obtain ⟨⟨low, last⟩, hlow, h⟩ := Option.bind_eq_some_iff.mp h
    obtain ⟨others, hothers, -, hcontrol⟩ := split_of_readHex hlow
    obtain ⟨-, h⟩ := Option.ite_none_right_eq_some.mp h
    obtain rfl : last = rest := congrArg Prod.snd (Option.some.inj h)
    obtain ⟨t, ht⟩ := hescape
    rw [← ht] at hothers
    have hstart : ∀ c ∈ ['\\', 'u'], 0x20 ≤ c.toNat := by simp
    refine ⟨digits ++ (['\\', 'u'] ++ others), ?_, ?_⟩
    · rw [hs, ← ht, List.append_assoc, List.append_assoc]
      congr 2
    · intro c hc
      rcases List.mem_append.mp hc with hc | hc
      · exact hdigits c hc
      · rcases List.mem_append.mp hc with hc | hc
        · exact hstart c hc
        · exact hcontrol c hc
  · obtain ⟨-, h⟩ := Option.ite_none_left_eq_some.mp h
    obtain rfl : after = rest := congrArg Prod.snd (Option.some.inj h)
    exact ⟨digits, hs, hdigits⟩

/-- One character is read from one that stands for itself, or from several. -/
theorem split_of_readChar {s rest : List Char} {x : Char} (h : readChar s = some (x, rest)) :
    ∃ taken, s = taken ++ rest ∧ taken ≠ [] ∧ (∀ c ∈ taken, 0x20 ≤ c.toNat) ∧
      (taken.length ≤ 1 → taken = [x] ∧ x ≠ '\\') := by
  cases s with
  | nil => cases h
  | cons c s =>
    rw [readChar.eq_def] at h
    simp only at h
    split_ifs at h with hc hcontrol
    · cases s with
      | nil => cases h
      | cons d s =>
        simp only at h
        split_ifs at h with hd
        · obtain ⟨digits, rfl, hdigits⟩ := split_of_readUnicode h
          refine ⟨c :: d :: digits, rfl, List.cons_ne_nil _ _, ?_, ?_⟩
          · intro e he
            rcases List.mem_cons.mp he with rfl | he
            · rw [hc]
              decide
            · rcases List.mem_cons.mp he with rfl | he
              · rw [hd]
                decide
              · exact hdigits e he
          · intro hlength
            rw [List.length_cons, List.length_cons] at hlength
            omega
        · obtain ⟨y, hy, hpair⟩ := Option.map_eq_some_iff.mp h
          cases hpair
          refine ⟨[c, d], rfl, List.cons_ne_nil _ _, ?_,
            fun hlength => absurd hlength (Nat.not_succ_le_self 1)⟩
          intro e he
          rcases List.mem_cons.mp he with rfl | he
          · rw [hc]
            decide
          · rw [List.mem_singleton.mp he]
            unfold unescape at hy
            split_ifs at hy with he he he he he he he he
            all_goals
              rw [he]
              decide
    · cases h
      refine ⟨[x], rfl, List.cons_ne_nil _ _, ?_, fun _ => ⟨rfl, hc⟩⟩
      intro e he
      rw [List.mem_singleton.mp he]
      exact Nat.not_lt.mp hcontrol

/-- A string is read from a text that is at least as long, and stands for itself where it is not
longer. -/
theorem split_of_readChars : ∀ {fuel : ℕ} {s str rest : List Char},
    readChars fuel s = some (str, rest) →
      ∃ content, s = content ++ '"' :: rest ∧ (∀ c ∈ content, 0x20 ≤ c.toNat) ∧
        str.length ≤ content.length ∧
        (content.length ≤ str.length → content = str ∧ Verbatim content)
  | 0, _, _, _, h => by cases h
  | _ + 1, [], _, _, h => by cases h
  | fuel + 1, c :: s, str, rest, h => by
    rw [readChars] at h
    split_ifs at h with hc
    · cases h
      exact ⟨[], congrArg (· :: s) hc, fun e he => absurd he List.not_mem_nil, le_refl _,
        fun _ => ⟨rfl, fun e he => absurd he List.not_mem_nil⟩⟩
    · obtain ⟨⟨x, after⟩, hfirst, h⟩ := Option.bind_eq_some_iff.mp h
      obtain ⟨⟨others, last⟩, hothers, hpair⟩ := Option.map_eq_some_iff.mp h
      cases hpair
      obtain ⟨taken, htaken, hne, hcontrol, hone⟩ := split_of_readChar hfirst
      obtain ⟨content, hcontent, hcontrols, hle, hsame⟩ := split_of_readChars hothers
      simp only at hcontent hle hsame ⊢
      have hpos := List.length_pos_of_ne_nil hne
      refine ⟨taken ++ content, ?_, ?_, ?_, ?_⟩
      · rw [htaken, hcontent, List.append_assoc]
      · intro e he
        rcases List.mem_append.mp he with he | he
        · exact hcontrol e he
        · exact hcontrols e he
      · rw [List.length_append, List.length_cons]
        omega
      · rw [List.length_append, List.length_cons]
        intro hlength
        obtain ⟨hx, hbackslash⟩ := hone (by omega)
        obtain ⟨hsame, hverbatim⟩ := hsame (by omega)
        rw [hx, List.singleton_append] at htaken
        cases htaken
        rw [hx, hsame]
        refine ⟨rfl, ?_⟩
        intro e he
        rcases List.mem_cons.mp he with rfl | he
        · exact ⟨hc, hbackslash, hcontrol e (by rw [hx]; exact List.mem_cons_self)⟩
        · rw [← hsame] at he
          exact hverbatim e he

theorem length_readString {s rest : List Char} {str : String}
    (h : readString s = some (str, rest)) : str.toList.length + 1 + rest.length ≤ s.length := by
  obtain ⟨⟨found, after⟩, hfound, hpair⟩ := Option.map_eq_some_iff.mp h
  cases hpair
  obtain ⟨content, hcontent, -, hle, -⟩ := split_of_readChars hfound
  rw [hcontent, List.length_append, List.length_cons, String.toList_ofList]
  simp only
  omega

/-- No string goes on with this text up to a quotation mark. -/
def Broken (t : List Char) : Prop :=
  ∃ before c after, t = before ++ c :: after ∧ '"' ∉ before ∧ c.toNat < 0x20

/-- A string that is read as it stands in the text stands for itself. -/
theorem verbatim_of_readString {s t rest : List Char} (ht : Broken t)
    (h : readString (s ++ '"' :: t) = some (String.ofList s, rest)) : Verbatim s := by
  obtain ⟨⟨found, last⟩, hfound, hpair⟩ := Option.map_eq_some_iff.mp h
  have hstr : found = s := String.ofList_injective (congrArg Prod.fst hpair)
  obtain ⟨content, hcontent, hcontrol, hle, hsame⟩ := split_of_readChars hfound
  rw [hstr] at hle hsame
  rcases List.append_eq_append_iff.mp hcontent with ⟨more, hmore, hrest⟩ | ⟨more, hmore, -⟩
  · cases more with
    | nil =>
      rw [List.append_nil] at hmore
      rw [← hmore]
      exact (hsame (by rw [hmore])).2
    | cons d more =>
      -- the string goes on behind its quotation mark
      obtain ⟨before, c, after, rfl, hbefore, hc⟩ := ht
      rw [List.cons_append] at hrest
      obtain ⟨-, hrest⟩ := List.cons.inj hrest
      rcases List.append_eq_append_iff.mp hrest with ⟨a, ha, hb⟩ | ⟨a, ha, hb⟩
      · cases a with
        | nil =>
          rw [List.nil_append] at hb
          rw [(List.cons.inj hb).1] at hc
          exact absurd hc (by decide)
        | cons e a =>
          rw [(List.cons.inj hb).1] at hc
          refine absurd (hcontrol e ?_) (Nat.not_le.mpr hc)
          rw [hmore, ha]
          simp
      · cases a with
        | nil =>
          rw [List.nil_append] at hb
          rw [← (List.cons.inj hb).1] at hc
          exact absurd hc (by decide)
        | cons e a =>
          refine absurd ?_ hbefore
          rw [ha, (List.cons.inj hb).1]
          simp
  · have hnil : more = [] := by
      rw [hmore, List.length_append] at hle
      exact List.eq_nil_of_length_eq_zero (by omega)
    rw [hnil, List.append_nil] at hmore
    rw [hmore]
    exact (hsame (by rw [hmore])).2

/-! ## What is left -/

theorem suffix_skipSpace (s : List Char) : skipSpace s <:+ s := List.dropWhile_suffix _

theorem suffix_scanNumeral {s rest : List Char} {n : Numeral}
    (h : scanNumeral s = some (n, rest)) : rest <:+ s := by
  have hdrop : ∀ (c : Char) (s : List Char), s.dropWhile Char.isDigit <:+ c :: s := fun c s =>
    (List.dropWhile_suffix _).trans (List.suffix_cons c s)
  have hminus : ∀ s, (scanMinus s).2 <:+ s := by
    intro s
    cases s with
    | nil => exact List.suffix_rfl
    | cons c s =>
      rw [scanMinus]
      split_ifs
      · exact List.suffix_cons c s
      · exact List.suffix_rfl
  have hint : ∀ {s int}, scanInt s = some int → int.2 <:+ s := by
    intro s int h
    cases s with
    | nil => cases h
    | cons c s =>
      rw [scanInt] at h
      split_ifs at h
      · cases h
        exact List.suffix_cons c s
      · cases h
        exact hdrop c s
  have hfraction : ∀ s, (scanFraction s).2 <:+ s := by
    intro s
    cases s with
    | nil => exact List.suffix_rfl
    | cons c s =>
      rw [scanFraction]
      split_ifs
      · exact hdrop c s
      · exact List.suffix_rfl
  have hsign : ∀ s, (scanSign s).2 <:+ s := by
    intro s
    cases s with
    | nil => exact List.suffix_rfl
    | cons c s =>
      rw [scanSign]
      split_ifs
      · exact List.suffix_cons c s
      · exact List.suffix_rfl
  have hexponent : ∀ s, (scanExponent s).2 <:+ s := by
    intro s
    cases s with
    | nil => exact List.suffix_rfl
    | cons c s =>
      rw [scanExponent]
      split_ifs
      · exact ((List.dropWhile_suffix _).trans (hsign s)).trans (List.suffix_cons c s)
      · exact List.suffix_rfl
  obtain ⟨int, hfound, hpair⟩ := Option.map_eq_some_iff.mp h
  cases hpair
  exact ((hexponent _).trans (hfraction _)).trans ((hint hfound).trans (hminus s))

theorem suffix_readString {s rest : List Char} {str : String}
    (h : readString s = some (str, rest)) : rest <:+ s := by
  obtain ⟨⟨found, after⟩, hfound, hpair⟩ := Option.map_eq_some_iff.mp h
  cases hpair
  obtain ⟨content, hcontent, -⟩ := split_of_readChars hfound
  rw [hcontent]
  exact (List.suffix_cons '"' _).trans (List.suffix_append content _)

theorem suffix_of_head? {s : List Char} {c : Char} (h : s.head? = some c) : c :: s.tail <:+ s := by
  cases s with
  | nil => cases h
  | cons d s =>
    cases h
    exact List.suffix_rfl

mutual

theorem suffix_readValue {F : FloatFormat} : ∀ {fuel : ℕ} {s rest : List Char} {v : PyJson},
    readValue F fuel s = some (v, rest) → rest <:+ s
  | 0, _, _, _, h => by cases h
  | _ + 1, [], _, _, h => by cases h
  | fuel + 1, c :: s, rest, v, h => by
    have hspace : skipSpace s <:+ c :: s := (suffix_skipSpace s).trans (List.suffix_cons c s)
    have htail : (skipSpace s).tail <:+ c :: s := (List.tail_suffix _).trans hspace
    rw [readValue] at h
    split_ifs at h
    · obtain ⟨found, hfound, hpair⟩ := Option.map_eq_some_iff.mp h
      cases hpair
      exact (suffix_readString hfound).trans (List.suffix_cons c s)
    · cases h
      exact htail
    · obtain ⟨found, hfound, hpair⟩ := Option.map_eq_some_iff.mp h
      cases hpair
      exact (suffix_readItems hfound).trans hspace
    · cases h
      exact htail
    · obtain ⟨found, hfound, hpair⟩ := Option.map_eq_some_iff.mp h
      cases hpair
      exact ((List.suffix_cons _ _).trans (suffix_readEntries hfound)).trans hspace
    · rcases Option.or_eq_some_iff.mp h with h | ⟨-, h⟩
      · unfold readKeyword at h
        split_ifs at h
        all_goals
          cases h
          exact List.drop_suffix _ _
      · obtain ⟨⟨n, after⟩, hscan, h⟩ := Option.bind_eq_some_iff.mp h
        simp only at h
        split_ifs at h
        · obtain ⟨x, -, hpair⟩ := Option.map_eq_some_iff.mp h
          cases hpair
          exact suffix_scanNumeral hscan
        · cases h
          exact suffix_scanNumeral hscan

theorem suffix_readItems {F : FloatFormat} : ∀ {fuel : ℕ} {s : List Char}
    {found : List PyJson × List Char}, readItems F fuel s = some found → found.2 <:+ s
  | 0, _, _, h => by cases h
  | fuel + 1, s, found, h => by
    rw [readItems] at h
    obtain ⟨first, hfirst, h⟩ := Option.bind_eq_some_iff.mp h
    have htail : (skipSpace first.2).tail <:+ s :=
      ((List.tail_suffix _).trans (suffix_skipSpace _)).trans (suffix_readValue hfirst)
    split_ifs at h
    · obtain ⟨others, hothers, hpair⟩ := Option.map_eq_some_iff.mp h
      cases hpair
      exact ((suffix_readItems hothers).trans (suffix_skipSpace _)).trans htail
    · cases h
      exact htail

/-- The closing brace and what stands behind it. -/
theorem suffix_readEntries {F : FloatFormat} : ∀ {fuel : ℕ} {s : List Char}
    {found : List (String × PyJson) × List Char}, readEntries F fuel s = some found →
      '}' :: found.2 <:+ s
  | 0, _, _, h => by cases h
  | fuel + 1, s, found, h => by
    rw [readEntries] at h
    obtain ⟨-, h⟩ := Option.ite_none_right_eq_some.mp h
    obtain ⟨key, hkey, h⟩ := Option.bind_eq_some_iff.mp h
    obtain ⟨-, h⟩ := Option.ite_none_right_eq_some.mp h
    obtain ⟨value, hvalue, h⟩ := Option.bind_eq_some_iff.mp h
    have hkeySuffix : skipSpace key.2 <:+ s :=
      (suffix_skipSpace _).trans ((suffix_readString hkey).trans (List.tail_suffix s))
    have hvalueSuffix : skipSpace value.2 <:+ s :=
      ((suffix_skipSpace _).trans (suffix_readValue hvalue)).trans
        (((suffix_skipSpace _).trans (List.tail_suffix _)).trans hkeySuffix)
    split_ifs at h with hcomma hbrace
    · obtain ⟨others, hothers, hpair⟩ := Option.map_eq_some_iff.mp h
      cases hpair
      exact ((suffix_readEntries hothers).trans (suffix_skipSpace _)).trans
        ((List.tail_suffix _).trans hvalueSuffix)
    · cases h
      exact (suffix_of_head? hbrace).trans hvalueSuffix

end

/-! ## How much is read -/

/-- The shortest text of a string; nothing is said of other values. -/
def valueSize : PyJson → ℕ
  | .str s => s.toList.length + 2
  | _ => 0

/-- The shortest text of an entry and the comma or brace behind it. -/
def entrySize (entry : String × PyJson) : ℕ := entry.1.toList.length + valueSize entry.2 + 4

theorem length_readValue {F : FloatFormat} {fuel : ℕ} {s rest : List Char} {v : PyJson}
    (h : readValue F fuel s = some (v, rest)) : rest.length + valueSize v ≤ s.length := by
  have hle := (suffix_readValue h).length_le
  cases v with
  | str str =>
    cases fuel with
    | zero => cases h
    | succ fuel =>
      cases s with
      | nil => cases h
      | cons c s =>
        rw [readValue] at h
        split_ifs at h
        · obtain ⟨found, hfound, hpair⟩ := Option.map_eq_some_iff.mp h
          cases hpair
          have hlength := length_readString hfound
          rw [valueSize, List.length_cons]
          omega
        · cases h
        · obtain ⟨found, -, hpair⟩ := Option.map_eq_some_iff.mp h
          cases hpair
        · cases h
        · obtain ⟨found, -, hpair⟩ := Option.map_eq_some_iff.mp h
          cases hpair
        · rcases Option.or_eq_some_iff.mp h with h | ⟨-, h⟩
          · unfold readKeyword at h
            split_ifs at h <;> cases h
          · obtain ⟨found, -, h⟩ := Option.bind_eq_some_iff.mp h
            split_ifs at h
            · obtain ⟨x, -, hpair⟩ := Option.map_eq_some_iff.mp h
              cases hpair
            · cases h
  | null => exact hle
  | bool b => exact hle
  | int i => exact hle
  | float x => exact hle
  | arr items => exact hle
  | obj entries => exact hle

/-- What is left, and what the entries take at least. -/
theorem length_readEntries {F : FloatFormat} {fuel : ℕ} {s : List Char}
    {found : List (String × PyJson) × List Char} (h : readEntries F fuel s = some found) :
    found.2.length + (found.1.map entrySize).sum ≤ s.length := by
  have hnonempty : ∀ {t : List Char} {c : Char}, (skipSpace t).head? = some c →
      (skipSpace t).tail.length + 1 ≤ t.length := fun ht =>
    ((suffix_of_head? ht).trans (suffix_skipSpace _)).length_le
  induction fuel generalizing s found with
  | zero => cases h
  | succ fuel ih =>
    rw [readEntries] at h
    obtain ⟨hquote, h⟩ := Option.ite_none_right_eq_some.mp h
    obtain ⟨key, hkey, h⟩ := Option.bind_eq_some_iff.mp h
    obtain ⟨hcolon, h⟩ := Option.ite_none_right_eq_some.mp h
    obtain ⟨value, hvalue, h⟩ := Option.bind_eq_some_iff.mp h
    have hstart : s.tail.length + 1 ≤ s.length := (suffix_of_head? hquote).length_le
    have hkeyLength := length_readString hkey
    have hcolonLength := hnonempty hcolon
    have hskip := (suffix_skipSpace (skipSpace key.2).tail).length_le
    have hvalueLength := length_readValue hvalue
    split_ifs at h with hcomma hbrace
    · obtain ⟨others, hothers, hpair⟩ := Option.map_eq_some_iff.mp h
      cases hpair
      have hothersLength := ih hothers
      have hcommaLength := hnonempty hcomma
      have hbehind := (suffix_skipSpace (skipSpace value.2).tail).length_le
      simp only [List.map_cons, List.sum_cons, entrySize]
      omega
    · cases h
      have hbraceLength := hnonempty hbrace
      simp only [List.map_cons, List.map_nil, List.sum_cons, List.sum_nil, entrySize]
      omega

/-! ## Strings between entries -/

/-- What stands behind a string: further entries, each on a line of its own, and the closing
brace. -/
def spliced : List (List Char × List Char) → List Char
  | [] => ['\n', '}']
  | (k, v) :: entries =>
    ',' :: '\n' :: ' ' :: ' ' :: '"' ::
      (k ++ '"' :: ':' :: ' ' :: '"' :: (v ++ '"' :: spliced entries))

/-- An entry with a string, as it is read. -/
def stringEntry (entry : List Char × List Char) : String × PyJson :=
  (String.ofList entry.1, .str (String.ofList entry.2))

section

variable (F : FloatFormat)

/-- An entry with a string is read, and then what stands behind it. -/
theorem readEntries_string {k : List Char} (hk : Verbatim k) (s : List Char) (fuel : ℕ) :
    readEntries F (fuel + 2) ('"' :: (k ++ '"' :: ':' :: ' ' :: '"' :: s)) =
      (readString s).bind fun value =>
        if (skipSpace value.2).head? = some ',' then
          (readEntries F (fuel + 1) (skipSpace (skipSpace value.2).tail)).map fun others =>
            ((String.ofList k, .str value.1) :: others.1, others.2)
        else if (skipSpace value.2).head? = some '}' then
          some ([(String.ofList k, .str value.1)], (skipSpace value.2).tail)
        else none := by
  have hquote : skipSpace (' ' :: '"' :: s) = '"' :: s := rfl
  have hcolon : skipSpace (':' :: ' ' :: '"' :: s) = ':' :: ' ' :: '"' :: s := rfl
  rw [readEntries, List.head?_cons, if_pos rfl, List.tail_cons, readString_of_verbatim hk,
    Option.bind_some]
  simp only [hcolon]
  rw [List.head?_cons, if_pos rfl, List.tail_cons, hquote, readValue, if_pos rfl]
  cases readString s <;> rfl

/-- Strings that stand for themselves are read. -/
theorem readEntries_spliced (rest : List Char) : ∀ {entries : List (List Char × List Char)}
    {fuel : ℕ}, entries ≠ [] → entries.length < fuel →
      (∀ entry ∈ entries, Verbatim entry.1 ∧ Verbatim entry.2) →
      readEntries F fuel ((spliced entries).drop 4 ++ rest)
        = some (entries.map stringEntry, rest)
  | _, 0, _, h, _ => absurd h (Nat.not_lt_zero _)
  | [], _, hne, _, _ => absurd rfl hne
  | (k, v) :: entries, 1, _, h, _ => absurd h (by simp)
  | (k, v) :: entries, fuel + 2, _, h, hplain => by
    obtain ⟨hk, hv⟩ := hplain (k, v) List.mem_cons_self
    have htext : (spliced ((k, v) :: entries)).drop 4 ++ rest
        = '"' :: (k ++ '"' :: ':' :: ' ' :: '"' :: (v ++ '"' :: (spliced entries ++ rest))) := by
      simp [spliced]
    rw [htext, readEntries_string F hk, readString_of_verbatim hv, Option.bind_some]
    cases entries with
    | nil => rfl
    | cons entry entries =>
      have hread := readEntries_spliced rest (List.cons_ne_nil entry entries)
        (Nat.lt_of_succ_lt_succ h) fun e he => hplain e (List.mem_cons_of_mem _ he)
      have hcomma : skipSpace (spliced (entry :: entries) ++ rest)
          = spliced (entry :: entries) ++ rest := rfl
      have hnext : skipSpace (spliced (entry :: entries) ++ rest).tail
          = (spliced (entry :: entries)).drop 4 ++ rest := rfl
      simp only [hcomma, hnext, hread]
      rfl

end

/-! ## Strings that do not stand for themselves -/

theorem broken_spliced (entries : List (List Char × List Char)) (rest : List Char) :
    Broken (spliced entries ++ rest) := by
  cases entries with
  | nil => exact ⟨[], '\n', '}' :: rest, rfl, List.not_mem_nil, by decide⟩
  | cons entry entries => exact ⟨[','], '\n', _, rfl, by decide, by decide⟩

/-- The shortest text of an entry with a string. -/
def spliceSize (entry : List Char × List Char) : ℕ := entry.1.length + entry.2.length + 6

theorem length_spliced (entries : List (List Char × List Char)) :
    (spliced entries).length
      = (entries.map spliceSize).sum + 4 * entries.length + 2 := by
  induction entries with
  | nil => rfl
  | cons entry entries ih =>
    simp only [spliced, List.length_cons, List.length_append, ih, List.map_cons, List.sum_cons,
      spliceSize]
    omega

theorem stringEntry_injective : Function.Injective stringEntry := by
  intro entry other h
  obtain ⟨hkey, hvalue⟩ := Prod.mk.inj h
  exact Prod.ext (String.ofList_injective hkey) (String.ofList_injective (PyJson.str.inj hvalue))

theorem map_fst_stringEntry (entries : List (List Char × List Char)) :
    (entries.map stringEntry).map Prod.fst = (entries.map Prod.fst).map String.ofList := by
  rw [List.map_map, List.map_map]
  rfl

theorem nodup_stringEntry {entries : List (List Char × List Char)}
    (h : (entries.map Prod.fst).Nodup) : ((entries.map stringEntry).map Prod.fst).Nodup := by
  rw [map_fst_stringEntry]
  exact h.map fun _ _ => String.ofList_injective

/-- The string of a key is its value. -/
theorem get?_stringEntry {entries : List (List Char × List Char)}
    (hnodup : (entries.map Prod.fst).Nodup) {k v : List Char} (h : (k, v) ∈ entries) :
    (PyDict.ofEntries (entries.map stringEntry)).get? (String.ofList k)
      = some (.str (String.ofList v)) := by
  rw [PyDict.get?_eq_some_iff, PyDict.entries_ofEntries (nodup_stringEntry hnodup)]
  exact List.mem_map_of_mem h

/-- Different entries take the room of each. -/
theorem sum_spliceSize_le {entries : List (List Char × List Char)}
    {found : List (String × PyJson)} (hnodup : entries.Nodup)
    (h : ∀ entry ∈ entries, stringEntry entry ∈ found) :
    (entries.map spliceSize).sum ≤ (found.map entrySize).sum := by
  have hsub : (entries.map stringEntry).Subperm found :=
    (hnodup.map stringEntry_injective).subperm fun e he => by
      obtain ⟨entry, hentry, rfl⟩ := List.mem_map.mp he
      exact h entry hentry
  obtain ⟨kept, hperm, hkept⟩ := hsub
  have hsize : entries.map spliceSize = (entries.map stringEntry).map entrySize := by
    rw [List.map_map]
    refine List.map_congr_left fun entry _ => ?_
    simp only [Function.comp_apply, stringEntry, entrySize, valueSize, String.toList_ofList,
      spliceSize]
    omega
  rw [hsize, ← (hperm.map entrySize).sum_eq]
  exact (hkept.map entrySize).sum_le_sum fun _ _ => Nat.zero_le _

section

variable (known : List Char → Prop)

/-- Where a string may not stand for itself, its value and those behind it are known, and the
whitespace behind it leaves no room for its entry to be written twice. -/
def Tight : List (List Char × List Char) → Prop
  | [] => True
  | (k, v) :: entries =>
    (Verbatim v ∨
      4 * entries.length < k.length + 5 ∧ ∀ entry ∈ (k, v) :: entries, known entry.1) ∧
        Tight entries

variable {known}

/-- When each known string is the value of its key, every string stands for itself. -/
theorem verbatim_of_readEntries {F : FloatFormat} (rest : List Char) :
    ∀ {entries : List (List Char × List Char)} {fuel : ℕ}
      {found : List (String × PyJson) × List Char}, entries.length < fuel → Tight known entries →
      (entries.map Prod.fst).Nodup → (∀ entry ∈ entries, Verbatim entry.1) →
      readEntries F fuel ((spliced entries).drop 4 ++ rest) = some found →
      rest.length ≤ found.2.length →
      (∀ entry ∈ entries, known entry.1 → (PyDict.ofEntries found.1).get? (String.ofList entry.1)
        = some (.str (String.ofList entry.2))) →
      ∀ entry ∈ entries, Verbatim entry.2
  | _, 0, _, h, _, _, _, _, _, _ => absurd h (Nat.not_lt_zero _)
  | [], _, _, _, _, _, _, _, _, _ => fun _ h => absurd h List.not_mem_nil
  | (k, v) :: entries, 1, _, h, _, _, _, _, _, _ => absurd h (by simp)
  | (k, v) :: entries, fuel + 2, found, h, htight, hnodup, hkeys, hread, hrest, hvalues => by
    obtain ⟨hroom, htight⟩ := htight
    have hk : k ∉ entries.map Prod.fst := (List.nodup_cons.mp hnodup).1
    have hnodupOthers : (entries.map Prod.fst).Nodup := (List.nodup_cons.mp hnodup).2
    have htext : (spliced ((k, v) :: entries)).drop 4 ++ rest
        = '"' :: (k ++ '"' :: ':' :: ' ' :: '"' :: (v ++ '"' :: (spliced entries ++ rest))) := by
      simp [spliced]
    rw [htext, readEntries_string F (hkeys (k, v) List.mem_cons_self)] at hread
    obtain ⟨⟨str, after⟩, hstr, hread⟩ := Option.bind_eq_some_iff.mp hread
    by_cases hv : Verbatim v
    · rw [readString_of_verbatim hv] at hstr
      cases hstr
      intro entry hentry
      rcases List.mem_cons.mp hentry with rfl | hentry
      · exact hv
      · cases entries with
        | nil => cases hentry
        | cons next entries =>
          have hcomma : skipSpace (spliced (next :: entries) ++ rest)
              = spliced (next :: entries) ++ rest := rfl
          have hnext : skipSpace (spliced (next :: entries) ++ rest).tail
              = (spliced (next :: entries)).drop 4 ++ rest := rfl
          have hhead : (spliced (next :: entries) ++ rest).head? = some ',' := rfl
          simp only [hcomma, hnext] at hread
          rw [if_pos hhead] at hread
          obtain ⟨others, hothers, hpair⟩ := Option.map_eq_some_iff.mp hread
          cases hpair
          refine verbatim_of_readEntries rest (Nat.lt_of_succ_lt_succ h) htight hnodupOthers
            (fun e he => hkeys e (List.mem_cons_of_mem _ he)) hothers hrest ?_ entry hentry
          intro e he hknown
          have hne : e.1 ≠ k := by
            rintro rfl
            exact hk (List.mem_map_of_mem he)
          have hget := hvalues e (List.mem_cons_of_mem _ he) hknown
          rwa [PyDict.get?_ofEntries_cons_of_ne
            (fun heq => hne (String.ofList_injective heq))] at hget
    · -- The value must come once more, and the text is too short for that.
      exfalso
      have hsame : str ≠ String.ofList v := by
        rintro rfl
        exact hv (verbatim_of_readString (broken_spliced entries rest) hstr)
      obtain ⟨hroom, hknown⟩ := hroom.resolve_left hv
      have hlength := length_readString hstr
      have hother : stringEntry (k, v) ≠ (String.ofList k, .str str) := fun heq =>
        hsame (PyJson.str.inj (Prod.mk.inj heq).2).symm
      have hmem : ∀ entry ∈ (k, v) :: entries, stringEntry entry ∈ found.1 := fun entry hentry =>
        PyDict.mem_of_mem_ofEntries
          (PyDict.mem_entries_of_get? (hvalues entry hentry (hknown entry hentry)))
      simp only at hread
      split_ifs at hread with hcomma hbrace
      · obtain ⟨others, hothers, hpair⟩ := Option.map_eq_some_iff.mp hread
        cases hpair
        have hagain : ∀ entry ∈ (k, v) :: entries, stringEntry entry ∈ others.1 := by
          intro entry hentry
          rcases List.mem_cons.mp (hmem entry hentry) with heq | hmem
          · rcases List.mem_cons.mp hentry with rfl | hentry
            · exact absurd heq hother
            · have hkey : entry.1 = k := String.ofList_injective (Prod.mk.inj heq).1
              rw [← hkey] at hk
              exact absurd (List.mem_map_of_mem hentry) hk
          · exact hmem
        have hsize := sum_spliceSize_le (List.Nodup.of_map Prod.fst hnodup) hagain
        have htaken := length_readEntries hothers
        have hskip := (suffix_skipSpace (skipSpace after).tail).length_le
        have htail := ((suffix_of_head? hcomma).trans (suffix_skipSpace _)).length_le
        rw [List.length_append, List.length_cons, List.length_append, length_spliced] at hlength
        rw [List.map_cons, List.sum_cons, spliceSize] at hsize
        rw [List.length_cons] at htail
        simp only at hrest hsize
        omega
      · cases hread
        exact hother (List.mem_singleton.mp (hmem (k, v) List.mem_cons_self))

end

/-! ## Texts of objects -/

/-- An object of strings with two spaces in front of each entry. -/
def splicedObject (entries : List (List Char × List Char)) : List Char :=
  '{' :: (spliced entries).tail

section

variable {F : FloatFormat} {entries : List (List Char × List Char)} {before after : List Char}

variable (F after) in
theorem loads_eq (hne : entries ≠ []) (hbefore : ∀ c ∈ before, isSpace c = true) :
    ∃ fuel, entries.length < fuel ∧ loads F (before ++ splicedObject entries ++ after) =
      (readEntries F fuel ((spliced entries).drop 4 ++ after)).bind fun found =>
        if skipSpace found.2 = [] then some (.obj (PyDict.ofEntries found.1).entries)
        else none := by
  have hlength : entries.length < 2 * (before ++ splicedObject entries ++ after).length + 1 := by
    rw [splicedObject, List.length_append, List.length_append, List.length_cons, List.length_tail,
      length_spliced]
    omega
  refine ⟨_, hlength, ?_⟩
  obtain ⟨entry, others, rfl⟩ := List.exists_cons_of_ne_nil hne
  have hskip : skipSpace (before ++ splicedObject (entry :: others) ++ after)
      = '{' :: ((spliced (entry :: others)).tail ++ after) := by
    rw [List.append_assoc, skipSpace, List.dropWhile_append_of_pos hbefore]
    rfl
  have hfirst : skipSpace ((spliced (entry :: others)).tail ++ after)
      = (spliced (entry :: others)).drop 4 ++ after := rfl
  have hhead : ((spliced (entry :: others)).drop 4 ++ after).head? ≠ some '}' := fun h =>
    absurd (Option.some.inj h : '"' = '}') (by decide)
  unfold loads
  rw [hskip, readValue, if_neg (by decide), if_neg (by decide), if_pos rfl, hfirst, if_neg hhead,
    Option.bind_map]
  rfl

/-- Strings that stand for themselves are the values of their keys. -/
theorem loads_splicedObject (hne : entries ≠ []) (hnodup : (entries.map Prod.fst).Nodup)
    (hplain : ∀ entry ∈ entries, Verbatim entry.1 ∧ Verbatim entry.2)
    (hbefore : ∀ c ∈ before, isSpace c = true) (hafter : ∀ c ∈ after, isSpace c = true) :
    loads F (before ++ splicedObject entries ++ after) = some (.obj (entries.map stringEntry)) := by
  obtain ⟨fuel, hfuel, hloads⟩ := loads_eq F after hne hbefore
  rw [hloads, readEntries_spliced F after hne hfuel hplain, Option.bind_some]
  simp only
  rw [skipSpace, if_pos (List.dropWhile_eq_nil_iff.mpr hafter),
    PyDict.entries_ofEntries (nodup_stringEntry hnodup)]

theorem drop_spliced (hne : entries ≠ []) :
    ∃ text, (spliced entries).drop 4 = text ++ ['}'] := by
  induction entries with
  | nil => exact absurd rfl hne
  | cons entry entries ih =>
    obtain ⟨k, v⟩ := entry
    cases entries with
    | nil => exact ⟨'"' :: (k ++ '"' :: ':' :: ' ' :: '"' :: (v ++ ['"', '\n'])), by simp [spliced]⟩
    | cons entry entries =>
      obtain ⟨text, htext⟩ := ih (List.cons_ne_nil entry entries)
      have hspliced : spliced (entry :: entries) = [',', '\n', ' ', ' '] ++ text ++ ['}'] := by
        rw [List.append_assoc, ← htext]
        rfl
      refine ⟨'"' :: (k ++ '"' :: ':' :: ' ' :: '"' ::
        (v ++ '"' :: [',', '\n', ' ', ' '] ++ text)), ?_⟩
      rw [spliced, hspliced]
      simp

/-- A text without the characters between the strings is found in one of them. -/
theorem infix_splicedObject_iff {pat : List Char} (hne : pat ≠ [])
    (hpat : ∀ c ∈ ['\x7b', '\x7d', '\n', ' ', ',', ':', '"'], c ∉ pat) (hentries : entries ≠ []) :
    pat <:+: splicedObject entries ↔ ∃ entry ∈ entries, pat <:+: entry.1 ∨ pat <:+: entry.2 := by
  have hcons : ∀ {c : Char} (s : List Char), c ∈ ['\x7b', '\x7d', '\n', ' ', ',', ':', '"'] →
      (pat <:+: c :: s ↔ pat <:+: s) := by
    intro c s hc
    have h := PyStr.infix_append_cons_iff (a := []) (b := s) hne (hpat c hc)
    rw [List.nil_append, List.infix_nil, or_iff_right hne] at h
    exact h
  have hspliced : ∀ entries : List (List Char × List Char),
      pat <:+: spliced entries ↔ ∃ entry ∈ entries, pat <:+: entry.1 ∨ pat <:+: entry.2 := by
    intro entries
    induction entries with
    | nil =>
      rw [spliced, hcons _ (by decide), hcons _ (by decide), List.infix_nil]
      simp [hne]
    | cons entry entries ih =>
      rw [spliced, hcons _ (by decide), hcons _ (by decide), hcons _ (by decide),
        hcons _ (by decide), hcons _ (by decide),
        PyStr.infix_append_cons_iff hne (hpat '"' (by decide)), hcons _ (by decide),
        hcons _ (by decide), hcons _ (by decide),
        PyStr.infix_append_cons_iff hne (hpat '"' (by decide)), ih, List.exists_mem_cons_iff,
        or_assoc]
  obtain ⟨entry, others, rfl⟩ := List.exists_cons_of_ne_nil hentries
  have hcomma : spliced (entry :: others) = ',' :: (spliced (entry :: others)).tail := rfl
  rw [splicedObject, hcons _ (by decide), ← hspliced, hcomma, hcons _ (by decide), List.tail_cons]

/-- When the known strings are the values of their keys, all stand for themselves. -/
theorem verbatim_of_loads {known : List Char → Prop} {found : List (String × PyJson)}
    (hne : entries ≠ []) (htight : Tight known entries) (hnodup : (entries.map Prod.fst).Nodup)
    (hkeys : ∀ entry ∈ entries, Verbatim entry.1)
    (hbefore : ∀ c ∈ before, isSpace c = true) (hafter : ∀ c ∈ after, isSpace c = true)
    (hloads : loads F (before ++ splicedObject entries ++ after) = some (.obj found))
    (hvalues : ∀ entry ∈ entries, known entry.1 →
      (PyDict.ofEntries found).get? (String.ofList entry.1)
        = some (.str (String.ofList entry.2))) :
    ∀ entry ∈ entries, Verbatim entry.2 := by
  obtain ⟨fuel, hfuel, heq⟩ := loads_eq F after hne hbefore
  rw [heq] at hloads
  obtain ⟨⟨read, rest⟩, hread, hloads⟩ := Option.bind_eq_some_iff.mp hloads
  obtain ⟨hrest, hobj⟩ := Option.ite_none_right_eq_some.mp hloads
  cases hobj
  rw [PyDict.ofEntries_entries] at hvalues
  refine verbatim_of_readEntries after hfuel htight hnodup hkeys hread ?_ hvalues
  -- The last brace of the text is the one that closes the object.
  obtain ⟨text, htext⟩ := drop_spliced hne
  have hsuffix : '}' :: rest <:+ text ++ '}' :: after := by
    have h := suffix_readEntries hread
    rwa [htext, List.append_assoc] at h
  by_contra hlt
  have hmem : '}' ∈ after := by
    refine (List.suffix_of_suffix_length_le hsuffix
      ((List.suffix_cons '}' after).trans (List.suffix_append text _)) ?_).subset
      List.mem_cons_self
    exact Nat.not_le.mp hlt
  exact absurd (hafter '}' hmem) (by decide)

end

end JsonText
