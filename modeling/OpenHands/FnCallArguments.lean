/-
# The arguments of a call

A call is read with the schema of its function: the text of a parameter becomes a value of
the type that the schema gives it.  The arguments come back exactly when every name is
read as it was written, no value stands on several lines, and the schema admits them
(`extractAndValidateParams_iff`).
-/
import OpenHands.Event
import OpenHands.FnCallTags
import OpenHands.Lib.Fallible
import OpenHands.Lib.JsonRoundTrip

namespace OpenHands.FnCall

open Fallible PyStr PyRe JsonText

/-! ## Integers -/

theorem isDigits_of_forall : ∀ {s : Text}, s ≠ [] → (∀ c ∈ s, c.isDigit = true) →
    isDigits s = true
  | [], hne, _ => absurd rfl hne
  | [c], _, h => by
    unfold isDigits
    rw [h c List.mem_cons_self]
    rfl
  | c :: d :: s, _, h => by
    have hd : d ≠ '_' := by
      rintro rfl
      exact absurd (h '_' (List.mem_cons_of_mem c List.mem_cons_self)) (by decide)
    have hrec : isDigits (d :: s) = true :=
      isDigits_of_forall (List.cons_ne_nil d s) fun e he => h e (List.mem_cons_of_mem c he)
    rw [isDigits, h c List.mem_cons_self, Bool.true_and]
    · exact hrec
    · exact fun heq => List.cons_ne_nil d s heq
    · exact fun _ heq => hd (List.cons.inj heq).1

theorem isDigit_toDigits {n : ℕ} : ∀ c ∈ Nat.toDigits 10 n, c.isDigit = true :=
  fun _ hc => Nat.isDigit_of_mem_toDigits (by decide) (by decide) hc

theorem parseDigits_toDigits (n : ℕ) : parseDigits (Nat.toDigits 10 n) = some (n : ℤ) := by
  have hfilter : (Nat.toDigits 10 n).filter (· ≠ '_') = Nat.toDigits 10 n := by
    rw [List.filter_eq_self]
    intro c hc
    rw [decide_eq_true_eq]
    rintro rfl
    exact absurd (isDigit_toDigits '_' hc) (by decide)
  unfold parseDigits
  rw [if_pos (isDigits_of_forall Nat.toDigits_ne_nil isDigit_toDigits), hfilter]
  rw [Nat.ofDigitChars_ten_toDigits]

/-- The text of an integer is read as the integer. -/
theorem parseInt_intText (i : ℤ) : parseInt (intText i) = some i := by
  cases i with
  | ofNat n =>
    obtain ⟨c, t, ht⟩ := List.exists_cons_of_ne_nil (Nat.toDigits_ne_nil (n := n) (b := 10))
    have hdigit : c.isDigit = true := isDigit_toDigits c (by rw [ht]; exact List.mem_cons_self)
    have hminus : c ≠ '-' := by
      rintro rfl
      exact absurd hdigit (by decide)
    have hplus : c ≠ '+' := by
      rintro rfl
      exact absurd hdigit (by decide)
    have hstrip : strip (Nat.toDigits 10 n) = Nat.toDigits 10 n :=
      strip_of_forall fun c hc => isSpace_of_isDigit (isDigit_toDigits c hc)
    have hparse := parseDigits_toDigits n
    unfold parseInt intText
    simp only
    rw [hstrip]
    rw [ht] at hparse ⊢
    split
    · next heq =>
      cases heq
      exact absurd rfl hminus
    · next heq =>
      cases heq
      exact absurd rfl hplus
    · exact hparse
  | negSucc n =>
    have hstrip : strip ('-' :: Nat.toDigits 10 (n + 1)) = '-' :: Nat.toDigits 10 (n + 1) := by
      refine strip_of_forall fun c hc => ?_
      rcases List.mem_cons.mp hc with rfl | hc
      · decide
      · exact isSpace_of_isDigit (isDigit_toDigits c hc)
    unfold parseInt intText
    simp only [hstrip]
    rw [parseDigits_toDigits]
    rfl

/-! ## Values -/

/-- The value is of the type that the schema gives: a string, an integer or an array. -/
def ParamInfo.admits (info : ParamInfo) : PyJson → Bool
  | .str _ => info.type.getD "string" = "string"
  | .int _ => info.type.getD "string" = "integer"
  | .arr _ => info.type.getD "string" = "array"
  | _ => false

theorem paramText_of_oneLine {host : Host} {v : PyJson} (h : isMultiline v = false) :
    paramText host v = valueText host v := by
  unfold paramText
  rw [if_neg (by rw [h]; exact Bool.false_ne_true)]
  exact List.append_nil _

/-- A value is read back unless it is a string with a newline, which was put on lines of its
own. -/
theorem paramValue_paramText {host : Host} {info : ParamInfo} {v : PyJson}
    (hadmits : info.admits v = true) (hread : Readable host.toFloatFormat v) (name : Text) :
    paramValue host info name (paramText host v) = .ok v ↔ isMultiline v = false := by
  cases v with
  | null => exact absurd hadmits Bool.false_ne_true
  | bool b => exact absurd hadmits Bool.false_ne_true
  | float x => exact absurd hadmits Bool.false_ne_true
  | obj entries => exact absurd hadmits Bool.false_ne_true
  | int i =>
    have htype : info.type.getD "string" = "integer" := of_decide_eq_true hadmits
    have htext : paramText host (.int i) = intText i := paramText_of_oneLine rfl
    unfold paramValue
    rw [if_pos htype, htext, parseInt_intText]
    exact ⟨fun _ => rfl, fun _ => rfl⟩
  | arr items =>
    have htype : info.type.getD "string" = "array" := of_decide_eq_true hadmits
    have htext : paramText host (.arr items) = dumps host.toFloatFormat (.arr items) :=
      paramText_of_oneLine rfl
    unfold paramValue
    rw [if_neg (by rw [htype]; decide), if_pos htype, htext, loads_dumps _ hread]
    exact ⟨fun _ => rfl, fun _ => rfl⟩
  | str s =>
    have htype : info.type.getD "string" = "string" := of_decide_eq_true hadmits
    unfold paramValue
    rw [if_neg (by rw [htype]; decide), if_neg (by rw [htype]; decide)]
    constructor
    · intro h
      by_contra hlines
      rw [Bool.not_eq_false] at hlines
      have htext : paramText host (.str s) = "\n".toList ++ s.toList ++ "\n".toList := by
        unfold paramText
        rw [if_pos hlines]
        rfl
      have hs : String.ofList (paramText host (.str s)) = s := by
        injection h with h
        injection h
      have hlength := congrArg (List.length ∘ String.toList) hs
      rw [htext] at hlength
      simp at hlength
      omega
    · intro hline
      have htext : paramText host (.str s) = s.toList := paramText_of_oneLine hline
      rw [htext, String.ofList_toList]

/-- The arguments are properties of the function, of the type that the schema gives. -/
def Fits (function : Function) (args : List (String × PyJson)) : Prop :=
  ∀ arg ∈ args, ∃ properties info, function.properties = .ok properties
    ∧ properties.get? arg.1 = some info ∧ info.admits arg.2 = true

/-- The value is in the enumeration of its property, if there is one. -/
def allowsValue (function : Function) (arg : String × PyJson) : Bool :=
  match function.properties with
  | .error _ => false
  | .ok properties =>
    match properties.get? arg.1 with
    | none => false
    | some info => inEnum info arg.2

/-- A parameter that is found as it was written gives the argument again. -/
theorem validateParam_iff {host : Host} {function : Function} {arg : String × PyJson}
    {properties : PyDict String ParamInfo} {info : ParamInfo}
    (hproperties : function.properties = .ok properties)
    (hinfo : properties.get? arg.1 = some info) (hadmits : info.admits arg.2 = true)
    (hread : Readable host.toFloatFormat arg.2) (fnName : Text) :
    validateParam host function fnName (arg.1.toList, paramText host arg.2) = .ok arg
      ↔ isMultiline arg.2 = false ∧ allowsValue function arg = true := by
  have hallows : allowsValue function arg = inEnum info arg.2 := by
    unfold allowsValue
    rw [hproperties]
    simp only [hinfo]
  have hvalidate : validateParam host function fnName (arg.1.toList, paramText host arg.2)
      = (paramValue host info arg.1.toList (paramText host arg.2)).bind fun v =>
          if inEnum info v then .ok (arg.1, v)
          else .error (.parameterNotInEnum arg.1.toList (info.enum.getD [])) := by
    unfold validateParam
    rw [hproperties]
    simp only [String.ofList_toList, hinfo]
  rw [hallows, hvalidate, ← paramValue_paramText hadmits hread arg.1.toList, bind_ok_iff]
  constructor
  · rintro ⟨v, hv, henum⟩
    split_ifs at henum with hin
    have harg : (arg.1, v) = arg := Except.ok.inj henum
    have hvalue : v = arg.2 := congrArg Prod.snd harg
    rw [hvalue] at hv hin
    exact ⟨hv, hin⟩
  · rintro ⟨hv, hin⟩
    exact ⟨arg.2, hv, by rw [if_pos hin]⟩

/-- A parameter that is accepted keeps its name. -/
theorem fst_of_validateParam {host : Host} {function : Function} {fnName : Text}
    {found : Text × Text} {arg : String × PyJson}
    (h : validateParam host function fnName found = .ok arg) : arg.1 = String.ofList found.1 := by
  unfold validateParam at h
  simp only at h
  cases hproperties : function.properties with
  | error error =>
    rw [hproperties] at h
    cases h
  | ok properties =>
    rw [hproperties] at h
    simp only at h
    cases hinfo : properties.get? (String.ofList found.1) with
    | none =>
      rw [hinfo] at h
      simp only at h
      split_ifs at h
    | some info =>
      rw [hinfo] at h
      obtain ⟨v, -, hv⟩ := bind_ok_iff.mp h
      split_ifs at hv
      cases hv
      rfl

/-! ## All arguments -/

/-- The names and the texts of arguments. -/
def callParams (host : Host) (args : List (String × PyJson)) : List (Text × Text) :=
  args.map fun arg => (arg.1.toList, paramText host arg.2)

/-- An argument that is read back: its name is one for the pattern, its tag does not look
malformed, its value stands on one line, and the schema admits the value. -/
structure ArgumentKept (host : Host) (function : Function) (arg : String × PyJson) : Prop where
  named : WellNamed arg.1.toList
  wellFormed :
    malformedPattern.matchStart (paramTag arg.1.toList (paramText host arg.2)) = none
  oneLine : isMultiline arg.2 = false
  allowed : allowsValue function arg = true

/-- All arguments are read back, and none that is required is missing. -/
structure ArgumentsKept (host : Host) (function : Function) (args : List (String × PyJson)) :
    Prop where
  each : ∀ arg ∈ args, ArgumentKept host function arg
  required : ∀ name ∈ function.required, name ∈ args.map Prod.fst

theorem matchStart_paramTag_eq_none {name text : Text} :
    malformedPattern.matchStart (paramTag name text) = none ↔ malformedTag name text = none := by
  have h := matchStart_paramTag name text []
  rw [List.append_nil] at h
  rw [h, Option.map_eq_none_iff]

section

variable {host : Host} {function : Function} {args : List (String × PyJson)}

/-- Without tags that look malformed the parameters are found as they were written. -/
theorem found_of_wellFormed : ∀ {args : List (String × PyJson)} {found : List (Text × Text)},
    List.Forall₂ FoundFor (callParams host args) found →
      (∀ arg ∈ args, malformedTag arg.1.toList (paramText host arg.2) = none) →
        found = callParams host args
  | [], _, .nil, _ => rfl
  | arg :: args, _, .cons hparam hrest, hwell => by
    have htail := found_of_wellFormed hrest fun a ha => hwell a (List.mem_cons_of_mem arg ha)
    rcases hparam with ⟨-, rfl⟩ | ⟨hmalformed, -⟩
    · rw [htail]
      rfl
    · exact absurd (hwell arg List.mem_cons_self) hmalformed

/-- What was read as the arguments was found under their names. -/
theorem exists_found_of_mem {found : List (Text × Text)} {pairs : List (String × PyJson)}
    {fnName : Text} (hpairs : List.Forall₂
      (fun found arg => validateParam host function fnName found = .ok arg) found pairs)
    {arg : String × PyJson} (harg : arg ∈ pairs) : ∃ f ∈ found, arg.1.toList = f.1 := by
  obtain ⟨i, hi, rfl⟩ := List.mem_iff_getElem.mp harg
  have hlt : i < found.length := by
    rw [hpairs.length_eq]
    exact hi
  have hfst : pairs[i].1 = String.ofList found[i].1 :=
    fst_of_validateParam ((List.forall₂_iff_get.mp hpairs).2 i hlt hi)
  exact ⟨found[i], List.getElem_mem hlt, by rw [hfst, String.toList_ofList]⟩

/-- An argument whose tag looks malformed is not read back: no name that is found is its. -/
theorem wellFormed_of_found (hnodup : (args.map Prod.fst).Nodup) {found : List (Text × Text)}
    (hfound : List.Forall₂ FoundFor (callParams host args) found)
    (hnames : ∀ arg ∈ args, ∃ f ∈ found, arg.1.toList = f.1) :
    ∀ arg ∈ args, malformedTag arg.1.toList (paramText host arg.2) = none := by
  have hback : ∀ f ∈ found, ∃ other ∈ args,
      FoundFor (other.1.toList, paramText host other.2) f := by
    intro f hf
    obtain ⟨i, hi, rfl⟩ := List.mem_iff_getElem.mp hf
    have hlt : i < args.length := by
      have hlength := hfound.length_eq
      unfold callParams at hlength
      rw [List.length_map] at hlength
      omega
    refine ⟨args[i], List.getElem_mem hlt, ?_⟩
    have hget := (List.forall₂_iff_get.mp hfound).2 i (by unfold callParams; simpa using hlt) hi
    simpa [callParams] using hget
  intro arg harg
  by_contra hmalformed
  obtain ⟨found', hmalformed'⟩ := Option.ne_none_iff_exists'.mp hmalformed
  have hequals : '=' ∈ arg.1.toList := (malformedTag_spec hmalformed').2.2.1
  obtain ⟨f, hf, hname⟩ := hnames arg harg
  obtain ⟨other, hother, hfor⟩ := hback f hf
  rcases hfor with ⟨hnone, rfl⟩ | ⟨-, -, hfree⟩
  · -- the other argument has the same name, so it is the same argument
    have hsame : arg = other :=
      List.inj_on_of_nodup_map hnodup harg hother (String.toList_inj.mp hname)
    rw [hsame] at hmalformed
    exact hmalformed hnone
  · rw [hname] at hequals
    exact hfree hequals

theorem map_fst_of_validated {fnName : Text} : ∀ {args pairs : List (String × PyJson)},
    List.Forall₂ (fun found arg => validateParam host function fnName found = .ok arg)
      (callParams host args) pairs → pairs.map Prod.fst = args.map Prod.fst
  | [], _, .nil => rfl
  | arg :: args, _, .cons hfirst hrest => by
    rw [List.map_cons, List.map_cons, map_fst_of_validated hrest, fst_of_validateParam hfirst]
    rw [String.ofList_toList]

variable (hfits : Fits function args) (hnodup : (args.map Prod.fst).Nodup)
  (hread : ∀ arg ∈ args, Readable host.toFloatFormat arg.2)
  (hmarkers : MarkerFreeParams (callParams host args))

include hfits hread in
theorem validateParam_each (fnName : Text) : ∀ arg ∈ args,
    (validateParam host function fnName (arg.1.toList, paramText host arg.2) = .ok arg
      ↔ isMultiline arg.2 = false ∧ allowsValue function arg = true) := by
  intro arg harg
  obtain ⟨properties, info, hproperties, hinfo, hadmits⟩ := hfits arg harg
  exact validateParam_iff hproperties hinfo hadmits (hread arg harg) fnName

theorem forall₂_callParams_iff {fnName : Text} : ∀ {args : List (String × PyJson)},
    List.Forall₂ (fun found arg => validateParam host function fnName found = .ok arg)
        (callParams host args) args
      ↔ ∀ arg ∈ args,
        validateParam host function fnName (arg.1.toList, paramText host arg.2) = .ok arg
  | [] => ⟨fun _ arg harg => absurd harg List.not_mem_nil, fun _ => .nil⟩
  | arg :: args => by
    change List.Forall₂ _ ((arg.1.toList, paramText host arg.2) :: callParams host args) _ ↔ _
    rw [List.forall₂_cons, forall₂_callParams_iff, List.forall_mem_cons]

/-- The parameters of a call are named as its arguments. -/
theorem wellNamed_callParams (h : ∀ arg ∈ args, WellNamed arg.1.toList) :
    ∀ param ∈ callParams host args, WellNamed param.1 := by
  intro param hparam
  obtain ⟨arg, harg, rfl⟩ := List.mem_map.mp hparam
  exact h arg harg

include hfits hnodup hread hmarkers in
/-- Arguments that come back have been read one by one. -/
theorem kept_of_extracted {fnName : Text} {params : PyDict String PyJson}
    (h : extractAndValidateParams host function
      (paramPattern.finditer (normalizeParameterTags (paramTags (callParams host args))))
      fnName = .ok params) (hentries : params.entries = args) :
    ArgumentsKept host function args := by
  unfold extractAndValidateParams at h
  obtain ⟨pairs, hpairs, hparams⟩ := bind_ok_iff.mp h
  have hvalidated := mapM_ok_iff.mp hpairs
  simp only at hparams
  split_ifs at hparams with hmissing
  have heq : PyDict.ofEntries pairs = params := Except.ok.inj hparams
  have hmem : ∀ arg ∈ args, arg ∈ pairs := by
    intro arg harg
    rw [← hentries, ← heq] at harg
    exact PyDict.mem_of_mem_ofEntries harg
  have hnames : ∀ arg ∈ args, ∃ f ∈ paramPattern.finditer
      (normalizeParameterTags (paramTags (callParams host args))), arg.1.toList = f.1 :=
    fun arg harg => exists_found_of_mem hvalidated (hmem arg harg)
  have hnamed : ∀ arg ∈ args, WellNamed arg.1.toList := by
    intro arg harg
    obtain ⟨f, hf, hname⟩ := hnames arg harg
    rw [hname]
    exact wellNamed_of_finditer hf
  have hfound := finditer_normalize_paramTags hmarkers (wellNamed_callParams hnamed)
  have hwell := wellFormed_of_found hnodup hfound hnames
  rw [found_of_wellFormed hfound hwell] at hvalidated
  have hpairsEq : pairs = args := by
    rw [← hentries, ← heq, PyDict.entries_ofEntries]
    -- the pairs have the names of the arguments
    rw [map_fst_of_validated hvalidated]
    exact hnodup
  rw [hpairsEq, forall₂_callParams_iff] at hvalidated
  refine ⟨fun arg harg => ?_, fun name hname => ?_⟩
  · obtain ⟨hline, hallowed⟩ :=
      (validateParam_each hfits hread fnName arg harg).mp (hvalidated arg harg)
    exact ⟨hnamed arg harg, matchStart_paramTag_eq_none.mpr (hwell arg harg), hline, hallowed⟩
  · rw [List.filter_eq_nil_iff] at hmissing
    have hin := hmissing name hname
    rw [decide_eq_true_eq, not_not, heq] at hin
    rw [← hentries]
    exact hin

include hfits hnodup hread hmarkers in
/-- Arguments that are read one by one come back. -/
theorem extracted_of_kept (h : ArgumentsKept host function args) (fnName : Text) :
    ∃ params, extractAndValidateParams host function
      (paramPattern.finditer (normalizeParameterTags (paramTags (callParams host args))))
      fnName = .ok params ∧ params.entries = args := by
  unfold extractAndValidateParams
  have hwell : ∀ arg ∈ args, malformedTag arg.1.toList (paramText host arg.2) = none :=
    fun arg harg => matchStart_paramTag_eq_none.mp (h.each arg harg).wellFormed
  have hfound := finditer_normalize_paramTags hmarkers
    (wellNamed_callParams fun arg harg => (h.each arg harg).named)
  have hvalidated : (callParams host args).mapM (validateParam host function fnName)
      = .ok args := by
    rw [mapM_ok_iff, forall₂_callParams_iff]
    intro arg harg
    exact (validateParam_each hfits hread fnName arg harg).mpr
      ⟨(h.each arg harg).oneLine, (h.each arg harg).allowed⟩
  have hentries : (PyDict.ofEntries args).entries = args := PyDict.entries_ofEntries hnodup
  refine ⟨PyDict.ofEntries args, ?_, hentries⟩
  rw [found_of_wellFormed hfound hwell, hvalidated]
  change (if _ then _ else _) = _
  rw [if_pos]
  rw [List.filter_eq_nil_iff]
  intro name hname
  rw [decide_eq_true_eq, not_not]
  unfold PyDict.keys
  rw [hentries]
  exact h.required name hname

include hfits hnodup hread hmarkers in
/-- The arguments of a call come back exactly when each of them is read back and none that
is required is missing. -/
theorem extractAndValidateParams_iff (fnName : Text) :
    (∃ params, extractAndValidateParams host function
        (paramPattern.finditer (normalizeParameterTags (paramTags (callParams host args))))
        fnName = .ok params ∧ params.entries = args)
      ↔ ArgumentsKept host function args := by
  constructor
  · rintro ⟨params, hparams, hentries⟩
    exact kept_of_extracted hfits hnodup hread hmarkers hparams hentries
  · intro h
    exact extracted_of_kept hfits hnodup hread hmarkers h fnName

end

end OpenHands.FnCall
