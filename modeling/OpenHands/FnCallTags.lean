/-
# The tags of a call

A call is written as tags around the name of the function, the names of the parameters
and their values.  Where names and values have none of the markers, the patterns find the
tags and nothing else.
-/
import OpenHands.FnCallConverter

namespace OpenHands.FnCall

open PyStr PyRe

/-- The markers of the format, and the start of the header of a result. -/
def markers : List Text :=
  ["<function=".toList, "</function".toList, "<parameter=".toList, "</parameter>".toList,
    "EXECUTION RESULT of [".toList]

/-- A text without the markers of the format. -/
def MarkerFree (t : Text) : Prop := ∀ marker ∈ markers, ¬ marker <:+: t

instance (t : Text) : Decidable (MarkerFree t) := by
  unfold MarkerFree
  infer_instance

section MarkerFree

variable {t : Text} (h : MarkerFree t)

include h

theorem MarkerFree.functionStart : ¬ "<function=".toList <:+: t :=
  h _ (.head _)

theorem MarkerFree.functionEnd : ¬ "</function".toList <:+: t :=
  h _ (.tail _ (.head _))

theorem MarkerFree.parameterStart : ¬ "<parameter=".toList <:+: t :=
  h _ (.tail _ (.tail _ (.head _)))

theorem MarkerFree.parameterEnd : ¬ "</parameter>".toList <:+: t :=
  h _ (.tail _ (.tail _ (.tail _ (.head _))))

theorem MarkerFree.resultHeader : ¬ "EXECUTION RESULT of [".toList <:+: t :=
  h _ (.tail _ (.tail _ (.tail _ (.tail _ (.head _)))))

end MarkerFree

/-- The markers as their characters. -/
theorem forall_markers_iff {p : Text → Prop} : (∀ marker ∈ markers, p marker) ↔
    p ['<', 'f', 'u', 'n', 'c', 't', 'i', 'o', 'n', '='] ∧
    p ['<', '/', 'f', 'u', 'n', 'c', 't', 'i', 'o', 'n'] ∧
    p ['<', 'p', 'a', 'r', 'a', 'm', 'e', 't', 'e', 'r', '='] ∧
    p ['<', '/', 'p', 'a', 'r', 'a', 'm', 'e', 't', 'e', 'r', '>'] ∧
    p ['E', 'X', 'E', 'C', 'U', 'T', 'I', 'O', 'N', ' ', 'R', 'E', 'S', 'U', 'L', 'T', ' ',
      'o', 'f', ' ', '['] := by
  unfold markers
  iterate 5 rw [String.toList_ofList]
  rw [List.forall_mem_cons, List.forall_mem_cons, List.forall_mem_cons, List.forall_mem_cons,
    List.forall_mem_singleton]

/-- Every marker has a bracket. -/
theorem markerFree_of_notMem {t : Text} (h : '<' ∉ t ∧ '[' ∉ t) : MarkerFree t := by
  intro marker hmarker hpart
  have hbracket : ∀ m ∈ markers, '<' ∈ m ∨ '[' ∈ m := by
    rw [forall_markers_iff]
    decide
  rcases hbracket marker hmarker with hmem | hmem
  · exact h.1 (hpart.subset hmem)
  · exact h.2 (hpart.subset hmem)

theorem markerFree_nil : MarkerFree [] :=
  markerFree_of_notMem ⟨List.not_mem_nil, List.not_mem_nil⟩

/-- No marker has a newline, so padding with newlines makes none. -/
theorem markerFree_padded {t : Text} (h : MarkerFree t) :
    MarkerFree ("\n".toList ++ t ++ "\n".toList) := by
  intro marker hmarker
  have hmarkers : ∀ marker ∈ markers, marker ≠ [] ∧ '\n' ∉ marker ∧ ¬ marker <:+: [] := by
    rw [forall_markers_iff]
    decide
  obtain ⟨hne, hline, hnil⟩ := hmarkers marker hmarker
  have hsplit : "\n".toList ++ t ++ "\n".toList = [] ++ '\n' :: (t ++ '\n' :: []) := by
    simp
  rw [hsplit, infix_append_cons_iff hne hline, infix_append_cons_iff hne hline]
  rintro (hmem | hmem | hmem)
  · exact hnil hmem
  · exact h marker hmarker hmem
  · exact hnil hmem

theorem markerFree_paramText {host : Host} {v : PyJson} (h : MarkerFree (valueText host v)) :
    MarkerFree (paramText host v) := by
  unfold paramText
  by_cases hlines : isMultiline v = true
  · rw [if_pos hlines]
    exact markerFree_padded h
  · rw [if_neg hlines]
    simp only [List.nil_append, List.append_nil]
    exact h

/-! ## A tag -/

theorem paramTag_eq (name text : Text) :
    paramTag name text
      = "<parameter=".toList ++ (name ++ '>' :: (text ++ ("</parameter>".toList ++ ['\n']))) := by
  unfold paramTag
  simp

/-- After its opening the tag of a parameter opens no other one. -/
theorem parameterStart_notMem {name text : Text} (hname : MarkerFree name)
    (htext : MarkerFree text) :
    ¬ "<parameter=".toList <:+: name ++ '>' :: (text ++ ("</parameter>".toList ++ ['\n'])) := by
  have hseam : ∀ c ∈ ("</parameter>".toList ++ ['\n']).head?, c ∉ "<parameter=".toList.tail := by
    simp
  rw [infix_append_cons_iff (by simp) (by simp), infix_append_iff_of_head hseam]
  rintro (h | h | h)
  · exact hname.parameterStart h
  · exact htext.parameterStart h
  · revert h
    simp only [String.reduceToList]
    decide

/-- The tags of parameters do not end a call. -/
theorem functionEnd_notMem {name text : Text} (hname : MarkerFree name)
    (htext : MarkerFree text) : ¬ "</function".toList <:+: paramTag name text := by
  have hseam : ∀ c ∈ ("</parameter>".toList ++ ['\n']).head?, c ∉ "</function".toList.tail := by
    simp
  have hopen : ¬ "</function".toList <:+: '<' :: ("parameter=".toList ++ name) := by
    rw [List.infix_cons_iff, infix_append_iff_of_notMem (by simp) (by simp)]
    rintro (h | h)
    · have hslash := (List.cons_prefix_cons.mp (List.cons_prefix_cons.mp h).2).1
      exact absurd hslash (by decide)
    · exact hname.functionEnd h
  have hsplit : paramTag name text = '<' :: ("parameter=".toList ++ name)
      ++ '>' :: (text ++ ("</parameter>".toList ++ ['\n'])) := by
    rw [paramTag_eq]
    simp
  rw [hsplit, infix_append_cons_iff (by decide) (by decide), infix_append_iff_of_head hseam]
  rintro (h | h | h)
  · exact hopen h
  · exact htext.functionEnd h
  · revert h
    simp only [String.reduceToList]
    decide

/-- A tag begins with `<`, which comes at no other place of a marker. -/
theorem head?_paramTag (name text rest : Text) :
    (paramTag name text ++ rest).head? = some '<' := by
  rw [paramTag_eq]
  rfl

/-- The tags of a list of parameters. -/
def paramTags (params : List (Text × Text)) : Text :=
  params.flatMap fun param => paramTag param.1 param.2

theorem paramTags_cons (param : Text × Text) (params : List (Text × Text)) :
    paramTags (param :: params) = paramTag param.1 param.2 ++ paramTags params := rfl

/-- Names and values without the markers. -/
def MarkerFreeParams (params : List (Text × Text)) : Prop :=
  ∀ param ∈ params, MarkerFree param.1 ∧ MarkerFree param.2

theorem head?_paramTags (params : List (Text × Text)) :
    ∀ c ∈ (paramTags params).head?, c = '<' := by
  cases params with
  | nil => exact fun c hc => absurd hc (Option.not_mem_none c)
  | cons param params =>
    intro c hc
    rw [paramTags_cons, head?_paramTag] at hc
    exact (Option.some.inj hc).symm

theorem functionEnd_notMem_paramTags {params : List (Text × Text)}
    (h : MarkerFreeParams params) : ¬ "</function".toList <:+: paramTags params := by
  induction params with
  | nil =>
    unfold paramTags
    decide
  | cons param params ih =>
    have hseam : ∀ c ∈ (paramTags params).head?, c ∉ "</function".toList.tail := by
      intro c hc
      rw [head?_paramTags params c hc]
      decide
    rw [paramTags_cons, infix_append_iff_of_head hseam]
    rintro (hmem | hmem)
    · exact functionEnd_notMem (h param List.mem_cons_self).1 (h param List.mem_cons_self).2 hmem
    · exact ih (fun param hparam => h param (List.mem_cons_of_mem _ hparam)) hmem

/-! ## A call -/

/-- The name of a call is as the pattern wants it: not empty and without its end. -/
def WellNamed (name : Text) : Prop := name ≠ [] ∧ '>' ∉ name

theorem run_name {name : Text} (h : WellNamed name) (rest : Text) :
    run (· ≠ '>') (name ++ '>' :: rest) = some (name, '>' :: rest) := by
  refine run_append_cons h.1 ?_ (by decide) rest
  intro c hc
  rw [decide_eq_true_eq]
  rintro rfl
  exact h.2 hc

/-- The pattern of a call takes a call apart. -/
theorem fnPattern_follow {name body : Text} (hname : WellNamed name)
    (hbody : ¬ "</function".toList <:+: body) (rest : Text) :
    fnPattern.follow (name ++ ">\n".toList ++ body ++ "</function>".toList ++ rest)
      = some ((name, body), rest) := by
  have hend : ¬ "</function>".toList <:+: body := fun h =>
    hbody (List.IsInfix.trans ⟨[], ['>'], by decide⟩ h)
  have hsplit : name ++ ">\n".toList ++ body ++ "</function>".toList ++ rest
      = name ++ '>' :: ('\n' :: (body ++ "</function>".toList ++ rest)) := by
    simp
  have hline : afterLiteral ">\n".toList ('>' :: '\n' :: (body ++ "</function>".toList ++ rest))
      = some (body ++ "</function>".toList ++ rest) :=
    afterLiteral_append ">\n".toList (body ++ "</function>".toList ++ rest)
  unfold fnPattern
  simp only
  rw [hsplit, run_name hname, Option.bind_some, hline, Option.bind_some]
  rw [cut_append (by simp) (by simp) hend]
  rfl

/-- What the pattern of a call takes for its name. -/
theorem wellNamed_of_search {t name body : Text} (h : fnPattern.search t = some (name, body)) :
    WellNamed name := by
  obtain ⟨before, s, rest, -, hmatch⟩ := fnPattern.exists_match_of_search h
  obtain ⟨s', -, hfollow⟩ := fnPattern.eq_of_matchStart hmatch
  obtain ⟨found, hrun, hfollow⟩ := Option.bind_eq_some_iff.mp hfollow
  obtain ⟨after, -, hfollow⟩ := Option.bind_eq_some_iff.mp hfollow
  obtain ⟨parts, -, hparts⟩ := Option.map_eq_some_iff.mp hfollow
  cases hparts
  obtain ⟨hne, hall, -⟩ := run_eq_some hrun
  exact ⟨hne, fun hmem => by simpa using hall '>' hmem⟩

/-- A call is found after a text that has none of the markers. -/
theorem search_functionTag {before name body : Text}
    (hbefore : ¬ "<function=".toList <:+: before) (hname : WellNamed name)
    (hbody : ¬ "</function".toList <:+: body) (rest : Text) :
    fnPattern.search (before ++ (functionTag name body ++ rest)) = some (name, body) := by
  have hmatch : fnPattern.matchStart (functionTag name body ++ rest)
      = some ((name, body), rest) := by
    have hsplit : functionTag name body ++ rest = fnPattern.lead
        ++ (name ++ ">\n".toList ++ body ++ "</function>".toList ++ rest) := by
      unfold functionTag fnPattern
      simp
    rw [hsplit, fnPattern.matchStart_append, fnPattern_follow hname hbody]
  refine fnPattern.search_append hbefore ?_ hmatch
  intro c hc
  have hhead : (functionTag name body ++ rest).head? = some '<' := by
    unfold functionTag
    rfl
  rw [hhead] at hc
  cases hc
  decide

/-! ## Tags that look malformed -/

/-- What the normalisation takes for the name and the value of a tag that it rewrites, and
what it leaves of the tag: the name must go on with `=` after its first word. -/
def malformedTag (name text : Text) : Option ((Text × Text) × Text) :=
  (run isWord name).bind fun word =>
    (afterLiteral "=".toList word.2).bind fun tail =>
      let value := (tail ++ '>' :: text).takeWhile (· ≠ '<')
      let after := (tail ++ '>' :: text).dropWhile (· ≠ '<')
      if after = [] then some ((word.1, value), [])
      else
        (afterLiteral "</parameter>".toList after).map fun rest =>
          ((word.1, value), rest ++ "</parameter>".toList)

theorem run_append_of_head {α : Type*} {p : α → Bool} {rest : List α}
    (h : ∀ c ∈ rest.head?, p c = false) (s : List α) :
    run p (s ++ rest) = (run p s).map fun found => (found.1, found.2 ++ rest) := by
  unfold run
  rw [(takeWhile_append_of_head h s).1, (takeWhile_append_of_head h s).2]
  split_ifs <;> rfl

/-- Whether a literal follows is seen before a character that it does not have. -/
theorem afterLiteral_append_cons {pat : Text} {d : Char} (hd : d ∉ pat) (s rest : Text) :
    afterLiteral pat (s ++ d :: rest) = (afterLiteral pat s).map (· ++ d :: rest) := by
  unfold afterLiteral
  by_cases hpat : pat <+: s
  · rw [if_pos ((prefix_append_cons_iff hd).mpr hpat), if_pos hpat]
    rw [List.drop_append_of_le_length hpat.length_le]
    rfl
  · rw [if_neg fun h => hpat ((prefix_append_cons_iff hd).mp h), if_neg hpat]
    rfl

/-- Whether the end of a parameter follows is seen before the end of the tag. -/
theorem afterLiteral_parameterEnd {s : Text} (hs : s ≠ []) (rest : Text) :
    afterLiteral "</parameter>".toList (s ++ ("</parameter>".toList ++ rest))
      = (afterLiteral "</parameter>".toList s).map
          (· ++ ("</parameter>".toList ++ rest)) := by
  have hseam : ∀ c ∈ ("</parameter>".toList ++ rest).head?, c ∉ "</parameter>".toList.tail := by
    intro c hc
    cases hc
    decide
  unfold afterLiteral
  by_cases hpat : "</parameter>".toList <+: s
  · rw [if_pos ((prefix_append_iff_of_head hs hseam).mpr hpat), if_pos hpat]
    rw [List.drop_append_of_le_length hpat.length_le]
    rfl
  · rw [if_neg fun h => hpat ((prefix_append_iff_of_head hs hseam).mp h), if_neg hpat]
    rfl

/-- A malformed tag is seen without what follows the tag. -/
theorem malformedPattern_follow (name text rest : Text) :
    malformedPattern.follow (name ++ '>' :: (text ++ ("</parameter>".toList ++ rest)))
      = (malformedTag name text).map fun found => (found.1, found.2 ++ rest) := by
  have hword : ∀ c ∈ ('>' :: (text ++ ("</parameter>".toList ++ rest))).head?,
      isWord c = false := by
    intro c hc
    cases hc
    decide
  have hstop : ∀ c ∈ ("</parameter>".toList ++ rest).head?, decide (c ≠ '<') = false := by
    intro c hc
    cases hc
    decide
  unfold malformedPattern malformedTag
  simp only
  rw [run_append_of_head hword]
  cases hrun : run isWord name with
  | none => rfl
  | some word =>
    rw [Option.map_some, Option.bind_some, Option.bind_some]
    simp only
    rw [afterLiteral_append_cons (by decide)]
    cases hequals : afterLiteral "=".toList word.2 with
    | none => rfl
    | some tail =>
      rw [Option.map_some, Option.bind_some, Option.bind_some]
      have hsplit : tail ++ '>' :: (text ++ ("</parameter>".toList ++ rest))
          = (tail ++ '>' :: text) ++ ("</parameter>".toList ++ rest) := by
        rw [List.append_assoc, List.cons_append]
      rw [hsplit, (takeWhile_append_of_head hstop _).1, (takeWhile_append_of_head hstop _).2]
      by_cases hafter : (tail ++ '>' :: text).dropWhile (· ≠ '<') = []
      · rw [if_pos hafter, hafter, List.nil_append, afterLiteral_append]
        rfl
      · rw [if_neg hafter, afterLiteral_parameterEnd hafter, Option.map_map, Option.map_map]
        congr 1
        funext after
        simp

theorem matchStart_paramTag (name text rest : Text) :
    malformedPattern.matchStart (paramTag name text ++ rest)
      = (malformedTag name text).map fun found => (found.1, found.2 ++ '\n' :: rest) := by
  have hsplit : paramTag name text ++ rest = malformedPattern.lead
      ++ (name ++ '>' :: (text ++ ("</parameter>".toList ++ '\n' :: rest))) := by
    change _ = "<parameter=".toList ++ _
    rw [paramTag_eq]
    simp only [List.append_assoc, List.cons_append, List.nil_append]
  rw [hsplit, malformedPattern.matchStart_append, malformedPattern_follow]

/-- A tag that looks malformed has a name with `=`, and is rewritten to one without. -/
theorem malformedTag_spec {name text word value after : Text}
    (h : malformedTag name text = some ((word, value), after)) :
    WellNamed word ∧ '=' ∉ word ∧ '=' ∈ name ∧ '<' ∉ value := by
  obtain ⟨found, hrun, h⟩ := Option.bind_eq_some_iff.mp h
  obtain ⟨tail, hequals, h⟩ := Option.bind_eq_some_iff.mp h
  obtain ⟨hne, hall, hname⟩ := run_eq_some hrun
  have htail := eq_of_afterLiteral hequals
  have hword : WellNamed found.1 ∧ '=' ∉ found.1 := by
    refine ⟨⟨hne, fun hmem => ?_⟩, fun hmem => ?_⟩
    · exact absurd (hall _ hmem) (by decide)
    · exact absurd (hall _ hmem) (by decide)
  have hmem : '=' ∈ name := by
    rw [hname, htail]
    exact List.mem_append_right _ List.mem_cons_self
  have hvalue : '<' ∉ (tail ++ '>' :: text).takeWhile (· ≠ '<') := fun hlt => by
    simpa using List.mem_takeWhile_imp hlt
  simp only at h
  split_ifs at h
  · cases h
    exact ⟨hword.1, hword.2, hmem, hvalue⟩
  · obtain ⟨rest, -, hrest⟩ := Option.map_eq_some_iff.mp h
    cases hrest
    exact ⟨hword.1, hword.2, hmem, hvalue⟩

/-- What the normalisation leaves of a tag opens no other one. -/
theorem parameterStart_notMem_after {name text after : Text} {found : Text × Text}
    (hname : MarkerFree name) (htext : MarkerFree text)
    (h : malformedTag name text = some (found, after)) :
    ¬ "<parameter=".toList <:+: after ++ ['\n'] := by
  have hfollow := malformedPattern_follow name text ['\n']
  rw [h, Option.map_some] at hfollow
  intro hmem
  exact parameterStart_notMem hname htext
    (hmem.trans (malformedPattern.follow_suffix hfollow).isInfix)

/-! ## Reading the parameters -/

/-- Where tags may follow. -/
theorem head?_tail_parameterStart {rest : Text} (h : ∀ c ∈ rest.head?, c = '<') :
    ∀ c ∈ rest.head?, c ∉ "<parameter=".toList.tail := by
  intro c hc
  rw [h c hc]
  decide

theorem normalize_paramTag_of_none {name text rest : Text} (hname : MarkerFree name)
    (htext : MarkerFree text) (hrest : ∀ c ∈ rest.head?, c = '<')
    (h : malformedTag name text = none) :
    normalizeParameterTags (paramTag name text ++ rest)
      = paramTag name text ++ normalizeParameterTags rest := by
  have htag : paramTag name text = '<' :: ("parameter=".toList
      ++ (name ++ '>' :: (text ++ ("</parameter>".toList ++ ['\n'])))) := by
    rw [paramTag_eq]
    rfl
  have hnone := matchStart_paramTag name text rest
  rw [h, Option.map_none] at hnone
  have hx : ¬ malformedPattern.lead <:+: "parameter=".toList
      ++ (name ++ '>' :: (text ++ ("</parameter>".toList ++ ['\n']))) := by
    change ¬ "<parameter=".toList <:+: _
    rw [infix_append_iff_of_notMem (by simp) (by simp)]
    exact parameterStart_notMem hname htext
  unfold normalizeParameterTags
  rw [htag, List.cons_append] at hnone ⊢
  rw [malformedPattern.sub_cons_of_none _ hnone]
  rw [malformedPattern.sub_append _ hx (head?_tail_parameterStart hrest)]
  rfl

theorem normalize_paramTag_of_some {name text rest word value after : Text}
    (hname : MarkerFree name) (htext : MarkerFree text) (hrest : ∀ c ∈ rest.head?, c = '<')
    (h : malformedTag name text = some ((word, value), after)) :
    normalizeParameterTags (paramTag name text ++ rest)
      = "<parameter=".toList ++ (word ++ '>' :: (value ++ ("</parameter>".toList
        ++ (after ++ ['\n'] ++ normalizeParameterTags rest)))) := by
  have hmatch := matchStart_paramTag name text rest
  rw [h, Option.map_some] at hmatch
  have hafter : malformedPattern.sub (fun found => "<parameter=".toList ++ found.1 ++ ">".toList
        ++ found.2 ++ "</parameter>".toList) (after ++ '\n' :: rest)
      = after ++ ['\n'] ++ normalizeParameterTags rest := by
    have hx : ¬ malformedPattern.lead <:+: after ++ ['\n'] :=
      parameterStart_notMem_after hname htext h
    rw [List.append_cons]
    rw [malformedPattern.sub_append _ hx (head?_tail_parameterStart hrest)]
    rfl
  unfold normalizeParameterTags
  rw [malformedPattern.sub_of_some _ hmatch, hafter]
  unfold normalizeParameterTags
  simp

/-- The pattern of a parameter takes a tag apart and goes on at the next one. -/
theorem finditer_paramTag {name text x rest : Text} (hname : WellNamed name)
    (htext : ¬ "</parameter>".toList <:+: text) (hx : ¬ "<parameter=".toList <:+: x)
    (hrest : ∀ c ∈ rest.head?, c = '<') :
    paramPattern.finditer ("<parameter=".toList
        ++ (name ++ '>' :: (text ++ ("</parameter>".toList ++ (x ++ rest)))))
      = (name, text) :: paramPattern.finditer rest := by
  have hfollow : paramPattern.follow
      (name ++ '>' :: (text ++ ("</parameter>".toList ++ (x ++ rest))))
        = some ((name, text), x ++ rest) := by
    have hliteral : afterLiteral ">".toList
        ('>' :: (text ++ ("</parameter>".toList ++ (x ++ rest))))
          = some (text ++ ("</parameter>".toList ++ (x ++ rest))) :=
      afterLiteral_append ">".toList _
    unfold paramPattern
    simp only
    rw [run_name hname, Option.bind_some, hliteral, Option.bind_some, ← List.append_assoc]
    rw [cut_append (by simp) (by simp) htext]
    rfl
  have hmatch : paramPattern.matchStart ("<parameter=".toList
      ++ (name ++ '>' :: (text ++ ("</parameter>".toList ++ (x ++ rest)))))
        = some ((name, text), x ++ rest) := by
    rw [← hfollow]
    exact paramPattern.matchStart_append _
  rw [paramPattern.finditer_of_some hmatch]
  rw [paramPattern.finditer_append hx (head?_tail_parameterStart hrest)]

/-- The name that a pattern of a parameter finds. -/
theorem wellNamed_of_finditer {t : Text} {found : Text × Text}
    (h : found ∈ paramPattern.finditer t) : WellNamed found.1 := by
  obtain ⟨before, s, rest, -, hmatch⟩ := paramPattern.exists_match_of_finditer h
  obtain ⟨s', -, hfollow⟩ := paramPattern.eq_of_matchStart hmatch
  obtain ⟨name, hrun, hfollow⟩ := Option.bind_eq_some_iff.mp hfollow
  obtain ⟨after, -, hfollow⟩ := Option.bind_eq_some_iff.mp hfollow
  obtain ⟨parts, -, hparts⟩ := Option.map_eq_some_iff.mp hfollow
  cases hparts
  obtain ⟨hne, hall, -⟩ := run_eq_some hrun
  exact ⟨hne, fun hmem => by simpa using hall '>' hmem⟩

/-- What is found for a parameter: the parameter itself, or what its tag was rewritten to. -/
def FoundFor (param found : Text × Text) : Prop :=
  (malformedTag param.1 param.2 = none ∧ found = param)
    ∨ (malformedTag param.1 param.2 ≠ none ∧ '=' ∈ param.1 ∧ '=' ∉ found.1)

theorem head?_normalize_paramTags {params : List (Text × Text)} (h : MarkerFreeParams params) :
    ∀ c ∈ (normalizeParameterTags (paramTags params)).head?, c = '<' := by
  cases params with
  | nil => exact fun c hc => absurd hc (Option.not_mem_none c)
  | cons param params =>
    obtain ⟨hname, htext⟩ := h param List.mem_cons_self
    intro c hc
    rw [paramTags_cons] at hc
    cases hmalformed : malformedTag param.1 param.2 with
    | none =>
      rw [normalize_paramTag_of_none hname htext (head?_paramTags params) hmalformed] at hc
      rw [head?_paramTag] at hc
      exact (Option.some.inj hc).symm
    | some found =>
      rw [normalize_paramTag_of_some hname htext (head?_paramTags params) hmalformed] at hc
      exact (Option.some.inj hc).symm

/-- The tags of parameters are read one by one. -/
theorem finditer_normalize_paramTags : ∀ {params : List (Text × Text)},
    MarkerFreeParams params → (∀ param ∈ params, WellNamed param.1) →
      List.Forall₂ FoundFor params
        (paramPattern.finditer (normalizeParameterTags (paramTags params)))
  | [], _, _ => .nil
  | (name, text) :: params, h, hnamed => by
    obtain ⟨hname, htext⟩ := h (name, text) List.mem_cons_self
    have htail : MarkerFreeParams params :=
      fun param hparam => h param (List.mem_cons_of_mem _ hparam)
    have hrec := finditer_normalize_paramTags htail
      fun param hparam => hnamed param (List.mem_cons_of_mem _ hparam)
    have hhead := head?_normalize_paramTags htail
    rw [paramTags_cons]
    cases hmalformed : malformedTag name text with
    | none =>
      rw [normalize_paramTag_of_none hname htext (head?_paramTags params) hmalformed]
      have hsplit : paramTag name text ++ normalizeParameterTags (paramTags params)
          = "<parameter=".toList ++ (name ++ '>' :: (text ++ ("</parameter>".toList
            ++ (['\n'] ++ normalizeParameterTags (paramTags params))))) := by
        rw [paramTag_eq]
        simp
      rw [hsplit, finditer_paramTag (hnamed _ List.mem_cons_self) htext.parameterEnd
        (by decide) hhead]
      exact .cons (Or.inl ⟨hmalformed, rfl⟩) hrec
    | some found =>
      obtain ⟨⟨word, value⟩, after⟩ := found
      obtain ⟨hword, hequals, hmem, hvalue⟩ := malformedTag_spec hmalformed
      have hend : ¬ "</parameter>".toList <:+: value := fun hmem =>
        hvalue (hmem.subset (by decide))
      rw [normalize_paramTag_of_some hname htext (head?_paramTags params) hmalformed]
      rw [finditer_paramTag hword hend (parameterStart_notMem_after hname htext hmalformed) hhead]
      refine .cons (Or.inr ⟨?_, hmem, hequals⟩) hrec
      rw [hmalformed]
      exact Option.some_ne_none _

end OpenHands.FnCall
