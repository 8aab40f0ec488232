/-
# Messages of the assistant

A message without a call is left alone.  A call is found behind the text that it was put
behind, and comes back with its name and arguments (`call_iff`).
-/
import OpenHands.FnCallMessages
import OpenHands.Lib.Fallible

namespace OpenHands.FnCall

open Fallible PyStr PyRe JsonText

/-! ## Messages without a call -/

theorem markerFree_orEmpty {c : Content} (h : ∀ t ∈ c.texts, MarkerFree t) :
    ∀ t ∈ c.orEmpty.texts, MarkerFree t := by
  cases c with
  | null =>
    intro t ht
    rw [List.mem_singleton.mp ht]
    exact markerFree_nil
  | str s => exact h
  | items list =>
    cases list with
    | nil =>
      intro t ht
      rw [List.mem_singleton.mp ht]
      exact markerFree_nil
    | cons item list => exact h

theorem fixStopword_of_markerFree {t : Text} (h : MarkerFree t) : fixStopword t = t := by
  unfold fixStopword
  rw [if_neg fun hstop => h.functionStart hstop.1]

theorem fixContent_of_markerFree {c : Content} (h : ∀ t ∈ c.texts, MarkerFree t) :
    fixContent c = c := by
  unfold fixContent
  cases hlast : c.lastText with
  | none => exact Content.mapLastText_of_none hlast
  | some t =>
    exact Content.mapLastText_eq_self hlast
      (fixStopword_of_markerFree (h t (Content.mem_texts_of_lastText hlast)))

/-- A message without a call and without the markers is left as it is. -/
theorem readAssistantMessage_of_markerFree {host : Host} {tools : List Tool} {counter : ℕ}
    {c : Content} (h : ∀ t ∈ c.texts, MarkerFree t) :
    readAssistantMessage host tools counter c none = .ok (.assistant c none, counter) := by
  have hempty := markerFree_orEmpty h
  have hsearch : c.orEmpty.lastText.bind fnPattern.search = none := by
    cases hlast : c.orEmpty.lastText with
    | none => rfl
    | some t =>
      exact fnPattern.search_eq_none (hempty t (Content.mem_texts_of_lastText hlast)).functionStart
  have hany : (c.orEmpty.texts.any fun t => (fnPattern.search t).isSome) = false := by
    rw [List.any_eq_false]
    intro t ht
    rw [fnPattern.search_eq_none (hempty t ht).functionStart]
    exact Bool.false_ne_true
  unfold readAssistantMessage
  simp only [fixContent_of_markerFree hempty, hsearch, hany]
  cases c with
  | null => rfl
  | str t => rfl
  | items list =>
    simp only [fixContent_of_markerFree h]
    rfl

/-! ## The text of a call -/

theorem functionTag_eq_cons (name body : Text) :
    ∃ rest, functionTag name body = '<' :: rest :=
  ⟨_, rfl⟩

/-- The whitespace before a call is that before the text. -/
theorem lstrip_append_functionTag (t name body : Text) :
    lstrip (t ++ functionTag name body) = lstrip t ++ functionTag name body := by
  obtain ⟨rest, hrest⟩ := functionTag_eq_cons name body
  rw [hrest]
  exact lstrip_append_of_head (by decide)

/-- A call that is complete gets at most a second end. -/
theorem fixStopword_functionTag (before name body : Text) :
    ∃ tail, fixStopword (before ++ functionTag name body)
      = before ++ (functionTag name body ++ tail) := by
  have hend : ¬ "</".toList <:+ before ++ functionTag name body := by
    have hlast : ∃ front, before ++ functionTag name body = front ++ ['>'] := by
      refine ⟨before ++ ("<function=".toList ++ name ++ ">\n".toList ++ body
        ++ "</function".toList), ?_⟩
      unfold functionTag
      simp
    obtain ⟨front, hfront⟩ := hlast
    rintro ⟨x, hx⟩
    rw [hfront] at hx
    have hget := congrArg List.getLast? hx
    rw [List.getLast?_append_of_ne_nil _ (by decide), List.getLast?_concat] at hget
    exact absurd hget (by decide)
  unfold fixStopword
  split_ifs with hstop
  · exact ⟨"\n</function>".toList, List.append_assoc _ _ _⟩
  · exact ⟨[], by rw [List.append_nil]⟩

/-- What stands before a call is the text that the call was put behind. -/
theorem textBeforeCall_functionTag {before : Text}
    (hbefore : ¬ "<function=".toList <:+: before) (name body tail : Text) :
    textBeforeCall (before ++ (functionTag name body ++ tail)) = strip before := by
  have hsplit : before ++ (functionTag name body ++ tail) = before ++ "<function=".toList
      ++ (name ++ ">\n".toList ++ body ++ "</function>".toList ++ tail) := by
    unfold functionTag
    simp
  unfold textBeforeCall
  rw [hsplit, splitHead_of_cut (cut_append (by simp) (by simp) hbefore _)]

theorem functionStart_notMem_before {t : Text} (h : MarkerFree t) :
    ¬ "<function=".toList <:+: lstrip (t ++ "\n\n".toList) := by
  intro hmem
  have hsuffix : lstrip (t ++ "\n\n".toList) <:+ t ++ "\n\n".toList := List.dropWhile_suffix _
  have hwhole := hmem.trans hsuffix.isInfix
  change "<function=".toList <:+: t ++ '\n' :: ['\n'] at hwhole
  rw [infix_append_cons_iff (by decide) (by decide)] at hwhole
  rcases hwhole with hwhole | hwhole
  · exact h.functionStart hwhole
  · revert hwhole
    decide

theorem sameText_before (t : Text) : SameText t (strip (lstrip (t ++ "\n\n".toList))) := by
  have hblank : SameText (t ++ "\n\n".toList) t := sameText_append_blank (by simp [PyStr.isSpace])
  exact ((sameText_strip _).trans ((sameText_lstrip _).trans hblank)).symm

/-! ## Reading a call -/

/-- The encoder writes a call with the parameters that its arguments have. -/
theorem convertToolCallToString_ok {host : Host} {call : ToolCall} {text : Text}
    (h : convertToolCallToString host call = .ok text) :
    ∃ functionCall args, call.function = some functionCall
      ∧ call.type = some "function".toList
      ∧ loads host.toFloatFormat functionCall.arguments = some (.obj args)
      ∧ text = functionTag functionCall.name (paramTags (callParams host args)) := by
  unfold convertToolCallToString at h
  cases hfunction : call.function with
  | none =>
    rw [hfunction] at h
    cases h
  | some functionCall =>
    rw [hfunction] at h
    simp only at h
    split_ifs at h with hid htype hfunctionType
    have hcall : call.type = some "function".toList := not_not.mp hfunctionType
    cases hargs : loads host.toFloatFormat functionCall.arguments with
    | none =>
      rw [hargs] at h
      cases h
    | some v =>
      rw [hargs] at h
      cases v with
      | obj args =>
        refine ⟨functionCall, args, rfl, hcall, hargs, ?_⟩
        rw [← Except.ok.inj h]
        unfold paramTags callParams
        rw [List.flatMap_map]
      | _ => cases h

/-- The call that is made of what was read. -/
def newCall (host : Host) (counter : ℕ) (name : Text) (params : PyDict String PyJson) : ToolCall where
  index := some 1
  id := some (toolCallId counter)
  type := some "function".toList
  function := some ⟨name, dumps host.toFloatFormat (.obj params.entries)⟩

theorem readCall_ok_iff {host : Host} {tools : List Tool} {counter n : ℕ} {content : Content}
    {name body : Text} {message : Message} :
    readCall host tools counter content (name, body) = .ok (message, n)
      ↔ ∃ function params, findFunction tools name = some function
        ∧ extractAndValidateParams host function
            (paramPattern.finditer (normalizeParameterTags body)) name = .ok params
        ∧ message = .assistant (removeCall content) (some [newCall host counter name params])
        ∧ n = counter + 1 := by
  unfold readCall
  simp only
  cases hfind : findFunction tools name with
  | none =>
    constructor
    · intro h
      cases h
    · rintro ⟨function, params, hfunction, -⟩
      cases hfunction
  | some function =>
    simp only
    rw [map_ok_iff]
    constructor
    · rintro ⟨params, hparams, hread⟩
      cases hread
      exact ⟨function, params, rfl, hparams, rfl, rfl⟩
    · rintro ⟨function', params, hfunction, hparams, rfl, rfl⟩
      cases hfunction
      exact ⟨params, hparams, rfl⟩

/-- What was read as arguments can be written and read again. -/
theorem readable_of_extract {host : Host} {function : Function} {found : List (Text × Text)}
    {fnName : Text} {params : PyDict String PyJson}
    (h : extractAndValidateParams host function found fnName = .ok params) :
    Readable host.toFloatFormat (.obj params.entries) := by
  obtain ⟨pairs, hpairs, hparams⟩ := bind_ok_iff.mp h
  simp only at hparams
  split_ifs at hparams
  have heq : PyDict.ofEntries pairs = params := Except.ok.inj hparams
  refine .obj params.nodup fun entry hentry => ?_
  rw [← heq] at hentry
  obtain ⟨i, hi, rfl⟩ := List.mem_iff_getElem.mp (PyDict.mem_of_mem_ofEntries hentry)
  have hvalidated := mapM_ok_iff.mp hpairs
  have hlt : i < found.length := by
    rw [hvalidated.length_eq]
    exact hi
  have hvalid : validateParam host function fnName found[i] = .ok pairs[i] :=
    (List.forall₂_iff_get.mp hvalidated).2 i hlt hi
  unfold validateParam at hvalid
  simp only at hvalid
  split at hvalid
  · cases hvalid
  · split at hvalid
    · split_ifs at hvalid
    · obtain ⟨v, hv, hin⟩ := bind_ok_iff.mp hvalid
      split_ifs at hin
      rw [← Except.ok.inj hin]
      unfold paramValue at hv
      split_ifs at hv
      · split at hv
        · cases hv
          exact .int _
        · cases hv
      · split at hv
        · next heq' =>
          cases hv
          exact readable_of_loads heq'
        · cases hv
      · cases hv
        exact .str _

/-- A message in which the pattern finds a call is read as this call. -/
theorem readAssistantMessage_of_search {host : Host} {tools : List Tool} {counter : ℕ}
    {written : Content} {t : Text} {found : Text × Text} (hlast : written.lastText = some t)
    (hsearch : fnPattern.search (fixStopword t) = some found) :
    readAssistantMessage host tools counter written none
      = readCall host tools counter (fixContent written) found := by
  have hbind : (fixContent written).lastText.bind fnPattern.search = some found := by
    unfold fixContent
    rw [Content.lastText_mapLastText, hlast, Option.map_some, Option.bind_some, hsearch]
  unfold readAssistantMessage
  simp only [Content.orEmpty_of_lastText hlast, hbind]

/-- A message that is read with a call had one that the pattern finds. -/
theorem search_of_readAssistantMessage {host : Host} {tools : List Tool} {counter n : ℕ}
    {written content : Content} {t : Text} {calls : List ToolCall}
    (hlast : written.lastText = some t)
    (h : readAssistantMessage host tools counter written none
      = .ok (.assistant content (some calls), n)) :
    ∃ found, fnPattern.search (fixStopword t) = some found := by
  cases hsearch : fnPattern.search (fixStopword t) with
  | some found => exact ⟨found, rfl⟩
  | none =>
    have hbind : (fixContent written).lastText.bind fnPattern.search = none := by
      unfold fixContent
      rw [Content.lastText_mapLastText, hlast, Option.map_some, Option.bind_some, hsearch]
    unfold readAssistantMessage at h
    simp only [Content.orEmpty_of_lastText hlast, hbind] at h
    split_ifs at h
    cases written with
    | null => cases hlast
    | str s => cases h
    | items list => cases h

section

variable {host : Host} {tools : List Tool} {counter : ℕ} {c written : Content} {call : ToolCall}
  {text : Text}

/-- The content without its call, when the call was put behind a text. -/
theorem sameContent_removeCall {t name body : Text} (ht : MarkerFree t)
    (hlast : c.lastText = some t)
    (hwritten : addToolCall (functionTag name body) c = .ok written) :
    SameContent c (removeCall (fixContent written)) := by
  unfold addToolCall at hwritten
  rw [addText_of_some hlast] at hwritten
  cases hwritten
  unfold removeCall fixContent
  rw [Content.mapLastText_mapLastText, Content.mapLastText_mapLastText]
  rw [Content.sameContent_mapLastText hlast]
  obtain ⟨tail, htail⟩ := fixStopword_functionTag (lstrip (t ++ "\n\n".toList)) name body
  simp only [Function.comp_apply]
  rw [lstrip_append_functionTag, htail]
  rw [textBeforeCall_functionTag (functionStart_notMem_before ht)]
  exact sameText_before t

/-- The text at the end of what was written for a call. -/
theorem lastText_addToolCall {name body : Text} (htexts : ∀ t ∈ c.texts, MarkerFree t)
    (hwritten : addToolCall (functionTag name body) c = .ok written) :
    ∃ before, ¬ "<function=".toList <:+: before
      ∧ written.lastText = some (before ++ functionTag name body) := by
  unfold addToolCall at hwritten
  cases hlast : c.lastText with
  | some t =>
    rw [addText_of_some hlast] at hwritten
    cases hwritten
    have ht := htexts t (Content.mem_texts_of_lastText hlast)
    refine ⟨lstrip (t ++ "\n\n".toList), functionStart_notMem_before ht, ?_⟩
    rw [Content.lastText_mapLastText, hlast, Option.map_some, lstrip_append_functionTag]
  | none =>
    obtain ⟨items, rfl, rfl⟩ := addText_of_none hlast hwritten
    exact ⟨[], by decide, lastText_concat _ _ _⟩

variable (htexts : ∀ t ∈ c.texts, MarkerFree t)
  (hcall : ∀ functionCall ∈ call.function, WellTyped host tools functionCall)
  (htext : convertToolCallToString host call = .ok text)
  (hwritten : addToolCall text c = .ok written)

include htexts hcall htext hwritten

/-- What a call is read as, if it is read as the same call. -/
theorem call_of_same {message : Message} {n : ℕ}
    (hread : readAssistantMessage host tools counter written none = .ok (message, n))
    (hsame : SameMessage host (.assistant c (some [call])) message) :
    n = counter + 1 ∧ message.callId = some (toolCallId counter)
      ∧ AssistantKept host tools c (some [call]) := by
  obtain ⟨functionCall, args, hfunction, htype, hargs, rfl⟩ := convertToolCallToString_ok htext
  obtain ⟨before, hbefore, hlast⟩ := lastText_addToolCall htexts hwritten
  obtain ⟨tail, htail⟩ := fixStopword_functionTag before functionCall.name
    (paramTags (callParams host args))
  obtain ⟨function, hfind, htyped⟩ := hcall functionCall hfunction
  obtain ⟨hfits, hmarkers⟩ := htyped args hargs
  have hreadable := readable_of_loads hargs
  have hparams : MarkerFreeParams (callParams host args) := by
    intro param hparam
    obtain ⟨arg, harg, rfl⟩ := List.mem_map.mp hparam
    exact ⟨(hmarkers arg harg).1, markerFree_paramText (hmarkers arg harg).2⟩
  cases hsame with
  | call hcontent hsameCall =>
    obtain ⟨⟨name, body⟩, hsearch⟩ := search_of_readAssistantMessage hlast hread
    rw [readAssistantMessage_of_search hlast hsearch, readCall_ok_iff] at hread
    obtain ⟨function', params, hfind', hextract, hmessage, hn⟩ := hread
    injection hmessage with hcontent' hcalls
    cases hcontent'
    cases hcalls
    obtain ⟨hindex, -, f, f', hf, hf', hname, v, hv, hv'⟩ := hsameCall
    rw [hfunction] at hf
    cases hf
    cases hf'
    cases hname
    -- the name that was found is the name that was written, so the call is found as written
    have hnamed := wellNamed_of_search hsearch
    rw [htail, search_functionTag hbefore hnamed (functionEnd_notMem_paramTags hparams)] at hsearch
    cases hsearch
    rw [hfind] at hfind'
    cases hfind'
    rw [hargs] at hv
    cases hv
    rw [loads_dumps _ (readable_of_extract hextract)] at hv'
    have hentries : params.entries = args := by
      injection hv' with hv'
      injection hv'
    cases hreadable with
    | obj hnodup hvalues =>
      have hkept := (extractAndValidateParams_iff hfits hnodup hvalues hparams
        functionCall.name).mp ⟨params, hextract, hentries⟩
      refine ⟨hn, rfl, ?_, hindex, functionCall, function, args, hfunction, hfind, hargs, hnamed,
        hkept⟩
      -- a list without a text at its end would have got another item
      cases hempty : c.lastText with
      | some t => rfl
      | none =>
        unfold addToolCall at hwritten
        obtain ⟨items, rfl, rfl⟩ := addText_of_none hempty hwritten
        refine absurd hcontent ?_
        unfold removeCall fixContent
        rw [Content.mapLastText_concat, Content.mapLastText_concat]
        exact not_sameContent_of_length (by rw [List.length_append]; rfl)

/-- A call comes back exactly when its name and its arguments are read back and it was put
behind a text. -/
theorem call_iff :
    (∃ message n, readAssistantMessage host tools counter written none = .ok (message, n)
        ∧ SameMessage host (.assistant c (some [call])) message)
      ↔ AssistantKept host tools c (some [call]) := by
  constructor
  · rintro ⟨message, n, hread, hsame⟩
    exact (call_of_same htexts hcall htext hwritten hread hsame).2.2
  · rintro ⟨hsome, hindex, functionCall, function, args, hfunction, hfind, hargs, hnamed, hkept⟩
    obtain ⟨t, hlast⟩ := Option.isSome_iff_exists.mp hsome
    obtain ⟨functionCall', args', hfunction', htype, hargs', rfl⟩ :=
      convertToolCallToString_ok htext
    rw [hfunction] at hfunction'
    cases hfunction'
    rw [hargs] at hargs'
    cases hargs'
    obtain ⟨function', hfind', htyped⟩ := hcall functionCall hfunction
    rw [hfind] at hfind'
    cases hfind'
    obtain ⟨hfits, hmarkers⟩ := htyped args hargs
    have hparams : MarkerFreeParams (callParams host args) := by
      intro param hparam
      obtain ⟨arg, harg, rfl⟩ := List.mem_map.mp hparam
      exact ⟨(hmarkers arg harg).1, markerFree_paramText (hmarkers arg harg).2⟩
    obtain ⟨before, hbefore, hwrittenLast⟩ := lastText_addToolCall htexts hwritten
    obtain ⟨tail, htail⟩ := fixStopword_functionTag before functionCall.name
      (paramTags (callParams host args))
    have hsearch : fnPattern.search (fixStopword (before ++ functionTag functionCall.name
        (paramTags (callParams host args))))
          = some (functionCall.name, paramTags (callParams host args)) := by
      rw [htail]
      exact search_functionTag hbefore hnamed (functionEnd_notMem_paramTags hparams) tail
    cases hreadable : readable_of_loads hargs with
    | obj hnodup hvalues =>
      obtain ⟨params, hextract, hentries⟩ := (extractAndValidateParams_iff hfits hnodup hvalues
        hparams functionCall.name).mpr hkept
      refine ⟨.assistant (removeCall (fixContent written))
        (some [newCall host counter functionCall.name params]), counter + 1, ?_, ?_⟩
      · rw [readAssistantMessage_of_search hwrittenLast hsearch, readCall_ok_iff]
        exact ⟨function, params, hfind, hextract, rfl, rfl⟩
      · refine .call (sameContent_removeCall (htexts t (Content.mem_texts_of_lastText hlast))
          hlast hwritten) ?_
        refine ⟨hindex, htype, functionCall, _, hfunction, rfl, rfl, .obj args, hargs, ?_⟩
        rw [← hentries]
        exact loads_dumps _ (readable_of_extract hextract)

end

end OpenHands.FnCall
