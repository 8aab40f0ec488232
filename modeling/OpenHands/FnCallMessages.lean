/-
# Single messages

What becomes of one message when it is written and read back, for each role.  A system
message and a call change the text at the end of a content, a result changes its first
text, and the first user message gets an example around it.
-/
import OpenHands.FnCallFormat

namespace OpenHands.FnCall

open PyStr PyRe JsonText

/-! ## The last text of a content -/

theorem SameItem.refl : ∀ item : Item, SameItem item item
  | .text t cacheControl => .text cacheControl (SameText.refl t)
  | .imageUrl url cacheControl => .imageUrl url cacheControl

theorem forall₂_sameItem_refl (items : List Item) : List.Forall₂ SameItem items items :=
  List.forall₂_same.mpr fun item _ => SameItem.refl item

theorem SameContent.refl : ∀ c : Content, SameContent c c
  | .null => .null
  | .str t => .str (SameText.refl t)
  | .items list => .items (forall₂_sameItem_refl list)

theorem rel_of_forall₂_concat {α β : Type*} {R : α → β → Prop} {l : List α} {l' : List β} {a : α}
    {b : β} (h : List.Forall₂ R (l ++ [a]) (l' ++ [b])) : R a b := by
  rw [← List.forall₂_reverse_iff, List.reverse_append, List.reverse_append] at h
  cases h
  assumption

theorem lastText_concat (items : List Item) (t : Text) (cacheControl : Bool) :
    (Content.items (items ++ [.text t cacheControl])).lastText = some t := by
  unfold Content.lastText
  simp only [List.getLast?_concat]

theorem exists_concat_of_lastText {items : List Item} {t : Text}
    (h : (Content.items items).lastText = some t) :
    ∃ (front : List Item) (cacheControl : Bool), items = front ++ [.text t cacheControl] := by
  induction items using List.reverseRecOn with
  | nil => exact absurd h (Option.some_ne_none t).symm
  | append_singleton front item _ =>
    unfold Content.lastText at h
    simp only [List.getLast?_concat] at h
    cases item with
    | text s cacheControl =>
      cases h
      exact ⟨front, cacheControl, rfl⟩
    | imageUrl url cacheControl => exact absurd h (Option.some_ne_none t).symm

theorem mapLastText_concat (f : Text → Text) (items : List Item) (t : Text)
    (cacheControl : Bool) :
    mapLastText f (items ++ [.text t cacheControl])
      = some (items ++ [.text (f t) cacheControl]) := by
  unfold mapLastText
  simp only [List.getLast?_concat, List.dropLast_concat]

theorem mapLastText_eq_none {f : Text → Text} {items : List Item}
    (h : (Content.items items).lastText = none) : mapLastText f items = none := by
  induction items using List.reverseRecOn with
  | nil => rfl
  | append_singleton front item _ =>
    cases item with
    | text s cacheControl =>
      rw [lastText_concat] at h
      cases h
    | imageUrl url cacheControl =>
      unfold mapLastText
      simp only [List.getLast?_concat]

namespace Content

theorem mapLastText_concat (f : Text → Text) (items : List Item) (t : Text)
    (cacheControl : Bool) :
    (Content.items (items ++ [.text t cacheControl])).mapLastText f
      = .items (items ++ [.text (f t) cacheControl]) := by
  change Content.items ((FnCall.mapLastText f _).getD _) = _
  rw [FnCall.mapLastText_concat, Option.getD_some]

theorem mapLastText_of_none {f : Text → Text} {c : Content} (h : c.lastText = none) :
    c.mapLastText f = c := by
  cases c with
  | null => rfl
  | str t => cases h
  | items list =>
    change Content.items ((FnCall.mapLastText f list).getD list) = _
    rw [mapLastText_eq_none h, Option.getD_none]

theorem lastText_mapLastText (f : Text → Text) (c : Content) :
    (c.mapLastText f).lastText = c.lastText.map f := by
  cases c with
  | null => rfl
  | str t => rfl
  | items list =>
    cases hlast : (Content.items list).lastText with
    | none => rw [mapLastText_of_none hlast, hlast, Option.map_none]
    | some t =>
      obtain ⟨front, cacheControl, rfl⟩ := exists_concat_of_lastText hlast
      rw [mapLastText_concat, lastText_concat, Option.map_some]

theorem mapLastText_mapLastText (f g : Text → Text) (c : Content) :
    (c.mapLastText f).mapLastText g = c.mapLastText (g ∘ f) := by
  cases c with
  | null => rfl
  | str t => rfl
  | items list =>
    cases hlast : (Content.items list).lastText with
    | none =>
      rw [mapLastText_of_none hlast, mapLastText_of_none hlast, mapLastText_of_none hlast]
    | some t =>
      obtain ⟨front, cacheControl, rfl⟩ := exists_concat_of_lastText hlast
      rw [mapLastText_concat, mapLastText_concat, mapLastText_concat]
      rfl

/-- Only the last text decides whether a content with another one is the same. -/
theorem sameContent_mapLastText {f : Text → Text} {c : Content} {t : Text}
    (h : c.lastText = some t) : SameContent c (c.mapLastText f) ↔ SameText t (f t) := by
  cases c with
  | null => cases h
  | str s =>
    cases h
    exact ⟨fun hsame => by cases hsame; assumption, fun hsame => .str hsame⟩
  | items list =>
    obtain ⟨front, cacheControl, rfl⟩ := exists_concat_of_lastText h
    rw [mapLastText_concat]
    constructor
    · intro hsame
      cases hsame with
      | items hitems =>
        cases rel_of_forall₂_concat hitems
        assumption
    · intro hsame
      exact .items (List.rel_append (forall₂_sameItem_refl front) (.cons (.text _ hsame) .nil))

theorem mapLastText_eq_self {f : Text → Text} {c : Content} {t : Text} (h : c.lastText = some t)
    (hf : f t = t) : c.mapLastText f = c := by
  cases c with
  | null => rfl
  | str s =>
    cases h
    exact congrArg Content.str hf
  | items list =>
    obtain ⟨front, cacheControl, rfl⟩ := exists_concat_of_lastText h
    rw [mapLastText_concat, hf]

theorem orEmpty_of_lastText {c : Content} {t : Text} (h : c.lastText = some t) : c.orEmpty = c := by
  cases c with
  | null => cases h
  | str s => rfl
  | items list =>
    cases list with
    | nil => cases h
    | cons item list => rfl

theorem mem_texts_of_lastText {c : Content} {t : Text} (h : c.lastText = some t) :
    t ∈ c.texts := by
  cases c with
  | null => cases h
  | str s =>
    cases h
    exact List.mem_singleton_self t
  | items list =>
    obtain ⟨front, cacheControl, rfl⟩ := exists_concat_of_lastText h
    exact List.mem_filterMap.mpr
      ⟨.text t cacheControl, List.mem_append_right _ List.mem_cons_self, rfl⟩

end Content

theorem addText_of_some {f : Text → Text} {new : Text} {c : Content} {t : Text}
    (h : c.lastText = some t) : addText f new c = .ok (c.mapLastText f) := by
  cases c with
  | null => cases h
  | str s => rfl
  | items list =>
    obtain ⟨front, cacheControl, rfl⟩ := exists_concat_of_lastText h
    unfold addText
    rw [Content.mapLastText_concat]
    simp only [mapLastText_concat, Option.getD_some]

/-- A content without a text at its end gets a new one. -/
theorem addText_of_none {f : Text → Text} {new : Text} {c written : Content}
    (h : c.lastText = none) (hadd : addText f new c = .ok written) :
    ∃ items, c = .items items ∧ written = .items (items ++ [.text new false]) := by
  cases c with
  | null => cases hadd
  | str s => cases h
  | items list =>
    unfold addText at hadd
    simp only [mapLastText_eq_none h, Option.getD_none] at hadd
    cases hadd
    exact ⟨list, rfl, rfl⟩

theorem not_sameContent_of_length {items items' : List Item}
    (h : items'.length = items.length + 1) : ¬ SameContent (.items items) (.items items') := by
  intro hsame
  cases hsame with
  | items hitems =>
    have hlength := hitems.length_eq
    omega

/-! ## System messages -/

theorem infix_unlines {line : String} : ∀ {lines : List String}, line ∈ lines →
    line.toList <:+: unlines lines
  | first :: lines, h => by
    unfold unlines
    rw [List.flatMap_cons]
    rcases List.mem_cons.mp h with rfl | h
    · rw [List.append_assoc]
      exact List.infix_append_left
    · exact List.infix_append_of_infix_right (infix_unlines h)

theorem functionStart_infix_suffix (description : Text) :
    "<function=".toList <:+: systemPromptSuffix description := by
  have hline : "<function=example_function_name>".toList <:+: formatOfCalls :=
    infix_unlines (.tail _ (.tail _ (.tail _ (.tail _ (.head _)))))
  have hstart : "<function=".toList <:+: "<function=example_function_name>".toList := by
    rw [String.toList_ofList, String.toList_ofList]
    decide
  exact List.infix_append_of_infix_right (hstart.trans hline)

theorem systemPromptSuffix_eq_cons (description : Text) :
    ∃ rest, systemPromptSuffix description = '\n' :: rest :=
  ⟨_, rfl⟩

/-- The suffix is found behind the text: an earlier place would put the marker, which the
suffix has, before the end of a text that has none. -/
theorem splitHead_systemPromptSuffix {t : Text} (ht : MarkerFree t) (description : Text) :
    splitHead (systemPromptSuffix description) (t ++ systemPromptSuffix description) = t := by
  obtain ⟨rest, hrest⟩ := systemPromptSuffix_eq_cons description
  obtain ⟨⟨u, w⟩, hmarker⟩ := Option.isSome_iff_exists.mp
    (isSome_cut_iff.mpr (functionStart_infix_suffix description))
  obtain ⟨⟨before, after⟩, hcut⟩ := Option.isSome_iff_exists.mp
    (isSome_cut_iff.mpr (show systemPromptSuffix description
      <:+: t ++ systemPromptSuffix description from List.infix_append_right))
  have hsuffix := eq_of_cut hmarker
  have hwhole := eq_of_cut hcut
  have hu : ∃ u', u = '\n' :: u' := by
    cases u with
    | nil =>
      rw [hrest] at hsuffix
      cases hsuffix
    | cons c u' =>
      rw [hrest] at hsuffix
      exact ⟨u', by rw [(List.cons.inj hsuffix).1]⟩
  obtain ⟨u', rfl⟩ := hu
  have hfree : ¬ "<function=".toList <:+: t ++ '\n' :: u' := by
    have hbefore := not_infix_of_cut (by decide) hmarker
    rw [infix_append_cons_iff (by decide) (by decide)]
    rintro (h | h)
    · exact ht.functionStart h
    · exact hbefore (List.infix_cons_iff.mpr (Or.inr h))
  have hfirst : cut "<function=".toList (t ++ systemPromptSuffix description)
      = some (t ++ '\n' :: u', w) := by
    rw [hsuffix, ← List.append_assoc, ← List.append_assoc]
    exact cut_append (by simp) (by simp) hfree w
  have hle : t.length ≤ before.length := by
    have hplace := length_le_of_cut hfirst (x := before ++ '\n' :: u') (y := w ++ after) (by
      rw [hwhole]
      conv_lhs => rw [hsuffix]
      simp)
    rw [List.length_append, List.length_append] at hplace
    omega
  have hge : before.length ≤ t.length :=
    length_le_of_cut hcut (x := t) (y := []) (List.append_nil _).symm
  rw [splitHead_of_cut hcut]
  have hleads : before ++ (systemPromptSuffix description ++ after)
      = t ++ systemPromptSuffix description := by
    rw [hwhole, List.append_assoc]
  exact (List.append_inj hleads (Nat.le_antisymm hge hle)).1

/-- A system message comes back when the description was put behind a text that it had. -/
theorem system_iff {description : Text} {c written : Content}
    (htexts : ∀ t ∈ c.texts, MarkerFree t)
    (hwritten : addSystemPromptSuffix (systemPromptSuffix description) c = .ok written) :
    SameContent c (removeSystemPromptSuffix (systemPromptSuffix description) written.orEmpty)
      ↔ c.lastText.isSome := by
  cases hlast : c.lastText with
  | some t =>
    have hremove := splitHead_systemPromptSuffix
      (htexts t (Content.mem_texts_of_lastText hlast)) description
    unfold addSystemPromptSuffix at hwritten
    rw [addText_of_some hlast] at hwritten
    cases hwritten
    have hwrittenLast := Content.lastText_mapLastText (· ++ systemPromptSuffix description) c
    rw [hlast, Option.map_some] at hwrittenLast
    rw [Content.orEmpty_of_lastText hwrittenLast]
    unfold removeSystemPromptSuffix
    rw [Content.mapLastText_mapLastText, Content.sameContent_mapLastText hlast]
    refine ⟨fun _ => rfl, fun _ => ?_⟩
    rw [Function.comp_apply, hremove]
    exact SameText.refl t
  | none =>
    obtain ⟨items, rfl, rfl⟩ := addText_of_none hlast hwritten
    have hempty : (Content.items (items ++ [Item.text (systemPromptSuffix description)
        false])).orEmpty = .items (items ++ [.text (systemPromptSuffix description) false]) :=
      Content.orEmpty_of_lastText (lastText_concat _ _ _)
    rw [hempty]
    unfold removeSystemPromptSuffix
    rw [Content.mapLastText_concat]
    refine ⟨fun h => absurd h (not_sameContent_of_length ?_), fun h => absurd h Bool.false_ne_true⟩
    rw [List.length_append]
    rfl

end OpenHands.FnCall
