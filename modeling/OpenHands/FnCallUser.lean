/-
# Messages of the user's role

The first user message gets an example around its text, and results are told from user
messages by their header.  Taking away the example where it was not put shows in the
visible characters of a text, so a text comes back only where nothing is taken away.
-/
import OpenHands.FnCallAssistant
import OpenHands.Lib.Fallible

namespace OpenHands.FnCall

open Fallible PyStr PyRe JsonText

/-! ## The example -/

theorem refinePrompt_exampleStart (host : Host) (t : Text) :
    ∃ rest, refinePrompt host (lstrip (exampleStart ++ t)) = 'H' :: rest := by
  obtain ⟨rest, hrest⟩ : ∃ rest, exampleStart = 'H' :: rest := by
    unfold exampleStart unlines
    rw [List.flatMap_cons, String.toList_ofList]
    exact ⟨_, rfl⟩
  rw [hrest, List.cons_append, lstrip_of_head (fun c hc => by cases hc; decide)]
  unfold refinePrompt
  split_ifs
  · unfold replaceAll
    rw [Pattern.sub_cons_of_none]
    · exact ⟨_, rfl⟩
    · rfl
  · exact ⟨_, rfl⟩

/-- An example begins with the same letter for all tools. -/
theorem getExampleForTools_cases (host : Host) (tools : List Tool) :
    getExampleForTools host tools = []
      ∨ ∃ rest, getExampleForTools host tools = 'H' :: rest := by
  unfold getExampleForTools
  simp only [List.append_assoc]
  split
  · exact Or.inr (refinePrompt_exampleStart host _)
  · exact Or.inl rfl

theorem ink_example {host : Host} {tools : List Tool} (h : getExampleForTools host tools ≠ []) :
    ink (getExampleForTools host tools) ≠ [] := by
  rcases getExampleForTools_cases host tools with hnil | ⟨rest, hrest⟩
  · exact absurd hnil h
  · rw [hrest, Ne, ink_eq_nil_iff]
    exact fun hall => absurd (hall 'H' List.mem_cons_self) (by decide)

theorem ink_inContextLearningExampleSuffix : ink inContextLearningExampleSuffix ≠ [] := by
  have hmem : '-' ∈ inContextLearningExampleSuffix := by
    refine List.mem_flatMap.mpr ⟨_, .tail _ (.head _), List.mem_append_left _ ?_⟩
    rw [String.toList_ofList]
    exact .head _
  rw [Ne, ink_eq_nil_iff]
  exact fun hall => absurd (hall '-' hmem) (by decide)

/-- What is taken out of a text is missing among its visible characters. -/
theorem ink_replaceFirst {pat t : Text} (h : pat <:+: t) :
    (ink t).length = (ink (replaceFirst pat [] t)).length + (ink pat).length := by
  obtain ⟨⟨before, after⟩, hcut⟩ := Option.isSome_iff_exists.mp (isSome_cut_iff.mpr h)
  rw [replaceFirst_of_cut hcut]
  conv_lhs => rw [eq_of_cut hcut]
  simp only [ink_append, List.length_append, List.append_nil]
  omega

theorem removeExample_of_untouched {sample t : Text} (h : Untouched sample t) :
    removeExample sample t = t := by
  have hfirst : (if sample <+: t then replaceFirst sample [] t else t) = t := by
    rcases h.1 with hnil | hnot
    · rw [hnil, if_pos List.nil_prefix, replaceFirst_nil_nil]
    · rw [if_neg hnot]
  unfold removeExample
  rw [hfirst]
  exact if_neg h.2

/-- A text comes back from the removal of the example only when nothing is removed. -/
theorem untouched_of_same {sample t : Text} (hink : sample = [] ∨ ink sample ≠ [])
    (h : SameText t (removeExample sample t)) : Untouched sample t := by
  have hlength := congrArg List.length h.ink_eq
  have hsample : sample = [] ∨ ¬ sample <+: t := by
    rcases hink with hnil | hink
    · exact Or.inl hnil
    · refine Or.inr fun hleads => ?_
      have hpos := List.length_pos_of_ne_nil hink
      have hfirst := ink_replaceFirst hleads.isInfix
      unfold removeExample at hlength
      simp only [if_pos hleads] at hlength
      split_ifs at hlength with hsuffix
      · have hsecond := ink_replaceFirst hsuffix.isInfix
        omega
      · omega
  refine ⟨hsample, fun hsuffix => ?_⟩
  have hfirst : (if sample <+: t then replaceFirst sample [] t else t) = t := by
    rcases hsample with hnil | hnot
    · rw [hnil, if_pos List.nil_prefix, replaceFirst_nil_nil]
    · rw [if_neg hnot]
  have hpos := List.length_pos_of_ne_nil ink_inContextLearningExampleSuffix
  have hsecond := ink_replaceFirst hsuffix.isInfix
  unfold removeExample at hlength
  rw [hfirst] at hlength
  simp only [if_pos hsuffix] at hlength
  omega

/-- Around the first text the example is found where it was put. -/
theorem removeExample_around {sample : Text} (hne : sample ≠ []) (t : Text) :
    removeExample sample (sample ++ t ++ inContextLearningExampleSuffix)
      = replaceFirst inContextLearningExampleSuffix []
          (t ++ inContextLearningExampleSuffix) := by
  unfold removeExample
  rw [List.append_assoc, if_pos (List.prefix_append _ _), replaceFirst_append_left hne]
  dsimp only
  rw [List.nil_append, if_pos (List.suffix_append t _)]

/-! ## Results -/

theorem resultHeader_notMem_of_same {s t : Text} (hs : MarkerFree s) (h : SameText s t) :
    ¬ "EXECUTION RESULT of [".toList <:+: t := by
  have hends : (∀ c ∈ "EXECUTION RESULT of [".toList.head?, PyStr.isSpace c = false)
      ∧ ∀ c ∈ "EXECUTION RESULT of [".toList.getLast?, PyStr.isSpace c = false := by
    constructor
    · intro c hc
      cases hc
      decide
    · intro c hc
      cases hc
      decide
  rw [← infix_strip_iff (by decide) hends.1 hends.2, ← h]
  rw [infix_strip_iff (by decide) hends.1 hends.2]
  exact hs.resultHeader

/-- Texts without the header are no results. -/
theorem readUserMessage_of_texts {host : Host} {tools : List Tool} {state : ReadState}
    {content read : Content}
    (hread : (if state.firstUserMessageEncountered then content.orEmpty
      else content.orEmpty.mapTexts (removeExample (getExampleForTools host tools))) = read)
    (htexts : ∀ t ∈ read.texts, ¬ "EXECUTION RESULT of [".toList <:+: t) :
    readUserMessage host tools state content = .user read := by
  have hnone : read.texts.findSome? toolResultPattern.search = none := by
    rw [List.findSome?_eq_none_iff]
    intro t ht
    exact toolResultPattern.search_eq_none (htexts t ht)
  unfold readUserMessage
  simp only [hread, hnone]

/-- What is read as a user message is the content that was looked at. -/
theorem content_of_readUserMessage {host : Host} {tools : List Tool} {state : ReadState}
    {content content' : Content} (h : readUserMessage host tools state content = .user content') :
    content' = if state.firstUserMessageEncountered then content.orEmpty
      else content.orEmpty.mapTexts (removeExample (getExampleForTools host tools)) := by
  unfold readUserMessage at h
  simp only at h
  split at h
  · exact (Message.user.inj h).symm
  · cases h

/-! ## User messages -/

theorem exists_mem_texts_of_same {c c' : Content} (h : SameContent c c') :
    ∀ t ∈ c'.texts, ∃ s ∈ c.texts, SameText s t := by
  cases h with
  | null => exact fun t ht => absurd ht List.not_mem_nil
  | str hsame =>
    intro t ht
    rw [List.mem_singleton.mp ht]
    exact ⟨_, List.mem_singleton_self _, hsame⟩
  | items hitems =>
    intro t ht
    unfold Content.texts at ht ⊢
    simp only at ht ⊢
    induction hitems with
    | nil => exact absurd ht List.not_mem_nil
    | cons hitem _ ih =>
      cases hitem with
      | text cacheControl hsame =>
        rw [List.filterMap_cons] at ht ⊢
        rcases List.mem_cons.mp ht with rfl | ht
        · exact ⟨_, List.mem_cons_self, hsame⟩
        · obtain ⟨s, hs, hst⟩ := ih ht
          exact ⟨s, List.mem_cons_of_mem _ hs, hst⟩
      | imageUrl url cacheControl =>
        rw [List.filterMap_cons] at ht ⊢
        exact ih ht

/-- A user message comes back when the content that is looked at is the same. -/
theorem sameMessage_readUserMessage_iff {host : Host} {tools : List Tool} {state : ReadState}
    {c written read : Content} (htexts : ∀ t ∈ c.texts, MarkerFree t)
    (hread : (if state.firstUserMessageEncountered then written.orEmpty
      else written.orEmpty.mapTexts (removeExample (getExampleForTools host tools))) = read) :
    SameMessage host (.user c) (readUserMessage host tools state written)
      ↔ SameContent c read := by
  constructor
  · intro h
    generalize hmessage : readUserMessage host tools state written = message at h
    cases h with
    | user hsame =>
      rw [content_of_readUserMessage hmessage, hread] at hsame
      exact hsame
  · intro h
    have hnone : ∀ t ∈ read.texts, ¬ "EXECUTION RESULT of [".toList <:+: t := by
      intro t ht
      obtain ⟨s, hs, hsame⟩ := exists_mem_texts_of_same h t ht
      exact resultHeader_notMem_of_same (htexts s hs) hsame
    rw [readUserMessage_of_texts hread hnone]
    exact .user h

theorem sameContent_orEmpty_iff {c : Content} : SameContent c c.orEmpty ↔ c.orEmpty = c := by
  constructor
  · intro h
    cases c with
    | null => cases h
    | str t => rfl
    | items list =>
      cases list with
      | nil => cases h
      | cons item list => rfl
  · intro h
    rw [h]
    exact SameContent.refl c

theorem sameContent_cons_iff {item item' : Item} {items items' : List Item} :
    SameContent (.items (item :: items)) (.items (item' :: items'))
      ↔ SameItem item item' ∧ SameContent (.items items) (.items items') := by
  constructor
  · intro h
    cases h with
    | items h =>
      rw [List.forall₂_cons] at h
      exact ⟨h.1, .items h.2⟩
  · rintro ⟨hitem, h⟩
    cases h with
    | items h => exact .items (.cons hitem h)

theorem forall₂_mapTexts_iff {f : Text → Text} : ∀ {items : List Item},
    SameContent (.items items) ((Content.items items).mapTexts f)
      ↔ ∀ t ∈ (Content.items items).texts, SameText t (f t)
  | [] => ⟨fun _ t ht => absurd ht List.not_mem_nil, fun _ => .items .nil⟩
  | item :: items => by
    have hrec : SameContent (.items items) ((Content.items items).mapTexts f)
        ↔ ∀ t ∈ (Content.items items).texts, SameText t (f t) := forall₂_mapTexts_iff
    cases item with
    | text t cacheControl =>
      change SameContent (.items (.text t cacheControl :: items)) (.items
        (.text (f t) cacheControl :: _)) ↔ ∀ s ∈ t :: (Content.items items).texts, SameText s (f s)
      rw [sameContent_cons_iff, List.forall_mem_cons]
      refine and_congr ⟨fun h => ?_, fun h => .text cacheControl h⟩ hrec
      cases h
      assumption
    | imageUrl url cacheControl =>
      change SameContent (.items (.imageUrl url cacheControl :: items)) (.items
        (.imageUrl url cacheControl :: _)) ↔ ∀ s ∈ (Content.items items).texts, SameText s (f s)
      rw [sameContent_cons_iff, and_iff_right (.imageUrl url cacheControl)]
      exact hrec

theorem sameContent_mapTexts_orEmpty_iff {f : Text → Text} {c : Content} :
    SameContent c (c.orEmpty.mapTexts f)
      ↔ c.orEmpty = c ∧ ∀ t ∈ c.texts, SameText t (f t) := by
  cases c with
  | null =>
    constructor
    · intro h
      cases h
    · rintro ⟨h, -⟩
      cases h
  | str t =>
    constructor
    · intro h
      cases h
      refine ⟨rfl, fun s hs => ?_⟩
      rw [List.mem_singleton.mp hs]
      assumption
    · intro h
      exact .str (h.2 t (List.mem_singleton_self t))
  | items list =>
    cases list with
    | nil =>
      constructor
      · intro h
        cases h
      · rintro ⟨h, -⟩
        cases h
    | cons item list =>
      exact ⟨fun h => ⟨rfl, forall₂_mapTexts_iff.mp h⟩, fun h => forall₂_mapTexts_iff.mpr h.2⟩

theorem length_eq_of_sameContent_mapTexts {f : Text → Text} {items items' : List Item}
    (h : SameContent (.items items) ((Content.items items').mapTexts f)) :
    items.length = items'.length := by
  cases h with
  | items h =>
    have hlength := h.length_eq
    rw [List.length_map] at hlength
    exact hlength

/-- A text that got something visible is another text. -/
theorem not_sameText_around {sample : Text} (hink : ink sample ≠ []) (t : Text) :
    ¬ SameText t (sample ++ t ++ inContextLearningExampleSuffix) := by
  intro h
  have hlength := congrArg List.length h.ink_eq
  have hpos := List.length_pos_of_ne_nil hink
  simp only [ink_append, List.length_append] at hlength
  omega

section

variable {host : Host} {tools : List Tool} {state : ReadState} {c written : Content}

/-- What the first user message comes back as, when it got an example. -/
theorem exampleRemoved_iff (hne : getExampleForTools host tools ≠ [])
    (hwritten : addExample (getExampleForTools host tools) c = .ok written) :
    SameContent c (written.orEmpty.mapTexts (removeExample (getExampleForTools host tools)))
      ↔ ExampleRemoved (getExampleForTools host tools) c := by
  cases c with
  | null => cases hwritten
  | str t =>
    cases hwritten
    change SameContent _ (.str (removeExample _ _)) ↔ _
    rw [removeExample_around hne]
    exact ⟨fun h => by cases h; assumption, fun h => .str h⟩
  | items list =>
    have hother : ∀ list : List Item, ¬ SameContent (.items list)
        ((Content.items ([.text (getExampleForTools host tools) false] ++ list
          ++ [.text inContextLearningExampleSuffix false])).mapTexts
            (removeExample (getExampleForTools host tools))) := by
      intro list h
      have hlength := length_eq_of_sameContent_mapTexts h
      rw [List.length_append, List.length_append] at hlength
      simp only [List.length_singleton] at hlength
      omega
    cases list with
    | nil =>
      cases hwritten
      exact iff_of_false (hother []) not_false
    | cons item list =>
      cases item with
      | imageUrl url cacheControl =>
        cases hwritten
        exact iff_of_false (hother _) not_false
      | text t cacheControl =>
        cases hwritten
        have hrest : SameContent (.items list) ((Content.items list).mapTexts
            (removeExample (getExampleForTools host tools)))
              ↔ ∀ u ∈ (Content.items list).texts,
                Untouched (getExampleForTools host tools) u := by
          rw [forall₂_mapTexts_iff]
          refine forall₂_congr fun u hu => ⟨untouched_of_same (Or.inr (ink_example hne)), ?_⟩
          intro h
          rw [removeExample_of_untouched h]
          exact SameText.refl u
        change SameContent _ (.items (.text (removeExample _ _) cacheControl :: _))
          ↔ SuffixRemoved t ∧ ∀ u ∈ (Content.items list).texts,
            Untouched (getExampleForTools host tools) u
        rw [← hrest, removeExample_around hne]
        constructor
        · intro h
          cases h with
          | items h =>
            cases h with
            | cons hitem hitems =>
              cases hitem with
              | text _ hsame => exact ⟨hsame, .items hitems⟩
        · rintro ⟨hsame, h⟩
          cases h with
          | items hitems => exact .items (.cons (.text cacheControl hsame) hitems)

/-- An example that is not removed shows. -/
theorem not_sameContent_addExample (hne : getExampleForTools host tools ≠ [])
    (hwritten : addExample (getExampleForTools host tools) c = .ok written) :
    ¬ SameContent c written.orEmpty := by
  have hink := ink_example hne
  have hother : ∀ list : List Item, ¬ SameContent (.items list)
      (.items ([.text (getExampleForTools host tools) false] ++ list
        ++ [.text inContextLearningExampleSuffix false])) := by
    intro list h
    cases h with
    | items h =>
      have hlength := h.length_eq
      rw [List.length_append, List.length_append] at hlength
      simp only [List.length_singleton] at hlength
      omega
  cases c with
  | null => cases hwritten
  | str t =>
    cases hwritten
    intro h
    cases h with
    | str h => exact not_sameText_around hink t h
  | items list =>
    cases list with
    | nil =>
      cases hwritten
      exact hother []
    | cons item list =>
      cases item with
      | imageUrl url cacheControl =>
        cases hwritten
        exact hother _
      | text t cacheControl =>
        cases hwritten
        intro h
        cases h with
        | items h =>
          cases h with
          | cons hitem _ =>
            cases hitem with
            | text _ h => exact not_sameText_around hink t h

/-- A user message comes back exactly when it is kept. -/
theorem user_iff {suffix : Text} {asked answered : Bool}
    (hstate : state.firstUserMessageEncountered = (asked || answered))
    (htexts : ∀ t ∈ c.texts, MarkerFree t)
    (hwritten : convertFncallMessage host tools suffix true asked (.user c)
      = .ok (.user written)) :
    SameMessage host (.user c) (readUserMessage host tools state written)
      ↔ UserKept (getExampleForTools host tools) asked answered c := by
  rw [sameMessage_readUserMessage_iff htexts rfl, hstate]
  unfold UserKept
  cases asked with
  | true =>
    cases hwritten
    rw [Bool.true_or, if_pos rfl, sameContent_orEmpty_iff]
    simp
  | false =>
    rw [Bool.false_or]
    by_cases hnil : getExampleForTools host tools = []
    · have heq : written = c := by
        simp only [convertFncallMessage] at hwritten
        rw [if_neg (by simp [hnil])] at hwritten
        cases hwritten
        rfl
      rw [heq, hnil]
      cases answered with
      | true =>
        rw [if_pos rfl, sameContent_orEmpty_iff]
        simp
      | false =>
        rw [if_neg Bool.false_ne_true, sameContent_mapTexts_orEmpty_iff]
        have huntouched : (∀ t ∈ c.texts, SameText t (removeExample [] t))
            ↔ ∀ t ∈ c.texts, Untouched [] t := by
          refine forall₂_congr fun t _ => ⟨untouched_of_same (Or.inl rfl), fun h => ?_⟩
          rw [removeExample_of_untouched h]
          exact SameText.refl t
        rw [huntouched]
        simp
    · have hadd : addExample (getExampleForTools host tools) c = .ok written := by
        simp only [convertFncallMessage] at hwritten
        rw [if_pos (by simp [hnil]), map_ok_iff] at hwritten
        obtain ⟨content, hcontent, hmessage⟩ := hwritten
        cases hmessage
        exact hcontent
      cases answered with
      | true =>
        rw [if_pos rfl]
        simp [not_sameContent_addExample hnil hadd, hnil]
      | false =>
        rw [if_neg Bool.false_ne_true, exampleRemoved_iff hnil hadd]
        have hempty : ExampleRemoved (getExampleForTools host tools) c → c.orEmpty = c := by
          intro h
          cases c with
          | null => exact absurd h not_false
          | str t => rfl
          | items list =>
            cases list with
            | nil => exact absurd h not_false
            | cons item list => rfl
        constructor
        · exact fun h => ⟨hempty h, Or.inr (Or.inr ⟨hnil, rfl, h⟩)⟩
        · rintro ⟨-, h | h | h⟩
          · exact absurd h Bool.false_ne_true
          · exact absurd h.1 hnil
          · exact h.2.2

end

/-! ## Results of tools -/

/-- The pattern of a result takes the header apart. -/
theorem search_resultHeader {name : Text} (h : ¬ "]:\n".toList <:+: name) (t : Text) :
    toolResultPattern.search (resultHeader name ++ t) = some (name, t) := by
  have hfollow : toolResultPattern.follow (name ++ "]:\n".toList ++ t) = some ((name, t), []) := by
    change (cut "]:\n".toList _).map _ = _
    rw [cut_append (by simp) (by simp) h]
    rfl
  have hmatch : toolResultPattern.matchStart (resultHeader name ++ t) = some ((name, t), []) := by
    have hsplit : resultHeader name ++ t
        = toolResultPattern.lead ++ (name ++ "]:\n".toList ++ t) := by
      change "EXECUTION RESULT of [".toList ++ name ++ "]:\n".toList ++ t
        = "EXECUTION RESULT of [".toList ++ (name ++ "]:\n".toList ++ t)
      simp only [List.append_assoc]
    rw [hsplit, toolResultPattern.matchStart_append, hfollow]
  unfold Pattern.search
  rw [toolResultPattern.finditer_of_some hmatch]
  rfl

/-- What the pattern of a result finds stands behind the header. -/
theorem eq_of_search_result {x name t : Text}
    (h : toolResultPattern.search x = some (name, t)) :
    ¬ "]:\n".toList <:+: name ∧ ∃ before, x = before ++ (resultHeader name ++ t) := by
  obtain ⟨before, s, rest, rfl, hmatch⟩ := toolResultPattern.exists_match_of_search h
  obtain ⟨s', rfl, hfollow⟩ := toolResultPattern.eq_of_matchStart hmatch
  obtain ⟨parts, hcut, hparts⟩ := Option.map_eq_some_iff.mp hfollow
  cases hparts
  refine ⟨not_infix_of_cut (by decide) hcut, before, ?_⟩
  rw [eq_of_cut hcut]
  change before ++ ("EXECUTION RESULT of [".toList ++ _) = _
  unfold resultHeader
  simp only [List.append_assoc]

/-- A result does not look like a text with the example before it. -/
theorem example_not_leading (host : Host) (tools : List Tool) (name t : Text) :
    getExampleForTools host tools = []
      ∨ ¬ getExampleForTools host tools <+: resultHeader name ++ t := by
  rcases getExampleForTools_cases host tools with hnil | ⟨rest, hrest⟩
  · exact Or.inl hnil
  · refine Or.inr fun h => ?_
    rw [hrest] at h
    exact absurd (List.cons_prefix_cons.mp h).1 (by decide)

section

variable {host : Host} {tools : List Tool} {state : ReadState}

/-- The text that is searched for a header. -/
def searchedText (host : Host) (tools : List Tool) (state : ReadState) (t : Text) : Text :=
  if state.firstUserMessageEncountered then t
  else removeExample (getExampleForTools host tools) t

/-- A content of one text, as an item of a list or by itself. -/
def oneText (asItem : Bool) (t : Text) : Content :=
  if asItem then .items [.text t false] else .str t

theorem readContent_oneText (asItem : Bool) (t : Text) :
    (if state.firstUserMessageEncountered then (oneText asItem t).orEmpty
      else (oneText asItem t).orEmpty.mapTexts (removeExample (getExampleForTools host tools)))
      = oneText asItem (searchedText host tools state t) := by
  unfold searchedText
  cases asItem <;> split_ifs <;> rfl

theorem texts_oneText (asItem : Bool) (t : Text) : (oneText asItem t).texts = [t] := by
  cases asItem <;> rfl

theorem sameContent_oneText_iff {asItem : Bool} {s t : Text} :
    SameContent (oneText asItem s) (oneText asItem t) ↔ SameText s t := by
  cases asItem with
  | true =>
    constructor
    · intro h
      cases h with
      | items h =>
        cases h with
        | cons hitem _ =>
          cases hitem
          assumption
    · exact fun h => .items (.cons (.text false h) .nil)
  | false => exact ⟨fun h => by cases h; assumption, fun h => .str h⟩

/-- Only one text is the same as one text. -/
theorem eq_oneText_of_same {asItem : Bool} {c : Content} {t : Text}
    (h : SameContent c (oneText asItem t)) : ∃ s, c = oneText asItem s ∧ SameText s t := by
  cases asItem with
  | true =>
    generalize hone : oneText true t = content at h
    cases h with
    | null => cases hone
    | str _ => cases hone
    | items h =>
      injection hone with hone
      rw [← hone] at h
      cases h with
      | cons hitem hrest =>
        cases hrest
        cases hitem with
        | text _ hsame => exact ⟨_, rfl, hsame⟩
  | false =>
    generalize hone : oneText false t = content at h
    cases h with
    | null => cases hone
    | items _ => cases hone
    | str hsame =>
      injection hone with hone
      rw [← hone] at hsame
      exact ⟨_, rfl, hsame⟩

theorem readUserMessage_oneText {asItem : Bool} {t : Text} {found : Text × Text}
    (h : toolResultPattern.search (searchedText host tools state t) = some found) :
    readUserMessage host tools state (oneText asItem t)
      = .tool (oneText asItem (strip found.2)) (some found.1)
          (some (toolCallId (state.toolCallCounter - 1))) false := by
  unfold readUserMessage
  simp only [readContent_oneText, texts_oneText, List.findSome?_singleton, h]
  cases asItem <;> rfl

/-- A message that is read as a result is one text, under the name that was found. -/
theorem found_of_readUserMessage {written content : Content} {name id : Option Text}
    {cacheControl : Bool}
    (h : readUserMessage host tools state written = .tool content name id cacheControl) :
    cacheControl = false ∧ id = some (toolCallId (state.toolCallCounter - 1))
      ∧ ∃ asItem found, name = some found.1 ∧ content = oneText asItem (strip found.2)
        ∧ ((if state.firstUserMessageEncountered then written.orEmpty
          else written.orEmpty.mapTexts (removeExample (getExampleForTools host tools))).texts.findSome?
            toolResultPattern.search = some found) := by
  unfold readUserMessage at h
  simp only at h
  split at h
  · cases h
  · next found hfound =>
    injection h with hcontent hname hid hcache
    refine ⟨hcache.symm, hid.symm, ?_⟩
    split at hcontent
    · exact ⟨true, found, hname.symm, hcontent.symm, hfound⟩
    · exact ⟨false, found, hname.symm, hcontent.symm, hfound⟩

theorem addResultHeader_oneText (header : Text) (asItem : Bool) (t : Text) :
    addResultHeader header (oneText asItem t) = .ok (oneText asItem (header ++ t)) := by
  cases asItem <;> rfl

/-- What a result of one text is written as. -/
theorem convertFncallMessage_oneText {suffix : Text} {asked asItem : Bool} {t : Text}
    {name id : Option Text} {written : Content}
    (h : convertFncallMessage host tools suffix true asked (.tool (oneText asItem t) name id false)
      = .ok (.user written)) :
    written = oneText asItem (resultHeader (name.getD "function".toList) ++ t) := by
  simp only [convertFncallMessage, addResultHeader_oneText] at h
  cases h
  rfl

/-- The name and the text of a result, where nothing is taken for the example's suffix. -/
theorem search_searchedText {name t : Text} (hname : ¬ "]:\n".toList <:+: name)
    (hfirst : state.firstUserMessageEncountered = true
      ∨ ¬ inContextLearningExampleSuffix <:+ resultHeader name ++ t) :
    toolResultPattern.search (searchedText host tools state (resultHeader name ++ t))
      = some (name, t) := by
  have htext : searchedText host tools state (resultHeader name ++ t) = resultHeader name ++ t := by
    unfold searchedText
    split_ifs with hencountered
    · rfl
    · rcases hfirst with hfirst | hfirst
      · exact absurd hfirst hencountered
      · exact removeExample_of_untouched ⟨example_not_leading host tools name t, hfirst⟩
  rw [htext, search_resultHeader hname]

/-- A result that is found again did not lose anything to the example's suffix. -/
theorem not_suffix_of_search {name s t : Text} (hsame : SameText s (strip t))
    (h : toolResultPattern.search (searchedText host tools state (resultHeader name ++ s))
      = some (name, t)) :
    ¬ "]:\n".toList <:+: name ∧ (state.firstUserMessageEncountered = true
      ∨ ¬ inContextLearningExampleSuffix <:+ resultHeader name ++ s) := by
  obtain ⟨hname, before, hbefore⟩ := eq_of_search_result h
  refine ⟨hname, ?_⟩
  by_cases hencountered : state.firstUserMessageEncountered = true
  · exact Or.inl hencountered
  · refine Or.inr fun hsuffix => ?_
    have hsample : (if getExampleForTools host tools <+: resultHeader name ++ s
        then replaceFirst (getExampleForTools host tools) [] (resultHeader name ++ s)
        else resultHeader name ++ s) = resultHeader name ++ s := by
      rcases example_not_leading host tools name s with hnil | hnot
      · rw [hnil, if_pos List.nil_prefix, replaceFirst_nil_nil]
      · rw [if_neg hnot]
    have htext : searchedText host tools state (resultHeader name ++ s)
        = replaceFirst inContextLearningExampleSuffix [] (resultHeader name ++ s) := by
      unfold searchedText removeExample
      rw [if_neg hencountered, hsample]
      exact if_pos hsuffix
    have hpos := List.length_pos_of_ne_nil ink_inContextLearningExampleSuffix
    have hink := ink_replaceFirst hsuffix.isInfix
    have hlength := congrArg List.length hsame.ink_eq
    rw [ink_strip] at hlength
    rw [← htext, hbefore] at hink
    simp only [ink_append, List.length_append] at hink
    omega

/-- A result comes back exactly when it is kept, and then under the number of the call made
last. -/
theorem tool_iff {suffix : Text} {asked answered : Bool} {c written : Content}
    {name id : Option Text} {cacheControl : Bool}
    (hstate : state.firstUserMessageEncountered = (asked || answered))
    (hwritten : convertFncallMessage host tools suffix true asked (.tool c name id cacheControl)
      = .ok (.user written)) :
    SameMessage host (.tool c name id cacheControl) (readUserMessage host tools state written)
      ↔ ToolKept (asked || answered) c name cacheControl := by
  constructor
  · intro h
    generalize hmessage : readUserMessage host tools state written = message at h
    cases h with
    | tool hsame _ _ id' _ =>
      obtain ⟨hcache, -, asItem, found, hname, hcontent, hfound⟩ :=
        found_of_readUserMessage hmessage
      rw [hcontent] at hsame
      obtain ⟨s, rfl, hst⟩ := eq_oneText_of_same hsame
      rw [hcache] at hwritten
      rw [convertFncallMessage_oneText hwritten, hname, Option.getD_some, readContent_oneText,
        texts_oneText, List.findSome?_singleton] at hfound
      obtain ⟨hfree, hfirst⟩ := not_suffix_of_search hst hfound
      rw [hstate] at hfirst
      refine ⟨hcache, found.1, s, hname, hfree, ?_, hfirst⟩
      cases asItem
      · exact Or.inl rfl
      · exact Or.inr rfl
  · rintro ⟨rfl, n, t, rfl, hfree, hcontent, hfirst⟩
    have hone : ∃ asItem, c = oneText asItem t := by
      rcases hcontent with rfl | rfl
      · exact ⟨false, rfl⟩
      · exact ⟨true, rfl⟩
    obtain ⟨asItem, rfl⟩ := hone
    rw [← hstate] at hfirst
    rw [convertFncallMessage_oneText hwritten, Option.getD_some]
    rw [readUserMessage_oneText (search_searchedText hfree hfirst)]
    exact .tool (sameContent_oneText_iff.mpr (sameText_strip t).symm) _ _ _ _

end

end OpenHands.FnCall
