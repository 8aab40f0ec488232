/-
# The replacement of secrets

An event is written and queued with the secrets in its strings replaced, except in the
fields of the system at the top.  The replacement goes into dictionaries and not into lists,
so no string in a list may have a secret in it.  In the strings it reaches, a mask may come to
stand beside text with which it spells a secret; where none does, the secrets are hidden
(`secretsHidden_of_spellsNone`).
-/
import OpenHands.Lib.PyDict
import OpenHands.Lib.PyJson
import OpenHands.Lib.PyReplace

namespace OpenHands.Secrets

open PyStr PyReplace

/-- `TOP_LEVEL_PROTECTED_FIELDS`. -/
def topLevelProtectedFields : List String :=
  ["timestamp", "id", "source", "cause", "action", "observation", "message"]

/-- What stands for a secret. -/
def mask : List Char := "<secret_hidden>".toList

/-- A string with every secret replaced, one after another. -/
def hideSecrets (secrets : List String) (s : String) : String :=
  String.ofList (replaceEach (secrets.map String.toList) mask s.toList)

mutual

/-- `EventStream._replace_secrets` on the entries of a dictionary. -/
def replaceSecrets (secrets : List String) (isTopLevel : Bool) :
    List (String × PyJson) → List (String × PyJson)
  | [] => []
  | (key, v) :: entries =>
    (key, if isTopLevel && key ∈ topLevelProtectedFields then v else replaceIn secrets v)
      :: replaceSecrets secrets isTopLevel entries

/-- The value of a key that is not protected. -/
def replaceIn (secrets : List String) : PyJson → PyJson
  | .obj entries => .obj (replaceSecrets secrets false entries)
  | .str s => .str (hideSecrets secrets s)
  | v => v

end

/-- The record that `EventStream.add_event` writes and makes the queued event from. -/
def writtenRecord (secrets : PyDict String String) (data : List (String × PyJson)) :
    List (String × PyJson) :=
  replaceSecrets (secrets.entries.map Prod.snd) true data

/-! ## The strings of an event -/

mutual

/-- The strings of a value, at any depth. -/
def strings : PyJson → List String
  | .str s => [s]
  | .arr items => itemStrings items
  | .obj entries => entryStrings entries
  | _ => []

def itemStrings : List PyJson → List String
  | [] => []
  | v :: items => strings v ++ itemStrings items

def entryStrings : List (String × PyJson) → List String
  | [] => []
  | (_, v) :: entries => strings v ++ entryStrings entries

end

mutual

/-- The strings that stand in a list, at any depth. -/
def listStrings : PyJson → List String
  | .arr items => itemStrings items
  | .obj entries => entryListStrings entries
  | _ => []

def entryListStrings : List (String × PyJson) → List String
  | [] => []
  | (_, v) :: entries => listStrings v ++ entryListStrings entries

end

mutual

/-- The strings that stand in no list: those in which secrets are replaced. -/
def plainStrings : PyJson → List String
  | .str s => [s]
  | .obj entries => entryPlainStrings entries
  | _ => []

def entryPlainStrings : List (String × PyJson) → List String
  | [] => []
  | (_, v) :: entries => plainStrings v ++ entryPlainStrings entries

end

/-- The entries whose key is not protected. -/
def unprotected (data : List (String × PyJson)) : List (String × PyJson) :=
  data.filter fun entry => entry.1 ∉ topLevelProtectedFields

/-- The entries whose key is protected. -/
def protectedEntries (data : List (String × PyJson)) : List (String × PyJson) :=
  data.filter fun entry => entry.1 ∈ topLevelProtectedFields

/-- No string has a secret in it. -/
def NoSecretIn (secrets : List String) (texts : List String) : Prop :=
  ∀ text ∈ texts, ∀ secret ∈ secrets, ¬ secret.toList <:+: text.toList

/-- No string outside the protected fields has a secret in it, and the protected fields are
those of the event. -/
structure SecretsHidden (secrets : List String) (data written : List (String × PyJson)) :
    Prop where
  hidden : NoSecretIn secrets (entryStrings (unprotected written))
  kept : protectedEntries written = protectedEntries data

/-! ## What the replacement reaches -/

section

variable {secrets : List String}

/-- The fields of the system stay as they are. -/
theorem protectedEntries_replaceSecrets (data : List (String × PyJson)) :
    protectedEntries (replaceSecrets secrets true data) = protectedEntries data := by
  induction data with
  | nil => rfl
  | cons entry data ih =>
    obtain ⟨key, v⟩ := entry
    unfold protectedEntries at *
    rw [replaceSecrets]
    by_cases hkey : key ∈ topLevelProtectedFields
    · rw [List.filter_cons_of_pos (by simpa using hkey),
        List.filter_cons_of_pos (by simpa using hkey), ih]
      simp [hkey]
    · rw [List.filter_cons_of_neg (by simpa using hkey),
        List.filter_cons_of_neg (by simpa using hkey), ih]

/-- The other fields are treated like those of a dictionary further down. -/
theorem unprotected_replaceSecrets (data : List (String × PyJson)) :
    unprotected (replaceSecrets secrets true data)
      = replaceSecrets secrets false (unprotected data) := by
  induction data with
  | nil => rfl
  | cons entry data ih =>
    obtain ⟨key, v⟩ := entry
    unfold unprotected at *
    rw [replaceSecrets]
    by_cases hkey : key ∈ topLevelProtectedFields
    · rw [List.filter_cons_of_neg (by simpa using hkey),
        List.filter_cons_of_neg (by simpa using hkey), ih]
    · rw [List.filter_cons_of_pos (by simpa using hkey),
        List.filter_cons_of_pos (by simpa using hkey), ih, replaceSecrets]
      simp [hkey]

mutual

/-- What stands in lists is not reached. -/
theorem listStrings_replaceIn : ∀ v : PyJson, listStrings (replaceIn secrets v) = listStrings v
  | .null => rfl
  | .bool _ => rfl
  | .int _ => rfl
  | .float _ => rfl
  | .str _ => rfl
  | .arr _ => rfl
  | .obj entries => entryListStrings_replaceSecrets entries

theorem entryListStrings_replaceSecrets : ∀ entries : List (String × PyJson),
    entryListStrings (replaceSecrets secrets false entries) = entryListStrings entries
  | [] => rfl
  | (key, v) :: entries => by
    rw [replaceSecrets, entryListStrings, entryListStrings]
    change listStrings (replaceIn secrets v) ++ _ = _
    rw [listStrings_replaceIn v, entryListStrings_replaceSecrets entries]

end

mutual

theorem listStrings_subset : ∀ v : PyJson, listStrings v ⊆ strings v
  | .null => List.nil_subset _
  | .bool _ => List.nil_subset _
  | .int _ => List.nil_subset _
  | .float _ => List.nil_subset _
  | .str _ => List.nil_subset _
  | .arr items => List.Subset.refl (itemStrings items)
  | .obj entries => entryListStrings_subset entries

theorem entryListStrings_subset : ∀ entries : List (String × PyJson),
    entryListStrings entries ⊆ entryStrings entries
  | [] => List.nil_subset _
  | (key, v) :: entries => by
    rw [entryListStrings, entryStrings]
    intro text htext
    rcases List.mem_append.mp htext with h | h
    · exact List.mem_append_left _ (listStrings_subset v h)
    · exact List.mem_append_right _ (entryListStrings_subset entries h)

end

mutual

/-- A string stands in a list, or the secrets in it are replaced. -/
theorem mem_strings_replaceIn {text : String} : ∀ {v : PyJson},
    text ∈ strings (replaceIn secrets v) →
      text ∈ listStrings v ∨ ∃ s ∈ plainStrings v, text = hideSecrets secrets s
  | .null, h => absurd h List.not_mem_nil
  | .bool _, h => absurd h List.not_mem_nil
  | .int _, h => absurd h List.not_mem_nil
  | .float _, h => absurd h List.not_mem_nil
  | .str s, h => Or.inr ⟨s, List.mem_singleton_self s, List.mem_singleton.mp h⟩
  | .arr _, h => Or.inl h
  | .obj _, h => mem_entryStrings_replaceSecrets h

theorem mem_entryStrings_replaceSecrets {text : String} : ∀ {entries : List (String × PyJson)},
    text ∈ entryStrings (replaceSecrets secrets false entries) →
      text ∈ entryListStrings entries ∨
        ∃ s ∈ entryPlainStrings entries, text = hideSecrets secrets s
  | [], h => absurd h List.not_mem_nil
  | (key, v) :: entries, h => by
    rw [replaceSecrets, entryStrings] at h
    change text ∈ strings (replaceIn secrets v) ++ _ at h
    rw [entryListStrings, entryPlainStrings]
    rcases List.mem_append.mp h with h | h
    · rcases mem_strings_replaceIn h with h | ⟨s, hs, rfl⟩
      · exact Or.inl (List.mem_append_left _ h)
      · exact Or.inr ⟨s, List.mem_append_left _ hs, rfl⟩
    · rcases mem_entryStrings_replaceSecrets h with h | ⟨s, hs, rfl⟩
      · exact Or.inl (List.mem_append_right _ h)
      · exact Or.inr ⟨s, List.mem_append_right _ hs, rfl⟩

end

/-- No secret is left in a string in which the mask spells none. -/
theorem not_infix_hideSecrets (hne : ∀ secret ∈ secrets, secret ≠ "") {s : String}
    (hclear : SpellsNone (secrets.map String.toList) mask s.toList) {secret : String}
    (hsecret : secret ∈ secrets) : ¬ secret.toList <:+: (hideSecrets secrets s).toList := by
  unfold hideSecrets
  rw [String.toList_ofList]
  refine not_infix_replaceEach ?_ (List.Subset.refl _) hclear (List.mem_map_of_mem hsecret)
  intro pat hpat
  obtain ⟨t, ht, rfl⟩ := List.mem_map.mp hpat
  rw [Ne, String.toList_eq_nil_iff]
  exact hne t ht

end

/-- A record that is written with its secrets hidden has none in its lists. -/
theorem noSecretIn_lists {secrets : List String} {data : List (String × PyJson)}
    (h : SecretsHidden secrets data (replaceSecrets secrets true data)) :
    NoSecretIn secrets (entryListStrings (unprotected data)) := by
  have hhidden := h.hidden
  rw [unprotected_replaceSecrets] at hhidden
  intro text htext
  rw [← entryListStrings_replaceSecrets] at htext
  exact hhidden text (entryListStrings_subset _ htext)

/-- **The secrets are hidden** when no string in a list has one and the masks in the other
strings spell none; the first is necessary. -/
theorem secretsHidden_of_spellsNone {secrets : PyDict String String}
    (hne : ∀ secret ∈ secrets.entries.map Prod.snd, secret ≠ "")
    (data : List (String × PyJson)) :
    (NoSecretIn (secrets.entries.map Prod.snd) (entryListStrings (unprotected data)) ∧
        (∀ text ∈ entryPlainStrings (unprotected data),
          SpellsNone ((secrets.entries.map Prod.snd).map String.toList) mask text.toList) →
      SecretsHidden (secrets.entries.map Prod.snd) data (writtenRecord secrets data)) ∧
    (SecretsHidden (secrets.entries.map Prod.snd) data (writtenRecord secrets data) →
      NoSecretIn (secrets.entries.map Prod.snd) (entryListStrings (unprotected data))) := by
  refine ⟨?_, noSecretIn_lists⟩
  rintro ⟨hlists, hclear⟩
  refine ⟨?_, protectedEntries_replaceSecrets data⟩
  unfold writtenRecord
  rw [unprotected_replaceSecrets]
  intro text htext secret hsecret
  rcases mem_entryStrings_replaceSecrets htext with hlist | ⟨s, hs, rfl⟩
  · exact hlists text hlist secret hsecret
  · exact not_infix_hideSecrets hne (hclear s hs) hsecret

/-- A mask that spells a secret with the text in front of it. -/
example : hideSecrets ["x<"] "xx<" = "x<secret_hidden>" := by decide

/-! ## A task list -/

/-- A secret without brackets is apart from the mask when it is not in it. -/
theorem apart_of_notMem {s : List Char} (hopen : '<' ∉ s) (hclose : '>' ∉ s)
    (hin : ¬ s <:+: mask) : Apart s mask where
  notIn := hin
  notAround h := hopen (h.subset (by decide))
  notBefore u v huv hv hleads := by
    obtain ⟨c, v, rfl⟩ := List.exists_cons_of_ne_nil hv
    have hc : c = '<' := (List.cons_prefix_cons.mp hleads).1
    exact hopen (by rw [huv, ← hc]; simp)
  notAfter u v huv hu hsuffix := by
    obtain ⟨front, hfront⟩ := hsuffix
    have hlast : u.getLast? = some '>' := by
      rw [← List.getLast?_append_of_ne_nil front hu, hfront]
      rfl
    exact hclose (by rw [huv]; exact List.mem_append_left v (List.mem_of_getLast? hlast))

def apiKey : PyDict String String := .ofEntries [("API_KEY", "sk-123")]

theorem apiKey_ne : ∀ secret ∈ apiKey.entries.map Prod.snd, secret ≠ "" := by
  decide

theorem apiKey_apart : ∀ secret ∈ apiKey.entries.map Prod.snd, Apart secret.toList mask := by
  intro secret hsecret
  rw [List.mem_singleton.mp hsecret]
  refine apart_of_notMem (by decide) (by decide) ?_
  unfold mask
  simp only [String.reduceToList]
  decide

/-- The record of a task list with one task. -/
def taskRecord (thought title : String) : List (String × PyJson) :=
  [("action", .str "task_tracking"),
    ("args", .obj [
      ("thought", .str thought),
      ("task_list", .arr [.obj [("title", .str title)]])])]

/-- A secret that overlaps the mask. -/
def overlapping : PyDict String String := .ofEntries [("API_KEY", "x<")]

theorem overlapping_ne : ∀ secret ∈ overlapping.entries.map Prod.snd, secret ≠ "" := by
  decide

/-- A secret in the thought is masked; one that overlaps the mask does no harm where it does
not occur. -/
theorem secretsHidden_thought :
    SecretsHidden (apiKey.entries.map Prod.snd) (taskRecord "call with sk-123" "call")
        (writtenRecord apiKey (taskRecord "call with sk-123" "call")) ∧
      SecretsHidden (overlapping.entries.map Prod.snd) (taskRecord "hello" "call")
        (writtenRecord overlapping (taskRecord "hello" "call")) := by
  refine ⟨(secretsHidden_of_spellsNone apiKey_ne _).1 ⟨?_, ?_⟩,
    (secretsHidden_of_spellsNone overlapping_ne _).1 ⟨?_, ?_⟩⟩
  · intro text htext secret hsecret
    rw [List.mem_singleton.mp htext, List.mem_singleton.mp hsecret]
    simp only [String.reduceToList]
    decide
  · intro text _
    refine spellsNone_of_apart ?_ _
    intro pat hpat
    obtain ⟨secret, hsecret, rfl⟩ := List.mem_map.mp hpat
    exact apiKey_apart secret hsecret
  · intro text htext secret hsecret
    rw [List.mem_singleton.mp htext, List.mem_singleton.mp hsecret]
    simp only [String.reduceToList]
    decide
  · intro text htext
    apply spellsNone_of_absent
    intro pat hpat
    rw [List.mem_singleton.mp htext, List.mem_singleton.mp hpat]
    simp only [String.reduceToList]
    decide

/-- The title of a task stands in a list: a secret in it is written. -/
theorem not_secretsHidden_title :
    (∀ secret ∈ apiKey.entries.map Prod.snd, secret ≠ "" ∧ Apart secret.toList mask)
      ∧ ¬ SecretsHidden (apiKey.entries.map Prod.snd) (taskRecord "" "call with sk-123")
          (writtenRecord apiKey (taskRecord "" "call with sk-123")) := by
  refine ⟨fun secret hsecret => ⟨apiKey_ne secret hsecret, apiKey_apart secret hsecret⟩,
    fun h => ?_⟩
  have htitle : "call with sk-123" ∈ entryListStrings
      (unprotected (taskRecord "" "call with sk-123")) := List.mem_singleton_self _
  have hsecret : "sk-123" ∈ apiKey.entries.map Prod.snd := List.mem_singleton_self _
  refine noSecretIn_lists h _ htitle _ hsecret ?_
  simp only [String.reduceToList]
  decide

end OpenHands.Secrets
