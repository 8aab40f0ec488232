/-
# Keys in the settings

`SaasSettingsStore` (enterprise/storage/saas_settings_store.py) keeps the keys of a user encrypted
with Fernet and then in base64.  A key that is not in base64 counts as one of the time before
they were encrypted, and is passed on as it is.  `POST /api/settings` (server/routes/settings.py)
loads the settings, keeps the keys that the request does not set, and stores them.
-/
import Mathlib
import OpenHands.BatchOperation
import OpenHands.Lib.Base64
import OpenHands.Lib.PyDict
import OpenHands.Lib.PyStr

namespace OpenHands.EncryptedSettings

open WebHook (b64encode)

/-- `Fernet` with a key: `encrypt` draws the initialization vector. -/
structure Fernet where
  encrypt : ℕ → ByteArray → ByteArray
  decrypt : ByteArray → Option ByteArray

/-- What the tokens of a key are good for: a token decrypts to what was encrypted, and nothing else
decrypts. -/
structure Fernet.Authentic (fernet : Fernet) : Prop where
  decrypt_encrypt : ∀ iv data, fernet.decrypt (fernet.encrypt iv data) = some data
  exists_of_decrypt : ∀ token data, fernet.decrypt token = some data →
    ∃ iv, token = fernet.encrypt iv data

/-- A value of the settings. -/
inductive Value
  | null
  | str (text : String)
  | secretStr (text : String)
  | dict (entries : List (String × Value))
  | other (repr : String)

/-- What is raised. -/
inductive Raised
  | invalidToken
  | unicodeDecodeError
  | attributeError
  | databaseError
  deriving DecidableEq, Repr

/-- `_should_encrypt`. -/
def shouldEncrypt (key : String) : Bool :=
  key = "llm_api_key" || key = "llm_api_key_for_byor" || key = "search_api_key"

/-- `base64.b64decode(value.encode())`, if it raises no `binascii.Error`. -/
def b64decode? (text : String) : Option ByteArray :=
  (Base64.decode text.toList).map fun data => ⟨data.toArray⟩

/-- What is kept of a key. -/
def decryptText (fernet : Fernet) (text : String) : Except Raised String :=
  match b64decode? text with
  | none => .ok text
  | some token =>
    match fernet.decrypt token with
    | none => .error .invalidToken
    | some data =>
      match String.fromUTF8? data with
      | none => .error .unicodeDecodeError
      | some plain => .ok plain

/-- The body of the loop of `_decrypt_kwargs`. -/
def decryptValue (fernet : Fernet) (key : String) (value : Value) : Except Raised Value :=
  if shouldEncrypt key then
    match value with
    | .null => .ok .null
    | .str text =>
      -- a text in the old format stays as it is
      (decryptText fernet text).map .str
    | .secretStr text =>
      match b64decode? text with
      | none => .ok (.secretStr text)
      | some _ => (decryptText fernet text).map .str
    | .dict _ => .error .attributeError
    | .other _ => .error .attributeError
  else .ok value

/-- `_decrypt_kwargs`. -/
def decryptKwargs (fernet : Fernet) : List (String × Value) → Except Raised (List (String × Value))
  | [] => .ok []
  | (key, value) :: kwargs =>
    match decryptValue fernet key value with
    | .error raised => .error raised
    | .ok value =>
      match decryptKwargs fernet kwargs with
      | .error raised => .error raised
      | .ok kwargs => .ok ((key, value) :: kwargs)

/-- A key as it is kept. -/
def encryptText (fernet : Fernet) (iv : ℕ) (text : String) : String :=
  b64encode (fernet.encrypt iv text.toUTF8)

mutual

/-- The body of the loop of `_encrypt_kwargs`. -/
def encryptValue (fernet : Fernet) (iv : String → ℕ) (key : String) : Value → Except Raised Value
  | .null => .ok .null
  | .dict entries =>
    match encryptKwargs fernet iv entries with
    | .error raised => .error raised
    | .ok entries => .ok (.dict entries)
  | .str text => .ok (.str (if shouldEncrypt key then encryptText fernet (iv key) text else text))
  | .secretStr text =>
    .ok (if shouldEncrypt key then .str (encryptText fernet (iv key) text) else .secretStr text)
  | .other repr => if shouldEncrypt key then .error .attributeError else .ok (.other repr)

/-- `_encrypt_kwargs`. -/
def encryptKwargs (fernet : Fernet) (iv : String → ℕ) :
    List (String × Value) → Except Raised (List (String × Value))
  | [] => .ok []
  | (key, value) :: kwargs =>
    match encryptValue fernet iv key value with
    | .error raised => .error raised
    | .ok value =>
      match encryptKwargs fernet iv kwargs with
      | .error raised => .error raised
      | .ok kwargs => .ok ((key, value) :: kwargs)

end

/-! ## Settings and rows -/

/-- `Settings`: the two keys (`SecretStr | None`), and the other fields by their names. -/
structure Settings where
  llmApiKey : Option String := none
  searchApiKey : Option String := none
  others : PyDict String Value := .empty
  others_keys : ∀ key ∈ others.keys, key ≠ "llm_api_key" ∧ key ≠ "search_api_key"

/-- A row of `user_settings`. -/
structure UserSettings where
  columns : PyDict String Value
  userVersion : ℤ

/-- `CURRENT_USER_SETTINGS_VERSION`. -/
def currentUserSettingsVersion : ℤ := 4

/-- What the store works with: the key of Fernet, the names of the columns and of the fields of
`Settings`, and the settings of a user without current ones. -/
structure Store where
  fernet : Fernet
  columns : List String
  fields : List String
  createDefaultSettings : Option UserSettings →
    Except Raised (Option Settings × Option UserSettings)
  llmApiKey_mem : "llm_api_key" ∈ columns ∧ "llm_api_key" ∈ fields
  searchApiKey_mem : "search_api_key" ∈ columns ∧ "search_api_key" ∈ fields
  byor_notMem : "llm_api_key_for_byor" ∉ fields

/-- `api_key_serializer` with `expose_secrets`. -/
def serializeApiKey (apiKey : Option String) : Value :=
  match apiKey with
  | none => .null
  | some text => if PyStr.isBlank text then .null else .str text

/-- `model_dump(context={'expose_secrets': True})`. -/
def Settings.modelDump (self : Settings) : List (String × Value) :=
  ("llm_api_key", serializeApiKey self.llmApiKey)
    :: ("search_api_key", serializeApiKey self.searchApiKey) :: self.others.entries

/-- The text of a key. -/
def apiKeyOf : Value → Option String
  | .str text => some text
  | .secretStr text => some text
  | _ => none

/-- `Settings(**kwargs)`. -/
def Settings.ofKwargs (kwargs : List (String × Value)) : Settings where
  llmApiKey := ((PyDict.ofEntries kwargs).get? "llm_api_key").bind apiKeyOf
  searchApiKey := ((PyDict.ofEntries kwargs).get? "search_api_key").bind apiKeyOf
  others := (PyDict.ofEntries kwargs).filterKeys fun key =>
    key ≠ "llm_api_key" && key ≠ "search_api_key"
  others_keys key hkey := by
    have hsome := PyDict.isSome_get?_iff.mpr hkey
    rw [PyDict.get?_filterKeys] at hsome
    split_ifs at hsome with h
    · simpa using h
    · cases hsome

/-- Setting the columns one after the other. -/
def setAll (columns : PyDict String Value) (kwargs : List (String × Value)) : PyDict String Value :=
  kwargs.foldl (fun columns entry => columns.set entry.1 entry.2) columns

namespace Store

variable (self : Store)

/-- `load`: the settings, and the row afterwards. -/
def load (row : Option UserSettings) : Except Raised (Option Settings × Option UserSettings) :=
  match row with
  | none => self.createDefaultSettings none
  | some settings =>
    if settings.userVersion ≠ currentUserSettingsVersion then
      self.createDefaultSettings (some settings)
    else
      let kwargs := settings.columns.entries.filter fun entry => entry.1 ∈ self.fields
      match decryptKwargs self.fernet kwargs with
      | .error raised => .error raised
      | .ok kwargs => .ok (some (.ofKwargs kwargs), some settings)

/-- `store`; `committed` says whether the database takes the row. -/
def store (iv : String → ℕ) (committed : Bool) (item : Settings) (row : Option UserSettings) :
    Except Raised UserSettings :=
  match encryptKwargs self.fernet iv item.modelDump with
  | .error raised => .error raised
  | .ok kwargs =>
    let kwargs := kwargs.filter fun entry => entry.1 ∈ self.columns
    if committed then
      .ok {
        columns := setAll (match row with
          | some existing => existing.columns
          | none => .empty) kwargs
        userVersion := currentUserSettingsVersion }
    else .error .databaseError

end Store

/-! ## `POST /api/settings` -/

/-- The other fields that a request keeps when it does not set them. -/
def keptFields : List String := ["llm_model", "llm_base_url", "user_consents_to_analytics"]

/-- A value that is `None`. -/
def Value.isNull : Value → Bool
  | .null => true
  | _ => false

/-- The other fields of the request, with those of the existing settings that it does not set. -/
def keepFields (fields existing : PyDict String Value) : PyDict String Value where
  entries := fields.entries.map fun entry =>
    (entry.1, if entry.1 ∈ keptFields ∧ entry.2.isNull then (existing.get? entry.1).getD .null
      else entry.2)
  nodup := by
    rw [List.map_map]
    exact fields.nodup

theorem keys_keepFields (fields existing : PyDict String Value) :
    (keepFields fields existing).keys = fields.keys := by
  unfold keepFields PyDict.keys
  rw [List.map_map]
  rfl

/-- `store_llm_settings` and what `store_settings` keeps besides. -/
def Settings.keepExisting (self existing : Settings) : Settings where
  llmApiKey := self.llmApiKey <|> existing.llmApiKey
  searchApiKey := self.searchApiKey <|> existing.searchApiKey
  others := keepFields self.others existing.others
  others_keys key hkey := self.others_keys key (keys_keepFields self.others existing.others ▸ hkey)

/-- A request. -/
structure Request where
  settings : Settings
  iv : String → ℕ
  committed : Bool

/-- `store_settings`: whether it answers with 200, and the row afterwards. -/
def Store.post (self : Store) (row : Option UserSettings) (request : Request) :
    Bool × Option UserSettings :=
  match self.load row with
  | .error _ => (false, row)
  | .ok (existing, row) =>
    let settings := match existing with
      | some existing => request.settings.keepExisting existing
      | none => request.settings
    match self.store request.iv request.committed settings row with
    | .error _ => (false, row)
    | .ok settings => (true, some settings)

/-- The requests of a user, one after the other: the answers, and the row afterwards. -/
def Store.posts (self : Store) (row : Option UserSettings) :
    List Request → List Bool × Option UserSettings
  | [] => ([], row)
  | request :: requests =>
    let (stored, row) := self.post row request
    let (answers, row) := self.posts row requests
    (stored :: answers, row)

/-! ## One key -/

section Keys

variable {fernet : Fernet}

theorem b64decode?_b64encode (data : ByteArray) : b64decode? (b64encode data) = some data := by
  unfold b64decode? b64encode
  rw [String.toList_ofList, Base64.decode_encode]
  rfl

/-- What was encrypted is decrypted. -/
theorem decryptText_encryptText (h : fernet.Authentic) (iv : ℕ) (text : String) :
    decryptText fernet (encryptText fernet iv text) = .ok text := by
  unfold decryptText encryptText
  rw [b64decode?_b64encode]
  dsimp only
  rw [h.decrypt_encrypt]
  dsimp only
  rw [WebHook.fromUTF8?_toUTF8]

/-- The characters of base64 in a text. -/
def inkOf (text : List Char) : ℕ := text.countP (· ∈ Base64.alphabet)

/-- Without padding a text is read as base64 when its characters fill whole groups. -/
theorem isSome_decodeFrom {text : List Char} (hpad : '=' ∉ text) :
    ∀ quad < 4, ∀ left pads, (Base64.decodeFrom quad left pads text).isSome ↔
      (quad + inkOf text) % 4 = 0 := by
  induction text with
  | nil =>
      intro quad hquad left pads
      unfold Base64.decodeFrom inkOf
      by_cases h : quad = 0
      · rw [if_pos h, h]
        exact iff_of_true rfl rfl
      · rw [if_neg h]
        exact iff_of_false (by simp) (by simp; omega)
  | cons c cs ih =>
      intro quad hquad left pads
      have hc : c ≠ '=' := fun h => hpad (h ▸ List.mem_cons_self)
      have hrest := ih fun h => hpad (List.mem_cons_of_mem _ h)
      unfold inkOf
      rw [List.countP_cons]
      change _ ↔ (quad + (inkOf cs + _)) % 4 = 0
      rw [Base64.decodeFrom.eq_def]
      dsimp only
      rw [if_neg hc]
      by_cases hink : c ∈ Base64.alphabet
      · have hvalue : Base64.value? c = some (Base64.alphabet.idxOf c) := if_pos hink
        rw [hvalue, if_pos (decide_eq_true hink)]
        obtain rfl | rfl | rfl | rfl : quad = 0 ∨ quad = 1 ∨ quad = 2 ∨ quad = 3 := by omega
        · show (Base64.decodeFrom 1 _ 0 cs).isSome ↔ _
          rw [hrest 1 (by omega)]
          omega
        · show ((Base64.decodeFrom 2 _ 0 cs).map _).isSome ↔ _
          rw [Option.isSome_map, hrest 2 (by omega)]
          omega
        · show ((Base64.decodeFrom 3 _ 0 cs).map _).isSome ↔ _
          rw [Option.isSome_map, hrest 3 (by omega)]
          omega
        · show ((Base64.decodeFrom 0 0 0 cs).map _).isSome ↔ _
          rw [Option.isSome_map, hrest 0 (by omega)]
          omega
      · have hvalue : Base64.value? c = none := if_neg hink
        rw [hvalue, if_neg (by simpa using hink)]
        exact hrest quad hquad left pads

/-- A key in the old format is passed on exactly when its characters of base64 do not fill whole
groups; otherwise it is taken for a token. -/
theorem b64decode?_eq_none_iff {text : String} (hpad : '=' ∉ text.toList) :
    b64decode? text = none ↔ inkOf text.toList % 4 ≠ 0 := by
  have hsome := isSome_decodeFrom hpad 0 (by omega) 0 0
  rw [Nat.zero_add] at hsome
  unfold b64decode? Base64.decode
  rw [Option.map_eq_none_iff, ← Option.not_isSome_iff_eq_none, hsome]

end Keys

/-! ## The lists of keys and values -/

section Kwargs

variable {fernet : Fernet} {iv : String → ℕ} {kwargs out : List (String × Value)} {key : String}
  {value : Value}

/-- What is decrypted, entry by entry. -/
theorem decryptKwargs_eq_ok_iff : decryptKwargs fernet kwargs = .ok out ↔
    List.Forall₂ (fun entry entry' => entry'.1 = entry.1 ∧
      decryptValue fernet entry.1 entry.2 = .ok entry'.2) kwargs out := by
  induction kwargs generalizing out with
  | nil =>
      rw [List.forall₂_nil_left_iff]
      constructor
      · intro h
        cases h
        rfl
      · rintro rfl
        rfl
  | cons entry kwargs ih =>
      obtain ⟨key, value⟩ := entry
      rw [List.forall₂_cons_left_iff]
      unfold decryptKwargs
      cases hvalue : decryptValue fernet key value with
      | error raised =>
          refine iff_of_false (fun h => by cases h) ?_
          rintro ⟨entry', out', ⟨-, h⟩, -, -⟩
          cases h
      | ok value' =>
          dsimp only
          cases hrest : decryptKwargs fernet kwargs with
          | error raised =>
              refine iff_of_false (fun h => by cases h) ?_
              rintro ⟨entry', out', -, h, -⟩
              rw [← ih, hrest] at h
              cases h
          | ok rest =>
              constructor
              · intro h
                cases h
                exact ⟨(key, value'), rest, ⟨rfl, rfl⟩, ih.mp hrest, rfl⟩
              · rintro ⟨⟨key', value''⟩, out', ⟨hkey, h⟩, hout, rfl⟩
                rw [← ih, hrest] at hout
                cases hkey
                cases h
                cases hout
                rfl

/-- All entries can be decrypted, or the whole fails. -/
theorem exists_decryptKwargs_iff : (∃ out, decryptKwargs fernet kwargs = .ok out) ↔
    ∀ entry ∈ kwargs, ∃ value, decryptValue fernet entry.1 entry.2 = .ok value := by
  simp only [decryptKwargs_eq_ok_iff]
  induction kwargs with
  | nil => exact iff_of_true ⟨[], List.Forall₂.nil⟩ (fun entry h => absurd h List.not_mem_nil)
  | cons entry kwargs ih =>
      rw [List.forall_mem_cons, ← ih]
      constructor
      · rintro ⟨out, hout⟩
        obtain ⟨entry', out', ⟨-, h⟩, hrest, -⟩ := List.forall₂_cons_left_iff.mp hout
        exact ⟨⟨entry'.2, h⟩, out', hrest⟩
      · rintro ⟨⟨value, h⟩, out, hout⟩
        exact ⟨(entry.1, value) :: out, List.Forall₂.cons ⟨rfl, h⟩ hout⟩

theorem keys_of_decryptKwargs (h : decryptKwargs fernet kwargs = .ok out) :
    out.map Prod.fst = kwargs.map Prod.fst := by
  have hall := decryptKwargs_eq_ok_iff.mp h
  clear h
  induction hall with
  | nil => rfl
  | cons hentry _ ih => rw [List.map_cons, List.map_cons, ih, hentry.1]

/-- The value of a key, decrypted. -/
theorem get?_of_decryptKwargs (hnodup : (kwargs.map Prod.fst).Nodup)
    (h : decryptKwargs fernet kwargs = .ok out) (hmem : (key, value) ∈ kwargs) :
    ∃ value', decryptValue fernet key value = .ok value' ∧
      (PyDict.ofEntries out).get? key = some value' := by
  have hout : (out.map Prod.fst).Nodup := by
    rw [keys_of_decryptKwargs h]
    exact hnodup
  have hexists : ∃ entry ∈ out, entry.1 = key ∧ decryptValue fernet key value = .ok entry.2 := by
    have hall := decryptKwargs_eq_ok_iff.mp h
    clear h hnodup hout
    induction hall with
    | nil => cases hmem
    | cons hentry _ ih =>
        rcases List.mem_cons.mp hmem with heq | hmem
        · rw [← heq] at hentry
          exact ⟨_, List.mem_cons_self, hentry⟩
        · obtain ⟨entry, hentry, hvalue⟩ := ih hmem
          exact ⟨entry, List.mem_cons_of_mem _ hentry, hvalue⟩
  obtain ⟨⟨key', value'⟩, hentry, rfl, hvalue⟩ := hexists
  refine ⟨value', hvalue, PyDict.get?_eq_some_iff.mpr ?_⟩
  rw [PyDict.entries_ofEntries hout]
  exact hentry

theorem encryptKwargs_cons (entry : String × Value)
    (h : encryptKwargs fernet iv (entry :: kwargs) = .ok out) :
    ∃ value out', encryptValue fernet iv entry.1 entry.2 = .ok value ∧
      encryptKwargs fernet iv kwargs = .ok out' ∧ out = (entry.1, value) :: out' := by
  obtain ⟨key, value⟩ := entry
  unfold encryptKwargs at h
  cases hvalue : encryptValue fernet iv key value with
  | error raised =>
      rw [hvalue] at h
      cases h
  | ok value' =>
      rw [hvalue] at h
      dsimp only at h
      cases hrest : encryptKwargs fernet iv kwargs with
      | error raised =>
          rw [hrest] at h
          cases h
      | ok rest =>
          rw [hrest] at h
          cases h
          exact ⟨value', rest, rfl, rfl, rfl⟩

theorem keys_of_encryptKwargs (h : encryptKwargs fernet iv kwargs = .ok out) :
    out.map Prod.fst = kwargs.map Prod.fst := by
  induction kwargs generalizing out with
  | nil =>
      unfold encryptKwargs at h
      cases h
      rfl
  | cons entry kwargs ih =>
      obtain ⟨value, out', -, hrest, rfl⟩ := encryptKwargs_cons entry h
      rw [List.map_cons, List.map_cons, ih hrest]

theorem get?_setAll_of_notMem {columns : PyDict String Value} (h : key ∉ kwargs.map Prod.fst) :
    (setAll columns kwargs).get? key = columns.get? key := by
  induction kwargs generalizing columns with
  | nil => rfl
  | cons entry kwargs ih =>
      rw [List.map_cons, List.mem_cons, not_or] at h
      show (setAll (columns.set entry.1 entry.2) kwargs).get? key = _
      rw [ih h.2, PyDict.get?_set, if_neg h.1]

end Kwargs

/-! ## Storing and loading -/

section Stores

variable {self : Store} {iv : String → ℕ} {committed : Bool} {item settings : Settings}
  {row : Option UserSettings} {current stored : UserSettings} {name : String}

/-- A key that is shown: a blank one counts as none. -/
def visible (apiKey : Option String) : Option String := apiKey.filter fun text => !PyStr.isBlank text

/-- The key of a name. -/
def Settings.apiKey (self : Settings) (name : String) : Option String :=
  if name = "llm_api_key" then self.llmApiKey else self.searchApiKey

/-- The two names. -/
def IsApiKey (name : String) : Prop := name = "llm_api_key" ∨ name = "search_api_key"

/-- The value of a column. -/
def UserSettings.column (self : UserSettings) (name : String) : Value :=
  (self.columns.get? name).getD .null

/-- What is loaded from the column of a key. -/
def Store.loadsAs (self : Store) (row : UserSettings) (name : String) (apiKey : Option String) :
    Prop :=
  ∃ value, decryptValue self.fernet name (row.column name) = .ok value ∧ apiKeyOf value = apiKey

theorem shouldEncrypt_of_isApiKey (h : IsApiKey name) : shouldEncrypt name = true := by
  rcases h with rfl | rfl
  · decide
  · decide

/-- A column that is not one of the two keys is loaded as it is. -/
theorem decryptValue_of_field {entry : String × Value} (hfield : entry.1 ∈ self.fields)
    (hname : ¬IsApiKey entry.1) : decryptValue self.fernet entry.1 entry.2 = .ok entry.2 := by
  have hplain : shouldEncrypt entry.1 = false := by
    unfold IsApiKey at hname
    have hbyor : entry.1 ≠ "llm_api_key_for_byor" := fun h => self.byor_notMem (h ▸ hfield)
    unfold shouldEncrypt
    simp only [not_or] at hname
    simp [hname.1, hname.2, hbyor]
  unfold decryptValue
  rw [hplain]
  rfl

theorem mem_fields_of_isApiKey (self : Store) (h : IsApiKey name) :
    name ∈ self.columns ∧ name ∈ self.fields := by
  rcases h with rfl | rfl
  · exact self.llmApiKey_mem
  · exact self.searchApiKey_mem

/-- The columns that are loaded. -/
def Store.loadedColumns (self : Store) (row : UserSettings) : List (String × Value) :=
  row.columns.entries.filter fun entry => entry.1 ∈ self.fields

theorem nodup_loadedColumns (self : Store) (row : UserSettings) :
    ((self.loadedColumns row).map Prod.fst).Nodup :=
  row.columns.nodup.sublist (List.filter_sublist.map _)

theorem mem_loadedColumns {value : Value} (hname : name ∈ self.fields) :
    (name, value) ∈ self.loadedColumns current ↔ current.columns.get? name = some value := by
  unfold Store.loadedColumns
  rw [List.mem_filter, PyDict.get?_eq_some_iff]
  exact and_iff_left (decide_eq_true hname)

theorem apiKey_ofKwargs (kwargs : List (String × Value)) (h : IsApiKey name) :
    (Settings.ofKwargs kwargs).apiKey name = ((PyDict.ofEntries kwargs).get? name).bind apiKeyOf := by
  rcases h with rfl | rfl
  · rfl
  · rfl

theorem exists_of_loaded {out : List (String × Value)}
    (h : decryptKwargs self.fernet (self.loadedColumns current) = .ok out) (hname : IsApiKey name) :
    self.loadsAs current name ((Settings.ofKwargs out).apiKey name) := by
  have hfield := (mem_fields_of_isApiKey self hname).2
  rw [apiKey_ofKwargs out hname]
  unfold Store.loadsAs UserSettings.column
  cases hcolumn : current.columns.get? name with
  | none =>
      have hkeys : name ∉ (PyDict.ofEntries out).keys := by
        have hnodup : (out.map Prod.fst).Nodup := by
          rw [keys_of_decryptKwargs h]
          exact nodup_loadedColumns self current
        unfold PyDict.keys
        rw [PyDict.entries_ofEntries hnodup, keys_of_decryptKwargs h]
        intro hmem
        obtain ⟨⟨name', value⟩, hentry, rfl⟩ := List.mem_map.mp hmem
        rw [mem_loadedColumns hfield, hcolumn] at hentry
        cases hentry
      refine ⟨.null, ?_, ?_⟩
      · unfold decryptValue
        rw [if_pos (shouldEncrypt_of_isApiKey hname)]
        rfl
      · rw [PyDict.get?_eq_none_iff.mpr hkeys]
        rfl
  | some value =>
      obtain ⟨value', hvalue, hget⟩ := get?_of_decryptKwargs (nodup_loadedColumns self current) h
        ((mem_loadedColumns hfield).mpr hcolumn)
      refine ⟨value', hvalue, ?_⟩
      rw [hget]
      rfl

/-- Loading succeeds exactly when both keys can be read. -/
theorem exists_decrypt_iff (self : Store) (current : UserSettings) :
    (∃ out, decryptKwargs self.fernet (self.loadedColumns current) = .ok out) ↔
      ∀ name, IsApiKey name → ∃ apiKey, self.loadsAs current name apiKey := by
  constructor
  · rintro ⟨out, hout⟩ name hname
    exact ⟨_, exists_of_loaded hout hname⟩
  · intro hkeys
    rw [exists_decryptKwargs_iff]
    rintro ⟨name, value⟩ hentry
    have hfield : name ∈ self.fields := of_decide_eq_true (List.mem_filter.mp hentry).2
    by_cases hname : IsApiKey name
    · obtain ⟨apiKey, value', hvalue, -⟩ := hkeys name hname
      unfold UserSettings.column at hvalue
      rw [(mem_loadedColumns hfield).mp hentry] at hvalue
      exact ⟨value', hvalue⟩
    · exact ⟨value, decryptValue_of_field hfield hname⟩

theorem load_of_ok {out : List (String × Value)}
    (hcurrent : current.userVersion = currentUserSettingsVersion)
    (h : decryptKwargs self.fernet (self.loadedColumns current) = .ok out) :
    self.load (some current) = .ok (some (.ofKwargs out), some current) := by
  unfold Store.loadedColumns at h
  unfold Store.load
  dsimp only
  rw [if_neg (not_not.mpr hcurrent), h]

theorem load_of_error {raised : Raised}
    (hcurrent : current.userVersion = currentUserSettingsVersion)
    (h : decryptKwargs self.fernet (self.loadedColumns current) = .error raised) :
    self.load (some current) = .error raised := by
  unfold Store.loadedColumns at h
  unfold Store.load
  dsimp only
  rw [if_neg (not_not.mpr hcurrent), h]

theorem load_cases (self : Store)
    (hcurrent : current.userVersion = currentUserSettingsVersion) :
    (∃ out, decryptKwargs self.fernet (self.loadedColumns current) = .ok out ∧
        self.load (some current) = .ok (some (.ofKwargs out), some current)) ∨
      (∃ name, IsApiKey name ∧ ∀ apiKey, ¬self.loadsAs current name apiKey) ∧
        ∃ raised, self.load (some current) = .error raised := by
  cases hdecrypt : decryptKwargs self.fernet (self.loadedColumns current) with
  | error raised =>
      refine Or.inr ⟨?_, raised, load_of_error hcurrent hdecrypt⟩
      -- otherwise every key could be read, and nothing would have been raised
      by_contra hall
      have hkeys : ∀ name, IsApiKey name → ∃ apiKey, self.loadsAs current name apiKey := by
        intro name hname
        by_contra hnone
        exact hall ⟨name, hname, fun apiKey h => hnone ⟨apiKey, h⟩⟩
      obtain ⟨out, hout⟩ := (exists_decrypt_iff self current).mpr hkeys
      rw [hdecrypt] at hout
      cases hout
  | ok out => exact Or.inl ⟨out, rfl, load_of_ok hcurrent hdecrypt⟩

/-- What is kept of a key. -/
def Store.kept (self : Store) (iv : ℕ) (apiKey : Option String) : Value :=
  ((visible apiKey).map fun text => .str (encryptText self.fernet iv text)).getD .null

theorem encryptValue_serializeApiKey (hname : IsApiKey name) (apiKey : Option String) :
    encryptValue self.fernet iv name (serializeApiKey apiKey) = .ok (self.kept (iv name) apiKey) := by
  unfold serializeApiKey Store.kept visible
  cases apiKey with
  | none => unfold encryptValue; rfl
  | some text =>
      dsimp only
      by_cases hblank : PyStr.isBlank text
      · rw [if_pos hblank, Option.filter_some, if_neg (by simp [hblank])]
        unfold encryptValue
        rfl
      · rw [if_neg hblank, Option.filter_some, if_pos (by simp [hblank])]
        unfold encryptValue
        rw [if_pos (shouldEncrypt_of_isApiKey hname)]
        rfl

/-- What the store leaves in the row: the keys, encrypted once, and the current version. -/
theorem column_of_store (h : self.store iv committed item row = .ok stored) :
    stored.userVersion = currentUserSettingsVersion ∧
      ∀ name, IsApiKey name → stored.column name = self.kept (iv name) (item.apiKey name) := by
  unfold Store.store at h
  cases hencrypt : encryptKwargs self.fernet iv item.modelDump with
  | error raised =>
      rw [hencrypt] at h
      cases h
  | ok kwargs =>
      rw [hencrypt] at h
      dsimp only at h
      cases committed with
      | false => cases h
      | true =>
          rw [if_pos rfl] at h
          cases h
          refine ⟨rfl, ?_⟩
          unfold Settings.modelDump at hencrypt
          obtain ⟨first, out, hfirst, hrest, rfl⟩ := encryptKwargs_cons _ hencrypt
          obtain ⟨second, others, hsecond, hothers, rfl⟩ := encryptKwargs_cons _ hrest
          rw [encryptValue_serializeApiKey (Or.inl rfl)] at hfirst
          rw [encryptValue_serializeApiKey (Or.inr rfl)] at hsecond
          cases hfirst
          cases hsecond
          have hkeys : ∀ name, IsApiKey name → name ∉
              ((others.filter fun entry => decide (entry.1 ∈ self.columns)).map Prod.fst) := by
            intro name hname hmem
            have hother : name ∈ item.others.keys := by
              unfold PyDict.keys
              rw [← keys_of_encryptKwargs hothers]
              exact (List.filter_sublist.map _).subset hmem
            have hne := item.others_keys name hother
            rcases hname with rfl | rfl
            · exact hne.1 rfl
            · exact hne.2 rfl
          simp only [List.filter_cons, self.llmApiKey_mem.1, self.searchApiKey_mem.1, decide_true,
            if_true]
          rintro name (rfl | rfl)
          · show ((setAll ((PyDict.set _ "llm_api_key" _).set "search_api_key" _) _).get? _).getD _ = _
            rw [get?_setAll_of_notMem (hkeys _ (Or.inl rfl)), PyDict.get?_set, if_neg (by decide),
              PyDict.get?_set, if_pos rfl]
            rfl
          · show ((setAll ((PyDict.set _ "llm_api_key" _).set "search_api_key" _) _).get? _).getD _ = _
            rw [get?_setAll_of_notMem (hkeys _ (Or.inr rfl)), PyDict.get?_set, if_pos rfl]
            rfl

/-- A key that was stored is loaded, unless it was blank. -/
theorem loadsAs_of_kept (hauthentic : self.fernet.Authentic) {k : ℕ} {apiKey : Option String}
    (hname : IsApiKey name) (h : current.column name = self.kept k apiKey) :
    self.loadsAs current name (visible apiKey) := by
  unfold Store.loadsAs
  rw [h]
  unfold Store.kept decryptValue
  rw [if_pos (shouldEncrypt_of_isApiKey hname)]
  cases visible apiKey with
  | none => exact ⟨.null, rfl, rfl⟩
  | some text =>
      refine ⟨.str text, ?_, rfl⟩
      show (decryptText self.fernet (encryptText self.fernet k text)).map Value.str = _
      rw [decryptText_encryptText hauthentic]
      rfl

theorem visible_visible (apiKey : Option String) : visible (visible apiKey) = visible apiKey := by
  unfold visible
  rw [Option.filter_filter]
  simp only [Bool.and_self]

theorem kept_visible (self : Store) (k : ℕ) (apiKey : Option String) :
    self.kept k (visible apiKey) = self.kept k apiKey := by
  unfold Store.kept
  rw [visible_visible]

theorem Store.loadsAs.unique {a b : Option String} (ha : self.loadsAs current name a)
    (hb : self.loadsAs current name b) : a = b := by
  obtain ⟨value, hvalue, rfl⟩ := ha
  obtain ⟨value', hvalue', rfl⟩ := hb
  rw [hvalue] at hvalue'
  cases hvalue'
  rfl

/-- A row whose keys can be read. -/
def Store.Readable (self : Store) (current : UserSettings) : Prop :=
  current.userVersion = currentUserSettingsVersion ∧
    ∀ name, IsApiKey name → ∃ apiKey, self.loadsAs current name apiKey

/-- Such a row is loaded, with what is read of its keys. -/
theorem Store.Readable.load (h : self.Readable current) :
    ∃ settings, self.load (some current) = .ok (some settings, some current) ∧
      ∀ name, IsApiKey name → self.loadsAs current name (settings.apiKey name) := by
  obtain ⟨out, hout⟩ := (exists_decrypt_iff self current).mpr h.2
  exact ⟨_, load_of_ok h.1 hout, fun name hname => exists_of_loaded hout hname⟩

theorem readable_of_load (hcurrent : current.userVersion = currentUserSettingsVersion)
    (h : self.load (some current) = .ok (some settings, some current)) :
    self.Readable current ∧
      ∀ name, IsApiKey name → self.loadsAs current name (settings.apiKey name) := by
  rcases load_cases self hcurrent with ⟨out, hout, hload⟩ | ⟨-, raised, hload⟩
  · rw [hload] at h
    cases h
    have hkeys : ∀ name, IsApiKey name →
        self.loadsAs current name ((Settings.ofKwargs out).apiKey name) :=
      fun name hname => exists_of_loaded hout hname
    exact ⟨⟨hcurrent, fun name hname => ⟨_, hkeys name hname⟩⟩, hkeys⟩
  · rw [hload] at h
    cases h

end Stores

/-! ## A store with a simple cipher -/

/-- A cipher that puts the version byte of Fernet before the text. -/
def markingFernet : Fernet where
  encrypt _ data := ⟨(0x80 :: data.data.toList).toArray⟩
  decrypt token :=
    match token.data.toList with
    | [] => none
    | byte :: data => if byte = 0x80 then some ⟨data.toArray⟩ else none

theorem authentic_markingFernet : markingFernet.Authentic where
  decrypt_encrypt _ _ := rfl
  exists_of_decrypt token data h := by
    obtain ⟨⟨bytes⟩⟩ := token
    refine ⟨0, ?_⟩
    unfold markingFernet at h ⊢
    cases bytes with
    | nil => cases h
    | cons byte bytes =>
        dsimp only at h ⊢
        by_cases hbyte : byte = 0x80
        · rw [if_pos hbyte] at h
          cases h
          rw [hbyte]
        · rw [if_neg hbyte] at h
          cases h

def markingStore : Store where
  fernet := markingFernet
  columns := ["llm_api_key", "llm_api_key_for_byor", "search_api_key"]
  fields := ["llm_api_key", "search_api_key"]
  createDefaultSettings _ := .error .databaseError
  llmApiKey_mem := by decide
  searchApiKey_mem := by decide
  byor_notMem := by decide

/-- A row with a key. -/
def rowWith (value : Value) : UserSettings where
  columns := .set .empty "llm_api_key" value
  userVersion := 4

/-- A request that sets the key to the text `k`. -/
def setKey : Request where
  settings := {
    llmApiKey := some "k"
    others_keys := fun key hkey => by cases hkey }
  iv _ := 0
  committed := true

/-- A request that sets the other key and leaves this one. -/
def setSearchKey : Request where
  settings := {
    searchApiKey := some "s"
    others_keys := fun key hkey => by cases hkey }
  iv _ := 1
  committed := true

/-! ## Runs of requests -/

/-- The key after requests that were answered: the last one that was set, and none when it was
blank. -/
def keyAfter (name : String) : Option String → List (Request × Bool) → Option String
  | apiKey, [] => apiKey
  | apiKey, (request, stored) :: answered =>
    keyAfter name
      (if stored then visible (request.settings.apiKey name <|> apiKey) else apiKey) answered

section Runs

variable {self : Store} {current : UserSettings} {request : Request} {requests : List Request}
  {name : String}

/-- A request on a row that can be read: it is stored with the keys that it sets and the old ones
for the others, or nothing changes. -/
theorem post_of_readable (hauthentic : self.fernet.Authentic) (h : self.Readable current)
    (request : Request) :
    self.post (some current) request = (false, some current) ∨
      ∃ stored, self.post (some current) request = (true, some stored) ∧ self.Readable stored ∧
        (∀ name, IsApiKey name → ∀ apiKey, self.loadsAs current name apiKey →
          self.loadsAs stored name (visible (request.settings.apiKey name <|> apiKey))) ∧
        ∀ name, IsApiKey name → ∃ iv apiKey, stored.column name = self.kept iv apiKey := by
  obtain ⟨out, hout⟩ := (exists_decrypt_iff self current).mpr h.2
  have hload := load_of_ok h.1 hout
  unfold Store.post
  rw [hload]
  dsimp only
  cases hstore : self.store request.iv request.committed
      (request.settings.keepExisting (.ofKwargs out)) (some current) with
  | error raised => exact Or.inl rfl
  | ok stored =>
      obtain ⟨hversion, hcolumn⟩ := column_of_store hstore
      have hloads : ∀ name, IsApiKey name → self.loadsAs stored name
          (visible ((request.settings.keepExisting (.ofKwargs out)).apiKey name)) :=
        fun name hname => loadsAs_of_kept hauthentic hname (hcolumn name hname)
      refine Or.inr ⟨stored, rfl, ⟨hversion, fun name hname => ⟨_, hloads name hname⟩⟩, ?_,
        fun name hname => ⟨_, _, hcolumn name hname⟩⟩
      intro name hname apiKey hapiKey
      have hsame : (Settings.ofKwargs out).apiKey name = apiKey :=
        (exists_of_loaded hout hname).unique hapiKey
      have hkept : (request.settings.keepExisting (.ofKwargs out)).apiKey name
          = (request.settings.apiKey name <|> apiKey) := by
        rw [← hsame]
        rcases hname with rfl | rfl
        · rfl
        · rfl
      rw [← hkept]
      exact hloads name hname

/-- A request on a row that cannot be read changes nothing. -/
theorem post_of_not_readable (hcurrent : current.userVersion = currentUserSettingsVersion)
    (h : ¬self.Readable current) (request : Request) :
    self.post (some current) request = (false, some current) := by
  rcases load_cases self hcurrent with ⟨out, hout, -⟩ | ⟨-, raised, hload⟩
  · exact absurd ⟨hcurrent, (exists_decrypt_iff self current).mp ⟨out, hout⟩⟩ h
  · unfold Store.post
    rw [hload]

/-- Any requests on a row that can be read: it can be read afterwards, with the keys that were set
last, and it is as it was or has been encrypted by one of them. -/
theorem posts_of_readable (hauthentic : self.fernet.Authentic) (h : self.Readable current)
    (requests : List Request) :
    ∃ after, (self.posts (some current) requests).2 = some after ∧ self.Readable after ∧
      (∀ name, IsApiKey name → ∀ apiKey, self.loadsAs current name apiKey →
        self.loadsAs after name
          (keyAfter name apiKey (requests.zip (self.posts (some current) requests).1))) ∧
      (true ∉ (self.posts (some current) requests).1 → after = current) ∧
      (true ∈ (self.posts (some current) requests).1 →
        ∀ name, IsApiKey name → ∃ iv apiKey, after.column name = self.kept iv apiKey) := by
  induction requests generalizing current with
  | nil =>
      exact ⟨current, rfl, h, fun name hname apiKey hapiKey => hapiKey, fun _ => rfl,
        fun hstored => absurd hstored List.not_mem_nil⟩
  | cons request requests ih =>
      rcases post_of_readable hauthentic h request with
        hpost | ⟨stored, hpost, hstored, hkeys, hkept⟩
      · obtain ⟨after, hafter, hreadable, hloads, hsame, hlater⟩ := ih h
        unfold Store.posts
        rw [hpost]
        refine ⟨after, hafter, hreadable, hloads, fun hnone => hsame ?_, fun hsome => hlater ?_⟩
        · exact fun hlast => hnone (List.mem_cons_of_mem _ hlast)
        · exact (List.mem_cons.mp hsome).resolve_left (by decide)
      · obtain ⟨after, hafter, hreadable, hloads, hsame, hlater⟩ := ih hstored
        unfold Store.posts
        rw [hpost]
        refine ⟨after, hafter, hreadable, fun name hname apiKey hapiKey => ?_,
          fun hnone => absurd List.mem_cons_self hnone, fun _ => ?_⟩
        · exact hloads name hname _ (hkeys name hname apiKey hapiKey)
        · -- the last request that was stored is this one or a later one
          by_cases hsome : true ∈ (self.posts (some stored) requests).1
          · exact hlater hsome
          · rw [hsame hsome]
            exact hkept

/-- **The keys of a user.**  After any requests on a row of the current version that can be loaded,
with whatever of them failing, the row can be loaded, and each key is the one that was set last by a
request that was stored, none when that was blank, and the old one when there is no such request.
What is kept of it is encrypted once; without a request that was stored, the row is as it was. -/
theorem keys_after_posts (hauthentic : self.fernet.Authentic)
    (hcurrent : current.userVersion = currentUserSettingsVersion) {settings : Settings}
    (hload : self.load (some current) = .ok (some settings, some current))
    (requests : List Request) :
    ∃ after loaded, (self.posts (some current) requests).2 = some after ∧
      self.load (some after) = .ok (some loaded, some after) ∧
      (∀ name, IsApiKey name → loaded.apiKey name = keyAfter name (settings.apiKey name)
        (requests.zip (self.posts (some current) requests).1)) ∧
      (true ∉ (self.posts (some current) requests).1 → after = current) ∧
      (true ∈ (self.posts (some current) requests).1 → ∀ name, IsApiKey name →
        ∃ iv, after.column name = self.kept iv (loaded.apiKey name)) := by
  obtain ⟨hreadable, hold⟩ := readable_of_load hcurrent hload
  obtain ⟨after, hafter, hreadable', hloads, hsame, hkept⟩ :=
    posts_of_readable hauthentic hreadable requests
  obtain ⟨loaded, hloaded, hkeys⟩ := hreadable'.load
  refine ⟨after, loaded, hafter, hloaded, fun name hname => ?_, hsame, fun hstored name hname => ?_⟩
  · exact (hkeys name hname).unique (hloads name hname _ (hold name hname))
  · obtain ⟨iv, apiKey, hcolumn⟩ := hkept hstored name hname
    have hvisible := (hkeys name hname).unique (loadsAs_of_kept hauthentic hname hcolumn)
    exact ⟨iv, by rw [hvisible, kept_visible, hcolumn]⟩

/-- Two requests on a row without keys, one for each key. -/
theorem keys_after_twoRequests :
    ∃ after loaded,
      (markingStore.posts (some (rowWith .null)) [setKey, setSearchKey]).2 = some after ∧
      markingStore.load (some after) = .ok (some loaded, some after) ∧
      (∀ name, IsApiKey name → loaded.apiKey name
        = keyAfter name ((Settings.ofKwargs [("llm_api_key", .null)]).apiKey name)
          ([setKey, setSearchKey].zip
            (markingStore.posts (some (rowWith .null)) [setKey, setSearchKey]).1)) ∧
      (true ∉ (markingStore.posts (some (rowWith .null)) [setKey, setSearchKey]).1 →
        after = rowWith .null) ∧
      (true ∈ (markingStore.posts (some (rowWith .null)) [setKey, setSearchKey]).1 →
        ∀ name, IsApiKey name →
          ∃ iv, after.column name = markingStore.kept iv (loaded.apiKey name)) :=
  keys_after_posts authentic_markingFernet rfl rfl [setKey, setSearchKey]

/-- On a row that cannot be read every request of a run fails. -/
theorem posts_of_not_readable (hcurrent : current.userVersion = currentUserSettingsVersion)
    (hnot : ¬self.Readable current) (requests : List Request) :
    self.posts (some current) requests
      = (List.replicate requests.length false, some current) := by
  induction requests with
  | nil => rfl
  | cons request requests ih =>
      unfold Store.posts
      rw [post_of_not_readable hcurrent hnot]
      dsimp only
      rw [ih]
      rfl

/-- **Keys in the old format.**  A key that was never encrypted, and has no padding of base64, is
loaded as it is when its characters of base64 do not fill whole groups of four.  Otherwise, when it
does not happen to be a token, the row cannot be loaded: every request fails, and the row stays as
it is. -/
theorem posts_of_plain (hcurrent : current.userVersion = currentUserSettingsVersion)
    (hname : IsApiKey name) {text : String} (hcolumn : current.column name = .str text)
    (hpad : '=' ∉ text.toList)
    (hplain : ∀ token, b64decode? text = some token → self.fernet.decrypt token = none) :
    (inkOf text.toList % 4 ≠ 0 →
        (∀ other, IsApiKey other → other ≠ name → ∃ apiKey, self.loadsAs current other apiKey) →
        ∃ settings, self.load (some current) = .ok (some settings, some current) ∧
          settings.apiKey name = some text) ∧
      (inkOf text.toList % 4 = 0 → (∃ raised, self.load (some current) = .error raised) ∧
        ∀ requests, self.posts (some current) requests
          = (List.replicate requests.length false, some current)) := by
  have hdecrypt : decryptValue self.fernet name (current.column name)
      = (decryptText self.fernet text).map .str := by
    rw [hcolumn]
    unfold decryptValue
    rw [if_pos (shouldEncrypt_of_isApiKey hname)]
  constructor
  · intro hink hothers
    have hloads : self.loadsAs current name (some text) := by
      refine ⟨.str text, ?_, rfl⟩
      rw [hdecrypt]
      unfold decryptText
      rw [(b64decode?_eq_none_iff hpad).mpr hink]
      rfl
    have hreadable : self.Readable current := by
      refine ⟨hcurrent, fun other hother => ?_⟩
      by_cases heq : other = name
      · rw [heq]
        exact ⟨_, hloads⟩
      · exact hothers other hother heq
    obtain ⟨settings, hload, hkeys⟩ := hreadable.load
    exact ⟨settings, hload, (hkeys name hname).unique hloads⟩
  · intro hink
    -- a text that decodes without being ours is not a token, and is never read
    have hnot : ¬self.Readable current := by
      rintro ⟨-, hkeys⟩
      obtain ⟨apiKey, value, hvalue, -⟩ := hkeys name hname
      cases htoken : b64decode? text with
      | none => exact (b64decode?_eq_none_iff hpad).mp htoken hink
      | some token =>
          rw [hdecrypt] at hvalue
          unfold decryptText at hvalue
          rw [htoken] at hvalue
          dsimp only at hvalue
          rw [hplain token htoken] at hvalue
          cases hvalue
    constructor
    · rcases load_cases self hcurrent with ⟨out, hout, -⟩ | ⟨-, hraised⟩
      · exact absurd ⟨hcurrent, (exists_decrypt_iff self current).mp ⟨out, hout⟩⟩ hnot
      · exact hraised
    · exact posts_of_not_readable hcurrent hnot

end Runs

/-- A key of three characters of base64 and a hyphen. -/
def shortKey : String := String.ofList ['s', 'k', '-', '1']

/-- A key of four characters of base64 and a hyphen. -/
def oldKey : String := String.ofList ['s', 'k', '-', '1', '2']

theorem toList_oldKey : oldKey.toList = ['s', 'k', '-', '1', '2'] := String.toList_ofList

theorem b64decode?_oldKey : b64decode? oldKey = some ⟨#[178, 77, 118]⟩ := by
  unfold b64decode?
  rw [toList_oldKey]
  rfl

theorem b64decode?_shortKey : b64decode? shortKey = none := by
  unfold b64decode? shortKey
  rw [String.toList_ofList]
  rfl

/-- The shorter one is loaded, and the other one cannot be. -/
theorem posts_of_oldKey :
    (∃ settings, markingStore.load (some (rowWith (.str shortKey)))
        = .ok (some settings, some (rowWith (.str shortKey))) ∧
      settings.apiKey "llm_api_key" = some shortKey) ∧
    (∃ raised, markingStore.load (some (rowWith (.str oldKey))) = .error raised) ∧
      ∀ requests, markingStore.posts (some (rowWith (.str oldKey))) requests
        = (List.replicate requests.length false, some (rowWith (.str oldKey))) := by
  constructor
  · have hpad : '=' ∉ shortKey.toList := by
      unfold shortKey
      rw [String.toList_ofList]
      decide
    refine (posts_of_plain rfl (Or.inl rfl) rfl hpad (fun token htoken => ?_)).1
      ((b64decode?_eq_none_iff hpad).mp b64decode?_shortKey) ?_
    · rw [b64decode?_shortKey] at htoken
      cases htoken
    · rintro other (rfl | rfl) hne
      · exact absurd rfl hne
      · exact ⟨none, .null, rfl, rfl⟩
  · refine (posts_of_plain rfl (Or.inl rfl) rfl (by rw [toList_oldKey]; decide) ?_).2
      (by rw [toList_oldKey]; decide)
    intro token htoken
    rw [b64decode?_oldKey] at htoken
    cases htoken
    rfl

end OpenHands.EncryptedSettings
