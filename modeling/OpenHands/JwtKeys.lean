/-
# Signed tokens and the keys that sign them

The service signs a payload with the newest active key and names the key in the header.  A token
is verified with the key that its header names, active or not.  Keys are added and deactivated,
but none is taken away, so a token is always verified with the key that signed it.
-/
import Mathlib.Algebra.Order.Ring.Int
import Mathlib.Data.List.Nodup
import OpenHands.AppConversationInfos
import OpenHands.Lib.PyJson

namespace OpenHands.AccessTokens

open AppServer

/-- The claims of a token. -/
abbrev Payload := PyDict String PyJson

/-- `int(time.timestamp())` of a time in microseconds. -/
def timestamp (time : ℤ) : ℤ := time / 1000000

/-- The library `jwt`: a token is read as it was written under the same key until it expires, and
is rejected from then on. -/
structure JwtLibrary where
  Token : Type
  /-- `jwt.encode(payload, key, algorithm='HS256', headers={'kid': kid})`. -/
  encode : Payload → String → String → Token
  /-- The `kid` of `jwt.get_unverified_header(token)`, or a `DecodeError`. -/
  getUnverifiedHeader : Token → Except Unit (Option String)
  /-- `jwt.decode(token, key, algorithms=['HS256'])` at a time, or an `InvalidTokenError`. -/
  decode : ℤ → Token → String → Except Unit Payload
  getUnverifiedHeader_encode : ∀ payload key kid,
    getUnverifiedHeader (encode payload key kid) = .ok (some kid)
  decode_encode : ∀ payload key kid iat exp now, payload.get? "iat" = some (.int iat) →
    payload.get? "exp" = some (.int exp) → iat * 1000000 ≤ now → now < exp * 1000000 →
      decode now (encode payload key kid) key = .ok payload
  decode_expired : ∀ payload key kid exp now, payload.get? "exp" = some (.int exp) →
    exp * 1000000 ≤ now → decode now (encode payload key kid) key = .error ()

/-! ## Keys -/

structure EncryptionKey where
  id : String
  key : String
  active : Bool := true
  createdAt : ℤ
  deriving DecidableEq, Repr

/-- A list of keys; their ids are made up of random bytes. -/
structure Keys where
  keys : List EncryptionKey
  nodup : (keys.map EncryptionKey.id).Nodup
  named : ∀ key ∈ keys, key.id ≠ ""

/-- A change of the keys. -/
inductive KeyChange where
  | add (key : EncryptionKey)
  | setActive (id : String) (active : Bool)

namespace Keys

variable (keys : Keys)

/-- The keys with one that is new. -/
def add (key : EncryptionKey) : Keys :=
  if h : key.id ≠ "" ∧ key.id ∉ keys.keys.map EncryptionKey.id then
    { keys := keys.keys ++ [key]
      nodup := by
        rw [List.map_append]
        refine List.nodup_append'.mpr ⟨keys.nodup, List.nodup_singleton _, fun a ha hb => ?_⟩
        rw [List.mem_singleton.mp hb] at ha
        exact h.2 ha
      named := by
        intro k hk
        rcases List.mem_append.mp hk with hold | hnew
        · exact keys.named k hold
        · rw [List.mem_singleton.mp hnew]
          exact h.1 }
  else keys

def setActive (id : String) (active : Bool) : Keys where
  keys := keys.keys.map fun key => if key.id = id then { key with active } else key
  nodup := by
    have hids : (keys.keys.map fun key => if key.id = id then { key with active } else key).map
        EncryptionKey.id = keys.keys.map EncryptionKey.id := by
      rw [List.map_map]
      refine List.map_congr_left fun key _ => ?_
      show (if key.id = id then { key with active } else key).id = key.id
      split <;> rfl
    rw [hids]
    exact keys.nodup
  named := by
    intro k hk
    obtain ⟨key, hkey, rfl⟩ := List.mem_map.mp hk
    have hname := keys.named key hkey
    split
    · exact hname
    · exact hname

def change : KeyChange → Keys
  | .add key => keys.add key
  | .setActive id active => keys.setActive id active

/-- The keys after a history of changes. -/
def changed (changes : List KeyChange) : Keys := changes.foldl change keys

/-- A key of this id signs and verifies with this secret. -/
def Holds (id secret : String) : Prop := ∃ key ∈ keys.keys, key.id = id ∧ key.key = secret

variable {keys} {id secret : String}

theorem Holds.change (h : keys.Holds id secret) (change : KeyChange) :
    (keys.change change).Holds id secret := by
  obtain ⟨key, hkey, rfl, rfl⟩ := h
  cases change with
  | add new =>
    show (keys.add new).Holds key.id key.key
    unfold add
    split
    · exact ⟨key, List.mem_append_left _ hkey, rfl, rfl⟩
    · exact ⟨key, hkey, rfl, rfl⟩
  | setActive changedId active =>
    refine ⟨_, List.mem_map_of_mem hkey, ?_, ?_⟩
    · split <;> rfl
    · split <;> rfl

/-- No key is taken away. -/
theorem Holds.changed (h : keys.Holds id secret) (changes : List KeyChange) :
    (keys.changed changes).Holds id secret := by
  unfold Keys.changed
  induction changes generalizing keys with
  | nil => exact h
  | cons change changes ih => exact ih (h.change change)

end Keys

/-! ## The service -/

structure JwtService where
  keys : PyDict String EncryptionKey
  defaultKeyId : String

/-- `max(keys, key=lambda k: k.created_at)`: the first of the newest keys. -/
def newestKey : List EncryptionKey → Option EncryptionKey
  | [] => none
  | key :: keys =>
    match newestKey keys with
    | none => some key
    | some newest => if key.createdAt < newest.createdAt then some newest else some key

theorem mem_of_newestKey {newest : EncryptionKey} {keys : List EncryptionKey}
    (h : newestKey keys = some newest) : newest ∈ keys := by
  induction keys with
  | nil => cases h
  | cons key keys ih =>
    unfold newestKey at h
    split at h
    next =>
      rw [Option.some.inj h]
      exact List.mem_cons_self
    next other hother =>
      split at h
      next => exact List.mem_cons_of_mem _ (ih (hother.trans h))
      next =>
        rw [Option.some.inj h]
        exact List.mem_cons_self

/-- The service of a list of keys, of which the newest active one is the default; `none` if there
is no active key. -/
def JwtService.ofKeys (keys : List EncryptionKey) : Option JwtService :=
  (newestKey (keys.filter (·.active))).map fun newest =>
    { keys := PyDict.ofEntries (keys.map fun key => (key.id, key)), defaultKeyId := newest.id }

/-- `create_jws_token`; `none` where it raises. -/
def JwtService.createJwsToken (service : JwtService) (lib : JwtLibrary) (payload : Payload)
    (keyId : Option String) (expiresIn : Option ℤ) (now : ℤ) : Option lib.Token :=
  let keyId := keyId.getD service.defaultKeyId
  (service.keys.get? keyId).map fun key =>
    let expiresIn := expiresIn.getD 3600000000
    let jwtPayload := (payload.set "iat" (.int (timestamp now))).set "exp"
      (.int (timestamp (now + expiresIn)))
    lib.encode jwtPayload key.key keyId

/-- What the verification raises. -/
inductive VerifyError where
  | valueError
  | invalidTokenError
  deriving DecidableEq, Repr

/-- `verify_jws_token` without a key id. -/
def JwtService.verifyJwsToken (service : JwtService) (lib : JwtLibrary) (token : lib.Token)
    (now : ℤ) : Except VerifyError Payload :=
  match lib.getUnverifiedHeader token with
  | .error _ => .error .valueError
  | .ok kid =>
    match truthy kid with
    | none => .error .valueError
    | some keyId =>
      match service.keys.get? keyId with
      | none => .error .valueError
      | some key =>
        match lib.decode now token key.key with
        | .ok payload => .ok payload
        | .error _ => .error .invalidTokenError

variable {lib : JwtLibrary} {keys : Keys} {service : JwtService} {id secret : String}

/-- The service finds a key under its id. -/
theorem JwtService.get?_of_holds (hservice : JwtService.ofKeys keys.keys = some service)
    (h : keys.Holds id secret) : ∃ key, service.keys.get? id = some key ∧ key.key = secret := by
  obtain ⟨key, hkey, rfl, rfl⟩ := h
  obtain ⟨newest, -, rfl⟩ := Option.map_eq_some_iff.mp hservice
  refine ⟨key, PyDict.get?_eq_some_iff.mpr ?_, rfl⟩
  have hnodup : ((keys.keys.map fun key => (key.id, key)).map Prod.fst).Nodup := by
    rw [List.map_map]
    exact keys.nodup
  rw [PyDict.entries_ofEntries hnodup]
  exact List.mem_map_of_mem hkey

/-- The default key is one of the keys. -/
theorem JwtService.holds_default (hservice : JwtService.ofKeys keys.keys = some service) :
    service.defaultKeyId ≠ "" ∧ ∃ secret, keys.Holds service.defaultKeyId secret := by
  obtain ⟨newest, hnewest, rfl⟩ := Option.map_eq_some_iff.mp hservice
  have hmem : newest ∈ keys.keys := List.mem_of_mem_filter (mem_of_newestKey hnewest)
  exact ⟨keys.named newest hmem, newest.key, newest, hmem, rfl, rfl⟩

end OpenHands.AccessTokens
