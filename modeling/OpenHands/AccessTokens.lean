/-
# Access tokens for git secrets

A sandbox gets an access token with which it asks the app server for the latest git token of its
user.  The start of a conversation writes the value of the provider into the token, and the
endpoint looks a provider up by its name: it finds none, whoever signed the token and when.
-/
import OpenHands.JwtKeys

namespace OpenHands.AccessTokens

open AppServer

/-! ## The start of a conversation -/

/-- A secret of a sandbox. -/
inductive Secret (Token : Type) where
  /-- `LookupSecret`, with the header `X-Access-Token`. -/
  | lookup (url : String) (accessToken : Token)
  | static (value : String)

/-- The git secret of `_build_start_conversation_request_for_user`: the outer `none` where it
raises.  `latestToken` is what `get_latest_token` returns. -/
def gitTokenSecret (lib : JwtLibrary) (service : JwtService) (webUrl : Option String)
    (accessTokenHardTimeout : Option ℤ) (userId : Option String)
    (gitProvider : Option ProviderType) (latestToken : Option String) (now : ℤ) :
    Option (Option (Secret lib.Token)) :=
  match gitProvider with
  | none => some none
  | some gitProvider =>
    match truthy webUrl with
    | some webUrl =>
      let payload : Payload := .ofEntries
        [("user_id", .ofOption .str userId), ("provider_type", .str gitProvider.value)]
      (service.createJwsToken lib payload none accessTokenHardTimeout now).map fun accessToken =>
        some (.lookup (webUrl ++ "/api/v1/webhooks/secrets") accessToken)
    | none => some ((truthy latestToken).map .static)

/-! ## The endpoint -/

inductive Response where
  | secret (value : String)
  | notFound
  | unauthorized
  /-- An exception that is not handled. -/
  | raised
  deriving DecidableEq, Repr

/-- What the endpoint answers, and for whose latest token it has asked. -/
structure Answer where
  asked : Option (Option String × ProviderType)
  response : Response
  deriving DecidableEq, Repr

/-- A user context: the latest token of a provider. -/
abbrev UserContext := ProviderType → Option String

/-- `get_secret`.  The injector of user contexts may have a method `get_for_user`. -/
def getSecret (lib : JwtLibrary) (service : JwtService)
    (getForUser : Option (Option String → Option UserContext)) (accessToken : lib.Token)
    (now : ℤ) : Answer :=
  match service.verifyJwsToken lib accessToken now with
  | .error .invalidTokenError => ⟨none, .unauthorized⟩
  | .error .valueError => ⟨none, .raised⟩
  | .ok payload =>
    let userId : Option (Option String) :=
      match payload.get? "user_id" with
      | some .null => some none
      | some (.str id) => some (some id)
      | _ => none
    -- `ProviderType[...]` takes the name of a member, and the payload holds its value
    let providerType : Option ProviderType :=
      match payload.get? "provider_type" with
      | some (.str name) => ProviderType.ofName? name
      | _ => none
    match userId, providerType, getForUser with
    | some userId, some providerType, some getForUser =>
      match getForUser userId with
      | none => ⟨none, .notFound⟩
      | some userContext =>
        ⟨some (userId, providerType),
          match userContext providerType with
          | none => .notFound
          | some secret => .secret secret⟩
    | _, _, _ => ⟨none, .raised⟩

/-- The time at which a token that is made now expires. -/
def expiry (accessTokenHardTimeout : Option ℤ) (now : ℤ) : ℤ :=
  timestamp (now + accessTokenHardTimeout.getD 3600000000) * 1000000

/-- The access token of a user and a provider works: whatever keys are added or deactivated, the
endpoint asks for the latest token of just this user and this provider until the token expires,
and answers 401 afterwards. -/
def Works (lib : JwtLibrary) (keys : Keys) (service : JwtService) (webUrl : Option String)
    (accessTokenHardTimeout : Option ℤ) (userId : Option String) (gitProvider : ProviderType)
    (getForUser : Option (Option String → Option UserContext)) (created : ℤ) : Prop :=
  ∀ latestToken url accessToken, gitTokenSecret lib service webUrl accessTokenHardTimeout userId
      (some gitProvider) latestToken created = some (some (.lookup url accessToken)) →
    ∀ changes later, JwtService.ofKeys (keys.changed changes).keys = some later →
    ∀ now, created ≤ now →
      (now < expiry accessTokenHardTimeout created →
        (getSecret lib later getForUser accessToken now).asked = some (userId, gitProvider)) ∧
      (expiry accessTokenHardTimeout created ≤ now →
        (getSecret lib later getForUser accessToken now).response = .unauthorized)

/-! ## What becomes of a token -/

variable {lib : JwtLibrary} {keys : Keys} {service later : JwtService} {webUrl : Option String}
  {timeout : Option ℤ} {userId : Option String} {provider : ProviderType} {created now : ℤ}
  {changes : List KeyChange}

/-- The claims of the token. -/
def claims (timeout : Option ℤ) (userId : Option String) (provider : ProviderType)
    (created : ℤ) : Payload :=
  ((PyDict.ofEntries
    [("user_id", PyJson.ofOption .str userId), ("provider_type", .str provider.value)]).set "iat"
      (.int (timestamp created))).set "exp" (.int (timestamp (created + timeout.getD 3600000000)))

variable (lib) in
/-- The token is one of the claims, signed with the default key. -/
theorem gitTokenSecret_eq (hservice : JwtService.ofKeys keys.keys = some service) {url : String}
    (hurl : truthy webUrl = some url) (latestToken : Option String) :
    ∃ secret, keys.Holds service.defaultKeyId secret ∧
      gitTokenSecret lib service webUrl timeout userId (some provider) latestToken created
        = some (some (.lookup (url ++ "/api/v1/webhooks/secrets")
          (lib.encode (claims timeout userId provider created) secret service.defaultKeyId))) := by
  obtain ⟨-, secret, hholds⟩ := JwtService.holds_default hservice
  obtain ⟨key, hget, rfl⟩ := JwtService.get?_of_holds hservice hholds
  refine ⟨key.key, hholds, ?_⟩
  unfold gitTokenSecret JwtService.createJwsToken
  simp only [hurl, Option.getD_none, hget, Option.map_some]
  rfl

/-- After a history of changes a token is verified with the key that signed it. -/
theorem verifyJwsToken_encode (hservice : JwtService.ofKeys keys.keys = some service)
    (hlater : JwtService.ofKeys (keys.changed changes).keys = some later) {secret : String}
    (hholds : keys.Holds service.defaultKeyId secret) (payload : Payload) (now : ℤ) :
    later.verifyJwsToken lib (lib.encode payload secret service.defaultKeyId) now
      = match lib.decode now (lib.encode payload secret service.defaultKeyId) secret with
        | .ok payload => .ok payload
        | .error _ => .error .invalidTokenError := by
  obtain ⟨hname, -⟩ := JwtService.holds_default hservice
  obtain ⟨key, hget, rfl⟩ := JwtService.get?_of_holds hlater (hholds.changed changes)
  have hkid : truthy (some service.defaultKeyId) = some service.defaultKeyId :=
    Option.filter_some_pos (by simpa using hname)
  unfold JwtService.verifyJwsToken
  cases hdecode : lib.decode now (lib.encode payload key.key service.defaultKeyId) key.key with
  | ok payload => simp only [lib.getUnverifiedHeader_encode, hkid, hget, hdecode]
  | error _ => simp only [lib.getUnverifiedHeader_encode, hkid, hget, hdecode]

/-- Once it has expired the token is answered with 401. -/
theorem unauthorized_of_expired (hservice : JwtService.ofKeys keys.keys = some service)
    (hlater : JwtService.ofKeys (keys.changed changes).keys = some later) {secret : String}
    (hholds : keys.Holds service.defaultKeyId secret)
    (getForUser : Option (Option String → Option UserContext))
    (hexpired : expiry timeout created ≤ now) :
    getSecret lib later getForUser
        (lib.encode (claims timeout userId provider created) secret service.defaultKeyId) now
      = ⟨none, .unauthorized⟩ := by
  have hexp : (claims timeout userId provider created).get? "exp"
      = some (.int (timestamp (created + timeout.getD 3600000000))) := by
    unfold claims
    rw [PyDict.get?_set, if_pos rfl]
  unfold getSecret
  rw [verifyJwsToken_encode hservice hlater hholds,
    lib.decode_expired _ _ _ _ _ hexp hexpired]

/-- Until it expires the token is read, but no provider has the name that it holds. -/
theorem raised_of_valid (hservice : JwtService.ofKeys keys.keys = some service)
    (hlater : JwtService.ofKeys (keys.changed changes).keys = some later) {secret : String}
    (hholds : keys.Holds service.defaultKeyId secret)
    (getForUser : Option (Option String → Option UserContext)) (hcreated : created ≤ now)
    (hvalid : now < expiry timeout created) :
    getSecret lib later getForUser
        (lib.encode (claims timeout userId provider created) secret service.defaultKeyId) now
      = ⟨none, .raised⟩ := by
  have hexp : (claims timeout userId provider created).get? "exp"
      = some (.int (timestamp (created + timeout.getD 3600000000))) := by
    unfold claims
    rw [PyDict.get?_set, if_pos rfl]
  have hiat : (claims timeout userId provider created).get? "iat"
      = some (.int (timestamp created)) := by
    unfold claims
    rw [PyDict.get?_set, if_neg (by decide), PyDict.get?_set, if_pos rfl]
  have hprovider : (claims timeout userId provider created).get? "provider_type"
      = some (.str provider.value) := by
    unfold claims
    rw [PyDict.get?_set, if_neg (by decide), PyDict.get?_set, if_neg (by decide)]
    rfl
  have huser : (claims timeout userId provider created).get? "user_id"
      = some (.ofOption .str userId) := by
    unfold claims
    rw [PyDict.get?_set, if_neg (by decide), PyDict.get?_set, if_neg (by decide)]
    rfl
  have hissued : timestamp created * 1000000 ≤ now :=
    (Int.ediv_mul_le created (by decide)).trans hcreated
  unfold getSecret
  rw [verifyJwsToken_encode hservice hlater hholds,
    lib.decode_encode _ _ _ _ _ _ hiat hexp hissued hvalid]
  simp only [huser, hprovider, ProviderType.ofName?_value]
  cases userId with
  | none => rfl
  | some id => rfl

/-- **The token works if and only if it has expired when it is made.** -/
theorem works_iff (hservice : JwtService.ofKeys keys.keys = some service) {url : String}
    (hurl : truthy webUrl = some url)
    (getForUser : Option (Option String → Option UserContext)) :
    Works lib keys service webUrl timeout userId provider getForUser created ↔
      expiry timeout created ≤ created := by
  obtain ⟨secret, hholds, htoken⟩ := gitTokenSecret_eq lib hservice hurl none
  constructor
  · -- with the keys unchanged the token is used when it is made
    intro hworks
    by_contra hvalid
    obtain ⟨hasks, -⟩ := hworks none _ _ htoken [] service hservice created le_rfl
    have hasked := hasks (not_le.mp hvalid)
    have hunchanged : JwtService.ofKeys (keys.changed []).keys = some service := hservice
    rw [raised_of_valid hservice hunchanged hholds getForUser le_rfl (not_le.mp hvalid)] at hasked
    cases hasked
  · intro hexpired latestToken url' accessToken hsecret changes later hlater now hcreated
    obtain ⟨secret', hholds', htoken'⟩ := gitTokenSecret_eq lib hservice hurl latestToken
    rw [htoken'] at hsecret
    obtain ⟨-, rfl⟩ := Secret.lookup.inj (Option.some.inj (Option.some.inj hsecret))
    refine ⟨fun hvalid => ?_, fun hexpired' => ?_⟩
    · exact absurd (hexpired.trans hcreated) (not_le.mpr hvalid)
    · rw [unauthorized_of_expired hservice hlater hholds' getForUser hexpired']

/-! ## A token of fourteen days -/

/-- Tokens that are what was written. -/
def plainJwt : JwtLibrary where
  Token := Payload × String × String
  encode payload key kid := (payload, key, kid)
  getUnverifiedHeader token := .ok (some token.2.2)
  decode now token key :=
    match token.1.get? "exp" with
    | some (.int exp) =>
      if token.2.1 = key ∧ now < exp * 1000000 then .ok token.1 else .error ()
    | _ => .error ()
  getUnverifiedHeader_encode _ _ _ := rfl
  decode_encode payload key kid iat exp now hiat hexp hissued hvalid := by
    rw [hexp]
    exact if_pos ⟨rfl, hvalid⟩
  decode_expired payload key kid exp now hexp hexpired := by
    rw [hexp]
    exact if_neg fun h => absurd h.2 (not_lt.mpr hexpired)

/-- One key. -/
def masterKey : Keys where
  keys := [{ id := "master", key := "secret", createdAt := 0 }]
  nodup := List.nodup_singleton _
  named key hkey := by
    rw [List.mem_singleton.mp hkey]
    decide

def masterService : JwtService where
  keys := .ofEntries [("master", { id := "master", key := "secret", createdAt := 0 })]
  defaultKeyId := "master"

/-- A user context with a token of every provider. -/
def anyUser : Option (Option String → Option UserContext) := some fun _ => some fun _ => some "token"

/-- A token that has expired when it is made is only ever answered with 401. -/
theorem works_iff_expired : Works plainJwt masterKey masterService (some "https://app.example")
    (some (-1000000)) (some "alice") .github anyUser 0 :=
  (works_iff rfl rfl anyUser).mpr (by decide)

/-- The endpoint does not ask for a token of GitHub although the access token is valid. -/
theorem not_works_github : ¬ Works plainJwt masterKey masterService (some "https://app.example")
    (some (14 * 86400 * 1000000)) (some "alice") .github anyUser 0 := by
  intro hworks
  obtain ⟨hasks, -⟩ := hworks none _ _ rfl [] masterService rfl 0 le_rfl
  have hasked := hasks (by decide)
  cases hasked

end OpenHands.AccessTokens
