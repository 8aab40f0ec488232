/-
# Moving a user of LiteLLM to the current settings

Settings that are older than the current version are replaced by the defaults.  With them the
user in LiteLLM is deleted and created again, with the budget and the spend that it had.  Up to
version 3 a billing margin was kept in the settings; now it is multiplied into both values, and
the settings are given a margin of 1.

Every request and every commit can fail: it is refused, or the connection is lost, before or
after it has taken effect.
-/
import Mathlib
import OpenHands.Lib.Run

namespace OpenHands.SaasSettings

/-- `CURRENT_USER_SETTINGS_VERSION`. -/
def currentUserSettingsVersion : ℤ := 4

/-- A row of `user_settings`. -/
structure UserSettings where
  userVersion : ℤ
  billingMargin : Option ℚ
  deriving DecidableEq, Repr

/-- A user as LiteLLM keeps it. -/
structure LiteLlmUser where
  maxBudget : Option ℚ := none
  spend : ℚ := 0
  deriving DecidableEq, Repr

/-- The settings of the user, and the user in LiteLLM. -/
structure World where
  settings : Option UserSettings
  liteLlmUser : Option LiteLlmUser
  deriving DecidableEq, Repr

/-- A user that has values in LiteLLM. -/
def World.start (settings : Option UserSettings) (prev : LiteLlmUser) : World :=
  ⟨settings, some prev⟩

/-- How a request or a commit ends; where the connection is lost, it may have been applied. -/
inductive Reply where
  | answered
  | refused
  | lost (applied : Bool)
  deriving DecidableEq, Repr

namespace Reply

def applied : Reply → Bool
  | answered => true
  | refused => false
  | lost applied => applied

/-- A request that is refused has a response, with a status that is not a success. -/
def raises : Reply → Bool
  | lost _ => true
  | _ => false

end Reply

/-- How the requests and commits of one call end; reads give an answer or raise. -/
structure Replies where
  paymentMethod : Option Bool := some true
  keycloakUserInfo : Bool := true
  userInfo : Bool := true
  readSettings : Bool := true
  commitMargin : Reply := .answered
  delete : Reply := .answered
  create : Reply := .answered
  createAgain : Reply := .answered
  hasKey : Bool := true
  commitSettings : Reply := .answered
  deriving DecidableEq, Repr

/-- What a call returns: settings, `None`, or nothing since it raises. -/
inductive Result where
  | settings
  | none
  | raised
  deriving DecidableEq, Repr

/-- A store of one user, with the constants and the environment that it looks at. -/
structure SaasSettingsStore where
  userId : String
  requirePayment : Bool := false
  liteLlmConfigured : Bool := true
  localDeployment : Bool := false
  defaultInitialBudget : ℚ := 10
  defaultBillingMargin : ℚ := 1

/-- The margin that has still to be multiplied into the values of LiteLLM. -/
def UserSettings.upgradeMargin (settings : UserSettings) : Option ℚ :=
  match settings.billingMargin with
  | some margin =>
    if settings.userVersion < 4 ∧ margin ≠ 0 ∧ margin ≠ 1 then some margin else none
  | none => none

namespace World

variable (w : World)

def upgradeMargin : Option ℚ := w.settings.bind UserSettings.upgradeMargin

/-- `/user/info` succeeds whether the user exists or not. -/
def userInfo : LiteLlmUser := w.liteLlmUser.getD {}

/-- The margin of the settings is set to 1. -/
def spendMargin : World :=
  { w with settings := w.settings.map fun settings => { settings with billingMargin := some 1 } }

end World

namespace SaasSettingsStore

variable (store : SaasSettingsStore) (replies : Replies) (w : World)

/-- `user_info.get('max_budget') or DEFAULT_INITIAL_BUDGET`. -/
def budgetOrDefault : Option ℚ → ℚ
  | none => store.defaultInitialBudget
  | some budget => if budget = 0 then store.defaultInitialBudget else budget

/-- The values with which the user is created. -/
def newUser : LiteLlmUser :=
  let maxBudget := store.budgetOrDefault w.userInfo.maxBudget
  let spend := w.userInfo.spend
  match w.upgradeMargin with
  | some margin => ⟨some (maxBudget * margin), spend * margin⟩
  | none => ⟨some maxBudget, spend⟩

omit store w in
/-- The user is deleted and created; if that is refused, it is tried again without the email. -/
def recreate (requested : LiteLlmUser) (user : Option LiteLlmUser) :
    Result × Option LiteLlmUser :=
  let deleted := if replies.delete.applied then none else user
  let keyed : Result := if replies.hasKey then .settings else .raised
  if replies.delete.raises then (.raised, deleted)
  else match replies.create with
    | .answered => (keyed, some requested)
    | .lost applied => (.raised, if applied then some requested else deleted)
    | .refused =>
      match replies.createAgain with
      | .answered => (keyed, some requested)
      | .lost applied => (.raised, if applied then some requested else deleted)
      | .refused => (.none, deleted)

/-- `update_settings_with_litellm_default`. -/
def updateSettingsWithLitellmDefault : Result × World :=
  if ¬ store.liteLlmConfigured then (.none, w)
  else if store.localDeployment then (.settings, w)
  else if ¬ replies.keycloakUserInfo then (.raised, w)
  else if ¬ replies.userInfo then (.raised, w)
  else if ¬ replies.readSettings then (.raised, w)
  else if w.upgradeMargin.isSome ∧ replies.commitMargin ≠ .answered then
    (.raised, if replies.commitMargin.applied then w.spendMargin else w)
  else
    let upgraded := if w.upgradeMargin.isSome then w.spendMargin else w
    let recreated := recreate replies (store.newUser w) w.liteLlmUser
    (recreated.1, { upgraded with liteLlmUser := recreated.2 })

/-- The row that `store` writes. -/
def stored : World :=
  { w with
    settings := match w.settings with
      | some settings => some { settings with userVersion := currentUserSettingsVersion }
      | none => some ⟨currentUserSettingsVersion, some store.defaultBillingMargin⟩ }

/-- `store`, if the user in LiteLLM has been brought up to date. -/
def storeSettings : Result × World → Result × World
  | (.settings, updated) =>
    match replies.commitSettings with
    | .answered => (.settings, store.stored updated)
    | reply => (.raised, if reply.applied then store.stored updated else updated)
  | other => other

/-- `has_payment_method`, where payment is required. -/
def hasPaymentMethod : Option Bool :=
  if store.requirePayment then replies.paymentMethod else some true

/-- `create_default_settings`. -/
def createDefaultSettings : Result × World :=
  if store.userId = "" then (.none, w)
  else match store.hasPaymentMethod replies with
    | none => (.raised, w)
    | some false => (.none, w)
    | some true => store.storeSettings replies (store.updateSettingsWithLitellmDefault replies w)

end SaasSettingsStore

/-- The billing margin of a user; without one nothing is multiplied. -/
def World.billingMargin (w : World) : ℚ := (w.settings.bind UserSettings.billingMargin).getD 1

/-- Both values multiplied by a margin. -/
def LiteLlmUser.scale (user : LiteLlmUser) (margin : ℚ) : LiteLlmUser :=
  ⟨user.maxBudget.map (· * margin), user.spend * margin⟩

/-- After a call that succeeds the previous values have been multiplied by the margin; after
one that fails they are the previous or the final ones. -/
structure ScaledOnce (prev : LiteLlmUser) (margin : ℚ) (outcome : Result × World) : Prop where
  success : outcome.1 = .settings → outcome.2.liteLlmUser = some (prev.scale margin)
  failure : outcome.1 ≠ .settings →
    outcome.2.liteLlmUser = some prev ∨ outcome.2.liteLlmUser = some (prev.scale margin)

/-- The reply to the request that creates the user, the last one if there are two. -/
def Replies.creation (replies : Replies) : Reply :=
  if replies.create = .refused then replies.createAgain else replies.create

/-- The user is created, unless the request to delete it raises. -/
def Replies.Creates (replies : Replies) : Prop :=
  replies.delete.raises = false ∧ replies.creation.applied = true

namespace SaasSettingsStore

variable (store : SaasSettingsStore) (replies : Replies) (w : World)

/-- The store has a user, and LiteLLM is there. -/
def Serves : Prop := store.userId ≠ "" ∧ store.liteLlmConfigured = true

/-- The call reads the user and the settings. -/
def Reads : Prop :=
  store.Serves ∧ store.hasPaymentMethod replies = some true ∧ store.localDeployment = false ∧
    replies.keycloakUserInfo = true ∧ replies.userInfo = true ∧ replies.readSettings = true

/-- The call goes on to the request that deletes the user. -/
def ReachesDelete : Prop :=
  store.Reads replies ∧ (w.upgradeMargin.isSome = true → replies.commitMargin = .answered)

/-- A call that spends a margin, or deletes the user, creates the user; only a margin that
changes nothing may be spent for nothing. -/
structure Proceeds : Prop where
  spends : store.Reads replies → w.upgradeMargin.isSome = true →
    replies.commitMargin.applied = true →
      (replies.commitMargin = .answered ∧ replies.Creates) ∨
        w.userInfo.scale (w.upgradeMargin.getD 1) = w.userInfo
  deletes : store.ReachesDelete replies w → replies.delete.applied = true → replies.Creates

/-- What a call multiplies the values by; in a local deployment it leaves LiteLLM alone. -/
def factor : ℚ := if store.localDeployment then 1 else w.upgradeMargin.getD 1

/-- The budget is one that is kept, and the values are multiplied by the margin of the user. -/
structure Upgrades : Prop where
  budget : store.localDeployment = false →
    w.userInfo.maxBudget = some (store.budgetOrDefault w.userInfo.maxBudget)
  margin : w.userInfo.scale (store.factor w) = w.userInfo.scale w.billingMargin

/-- A call in which nothing fails leaves the right values. -/
def Recovers (prev : LiteLlmUser) (margin : ℚ) : Prop :=
  ScaledOnce prev margin (store.createDefaultSettings {} w)

/-- A call as a step. -/
def perform (w : World) (replies : Replies) : World := (store.createDefaultSettings replies w).2

/-- From a state with values `prev`, every call of a sequence leaves the right values, and so
does a call in which nothing fails, made at the start or after any call of the sequence. -/
structure ScalesOnce (start : World) (prev : LiteLlmUser) (calls : List Replies) : Prop where
  before : store.Recovers start prev start.billingMargin
  during : ∀ s ∈ Run.steps store.perform start calls,
    ScaledOnce prev start.billingMargin (store.createDefaultSettings s.2 s.1) ∧
      store.Recovers (store.perform s.1 s.2) prev start.billingMargin

end SaasSettingsStore

end OpenHands.SaasSettings
