/-
# Providers of git integrations

An enumeration of Python: its members have a name and a value, and are looked up by either.
-/
import Mathlib.Data.List.Basic

namespace OpenHands

/-- `ProviderType`. -/
inductive ProviderType where
  | github | gitlab | bitbucket | enterpriseSso
  deriving DecidableEq, Repr

namespace ProviderType

/-- The members in the order in which they are defined. -/
def members : List ProviderType := [.github, .gitlab, .bitbucket, .enterpriseSso]

def name : ProviderType → String
  | github => "GITHUB"
  | gitlab => "GITLAB"
  | bitbucket => "BITBUCKET"
  | enterpriseSso => "ENTERPRISE_SSO"

def value : ProviderType → String
  | github => "github"
  | gitlab => "gitlab"
  | bitbucket => "bitbucket"
  | enterpriseSso => "enterprise_sso"

/-- `ProviderType[name]`; `none` where it raises a `KeyError`. -/
def ofName? (name : String) : Option ProviderType := members.find? (·.name = name)

/-- `ProviderType(value)`; `none` where it raises a `ValueError`. -/
def ofValue? (value : String) : Option ProviderType := members.find? (·.value = value)

/-- A member is found under its name. -/
@[simp] theorem ofName?_name (provider : ProviderType) : ofName? provider.name = some provider := by
  cases provider <;> decide

/-- A member is found under its value. -/
@[simp] theorem ofValue?_value (provider : ProviderType) :
    ofValue? provider.value = some provider := by
  cases provider <;> decide

/-- No member is found under the value of one. -/
theorem ofName?_value (provider : ProviderType) : ofName? provider.value = none := by
  cases provider <;> decide

end ProviderType

end OpenHands
