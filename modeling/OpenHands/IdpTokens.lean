/-
# Tokens of an identity provider

A record holds the access and the refresh token of a user at a provider, and when they expire.
A call that loads them locks the record, refreshes the tokens if the access token has less
than four hours left, writes the new ones and gives the lock back.  Other calls wait for the
lock and then look at the record as it is.  Each answer of the provider comes with a refresh
token that has not been there before.
-/
import Mathlib.Data.List.Nodup
import Mathlib.Logic.Function.Basic
import OpenHands.Lib.Run

namespace OpenHands.IdpTokens

/-- A row of `auth_tokens`; a time of 0 stands for a token that does not expire. -/
structure TokenRecord where
  accessToken : String
  refreshToken : String
  accessTokenExpiresAt : ℕ
  refreshTokenExpiresAt : ℕ
  deriving DecidableEq, Repr

namespace TokenRecord

variable (record : TokenRecord)

/-- `access_expired`: the access token has less than four hours left. -/
def accessExpired (now : ℕ) : Bool :=
  record.accessTokenExpiresAt ≠ 0 ∧ record.accessTokenExpiresAt < now + 14400

/-- `refresh_expired`. -/
def refreshExpired (now : ℕ) : Bool :=
  record.refreshTokenExpiresAt ≠ 0 ∧ record.refreshTokenExpiresAt < now

end TokenRecord

/-- What `_check_expiration_and_refresh` does with the times of a record. -/
inductive Check where
  | valid
  | refresh (refreshToken : String)
  | bothExpired
  deriving DecidableEq, Repr

def checkExpirationAndRefresh (record : TokenRecord) (now : ℕ) : Check :=
  if ¬ record.accessExpired now then .valid
  else if record.refreshExpired now then .bothExpired
  else .refresh record.refreshToken

/-- The answer of the provider to a refresh. -/
structure RefreshResponse where
  accessToken : String
  refreshToken : String
  expiresIn : ℕ := 0
  refreshTokenExpiresIn : Option ℕ := none
  refreshExpiresIn : ℕ := 0
  deriving DecidableEq, Repr

/-- When a token expires that has just been obtained. -/
def expiresAt (now lifetime : ℕ) : ℕ := if lifetime = 0 then 0 else now + lifetime

/-- `_parse_refresh_response`; `none` where it raises. -/
def parseRefreshResponse (data : RefreshResponse) (now : ℕ) : Option TokenRecord :=
  if data.accessToken = "" ∨ data.refreshToken = "" then none
  else some {
    accessToken := data.accessToken
    refreshToken := data.refreshToken
    accessTokenExpiresAt := expiresAt now data.expiresIn
    refreshTokenExpiresAt :=
      expiresAt now (data.refreshTokenExpiresIn.getD data.refreshExpiresIn) }

/-- The record at the start, and the tokens that the provider answers with one after the other;
the refresh tokens are all different. -/
structure Setup where
  record : Option TokenRecord
  answers : ℕ → String × String
  answers_ne : ∀ n, (answers n).1 ≠ "" ∧ (answers n).2 ≠ ""
  answers_inj : ∀ m n, (answers m).2 = (answers n).2 → m = n
  answers_new : ∀ n r, record = some r → (answers n).2 ≠ r.refreshToken

/-- The lifetimes that the provider gives to a pair of tokens. -/
structure Lifetimes where
  access : ℕ
  refresh : ℕ
  access_pos : 0 < access
  refresh_pos : 0 < refresh

/-- The `n`-th answer of the provider. -/
def Setup.response (S : Setup) (n : ℕ) (lifetimes : Lifetimes) : RefreshResponse where
  accessToken := (S.answers n).1
  refreshToken := (S.answers n).2
  expiresIn := lifetimes.access
  refreshTokenExpiresIn := some lifetimes.refresh

/-- Where a call of `load_tokens` stands. -/
inductive CallState where
  | idle
  /-- It waits for the lock since the tokens had been refreshed `since` times. -/
  | waiting (since : ℕ)
  | refreshing
  | returned (tokens : Option TokenRecord)
  | raised
  deriving DecidableEq, Repr

inductive Outcome where
  | returned (tokens : Option TokenRecord)
  | refreshed
  | raised
  deriving DecidableEq, Repr

/-- A call that got the lock: how often the tokens had been refreshed when it was made and when
it got the lock, whether it found the access token expired, and what it did. -/
structure Checked where
  calledAt : ℕ
  found : ℕ
  expired : Bool
  outcome : Outcome
  deriving DecidableEq, Repr

/-- The clock, the record, the call that holds the lock, and the calls; and of the past, how
often the tokens were refreshed, what the record has held one after the other, which refresh
tokens were presented, and which calls got the lock. -/
structure World (C : Type*) where
  clock : ℕ := 0
  record : Option TokenRecord
  lock : Option C := none
  calls : C → CallState := fun _ => .idle
  version : ℕ := 0
  held : List (Option TokenRecord)
  presented : List String := []
  checked : List Checked := []

/-- A call is made, a call gets the lock and looks at the record, the provider answers the call
that holds it, or time passes. -/
inductive Move (C : Type*) where
  | call (c : C)
  | acquire (c : C)
  | respond (lifetimes : Lifetimes)
  | elapse (seconds : ℕ)

variable {C : Type*}

def Setup.start (S : Setup) : World C where
  record := S.record
  held := [S.record]

namespace World

variable [DecidableEq C] (S : Setup) (w : World C)

/-- A call that got the lock is settled. -/
def settle (c : C) (state : CallState) (entry : Checked) : World C :=
  { w with calls := Function.update w.calls c state, checked := w.checked ++ [entry] }

/-- The row is locked and looked at; without a refresh the lock is given back at once. -/
def acquire (c : C) : World C :=
  match w.lock, w.calls c with
  | none, .waiting since =>
    match w.record with
    | none => w.settle c (.returned none) ⟨since, w.version, false, .returned none⟩
    | some record =>
      match checkExpirationAndRefresh record w.clock with
      | .valid =>
        w.settle c (.returned (some record)) ⟨since, w.version, false, .returned (some record)⟩
      | .bothExpired => w.settle c .raised ⟨since, w.version, true, .raised⟩
      | .refresh refreshToken =>
        { w.settle c .refreshing ⟨since, w.version, true, .refreshed⟩ with
          lock := some c
          presented := w.presented ++ [refreshToken] }
  | _, _ => w

/-- The new tokens are written, and the call that got them returns them. -/
def respond (lifetimes : Lifetimes) : World C :=
  match w.lock with
  | none => w
  | some c =>
    match parseRefreshResponse (S.response w.version lifetimes) w.clock with
    | none => { w with lock := none, calls := Function.update w.calls c .raised }
    | some tokens =>
      { w with
        lock := none
        calls := Function.update w.calls c (.returned (some tokens))
        record := some tokens
        version := w.version + 1
        held := w.held ++ [some tokens] }

def perform : Move C → World C
  | .call c =>
    if w.calls c = .idle then
      { w with calls := Function.update w.calls c (.waiting w.version) }
    else w
  | .acquire c => w.acquire c
  | .respond lifetimes => w.respond S lifetimes
  | .elapse seconds => { w with clock := w.clock + seconds }

omit [DecidableEq C] in
/-- No refresh token is presented twice; of the calls that were made with one pair of tokens, at
most one refreshes, and one does if they find the access token expired; a call whose tokens
were refreshed while it waited returns those that the last refresh has left. -/
structure Shared : Prop where
  presentedOnce : w.presented.Nodup
  oneRefresh : ∀ v, w.checked.countP
    (fun entry => entry.calledAt = v ∧ entry.outcome = .refreshed) ≤ 1
  refreshes : ∀ entry ∈ w.checked, entry.calledAt = entry.found → entry.expired = true →
    entry.outcome = .refreshed
  waited : ∀ entry ∈ w.checked, entry.calledAt < entry.found →
    ∃ tokens, w.held[entry.found]? = some tokens ∧ entry.outcome = .returned tokens

/-- A call that gets the lock and finds the access token expired has not waited for a refresh,
and finds a refresh token that is valid. -/
def MayRefresh : Move C → Prop
  | .acquire c => ∀ since record, w.lock = none → w.calls c = .waiting since →
      w.record = some record → record.accessExpired w.clock = true →
        since = w.version ∧ record.refreshExpired w.clock = false
  | _ => True

end World

end OpenHands.IdpTokens
