/-
# Saving a state with its session

`State.save_to_session` and `State.restore_from_session`: the state is pickled into a file
of the user's directory, or of the legacy directory when there is no user, and read back
from the first of the two that exists.  While it is pickled the state gives up its
conversation statistics, which are saved elsewhere.

  * `restoreFromSession_save` — a save that returns can be restored, whatever the legacy
    directory holds;
  * `savesSafely_iff` — the state in memory is left as it was exactly when the save
    returns, or when it had no statistics to give up.
-/
import Mathlib.Data.List.AList
import OpenHands.State

namespace OpenHands

/-! ## The whole state -/

/-- `TrafficControlState`, deprecated. -/
inductive TrafficControlState where
  | normal | throttling | paused
  deriving DecidableEq, Repr

/-- The deprecated fields of `State`. -/
structure DeprecatedFields (Metrics : Type) where
  iteration : Option ℤ := none
  localIteration : Option ℤ := none
  maxIterations : Option ℤ := none
  trafficControlState : Option TrafficControlState := none
  localMetrics : Option Metrics := none
  delegates : Option (List ((ℤ × ℤ) × (String × String))) := none
  deriving DecidableEq, Repr

/-- `State` with the fields that only its saving concerns.  Metrics, statistics and the
values of `extra_data` are carried along. -/
structure SessionState (Metrics Stats Value : Type) extends State where
  sessionId : String := ""
  userId : Option String := none
  conversationStats : Option Stats := none
  parentMetricsSnapshot : Option Metrics := none
  parentIteration : ℤ := 100
  extraData : List (String × Value) := []
  deprecated : DeprecatedFields Metrics := {}
  metrics : Metrics
  deriving DecidableEq, Repr

variable {Metrics Stats Value : Type}

/-- The dictionary that is pickled: the values, and which of the keys are there that an
older or newer version may lack. -/
structure StateDict (Metrics Stats Value : Type) where
  values : SessionState Metrics Stats Value
  hasHistory : Bool := true
  hasIterationFlag : Bool := true
  hasBudgetFlag : Bool := true
  hasDeprecated : Bool := false
  deriving DecidableEq, Repr

/-- `__getstate__`: without history, cached view and deprecated fields. -/
def SessionState.getState (s : SessionState Metrics Stats Value) :
    StateDict Metrics Stats Value where
  values := { s with history := [], viewCache := none, deprecated := {} }

/-- `__setstate__`.  A dictionary with the deprecated fields is one of an old version, whose
counters become the iteration flag. -/
def SessionState.setState (d : StateDict Metrics Stats Value) :
    SessionState Metrics Stats Value :=
  let maxIterations := d.values.deprecated.maxIterations.getD 100
  let currentIteration := d.values.deprecated.iteration.getD 0
  { d.values with
    history := if d.hasHistory then d.values.history else []
    iterationFlag :=
      if d.hasDeprecated then
        { limitIncreaseAmount := maxIterations, currentValue := currentIteration,
          maxValue := maxIterations }
      else if d.hasIterationFlag then d.values.iterationFlag
      else { limitIncreaseAmount := 100, currentValue := 0, maxValue := 100 }
    budgetFlag := if d.hasBudgetFlag then d.values.budgetFlag else none
    deprecated := if d.hasDeprecated then d.values.deprecated else {} }

/-- A state goes through the dictionary up to what is not persisted. -/
theorem setState_getState (s : SessionState Metrics Stats Value) :
    SessionState.setState s.getState
      = { s with history := [], viewCache := none, deprecated := {} } := rfl

/-! ## Files -/

/-- `pickle` with `base64`: what is dumped is loaded again.  Dumping raises on values that
cannot be pickled. -/
structure Pickle (Metrics Stats Value : Type) where
  dumps : StateDict Metrics Stats Value → Except PyError String
  loads : String → Except PyError (StateDict Metrics Stats Value)
  loads_dumps : ∀ {d encoded}, dumps d = .ok encoded → loads encoded = .ok d

/-- The paths of the file store with their contents. -/
abbrev PathStore := AList (fun _ : String => String)

/-- The store calls of one save that raise. -/
structure SaveFaults where
  write : Option PyError := none
  delete : Option PyError := none
  deriving DecidableEq, Repr

/-- `if user_id`: a user with a name that is not empty. -/
def hasUser (userId : Option String) : Bool := userId.any (· ≠ "")

/-- `get_conversation_dir`. -/
def getConversationDir (sid : String) (userId : Option String) : String :=
  match userId with
  | some user => if user ≠ "" then s!"users/{user}/conversations/{sid}/" else s!"sessions/{sid}/"
  | none => s!"sessions/{sid}/"

/-- `get_conversation_agent_state_filename`. -/
def getConversationAgentStateFilename (sid : String) (userId : Option String := none) : String :=
  getConversationDir sid userId ++ "agent_state.pkl"

/-- `self.conversation_stats = None`: the statistics are saved on their own. -/
def SessionState.withoutStats (s : SessionState Metrics Stats Value) :
    SessionState Metrics Stats Value :=
  { s with conversationStats := none }

/-- What a save leaves behind: the state in memory, the files, and how it ended. -/
structure Saved (Metrics Stats Value : Type) where
  state : SessionState Metrics Stats Value
  store : PathStore
  result : Except PyError Unit

variable (pickle : Pickle Metrics Stats Value)

/-- `State.save_to_session`.  An exception of the deletion is ignored; one of the pickling
or of the write leaves the function before the statistics are put back. -/
def saveToSession (faults : SaveFaults) (sid : String) (store : PathStore)
    (userId : Option String) (s : SessionState Metrics Stats Value) :
    Saved Metrics Stats Value :=
  let conversationStats := s.conversationStats
  let s := s.withoutStats
  match pickle.dumps s.getState with
  | .error e => ⟨s, store, .error e⟩
  | .ok encoded =>
    match faults.write with
    | some e => ⟨s, store, .error e⟩
    | none =>
      let store := store.insert (getConversationAgentStateFilename sid userId) encoded
      let store :=
        if hasUser userId && faults.delete.isNone then
          store.erase (getConversationAgentStateFilename sid)
        else store
      ⟨{ s with conversationStats := conversationStats }, store, .ok ()⟩

/-- The file of the session, or the one of the legacy directory. -/
def readSession (sid : String) (store : PathStore) (userId : Option String) :
    Except PyError String :=
  match store.lookup (getConversationAgentStateFilename sid userId) with
  | some encoded => .ok encoded
  | none =>
    if hasUser userId then
      match store.lookup (getConversationAgentStateFilename sid) with
      | some encoded => .ok encoded
      | none => .error .fileNotFoundError
    else .error .fileNotFoundError

/-- `State.restore_from_session`. -/
def restoreFromSession (sid : String) (store : PathStore) (userId : Option String) :
    Except PyError (SessionState Metrics Stats Value) := do
  let encoded ← readSession sid store userId
  let d ← pickle.loads encoded
  let s := SessionState.setState d
  return { s with
    resumeState := if s.agentState ∈ State.resumableStates then some s.agentState else none
    agentState := .loading }

/-! ## What a save leaves behind -/

/-- The state that a session starts again with. -/
def SessionState.restored (s : SessionState Metrics Stats Value) :
    SessionState Metrics Stats Value :=
  { s with
    history := []
    viewCache := none
    conversationStats := none
    deprecated := {}
    resumeState := if s.agentState ∈ State.resumableStates then some s.agentState else none
    agentState := .loading }

/-- The part of it that the controller works on is saved and restored as before. -/
theorem SessionState.restored_toState (s : SessionState Metrics Stats Value) :
    s.restored.toState = s.toState.save.restore := rfl

/-- The file of a user is never the file of the legacy directory. -/
theorem userFilename_ne_legacy (sid user : String) (hne : user ≠ "") :
    getConversationAgentStateFilename sid (some user)
      ≠ getConversationAgentStateFilename sid := by
  intro heq
  have hchars := congrArg String.toList heq
  simp [getConversationAgentStateFilename, getConversationDir, hne, toString] at hchars

/-- With a user there are two files, without one there is only the legacy file. -/
theorem filename_ne_legacy {userId : Option String} (huser : hasUser userId = true) (sid : String) :
    getConversationAgentStateFilename sid userId ≠ getConversationAgentStateFilename sid := by
  cases userId with
  | none => simp [hasUser] at huser
  | some user =>
      apply userFilename_ne_legacy
      simpa [hasUser] using huser

/-- A save returns when the state can be pickled and the file can be written. -/
theorem saveToSession_ok_iff (faults : SaveFaults) (sid : String) (store : PathStore)
    (userId : Option String) (s : SessionState Metrics Stats Value) :
    (saveToSession pickle faults sid store userId s).result = .ok ()
      ↔ faults.write = none ∧
        ∃ encoded, pickle.dumps s.withoutStats.getState = .ok encoded := by
  cases hdumps : pickle.dumps s.withoutStats.getState with
  | error e => simp [saveToSession, hdumps]
  | ok encoded => cases hwrite : faults.write <;> simp [saveToSession, hdumps, hwrite]

/-- After a save that returns the file of the session holds the pickled state: the deletion
that follows concerns another file. -/
theorem lookup_saveToSession {faults : SaveFaults} {sid : String} {store : PathStore}
    {userId : Option String} {s : SessionState Metrics Stats Value}
    (hok : (saveToSession pickle faults sid store userId s).result = .ok ()) :
    ∃ encoded, pickle.dumps s.withoutStats.getState = .ok encoded ∧
      (saveToSession pickle faults sid store userId s).store.lookup
        (getConversationAgentStateFilename sid userId) = some encoded := by
  obtain ⟨hwrite, encoded, hdumps⟩ := (saveToSession_ok_iff pickle faults sid store userId s).mp hok
  refine ⟨encoded, hdumps, ?_⟩
  simp only [saveToSession, hdumps, hwrite]
  split
  · rename_i hdelete
    have huser : hasUser userId = true := by
      simp only [Bool.and_eq_true] at hdelete
      exact hdelete.1
    rw [AList.lookup_erase_ne (filename_ne_legacy huser sid), AList.lookup_insert]
  · rw [AList.lookup_insert]

/-- A session whose file holds the pickled state starts again with that state. -/
theorem restoreFromSession_of_lookup {sid encoded : String} {store : PathStore}
    {userId : Option String} {s : SessionState Metrics Stats Value}
    (hdumps : pickle.dumps s.withoutStats.getState = .ok encoded)
    (hlookup : store.lookup (getConversationAgentStateFilename sid userId) = some encoded) :
    restoreFromSession pickle sid store userId = .ok s.restored := by
  have hread : readSession sid store userId = .ok encoded := by
    unfold readSession
    rw [hlookup]
  unfold restoreFromSession
  rw [hread]
  show (pickle.loads encoded).bind _ = _
  rw [pickle.loads_dumps hdumps]
  rfl

/-- A save that returns can be restored. -/
theorem restoreFromSession_save {faults : SaveFaults} {sid : String} {store : PathStore}
    {userId : Option String} {s : SessionState Metrics Stats Value}
    (hok : (saveToSession pickle faults sid store userId s).result = .ok ()) :
    restoreFromSession pickle sid (saveToSession pickle faults sid store userId s).store userId
      = .ok s.restored := by
  obtain ⟨encoded, hdumps, hlookup⟩ := lookup_saveToSession pickle hok
  exact restoreFromSession_of_lookup pickle hdumps hlookup

/-- A state saved for a user is restored even when the legacy directory holds, or gets
again, a state that was saved without one. -/
theorem restoreFromSession_save_legacy {faults : SaveFaults} {sid : String} {store : PathStore}
    {userId : Option String} {s : SessionState Metrics Stats Value} (huser : hasUser userId = true)
    (hok : (saveToSession pickle faults sid store userId s).result = .ok ()) (older : String) :
    restoreFromSession pickle sid
        ((saveToSession pickle faults sid store userId s).store.insert
          (getConversationAgentStateFilename sid) older) userId
      = .ok s.restored := by
  obtain ⟨encoded, hdumps, hlookup⟩ := lookup_saveToSession pickle hok
  apply restoreFromSession_of_lookup pickle hdumps
  rw [AList.lookup_insert_ne (filename_ne_legacy huser sid)]
  exact hlookup

/-! ## When a save is safe -/

/-- The state in memory is as before; what has been saved is what is restored, and a state
saved without a user does not come before it. -/
structure SavesSafely (faults : SaveFaults) (sid : String) (store : PathStore)
    (userId : Option String) (s : SessionState Metrics Stats Value) : Prop where
  unchanged : (saveToSession pickle faults sid store userId s).state = s
  restored : (saveToSession pickle faults sid store userId s).result = .ok () →
    restoreFromSession pickle sid (saveToSession pickle faults sid store userId s).store userId
      = .ok s.restored
  winsOverLegacy : (saveToSession pickle faults sid store userId s).result = .ok () →
    hasUser userId = true → ∀ older,
      restoreFromSession pickle sid
          ((saveToSession pickle faults sid store userId s).store.insert
            (getConversationAgentStateFilename sid) older) userId
        = .ok s.restored

/-- A state without statistics has none to give up. -/
theorem withoutStats_eq_self {s : SessionState Metrics Stats Value}
    (hnone : s.conversationStats = none) : s.withoutStats = s := by
  cases s
  cases hnone
  rfl

/-- The statistics come back when the save returns, and only then. -/
theorem saveToSession_state (faults : SaveFaults) (sid : String) (store : PathStore)
    (userId : Option String) (s : SessionState Metrics Stats Value) :
    (saveToSession pickle faults sid store userId s).state
      = if (saveToSession pickle faults sid store userId s).result.isOk then s
        else s.withoutStats := by
  cases hdumps : pickle.dumps s.withoutStats.getState with
  | error e =>
      simp only [saveToSession, hdumps]
      rfl
  | ok encoded =>
      cases hwrite : faults.write <;> simp only [saveToSession, hdumps, hwrite] <;> rfl

/-- A save is safe exactly when there are no statistics to lose, or when the state can be
pickled and its file written.  The deletion of the legacy file may raise. -/
theorem savesSafely_iff (faults : SaveFaults) (sid : String) (store : PathStore)
    (userId : Option String) (s : SessionState Metrics Stats Value) :
    SavesSafely pickle faults sid store userId s
      ↔ s.conversationStats = none ∨
        (faults.write = none ∧
          ∃ encoded, pickle.dumps s.withoutStats.getState = .ok encoded) := by
  have hstate := saveToSession_state pickle faults sid store userId s
  rw [← saveToSession_ok_iff pickle faults sid store userId s]
  constructor
  · intro hsafe
    cases hresult : (saveToSession pickle faults sid store userId s).result with
    | ok value => exact Or.inr rfl
    | error e =>
        left
        rw [hsafe.unchanged, hresult] at hstate
        exact congrArg SessionState.conversationStats hstate
  · intro hcase
    refine ⟨?_, restoreFromSession_save pickle, fun hok huser older =>
      restoreFromSession_save_legacy pickle huser hok older⟩
    rcases hcase with hnone | hok
    · rw [hstate]
      split
      · rfl
      · exact withoutStats_eq_self hnone
    · rw [hstate, hok]
      rfl

/-- A new session with statistics, not yet in any file. -/
def newSession : SessionState Unit Unit Unit :=
  { conversationStats := some (), metrics := () }

/-- A pickle that knows the one dictionary of the new session. -/
def newSessionPickle : Pickle Unit Unit Unit where
  dumps d := if d = newSession.withoutStats.getState then .ok "gASVAA==" else .error .osError
  loads encoded :=
    if encoded = "gASVAA==" then .ok newSession.withoutStats.getState else .error .osError
  loads_dumps := by
    intro d encoded hdumps
    split at hdumps
    · rename_i hd
      cases hdumps
      rw [hd]
      rfl
    · cases hdumps

/-- The write of the new session raises, and the session goes on without statistics. -/
theorem save_loses_stats :
    ¬ SavesSafely newSessionPickle { write := some .osError } "s1" ∅ none newSession := by
  intro hsafe
  have hstats := congrArg SessionState.conversationStats hsafe.unchanged
  have hlost : (saveToSession newSessionPickle { write := some .osError } "s1" ∅ none
      newSession).state.conversationStats = none := by
    simp [saveToSession, newSessionPickle, SessionState.withoutStats]
  rw [hlost] at hstats
  cases hstats

end OpenHands
