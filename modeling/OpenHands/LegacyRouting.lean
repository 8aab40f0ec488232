/-
# Two conversation managers

`LegacyConversationManager` (enterprise/server/legacy_conversation_manager.py) stands in front of
two managers: the legacy one, and the one whose conversations are nested.  A call for a conversation
is forwarded according to the runtime of the conversation, which is asked for once an hour.

The calls are described over any way to keep the answers, so that the cache, which is cleaned, can
be compared with a table of the last answers.  `Sim` is the comparison: two calls give the same, and
leave states that are related, as long as the clock does not go back.
-/
import OpenHands.Lib.TimedCache
import Mathlib.Data.List.Infix
import Mathlib.Tactic.NormNum

namespace OpenHands.LegacyRouting

open TimedCache (Entry Keeper Look Table Holds)

/-- `_LEGACY_ENTRY_TIMEOUT_SECONDS`. -/
def legacyEntryTimeoutSeconds : ℚ := 3600

/-- What asking for a runtime raises. -/
inductive Failure
  | httpError (text : String)
  | keyError
  deriving DecidableEq, Repr

/-- A runtime, with its `command` if it has one. -/
structure Runtime where
  command : Option (List Char)

/-- `is_legacy_runtime`. -/
def isLegacyRuntime : Option Runtime → Except Failure Bool
  | none => .ok false
  | some runtime =>
    match runtime.command with
    | none => .error .keyError
    | some command => .ok !("openhands.server".toList <:+: command)

/-- What a check of a conversation meets: the clock, and the runtime if it asks. -/
structure Check where
  cleanedAt : ℚ
  checkedAt : ℚ
  runtime : Except Failure (Option Runtime)
  storedAt : ℚ

/-- The check as a lookup. -/
def Check.look (check : Check) : Look Failure Bool where
  cleanedAt := check.cleanedAt
  checkedAt := check.checkedAt
  answer := check.runtime.bind isLegacyRuntime
  storedAt := check.storedAt

/-- The readings of the clock when a check looks at the cache. -/
def Check.readings (check : Check) : List ℚ := [check.cleanedAt, check.checkedAt]

/-- The clock does not go back. -/
def Clocked (readings : List ℚ) : Prop := readings.Pairwise (· ≤ ·)

/-- `_legacy_cache`. -/
abbrev LegacyCache := PyDict String (Entry Bool)

/-- Keeping the answers in `_legacy_cache`. -/
def legacyCache : Keeper String Bool LegacyCache := TimedCache.cached legacyEntryTimeoutSeconds

/-- Keeping the last answers. -/
def lastAnswers : Keeper String Bool (Table String Bool) :=
  TimedCache.lasting legacyEntryTimeoutSeconds

/-! ## Checks that overlap -/

/-- `should_start_in_legacy_mode` awaits the runtime, and other checks happen meanwhile: a check
begins, and finishes if it has to ask. -/
inductive Event
  | begins (conversationId : String) (cleanedAt checkedAt : ℚ)
  | finishes (conversationId : String) (runtime : Except Failure (Option Runtime)) (storedAt : ℚ)

/-- What a check sees: an answer in the cache if there is one, or the answer that it asked for. -/
inductive Reply
  | found (isLegacy : Option Bool)
  | answered (isLegacy : Except Failure Bool)
  deriving DecidableEq

section Checks

variable {σ : Type} (keeper : Keeper String Bool σ)

def Event.perform (s : σ) : Event → Reply × σ
  | .begins conversationId cleanedAt checkedAt =>
    let (isLegacy, s) := keeper.check s conversationId cleanedAt checkedAt
    (.found isLegacy, s)
  | .finishes conversationId runtime storedAt =>
    let (isLegacy, s) := keeper.answered s conversationId (runtime.bind isLegacyRuntime) storedAt
    (.answered isLegacy, s)

/-- The replies of a run. -/
def replies (s : σ) : List Event → List Reply
  | [] => []
  | event :: events => (event.perform keeper s).1 :: replies (event.perform keeper s).2 events

/-- The readings of the clock when an event looks at the cache. -/
def Event.readings : Event → List ℚ
  | .begins _ cleanedAt checkedAt => [cleanedAt, checkedAt]
  | .finishes .. => []

end Checks

/-! ## The calls -/

/-- The two managers. -/
inductive Side
  | legacy
  | nested
  deriving DecidableEq, Repr

/-- A call that looks at the answers that are kept, and may raise. -/
abbrev Call (σ α : Type) := ExceptT Failure (StateM σ) α

section Calls

variable {σ : Type} (keeper : Keeper String Bool σ)

/-- `should_start_in_legacy_mode`. -/
def shouldStartInLegacyMode (conversationId : String) (check : Check) : Call σ Bool :=
  fun s => keeper.lookup s conversationId check.look

/-- A call that goes to the manager of its conversation. -/
def forward (sid : String) (check : Check) : Call σ (List Side) := do
  let isLegacy ← shouldStartInLegacyMode keeper sid check
  if isLegacy then pure [.legacy] else pure [.nested]

/-- A call without a `return` in its first branch: it goes on to the nested manager. -/
def forwardOn (sid : String) (check : Check) : Call σ (List Side) := do
  let isLegacy ← shouldStartInLegacyMode keeper sid check
  if isLegacy then pure [.legacy, .nested] else pure [.nested]

/-- `attach_to_conversation`. -/
def attachToConversation := forward keeper

/-- `detach_from_conversation`. -/
def detachFromConversation := forward keeper

/-- `join_conversation`. -/
def joinConversation := forward keeper

/-- `maybe_start_agent_loop`. -/
def maybeStartAgentLoop := forward keeper

/-- `get_running_agent_loops` of one conversation, and with it `is_agent_loop_running`. -/
def getRunningAgentLoopsOf := forward keeper

/-- `get_connections` of one conversation. -/
def getConnectionsOf := forward keeper

/-- `get_agent_loop_info` of one conversation. -/
def getAgentLoopInfoOf := forward keeper

/-- `send_event_to_conversation`. -/
def sendEventToConversation := forwardOn keeper

/-- `close_session`. -/
def closeSession := forwardOn keeper

/-- The calls that are for one conversation. -/
inductive Method
  | attachToConversation
  | detachFromConversation
  | joinConversation
  | maybeStartAgentLoop
  | getRunningAgentLoops
  | getConnections
  | getAgentLoopInfo
  | sendEventToConversation
  | closeSession
  deriving DecidableEq, Repr

def Method.call : Method → String → Check → Call σ (List Side)
  | .attachToConversation => LegacyRouting.attachToConversation keeper
  | .detachFromConversation => LegacyRouting.detachFromConversation keeper
  | .joinConversation => LegacyRouting.joinConversation keeper
  | .maybeStartAgentLoop => LegacyRouting.maybeStartAgentLoop keeper
  | .getRunningAgentLoops => getRunningAgentLoopsOf keeper
  | .getConnections => getConnectionsOf keeper
  | .getAgentLoopInfo => getAgentLoopInfoOf keeper
  | .sendEventToConversation => LegacyRouting.sendEventToConversation keeper
  | .closeSession => LegacyRouting.closeSession keeper

/-- The loops of a manager that are kept, each with the check that is made for it: those of the
mode `mode` that are not in `seen`. -/
def keepLoops (mode : Bool) (seen : List String) : List (String × Check) → Call σ (List String)
  | [] => pure []
  | (sid, check) :: loops =>
    if sid ∈ seen then keepLoops mode seen loops
    else do
      let isLegacy ← shouldStartInLegacyMode keeper sid check
      let sids ← keepLoops mode seen loops
      pure (if isLegacy = mode then sid :: sids else sids)

/-- `get_agent_loop_info` of all conversations, or of more than one: the loops of both managers. -/
def getAgentLoopInfo (legacyLoops loops : List (String × Check)) :
    Call σ (List (Side × String)) := do
  let legacySids ← keepLoops keeper true [] legacyLoops
  let sids ← keepLoops keeper false legacySids loops
  pure (legacySids.map (Side.legacy, ·) ++ sids.map (Side.nested, ·))

/-- `get_running_agent_loops` of all conversations, or of more than one: a set. -/
def getRunningAgentLoops (legacyLoops loops : List (String × Check)) : Call σ (List String) := do
  let legacySids ← keepLoops keeper true [] legacyLoops
  let sids ← keepLoops keeper false [] loops
  pure (legacySids ∪ sids)

/-- A call, with what it meets. -/
inductive Op
  | single (method : Method) (sid : String) (check : Check)
  | agentLoopInfo (legacyLoops loops : List (String × Check))
  | runningAgentLoops (legacyLoops loops : List (String × Check))

/-- What a call does: it goes to some of the managers, or reports loops. -/
inductive Effect
  | forwarded (sides : List Side)
  | loops (found : List (Side × String))
  | sids (found : List String)
  deriving DecidableEq, Repr

def Op.call : Op → Call σ Effect
  | .single method sid check => do
    let sides ← method.call keeper sid check
    pure (.forwarded sides)
  | .agentLoopInfo legacyLoops loops => do
    let found ← getAgentLoopInfo keeper legacyLoops loops
    pure (.loops found)
  | .runningAgentLoops legacyLoops loops => do
    let found ← getRunningAgentLoops keeper legacyLoops loops
    pure (.sids found)

/-- What the calls do, one after the other. -/
def effects (s : σ) : List Op → List (Except Failure Effect)
  | [] => []
  | op :: ops => (op.call keeper s).1 :: effects (op.call keeper s).2 ops

/-- What is kept after the calls. -/
def after (s : σ) (ops : List Op) : σ := ops.foldl (fun s op => (op.call keeper s).2) s

theorem effects_append (s : σ) (ops ops' : List Op) :
    effects keeper s (ops ++ ops')
      = effects keeper s ops ++ effects keeper (after keeper s ops) ops' := by
  induction ops generalizing s with
  | nil => rfl
  | cons op ops ih =>
      rw [List.cons_append, effects, effects, ih]
      rfl

@[simp]
theorem length_effects (s : σ) (ops : List Op) : (effects keeper s ops).length = ops.length := by
  induction ops generalizing s with
  | nil => rfl
  | cons op ops ih => rw [effects, List.length_cons, ih, List.length_cons]

end Calls

/-- The readings of the clock that a call makes. -/
def Op.readings : Op → List ℚ
  | .single _ _ check => check.readings
  | .agentLoopInfo legacyLoops loops =>
    legacyLoops.flatMap (·.2.readings) ++ loops.flatMap (·.2.readings)
  | .runningAgentLoops legacyLoops loops =>
    legacyLoops.flatMap (·.2.readings) ++ loops.flatMap (·.2.readings)

/-! ## Comparing calls -/

section Sim

variable {σ τ α β : Type}

/-- From related states two calls give the same, and leave related states. -/
def Sim (R : σ → τ → ℚ → Prop) (readings : List ℚ) (x : Call σ α) (y : Call τ α) : Prop :=
  ∀ s t now rest, R s t now → Clocked (now :: (readings ++ rest)) →
    (x s).1 = (y t).1 ∧ ∃ later, R (x s).2 (y t).2 later ∧ Clocked (later :: rest)

variable {R : σ → τ → ℚ → Prop} {readings readings' : List ℚ}

theorem Sim.pure (a : α) : Sim R [] (pure a : Call σ α) (pure a : Call τ α) :=
  fun _ _ now _ hR hclock => ⟨rfl, now, hR, hclock⟩

theorem bind_ok {x : Call σ α} {f : α → Call σ β} {s s' : σ} {a : α} (h : x s = (.ok a, s')) :
    (x >>= f) s = f a s' := by
  change (match x s with
    | (a, s) => ExceptT.bindCont f a s) = _
  rw [h]
  rfl

theorem bind_error {x : Call σ α} {f : α → Call σ β} {s s' : σ} {failure : Failure}
    (h : x s = (.error failure, s')) : (x >>= f) s = (.error failure, s') := by
  change (match x s with
    | (a, s) => ExceptT.bindCont f a s) = _
  rw [h]
  rfl

/-- More readings. -/
theorem Sim.of_sublist {x : Call σ α} {y : Call τ α} (h : Sim R readings x y)
    (hsub : readings.Sublist readings') : Sim R readings' x y :=
  fun s t now rest hR hclock =>
    h s t now rest hR (List.Pairwise.sublist ((hsub.append_right rest).cons_cons now) hclock)

/-- Two calls one after the other. -/
theorem Sim.bind {x : Call σ α} {y : Call τ α} {f : α → Call σ β} {g : α → Call τ β}
    (h : Sim R readings x y) (hrest : ∀ a, Sim R readings' (f a) (g a)) :
    Sim R (readings ++ readings') (x >>= f) (y >>= g) := by
  intro s t now rest hR hclock
  rw [List.append_assoc] at hclock
  obtain ⟨hsame, later, hlater, hclock'⟩ := h s t now (readings' ++ rest) hR hclock
  cases hx : x s with
  | mk result s' =>
      cases hy : y t with
      | mk result' t' =>
          rw [hx, hy] at hsame hlater
          dsimp only at hsame hlater
          subst hsame
          cases result with
          | ok a =>
              rw [bind_ok hx, bind_ok hy]
              exact hrest a s' t' later rest hlater hclock'
          | error failure =>
              rw [bind_error hx, bind_error hy]
              -- the rest is never run, and its clock readings are skipped
              have hsub := (List.sublist_append_right readings' rest).cons_cons later
              exact ⟨rfl, later, hlater, List.Pairwise.sublist hsub hclock'⟩

end Sim

section Runs

variable {σ τ : Type} {keeper : Keeper String Bool σ} {keeper' : Keeper String Bool τ}
  {R : σ → τ → ℚ → Prop}

/-- Two ways to keep the answers, between which no check can tell. -/
def Agree (keeper : Keeper String Bool σ) (keeper' : Keeper String Bool τ)
    (R : σ → τ → ℚ → Prop) : Prop :=
  ∀ sid check, Sim R check.readings (shouldStartInLegacyMode keeper sid check)
    (shouldStartInLegacyMode keeper' sid check)

theorem sim_ite {α : Type} (b : Bool) (a a' : α) :
    Sim R [] (if b then pure a else pure a' : Call σ α) (if b then pure a else pure a') := by
  cases b with
  | true => exact .pure a
  | false => exact .pure a'

theorem Agree.forward (h : Agree keeper keeper' R) (sid : String) (check : Check) :
    Sim R check.readings (forward keeper sid check) (LegacyRouting.forward keeper' sid check) := by
  rw [← List.append_nil check.readings]
  exact (h sid check).bind fun isLegacy => sim_ite isLegacy _ _

theorem Agree.forwardOn (h : Agree keeper keeper' R) (sid : String) (check : Check) :
    Sim R check.readings (forwardOn keeper sid check)
      (LegacyRouting.forwardOn keeper' sid check) := by
  rw [← List.append_nil check.readings]
  exact (h sid check).bind fun isLegacy => sim_ite isLegacy _ _

theorem Agree.method (h : Agree keeper keeper' R) (method : Method) (sid : String)
    (check : Check) :
    Sim R check.readings (method.call keeper sid check) (method.call keeper' sid check) := by
  cases method with
  | attachToConversation => exact h.forward sid check
  | detachFromConversation => exact h.forward sid check
  | joinConversation => exact h.forward sid check
  | maybeStartAgentLoop => exact h.forward sid check
  | getRunningAgentLoops => exact h.forward sid check
  | getConnections => exact h.forward sid check
  | getAgentLoopInfo => exact h.forward sid check
  | sendEventToConversation => exact h.forwardOn sid check
  | closeSession => exact h.forwardOn sid check

theorem Agree.keepLoops (h : Agree keeper keeper' R) (mode : Bool) (seen : List String)
    (loops : List (String × Check)) :
    Sim R (loops.flatMap (·.2.readings)) (keepLoops keeper mode seen loops)
      (LegacyRouting.keepLoops keeper' mode seen loops) := by
  induction loops with
  | nil => exact .pure []
  | cons loop loops ih =>
      obtain ⟨sid, check⟩ := loop
      rw [List.flatMap_cons]
      unfold LegacyRouting.keepLoops
      split_ifs
      · exact ih.of_sublist (List.sublist_append_right _ _)
      · refine (h sid check).bind fun isLegacy => ?_
        rw [← List.append_nil (loops.flatMap _)]
        exact ih.bind fun sids => .pure _

/-- **One call.** -/
theorem Agree.call (h : Agree keeper keeper' R) (op : Op) :
    Sim R op.readings (op.call keeper) (op.call keeper') := by
  rw [← List.append_nil op.readings]
  cases op with
  | single method sid check =>
      exact (h.method method sid check).bind fun sides => .pure _
  | agentLoopInfo legacyLoops loops =>
      refine Sim.bind ?_ fun found => .pure _
      refine (h.keepLoops true [] legacyLoops).bind fun legacySids => ?_
      rw [← List.append_nil (loops.flatMap _)]
      exact (h.keepLoops false legacySids loops).bind fun sids => .pure _
  | runningAgentLoops legacyLoops loops =>
      refine Sim.bind ?_ fun found => .pure _
      refine (h.keepLoops true [] legacyLoops).bind fun legacySids => ?_
      rw [← List.append_nil (loops.flatMap _)]
      exact (h.keepLoops false [] loops).bind fun sids => .pure _

/-- **A run.** -/
theorem Agree.run (h : Agree keeper keeper' R) (ops : List Op) {s : σ} {t : τ} {now : ℚ}
    {rest : List ℚ} (hR : R s t now)
    (hclock : Clocked (now :: (ops.flatMap Op.readings ++ rest))) :
    effects keeper s ops = effects keeper' t ops ∧
      ∃ later, R (after keeper s ops) (after keeper' t ops) later ∧ Clocked (later :: rest) := by
  induction ops generalizing s t now with
  | nil => exact ⟨rfl, now, hR, hclock⟩
  | cons op ops ih =>
      rw [List.flatMap_cons, List.append_assoc] at hclock
      obtain ⟨hsame, later, hlater, hclock'⟩ := h.call op s t now _ hR hclock
      obtain ⟨hrest, hend⟩ := ih hlater hclock'
      refine ⟨?_, hend⟩
      rw [effects, effects, hsame, hrest]

end Runs

/-! ## The cache and the last answers -/

/-- The relation between the cache and the last answers. -/
abbrev Kept := Holds (κ := String) (ν := Bool) legacyEntryTimeoutSeconds

theorem agree_legacyCache : Agree legacyCache lastAnswers Kept := by
  intro sid check s t now rest hR hclock
  have hcleaned : now ≤ check.cleanedAt := List.rel_of_pairwise_cons hclock List.mem_cons_self
  have hchecked : check.cleanedAt ≤ check.checkedAt :=
    List.rel_of_pairwise_cons hclock.tail List.mem_cons_self
  obtain ⟨hsame, hafter⟩ := hR.lookup sid check.look hcleaned hchecked
  exact ⟨hsame, check.checkedAt, hafter, hclock.tail.tail⟩

/-- The answers that calls store in the cache, the latest first. -/
def stored (ops : List Op) : TimedCache.Log String Bool :=
  (after legacyCache.logged (.empty, []) ops).2

/-- The cache with a log of what is stored, and the last answers. -/
def KeptWithLog (s : LegacyCache × TimedCache.Log String Bool) (table : Table String Bool)
    (now : ℚ) : Prop :=
  Kept s.1 table now ∧ ∀ sid, s.2.lookup sid = table sid

theorem agree_logged : Agree legacyCache.logged lastAnswers KeptWithLog := by
  rintro sid check ⟨cache, log⟩ table now rest ⟨hkept, hlog⟩ hclock
  have hcleaned : now ≤ check.cleanedAt := List.rel_of_pairwise_cons hclock List.mem_cons_self
  have hchecked : check.cleanedAt ≤ check.checkedAt :=
    List.rel_of_pairwise_cons hclock.tail List.mem_cons_self
  obtain ⟨hsame, hafter⟩ := hkept.logged hlog sid check.look hcleaned hchecked
  exact ⟨hsame, check.checkedAt, hafter, hclock.tail.tail⟩

/-- The last answer of a conversation stays until it is too old. -/
theorem agree_lastAnswers (sid : String) (entry : Entry Bool) :
    Agree lastAnswers lastAnswers fun table table' now =>
      table = table' ∧
        (table sid = some entry ∨ legacyEntryTimeoutSeconds < now - entry.timestamp) := by
  rintro other check table _ now rest ⟨rfl, hentry⟩ hclock
  have hnow : now ≤ check.checkedAt :=
    List.rel_of_pairwise_cons hclock (List.mem_cons_of_mem _ List.mem_cons_self)
  refine ⟨rfl, check.checkedAt, ⟨rfl, ?_⟩, hclock.tail.tail⟩
  -- the entry is there until it is too old, and stays too old from then on
  rcases hentry with hentry | hold
  · by_cases htime : check.checkedAt - entry.timestamp ≤ legacyEntryTimeoutSeconds
    · left
      by_cases hsid : sid = other
      · subst hsid
        change (lastAnswers.lookup table sid check.look).2 sid = _
        unfold lastAnswers
        rw [TimedCache.lookup_of_fresh check.look hentry htime]
        exact hentry
      · exact (TimedCache.lookup_of_ne check.look hsid).trans hentry
    · exact Or.inr (lt_of_not_ge htime)
  · exact Or.inr (lt_of_lt_of_le hold (sub_le_sub_right hnow _))

/-- A clock reading before all others. -/
theorem exists_clocked {readings : List ℚ} (hclock : Clocked readings) :
    ∃ now, Clocked (now :: readings) := by
  cases readings with
  | nil => exact ⟨0, List.pairwise_singleton _ _⟩
  | cons reading readings =>
      refine ⟨reading, List.pairwise_cons.mpr ⟨?_, hclock⟩⟩
      intro later hlater
      rcases List.mem_cons.mp hlater with rfl | hlater
      · exact le_refl _
      · exact List.rel_of_pairwise_cons hclock hlater

/-! ## What a check finds -/

section Checks

variable {σ : Type} {keeper : Keeper String Bool σ}

/-- What is kept after the events. -/
def afterEvents (keeper : Keeper String Bool σ) (s : σ) (events : List Event) : σ :=
  events.foldl (fun s event => (event.perform keeper s).2) s

theorem replies_append (s : σ) (events events' : List Event) :
    replies keeper s (events ++ events')
      = replies keeper s events ++ replies keeper (afterEvents keeper s events) events' := by
  induction events generalizing s with
  | nil => rfl
  | cons event events ih =>
      rw [List.cons_append, replies, replies, ih]
      rfl

@[simp]
theorem length_replies (s : σ) (events : List Event) :
    (replies keeper s events).length = events.length := by
  induction events generalizing s with
  | nil => rfl
  | cons event events ih => rw [replies, List.length_cons, ih, List.length_cons]

/-- The replies with the cache are those with the last answers. -/
theorem replies_eq (events : List Event) {cache : LegacyCache} {table : Table String Bool} {now : ℚ}
    (hkept : Kept cache table now) (hclock : Clocked (now :: events.flatMap Event.readings)) :
    replies legacyCache cache events = replies lastAnswers table events := by
  induction events generalizing cache table now with
  | nil => rfl
  | cons event events ih =>
      cases event with
      | begins sid cleanedAt checkedAt =>
          have hcleaned : now ≤ cleanedAt := List.rel_of_pairwise_cons hclock List.mem_cons_self
          have hchecked : cleanedAt ≤ checkedAt :=
            List.rel_of_pairwise_cons hclock.tail List.mem_cons_self
          obtain ⟨hsame, hafter⟩ := hkept.check sid hcleaned hchecked
          exact congrArg₂ List.cons (congrArg Reply.found hsame) (ih hafter hclock.tail.tail)
      | finishes sid runtime storedAt =>
          obtain ⟨hsame, hafter⟩ := hkept.answered sid (runtime.bind isLegacyRuntime) storedAt
          exact congrArg₂ List.cons (congrArg Reply.answered hsame) (ih hafter hclock)

/-- What an event stores for a conversation. -/
def Event.entry? (sid : String) : Event → Option (Entry Bool)
  | .begins .. => none
  | .finishes conversationId runtime storedAt =>
    if sid = conversationId then
      match runtime.bind isLegacyRuntime with
      | .ok isLegacy => some ⟨isLegacy, storedAt⟩
      | .error _ => none
    else none

/-- The last answer for a conversation. -/
def lastAnswer (sid : String) (events : List Event) : Option (Entry Bool) :=
  events.reverse.findSome? (Event.entry? sid)

theorem lastAnswer_concat (sid : String) (events : List Event) (event : Event) :
    lastAnswer sid (events ++ [event]) = (event.entry? sid).or (lastAnswer sid events) := by
  unfold lastAnswer
  rw [List.reverse_concat, List.findSome?_cons]
  cases event.entry? sid with
  | none => rfl
  | some entry => rfl

theorem afterEvents_lastAnswers (events : List Event) :
    afterEvents lastAnswers (fun _ => none) events = fun sid => lastAnswer sid events := by
  induction events using List.reverseRecOn with
  | nil => rfl
  | append_singleton events event ih =>
      unfold afterEvents at ih ⊢
      rw [List.foldl_concat, ih]
      funext sid
      rw [lastAnswer_concat]
      cases event with
      | begins conversationId cleanedAt checkedAt => rfl
      | finishes conversationId runtime storedAt =>
          unfold Event.perform Event.entry? Keeper.answered
          dsimp only
          cases runtime.bind isLegacyRuntime with
          | error failure =>
              dsimp only
              rw [ite_self]
              rfl
          | ok isLegacy =>
              dsimp only [lastAnswers, TimedCache.lasting]
              split_ifs <;> rfl

/-- **What a check finds**, whatever other checks overlap with it and with each other: the last
answer for its conversation, if that is not more than an hour old. -/
theorem getElem?_replies_begins {before rest : List Event} {sid : String} {cleanedAt checkedAt : ℚ}
    (hclock : Clocked
      ((before ++ .begins sid cleanedAt checkedAt :: rest).flatMap Event.readings)) :
    (replies legacyCache .empty (before ++ .begins sid cleanedAt checkedAt :: rest))[before.length]?
      = some (.found (((lastAnswer sid before).filter fun entry =>
          decide (checkedAt - entry.timestamp ≤ legacyEntryTimeoutSeconds)).map Entry.value)) := by
  obtain ⟨now, hnow⟩ := exists_clocked hclock
  rw [replies_eq _ (TimedCache.holds_empty now) hnow, replies_append,
    List.getElem?_append_right (by rw [length_replies]), length_replies, Nat.sub_self,
    afterEvents_lastAnswers]
  rfl

/-- A check of another conversation begins, and one that asks for this one finishes. -/
def overlapping : List Event :=
  [.finishes "sid" (.ok (some ⟨some ['u', 'v']⟩)) 5, .begins "other" 6 7,
    .begins "sid" 3604 3605, .finishes "other" (.error .keyError) 3605]

theorem getElem?_replies_begins_overlapping :
    (replies legacyCache .empty
        (overlapping ++ Event.begins "sid" 3605 3606 :: []))[overlapping.length]?
      = some (.found none) := by
  have hclock :
      Clocked ((overlapping ++ Event.begins "sid" 3605 3606 :: []).flatMap Event.readings) := by
    simp [Clocked, overlapping, Event.readings]
    norm_num
  refine (getElem?_replies_begins hclock).trans ?_
  have hanswer : lastAnswer "sid" overlapping = some ⟨true, 5⟩ := rfl
  rw [hanswer, Option.filter_some]
  norm_num [legacyEntryTimeoutSeconds]

end Checks

/-! ## The same manager for an hour -/

/-- The managers that a call reaches. -/
def Method.sides (method : Method) (isLegacy : Bool) : List Side :=
  if isLegacy then
    if method = .sendEventToConversation ∨ method = .closeSession then [.legacy, .nested]
    else [.legacy]
  else [.nested]

section Routing

variable {σ : Type} {keeper : Keeper String Bool σ} {sid : String} {check : Check} {s s' : σ}

/-- Every call goes where the answer says. -/
theorem call_of_ok (method : Method) {isLegacy : Bool}
    (h : shouldStartInLegacyMode keeper sid check s = (.ok isLegacy, s')) :
    (Op.single method sid check).call keeper s
      = (.ok (.forwarded (method.sides isLegacy)), s') := by
  have hcall : method.call keeper sid check s = (.ok (method.sides isLegacy), s') := by
    cases method <;> exact (bind_ok h).trans (by cases isLegacy <;> rfl)
  exact (bind_ok hcall).trans rfl

theorem call_of_error (method : Method) {failure : Failure}
    (h : shouldStartInLegacyMode keeper sid check s = (.error failure, s')) :
    (Op.single method sid check).call keeper s = (.error failure, s') := by
  have hcall : method.call keeper sid check s = (.error failure, s') := by
    cases method <;> exact bind_error h
  exact bind_error hcall

end Routing

/-- The cache is not noticed: the calls do what they would do with the last answers. -/
theorem effects_legacyCache {ops : List Op} (hclock : Clocked (ops.flatMap Op.readings)) :
    effects legacyCache .empty ops = effects lastAnswers (fun _ => none) ops := by
  obtain ⟨now, hnow⟩ := exists_clocked hclock
  rw [← List.append_nil (ops.flatMap _)] at hnow
  exact (agree_legacyCache.run ops (TimedCache.holds_empty now) hnow).1

/-- The last answers are those that calls have stored last. -/
theorem lookup_stored {ops : List Op} {rest : List ℚ}
    (hclock : Clocked (ops.flatMap Op.readings ++ rest)) (sid : String) :
    (stored ops).lookup sid = after lastAnswers (fun _ => none) ops sid := by
  obtain ⟨now, hnow⟩ := exists_clocked hclock
  obtain ⟨-, later, ⟨-, hlog⟩, -⟩ :=
    agree_logged.run (s := (.empty, [])) ops ⟨TimedCache.holds_empty now, fun _ => rfl⟩ hnow
  exact hlog sid

/-- While the last answer is not too old, a call is forwarded by it after any other calls. -/
theorem effects_of_entry {table : Table String Bool} {entry : Entry Bool} {sid : String}
    {check : Check} {now : ℚ} (between : List Op) (method : Method) (htable : table sid = some entry)
    (hclock : Clocked (now :: (between.flatMap Op.readings ++ check.readings)))
    (htime : check.checkedAt - entry.timestamp ≤ legacyEntryTimeoutSeconds) :
    effects lastAnswers table (between ++ [.single method sid check])
      = effects lastAnswers table between ++ [.ok (.forwarded (method.sides entry.value))] := by
  obtain ⟨-, later, ⟨-, hentry⟩, hlater⟩ :=
    (agree_lastAnswers sid entry).run between ⟨rfl, Or.inl htable⟩ hclock
  have hle : later ≤ check.checkedAt :=
    List.rel_of_pairwise_cons hlater (List.mem_cons_of_mem _ List.mem_cons_self)
  have hnow := hentry.resolve_right fun hold =>
    absurd (lt_of_lt_of_le hold (sub_le_sub_right hle _)) (not_lt_of_ge htime)
  have hlookup : shouldStartInLegacyMode lastAnswers sid check (after lastAnswers table between)
      = (.ok entry.value, after lastAnswers table between) :=
    TimedCache.lookup_of_fresh check.look hnow htime
  rw [effects_append, effects, effects, call_of_ok method hlookup]

theorem clocked_after {before between : List Op} {method method' : Method} {sid : String}
    {check check' : Check}
    (hclock : Clocked ((before ++ Op.single method sid check
      :: (between ++ [Op.single method' sid check'])).flatMap Op.readings)) :
    Clocked (check.checkedAt :: (between.flatMap Op.readings ++ check'.readings)) := by
  rw [List.flatMap_append, List.flatMap_cons, List.flatMap_append, List.flatMap_singleton] at hclock
  exact (List.pairwise_append.mp hclock).2.1.tail

/-- **A conversation stays with its manager for an hour.**  A call is forwarded by the answer that is
stored last for its conversation; as long as that is not more than an hour old, later calls for the
conversation are forwarded by the same answer, whatever its runtime would say by then. -/
theorem effects_sticky {before between : List Op} {method method' : Method} {sid : String}
    {check check' : Check} {effect : Effect}
    (hclock : Clocked ((before ++ Op.single method sid check
      :: (between ++ [Op.single method' sid check'])).flatMap Op.readings))
    (heffect : (effects legacyCache .empty (before ++ Op.single method sid check
      :: (between ++ [Op.single method' sid check'])))[before.length]? = some (.ok effect)) :
    ∃ entry, (stored (before ++ [Op.single method sid check])).lookup sid = some entry ∧
      effect = .forwarded (method.sides entry.value) ∧
      (entry.timestamp = check.storedAt ∨
        check.checkedAt - entry.timestamp ≤ legacyEntryTimeoutSeconds) ∧
      (check'.checkedAt - entry.timestamp ≤ legacyEntryTimeoutSeconds →
        (effects legacyCache .empty (before ++ Op.single method sid check
          :: (between ++ [Op.single method' sid check']))).getLast?
          = some (.ok (.forwarded (method'.sides entry.value)))) := by
  have hfirst : (before ++ [Op.single method sid check]).flatMap Op.readings
      ++ (between ++ [Op.single method' sid check']).flatMap Op.readings
      = (before ++ Op.single method sid check
        :: (between ++ [Op.single method' sid check'])).flatMap Op.readings := by
    rw [← List.flatMap_append, List.append_assoc, List.singleton_append]
  have hstored := lookup_stored (by rw [hfirst]; exact hclock) sid
  rw [effects_legacyCache hclock, effects_append] at heffect ⊢
  rw [List.getElem?_append_right (by rw [length_effects]), length_effects, Nat.sub_self,
    effects, List.getElem?_cons_zero, Option.some_inj] at heffect
  cases hlookup : shouldStartInLegacyMode lastAnswers sid check
      (after lastAnswers (fun _ => none) before) with
  | mk answer table =>
      cases answer with
      | error failure =>
          rw [call_of_error method hlookup] at heffect
          cases heffect
      | ok isLegacy =>
          rw [call_of_ok method hlookup] at heffect
          obtain ⟨timestamp, htable, htime⟩ :=
            TimedCache.exists_of_lookup check.look (congrArg Prod.fst hlookup)
          have hentry : table sid = some ⟨isLegacy, timestamp⟩ := by
            have hafter : (lastAnswers.lookup _ sid check.look).2 = table := congrArg Prod.snd hlookup
            rw [← hafter]
            exact htable
          have hafter : after lastAnswers (fun _ => none) (before ++ [Op.single method sid check])
              = table := by
            unfold after at hlookup ⊢
            rw [List.foldl_concat, call_of_ok method hlookup]
          refine ⟨⟨isLegacy, timestamp⟩, ?_, (Except.ok.inj heffect).symm, htime, fun hfresh => ?_⟩
          · -- the table has what the calls have stored last
            rw [hstored, hafter, hentry]
          · rw [effects, call_of_ok method hlookup,
              effects_of_entry between method' hentry (clocked_after hclock) hfresh,
              List.getLast?_append, ← List.cons_append, List.getLast?_concat]
            rfl

/-- A runtime of the old kind, when the conversation is joined. -/
def joining : Check := ⟨1, 2, .ok (some ⟨some ['u', 'v']⟩), 3⟩

/-- No runtime any more, almost an hour later. -/
def closing : Check := ⟨3602, 3603, .ok none, 3604⟩

theorem effects_sticky_joining :
    ∃ entry, (stored ([] ++ [Op.single .joinConversation "sid" joining])).lookup "sid" = some entry ∧
      Effect.forwarded [.legacy] = .forwarded (Method.joinConversation.sides entry.value) ∧
      (entry.timestamp = joining.storedAt ∨
        joining.checkedAt - entry.timestamp ≤ legacyEntryTimeoutSeconds) ∧
      (closing.checkedAt - entry.timestamp ≤ legacyEntryTimeoutSeconds →
        (effects legacyCache .empty ([] ++ Op.single .joinConversation "sid" joining
          :: ([Op.single .closeSession "other" ⟨4, 5, .error .keyError, 6⟩]
            ++ [Op.single .closeSession "sid" closing]))).getLast?
          = some (.ok (.forwarded (Method.closeSession.sides entry.value)))) := by
  refine effects_sticky ?_ rfl
  simp [Clocked, Op.readings, Check.readings, joining, closing]
  norm_num

end OpenHands.LegacyRouting
