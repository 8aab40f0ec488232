/-
# Sessions that are started

`maybe_start_agent_loop` of the `StandaloneConversationManager` looks for a session and creates
one if there is none.  Nothing comes between the look and the registration of the session,
except where too many conversations run: there the oldest are closed first, and the call waits
for the metadata, for the clients and for the sessions that are closed.  Two calls that wait
there for the same session both create one, and the second takes the place of the first, which
keeps running.
-/
import Mathlib.Data.List.Sort
import Mathlib.Data.Rat.Defs
import Mathlib.Order.Defs.LinearOrder
import OpenHands.Lib.PyDict
import OpenHands.Lib.Run

namespace OpenHands.StartedSessions

/-- A `Session`: one object among those of its conversation. -/
structure Session where
  sid : String
  userId : Option String
  object : ℕ
  deriving DecidableEq

/-- The session and the user of a call of `maybe_start_agent_loop`. -/
structure Start where
  sid : String
  userId : Option String

/-- Where a call of `_close_session` waits. -/
inductive Close
  /-- `await self.sio.disconnect(connection_id)`, with the connections behind. -/
  | disconnecting (sid connectionId : String) (connectionIds : List String)
  /-- `await session.close()`. -/
  | closing (sid : String)

/-- Where a call waits. -/
inductive Task
  /-- `join_conversation`: `await self.sio.enter_room`. -/
  | joining (connectionId : String) (start : Start)
  /-- `maybe_start_agent_loop` has been called. -/
  | called (start : Start)
  /-- `_start_agent_loop`: the conversation store and its metadata. -/
  | readingMetadata (start : Start)
  /-- `await` of the message to the clients of the oldest conversation, with those that are
  left. -/
  | emitting (start : Start) (oldest : String) (conversations : List String)
  /-- `await self.close_session(oldest_conversation_id)`. -/
  | evicting (start : Start) (close : Close) (conversations : List String)
  /-- `close_session` has been called. -/
  | toClose (sid : String)
  | closing (close : Close)

/-- What an await gives. -/
inductive Answer
  | done
  /-- The ids of the conversations with the times of their last updates. -/
  | metadata (conversations : List (String × ℚ))
  | raises

inductive Call
  | join (connectionId : String) (start : Start)
  | maybeStart (start : Start)
  | close (sid : String)

def Call.task : Call → Task
  | .join connectionId start => .joining connectionId start
  | .maybeStart start => .called start
  | .close sid => .toClose sid

inductive Step
  | call (call : Call)
  /-- The await of a task is over; it runs up to the next one. -/
  | resume (task : ℕ) (answer : Answer)

/-- `StandaloneConversationManager`, with its tasks. -/
structure Manager where
  /-- `_local_agent_loops_by_sid`. -/
  sessions : PyDict String Session := .empty
  /-- `_local_connection_id_to_session_id`. -/
  connections : PyDict String String := .empty
  /-- The sessions that have been created and not been closed. -/
  running : List Session := []
  objects : ℕ := 0
  tasks : List Task := []

namespace Manager

variable (limit : ℕ) (m : Manager)

/-! ## Closing -/

/-- `_close_session` behind the connections. -/
def popSession (sid : String) : Manager × Option Close :=
  match m.sessions.get? sid with
  | none => (m, none)
  | some session =>
    ({ m with
        sessions := m.sessions.pop sid
        running := m.running.filter (· ≠ session) }, some (.closing sid))

/-- `close_session` up to the first await. -/
def closeSession (sid : String) : Manager × Option Close :=
  match m.sessions.get? sid with
  | none => (m, none)
  | some _ =>
    match (m.connections.entries.filter (·.2 = sid)).map Prod.fst with
    | [] => m.popSession sid
    | connectionId :: connectionIds => (m, some (.disconnecting sid connectionId connectionIds))

/-- `_close_session` from one await to the next. -/
def advanceClose : Close → Manager × Option Close
  | .disconnecting sid connectionId connectionIds =>
    let m := { m with connections := m.connections.pop connectionId }
    match connectionIds with
    | [] => m.popSession sid
    | connectionId :: connectionIds => (m, some (.disconnecting sid connectionId connectionIds))
  | .closing _ => (m, none)

/-! ## Starting -/

/-- `get_running_agent_loops(user_id)`. -/
def getRunningAgentLoops (userId : Option String) : List String :=
  let userId := userId.filter (· ≠ "")
  (m.sessions.entries.filter fun item => userId = none ∨ item.2.userId = userId).map Prod.fst

/-- The session is created and registered. -/
def register (start : Start) : Manager :=
  let session : Session := ⟨start.sid, start.userId, m.objects⟩
  { m with
    sessions := m.sessions.set start.sid session
    running := session :: m.running
    objects := m.objects + 1 }

/-- The loop that closes the oldest conversations, up to the next await; `pop` of an empty list
raises. -/
def evict (start : Start) (conversations : List String) : Manager × Option Task :=
  if limit ≤ conversations.length then
    match conversations.getLast? with
    | some oldest => (m, some (.emitting start oldest conversations.dropLast))
    | none => (m, none)
  else (m.register start, none)

/-- `_start_agent_loop` up to the first await. -/
def startAgentLoop (start : Start) : Manager × Option Task :=
  if limit ≤ (m.getRunningAgentLoops start.userId).length then
    (m, some (.readingMetadata start))
  else (m.register start, none)

/-- `maybe_start_agent_loop`. -/
def maybeStartAgentLoop (start : Start) : Manager × Option Task :=
  match m.sessions.get? start.sid with
  | some _ => (m, none)
  | none => m.startAgentLoop limit start

/-- The loop goes on when the oldest conversation is closed. -/
def evictNext (start : Start) (conversations : List String) :
    Manager × Option Close → Manager × Option Task
  | (m, some close) => (m, some (.evicting start close conversations))
  | (m, none) => m.evict limit start conversations

/-- `conversations.sort(key=_last_updated_at_key, reverse=True)`. -/
def newestFirst (conversations : List (String × ℚ)) : List String :=
  (conversations.insertionSort fun c d => d.2 ≤ c.2).map Prod.fst

/-- A task from one await to the next. -/
def advance (task : Task) (answer : Answer) : Manager × Option Task :=
  match task, answer with
  | .joining connectionId start, .done =>
    maybeStartAgentLoop limit
      { m with connections := m.connections.set connectionId start.sid } start
  | .called start, _ => m.maybeStartAgentLoop limit start
  | .readingMetadata start, .metadata conversations =>
    m.evict limit start (newestFirst conversations)
  | .emitting start oldest conversations, .done =>
    evictNext limit start conversations (m.closeSession oldest)
  | .evicting start close conversations, .done =>
    evictNext limit start conversations (m.advanceClose close)
  | .toClose sid, _ => ((m.closeSession sid).1, (m.closeSession sid).2.map .closing)
  | .closing close, .done => ((m.advanceClose close).1, (m.advanceClose close).2.map .closing)
  | _, _ => (m, none)

def step : Step → Manager
  | .call call => { m with tasks := m.tasks ++ [call.task] }
  | .resume k answer =>
    match m.tasks[k]? with
    | none => m
    | some task =>
      let result := m.advance limit task answer
      { result.1 with tasks := m.tasks.take k ++ result.2.toList ++ m.tasks.drop (k + 1) }

/-! ## One agent loop for each session -/

/-- Every session that runs is registered, and there is one at most for each conversation. -/
structure OneLoopPerSid : Prop where
  registered : ∀ session ∈ m.running, m.sessions.get? session.sid = some session
  distinct : (m.running.map Session.sid).Nodup

end Manager

/-- The start that looks for its session when a task goes on. -/
def Task.looksFor : Task → Answer → Option Start
  | .joining _ start, .done => some start
  | .called start, _ => some start
  | _, _ => none

/-- The session that a task is about to create behind the loop of evictions. -/
def Task.starting : Task → Option String
  | .readingMetadata start | .emitting start _ _ | .evicting start _ _ => some start.sid
  | _ => none

namespace Manager

variable (m : Manager)

/-- The sessions whose start waits in the loop of evictions. -/
def starting : List String := m.tasks.filterMap Task.starting

/-- The start whose session is not found in the step. -/
def notFound : Step → Option Start
  | .resume k answer =>
    (m.tasks[k]?.bind (·.looksFor answer)).filter fun start =>
      m.sessions.get? start.sid = none
  | .call _ => none

/-- No call fails to find a session while a start of this session waits in the loop of
evictions. -/
def StartsAlone (l : Step) : Prop := ∀ start ∈ m.notFound l, start.sid ∉ m.starting

/-! ## The invariant -/

/-- What a task leaves: the sessions are right, and neither the sessions of the other starts
nor that of the task itself have been created. -/
structure Fits (others : List String) (result : Manager × Option Task) : Prop where
  loops : result.1.OneLoopPerSid
  rest : ∀ sid ∈ others, result.1.sessions.get? sid = none
  own : ∀ task ∈ result.2, ∀ sid ∈ task.starting,
    sid ∉ others ∧ result.1.sessions.get? sid = none

/-- Sessions are only taken away. -/
structure Shrinks (m m' : Manager) : Prop where
  loops : m.OneLoopPerSid → m'.OneLoopPerSid
  sessions : ∀ sid, m.sessions.get? sid = none → m'.sessions.get? sid = none

variable {limit : ℕ} {m : Manager} {start : Start} {others : List String}

theorem Shrinks.refl (m : Manager) : m.Shrinks m := ⟨id, fun _ => id⟩

theorem shrinks_popSession (m : Manager) (sid : String) : m.Shrinks (m.popSession sid).1 := by
  unfold popSession
  cases hsession : m.sessions.get? sid with
  | none => exact .refl m
  | some session =>
    refine ⟨fun h => ⟨?_, ?_⟩, ?_⟩
    · intro other hother
      obtain ⟨hmem, hne⟩ := List.mem_filter.mp hother
      have hregistered := h.registered other hmem
      rw [PyDict.get?_pop, if_neg, hregistered]
      -- A running session of the conversation is the one that is closed.
      intro hsid
      rw [hsid, hsession] at hregistered
      exact absurd (Option.some.inj hregistered).symm (by simpa using hne)
    · exact (List.filter_sublist.map _).nodup h.distinct
    · intro sid' hnone
      rw [PyDict.get?_pop, hnone, ite_self]

theorem shrinks_closeSession (m : Manager) (sid : String) : m.Shrinks (m.closeSession sid).1 := by
  unfold closeSession
  split
  · exact .refl m
  · split
    · exact shrinks_popSession m sid
    · exact .refl m

theorem shrinks_advanceClose (m : Manager) (close : Close) : m.Shrinks (m.advanceClose close).1 := by
  cases close with
  | disconnecting sid connectionId connectionIds =>
    cases connectionIds with
    | nil =>
      have hpop := shrinks_popSession { m with connections := m.connections.pop connectionId } sid
      exact ⟨fun h => hpop.loops ⟨h.registered, h.distinct⟩, hpop.sessions⟩
    | cons => exact ⟨fun h => ⟨h.registered, h.distinct⟩, fun _ => id⟩
  | closing sid => exact .refl m

/-- A session is created where there is none. -/
theorem fits_register (h : m.OneLoopPerSid) (hothers : ∀ sid ∈ others, m.sessions.get? sid = none)
    (hnew : start.sid ∉ others) (hnone : m.sessions.get? start.sid = none) :
    Fits others (m.register start, none) := by
  have hrunning : ∀ session ∈ m.running, session.sid ≠ start.sid := by
    intro session hsession hsid
    have hregistered := h.registered session hsession
    rw [hsid, hnone] at hregistered
    cases hregistered
  refine ⟨⟨?_, ?_⟩, ?_, fun task htask => (nomatch htask)⟩
  · intro session hsession
    change PyDict.get? (m.sessions.set _ _) _ = _
    rcases List.mem_cons.mp hsession with rfl | hsession
    · rw [PyDict.get?_set, if_pos rfl]
    · rw [PyDict.get?_set, if_neg (hrunning session hsession), h.registered session hsession]
  · change (start.sid :: m.running.map Session.sid).Nodup
    refine List.nodup_cons.mpr ⟨?_, h.distinct⟩
    intro hmem
    obtain ⟨session, hsession, hsid⟩ := List.mem_map.mp hmem
    exact hrunning session hsession hsid
  · intro sid hsid
    change PyDict.get? (m.sessions.set _ _) _ = _
    rw [PyDict.get?_set, if_neg, hothers sid hsid]
    rintro rfl
    exact hnew hsid

theorem fits_evict (h : m.OneLoopPerSid) (hothers : ∀ sid ∈ others, m.sessions.get? sid = none)
    (hnew : start.sid ∉ others) (hnone : m.sessions.get? start.sid = none)
    (conversations : List String) : Fits others (m.evict limit start conversations) := by
  unfold evict
  split_ifs
  · split
    · refine ⟨h, hothers, ?_⟩
      rintro _ ⟨⟩ _ ⟨⟩
      exact ⟨hnew, hnone⟩
    · exact ⟨h, hothers, fun task htask => (nomatch htask)⟩
  · exact fits_register h hothers hnew hnone

theorem fits_evictNext (h : m.OneLoopPerSid)
    (hothers : ∀ sid ∈ others, m.sessions.get? sid = none)
    (hnew : start.sid ∉ others) (hnone : m.sessions.get? start.sid = none)
    (conversations : List String) {result : Manager × Option Close} (hresult : m.Shrinks result.1) :
    Fits others (evictNext limit start conversations result) := by
  obtain ⟨m', close⟩ := result
  have hothers' : ∀ sid ∈ others, m'.sessions.get? sid = none :=
    fun sid hsid => hresult.sessions sid (hothers sid hsid)
  cases close with
  | some close =>
    refine ⟨hresult.loops h, hothers', ?_⟩
    rintro _ ⟨⟩ _ ⟨⟩
    exact ⟨hnew, hresult.sessions _ hnone⟩
  | none => exact fits_evict (hresult.loops h) hothers' hnew (hresult.sessions _ hnone) conversations

/-- A call looks for its session; if it finds none no other start may be about to create it. -/
theorem fits_maybeStartAgentLoop (h : m.OneLoopPerSid)
    (hothers : ∀ sid ∈ others, m.sessions.get? sid = none)
    (hnew : m.sessions.get? start.sid = none → start.sid ∉ others) :
    Fits others (m.maybeStartAgentLoop limit start) := by
  unfold maybeStartAgentLoop
  cases hsession : m.sessions.get? start.sid with
  | some session => exact ⟨h, hothers, fun task htask => (nomatch htask)⟩
  | none =>
    simp only
    unfold startAgentLoop
    split_ifs
    · refine ⟨h, hothers, ?_⟩
      rintro _ ⟨⟩ _ ⟨⟩
      exact ⟨hnew hsession, hsession⟩
    · exact fits_register h hothers (hnew hsession) hsession

theorem fits_advance (h : m.OneLoopPerSid) (hothers : ∀ sid ∈ others, m.sessions.get? sid = none)
    (task : Task) (answer : Answer)
    (hown : ∀ sid ∈ task.starting, sid ∉ others ∧ m.sessions.get? sid = none)
    (hnew : ∀ start ∈ task.looksFor answer, m.sessions.get? start.sid = none → start.sid ∉ others) :
    Fits others (m.advance limit task answer) := by
  have hnothing : Fits others (m, none) := ⟨h, hothers, fun task htask => (nomatch htask)⟩
  have hclosed : ∀ result : Manager × Option Close, m.Shrinks result.1 →
      Fits others (result.1, result.2.map .closing) := by
    intro result hresult
    refine ⟨hresult.loops h, fun sid hsid => hresult.sessions sid (hothers sid hsid), ?_⟩
    intro task htask sid hsid
    obtain ⟨close, -, rfl⟩ := Option.map_eq_some_iff.mp htask
    cases hsid
  cases task with
  | joining connectionId start =>
    cases answer with
    | done => exact fits_maybeStartAgentLoop ⟨h.registered, h.distinct⟩ hothers (hnew start rfl)
    | metadata conversations => exact hnothing
    | raises => exact hnothing
  | called start => exact fits_maybeStartAgentLoop h hothers (hnew start rfl)
  | readingMetadata start =>
    obtain ⟨hsid, hnone⟩ := hown start.sid rfl
    cases answer with
    | done => exact hnothing
    | metadata conversations => exact fits_evict h hothers hsid hnone _
    | raises => exact hnothing
  | emitting start oldest conversations =>
    obtain ⟨hsid, hnone⟩ := hown start.sid rfl
    cases answer with
    | done => exact fits_evictNext h hothers hsid hnone _ (shrinks_closeSession m oldest)
    | metadata conversations => exact hnothing
    | raises => exact hnothing
  | evicting start close conversations =>
    obtain ⟨hsid, hnone⟩ := hown start.sid rfl
    cases answer with
    | done => exact fits_evictNext h hothers hsid hnone _ (shrinks_advanceClose m close)
    | metadata conversations => exact hnothing
    | raises => exact hnothing
  | toClose sid => exact hclosed _ (shrinks_closeSession m sid)
  | closing close =>
    cases answer with
    | done => exact hclosed _ (shrinks_advanceClose m close)
    | metadata conversations => exact hnothing
    | raises => exact hnothing

/-! ## Runs -/

/-- The invariant of the steps: no two starts in the loop of evictions are for the same
session, and none of their sessions exists. -/
structure Inv (m : Manager) : Prop where
  loops : m.OneLoopPerSid
  distinct : m.starting.Nodup
  missing : ∀ sid ∈ m.starting, m.sessions.get? sid = none

theorem inv_init : Inv {} := ⟨⟨by simp, List.nodup_nil⟩, List.nodup_nil, by simp [starting]⟩

/-- The tasks in front of a task and behind it. -/
theorem starting_split {k : ℕ} {task : Task} (hk : m.tasks[k]? = some task) :
    m.starting = (m.tasks.take k).filterMap Task.starting ++ (task.starting.toList
      ++ (m.tasks.drop (k + 1)).filterMap Task.starting) := by
  obtain ⟨hlt, hget⟩ := List.getElem?_eq_some_iff.mp hk
  have hsplit : m.tasks = m.tasks.take k ++ task :: m.tasks.drop (k + 1) := by
    rw [← hget, List.getElem_cons_drop, List.take_append_drop]
  unfold starting
  conv_lhs => rw [hsplit]
  rw [List.filterMap_append, List.filterMap_cons]
  cases task.starting <;> rfl

/-- The sessions of the other starts when a task goes on. -/
def startingOthers (m : Manager) (k : ℕ) : List String :=
  (m.tasks.take k).filterMap Task.starting ++ (m.tasks.drop (k + 1)).filterMap Task.starting

theorem mem_starting {k : ℕ} {task : Task} (hk : m.tasks[k]? = some task) (sid : String) :
    sid ∈ m.starting ↔ sid ∈ task.starting ∨ sid ∈ m.startingOthers k := by
  rw [starting_split hk, startingOthers]
  simp only [List.mem_append, Option.mem_toList, Option.mem_def]
  tauto

/-- The start of a task stands between those of the others. -/
theorem starting_nodup_iff {k : ℕ} {task : Task} (hk : m.tasks[k]? = some task) :
    m.starting.Nodup ↔
      (m.startingOthers k).Nodup ∧ ∀ sid ∈ task.starting, sid ∉ m.startingOthers k := by
  rw [starting_split hk, startingOthers]
  cases task.starting with
  | none => simp
  | some sid =>
    rw [show (some sid).toList = [sid] from rfl, List.singleton_append, List.nodup_middle,
      List.nodup_cons]
    simp only [Option.mem_def, Option.some.injEq, forall_eq', and_comm]

/-- A task has gone on, and what it leaves fits. -/
theorem inv_of_fits (k : ℕ) {result : Manager × Option Task}
    (hdistinct : (m.startingOthers k).Nodup) (hfits : Fits (m.startingOthers k) result) :
    Inv { result.1 with tasks := m.tasks.take k ++ result.2.toList ++ m.tasks.drop (k + 1) } := by
  obtain ⟨m', next⟩ := result
  have hstarting : starting { m' with
      tasks := m.tasks.take k ++ next.toList ++ m.tasks.drop (k + 1) }
        = (m.tasks.take k).filterMap Task.starting ++ ((next.bind Task.starting).toList
          ++ (m.tasks.drop (k + 1)).filterMap Task.starting) := by
    unfold starting
    rw [List.filterMap_append, List.filterMap_append, List.append_assoc]
    cases next with
    | none => rfl
    | some next => cases hnext : next.starting <;> simp [hnext]
  have hown : ∀ sid ∈ next.bind Task.starting,
      sid ∉ m.startingOthers k ∧ m'.sessions.get? sid = none := by
    intro sid hsid
    obtain ⟨task, htask, hsid⟩ := Option.bind_eq_some_iff.mp hsid
    exact hfits.own task htask sid hsid
  refine ⟨⟨hfits.loops.registered, hfits.loops.distinct⟩, ?_, ?_⟩
  · rw [hstarting]
    cases hnext : next.bind Task.starting with
    | none => exact hdistinct
    | some sid =>
      exact List.nodup_middle.mpr (List.nodup_cons.mpr ⟨(hown sid hnext).1, hdistinct⟩)
  · rw [hstarting]
    intro sid hsid
    rcases List.mem_append.mp hsid with hsid | hsid
    · exact hfits.rest sid (List.mem_append_left _ hsid)
    rcases List.mem_append.mp hsid with hsid | hsid
    · exact (hown sid (Option.mem_toList.mp hsid)).2
    · exact hfits.rest sid (List.mem_append_right _ hsid)

theorem Inv.step (h : m.Inv) (l : Step) (hl : m.StartsAlone l) : (m.step limit l).Inv := by
  cases l with
  | call call =>
    have hstarting : (m.step limit (.call call)).starting = m.starting := by
      unfold starting
      rw [Manager.step, List.filterMap_append]
      cases call <;> simp [Call.task, Task.starting]
    refine ⟨⟨h.loops.registered, h.loops.distinct⟩, ?_, ?_⟩
    · rw [hstarting]
      exact h.distinct
    · rw [hstarting]
      exact h.missing
  | resume k answer =>
    rw [Manager.step]
    cases hk : m.tasks[k]? with
    | none => exact h
    | some task =>
      have hmem := mem_starting hk
      obtain ⟨hrest, hapart⟩ := (starting_nodup_iff hk).mp h.distinct
      -- No other start waits for a session that the task looks for and does not find.
      have hnew : ∀ start ∈ task.looksFor answer, m.sessions.get? start.sid = none →
          start.sid ∉ m.startingOthers k := by
        intro start hstart hnone hother
        refine hl start ?_ ((hmem start.sid).mpr (.inr hother))
        rw [notFound, hk]
        exact Option.mem_filter_iff.mpr ⟨hstart, by simpa using hnone⟩
      refine inv_of_fits k hrest (fits_advance h.loops ?_ task answer ?_ hnew)
      · intro sid hsid
        exact h.missing sid ((hmem sid).mpr (.inr hsid))
      · intro sid hsid
        exact ⟨hapart sid hsid, h.missing sid ((hmem sid).mpr (.inl hsid))⟩

/-- In every run in which no call fails to find a session that a waiting start is about to
create, every session that runs is registered, and there is one at most for each
conversation. -/
theorem oneLoopPerSid_of_startsAlone (limit : ℕ) (steps : List Step)
    (h : ∀ p ∈ Run.steps (step limit) {} steps, p.1.StartsAlone p.2) :
    ∀ p ∈ Run.steps (step limit) {} steps, (p.1.step limit p.2).OneLoopPerSid := by
  have hstep : ∀ (m : Manager) (l : Step), m.Inv → m.StartsAlone l → (m.step limit l).Inv :=
    fun m l hm hl => hm.step l hl
  intro p hp
  have hinv : p.1.Inv := Run.forall_steps_of_invariant hstep inv_init h p hp
  exact (hstep p.1 p.2 hinv (h p hp)).loops

/-- Two clients join the same conversation. -/
def joins : List Step :=
  [.call (.join "c" ⟨"s", none⟩), .call (.join "d" ⟨"s", none⟩), .resume 1 .done, .resume 0 .done]

/-- Two clients join the same conversation; the second finds the session of the first. -/
theorem oneLoopPerSid_of_startsAlone_joins :
    (∀ p ∈ Run.steps (step 3) {} joins, p.1.StartsAlone p.2) ∧
      ∀ p ∈ Run.steps (step 3) {} joins, (p.1.step 3 p.2).OneLoopPerSid := by
  have h : ∀ p ∈ Run.steps (step 3) {} joins, p.1.StartsAlone p.2 := by
    unfold StartsAlone
    decide
  exact ⟨h, oneLoopPerSid_of_startsAlone 3 joins h⟩

/-- The conversation "a" runs, and "s" is started twice where one conversation may run. -/
def raced : List Step :=
  [.call (.maybeStart ⟨"a", none⟩), .resume 0 .done,
    .call (.maybeStart ⟨"s", none⟩), .resume 0 .done,
    .call (.maybeStart ⟨"s", none⟩), .resume 1 .done,
    .resume 0 (.metadata [("a", 0)]), .resume 0 .done, .resume 0 .done,
    .resume 0 (.metadata [("a", 0)]), .resume 0 .done]

/-- A session is started twice while the oldest conversation is closed: both starts create it,
and the first session keeps running where nothing refers to it. -/
theorem dropped_while_running :
    ¬ ((Run.run (step 1) {} raced).OneLoopPerSid) := by
  intro h
  have hdistinct := h.distinct
  revert hdistinct
  decide

end Manager

end OpenHands.StartedSessions
