/-
# The working time of a conversation

An event of a nested runtime comes to `process_event` (enterprise/server/utils/
conversation_callback_utils.py), which writes it to its file.  When it says that the state of the
agent is another one than running, `update_active_working_seconds` goes through all events of the
conversation and stores for how many seconds the agent was running.

What the loop adds up is compared with `runningTime`, the time that passed after the readings at
which the agent was running.  `work_deliver` says that the stored seconds are never behind the
events, although most events do not update them.
-/
import OpenHands.StreamRuns
import Mathlib.Algebra.Order.Ring.Rat
import Mathlib.Data.List.DropRight
import Mathlib.Data.List.Induction
import Mathlib.Tactic.FinCases
import Mathlib.Tactic.NormNum
import Mathlib.Tactic.Ring

namespace OpenHands.WorkingSeconds

variable {E D : Type*}

/-- `AgentStateChangedObservation`. -/
structure StateChange where
  agentState : String
  timestamp : Option String
  deriving DecidableEq, Repr

/-- What is read off an event, and the time of a timestamp: `datetime.fromisoformat` raises for
some texts. -/
structure Host (E : Type*) where
  stateChange? : E → Option StateChange
  fromisoformat : String → Option ℚ

/-- `ConversationWork`. -/
structure ConversationWork where
  userId : String
  seconds : ℚ
  deriving DecidableEq

/-- The files of a conversation, and its row of working seconds. -/
structure World (D : Type*) where
  files : FileStore D
  work : Option ConversationWork

/-- `AgentState.RUNNING`. -/
def running : String := "running"

/-! ## The loop -/

/-- The variables of the loop. -/
structure Running where
  startTime : Option ℚ := none
  totalSeconds : ℚ := 0

/-- One state change with its time. -/
def Running.change (r : Running) (reading : String × ℚ) : Running :=
  if reading.1 = running then
    match r.startTime with
    | none => { r with startTime := some reading.2 }
    | some _ => r
  else
    match r.startTime with
    | some startTime => ⟨none, r.totalSeconds + (reading.2 - startTime)⟩
    | none => r

section Functions

variable (host : Host E) (codec : Codec E D)

/-- `if isinstance(event, AgentStateChangedObservation) and event.timestamp`. -/
def stamped (event : E) : Option (String × String) :=
  (host.stateChange? event).bind fun change =>
    (change.timestamp.filter (· ≠ "")).map (change.agentState, ·)

/-- The loop over the events; a text that is no timestamp raises. -/
def trackEvents (r : Running) : List E → Option Running
  | [] => some r
  | event :: events =>
    match stamped host event with
    | none => trackEvents r events
    | some (agentState, text) =>
      match host.fromisoformat text with
      | none => none
      | some timestamp => trackEvents (r.change (agentState, timestamp)) events

/-- `update_active_working_seconds`: what raises is logged. -/
def updateActiveWorkingSeconds (userId : String) (w : World D) : World D :=
  match EventStore.searchEvents codec { fileStore := w.files } 0 none false (fun _ => true) none with
  | .error _ => w
  | .ok events =>
    match trackEvents host {} events with
    | none => w
    | some r =>
      { w with
        work := some (match w.work with
          | some work => { work with seconds := r.totalSeconds }
          | none => ⟨userId, r.totalSeconds⟩) }

/-- The agent is in another state than running. -/
def stops (event : E) : Bool :=
  match host.stateChange? event with
  | some change => change.agentState ≠ running
  | none => false

/-- `process_event`; its file is written even if the event cannot be read. -/
def processEvent (userId : String) (w : World D) (content : D) : World D :=
  let files := { w.files with events := w.files.events.insert (codec.dictId content) content }
  let w := { w with files }
  match codec.eventFromDict content with
  | .error _ => w
  | .ok event => if stops host event then updateActiveWorkingSeconds host codec userId w else w

/-- The events that come in, one after the other. -/
def deliver (userId : String) (w : World D) (contents : List D) : World D :=
  contents.foldl (processEvent host codec userId) w

/-! ## The time of a log -/

/-- The state change of an event with its time. -/
def reading? (event : E) : Option (String × ℚ) :=
  (stamped host event).bind fun change => (host.fromisoformat change.2).map (change.1, ·)

/-- The state changes with their times. -/
def readingsOf (events : List E) : List (String × ℚ) := events.filterMap (reading? host)

end Functions

/-- The time that passed after the readings at which the agent was running. -/
def runningTime : List (String × ℚ) → ℚ
  | reading :: next :: readings =>
    (if reading.1 = running then next.2 - reading.2 else 0) + runningTime (next :: readings)
  | _ => 0

/-- The readings up to the last one at which the agent was not running. -/
def closed (readings : List (String × ℚ)) : List (String × ℚ) :=
  readings.rdropWhile fun reading => reading.1 = running

/-- When the agent is running since the last reading, the time of that. -/
def lastRunning (readings : List (String × ℚ)) : Option ℚ :=
  (readings.getLast?.filter fun reading => reading.1 = running).map Prod.snd

/-! ## The loop adds up the running time -/

section Loop

variable {readings : List (String × ℚ)} {reading : String × ℚ} {r : Running}

theorem runningTime_concat (readings : List (String × ℚ)) (reading : String × ℚ) :
    runningTime (readings ++ [reading])
      = runningTime readings + (lastRunning readings).elim 0 (reading.2 - ·) := by
  induction readings with
  | nil => exact (add_zero (0 : ℚ)).symm
  | cons first readings ih =>
      cases readings with
      | nil =>
          change (if first.1 = running then reading.2 - first.2 else 0) + 0 = 0 + _
          unfold lastRunning
          rw [List.getLast?_singleton, Option.filter_some]
          by_cases hrunning : first.1 = running
          · simp [hrunning]
          · simp [hrunning]
      | cons second readings =>
          have hlast :
              lastRunning (first :: second :: readings) = lastRunning (second :: readings) := by
            unfold lastRunning
            rw [List.getLast?_cons_cons]
          rw [hlast]
          change (if first.1 = running then second.2 - first.2 else 0)
            + runningTime (second :: readings ++ [reading]) = _
          rw [ih, ← add_assoc]
          rfl

@[simp]
theorem lastRunning_concat (readings : List (String × ℚ)) (reading : String × ℚ) :
    lastRunning (readings ++ [reading]) = if reading.1 = running then some reading.2 else none := by
  unfold lastRunning
  rw [List.getLast?_concat, Option.filter_some]
  by_cases hrunning : reading.1 = running
  · simp [hrunning]
  · simp [hrunning]

theorem closed_concat (readings : List (String × ℚ)) (reading : String × ℚ) :
    closed (readings ++ [reading])
      = if reading.1 = running then closed readings else readings ++ [reading] := by
  unfold closed
  rw [List.rdropWhile_concat]
  by_cases hrunning : reading.1 = running
  · rw [if_pos hrunning, if_pos (by simpa using hrunning)]
  · rw [if_neg hrunning, if_neg (by simpa using hrunning)]

/-- What the variables of the loop say about the readings so far: the total is the running time of
the closed ones; without a start time it is that of all, and otherwise the time from the start to
the last reading is missing in it. -/
structure Tracks (r : Running) (readings : List (String × ℚ)) : Prop where
  total : r.totalSeconds = runningTime (closed readings)
  phase : (r.startTime = none ∧ lastRunning readings = none ∧
      runningTime readings = r.totalSeconds) ∨
    ∃ startTime last, r.startTime = some startTime ∧ lastRunning readings = some last ∧
      runningTime readings = r.totalSeconds + (last - startTime)

theorem tracks_nil : Tracks {} [] := ⟨rfl, Or.inl ⟨rfl, rfl, rfl⟩⟩

/-- **One state change.** -/
theorem Tracks.change (h : Tracks r readings) (reading : String × ℚ) :
    Tracks (r.change reading) (readings ++ [reading]) := by
  obtain ⟨startTime, totalSeconds⟩ := r
  obtain ⟨htotal, hphase⟩ := h
  dsimp only at htotal hphase
  unfold Running.change
  by_cases hrunning : reading.1 = running
  · -- the closed readings stay, and the agent is running from now or from an earlier time on
    rw [if_pos hrunning]
    rcases hphase with ⟨rfl, hlast, htime⟩ | ⟨start, last, rfl, hlast, htime⟩
    · refine ⟨?_, Or.inr ⟨reading.2, reading.2, rfl, ?_, ?_⟩⟩
      · rw [closed_concat, if_pos hrunning]
        exact htotal
      · rw [lastRunning_concat, if_pos hrunning]
      · rw [runningTime_concat, hlast, htime, sub_self]
        rfl
    · refine ⟨?_, Or.inr ⟨start, reading.2, rfl, ?_, ?_⟩⟩
      · rw [closed_concat, if_pos hrunning]
        exact htotal
      · rw [lastRunning_concat, if_pos hrunning]
      · rw [runningTime_concat, hlast, htime]
        dsimp only [Option.elim]
        ring
  · -- all readings are closed
    rw [if_neg hrunning]
    have hall :
        runningTime (readings ++ [reading]) = runningTime (closed (readings ++ [reading])) := by
      rw [closed_concat, if_neg hrunning]
    have hnone : lastRunning (readings ++ [reading]) = none := by
      rw [lastRunning_concat, if_neg hrunning]
    rcases hphase with ⟨rfl, hlast, htime⟩ | ⟨start, last, rfl, hlast, htime⟩
    · have hsame : runningTime (readings ++ [reading]) = totalSeconds := by
        rw [runningTime_concat, hlast, htime]
        exact add_zero _
      exact ⟨hsame.symm.trans hall, Or.inl ⟨rfl, hnone, hsame⟩⟩
    · have hsame : runningTime (readings ++ [reading]) = totalSeconds + (reading.2 - start) := by
        rw [runningTime_concat, hlast, htime]
        dsimp only [Option.elim]
        ring
      exact ⟨hsame.symm.trans hall, Or.inl ⟨rfl, hnone, hsame⟩⟩

theorem tracks_foldl (readings : List (String × ℚ)) :
    Tracks (readings.foldl Running.change {}) readings := by
  induction readings using List.reverseRecOn with
  | nil => exact tracks_nil
  | append_singleton readings reading ih =>
      rw [List.foldl_concat]
      exact ih.change reading

end Loop

section Deliveries

variable {host : Host E} {codec : Codec E D}

variable (host) in
/-- The timestamp of the event is one, if it has any. -/
def Readable (event : E) : Prop :=
  ∀ agentState text, stamped host event = some (agentState, text) →
    (host.fromisoformat text).isSome

/-- The loop over events whose timestamps can be read. -/
theorem trackEvents_eq {events : List E} (hreadable : ∀ event ∈ events, Readable host event)
    (r : Running) :
    trackEvents host r events = some ((readingsOf host events).foldl Running.change r) := by
  induction events generalizing r with
  | nil => rfl
  | cons event events ih =>
      rw [List.forall_mem_cons] at hreadable
      unfold trackEvents readingsOf
      cases hstamped : stamped host event with
      | none =>
          have hreading : reading? host event = none := by
            unfold reading?
            rw [hstamped, Option.bind_none]
          rw [List.filterMap_cons_none hreading]
          exact ih hreadable.2 r
      | some change =>
          obtain ⟨agentState, text⟩ := change
          obtain ⟨timestamp, htime⟩ :=
            Option.isSome_iff_exists.mp (hreadable.1 agentState text hstamped)
          have hreading : reading? host event = some (agentState, timestamp) := by
            unfold reading?
            rw [hstamped, Option.bind_some, htime]
            rfl
          rw [List.filterMap_cons_some hreading]
          dsimp only
          rw [htime]
          exact ih hreadable.2 _

/-- The seconds that are found in the events. -/
def secondsOf (host : Host E) (events : List E) : ℚ := runningTime (closed (readingsOf host events))

theorem trackEvents_total {events : List E} (hreadable : ∀ event ∈ events, Readable host event) :
    ∃ r, trackEvents host {} events = some r ∧ r.totalSeconds = secondsOf host events :=
  ⟨_, trackEvents_eq hreadable {}, (tracks_foldl _).total⟩

/-! ## The files of the conversation -/

variable (codec) in
/-- The files of events that came in, without cache pages. -/
structure Delivered (files : FileStore D) (events : List E) : Prop where
  coherent : files.Coherent codec
  cache : files.eventCache = ∅
  log : plainEvents codec files 0 none = events

theorem delivered_empty : Delivered codec .empty [] where
  coherent := by
    constructor
    · intro id hid
      cases hid
    · intro id data hdata
      cases hdata
    · intro start stop page hpage
      cases hpage
  cache := rfl
  log := rfl

/-- The events are read from the files. -/
theorem Delivered.searchEvents {files : FileStore D} {events : List E}
    (h : Delivered codec files events) :
    EventStore.searchEvents codec { fileStore := files } 0 none false (fun _ => true) none
      = .ok events := by
  rw [searchEvents_of_coherent { fileStore := files } h.coherent fun id hid => lt_calculateCurId hid]
  unfold cutToLimit plainSearch
  rw [h.log]
  simp

section Insert

variable {files : FileStore D} {id : ℤ}

/-- A new name stands first. -/
theorem keys_insert_of_lt (content : D) (hnew : ∀ name ∈ files.events.keys, name < id) :
    (files.events.insert id content).keys = id :: files.events.keys := by
  rw [AList.keys_insert, List.erase_of_not_mem]
  exact fun hid => lt_irrefl id (hnew id hid)

/-- A new name that is above the others is sorted to the end. -/
theorem insertionSort_cons_of_lt {ids : List ℤ} (hnodup : ids.Nodup)
    (hnew : ∀ name ∈ ids, name < id) :
    (id :: ids).insertionSort (· ≤ ·) = ids.insertionSort (· ≤ ·) ++ [id] := by
  have hcons : (id :: ids).Nodup :=
    List.nodup_cons.mpr ⟨fun hid => lt_irrefl id (hnew id hid), hnodup⟩
  have hsorted : (ids.insertionSort (· ≤ ·) ++ [id]).Pairwise (· < ·) := by
    refine List.pairwise_append.mpr
      ⟨pairwise_lt_insertionSort hnodup, List.pairwise_singleton _ _, ?_⟩
    intro name hname last hlast
    rw [List.mem_singleton.mp hlast]
    exact hnew name ((List.mem_insertionSort _).mp hname)
  refine List.Pairwise.eq_of_mem_iff (pairwise_lt_insertionSort hcons) hsorted fun name => ?_
  rw [List.mem_insertionSort, List.mem_append, List.mem_insertionSort, List.mem_cons,
    List.mem_singleton, or_comm]

/-- The events of the other files stay. -/
theorem fileEvent_insert_of_ne {content : D} {name : ℤ} (hne : name ≠ id) :
    fileEvent codec { files with events := files.events.insert id content } name
      = fileEvent codec files name := by
  unfold fileEvent
  dsimp only
  rw [AList.lookup_insert_ne hne]

/-- An event whose file comes last. -/
theorem plainEvents_insert {content : D} {event : E}
    (hevent : codec.eventFromDict content = .ok event) (hnonneg : 0 ≤ id) (hnew : ∀ name ∈ files.events.keys, name < id) :
    plainEvents codec { files with events := files.events.insert id content } 0 none
      = plainEvents codec files 0 none ++ [event] := by
  have hthis : fileEvent codec { files with events := files.events.insert id content } id
      = some event := by
    unfold fileEvent
    dsimp only
    rw [AList.lookup_insert, Option.bind_some, hevent]
    rfl
  unfold plainEvents
  dsimp only
  rw [keys_insert_of_lt content hnew, List.filter_cons_of_pos (by simpa using hnonneg),
    insertionSort_cons_of_lt (files.events.keys_nodup.filter _)
      fun name hname => hnew name (List.mem_of_mem_filter hname),
    List.filterMap_append, List.filterMap_cons_some hthis, List.filterMap_nil]
  congr 1
  refine List.filterMap_congr fun name hname => fileEvent_insert_of_ne ?_
  rw [List.mem_insertionSort] at hname
  exact ne_of_lt (hnew name (List.mem_of_mem_filter hname))

end Insert

/-- An event behind the others. -/
theorem Delivered.insert {files : FileStore D} {events : List E} {content : D} {event : E}
    (h : Delivered codec files events) (hevent : codec.eventFromDict content = .ok event)
    (hnonneg : 0 ≤ codec.dictId content)
    (hnew : ∀ id ∈ files.events.keys, id < codec.dictId content) :
    Delivered codec { files with events := files.events.insert (codec.dictId content) content }
      (events ++ [event]) where
  coherent := by
    constructor
    · intro id hid
      rw [keys_insert_of_lt content hnew] at hid
      rcases List.mem_cons.mp hid with rfl | hid
      · exact hnonneg
      · exact h.coherent.nonneg id hid
    · intro id data hdata
      by_cases hid : id = codec.dictId content
      · subst hid
        rw [AList.lookup_insert] at hdata
        cases hdata
        exact ⟨rfl, event, hevent⟩
      · rw [AList.lookup_insert_ne hid] at hdata
        exact h.coherent.record id data hdata
    · intro start stop page hpage
      rw [h.cache] at hpage
      cases hpage
  cache := h.cache
  log := by
    rw [plainEvents_insert hevent hnonneg hnew, h.log]

/-! ## The stored seconds -/

/-- An event that does not stop the agent leaves the seconds of the events as they are. -/
theorem secondsOf_concat {event : E} (events : List E) (hstops : stops host event = false) :
    secondsOf host (events ++ [event]) = secondsOf host events := by
  unfold secondsOf readingsOf
  rw [List.filterMap_append]
  cases hreading : reading? host event with
  | none => rw [List.filterMap_cons_none hreading, List.filterMap_nil, List.append_nil]
  | some reading =>
      have hrunning : reading.1 = running := by
        unfold reading? stamped at hreading
        unfold stops at hstops
        cases hchange : host.stateChange? event with
        | none =>
            rw [hchange] at hreading
            cases hreading
        | some change =>
            rw [hchange] at hreading hstops
            obtain ⟨stamp, hstamp, htime⟩ := Option.bind_eq_some_iff.mp hreading
            obtain ⟨text, -, rfl⟩ := Option.map_eq_some_iff.mp hstamp
            obtain ⟨timestamp, -, rfl⟩ := Option.map_eq_some_iff.mp htime
            simpa using hstops
      rw [List.filterMap_cons_some hreading, List.filterMap_nil, closed_concat, if_pos hrunning]

/-- The row that the events should have. -/
def workOf (host : Host E) (userId : String) (events : List E) : Option ConversationWork :=
  if events.any (stops host) then some ⟨userId, secondsOf host events⟩ else none

/-- An event that does not stop the agent leaves the row as it is. -/
theorem workOf_concat {event : E} (userId : String) (events : List E)
    (hstops : stops host event = false) :
    workOf host userId (events ++ [event]) = workOf host userId events := by
  unfold workOf
  rw [secondsOf_concat events hstops, List.any_append, List.any_cons, hstops]
  simp

/-- **One event that comes in.** -/
theorem work_processEvent {w : World D} {events : List E} {userId : String} {content : D} {event : E}
    (hwork : w.work = workOf host userId events) (hfiles : Delivered codec w.files events)
    (hevent : codec.eventFromDict content = .ok event) (hnonneg : 0 ≤ codec.dictId content)
    (hnew : ∀ id ∈ w.files.events.keys, id < codec.dictId content)
    (hreadable : ∀ e ∈ events ++ [event], Readable host e) :
    (processEvent host codec userId w content).work = workOf host userId (events ++ [event]) ∧
      (processEvent host codec userId w content).files
        = { w.files with events := w.files.events.insert (codec.dictId content) content } := by
  have hinserted := hfiles.insert hevent hnonneg hnew
  unfold processEvent
  dsimp only
  rw [hevent]
  dsimp only
  cases hstops : stops host event with
  | false =>
      rw [if_neg Bool.false_ne_true, workOf_concat userId events hstops]
      exact ⟨hwork, rfl⟩
  | true =>
      obtain ⟨r, hr, htotal⟩ := trackEvents_total hreadable
      have hany : (events ++ [event]).any (stops host) = true := by
        rw [List.any_append, List.any_cons, hstops]
        simp
      rw [if_pos rfl]
      unfold updateActiveWorkingSeconds
      dsimp only
      rw [hinserted.searchEvents]
      dsimp only
      rw [hr]
      refine ⟨?_, rfl⟩
      dsimp only
      rw [hwork, htotal]
      unfold workOf
      rw [if_pos hany]
      cases events.any (stops host) with
      | false => rfl
      | true => rfl

/-- A run that goes on. -/
theorem work_deliver_from {contents : List D} {added : List E} {userId : String}
    (hevents : List.Forall₂ (fun content event => codec.eventFromDict content = .ok event)
      contents added) {w : World D} {events : List E}
    (hwork : w.work = workOf host userId events) (hfiles : Delivered codec w.files events)
    (hids : (contents.map codec.dictId).Pairwise (· < ·))
    (hnew : ∀ content ∈ contents, 0 ≤ codec.dictId content ∧
      ∀ id ∈ w.files.events.keys, id < codec.dictId content)
    (hreadable : ∀ event ∈ events ++ added, Readable host event) :
    (deliver host codec userId w contents).work = workOf host userId (events ++ added) := by
  induction hevents generalizing w events with
  | nil =>
      rw [List.append_nil]
      exact hwork
  | @cons content event contents added hevent hevents ih =>
      rw [List.forall_mem_cons] at hnew
      rw [List.map_cons, List.pairwise_cons] at hids
      rw [List.append_cons] at hreadable ⊢
      obtain ⟨hstep, hinserted⟩ := work_processEvent hwork hfiles hevent hnew.1.1 hnew.1.2
        fun e he => hreadable e (List.mem_append_left _ he)
      refine ih hstep ?_ hids.2 ?_ hreadable
      · rw [hinserted]
        exact hfiles.insert hevent hnew.1.1 hnew.1.2
      · intro later hlater
        refine ⟨(hnew.2 later hlater).1, fun id hid => ?_⟩
        rw [hinserted, keys_insert_of_lt content hnew.1.2] at hid
        rcases List.mem_cons.mp hid with rfl | hid
        · exact hids.1 _ (List.mem_map_of_mem hlater)
        · exact (hnew.2 later hlater).2 id hid

/-- **The stored seconds are those of the events.**  When the events of a conversation come in in the
order of their ids, after every one of them the row is there exactly when the agent has stopped at
some time, and has the time for which it was running, up to the last stop. -/
theorem work_deliver {contents : List D} {events : List E} (userId : String)
    (hevents : List.Forall₂ (fun content event => codec.eventFromDict content = .ok event)
      contents events)
    (hids : (contents.map codec.dictId).Pairwise (· < ·))
    (hnonneg : ∀ content ∈ contents, 0 ≤ codec.dictId content)
    (hreadable : ∀ event ∈ events, Readable host event) :
    (deliver host codec userId ⟨.empty, none⟩ contents).work
      = if events.any (stops host) then
          some ⟨userId, runningTime (closed (readingsOf host events))⟩
        else none :=
  work_deliver_from hevents (w := ⟨.empty, none⟩) rfl delivered_empty hids
    (fun content hcontent => ⟨hnonneg content hcontent, fun _ hid => absurd hid List.not_mem_nil⟩)
    hreadable

end Deliveries

/-- State changes with their ids and timestamps. -/
def changeCodec : Codec (ℤ × StateChange) (ℤ × StateChange) where
  eventId := Prod.fst
  eventToDict event id := .ok (id, event.2)
  eventFromDict := .ok
  dictId := Prod.fst
  dictId_eventToDict h := by
    cases h
    rfl
  eventId_eventFromDict h := by
    cases h
    rfl

/-- Two times of a day. -/
def changeHost : Host (ℤ × StateChange) where
  stateChange? event := some event.2
  fromisoformat text :=
    if text = "2025-01-01T00:00:10" then some 1735689610
    else if text = "2025-01-01T00:00:25" then some 1735689625
    else none

/-- The agent runs, stops after fifteen seconds and runs again. -/
def changes : List (ℤ × StateChange) :=
  [(0, ⟨"running", some "2025-01-01T00:00:10"⟩), (1, ⟨"running", none⟩),
    (3, ⟨"awaiting_user_input", some "2025-01-01T00:00:25"⟩),
    (4, ⟨"running", some "2025-01-01T00:00:25"⟩)]

theorem work_deliver_changes :
    (deliver changeHost changeCodec "alice" ⟨.empty, none⟩ changes).work = some ⟨"alice", 15⟩ := by
  have hevents : List.Forall₂
      (fun content event => changeCodec.eventFromDict content = .ok event) changes changes :=
    List.forall₂_same.mpr fun _ _ => rfl
  have hreadable : ∀ event ∈ changes, Readable changeHost event := by
    intro event hevent agentState text hstamped
    fin_cases hevent
    · cases hstamped
      rfl
    · cases hstamped
    · cases hstamped
      rfl
    · cases hstamped
      rfl
  refine (work_deliver "alice" hevents (by decide) (by decide) hreadable).trans ?_
  have hreadings : readingsOf changeHost changes
      = [("running", 1735689610), ("awaiting_user_input", 1735689625), ("running", 1735689625)] := rfl
  have hclosed : closed [("running", 1735689610), ("awaiting_user_input", 1735689625),
      ("running", 1735689625)] = [("running", 1735689610), ("awaiting_user_input", 1735689625)] := rfl
  rw [hreadings, hclosed, if_pos (by decide)]
  norm_num [runningTime, running]

end OpenHands.WorkingSeconds
