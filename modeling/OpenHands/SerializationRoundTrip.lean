/-
# Events survive their dictionary

`event_from_dict (event_to_dict e)` against `e`, for every event that a constructor of a
registered class returns.  The two functions agree on the attributes of `Event` and on every
field but one: a `security_risk` that is `None` comes back as `UNKNOWN`.  Three more kinds of
events do not survive: an observation with a timeout, metrics with a negative cost, and an
event whose `action` or `observation` is not the one of its class.  A rejection whose reason
is not a string cannot be written at all.
-/
import OpenHands.Lib.Fallible
import OpenHands.ReadEvents
import OpenHands.EventStore

namespace OpenHands.Serialization

open Fallible

variable {R : Type} {libs : Externals R}

/-! ## The round trip -/

section RoundTrip

variable {e : EventObject R} {d : PyDict String PyJson}

/-- Which branch of `event_from_dict` reads a dictionary. -/
theorem contains_of_topValue {message : String}
    (htop : ∀ name ∈ topKeys, d.get? name = e.topValue libs message name)
    (he : e.Constructed libs) :
    (∀ cls, e.cls = .action cls → d.contains "action" = true) ∧
      ∀ cls, e.cls = .observation cls →
        d.contains "action" = false ∧ d.contains "observation" = true := by
  obtain ⟨kind, hkind⟩ := he.exists_kind
  have hcontains : ∀ key ∈ ["action", "observation"],
      d.contains key = ((e.attrs.get? key).map Value.toJson).isSome := by
    intro key hkey
    rw [← PyDict.isSome_get?]
    rcases List.mem_cons.mp hkey with rfl | hkey
    · rw [htop "action" (by decide)]
      rfl
    · rw [List.mem_singleton.mp hkey, htop "observation" (by decide)]
      rfl
  constructor
  · intro cls hcls
    rw [hcls] at hkind
    rw [hcontains _ (by decide), show e.attrs.get? "action" = _ from hkind]
    rfl
  · intro cls hcls
    have hno : "action" ∉ e.cls.fieldNames := by
      rw [hcls]
      cases cls <;> decide
    rw [hcls] at hkind
    constructor
    · rw [hcontains _ (by decide), he.get?_eq_none hno]
      rfl
    · rw [hcontains _ (by decide), show e.attrs.get? "observation" = _ from hkind]
      rfl

/-- A serializable event is read back from its dictionary; its metrics lose the name of the
model. -/
theorem eventFromDict_eventToDict (hlibs : libs.Lawful) (he : e.Constructed libs)
    (hs : e.Serializable) (hd : eventToDict libs e = .ok d) :
    eventFromDict libs d = .ok { e with llmMetrics := e.llmMetrics.map readMetrics } := by
  unfold eventFromDict
  cases hcls : e.cls with
  | action cls =>
      obtain ⟨message, h⟩ := exists_actionDict he hcls hd
      rw [(contains_of_topValue h.top he).1 cls hcls, if_pos rfl,
        actionFromDict_actionDict he hcls h hs.kind hs.risk]
      show setUnderscoreKeys libs d _ = _
      rw [setUnderscoreKeys_eq hlibs h.top hs.cost rfl, ← hcls]
  | observation cls =>
      obtain ⟨message, h⟩ := exists_observationDict he hcls hd
      obtain ⟨haction, hobservation⟩ := (contains_of_topValue h.top he).2 cls hcls
      rw [haction, hobservation, if_neg Bool.false_ne_true, if_pos rfl,
        observationFromDict_observationDict hlibs he hcls h hs.kind]
      show setUnderscoreKeys libs d _ = _
      rw [setUnderscoreKeys_eq hlibs h.top hs.cost rfl, ← hcls]
      show Except.ok { e with timeout := none, llmMetrics := _ } = _
      rw [← hs.timeout cls hcls]

/-- The name of the model is not written. -/
theorem eventToDict_readMetrics (e : EventObject R) :
    eventToDict libs { e with llmMetrics := e.llmMetrics.map readMetrics } = eventToDict libs e := by
  have hvalue : ∀ message, EventObject.topValue libs
      { e with llmMetrics := e.llmMetrics.map readMetrics } message
        = e.topValue libs message := by
    intro message
    funext key
    unfold EventObject.topValue
    split
    case h_7 =>
      rw [Option.map_map]
      rfl
    all_goals rfl
  have htop : ∀ message, EventObject.topDict libs
      { e with llmMetrics := e.llmMetrics.map readMetrics } message = e.topDict libs message := by
    intro message
    unfold EventObject.topDict
    rw [hvalue]
  unfold eventToDict
  simp only [htop]
  rfl

/-- The message of a rejection concatenates the reason. -/
theorem exists_rejectMessage_iff (he : e.Constructed libs) (hcls : e.cls = .action .agentReject) :
    (∃ message, ActionClass.agentReject.messageOf libs.strDict e.attrs = .ok message) ↔
      HasTextReason e.attrs := by
  have hfield : Field.optional "outputs" (.dict .any) (.obj []) ∈ e.cls.fields libs.version := by
    rw [hcls]
    exact List.mem_cons_self
  obtain ⟨v, hv, htype⟩ := he.exists_value hfield
  obtain ⟨outputs, rfl⟩ : ∃ outputs, v = .data (.obj outputs) := by
    obtain ⟨j, rfl⟩ := FieldType.eq_data_of_admits rfl htype
    cases j <;> first | exact ⟨_, rfl⟩ | exact absurd htype Bool.false_ne_true
  have houtputs : e.attrs.get? "outputs" = some (.data (.obj outputs)) := hv
  have htext : HasTextReason e.attrs ↔ ∀ reason,
      (PyDict.ofEntries outputs).get? "reason" = some reason → ∃ s, reason = .str s := by
    constructor
    · intro h
      exact h outputs houtputs
    · intro h outputs' houtputs'
      rw [houtputs] at houtputs'
      cases houtputs'
      exact h
  rw [htext]
  unfold ActionClass.messageOf
  simp only [houtputs]
  cases hreason : (PyDict.ofEntries outputs).get? "reason" with
  | none =>
      refine iff_of_true ⟨_, rfl⟩ ?_
      intro reason h
      cases h
  | some reason =>
      constructor
      · rintro ⟨message, hmessage⟩ reason' h
        cases h
        cases reason <;> first | exact ⟨_, rfl⟩ | cases hmessage
      · intro h
        obtain ⟨s, rfl⟩ := h reason rfl
        exact ⟨_, rfl⟩

/-- Only a rejection may have no message. -/
theorem exists_messageOf_iff (he : e.Constructed libs) :
    (∃ message, e.cls.messageOf libs.strDict e.attrs = .ok message) ↔
      (e.cls = .action .agentReject → HasTextReason e.attrs) := by
  by_cases hreject : e.cls = .action .agentReject
  · rw [← exists_rejectMessage_iff he hreject, hreject]
    exact ⟨fun h _ => h, fun h => h rfl⟩
  · refine iff_of_true ?_ fun h => absurd h hreject
    cases hcls : e.cls with
    | observation cls => exact ⟨_, rfl⟩
    | action cls =>
        rw [hcls] at hreject
        cases cls <;> try exact ⟨_, rfl⟩
        case agentReject => exact absurd rfl hreject
        case agentFinish =>
          unfold EventClass.messageOf ActionClass.messageOf
          dsimp only
          split_ifs <;> exact ⟨_, rfl⟩
        case taskTracking =>
          unfold EventClass.messageOf ActionClass.messageOf
          dsimp only
          split_ifs <;> exact ⟨_, rfl⟩
        case condensation =>
          obtain ⟨condensation, hok⟩ : ∃ condensation, condensationAction e.attrs = .ok condensation := by
            have hsettled := he.settled
            rw [hcls] at hsettled
            exact hsettled
          unfold EventClass.messageOf ActionClass.messageOf
          simp only [hok]
          split_ifs <;> exact ⟨_, rfl⟩

/-- An event with a message is written. -/
theorem exists_eventToDict (he : e.Constructed libs) {message : String}
    (hmessage : e.cls.messageOf libs.strDict e.attrs = .ok message) :
    ∃ d, eventToDict libs e = .ok d := by
  cases hcls : e.cls with
  | action cls => exact ⟨_, eventToDict_action he hcls hmessage⟩
  | observation cls => exact ⟨_, eventToDict_observation he hcls hmessage⟩

/-- What `action_from_dict` returned: the class that is named, made from the arguments. -/
theorem actionFromDict_ok {cls : ActionClass} (he : e.Constructed libs) (hcls : e.cls = .action cls)
    {message : String} (h : ActionDict libs e message d) {e' : EventObject R}
    (hread : actionFromDict libs d = .ok e') :
    ∃ (cls' : ActionClass) (attrs : PyDict String Value),
      e.attrs.get? "action" = some (.data (.str cls'.kind)) ∧ e'.cls = .action cls' ∧
      (EventClass.action cls').create libs (e.props.mapValues Value.data) = .ok attrs ∧
      e'.attrs.get? "security_risk" = attrs.get? "security_risk" := by
  obtain ⟨kind, hattr, hdkind⟩ := h.exists_kind he hcls
  rw [actionFromDict_eq hdkind h.args (fun name hname => get?_props_of_legacy he hname)
    (fun v hv => props_securityRisk he hv)] at hread
  cases hclass : actionTypeToClass kind with
  | none =>
      rw [hclass] at hread
      cases hread
  | some cls' =>
      rw [hclass] at hread
      obtain ⟨attrs, hcreate, hread⟩ := bind_eq_ok_iff.mp hread
      obtain ⟨timeout, -, hread⟩ := bind_eq_ok_iff.mp hread
      cases hread
      refine ⟨cls', attrs, ?_, rfl, ?_, ?_⟩
      · rw [hattr, actionTypeToClass_eq_some_iff.mp hclass]
      · unfold wrongArguments at hcreate
        split at hcreate
        · cases hcreate
        · exact hcreate
      · show (if d.contains "timeout" then setBlocking attrs _ else attrs).get? _ = _
        unfold setBlocking
        split_ifs
        · rw [PyDict.get?_set, if_neg (by decide)]
        · rfl
        · rfl

/-- What `observation_from_dict` returned: the class that is named, without a timeout. -/
theorem observationFromDict_ok {e' : EventObject R} (hread : observationFromDict libs d = .ok e') :
    ∃ cls' : ObservationClass, d.get? "observation" = some (.str cls'.kind) ∧
      e'.cls = .observation cls' ∧ e'.timeout = none := by
  unfold observationFromDict at hread
  cases hkind : d.get? "observation" with
  | none =>
      rw [hkind] at hread
      cases hread
  | some v =>
      rw [hkind] at hread
      cases v <;> try cases hread
      next kind =>
        cases hclass : observationTypeToClass kind with
        | none =>
            simp only [hclass] at hread
            cases hread
        | some cls' =>
            simp only [hclass] at hread
            refine ⟨cls', by rw [observationTypeToClass_eq_some_iff.mp hclass], ?_⟩
            cases hextras : (d.get? "extras").getD (.obj []) <;> rw [hextras] at hread <;>
              try cases hread
            obtain ⟨extras, -, hread⟩ := bind_eq_ok_iff.mp hread
            obtain ⟨extras', -, hread⟩ := bind_eq_ok_iff.mp hread
            split_ifs at hread
            obtain ⟨attrs, -, hread⟩ := bind_eq_ok_iff.mp hread
            cases hread
            exact ⟨rfl, rfl⟩

/-- A security risk that is not given is `UNKNOWN`. -/
theorem securityRisk_of_create {cls : ActionClass} {kwargs attrs : PyDict String Value}
    (hcreate : (EventClass.action cls).create libs kwargs = .ok attrs)
    (hrisk : kwargs.get? "security_risk" = none) :
    attrs.get? "security_risk" ≠ some (.data .null) := by
  intro hnull
  obtain ⟨-, hbind, -⟩ := (create_eq_ok_iff (by simp)).mp hcreate
  have hnodup : (((EventClass.action cls).fields libs.version).map (·.name)).Nodup := by
    rw [EventClass.map_name_fields]
    exact EventClass.nodup_fieldNames _
  obtain ⟨hkeys, hget⟩ := (bindFields_eq_ok_iff hnodup).mp hbind
  have hname : "security_risk" ∈ ((EventClass.action cls).fields libs.version).map (·.name) := by
    rw [← hkeys]
    exact List.mem_map_of_mem (PyDict.mem_entries_of_get? hnull)
  obtain ⟨field, hfield, hname⟩ := List.mem_map.mp hname
  have hdefault := hget field hfield
  rw [hname, hrisk, hnull, eq_securityRiskField hfield hname] at hdefault
  cases hdefault

/-- An action that is read back as it was has the kind of its class and a security risk. -/
theorem kind_of_actionFromDict {cls : ActionClass} (he : e.Constructed libs)
    (hcls : e.cls = .action cls) {message : String} (hdict : ActionDict libs e message d)
    {made : EventObject R} (hmade : actionFromDict libs d = .ok made) (hsameCls : made.cls = e.cls)
    (hsameAttrs : made.attrs = e.attrs) :
    e.attrs.get? "action" = some (.data (.str cls.kind)) ∧
      e.attrs.get? "security_risk" ≠ some (.data .null) := by
  obtain ⟨cls', attrs, hkind, hcls', hcreate, hrisk⟩ := actionFromDict_ok he hcls hdict hmade
  have hclsEq : cls' = cls := by
    rw [hcls', hcls] at hsameCls
    cases hsameCls
    rfl
  subst hclsEq
  refine ⟨hkind, fun hnull => ?_⟩
  have hnone : (e.props.mapValues Value.data).get? "security_risk" = none := by
    rw [PyDict.get?_mapValues, get?_props_risk he hnull]
    rfl
  refine securityRisk_of_create hcreate hnone ?_
  rw [← hrisk, hsameAttrs]
  exact hnull

/-- An observation that is read back as it was has the kind of its class, and no timeout. -/
theorem kind_of_observationFromDict {cls : ObservationClass} (he : e.Constructed libs)
    (hcls : e.cls = .observation cls) {message : String}
    (hdict : ObservationDict libs e message d) {made : EventObject R}
    (hmade : observationFromDict libs d = .ok made) (hsameCls : made.cls = e.cls) :
    e.attrs.get? "observation" = some (.data (.str cls.kind)) ∧ made.timeout = none := by
  obtain ⟨cls', hkind, hcls', htimeout⟩ := observationFromDict_ok hmade
  have hclsEq : cls' = cls := by
    rw [hcls', hcls] at hsameCls
    cases hsameCls
    rfl
  subst hclsEq
  refine ⟨?_, htimeout⟩
  obtain ⟨kind, hattr⟩ := he.exists_kind
  rw [hcls] at hattr
  have hwritten : d.get? "observation" = some (.str kind) := by
    rw [hdict.top "observation" (by decide)]
    show (e.attrs.get? "observation").map Value.toJson = _
    rw [show e.attrs.get? "observation" = _ from hattr]
    rfl
  rw [hkind] at hwritten
  cases hwritten
  exact hattr

/-- An event that survives is serializable. -/
theorem serializable_of_roundTrips (he : e.Constructed libs) (h : e.RoundTrips libs) :
    e.Serializable := by
  obtain ⟨d, hd, e', hread, hsame, -⟩ := h
  have hreason := (exists_messageOf_iff he).mp (exists_message hd)
  unfold eventFromDict at hread
  obtain ⟨made, hmade, hset⟩ := bind_eq_ok_iff.mp hread
  obtain ⟨hmadeCls, hmadeAttrs, hmadeTimeout⟩ := setUnderscoreKeys_keeps hset
  have hsameCls : made.cls = e.cls := hmadeCls.symm.trans hsame.cls
  have hcost : ∀ {message : String}, (∀ name ∈ topKeys, d.get? name = e.topValue libs message name) →
      ∀ m, e.llmMetrics = some m → 0 ≤ m.accumulatedCost := by
    intro message htop m hm
    by_contra hneg
    exact setUnderscoreKeys_of_neg htop hm (Rat.not_le.mp hneg) hset
  cases hcls : e.cls with
  | action cls =>
      obtain ⟨message, hdict⟩ := exists_actionDict he hcls hd
      rw [(contains_of_topValue hdict.top he).1 cls hcls, if_pos rfl] at hmade
      obtain ⟨hkind, hrisk⟩ := kind_of_actionFromDict he hcls hdict hmade hsameCls
        (hmadeAttrs.symm.trans hsame.attrs)
      refine ⟨?_, ?_, hrisk, hreason, hcost hdict.top⟩
      · rw [hcls]
        exact hkind
      · intro cls' h
        rw [hcls] at h
        cases h
  | observation cls =>
      obtain ⟨message, hdict⟩ := exists_observationDict he hcls hd
      obtain ⟨haction, hobservation⟩ := (contains_of_topValue hdict.top he).2 cls hcls
      rw [haction, hobservation, if_neg Bool.false_ne_true, if_pos rfl] at hmade
      obtain ⟨hkind, htimeout⟩ := kind_of_observationFromDict he hcls hdict hmade hsameCls
      refine ⟨?_, ?_, ?_, hreason, hcost hdict.top⟩
      · rw [hcls]
        exact hkind
      · intro _ _
        rw [← hsame.timeout, hmadeTimeout, htimeout]
      · intro hnull
        have hno : "security_risk" ∉ e.cls.fieldNames := by
          rw [hcls]
          cases cls <;> decide
        rw [he.get?_eq_none hno] at hnull
        cases hnull

/-- An event survives its dictionary exactly when it is serializable. -/
theorem roundTrips_iff (hlibs : libs.Lawful) (he : e.Constructed libs) :
    e.RoundTrips libs ↔ e.Serializable := by
  refine ⟨serializable_of_roundTrips he, ?_⟩
  intro hs
  obtain ⟨message, hmessage⟩ := (exists_messageOf_iff he).mpr hs.reason
  obtain ⟨d, hd⟩ := exists_eventToDict he hmessage
  refine ⟨d, hd, _, eventFromDict_eventToDict hlibs he hs hd, ?_, ?_⟩
  · refine ⟨rfl, rfl, rfl, rfl, rfl, rfl, rfl, rfl, ?_⟩
    show (e.llmMetrics.map readMetrics).map Metrics.get = _
    rw [Option.map_map]
    rfl
  · rw [eventToDict_readMetrics, hd]

end RoundTrip

/-! ## The codec of the event store -/

/-- The id under the key `id`. -/
def dictId (d : PyDict String PyJson) : ℤ :=
  match d.get? "id" with
  | some (.int id) => id
  | _ => invalidId

/-- A dictionary carries the id of the event it was written from. -/
theorem dictId_eventToDict {e : EventObject R} {d : PyDict String PyJson}
    (hd : eventToDict libs e = .ok d) : dictId d = e.id := by
  have hid : d.get? "id" = if e.id = -1 then none else some (.int e.id) := by
    obtain ⟨message, hmessage⟩ := exists_message hd
    unfold eventToDict at hd
    rw [hmessage] at hd
    simp only at hd
    have htop : (e.topDict libs message).get? "id"
        = if e.id = -1 then none else some (.int e.id) := by
      rw [get?_topDict, if_pos (by decide)]
      rfl
    split_ifs at hd <;> cases hd
    · rw [PyDict.get?_setOption, if_neg (by decide), PyDict.get?_set, if_neg (by decide), htop]
    · rw [PyDict.get?_setOption, if_neg (by decide), PyDict.get?_set, if_neg (by decide),
        PyDict.get?_set, if_neg (by decide), htop]
  unfold dictId
  rw [hid]
  by_cases hinvalid : e.id = -1
  · rw [if_pos hinvalid, hinvalid]
    rfl
  · rw [if_neg hinvalid]

/-- An event that is read has the id of its dictionary. -/
theorem id_eventFromDict {e : EventObject R} {d : PyDict String PyJson}
    (hread : eventFromDict libs d = .ok e) : e.id = dictId d := by
  obtain ⟨made, -, hset⟩ := bind_eq_ok_iff.mp hread
  unfold setUnderscoreKeys at hset
  obtain ⟨id, hid, hset⟩ := bind_eq_ok_iff.mp hset
  obtain ⟨timestamp, -, hset⟩ := bind_eq_ok_iff.mp hset
  obtain ⟨source, -, hset⟩ := bind_eq_ok_iff.mp hset
  obtain ⟨cause, -, hset⟩ := bind_eq_ok_iff.mp hset
  obtain ⟨metadata, -, hset⟩ := bind_eq_ok_iff.mp hset
  obtain ⟨metrics, -, hset⟩ := bind_eq_ok_iff.mp hset
  cases hset
  unfold readOption at hid
  unfold dictId
  cases hv : d.get? "id" with
  | none =>
      rw [hv] at hid
      cases hid
      rfl
  | some v =>
      rw [hv] at hid
      cases v <;> cases hid <;> rfl

/-- The serialization as the codec of a stream that replaces no secrets. -/
def serializationCodec (libs : Externals R) : Codec (EventObject R) (PyDict String PyJson) where
  eventId := EventObject.id
  eventToDict := fun e id => eventToDict libs { e with id := id }
  eventFromDict := eventFromDict libs
  dictId := dictId
  dictId_eventToDict := dictId_eventToDict
  eventId_eventFromDict := id_eventFromDict

/-! ## Two events -/

/-- Libraries that accept values of the exact type only; a response is its own dump. -/
def exactLibs : Externals PyJson where
  validateInt
    | .int i => .ok i
    | _ => .error (.valueError "Input should be a valid integer")
  validateStr
    | .str s => .ok s
    | _ => .error (.valueError "Input should be a valid string")
  validateFloat
    | .float x => .ok x
    | .int i => .ok i
    | _ => .error (.valueError "Input should be a valid number")
  dumpResponse := id
  validateResponse := .ok
  strDict := fun _ => "{}"
  literalEval := fun _ => none
  version := "1.0.0"
  now := 0

theorem lawful_exactLibs : exactLibs.Lawful where
  int := fun _ => rfl
  str := fun _ => rfl
  float := fun _ => rfl
  response := fun _ => rfl

/-- A blocking command of the agent with a timeout, the call it came from and its costs. -/
def commandEvent : EventObject PyJson where
  cls := .action .cmdRun
  attrs := .ofEntries [("command", .data (.str "make")), ("is_input", .data (.bool false)),
    ("thought", .data (.str "")), ("blocking", .data (.bool true)),
    ("is_static", .data (.bool false)), ("cwd", .data .null), ("hidden", .data (.bool false)),
    ("action", .data (.str "run")), ("confirmation_state", .data (.str "confirmed")),
    ("security_risk", .data (.int 1))]
  id := 7
  source := some .agent
  timeout := some 120
  toolCallMetadata := some ⟨"execute_bash", "call_1", .null, 1⟩
  llmMetrics := some { accumulatedCost := 2, costs := [⟨"m", 2, 10⟩] }

theorem constructed_commandEvent : commandEvent.Constructed exactLibs where
  created := ⟨commandEvent.attrs, rfl⟩
  typed := by
    intro field hfield v hv
    simp only [commandEvent, EventClass.fields, ActionClass.fields, List.mem_cons,
      List.not_mem_nil, or_false] at hfield
    rcases hfield with rfl | rfl | rfl | rfl | rfl | rfl | rfl | rfl | rfl | rfl <;> cases hv <;> rfl

theorem roundTrips_commandEvent : commandEvent.RoundTrips exactLibs := by
  refine (roundTrips_iff lawful_exactLibs constructed_commandEvent).mpr ⟨rfl, ?_, ?_, ?_, ?_⟩
  · intro cls h
    cases h
  · intro h
    cases h
  · intro h
    cases h
  · intro m hm
    cases hm
    decide

/-- A rejection whose reason is a number. -/
def rejection : EventObject PyJson where
  cls := .action .agentReject
  attrs := .ofEntries [("outputs", .data (.obj [("reason", .int 404)])),
    ("thought", .data (.str "")), ("action", .data (.str "reject"))]

/-- Writing the rejection raises. -/
theorem rejection_not_roundTrips :
    rejection.Constructed exactLibs ∧ ¬ rejection.RoundTrips exactLibs := by
  refine ⟨⟨⟨rejection.attrs, rfl⟩, ?_⟩, ?_⟩
  · intro field hfield v hv
    simp only [rejection, EventClass.fields, ActionClass.fields, List.mem_cons,
      List.not_mem_nil, or_false] at hfield
    rcases hfield with rfl | rfl | rfl <;> cases hv <;> rfl
  · rintro ⟨d, hd, -⟩
    have herror : eventToDict exactLibs rejection = .error .typeError := rfl
    rw [herror] at hd
    cases hd

end OpenHands.Serialization
