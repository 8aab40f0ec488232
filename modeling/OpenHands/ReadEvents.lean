/-
# What `event_from_dict` reads

The dictionary that `event_to_dict` writes for an event of a registered class, read back:
the arguments and extras pass the treatment of older events unchanged, the constructor gets
every field as it was, and the attributes of `Event` are taken from the top level.
-/
import OpenHands.Lib.Fallible
import OpenHands.WrittenEvents

namespace OpenHands.Serialization

open Fallible

variable {R : Type} {libs : Externals R}

/-! ## What is read of an action -/

/-- Arguments without reserved names and with a valid security risk are taken as they are. -/
theorem args_unchanged {args : PyDict String PyJson}
    (hlegacy : ∀ name ∈ legacyNames, args.get? name = none)
    (hrisk : ∀ v, args.get? "security_risk" = some v →
      ∃ risk : ActionSecurityRisk, v = .int risk.value) :
    handleActionDeprecatedArgs libs (convertSecurityRisk (renameArgs (args.pop "timestamp")))
      = .ok args := by
  have hpop : ∀ name ∈ legacyNames, args.pop name = args := fun name hname =>
    PyDict.pop_of_get?_eq_none (hlegacy name hname)
  have hrename : renameArgs args = args := by
    unfold renameArgs
    simp only [hlegacy "is_confirmed" (by decide), hlegacy "images_urls" (by decide)]
  have hconvert : convertSecurityRisk args = args := by
    unfold convertSecurityRisk
    cases hv : args.get? "security_risk" with
    | none => rfl
    | some v =>
        obtain ⟨risk, rfl⟩ := hrisk v hv
        have hmember : securityRisk (.int risk.value) = some risk :=
          ActionSecurityRisk.ofValue_value risk
        simp only [hmember]
        exact PyDict.set_of_get?_eq_some hv
  rw [hpop "timestamp" (by decide), hrename, hconvert]
  unfold handleActionDeprecatedArgs
  rw [hpop "keep_prompt" (by decide), hpop "task_completed" (by decide)]
  simp only [hlegacy "translated_ipython_code" (by decide)]

/-- `action_from_dict` on such arguments: the constructor of the class that is named, and
the timeout. -/
theorem actionFromDict_eq {d args : PyDict String PyJson} {kind : String}
    (hkind : d.get? "action" = some (.str kind))
    (hargs : d.get? "args" = some (.obj args.entries))
    (hlegacy : ∀ name ∈ legacyNames, args.get? name = none)
    (hrisk : ∀ v, args.get? "security_risk" = some v →
      ∃ risk : ActionSecurityRisk, v = .int risk.value) :
    actionFromDict libs d = match actionTypeToClass kind with
      | none => .error .llmMalformedActionError
      | some cls => do
        let attrs ← wrongArguments ((EventClass.action cls).create libs (args.mapValues .data))
        let attrs := if d.contains "timeout" then
            setBlocking attrs (.data ((args.get? "blocking").getD (.bool false)))
          else attrs
        let timeout ← modelField d "timeout" optNumberOf (.ok none)
        return { cls := .action cls, attrs := attrs, timeout := timeout } := by
  unfold actionFromDict
  simp only [hkind, hargs, Option.getD_some, PyDict.ofEntries_entries]
  cases actionTypeToClass kind with
  | none => rfl
  | some cls =>
      simp only [args_unchanged hlegacy hrisk, hlegacy "timestamp" (by decide)]
      rfl

/-- The registered class of a type. -/
theorem actionTypeToClass_eq_some_iff {kind : String} {cls : ActionClass} :
    actionTypeToClass kind = some cls ↔ cls.kind = kind := by
  constructor
  · intro h
    simpa using List.find?_some h
  · rintro rfl
    cases cls <;> rfl

theorem observationTypeToClass_eq_some_iff {kind : String} {cls : ObservationClass} :
    observationTypeToClass kind = some cls ↔ cls.kind = kind := by
  constructor
  · intro h
    simpa using List.find?_some h
  · rintro rfl
    cases cls <;> rfl

/-! ## What is read of every event -/

section Read

variable {e : EventObject R}

/-- The metrics as they are read back. -/
def readMetrics (m : Metrics) : Metrics := { m with modelName := "default" }

theorem readOption_of_none {α : Type} {d : PyDict String PyJson} {key : String}
    {read : PyJson → Except PyError α} (h : d.get? key = none) :
    readOption d key read = .ok none := by
  unfold readOption
  simp only [h]

theorem readOption_of_some {α : Type} {d : PyDict String PyJson} {key : String}
    {read : PyJson → Except PyError α} {v : PyJson} {a : α} (h : d.get? key = some v)
    (hread : read v = .ok a) (hv : v ≠ .null) : readOption d key read = .ok (some a) := by
  unfold readOption
  rw [h]
  cases v with
  | null => exact absurd rfl hv
  | _ =>
      simp only [hread]
      rfl

/-- An optional attribute is read as it was written. -/
theorem readOption_of_map {α : Type} {d : PyDict String PyJson} {key : String}
    {read : PyJson → Except PyError α} {x : Option α} {encode : α → PyJson}
    (h : d.get? key = x.map encode) (hread : ∀ a, read (encode a) = .ok a)
    (hencode : ∀ a, encode a ≠ .null) : readOption d key read = .ok x := by
  cases x with
  | none => exact readOption_of_none h
  | some a => exact readOption_of_some h (hread a) (hencode a)

/-- An optional field is validated as it was dumped. -/
theorem modelField_of_map {α β : Type} {d : PyDict String PyJson} {name : String}
    {validate : PyJson → Except PyError (Option β)} {x : Option α} {encode : α → PyJson}
    {g : α → β} (h : d.get? name = x.map encode)
    (hread : ∀ a, x = some a → validate (encode a) = .ok (some (g a))) :
    modelField d name validate (.ok none) = .ok (x.map g) := by
  cases x with
  | none => exact modelField_of_none h ..
  | some a =>
      rw [modelField_of_get? h]
      exact hread a rfl

/-- The attributes of `Event` are read back from the top level. -/
theorem setUnderscoreKeys_eq (hlibs : libs.Lawful) {d : PyDict String PyJson} {message : String}
    (htop : ∀ name ∈ topKeys, d.get? name = e.topValue libs message name)
    (hcost : ∀ m, e.llmMetrics = some m → 0 ≤ m.accumulatedCost) {e' : EventObject R}
    (htimestamp : e'.timestamp = none) :
    setUnderscoreKeys libs d e' = .ok { e with
      cls := e'.cls, attrs := e'.attrs, timeout := e'.timeout
      llmMetrics := e.llmMetrics.map readMetrics } := by
  have hid : readOption d "id" intAttribute = .ok (if e.id = -1 then none else some e.id) := by
    have hvalue : d.get? "id" = if e.id = -1 then none else some (.int e.id) :=
      htop "id" (by decide)
    by_cases hid : e.id = -1
    · rw [if_pos hid] at hvalue ⊢
      exact readOption_of_none hvalue
    · rw [if_neg hid] at hvalue ⊢
      exact readOption_of_some hvalue rfl fun h => PyJson.noConfusion h
  have htime : readOption d "timestamp" strAttribute = .ok e.timestamp := by
    have hvalue : d.get? "timestamp" = e.timestamp.map PyJson.str :=
      htop "timestamp" (by decide)
    exact readOption_of_map hvalue (fun _ => rfl) fun _ h => PyJson.noConfusion h
  have hsource : modelField d "source" (fun v => (eventSource v).map some) (.ok none)
      = .ok (e.source.map id) := by
    have hvalue : d.get? "source" = e.source.map fun source => PyJson.str source.value :=
      htop "source" (by decide)
    refine modelField_of_map hvalue fun source _ => ?_
    cases source <;> rfl
  have hcause : readOption d "cause" intAttribute = .ok e.cause := by
    have hvalue : d.get? "cause" = e.cause.map PyJson.int := htop "cause" (by decide)
    exact readOption_of_map hvalue (fun _ => rfl) fun _ h => PyJson.noConfusion h
  have hmetadata : modelField d "tool_call_metadata"
      (fun v => (ofJson (ToolCallMetadata.ofDict libs) v).map some) (.ok none)
        = .ok (e.toolCallMetadata.map id) := by
    have hvalue : d.get? "tool_call_metadata"
        = e.toolCallMetadata.map fun m => PyJson.obj (m.modelDump libs).entries :=
      htop "tool_call_metadata" (by decide)
    refine modelField_of_map hvalue fun m _ => ?_
    show (ToolCallMetadata.ofDict libs (.ofEntries (m.modelDump libs).entries)).map some = _
    rw [PyDict.ofEntries_entries, ToolCallMetadata.ofDict_modelDump hlibs]
    rfl
  have hmetrics : modelField d "llm_metrics" (fun v => (Metrics.ofValue libs v).map some) (.ok none)
      = .ok (e.llmMetrics.map readMetrics) := by
    have hvalue : d.get? "llm_metrics" = e.llmMetrics.map fun m => PyJson.obj m.get.entries :=
      htop "llm_metrics" (by decide)
    refine modelField_of_map hvalue fun m hm => ?_
    show (Metrics.ofDict libs (.ofEntries m.get.entries)).map some = _
    rw [PyDict.ofEntries_entries, Metrics.ofDict_get hlibs (hcost m hm)]
    rfl
  have hcontains : d.contains "timestamp" = e.timestamp.isSome := by
    rw [← PyDict.isSome_get?, htop "timestamp" (by decide)]
    show (e.timestamp.map PyJson.str).isSome = _
    rw [Option.isSome_map]
  unfold setUnderscoreKeys
  rw [hid, htime, hsource, hcause, hmetadata, hmetrics, Option.map_id, Option.map_id, id_eq, id_eq]
  show Except.ok _ = Except.ok _
  congr 1
  rw [hcontains, htimestamp]
  have hidEq : (if e.id = -1 then none else some e.id).getD invalidId = e.id := by
    by_cases hid : e.id = -1
    · rw [if_pos hid, hid]
      rfl
    · rw [if_neg hid]
      rfl
  have htimestampEq : (if e.timestamp.isSome = true then e.timestamp else none) = e.timestamp := by
    cases e.timestamp <;> rfl
  rw [hidEq, htimestampEq]

/-- Metrics with a negative cost are not read. -/
theorem setUnderscoreKeys_of_neg {d : PyDict String PyJson} {message : String}
    (htop : ∀ name ∈ topKeys, d.get? name = e.topValue libs message name) {m : Metrics}
    (hm : e.llmMetrics = some m) (hcost : m.accumulatedCost < 0) {e' e'' : EventObject R} :
    setUnderscoreKeys libs d e' ≠ .ok e'' := by
  intro h
  unfold setUnderscoreKeys at h
  obtain ⟨id, -, h⟩ := bind_eq_ok_iff.mp h
  obtain ⟨timestamp, -, h⟩ := bind_eq_ok_iff.mp h
  obtain ⟨source, -, h⟩ := bind_eq_ok_iff.mp h
  obtain ⟨cause, -, h⟩ := bind_eq_ok_iff.mp h
  obtain ⟨metadata, -, h⟩ := bind_eq_ok_iff.mp h
  obtain ⟨metrics, hmetrics, -⟩ := bind_eq_ok_iff.mp h
  unfold modelField at hmetrics
  rw [htop "llm_metrics" (by decide)] at hmetrics
  have hvalue : e.topValue libs message "llm_metrics" = some (.obj m.get.entries) := by
    show (e.llmMetrics.map fun m => PyJson.obj m.get.entries) = _
    rw [hm]
    rfl
  rw [hvalue] at hmetrics
  change (Metrics.ofDict libs (.ofEntries m.get.entries)).map some = _ at hmetrics
  rw [PyDict.ofEntries_entries, Metrics.ofDict_get_of_neg hcost] at hmetrics
  cases hmetrics

/-- The class, the fields and the timeout are not touched. -/
theorem setUnderscoreKeys_keeps {d : PyDict String PyJson} {e' e'' : EventObject R}
    (h : setUnderscoreKeys libs d e' = .ok e'') :
    e''.cls = e'.cls ∧ e''.attrs = e'.attrs ∧ e''.timeout = e'.timeout := by
  unfold setUnderscoreKeys at h
  obtain ⟨id, -, h⟩ := bind_eq_ok_iff.mp h
  obtain ⟨timestamp, -, h⟩ := bind_eq_ok_iff.mp h
  obtain ⟨source, -, h⟩ := bind_eq_ok_iff.mp h
  obtain ⟨cause, -, h⟩ := bind_eq_ok_iff.mp h
  obtain ⟨metadata, -, h⟩ := bind_eq_ok_iff.mp h
  obtain ⟨metrics, -, h⟩ := bind_eq_ok_iff.mp h
  cases h
  exact ⟨rfl, rfl, rfl⟩

/-- The argument that is read for a field with plain data. -/
theorem argument_eq (he : e.Constructed libs)
    (hkind : e.attrs.get? e.cls.kindKey = some (.data (.str e.cls.kind)))
    (hrisk : e.attrs.get? "security_risk" ≠ some (.data .null)) {field : Field}
    (hfield : field ∈ e.cls.fields libs.version) (hplain : field.type.isPlain = true) :
    e.attrs.get? field.name
      = ((e.props.mapValues Value.data).get? field.name).or field.default := by
  rw [PyDict.get?_mapValues]
  by_cases htop : field.name ∈ topKeys
  · rw [get?_props_of_mem he htop, eq_kindField hfield htop]
    exact hkind
  · have hne : field.name = "security_risk" → e.attrs.get? field.name ≠ some (.data .null) := by
      intro hname
      rw [hname]
      exact hrisk
    obtain ⟨v, hv, htype⟩ := he.exists_value hfield
    obtain ⟨j, rfl⟩ := FieldType.eq_data_of_admits hplain htype
    rw [get?_props he htop hne, hv]
    rfl

/-- Reading makes the fields of an action again. -/
theorem create_props (he : e.Constructed libs) {cls : ActionClass} (hcls : e.cls = .action cls)
    (hkind : e.attrs.get? e.cls.kindKey = some (.data (.str e.cls.kind)))
    (hrisk : e.attrs.get? "security_risk" ≠ some (.data .null)) :
    (EventClass.action cls).create libs (e.props.mapValues Value.data) = .ok e.attrs := by
  have hnodup : ((e.cls.fields libs.version).map (·.name)).Nodup := by
    rw [e.cls.map_name_fields]
    exact e.cls.nodup_fieldNames
  rw [← hcls]
  refine (create_eq_ok_iff (by rw [hcls]; simp)).mpr ⟨?_, ?_, he.settled⟩
  · intro name hname
    rw [PyDict.keys_mapValues] at hname
    exact mem_fieldNames_of_mem_props he hname
  · refine (bindFields_eq_ok_iff hnodup).mpr ⟨?_, ?_⟩
    · rw [he.keys, e.cls.map_name_fields]
    · intro field hfield
      refine argument_eq he hkind hrisk hfield ?_
      by_contra hplain
      have hmem := mem_modelFields hfield (Bool.eq_false_iff.mpr hplain)
      rw [hcls] at hmem
      cases hmem

/-- The security risk that is written is the value of a member. -/
theorem props_securityRisk (he : e.Constructed libs) {v : PyJson}
    (hv : e.props.get? "security_risk" = some v) :
    ∃ risk : ActionSecurityRisk, v = .int risk.value := by
  by_cases hnull : e.attrs.get? "security_risk" = some (.data .null)
  · rw [get?_props_risk he hnull] at hv
    cases hv
  · rw [get?_props he (by decide) (fun _ => hnull)] at hv
    obtain ⟨w, hw, rfl⟩ := Option.map_eq_some_iff.mp hv
    rcases he.securityRisk hw with rfl | ⟨risk, rfl⟩
    · exact absurd hw hnull
    · exact ⟨risk, rfl⟩

end Read

/-! ## Actions -/

section Actions

variable {e : EventObject R} {cls : ActionClass} {d : PyDict String PyJson}

/-- The dictionary of an action. -/
structure ActionDict (libs : Externals R) (e : EventObject R) (message : String)
    (d : PyDict String PyJson) : Prop where
  top : ∀ name ∈ topKeys, d.get? name = e.topValue libs message name
  args : d.get? "args" = some (.obj e.props.entries)
  timeout : d.get? "timeout" = e.timeout.map .float

/-- An event that is written has a message. -/
theorem exists_message (hd : eventToDict libs e = .ok d) :
    ∃ message, e.cls.messageOf libs.strDict e.attrs = .ok message := by
  unfold eventToDict at hd
  cases hmessage : e.cls.messageOf libs.strDict e.attrs with
  | error err =>
      rw [hmessage] at hd
      cases hd
  | ok message => exact ⟨message, rfl⟩

theorem exists_actionDict (he : e.Constructed libs) (hcls : e.cls = .action cls)
    (hd : eventToDict libs e = .ok d) : ∃ message, ActionDict libs e message d := by
  obtain ⟨message, hmessage⟩ := exists_message hd
  rw [eventToDict_action he hcls hmessage] at hd
  cases hd
  refine ⟨message, ?_, ?_, ?_⟩
  · intro name hname
    have htimeout : name ≠ "timeout" := by
      rintro rfl
      exact absurd hname (by decide)
    have hargs : name ≠ "args" := by
      rintro rfl
      exact absurd hname (by decide)
    rw [PyDict.get?_setOption, if_neg htimeout, PyDict.get?_set, if_neg hargs, get?_topDict,
      if_pos hname]
  · rw [PyDict.get?_setOption, if_neg (by decide), PyDict.get?_set, if_pos rfl]
  · rw [PyDict.get?_setOption, if_pos rfl, PyDict.get?_set, if_neg (by decide), get?_topDict,
      if_neg (by decide), Option.or_none]

/-- The type that the dictionary of an action names. -/
theorem ActionDict.exists_kind {message : String} (h : ActionDict libs e message d)
    (he : e.Constructed libs) (hcls : e.cls = .action cls) :
    ∃ kind, e.attrs.get? "action" = some (.data (.str kind)) ∧
      d.get? "action" = some (.str kind) := by
  obtain ⟨kind, hkind⟩ := he.exists_kind
  rw [hcls] at hkind
  refine ⟨kind, hkind, ?_⟩
  rw [h.top "action" (by decide)]
  show (e.attrs.get? "action").map Value.toJson = _
  rw [show e.attrs.get? "action" = _ from hkind]
  rfl

/-- `blocking` keeps its value when the timeout is set. -/
theorem setBlocking_eq (he : e.Constructed libs) (hcls : e.cls = .action cls) :
    setBlocking e.attrs (.data ((e.props.get? "blocking").getD (.bool false))) = e.attrs := by
  unfold setBlocking
  by_cases hhas : e.attrs.contains "blocking" = true
  · rw [if_pos hhas]
    have hname : "blocking" ∈ e.cls.fieldNames := by
      rw [← he.keys]
      exact of_decide_eq_true hhas
    rw [← e.cls.map_name_fields libs.version] at hname
    obtain ⟨field, hfield, hname⟩ := List.mem_map.mp hname
    have hplain : field.type.isPlain = true := by
      by_contra hplain
      have hmem := mem_modelFields hfield (Bool.eq_false_iff.mpr hplain)
      rw [hcls] at hmem
      cases hmem
    obtain ⟨v, hv, htype⟩ := he.exists_value hfield
    obtain ⟨j, rfl⟩ := FieldType.eq_data_of_admits hplain htype
    rw [hname] at hv
    rw [get?_props he (by decide) (fun h => absurd h (by decide)), hv]
    exact PyDict.set_of_get?_eq_some hv
  · rw [if_neg hhas]

/-- An action is read back from its dictionary. -/
theorem actionFromDict_actionDict (he : e.Constructed libs) (hcls : e.cls = .action cls)
    {message : String} (h : ActionDict libs e message d)
    (hkind : e.attrs.get? e.cls.kindKey = some (.data (.str e.cls.kind)))
    (hrisk : e.attrs.get? "security_risk" ≠ some (.data .null)) :
    actionFromDict libs d = .ok { cls := .action cls, attrs := e.attrs, timeout := e.timeout } := by
  obtain ⟨kind, hattr, hdkind⟩ := h.exists_kind he hcls
  have hcreate := create_props he hcls hkind hrisk
  have hclass : actionTypeToClass kind = some cls := by
    rw [hcls] at hkind
    rw [show e.attrs.get? "action" = _ from hkind] at hattr
    cases hattr
    exact actionTypeToClass_eq_some_iff.mpr rfl
  have htimeout : modelField d "timeout" optNumberOf (.ok none) = .ok e.timeout := by
    unfold modelField
    rw [h.timeout]
    cases e.timeout <;> rfl
  rw [actionFromDict_eq hdkind h.args (fun name hname => get?_props_of_legacy he hname)
    (fun v hv => props_securityRisk he hv), hclass]
  simp only [hcreate, htimeout, wrongArguments, setBlocking_eq he hcls, ite_self, bind, Except.bind]
  rfl

end Actions

/-! ## Observations -/

section Observations

variable {e : EventObject R} {cls : ObservationClass} {d : PyDict String PyJson}

/-- The dictionary of an observation. -/
structure ObservationDict (libs : Externals R) (e : EventObject R) (message : String)
    (d : PyDict String PyJson) : Prop where
  top : ∀ name ∈ topKeys, d.get? name = e.topValue libs message name
  content : d.get? "content" = e.props.get? "content"
  extras : d.get? "extras" = some (.obj (e.props.pop "content").entries)

/-- Every observation has a content. -/
theorem exists_content (he : e.Constructed libs) (hcls : e.cls = .observation cls) :
    ∃ content, e.attrs.get? "content" = some (.data (.str content)) := by
  have hfield : contentField ∈ e.cls.fields libs.version := by
    rw [hcls]
    cases cls <;> exact List.mem_cons_self
  obtain ⟨v, hv, htype⟩ := he.exists_value hfield
  obtain ⟨j, rfl⟩ := FieldType.eq_data_of_admits rfl htype
  cases j <;> first | exact ⟨_, hv⟩ | exact absurd htype Bool.false_ne_true

theorem exists_observationDict (he : e.Constructed libs) (hcls : e.cls = .observation cls)
    (hd : eventToDict libs e = .ok d) : ∃ message, ObservationDict libs e message d := by
  obtain ⟨message, hmessage⟩ := exists_message hd
  obtain ⟨content, hcontent⟩ := exists_content he hcls
  rw [eventToDict_observation he hcls hmessage] at hd
  cases hd
  refine ⟨message, ?_, ?_, ?_⟩
  · intro name hname
    have hother : ∀ other ∈ ["success", "extras", "content"], name ≠ other := by
      rintro other hother rfl
      revert hname hother
      simp [topKeys]
      rintro (rfl | rfl | rfl | rfl | rfl | rfl | rfl | rfl | rfl) <;> decide
    rw [PyDict.get?_setOption, if_neg (hother _ (by decide)), PyDict.get?_set,
      if_neg (hother _ (by decide)), PyDict.get?_set, if_neg (hother _ (by decide)), get?_topDict,
      if_pos hname]
  · have hprops : e.props.get? "content" = some (.str content) := by
      rw [get?_props he (by decide) (fun h => absurd h (by decide)), hcontent]
      rfl
    rw [PyDict.get?_setOption, if_neg (by decide), PyDict.get?_set, if_neg (by decide),
      PyDict.get?_set, if_pos rfl, hprops]
    rfl
  · rw [PyDict.get?_setOption, if_neg (by decide), PyDict.get?_set, if_pos rfl]

/-- Extras without reserved names are taken as they are. -/
theorem extras_unchanged {extras : PyDict String Value}
    (hlegacy : ∀ name ∈ legacyNames, extras.get? name = none) :
    handleObservationDeprecatedExtras libs extras = .ok extras := by
  unfold handleObservationDeprecatedExtras moveToMetadata
  simp only [hlegacy "exit_code" (by decide), hlegacy "command_id" (by decide), bind, Except.bind]
  rw [PyDict.pop_of_get?_eq_none (hlegacy "formatted_output_and_error" (by decide))]
  rfl

/-- Declared microagent knowledge is read back. -/
theorem mapM_knowledgeItem {items : List KnowledgeItem}
    (h : items.all KnowledgeItem.isDeclared = true) :
    (items.map KnowledgeItem.toJson).mapM knowledgeItem = .ok items := by
  rw [List.mapM_map]
  have hitem : ∀ item ∈ items, (knowledgeItem ∘ KnowledgeItem.toJson) item = .ok (id item) := by
    intro item hmem
    have hdeclared := List.all_eq_true.mp h item hmem
    cases item with
    | knowledge item => rfl
    | other item => cases hdeclared
  rw [mapM_eq_ok hitem, List.map_id]

/-- The extras as they are written. -/
theorem get?_extras (he : e.Constructed libs) (hcls : e.cls = .observation cls) {name : String}
    (hcontent : name ≠ "content") (htop : name ∉ topKeys) :
    ((e.props.pop "content").mapValues Value.data).get? name
      = (e.attrs.get? name).map fun v => .data v.toJson := by
  have hrisk : name = "security_risk" → e.attrs.get? name ≠ some (.data .null) := by
    rintro rfl hnull
    have hno : "security_risk" ∉ e.cls.fieldNames := by
      rw [hcls]
      cases cls <;> decide
    rw [he.get?_eq_none hno] at hnull
    cases hnull
  rw [PyDict.get?_mapValues, PyDict.get?_pop, if_neg hcontent, get?_props he htop hrisk,
    Option.map_map]
  rfl

/-- Plain data is read as it was written. -/
theorem get?_extras_of_isPlain (he : e.Constructed libs) (hcls : e.cls = .observation cls)
    {field : Field} (hfield : field ∈ e.cls.fields libs.version)
    (hplain : field.type.isPlain = true) (hcontent : field.name ≠ "content")
    (htop : field.name ∉ topKeys) :
    ((e.props.pop "content").mapValues Value.data).get? field.name
      = e.attrs.get? field.name := by
  obtain ⟨v, hv, htype⟩ := he.exists_value hfield
  obtain ⟨j, rfl⟩ := FieldType.eq_data_of_admits hplain htype
  rw [get?_extras he hcls hcontent htop, hv]
  rfl

/-- The metadata of a command output becomes a model again. -/
theorem exists_convertMetadata (hlibs : libs.Lawful) (he : e.Constructed libs)
    (hcls : e.cls = .observation .cmdOutput) : ∃ extras,
      convertMetadata libs ((e.props.pop "content").mapValues Value.data) = .ok extras ∧
      extras.keys = (e.props.pop "content").keys ∧
      (∀ name, name ≠ "metadata" → extras.get? name
        = ((e.props.pop "content").mapValues Value.data).get? name) ∧
      ∃ m, e.attrs.get? "metadata" = some (.metadata m) ∧
        extras.get? "metadata" = some (.metadata m) := by
  have hfield : ⟨"metadata", .metadata, some (.metadata {})⟩ ∈ e.cls.fields libs.version := by
    rw [hcls]
    simp [EventClass.fields, ObservationClass.fields]
  obtain ⟨v, hv, htype⟩ := he.exists_value hfield
  obtain ⟨m, rfl⟩ : ∃ m, v = .metadata m := by
    cases v <;> first | exact ⟨_, rfl⟩ | exact absurd htype Bool.false_ne_true
  have hwritten : ((e.props.pop "content").mapValues Value.data).get? "metadata"
      = some (.data (.obj m.modelDump.entries)) := by
    rw [get?_extras he hcls (by decide) (by decide), hv]
    rfl
  refine ⟨((e.props.pop "content").mapValues Value.data).set "metadata" (.metadata m), ?_, ?_, ?_,
    m, hv, ?_⟩
  · unfold convertMetadata
    simp only [hwritten, PyDict.ofEntries_entries, CmdOutputMetadata.ofDict_modelDump hlibs, bind,
      Except.bind]
    rfl
  · rw [PyDict.keys_set_of_mem (List.mem_map_of_mem (PyDict.mem_entries_of_get? hwritten)),
      PyDict.keys_mapValues]
  · intro name hname
    rw [PyDict.get?_set, if_neg hname]
  · rw [PyDict.get?_set, if_pos rfl]

/-- The recall type and the microagent knowledge become members and objects again. -/
theorem exists_convertRecall (he : e.Constructed libs) (hcls : e.cls = .observation .recall) :
    ∃ extras, convertRecall ((e.props.pop "content").mapValues Value.data) = .ok extras ∧
      extras.keys = (e.props.pop "content").keys ∧
      (∀ name, name ≠ "microagent_knowledge" → extras.get? name
        = ((e.props.pop "content").mapValues Value.data).get? name) ∧
      extras.get? "microagent_knowledge" = e.attrs.get? "microagent_knowledge" := by
  have htypeField : Field.required "recall_type" (.strEnum recallTypes)
      ∈ e.cls.fields libs.version := by
    rw [hcls]
    simp [EventClass.fields, ObservationClass.fields]
  obtain ⟨v, hv, htype⟩ := he.exists_value htypeField
  obtain ⟨recallType, rfl⟩ : ∃ recallType : RecallType, v = .data (.str recallType.value) := by
    obtain ⟨j, rfl⟩ := FieldType.eq_data_of_admits rfl htype
    cases j <;> try exact absurd htype Bool.false_ne_true
    next s =>
      have hmem : s ∈ recallTypes := List.contains_iff_mem.mp htype
      obtain ⟨recallType, -, rfl⟩ := List.mem_map.mp hmem
      exact ⟨recallType, rfl⟩
  have hknowledgeField : ⟨"microagent_knowledge", .knowledge, some (.knowledge [])⟩
      ∈ e.cls.fields libs.version := by
    rw [hcls]
    simp [EventClass.fields, ObservationClass.fields]
  obtain ⟨v, hknowledge, hdeclared⟩ := he.exists_value hknowledgeField
  obtain ⟨items, rfl⟩ : ∃ items, v = .knowledge items := by
    cases v <;> first | exact ⟨_, rfl⟩ | exact absurd hdeclared Bool.false_ne_true
  set extras := (e.props.pop "content").mapValues Value.data with hextras
  have hwrittenType : extras.get? "recall_type" = some (.data (.str recallType.value)) := by
    rw [hextras, get?_extras he hcls (by decide) (by decide),
      show e.attrs.get? "recall_type" = _ from hv]
    rfl
  have hwritten : extras.get? "microagent_knowledge"
      = some (.data (.arr (items.map KnowledgeItem.toJson))) := by
    rw [hextras, get?_extras he hcls (by decide) (by decide),
      show e.attrs.get? "microagent_knowledge" = _ from hknowledge]
    rfl
  refine ⟨extras.set "microagent_knowledge" (.knowledge items), ?_, ?_, ?_, ?_⟩
  · unfold convertRecall
    simp only [hwrittenType, RecallType.ofValue_value, PyDict.set_of_get?_eq_some hwrittenType,
      hwritten, mapM_knowledgeItem hdeclared, bind, Except.bind]
    rfl
  · rw [PyDict.keys_set_of_mem (List.mem_map_of_mem (PyDict.mem_entries_of_get? hwritten)),
      hextras, PyDict.keys_mapValues]
  · intro name hname
    rw [PyDict.get?_set, if_neg hname]
  · rw [PyDict.get?_set, if_pos rfl]
    exact hknowledge.symm

/-- The conversions of the extras give the fields of the observation. -/
theorem exists_convertExtras (hlibs : libs.Lawful) (he : e.Constructed libs)
    (hcls : e.cls = .observation cls) : ∃ extras,
      convertExtras libs cls ((e.props.pop "content").mapValues Value.data) = .ok extras ∧
      extras.keys = (e.props.pop "content").keys ∧
      ∀ field ∈ e.cls.fields libs.version, field.name ≠ "content" → field.name ∉ topKeys →
        extras.get? field.name = e.attrs.get? field.name := by
  by_cases hcmd : cls = .cmdOutput
  · subst hcmd
    obtain ⟨extras, hok, hkeys, hother, m, hattr, hread⟩ :=
      exists_convertMetadata hlibs he hcls
    refine ⟨extras, hok, hkeys, ?_⟩
    intro field hfield hcontent htop
    by_cases hplain : field.type.isPlain = true
    · have hname : field.name ≠ "metadata" := by
        intro hname
        have htype := he.typed field hfield _ (hname ▸ hattr)
        obtain ⟨j, hj⟩ := FieldType.eq_data_of_admits hplain htype
        cases hj
      rw [hother _ hname, get?_extras_of_isPlain he hcls hfield hplain hcontent htop]
    · have hmem := mem_modelFields hfield (Bool.eq_false_iff.mpr hplain)
      rw [hcls] at hmem
      rw [List.mem_singleton.mp hmem, hread, hattr]
  · by_cases hrecall : cls = .recall
    · subst hrecall
      obtain ⟨extras, hok, hkeys, hother, hread⟩ := exists_convertRecall he hcls
      refine ⟨extras, hok, hkeys, ?_⟩
      intro field hfield hcontent htop
      by_cases hname : field.name = "microagent_knowledge"
      · rw [hname, hread]
      · have hplain : field.type.isPlain = true := by
          by_contra hplain
          have hmem := mem_modelFields hfield (Bool.eq_false_iff.mpr hplain)
          rw [hcls] at hmem
          rw [List.mem_singleton.mp hmem] at hname
          exact hname rfl
        rw [hother _ hname, get?_extras_of_isPlain he hcls hfield hplain hcontent htop]
    · refine ⟨(e.props.pop "content").mapValues Value.data, ?_, PyDict.keys_mapValues _ _, ?_⟩
      · cases cls <;> first | rfl | exact absurd rfl hcmd | exact absurd rfl hrecall
      · intro field hfield hcontent htop
        refine get?_extras_of_isPlain he hcls hfield ?_ hcontent htop
        by_contra hplain
        have hmem := mem_modelFields hfield (Bool.eq_false_iff.mpr hplain)
        rw [hcls] at hmem
        cases cls <;> first | exact hcmd rfl | exact hrecall rfl | cases hmem

/-- Reading makes the fields of an observation again. -/
theorem create_extras (he : e.Constructed libs) (hcls : e.cls = .observation cls)
    (hkind : e.attrs.get? e.cls.kindKey = some (.data (.str e.cls.kind)))
    {content : String} (hcontent : e.attrs.get? "content" = some (.data (.str content)))
    {extras : PyDict String Value} (hkeys : extras.keys = (e.props.pop "content").keys)
    (hextras : ∀ field ∈ e.cls.fields libs.version, field.name ≠ "content" →
      field.name ∉ topKeys → extras.get? field.name = e.attrs.get? field.name) :
    (EventClass.observation cls).create libs
      (.ofEntries (("content", .data (.str content)) :: extras.entries)) = .ok e.attrs := by
  have hnew : "content" ∉ extras.keys := by
    rw [hkeys, ← PyDict.get?_eq_none_iff, PyDict.get?_pop, if_pos rfl]
  set kwargs := PyDict.ofEntries (("content", Value.data (.str content)) :: extras.entries)
    with hkwargs
  have hget : ∀ name, kwargs.get? name
      = if name = "content" then some (.data (.str content)) else extras.get? name := fun name =>
    PyDict.get?_ofEntries_cons hnew
  have hnone : ∀ {name : String}, e.props.get? name = none → extras.get? name = none := by
    intro name hname
    rw [PyDict.get?_eq_none_iff, hkeys, ← PyDict.get?_eq_none_iff, PyDict.get?_pop, hname,
      ite_self]
  have hnodup : ((e.cls.fields libs.version).map (·.name)).Nodup := by
    rw [e.cls.map_name_fields]
    exact e.cls.nodup_fieldNames
  have hbind : bindFields (e.cls.fields libs.version) kwargs = .ok e.attrs := by
    refine (bindFields_eq_ok_iff hnodup).mpr ⟨?_, ?_⟩
    · rw [he.keys, e.cls.map_name_fields]
    · intro field hfield
      rw [hget]
      by_cases hname : field.name = "content"
      · rw [if_pos hname, hname, hcontent, Option.some_or]
      · rw [if_neg hname]
        by_cases htop : field.name ∈ topKeys
        · rw [hnone (get?_props_of_mem he htop), Option.none_or, eq_kindField hfield htop]
          exact hkind
        · obtain ⟨v, hv, -⟩ := he.exists_value hfield
          rw [hextras field hfield hname htop, hv, Option.some_or]
  by_cases hcmd : cls = .cmdOutput
  · subst hcmd
    have hfield : ⟨"metadata", .metadata, some (.metadata {})⟩ ∈ e.cls.fields libs.version := by
      rw [hcls]
      simp [EventClass.fields, ObservationClass.fields]
    obtain ⟨v, hv, htype⟩ := he.exists_value hfield
    obtain ⟨m, rfl⟩ : ∃ m, v = .metadata m := by
      cases v <;> first | exact ⟨_, rfl⟩ | exact absurd htype Bool.false_ne_true
    have hsettled := he.settled
    rw [hcls] at hbind hsettled
    refine cmdOutputInit_of_settled (m := m) hbind hsettled ?_ ?_ ?_
    · rw [hget, if_neg (by decide), hextras _ hfield (by decide) (by decide)]
      exact hv
    · rw [hget, if_neg (by decide), hnone (get?_props_of_legacy he (by decide))]
    · rw [hget, if_neg (by decide), hnone (get?_props_of_legacy he (by decide))]
  · rw [← hcls]
    refine (create_eq_ok_iff (by rw [hcls]; simpa using hcmd)).mpr ⟨?_, hbind, he.settled⟩
    intro name hname
    by_cases hnameContent : name = "content"
    · have hmem : "content" ∈ e.attrs.keys :=
        List.mem_map_of_mem (PyDict.mem_entries_of_get? hcontent)
      rw [hnameContent, ← he.keys]
      exact hmem
    · apply mem_fieldNames_of_mem_props he
      by_contra hno
      refine PyDict.get?_eq_none_iff.mp ?_ hname
      rw [hget, if_neg hnameContent]
      exact hnone (PyDict.get?_eq_none_iff.mpr hno)

/-- An observation is read back from its dictionary. -/
theorem observationFromDict_observationDict (hlibs : libs.Lawful) (he : e.Constructed libs)
    (hcls : e.cls = .observation cls) {message : String}
    (h : ObservationDict libs e message d)
    (hkind : e.attrs.get? e.cls.kindKey = some (.data (.str e.cls.kind))) :
    observationFromDict libs d = .ok { cls := .observation cls, attrs := e.attrs } := by
  obtain ⟨content, hcontent⟩ := exists_content he hcls
  obtain ⟨extras, hconvert, hkeys, hextras⟩ := exists_convertExtras hlibs he hcls
  have hdkind : d.get? "observation" = some (.str cls.kind) := by
    rw [hcls] at hkind
    rw [h.top "observation" (by decide)]
    show (e.attrs.get? "observation").map Value.toJson = _
    rw [show e.attrs.get? "observation" = _ from hkind]
    rfl
  have hdcontent : d.get? "content" = some (.str content) := by
    rw [h.content, get?_props he (by decide) (fun h => absurd h (by decide)), hcontent]
    rfl
  have hlegacy : ∀ name ∈ legacyNames,
      ((e.props.pop "content").mapValues Value.data).get? name = none := by
    intro name hname
    rw [PyDict.get?_mapValues, PyDict.get?_pop, get?_props_of_legacy he hname, ite_self]
    rfl
  have hno : extras.contains "content" = false := by
    rw [← PyDict.isSome_get?, Option.isSome_eq_false_iff, Option.isNone_iff_eq_none,
      PyDict.get?_eq_none_iff, hkeys, ← PyDict.get?_eq_none_iff, PyDict.get?_pop, if_pos rfl]
  have hcreate := create_extras he hcls hkind hcontent hkeys hextras
  unfold observationFromDict
  simp only [hdkind, observationTypeToClass_eq_some_iff.mpr rfl, hdcontent, h.extras,
    Option.getD_some, PyDict.ofEntries_entries, extras_unchanged hlegacy, hconvert, bind,
    Except.bind]
  rw [hno, hcreate]
  rfl

end Observations

end OpenHands.Serialization
