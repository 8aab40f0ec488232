/-
# What `event_to_dict` writes

The events that the constructors of the registered classes return, what their classes have
in common, and which fields of an event its dictionary holds where: the attributes of `Event`
and the type at the top level, every other field under `args` or `extras`, but no
`security_risk` that is `None`.
-/
import OpenHands.EventConstructors

namespace OpenHands.Serialization

variable {R : Type} {libs : Externals R}

/-! ## The events of the registered classes -/

/-- An event as its constructor made it: every field has a value of its declared type. -/
structure EventObject.Constructed (libs : Externals R) (e : EventObject R) : Prop where
  created : ∃ kwargs, e.cls.create libs kwargs = .ok e.attrs
  typed : ∀ field ∈ e.cls.fields libs.version, ∀ v, e.attrs.get? field.name = some v →
    field.type.admits v = true

/-- Equal events: the metrics up to their dictionary. -/
structure EventObject.Same (e e' : EventObject R) : Prop where
  cls : e.cls = e'.cls
  attrs : e.attrs = e'.attrs
  id : e.id = e'.id
  timestamp : e.timestamp = e'.timestamp
  source : e.source = e'.source
  cause : e.cause = e'.cause
  timeout : e.timeout = e'.timeout
  toolCallMetadata : e.toolCallMetadata = e'.toolCallMetadata
  llmMetrics : e.llmMetrics.map Metrics.get = e'.llmMetrics.map Metrics.get

/-- The event is read back from its dictionary, and its dictionary is written again. -/
def EventObject.RoundTrips (libs : Externals R) (e : EventObject R) : Prop :=
  ∃ d, eventToDict libs e = .ok d ∧
    ∃ e', eventFromDict libs d = .ok e' ∧ e'.Same e ∧ eventToDict libs e' = .ok d

/-- The reason of a rejection, if there is one, is a string. -/
def HasTextReason (attrs : PyDict String Value) : Prop :=
  ∀ outputs, attrs.get? "outputs" = some (.data (.obj outputs)) →
    ∀ reason, (PyDict.ofEntries outputs).get? "reason" = some reason → ∃ s, reason = .str s

/-- What an event must satisfy to survive its dictionary. -/
structure EventObject.Serializable (e : EventObject R) : Prop where
  kind : e.attrs.get? e.cls.kindKey = some (.data (.str e.cls.kind))
  timeout : ∀ cls, e.cls = .observation cls → e.timeout = none
  risk : e.attrs.get? "security_risk" ≠ some (.data .null)
  reason : e.cls = .action .agentReject → HasTextReason e.attrs
  cost : ∀ m, e.llmMetrics = some m → 0 ≤ m.accumulatedCost

/-! ## What the classes have in common -/

/-- The names that `event_to_dict` and `event_from_dict` reserve for older events. -/
def legacyNames : List String :=
  ["timestamp", "is_confirmed", "images_urls", "keep_prompt", "task_completed",
    "translated_ipython_code", "exit_code", "command_id", "formatted_output_and_error"]

/-- No class has a field with a reserved name. -/
theorem legacyNames_notMem_fieldNames (cls : EventClass) {name : String}
    (hname : name ∈ legacyNames) : name ∉ cls.fieldNames := by
  have hdisjoint : ∀ name ∈ legacyNames, name ∉ cls.fieldNames := by
    rcases cls with cls | cls <;> cases cls <;> decide
  exact hdisjoint name hname

/-- The field of the type is the only one that is written at the top level. -/
theorem filter_fields_topKeys (version : String) (cls : EventClass) :
    (cls.fields version).filter (fun field => field.name ∈ topKeys)
      = [.optional cls.kindKey .str (.str cls.kind)] := by
  rcases cls with cls | cls <;> cases cls <;> rfl

theorem eq_kindField {version : String} {cls : EventClass} {field : Field}
    (hfield : field ∈ cls.fields version) (htop : field.name ∈ topKeys) :
    field = .optional cls.kindKey .str (.str cls.kind) := by
  have hmem : field ∈ (cls.fields version).filter (fun field => field.name ∈ topKeys) :=
    List.mem_filter.mpr ⟨hfield, by simpa using htop⟩
  rw [filter_fields_topKeys] at hmem
  exact List.mem_singleton.mp hmem

theorem kindField_mem (version : String) (cls : EventClass) :
    Field.optional cls.kindKey .str (.str cls.kind) ∈ cls.fields version := by
  have hmem : Field.optional cls.kindKey .str (.str cls.kind)
      ∈ (cls.fields version).filter (fun field => field.name ∈ topKeys) := by
    rw [filter_fields_topKeys]
    exact List.mem_singleton_self _
  exact (List.mem_filter.mp hmem).1

/-- `security_risk` is declared alike wherever it is. -/
theorem eq_securityRiskField {version : String} {cls : EventClass} {field : Field}
    (hfield : field ∈ cls.fields version) (hname : field.name = "security_risk") :
    field = securityRiskField := by
  have hfilter : ((cls.fields version).filter fun field => field.name = "security_risk") = []
      ∨ ((cls.fields version).filter fun field => field.name = "security_risk")
        = [securityRiskField] := by
    rcases cls with cls | cls <;> cases cls <;> first | exact Or.inl rfl | exact Or.inr rfl
  have hmem : field ∈ (cls.fields version).filter fun field => field.name = "security_risk" :=
    List.mem_filter.mpr ⟨hfield, by simpa using hname⟩
  rcases hfilter with h | h <;> rw [h] at hmem
  · cases hmem
  · exact List.mem_singleton.mp hmem

/-- A type whose values are plain data. -/
def FieldType.isPlain : FieldType → Bool
  | .metadata | .knowledge => false
  | _ => true

theorem FieldType.eq_data_of_admits {type : FieldType} (hplain : type.isPlain = true) {v : Value}
    (h : type.admits v = true) : ∃ j, v = .data j := by
  cases v with
  | data j => exact ⟨j, rfl⟩
  | metadata m =>
      cases type <;> first | exact absurd h Bool.false_ne_true | exact absurd hplain Bool.false_ne_true
  | knowledge items =>
      cases type <;> first | exact absurd h Bool.false_ne_true | exact absurd hplain Bool.false_ne_true

/-- The fields that do not hold plain data. -/
def EventClass.modelFields : EventClass → List Field
  | .observation .cmdOutput => [⟨"metadata", .metadata, some (.metadata {})⟩]
  | .observation .recall => [⟨"microagent_knowledge", .knowledge, some (.knowledge [])⟩]
  | _ => []

theorem mem_modelFields {version : String} {cls : EventClass} {field : Field}
    (hfield : field ∈ cls.fields version) (hplain : field.type.isPlain = false) :
    field ∈ cls.modelFields := by
  have hfilter : (cls.fields version).filter (fun field => !field.type.isPlain)
      = cls.modelFields := by
    rcases cls with cls | cls <;> cases cls <;> rfl
  rw [← hfilter]
  exact List.mem_filter.mpr ⟨hfield, by simp [hplain]⟩

/-! ## The fields of an event -/

namespace EventObject.Constructed

variable {e : EventObject R}

theorem keys (he : e.Constructed libs) : e.attrs.keys = e.cls.fieldNames := by
  obtain ⟨kwargs, hcreate⟩ := he.created
  exact (settled_of_create hcreate).1

theorem settled (he : e.Constructed libs) : e.cls.Settled e.attrs := by
  obtain ⟨kwargs, hcreate⟩ := he.created
  exact (settled_of_create hcreate).2

/-- An attribute that is no field of the class is not there. -/
theorem get?_eq_none (he : e.Constructed libs) {name : String} (hname : name ∉ e.cls.fieldNames) :
    e.attrs.get? name = none := by
  rw [PyDict.get?_eq_none_iff, he.keys]
  exact hname

/-- Every field has a value of its type. -/
theorem exists_value (he : e.Constructed libs) {field : Field}
    (hfield : field ∈ e.cls.fields libs.version) :
    ∃ v, e.attrs.get? field.name = some v ∧ field.type.admits v = true := by
  have hkey : field.name ∈ e.attrs.keys := by
    rw [he.keys, ← e.cls.map_name_fields libs.version]
    exact List.mem_map_of_mem hfield
  have hsome : (e.attrs.get? field.name).isSome := by
    rw [PyDict.isSome_get?]
    exact decide_eq_true hkey
  obtain ⟨v, hv⟩ := Option.isSome_iff_exists.mp hsome
  exact ⟨v, hv, he.typed field hfield v hv⟩

/-- The field of the type holds a string. -/
theorem exists_kind (he : e.Constructed libs) :
    ∃ kind, e.attrs.get? e.cls.kindKey = some (.data (.str kind)) := by
  obtain ⟨v, hv, htype⟩ := he.exists_value (kindField_mem libs.version e.cls)
  obtain ⟨j, rfl⟩ := FieldType.eq_data_of_admits rfl htype
  cases j <;> first | exact ⟨_, hv⟩ | exact absurd htype Bool.false_ne_true

/-- The security risk is `None` or the value of a member. -/
theorem securityRisk (he : e.Constructed libs) {v : Value}
    (hv : e.attrs.get? "security_risk" = some v) :
    v = .data .null ∨ ∃ risk : ActionSecurityRisk, v = .data (.int risk.value) := by
  have hname : "security_risk" ∈ e.cls.fieldNames := by
    rw [← he.keys]
    exact List.mem_map_of_mem (PyDict.mem_entries_of_get? hv)
  rw [← e.cls.map_name_fields libs.version] at hname
  obtain ⟨field, hfield, hname⟩ := List.mem_map.mp hname
  have htype := he.typed field hfield v (hname ▸ hv)
  rw [eq_securityRiskField hfield hname] at htype
  obtain ⟨j, rfl⟩ := FieldType.eq_data_of_admits rfl htype
  cases j <;> try exact absurd htype Bool.false_ne_true
  · exact Or.inl rfl
  · next i =>
      obtain ⟨risk, hrisk⟩ := Option.isSome_iff_exists.mp htype
      have hvalue : risk.value = i := by simpa using List.find?_some hrisk
      exact Or.inr ⟨risk, by rw [hvalue]⟩

end EventObject.Constructed

/-! ## What is written -/

section Written

variable {e : EventObject R}

/-- The entries at the top level. -/
theorem get?_topDict (e : EventObject R) (message name : String) :
    (e.topDict libs message).get? name
      = if name ∈ topKeys then e.topValue libs message name else none := by
  show (topKeys.foldl (fun (d : PyDict String PyJson) key =>
    d.setOption key (e.topValue libs message key)) .empty).get? name = _
  rw [PyDict.get?_foldl_setOption, PyDict.get?_empty, Option.or_none]

/-- The fields that are not written at the top level. -/
def EventObject.otherFields (e : EventObject R) : PyDict String PyJson :=
  topKeys.foldl PyDict.pop (e.attrs.mapValues Value.toJson)

theorem get?_otherFields (e : EventObject R) (name : String) :
    e.otherFields.get? name
      = if name ∈ topKeys then none else (e.attrs.get? name).map Value.toJson := by
  unfold EventObject.otherFields
  rw [PyDict.get?_foldl_pop, PyDict.get?_mapValues]

/-- The entries under `args` and `extras`: a `security_risk` of `None` is left out. -/
theorem props_eq (he : e.Constructed libs) :
    e.attrs.get? "security_risk" = some (.data .null) ∧
        e.props = e.otherFields.pop "security_risk" ∨
      e.attrs.get? "security_risk" ≠ some (.data .null) ∧ e.props = e.otherFields := by
  have htask : e.otherFields.get? "task_completed" = none := by
    rw [get?_otherFields, he.get?_eq_none (legacyNames_notMem_fieldNames e.cls (by decide))]
    rfl
  have hrisk : e.otherFields.get? "security_risk"
      = (e.attrs.get? "security_risk").map Value.toJson := by
    rw [get?_otherFields, if_neg (by decide)]
  have hpopped : (e.otherFields.pop "security_risk").get? "task_completed" = none := by
    rw [PyDict.get?_pop, htask, ite_self]
  unfold EventObject.props
  unfold EventObject.otherFields at htask hrisk hpopped ⊢
  cases hv : e.attrs.get? "security_risk" with
  | none =>
      rw [hv] at hrisk
      refine Or.inr ⟨by simp, ?_⟩
      simp only [hrisk, Option.map_none, htask]
  | some v =>
      rw [hv] at hrisk
      rcases he.securityRisk hv with rfl | ⟨risk, rfl⟩
      · refine Or.inl ⟨rfl, ?_⟩
        simp only [hrisk, Option.map_some, Value.toJson, hpopped]
      · refine Or.inr ⟨by simp, ?_⟩
        simp only [hrisk, Option.map_some, Value.toJson, htask]

/-- What is written at the top level is not written again. -/
theorem get?_props_of_mem (he : e.Constructed libs) {name : String} (hname : name ∈ topKeys) :
    e.props.get? name = none := by
  rcases props_eq he with ⟨-, h⟩ | ⟨-, h⟩
  · rw [h, PyDict.get?_pop, get?_otherFields, if_pos hname, ite_self]
  · rw [h, get?_otherFields, if_pos hname]

/-- A `security_risk` of `None` is not written. -/
theorem get?_props_risk (he : e.Constructed libs)
    (hrisk : e.attrs.get? "security_risk" = some (.data .null)) :
    e.props.get? "security_risk" = none := by
  rcases props_eq he with ⟨-, h⟩ | ⟨hne, -⟩
  · rw [h, PyDict.get?_pop, if_pos rfl]
  · exact absurd hrisk hne

/-- Every other field is written. -/
theorem get?_props (he : e.Constructed libs) {name : String} (htop : name ∉ topKeys)
    (hrisk : name = "security_risk" → e.attrs.get? name ≠ some (.data .null)) :
    e.props.get? name = (e.attrs.get? name).map Value.toJson := by
  rcases props_eq he with ⟨hnull, h⟩ | ⟨-, h⟩
  · have hne : name ≠ "security_risk" := by
      rintro rfl
      exact hrisk rfl hnull
    rw [h, PyDict.get?_pop, if_neg hne, get?_otherFields, if_neg htop]
  · rw [h, get?_otherFields, if_neg htop]

/-- Only fields are written. -/
theorem mem_fieldNames_of_mem_props (he : e.Constructed libs) {name : String}
    (hname : name ∈ e.props.keys) : name ∈ e.cls.fieldNames := by
  by_contra hno
  have hattr := he.get?_eq_none hno
  have hother : e.otherFields.get? name = none := by
    rw [get?_otherFields, hattr]
    exact ite_self _
  rcases props_eq he with ⟨-, h⟩ | ⟨-, h⟩
  · refine PyDict.get?_eq_none_iff.mp ?_ hname
    rw [h, PyDict.get?_pop, hother, ite_self]
  · refine PyDict.get?_eq_none_iff.mp ?_ hname
    rw [h, hother]

theorem get?_props_of_legacy (he : e.Constructed libs) {name : String}
    (hname : name ∈ legacyNames) : e.props.get? name = none := by
  rw [PyDict.get?_eq_none_iff]
  intro hmem
  exact legacyNames_notMem_fieldNames e.cls hname (mem_fieldNames_of_mem_props he hmem)

/-- The dictionary of an action. -/
theorem eventToDict_action (he : e.Constructed libs) {cls : ActionClass} (hcls : e.cls = .action cls)
    {message : String} (hmessage : e.cls.messageOf libs.strDict e.attrs = .ok message) :
    eventToDict libs e = .ok (((e.topDict libs message).set "args" (.obj e.props.entries)).setOption
      "timeout" (e.timeout.map .float)) := by
  obtain ⟨kind, hkind⟩ := he.exists_kind
  have haction : (e.topDict libs message).contains "action" = true := by
    rw [← PyDict.isSome_get?, get?_topDict, if_pos (by decide)]
    show ((e.attrs.get? "action").map Value.toJson).isSome = true
    rw [hcls] at hkind
    rw [show e.attrs.get? "action" = _ from hkind]
    rfl
  unfold eventToDict
  rw [hmessage]
  exact if_pos haction

/-- The dictionary of an observation. -/
theorem eventToDict_observation (he : e.Constructed libs) {cls : ObservationClass}
    (hcls : e.cls = .observation cls) {message : String}
    (hmessage : e.cls.messageOf libs.strDict e.attrs = .ok message) :
    eventToDict libs e = .ok ((((e.topDict libs message).set "content"
        ((e.props.get? "content").getD (.str ""))).set "extras"
        (.obj (e.props.pop "content").entries)).setOption "success" (e.success.map .bool)) := by
  obtain ⟨kind, hkind⟩ := he.exists_kind
  have haction : (e.topDict libs message).contains "action" = false := by
    have hno : "action" ∉ e.cls.fieldNames := by
      rw [hcls]
      cases cls <;> decide
    rw [← PyDict.isSome_get?, get?_topDict, if_pos (by decide)]
    show ((e.attrs.get? "action").map Value.toJson).isSome = false
    rw [he.get?_eq_none hno]
    rfl
  have hobservation : (e.topDict libs message).contains "observation" = true := by
    rw [← PyDict.isSome_get?, get?_topDict, if_pos (by decide)]
    show ((e.attrs.get? "observation").map Value.toJson).isSome = true
    rw [hcls] at hkind
    rw [show e.attrs.get? "observation" = _ from hkind]
    rfl
  unfold eventToDict
  rw [hmessage]
  show (if (e.topDict libs message).contains "action" then _
    else if (e.topDict libs message).contains "observation" then _ else _) = _
  rw [haction, hobservation]
  rfl

end Written

end OpenHands.Serialization
