/-
# What the constructors of the event classes return

The dump of a model validates to the model again.  The constructor of a class returns the
attributes exactly when every field has an argument or a default and the object passes the
checks of its class (`create_eq_ok_of_settled`, `settled_of_create`); the truncation of a
command output is stable.
-/
import OpenHands.EventSerialization
import OpenHands.Lib.Fallible

namespace OpenHands.Serialization

open Fallible

variable {R : Type} {libs : Externals R}

/-! ## Models -/

theorem Externals.Lawful.validateOptStr (hlibs : libs.Lawful) (s : Option String) :
    libs.validateOptStr (.ofOption .str s) = .ok s := by
  cases s with
  | none => rfl
  | some s =>
      show (libs.validateStr (.str s)).map some = _
      rw [hlibs.str]
      rfl

/-- A field that is given is validated. -/
theorem modelField_of_get? {α : Type} {d : PyDict String PyJson} {name : String} {v : PyJson}
    (h : d.get? name = some v) (validate : PyJson → Except PyError α)
    (default : Except PyError α) : modelField d name validate default = validate v := by
  unfold modelField
  rw [h]

/-- A field that is not given takes its default. -/
theorem modelField_of_none {α : Type} {d : PyDict String PyJson} {name : String}
    (h : d.get? name = none) (validate : PyJson → Except PyError α)
    (default : Except PyError α) : modelField d name validate default = default := by
  unfold modelField
  rw [h]

theorem CmdOutputMetadata.ofDict_modelDump (hlibs : libs.Lawful) (m : CmdOutputMetadata) :
    ofDict libs m.modelDump = .ok m := by
  simp [ofDict, modelDump, modelField, PyDict.ofEntries, hlibs.int, hlibs.str, hlibs.validateOptStr,
    bind, Except.bind, pure, Except.pure]

theorem ToolCallMetadata.ofDict_modelDump (hlibs : libs.Lawful) (m : ToolCallMetadata R) :
    ofDict libs (m.modelDump libs) = .ok m := by
  simp [ofDict, modelDump, modelField, PyDict.ofEntries, hlibs.int, hlibs.str, hlibs.response,
    bind, Except.bind, pure, Except.pure]

theorem Cost.ofDict_modelDump (hlibs : libs.Lawful) (c : Cost) : ofDict libs c.modelDump = .ok c := by
  simp [ofDict, modelDump, modelField, PyDict.ofEntries, hlibs.str, hlibs.float,
    bind, Except.bind, pure, Except.pure]

theorem ResponseLatency.ofDict_modelDump (hlibs : libs.Lawful) (l : ResponseLatency) :
    ofDict libs l.modelDump = .ok l := by
  simp [ofDict, modelDump, modelField, PyDict.ofEntries, hlibs.str, hlibs.float,
    bind, Except.bind, pure, Except.pure]

theorem TokenUsage.ofDict_modelDump (hlibs : libs.Lawful) (u : TokenUsage) :
    ofDict libs u.modelDump = .ok u := by
  simp [ofDict, modelDump, modelField, PyDict.ofEntries, hlibs.int, hlibs.str,
    bind, Except.bind, pure, Except.pure]

/-- Steps that all succeed. -/
theorem mapM_eq_ok {α β : Type} {f : α → Except PyError β} {g : α → β} :
    ∀ {l : List α}, (∀ a ∈ l, f a = .ok (g a)) → l.mapM f = .ok (l.map g)
  | [], _ => rfl
  | a :: l, h => by
      rw [List.mapM_cons, h a List.mem_cons_self,
        mapM_eq_ok fun b hb => h b (List.mem_cons_of_mem a hb)]
      rfl

/-- A step that fails makes the whole fail. -/
theorem mapM_eq_error {α β : Type} {f : α → Except PyError β} {a : α} {err : PyError} :
    ∀ {l : List α}, a ∈ l → f a = .error err → ∃ err, l.mapM f = .error err
  | b :: l, hmem, ha => by
      rw [List.mapM_cons]
      cases hb : f b with
      | error err => exact ⟨err, rfl⟩
      | ok b' =>
          rcases List.mem_cons.mp hmem with rfl | hmem
          · rw [ha] at hb
            cases hb
          · obtain ⟨err, herr⟩ := mapM_eq_error hmem ha
            rw [herr]
            exact ⟨err, rfl⟩

/-- A list of dumps validates to the list. -/
theorem ofJsonList_dumpAll {α : Type} {ofDict : PyDict String PyJson → Except PyError α}
    {dump : α → PyDict String PyJson} (h : ∀ a, ofDict (dump a) = .ok a) (items : List α) :
    ofJsonList ofDict (dumpAll dump items) = .ok items := by
  show (items.map fun item => PyJson.obj (dump item).entries).mapM (ofJson ofDict) = _
  rw [List.mapM_map]
  have hitem : ∀ item ∈ items,
      (ofJson ofDict ∘ fun item => PyJson.obj (dump item).entries) item = .ok (id item) := by
    intro item _
    show ofDict (.ofEntries (dump item).entries) = _
    rw [PyDict.ofEntries_entries, h]
    rfl
  rw [mapM_eq_ok hitem, List.map_id]

theorem optNumberOf_ofOption (x : Option ℚ) : optNumberOf (.ofOption .float x) = .ok x := by
  cases x <;> rfl

/-- What is read of `Metrics.get`: everything but the name of the model. -/
theorem Metrics.ofDict_get (hlibs : libs.Lawful) {m : Metrics} (hcost : 0 ≤ m.accumulatedCost) :
    ofDict libs m.get = .ok { m with modelName := "default" } := by
  have hcosts := ofJsonList_dumpAll (Cost.ofDict_modelDump hlibs) m.costs
  have hlatencies := ofJsonList_dumpAll (ResponseLatency.ofDict_modelDump hlibs) m.responseLatencies
  have husages := ofJsonList_dumpAll (TokenUsage.ofDict_modelDump hlibs) m.tokenUsages
  have husage : ofJson (TokenUsage.ofDict libs) (.obj m.accumulatedTokenUsage.modelDump.entries)
      = .ok m.accumulatedTokenUsage := by
    show TokenUsage.ofDict libs (.ofEntries m.accumulatedTokenUsage.modelDump.entries) = _
    rw [PyDict.ofEntries_entries, TokenUsage.ofDict_modelDump hlibs]
  simp [ofDict, get, modelField, PyDict.ofEntries, numberOf, Rat.not_lt.mpr hcost,
    optNumberOf_ofOption, hcosts, hlatencies, husages, husage, bind, Except.bind, pure,
    Except.pure]

/-- A negative cost is refused. -/
theorem Metrics.ofDict_get_of_neg {m : Metrics} (hcost : m.accumulatedCost < 0) :
    ofDict libs m.get = .error (.valueError "Total cost cannot be negative.") := by
  simp [ofDict, get, modelField, PyDict.ofEntries, numberOf, hcost, bind, Except.bind]

/-! ## Truncation -/

/-- A truncated content is truncated to itself. -/
theorem maybeTruncate_idem {maxSize : ℕ} (heven : maxSize = maxSize / 2 + maxSize / 2)
    (hpos : 0 < maxSize / 2) (content : String) :
    maybeTruncate (maybeTruncate content maxSize) maxSize = maybeTruncate content maxSize := by
  by_cases hshort : content.length ≤ maxSize
  · have hsame : maybeTruncate content maxSize = content := if_pos hshort
    rw [hsame, hsame]
  · set marker := "\n[... Observation truncated due to length ...]\n" with hmarker
    set half := maxSize / 2 with hhalf
    set first := content.toList.take half with hfirst
    set last := content.toList.drop (content.toList.length - half) with hlast
    have hlen : content.toList.length = content.length := String.length_toList
    have hcut : ∀ s : String, ¬ s.length ≤ maxSize → maybeTruncate s maxSize
        = String.ofList (s.toList.take half) ++ marker
          ++ String.ofList (s.toList.drop (s.toList.length - half)) := by
      intro s hs
      unfold maybeTruncate
      rw [if_neg hs]
      show String.ofList (PySeq.slice s.toList none (some (half : ℤ))) ++ marker
        ++ String.ofList (PySeq.slice s.toList (some (-(half : ℤ))) none) = _
      rw [PySeq.slice_stop_of_nonneg _ (by omega), PySeq.slice_start_of_neg _ hpos,
        Int.toNat_natCast]
    have hfirstLen : first.length = half := by
      rw [hfirst, List.length_take]
      omega
    have hlastLen : last.length = half := by
      rw [hlast, List.length_drop]
      omega
    have hlist : (String.ofList first ++ marker ++ String.ofList last).toList
        = first ++ marker.toList ++ last := by
      simp
    have hlong : ¬ (String.ofList first ++ marker ++ String.ofList last).length ≤ maxSize := by
      rw [← String.length_toList, hlist, List.length_append, List.length_append, hfirstLen,
        hlastLen]
      have hmarkerLen : 0 < marker.toList.length := by
        rw [hmarker]
        decide
      omega
    rw [hcut content hshort, hcut _ hlong, hlist, List.append_assoc,
      List.take_left' hfirstLen, ← List.append_assoc,
      List.drop_left' (by simp only [List.length_append]; omega)]

/-! ## Binding the arguments -/

section BindFields

variable {fields : List Field} {kwargs attrs : PyDict String Value}

/-- When every field has an argument or a default, these are the attributes. -/
theorem exists_bindFields (hnodup : (fields.map (·.name)).Nodup)
    (hsome : ∀ field ∈ fields, ((kwargs.get? field.name).or field.default).isSome) :
    ∃ attrs, bindFields fields kwargs = .ok attrs ∧ attrs.keys = fields.map (·.name) ∧
      ∀ field ∈ fields, attrs.get? field.name = (kwargs.get? field.name).or field.default := by
  set entry : Field → String × Value := fun field =>
    (field.name, ((kwargs.get? field.name).or field.default).getD (.data .null)) with hentry
  have hkeys : (fields.map entry).map Prod.fst = fields.map (·.name) := by
    rw [List.map_map]
    rfl
  have hvalue : ∀ (field : Field) {v : Value},
      (kwargs.get? field.name).or field.default = some v → entry field = (field.name, v) := by
    intro field v hv
    show (field.name, ((kwargs.get? field.name).or field.default).getD (.data .null)) = _
    rw [hv]
    rfl
  have hmap : fields.mapM (fieldArgument kwargs) = .ok (fields.map entry) := by
    apply mapM_eq_ok
    intro field hfield
    obtain ⟨v, hv⟩ := Option.isSome_iff_exists.mp (hsome field hfield)
    unfold fieldArgument
    rw [hv, hvalue field hv]
  have hentries : (PyDict.ofEntries (fields.map entry)).entries = fields.map entry :=
    PyDict.entries_ofEntries (by rwa [hkeys])
  refine ⟨.ofEntries (fields.map entry), ?_, ?_, ?_⟩
  · unfold bindFields
    rw [hmap]
    rfl
  · show (PyDict.ofEntries (fields.map entry)).entries.map Prod.fst = _
    rw [hentries, hkeys]
  · intro field hfield
    obtain ⟨v, hv⟩ := Option.isSome_iff_exists.mp (hsome field hfield)
    rw [hv, PyDict.get?_eq_some_iff, hentries, List.mem_map]
    exact ⟨field, hfield, hvalue field hv⟩

/-- A constructor that returns has an argument or a default for every field. -/
theorem isSome_of_bindFields (h : bindFields fields kwargs = .ok attrs) :
    ∀ field ∈ fields, ((kwargs.get? field.name).or field.default).isSome := by
  intro field hfield
  by_contra hnone
  rw [Option.not_isSome_iff_eq_none] at hnone
  have herror : fieldArgument kwargs field = .error .typeError := by
    unfold fieldArgument
    rw [hnone]
  have hbind : ∃ err, fields.mapM (fieldArgument kwargs) = .error err :=
    mapM_eq_error hfield herror
  obtain ⟨err, herr⟩ := hbind
  unfold bindFields at h
  rw [herr] at h
  cases h

/-- A dataclass constructor returns the attributes whose names are those of the fields and
whose values are the arguments, or the defaults. -/
theorem bindFields_eq_ok_iff (hnodup : (fields.map (·.name)).Nodup) :
    bindFields fields kwargs = .ok attrs ↔ attrs.keys = fields.map (·.name) ∧
      ∀ field ∈ fields, attrs.get? field.name = (kwargs.get? field.name).or field.default := by
  constructor
  · intro h
    obtain ⟨attrs', hattrs', hkeys, hget⟩ := exists_bindFields hnodup (isSome_of_bindFields h)
    rw [h] at hattrs'
    cases hattrs'
    exact ⟨hkeys, hget⟩
  · rintro ⟨hkeys, hget⟩
    have hsome : ∀ field ∈ fields, ((kwargs.get? field.name).or field.default).isSome := by
      intro field hfield
      rw [← hget field hfield, PyDict.isSome_get?]
      unfold PyDict.contains
      rw [hkeys, decide_eq_true_eq]
      exact List.mem_map_of_mem hfield
    obtain ⟨attrs', hattrs', hkeys', hget'⟩ := exists_bindFields hnodup hsome
    rw [hattrs']
    congr 1
    apply PyDict.ext_get? (by rw [hkeys, hkeys'])
    intro name hname
    rw [hkeys', List.mem_map] at hname
    obtain ⟨field, hfield, rfl⟩ := hname
    rw [hget field hfield, hget' field hfield]

end BindFields

/-! ## The objects of a class -/

/-- What the constructor of a class ensures beyond the names of the fields. -/
def EventClass.Settled (cls : EventClass) (attrs : PyDict String Value) : Prop :=
  match cls with
  | .action .condensation => ∃ condensation, condensationAction attrs = .ok condensation
  | .observation .cmdOutput =>
    attrs.get? "hidden" = some (.data (.bool true)) ∨
      ∀ content, attrs.get? "content" = some (.data (.str content)) →
        maybeTruncate content maxCmdOutputSize = content
  | _ => True

/-- `__post_init__` checks the object and leaves it as it is. -/
theorem postInit_eq_ok_iff {cls : EventClass} (hcls : cls ≠ .observation .cmdOutput)
    {attrs attrs' : PyDict String Value} :
    cls.postInit attrs = .ok attrs' ↔ attrs = attrs' ∧ cls.Settled attrs' := by
  by_cases hcond : cls = .action .condensation
  · subst hcond
    show (condensationAction attrs).map (fun _ => attrs) = .ok attrs' ↔ _
    cases hok : condensationAction attrs with
    | error err =>
        constructor
        · intro h
          cases h
        · rintro ⟨rfl, condensation, h⟩
          rw [hok] at h
          cases h
    | ok condensation =>
        constructor
        · intro h
          cases h
          exact ⟨rfl, condensation, hok⟩
        · rintro ⟨rfl, -⟩
          rfl
  · have hpost : cls.postInit attrs = .ok attrs := by
      rcases cls with cls | cls <;> cases cls <;> first | rfl | exact absurd rfl hcond
    have hsettled : cls.Settled attrs' := by
      rcases cls with cls | cls <;> cases cls <;> trivial
    rw [hpost, Except.ok.injEq]
    exact ⟨fun h => ⟨h, hsettled⟩, fun h => h.1⟩

/-- The constructor of a class other than `CmdOutputObservation`. -/
theorem create_eq_ok_iff {cls : EventClass} (hcls : cls ≠ .observation .cmdOutput)
    {kwargs attrs : PyDict String Value} :
    cls.create libs kwargs = .ok attrs ↔ (∀ name ∈ kwargs.keys, name ∈ cls.fieldNames) ∧
      bindFields (cls.fields libs.version) kwargs = .ok attrs ∧ cls.Settled attrs := by
  unfold EventClass.create
  rw [if_neg hcls]
  by_cases hknown : ∀ name ∈ kwargs.keys, name ∈ cls.fieldNames
  · rw [if_pos (by simpa using hknown), bind_eq_ok_iff]
    constructor
    · rintro ⟨attrs', hbind, hpost⟩
      obtain ⟨rfl, hsettled⟩ := (postInit_eq_ok_iff hcls).mp hpost
      exact ⟨hknown, hbind, hsettled⟩
    · rintro ⟨-, hbind, hsettled⟩
      exact ⟨attrs, hbind, (postInit_eq_ok_iff hcls).mpr ⟨rfl, hsettled⟩⟩
  · rw [if_neg (by simpa using hknown)]
    constructor
    · intro h
      cases h
    · rintro ⟨h, -⟩
      exact absurd h hknown

/-! ### Command outputs -/

theorem maxCmdOutputSize_even : maxCmdOutputSize = maxCmdOutputSize / 2 + maxCmdOutputSize / 2 := by
  decide

theorem keys_truncateOutput (attrs : PyDict String Value) :
    (truncateOutput attrs).keys = attrs.keys := by
  unfold truncateOutput
  split
  · rfl
  · next hcontent _ =>
      exact PyDict.keys_set_of_mem (List.mem_map_of_mem (PyDict.mem_entries_of_get? hcontent)) _
  · rfl

/-- After the truncation the content is stable. -/
theorem settled_truncateOutput (attrs : PyDict String Value) :
    (EventClass.observation .cmdOutput).Settled (truncateOutput attrs) := by
  unfold truncateOutput
  split
  · next hhidden => exact Or.inl hhidden
  · refine Or.inr fun content hcontent => ?_
    rw [PyDict.get?_set, if_pos rfl] at hcontent
    cases hcontent
    exact maybeTruncate_idem maxCmdOutputSize_even (by decide) _
  · next hnone => exact Or.inr fun content hcontent => absurd hcontent (hnone content)

/-- A stable content is left as it is. -/
theorem truncateOutput_of_settled {attrs : PyDict String Value}
    (h : (EventClass.observation .cmdOutput).Settled attrs) : truncateOutput attrs = attrs := by
  unfold truncateOutput
  split
  · rfl
  · next content hcontent hvisible =>
      rcases h with hhidden | hstable
      · exact absurd hhidden hvisible
      · rw [hstable content hcontent]
        exact PyDict.set_of_get?_eq_some hcontent
  · rfl

/-- The objects that `CmdOutputObservation.__init__` makes. -/
theorem settled_of_cmdOutputInit {kwargs attrs : PyDict String Value}
    (h : cmdOutputInit libs kwargs = .ok attrs) :
    attrs.keys = (EventClass.observation .cmdOutput).fieldNames ∧
      (EventClass.observation .cmdOutput).Settled attrs := by
  obtain ⟨attrs', hbind, h⟩ := bind_eq_ok_iff.mp h
  obtain ⟨metadata, -, h⟩ := bind_eq_ok_iff.mp h
  cases h
  obtain ⟨hkeys, -⟩ := (bindFields_eq_ok_iff (by decide)).mp hbind
  have hmem : "metadata" ∈ (truncateOutput attrs').keys := by
    rw [keys_truncateOutput, hkeys]
    decide
  constructor
  · rw [PyDict.keys_set_of_mem hmem, keys_truncateOutput, hkeys]
    rfl
  · rcases settled_truncateOutput attrs' with hhidden | hstable
    · refine Or.inl ?_
      rw [PyDict.get?_set, if_neg (by decide)]
      exact hhidden
    · refine Or.inr fun content hcontent => hstable content ?_
      rwa [PyDict.get?_set, if_neg (by decide)] at hcontent

/-- `CmdOutputObservation.__init__` with the attributes of an object as its arguments. -/
theorem cmdOutputInit_of_settled {kwargs attrs : PyDict String Value} {m : CmdOutputMetadata}
    (hbind : bindFields ObservationClass.cmdOutput.fields kwargs = .ok attrs)
    (hsettled : (EventClass.observation .cmdOutput).Settled attrs)
    (hmetadata : kwargs.get? "metadata" = some (.metadata m))
    (hexit : kwargs.get? "exit_code" = none) (hpid : kwargs.get? "command_id" = none) :
    cmdOutputInit libs kwargs = .ok attrs := by
  have hargument : metadataArgument libs kwargs = .ok (.metadata m) := by
    unfold metadataArgument
    rw [hmetadata]
  have hlegacy : withLegacyAttribute kwargs (.metadata m) = .metadata m := by
    unfold withLegacyAttribute
    rw [hexit, hpid]
  have hattr : attrs.get? "metadata" = some (.metadata m) := by
    obtain ⟨-, hget⟩ := (bindFields_eq_ok_iff (by decide)).mp hbind
    rw [hget ⟨"metadata", .metadata, some (.metadata {})⟩ (by simp [ObservationClass.fields]),
      hmetadata, Option.some_or]
  unfold cmdOutputInit
  rw [hbind, hargument]
  show Except.ok ((truncateOutput attrs).set "metadata" (withLegacyAttribute kwargs (.metadata m)))
    = _
  rw [hlegacy, truncateOutput_of_settled hsettled, PyDict.set_of_get?_eq_some hattr]

/-- Every object that a constructor returns has the fields of its class and is settled. -/
theorem settled_of_create {cls : EventClass} {kwargs attrs : PyDict String Value}
    (h : cls.create libs kwargs = .ok attrs) : attrs.keys = cls.fieldNames ∧ cls.Settled attrs := by
  by_cases hcls : cls = .observation .cmdOutput
  · subst hcls
    exact settled_of_cmdOutputInit h
  · obtain ⟨-, hbind, hsettled⟩ := (create_eq_ok_iff hcls).mp h
    have hnodup : ((cls.fields libs.version).map (·.name)).Nodup := by
      rw [cls.map_name_fields]
      exact cls.nodup_fieldNames
    rw [((bindFields_eq_ok_iff hnodup).mp hbind).1, cls.map_name_fields]
    exact ⟨rfl, hsettled⟩

end OpenHands.Serialization
