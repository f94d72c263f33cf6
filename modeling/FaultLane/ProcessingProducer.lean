import FaultLane.ProcessingResult

set_option autoImplicit false

/-!
# What the producer writes, the contract accepts

One lemma for each serialized type, from the leaves up.
-/
namespace FaultLane.ProcessingProducer
open Fallible SortedMap Json CrashContext CrashRequest Symbolication ProcessingContract
  ProcessingResult

@[simp] theorem asObject_ofFields (fields : List (String × Json)) :
    (Json.ofFields fields).asObject = some (SortedMap.ofFields fields) := rfl

@[simp] theorem onlyKeys_ofFields (fields : List (String × Json)) (allowed : List String) :
    onlyKeys (SortedMap.ofFields fields) allowed = (keys fields).all allowed.contains := by
  unfold onlyKeys
  rw [Bool.eq_iff_iff, List.all_eq_true, List.all_eq_true]
  simp only [mem_keys_ofFields]

/-- A record serialized with exactly the members `names`. -/
theorem ofFields_names {fields : List (String × Json)} {names allowed : List String}
    (h : keys fields = names) (hn : names.Nodup) (ha : names.all allowed.contains = true) :
    (SortedMap.ofFields fields).length = names.length ∧
      onlyKeys (SortedMap.ofFields fields) allowed = true := by
  subst h
  refine ⟨?_, by rw [onlyKeys_ofFields, ha]⟩
  rw [length_ofFields fields hn, keys, List.length_map]

@[simp] theorem nullableString_ofOptionalString (s : Option String) :
    nullableString (ofOptionalString s) = true := by
  cases s <;> rfl

@[simp] theorem nullableU64_ofOptionalNat (n : Option Nat) :
    nullableU64 (ofOptionalNat n) = true := by
  cases n <;> rfl

@[simp] theorem stringArray_strings (texts : List String) :
    stringArray (.array (texts.map Json.string)) = true := by
  simp [stringArray, isSomeAnd, asArray, isString, asStr]

theorem validateArray_map {α : Type} {object : JsonMap} {field : String}
    {validator : Json → Checked Unit} {toJson : α → Json} {items : List α}
    (hfield : get field object = some (.array (items.map toJson)))
    (h : ∀ a ∈ items, validator (toJson a) = .ok ()) :
    validateArray object field validator = .ok () := by
  have hat : arrayAt field object = some (items.map toJson) := by rw [arrayAt, hfield]; rfl
  rw [validateArray, hat, okOr_some, ok_bind, forEach_eq_ok]
  intro v hv
  obtain ⟨a, ha, rfl⟩ := List.mem_map.mp hv
  exact h a ha

theorem validateNormalizedValue_toJson (v : NormalizedValue) :
    validateNormalizedValue v.toJson = .ok () := by
  simp [validateNormalizedValue, validateStringObject, NormalizedValue.toJson, isNoneOr,
    length_ofFields, keys, refuse, isString, asStr]

theorem validateProperty_toJson (p : CrashContextProperty) :
    validateProperty p.toJson = .ok () := by
  simp [validateProperty, validateStringObject, CrashContextProperty.toJson, isNoneOr,
    length_ofFields, keys, refuse, isString, asStr]

theorem validateContextThread_toJson (t : CrashContextThread) :
    validateContextThread t.toJson = .ok () := by
  simp [validateContextThread, CrashContextThread.toJson, contextThreadFields, isNoneOr,
    length_ofFields, keys, refuse]

/-- A value of a built object is one of the values it was built from. -/
theorem mem_values_ofFields {v : Json} {fields : List (String × Json)}
    (h : v ∈ values (SortedMap.ofFields fields)) : ∃ key, (key, v) ∈ fields := by
  obtain ⟨⟨key, w⟩, hmem, rfl⟩ := List.mem_map.mp h
  exact ⟨key, mem_ofFields hmem⟩

theorem validateUnknownSection_ofFields (section' : SortedMap String (List String)) :
    validateUnknownSection
      (Json.ofFields (section'.map fun field => (field.1, .array (field.2.map Json.string)))) =
        .ok () := by
  unfold validateUnknownSection
  simp only [asObject_ofFields, okOr_some, ok_bind, refuse_eq_ok, Bool.not_eq_true,
    List.any_eq_false]
  intro v hv
  obtain ⟨key, hmem⟩ := mem_values_ofFields hv
  obtain ⟨field, -, heq⟩ := List.mem_map.mp hmem
  cases heq
  simp [isNoneOr, asArray, isString, asStr]

theorem validateUnknownFields_toJson (unknown : UnknownFields) :
    validateUnknownFields (unknownFieldsToJson unknown) = .ok () := by
  unfold validateUnknownFields unknownFieldsToJson
  simp only [asObject_ofFields, okOr_some, ok_bind, forEach_eq_ok]
  intro v hv
  obtain ⟨key, hmem⟩ := mem_values_ofFields hv
  obtain ⟨field, -, heq⟩ := List.mem_map.mp hmem
  cases heq
  exact validateUnknownSection_ofFields field.2

theorem validCrashType_text (crashType : CrashType) : validCrashType crashType.text = true := by
  cases crashType <;> decide

theorem validConfidence_text (confidence : ClassificationConfidence) :
    validConfidence confidence.text = true := by
  cases confidence <;> decide

theorem get_contextFields_late {key : String} (c : CrashContextData)
    (h : key ∈ ["modules", "threads", "system_metadata", "user_comment", "game_data",
      "unknown_fields"]) :
    get key c.fields = get key
      [("modules", .array (c.modules.map NormalizedValue.toJson)),
        ("threads", .array (c.threads.map CrashContextThread.toJson)),
        ("system_metadata", .array (c.systemMetadata.map CrashContextProperty.toJson)),
        ("user_comment", ofOptionalString c.userComment),
        ("game_data", .array (c.gameData.map CrashContextProperty.toJson)),
        ("unknown_fields", unknownFieldsToJson c.unknownFields)] := by
  have hline : "command_line" ≠ key := by
    rintro rfl
    exact absurd h (by decide)
  have hfront : get key (c.fields.take 9) = none := by
    simp only [List.mem_cons, List.not_mem_nil, or_false] at h
    rcases h with rfl | rfl | rfl | rfl | rfl | rfl <;> rfl
  have hsplit : c.fields = c.fields.take 9 ++ c.fields.drop 9 := (List.take_append_drop 9 _).symm
  rw [hsplit, get_append, hfront, Option.none_or]
  change get key (optionalField "command_line" _ ++ _) = _
  rw [get_append, get_optionalField, if_neg hline, Option.none_or]

theorem nullable_contextFields (c : CrashContextData) {field : String}
    (h : field ∈ nullableContextFields) : ∃ s, get field c.fields = some (ofOptionalString s) := by
  simp only [nullableContextFields, List.mem_cons, List.not_mem_nil, or_false] at h
  rcases h with rfl | rfl | rfl | rfl | rfl | rfl
  · exact ⟨c.errorMessage, rfl⟩
  · exact ⟨c.buildVersion, rfl⟩
  · exact ⟨c.engineVersion, rfl⟩
  · exact ⟨c.architecture, rfl⟩
  · exact ⟨c.buildConfiguration, rfl⟩
  · exact ⟨c.userComment, get_contextFields_late c (by decide)⟩

theorem validateCrashContext_fields (c : CrashContextData)
    (hversion : c.parserVersion = crashContextParserVersion) :
    validateCrashContext (SortedMap.ofFields c.fields) = .ok () := by
  have hlength : ((SortedMap.ofFields c.fields).length == 15 ||
      (SortedMap.ofFields c.fields).length == 16) = true := by
    cases hc : c.commandLine <;>
      simp [CrashContextData.fields, optionalField, hc, length_ofFields, keys]
  have hkeys : onlyKeys (SortedMap.ofFields c.fields) crashContextFields = true := by
    cases hc : c.commandLine <;>
      simp [CrashContextData.fields, optionalField, hc, keys, crashContextFields]
  have hline : isSomeAnd (get "command_line" (SortedMap.ofFields c.fields)) (!·.isString) =
      false := by
    cases hc : c.commandLine <;>
      simp [CrashContextData.fields, optionalField, hc, isSomeAnd, isString, asStr]
  have hplatform : isNoneOr (get "platform" (SortedMap.ofFields c.fields))
      (fun value => !value.isNull && !(validateNormalizedValue value).isOk) = false := by
    cases hp : c.platform <;>
      simp [CrashContextData.fields, hp, isNoneOr, ofOption, isNull,
        validateNormalizedValue_toJson, Except.isOk, Except.toBool]
  have hnullable : (nullableContextFields.any fun field =>
      isNoneOr (get field (SortedMap.ofFields c.fields)) (!nullableString ·)) = false := by
    rw [List.any_eq_false]
    intro field hfield
    obtain ⟨s, hs⟩ := nullable_contextFields c hfield
    simp [hs, isNoneOr]
  have hguid : isSomeAnd (get "crash_guid" (SortedMap.ofFields c.fields)) nullableString =
      true := by
    simp [CrashContextData.fields, isSomeAnd]
  have htype : isSomeAnd (strAt "crash_type" (SortedMap.ofFields c.fields)) validCrashType =
      true := by
    simp [CrashContextData.fields, isSomeAnd, strAt, asStr, validCrashType_text]
  have hparser : u64At "parser_version" (SortedMap.ofFields c.fields) =
      some crashContextParserVersion := by
    simp [CrashContextData.fields, u64At, asU64, ofNat, hversion]
  have hlate : ∀ key, key ∈ _ → get key (SortedMap.ofFields c.fields) = _ :=
    fun key hkey => (get_ofFields key c.fields).trans (get_contextFields_late c hkey)
  unfold validateCrashContext
  rw [hlength, hkeys, hline, hplatform, hnullable, hguid, htype, hparser,
    hlate "unknown_fields" (by decide)]
  rw [validateArray_map (hlate "modules" (by decide)) fun v _ => validateNormalizedValue_toJson v,
    validateArray_map (hlate "threads" (by decide)) fun t _ => validateContextThread_toJson t,
    validateArray_map (hlate "system_metadata" (by decide)) fun p _ => validateProperty_toJson p,
    validateArray_map (hlate "game_data" (by decide)) fun p _ => validateProperty_toJson p]
  simp [refuse, validateUnknownFields_toJson]

theorem requestKind_text (kind : CrashRequestFileKind) :
    requestKinds.contains kind.text = true := by
  cases kind <;> decide

theorem validateRequestFile_toJson (f : CrashRequestFile) :
    validateRequestFile f.toJson = .ok () := by
  simp [-List.contains_eq_mem, validateRequestFile, CrashRequestFile.toJson, isSomeAnd, strAt,
    u64At, asStr, asU64, length_ofFields, keys, refuse, ofNat, requestKind_text]

theorem validateRequest_toJson (m : CrashRequestManifest) : validateRequest m.toJson = .ok () := by
  simp [validateRequest, CrashRequestManifest.toJson, strAt, u64At, asStr, asU64,
    length_ofFields, keys, refuse, ofNat, requestFields, m.schemaVersion_eq, m.envelope_eq]
  exact validateArray_map (by simp; rfl) fun f _ => validateRequestFile_toJson f

theorem signalKind_text (kind : CrashSignalKind) :
    signalKinds.contains kind.text = true := by
  cases kind <;> decide

theorem validateSignal_toJson (s : CrashSignal) : validateSignal s.toJson = .ok () := by
  simp [-List.contains_eq_mem, validateSignal, CrashSignal.toJson, isSomeAnd, strAt, asStr,
    length_ofFields, keys, refuse, signalKind_text, validConfidence_text]

theorem validateClassification_toJson (c : CrashClassification) :
    validateClassification c.toJson = .ok () := by
  simp [validateClassification, CrashClassification.toJson, isSomeAnd, strAt, asStr,
    length_ofFields, keys, refuse, validCrashType_text, validConfidence_text]
  exact validateArray_map (by simp; rfl) fun s _ => validateSignal_toJson s

theorem validateLog_toJson (l : CrashRequestLog) : validateLog l.toJson = .ok () := by
  simp [validateLog, CrashRequestLog.toJson, strAt, boolAt, objectAt, asStr, asBool,
    length_ofFields, keys, refuse]

theorem validateInline_toJson (i : InlineSymbol) : validateInline i.toJson = .ok () := by
  simp [validateInline, InlineSymbol.toJson, strAt, asStr, isNoneOr, length_ofFields, keys, refuse]

theorem forEach_map {α : Type} {validator : Json → Checked Unit} {toJson : α → Json}
    {items : List α} (h : ∀ a ∈ items, validator (toJson a) = .ok ()) :
    forEach validator (items.map toJson) = .ok () := by
  rw [forEach_eq_ok]
  intro v hv
  obtain ⟨a, ha, rfl⟩ := List.mem_map.mp hv
  exact h a ha

theorem frameStatus_text (status : FrameSymbolStatus) :
    frameStatuses.contains status.text = true := by
  cases status <;> decide

theorem validateFrame_toJson (f : SymbolicatedFrame) (htrust : f.trust ≠ "") :
    validateFrame f.toJson = .ok () := by
  simp [-List.contains_eq_mem, validateFrame, SymbolicatedFrame.toJson, strAt, arrayAt, asStr,
    asArray, isArray, isSomeAnd, isNoneOr, length_ofFields, keys, refuse, frameFields,
    frameStatus_text, htrust, forEach_map, validateInline_toJson]

theorem unwindStatus_text (status : ThreadUnwindStatus) :
    unwindStatuses.contains status.text = true := by
  cases status <;> decide

theorem validateThread_toJson (t : SymbolicatedThread) (htrust : ∀ f ∈ t.frames, f.trust ≠ "") :
    validateThread t.toJson = .ok () := by
  have hframes := forEach_map fun f hf => validateFrame_toJson f (htrust f hf)
  simp [-List.contains_eq_mem, validateThread, SymbolicatedThread.toJson, strAt, u64At, boolAt,
    arrayAt, asStr, asU64, asBool, asArray, isArray, ofNat, isSomeAnd, isNoneOr, length_ofFields,
    keys, refuse, threadFields, unwindStatus_text, hframes]

theorem moduleStatus_text (status : ModuleSymbolStatus) :
    moduleStatuses.contains status.text = true := by
  cases status <;> decide

theorem validateModule_toJson (m : SymbolicatedModule) : validateModule m.toJson = .ok () := by
  cases h : m.symcacheFormat <;>
    simp [-List.contains_eq_mem, validateModule, SymbolicatedModule.toJson,
      SymbolicatedModule.fields, optionalField, h, strAt, u64At, asStr, asU64, ofNat, isU64,
      isSomeAnd, isNoneOr, length_ofFields, keys, refuse, moduleFields, moduleStatus_text]

/-- What the symbolicator promises of the texts it writes. -/
structure Named (r : SymbolicationResult) : Prop where
  symbolicator : r.symbolicatorVersion ≠ ""
  minidump : r.minidumpVersion ≠ ""
  processor : r.minidumpProcessorVersion ≠ ""
  unwind : r.minidumpUnwindVersion ≠ ""
  trust : ∀ t ∈ r.threads, ∀ f ∈ t.frames, f.trust ≠ ""

theorem versionFields_named (r : SymbolicationResult) (h : Named r) {field : String}
    (hfield : field ∈ versionFields) :
    ∃ text, get field r.fields = some (.string text) ∧ text ≠ "" := by
  simp only [versionFields, List.mem_cons, List.not_mem_nil, or_false] at hfield
  rcases hfield with rfl | rfl | rfl | rfl
  · exact ⟨_, rfl, h.symbolicator⟩
  · exact ⟨_, rfl, h.minidump⟩
  · exact ⟨_, rfl, h.processor⟩
  · exact ⟨_, rfl, h.unwind⟩

theorem validateSymbolicationHeader_fields (r : SymbolicationResult) (h : Named r) :
    validateSymbolicationHeader (SortedMap.ofFields r.fields) processingVersion = .ok () := by
  have hnames : keys r.fields =
      ["schema_version", "symbolicator_version", "minidump_version", "minidump_processor_version",
        "minidump_unwind_version", "platform", "architecture", "faulting_thread_id",
        "exception_reason", "assertion", "modules", "threads"] := rfl
  have hallowed : (keys r.fields).all (symbolicationFields processingVersion).contains = true := by
    rw [hnames]
    decide
  obtain ⟨hlength, hkeys⟩ := ofFields_names rfl (by rw [hnames]; decide) hallowed
  rw [hnames] at hlength
  have hget := fun key => get_ofFields key r.fields
  have hschema : u64At "schema_version" (SortedMap.ofFields r.fields) = some 2 := by
    rw [u64At, hget, SymbolicationResult.fields, r.schemaVersion_eq]
    rfl
  have hplatform : strAt "platform" (SortedMap.ofFields r.fields) = some "windows" := by
    rw [strAt, hget, SymbolicationResult.fields, r.platform_eq]
    rfl
  have harchitecture : strAt "architecture" (SortedMap.ofFields r.fields) = some "x86_64" := by
    rw [strAt, hget, SymbolicationResult.fields, r.architecture_eq]
    rfl
  have hlists : isSomeAnd (get "modules" (SortedMap.ofFields r.fields)) isArray = true ∧
      isSomeAnd (get "threads" (SortedMap.ofFields r.fields)) isArray = true := by
    rw [hget, hget]
    exact ⟨rfl, rfl⟩
  have hreasons : (["exception_reason", "assertion"].any fun field =>
      isNoneOr (get field (SortedMap.ofFields r.fields)) (!nullableString ·)) = false := by
    have hreason : get "exception_reason" r.fields = some (ofOptionalString r.exceptionReason) :=
      rfl
    have hassertion : get "assertion" r.fields = some (ofOptionalString r.assertion) := rfl
    simp only [List.any_cons, List.any_nil, hget, hreason, hassertion, isNoneOr, Option.all_some,
      nullableString_ofOptionalString, Bool.not_true, Bool.or_false]
  have hversions : (versionFields.any fun field =>
      isNoneOr (strAt field (SortedMap.ofFields r.fields)) (·.isEmpty)) = false := by
    rw [List.any_eq_false]
    intro field hfield
    obtain ⟨text, htext, hne⟩ := versionFields_named r h hfield
    rw [strAt, hget, htext]
    simpa [isNoneOr, asStr] using hne
  have hthread : get "faulting_thread_id" (SortedMap.ofFields r.fields) =
      some (ofOptionalNat r.faultingThreadId) := by
    rw [hget]
    rfl
  have hnullable : (ofOptionalNat r.faultingThreadId).isNull = false →
      (ofOptionalNat r.faultingThreadId).isU64 = true := by
    cases r.faultingThreadId with
    | none => rintro ⟨⟩
    | some id => exact fun _ => rfl
  unfold validateSymbolicationHeader
  rw [hlength, hkeys, hschema, hplatform, harchitecture, hlists.1, hlists.2, hreasons, hversions,
    hthread]
  simpa [refuse, processingVersion, symbolicationFields] using hnullable

theorem validateSymbolication_toJson (r : SymbolicationResult) (h : Named r) :
    validateSymbolication r.toJson processingVersion = .ok () := by
  have hmodules : forEach validateModule (r.modules.map SymbolicatedModule.toJson) = .ok () :=
    forEach_map fun m _ => validateModule_toJson m
  have hthreads := forEach_map fun t ht => validateThread_toJson t (h.trust t ht)
  have hgetModules : arrayAt "modules" (SortedMap.ofFields r.fields) =
      some (r.modules.map SymbolicatedModule.toJson) := by
    rw [arrayAt, get_ofFields]
    rfl
  have hgetThreads : arrayAt "threads" (SortedMap.ofFields r.fields) =
      some (r.threads.map SymbolicatedThread.toJson) := by
    rw [arrayAt, get_ofFields]
    rfl
  simp [validateSymbolication, SymbolicationResult.toJson, validateSymbolicationHeader_fields r h,
    hgetModules, hgetThreads, validateModules, validateThreads, hmodules, hthreads]

theorem validateAttempt_ofFields {version : Nat} {symbolication : Json}
    (h : validateSymbolication symbolication processingVersion = .ok ())
    (hobject : symbolication.isObject = true) :
    validateAttempt (Json.ofFields [("processing_version", ofNat processingVersion),
      ("parser_version", ofNat version), ("symbolication", symbolication)]) = .ok () := by
  have hversion : ∀ object, u64At "processing_version" object = some processingVersion →
      attemptVersion object = .ok processingVersion := by
    intro object ho
    rw [attemptVersion, ho]
    rfl
  simp [validateAttempt, containsKey, isSomeAnd, hversion, u64At, asU64, isU64, ofNat,
    length_ofFields, keys, refuse, hobject, h]

theorem validateAttempt_attempt (version : Nat) (r : SymbolicationResult) (h : Named r) :
    validateAttempt (attempt version r) = .ok () :=
  validateAttempt_ofFields (validateSymbolication_toJson r h) rfl

end FaultLane.ProcessingProducer
