import FaultLane.ProcessingHistory
import FaultLane.Redaction

set_option autoImplicit false

/-!
# Redacted results

A serialized record with some of its members redacted is the serialized form of a redacted
record, so what is published of a result is itself a result of the processor's form.
-/
namespace FaultLane.RedactedResults
open RustText Json CrashContext CrashRequest Symbolication ProcessingResult Redaction

/-! ## Members of a serialized record -/

/-- What a list of updates makes of the member `key`. -/
def updateAt (updates : List (String × (Json → Json))) (key : String) (v : Json) : Json :=
  updates.foldl (fun v u => if key = u.1 then u.2 v else v) v

theorem field_ofFields (key : String) (update : Json → Json) (entries : List (String × Json)) :
    field key update (ofFields entries) =
      ofFields (entries.map fun e => (e.1, if e.1 = key then update e.2 else e.2)) := by
  have hentry : (fun e : String × Json => if e.1 = key then (e.1, update e.2) else e) =
      fun e => (e.1, if e.1 = key then update e.2 else e.2) := by
    funext e
    split_ifs <;> rfl
  rw [ofFields, field, hentry,
    SortedMap.map_ofFields (fun k v => if k = key then update v else v) entries]
  rfl

theorem fields_ofFields (updates : List (String × (Json → Json)))
    (entries : List (String × Json)) :
    fields updates (ofFields entries) =
      ofFields (entries.map fun e => (e.1, updateAt updates e.1 e.2)) := by
  induction updates generalizing entries with
  | nil => exact congrArg ofFields (List.map_id' entries).symm
  | cons u updates ih =>
    change fields updates (field u.1 u.2 (ofFields entries)) = _
    rw [field_ofFields, ih, List.map_map]
    rfl

theorem elements_map {α : Type} {update : Json → Json} {toJson : α → Json} {change : α → α}
    (h : ∀ a, update (toJson a) = toJson (change a)) (items : List α) :
    elements update (.array (items.map toJson)) = .array ((items.map change).map toJson) := by
  simp only [elements, List.map_map, Json.array.injEq]
  exact List.map_congr_left fun a _ => h a

/-! ## Redacted records -/

section Records
variable (patterns : List Text)

def redactString (s : String) : String := String.ofList (redactText patterns s.toList)

def redactNormalizedValue (v : NormalizedValue) : NormalizedValue :=
  ⟨redactString patterns v.original, redactString patterns v.normalized⟩

/-- A module's normalized name is not redacted. -/
def redactModule (v : NormalizedValue) : NormalizedValue :=
  { v with original := redactString patterns v.original }

def redactContextThread (t : CrashContextThread) : CrashContextThread :=
  { t with
    callStack := t.callStack.map (redactString patterns)
    registers := t.registers.map (redactString patterns)
    threadName := t.threadName.map (redactString patterns) }

def redactProperty (p : CrashContextProperty) : CrashContextProperty :=
  { p with value := redactString patterns p.value }

def redactUnknownFields (unknown : UnknownFields) : UnknownFields :=
  unknown.map fun entry => (entry.1, entry.2.map fun field =>
    (field.1, field.2.map (redactString patterns)))

def redactContext (c : CrashContextData) : CrashContextData :=
  { c with
    errorMessage := c.errorMessage.map (redactString patterns)
    buildVersion := c.buildVersion.map (redactString patterns)
    engineVersion := c.engineVersion.map (redactString patterns)
    platform := c.platform.map (redactNormalizedValue patterns)
    architecture := c.architecture.map (redactString patterns)
    buildConfiguration := c.buildConfiguration.map (redactString patterns)
    commandLine := c.commandLine.map (redactString patterns)
    modules := c.modules.map (redactModule patterns)
    threads := c.threads.map (redactContextThread patterns)
    systemMetadata := c.systemMetadata.map (redactProperty patterns)
    userComment := c.userComment.map (redactString patterns)
    gameData := c.gameData.map (redactProperty patterns)
    unknownFields := redactUnknownFields patterns c.unknownFields }

def redactRequestLog (l : CrashRequestLog) : CrashRequestLog :=
  ⟨redactString patterns l.name, { l.tail with text := redactString patterns l.tail.text }⟩

def redactInline (i : InlineSymbol) : InlineSymbol :=
  { i with sourceFile := i.sourceFile.map (redactString patterns) }

def redactSymbolicatedFrame (f : SymbolicatedFrame) : SymbolicatedFrame :=
  { f with
    sourceFile := f.sourceFile.map (redactString patterns)
    inlines := f.inlines.map (redactInline patterns) }

def redactThread (t : SymbolicatedThread) : SymbolicatedThread :=
  { t with frames := t.frames.map (redactSymbolicatedFrame patterns) }

def redactResult (r : SymbolicationResult) : SymbolicationResult :=
  { r with threads := r.threads.map (redactThread patterns) }

end Records

/-! ## Redaction of the serialized form -/

section Serialized
variable {patterns : List Text}

@[simp] theorem redactValue_string (s : String) :
    redactValue patterns (.string s) = .string (redactString patterns s) := rfl

@[simp] theorem redactValue_optional (s : Option String) :
    redactValue patterns (ofOptionalString s) =
      ofOptionalString (s.map (redactString patterns)) := by
  cases s <;> rfl

theorem redact_normalizedValue (v : NormalizedValue) :
    fields [("original", redactValue patterns), ("normalized", redactValue patterns)] v.toJson =
      (redactNormalizedValue patterns v).toJson := by
  rw [NormalizedValue.toJson, fields_ofFields]
  rfl

theorem redact_platform (v : Option NormalizedValue) :
    fields [("original", redactValue patterns), ("normalized", redactValue patterns)]
        (ofOption NormalizedValue.toJson v) =
      ofOption NormalizedValue.toJson (v.map (redactNormalizedValue patterns)) := by
  cases v with
  | none => rfl
  | some v => exact redact_normalizedValue v

theorem redact_modules (modules : List NormalizedValue) :
    redactArrayFields patterns ["original"] (.array (modules.map NormalizedValue.toJson)) =
      .array ((modules.map (redactModule patterns)).map NormalizedValue.toJson) := by
  refine elements_map (fun v => ?_) modules
  rw [NormalizedValue.toJson, List.map_cons, List.map_nil, fields_ofFields]
  rfl

theorem redact_contextThreads (threads : List CrashContextThread) :
    redactArrayFields patterns ["call_stack", "registers", "thread_name"]
        (.array (threads.map CrashContextThread.toJson)) =
      .array ((threads.map (redactContextThread patterns)).map CrashContextThread.toJson) := by
  refine elements_map (fun t => ?_) threads
  simp [CrashContextThread.toJson, fields_ofFields, updateAt, redactContextThread]

theorem redact_properties (properties : List CrashContextProperty) :
    redactArrayFields patterns ["value"] (.array (properties.map CrashContextProperty.toJson)) =
      .array ((properties.map (redactProperty patterns)).map CrashContextProperty.toJson) := by
  refine elements_map (fun p => ?_) properties
  rw [CrashContextProperty.toJson, List.map_cons, List.map_nil, fields_ofFields]
  rfl

theorem redactRecursiveValues_strings (texts : List String) :
    redactRecursiveValues patterns (texts.map Json.string) =
      (texts.map (redactString patterns)).map Json.string := by
  induction texts with
  | nil => rfl
  | cons text texts ih =>
    rw [List.map_cons, redactRecursiveValues, ih]
    rfl

theorem redactRecursiveFields_eq (entries : List (String × Json)) :
    redactRecursiveFields patterns entries =
      entries.map fun e => (e.1, redactRecursive patterns e.2) := by
  induction entries with
  | nil => rfl
  | cons head rest ih => rw [redactRecursiveFields, ih, List.map_cons]

theorem redactRecursive_ofFields (entries : List (String × Json)) :
    redactRecursive patterns (ofFields entries) =
      ofFields (entries.map fun e => (e.1, redactRecursive patterns e.2)) := by
  rw [ofFields, redactRecursive, redactRecursiveFields_eq,
    SortedMap.map_ofFields fun _ => redactRecursive patterns]
  rfl

theorem redact_unknownFields (unknown : UnknownFields) :
    redactRecursive patterns (unknownFieldsToJson unknown) =
      unknownFieldsToJson (redactUnknownFields patterns unknown) := by
  rw [unknownFieldsToJson, redactRecursive_ofFields, unknownFieldsToJson, redactUnknownFields,
    List.map_map, List.map_map]
  refine congrArg ofFields (List.map_congr_left fun entry _ => ?_)
  simp only [Function.comp_apply, redactRecursive_ofFields, List.map_map]
  refine congrArg (fun entries => (entry.1, ofFields entries))
    (List.map_congr_left fun field _ => ?_)
  simp only [Function.comp_apply, redactRecursive, redactRecursiveValues_strings]

theorem redact_context (c : CrashContextData) :
    fields (contextUpdates patterns) c.toJson = (redactContext patterns c).toJson := by
  rw [CrashContextData.toJson, fields_ofFields]
  refine congrArg ofFields ?_
  cases hline : c.commandLine <;>
    simp [CrashContextData.fields, updateAt, contextUpdates, redactContext, optionalField, hline,
      redact_platform, redact_modules, redact_contextThreads, redact_properties,
      redact_unknownFields]

theorem redact_log (l : CrashRequestLog) :
    field "tail" (field "text" (redactValue patterns)) (field "name" (redactValue patterns)
      l.toJson) = (redactRequestLog patterns l).toJson := by
  simp [CrashRequestLog.toJson, field_ofFields, redactRequestLog]

theorem redact_inlines (inlines : List InlineSymbol) :
    elements (field "source_file" (redactValue patterns))
        (.array (inlines.map InlineSymbol.toJson)) =
      .array ((inlines.map (redactInline patterns)).map InlineSymbol.toJson) := by
  refine elements_map (fun i => ?_) inlines
  simp [InlineSymbol.toJson, field_ofFields, redactInline]

theorem redact_frames (frames : List SymbolicatedFrame) :
    elements (redactFrame patterns) (.array (frames.map SymbolicatedFrame.toJson)) =
      .array ((frames.map (redactSymbolicatedFrame patterns)).map SymbolicatedFrame.toJson) := by
  refine elements_map (fun f => ?_) frames
  simp [SymbolicatedFrame.toJson, redactFrame, fields_ofFields, updateAt, redact_inlines,
    redactSymbolicatedFrame]

theorem redact_threads (threads : List SymbolicatedThread) :
    elements (field "frames" (elements (redactFrame patterns)))
        (.array (threads.map SymbolicatedThread.toJson)) =
      .array ((threads.map (redactThread patterns)).map SymbolicatedThread.toJson) := by
  refine elements_map (fun t => ?_) threads
  simp [SymbolicatedThread.toJson, field_ofFields, redact_frames, redactThread]

theorem redact_attempt (version : Nat) (r : SymbolicationResult) :
    field "symbolication" (field "threads" (elements (field "frames" (elements
        (redactFrame patterns))))) (attempt version r) =
      attempt version (redactResult patterns r) := by
  have hresult : field "threads" (elements (field "frames" (elements (redactFrame patterns))))
      r.toJson = (redactResult patterns r).toJson := by
    simp [SymbolicationResult.toJson, SymbolicationResult.fields, field_ofFields, redact_threads,
      redactResult]
  simp [attempt, field_ofFields, hresult]

/-- The members of the result that are redacted, and nothing else of it. -/
theorem redact_resultFieldValues (guid : String) (context : CrashContextData)
    (request : Option CrashRequestManifest) (classification : Option CrashClassification)
    (log : Option CrashRequestLog) (version : Nat) (r : SymbolicationResult)
    (history : List Json) :
    redactSymbolication patterns (redactLog patterns (redactCrashContext patterns (ofFields
      (resultFieldValues guid context request classification log (attempt version r) history)))) =
      ofFields (resultFieldValues guid (redactContext patterns context) request classification
        (log.map (redactRequestLog patterns)) (attempt version (redactResult patterns r))
        history) := by
  rw [redact_eq_fields, fields_ofFields]
  refine congrArg ofFields ?_
  cases request <;> cases classification <;> cases log <;>
    simp [resultFieldValues, updateAt, resultUpdates, optionalField, redact_context, redact_log,
      redact_attempt]

end Serialized

/-! ## No pattern -/

section Nil

@[simp] theorem redactString_nil : redactString [] = id := by
  funext s
  exact String.ofList_toList

theorem redactNormalizedValue_nil : redactNormalizedValue [] = id := by
  funext v
  simp [redactNormalizedValue]

theorem redactModule_nil : redactModule [] = id := by
  funext v
  simp [redactModule]

theorem redactContextThread_nil : redactContextThread [] = id := by
  funext t
  simp [redactContextThread]

theorem redactProperty_nil : redactProperty [] = id := by
  funext p
  simp [redactProperty]

theorem redactContext_nil (c : CrashContextData) : redactContext [] c = c := by
  simp [redactContext, redactNormalizedValue_nil, redactModule_nil, redactContextThread_nil,
    redactProperty_nil, redactUnknownFields]

theorem redactRequestLog_nil : redactRequestLog [] = id := by
  funext l
  simp [redactRequestLog]

theorem redactSymbolicatedFrame_nil : redactSymbolicatedFrame [] = id := by
  funext f
  have hinline : redactInline [] = id := by
    funext i
    simp [redactInline]
  simp [redactSymbolicatedFrame, hinline]

theorem redactResult_nil (r : SymbolicationResult) : redactResult [] r = r := by
  have hthread : redactThread [] = id := by
    funext t
    simp [redactThread, redactSymbolicatedFrame_nil]
  simp [redactResult, hthread]

end Nil

/-- What `redact_and_index` leaves of a result of the processor. -/
theorem redactAndIndex_resultFieldValues (rules : DataRules) (guid : String)
    (context : CrashContextData) (request : Option CrashRequestManifest)
    (classification : Option CrashClassification) (log : Option CrashRequestLog) (version : Nat)
    (r : SymbolicationResult) (history : List Json) :
    (redactAndIndex rules (ofFields (resultFieldValues guid context request classification log
      (attempt version r) history))).1 =
      ofFields (resultFieldValues guid (redactContext rules.patterns context) request
        classification (log.map (redactRequestLog rules.patterns))
        (attempt version (redactResult rules.patterns r)) history) := by
  unfold redactAndIndex
  dsimp only
  split_ifs with hempty
  · rw [List.isEmpty_iff.mp hempty, redactContext_nil, redactResult_nil, redactRequestLog_nil,
      Option.map_id_fun, id_eq]
  · exact redact_resultFieldValues guid context request classification log version r history

/-! ## Attempts that redaction leaves as they are -/

section Kept
variable {patterns : List Text}

/-- No pattern changes the source file. -/
def SourceKept (patterns : List Text) (sourceFile : Option String) : Prop :=
  ∀ s ∈ sourceFile, redactText patterns s.toList = s.toList

/-- No pattern changes a source file of the attempt. -/
def SourcesKept (patterns : List Text) (r : SymbolicationResult) : Prop :=
  ∀ t ∈ r.threads, ∀ f ∈ t.frames,
    SourceKept patterns f.sourceFile ∧ ∀ i ∈ f.inlines, SourceKept patterns i.sourceFile

theorem sourceKept_iff {sourceFile : Option String} :
    sourceFile.map (redactString patterns) = sourceFile ↔ SourceKept patterns sourceFile := by
  cases sourceFile with
  | none => simp [SourceKept]
  | some s =>
    have hstring : redactString patterns s = s ↔ redactText patterns s.toList = s.toList := by
      rw [redactString, ← String.toList_inj, String.toList_ofList]
    simp [SourceKept, hstring]

theorem ofOptionalString_injective {s t : Option String}
    (h : ofOptionalString s = ofOptionalString t) : s = t := by
  cases s <;> cases t <;> simp_all [ofOptionalString, ofOption]

/-- Serialized lists agree just when the serialized elements do. -/
theorem array_map_eq_iff {α : Type} (toJson : α → Json) (change : α → α) (items : List α) :
    Json.array ((items.map change).map toJson) = Json.array (items.map toJson) ↔
      ∀ a ∈ items, toJson (change a) = toJson a := by
  rw [Json.array.injEq, List.map_map, List.map_inj_left]
  rfl

theorem get_eq_of_ofFields {entries entries' : List (String × Json)}
    (h : ofFields entries = ofFields entries') (key : String) :
    SortedMap.get key entries = SortedMap.get key entries' := by
  rw [← get_fields, ← get_fields, h]

theorem redactInline_toJson_iff (i : InlineSymbol) :
    (redactInline patterns i).toJson = i.toJson ↔ SourceKept patterns i.sourceFile := by
  rw [← sourceKept_iff]
  constructor
  · intro h
    have hfile := get_eq_of_ofFields h "source_file"
    exact ofOptionalString_injective (Option.some.inj hfile)
  · intro h
    rw [redactInline, h]

theorem redactFrame_toJson_iff (f : SymbolicatedFrame) :
    (redactSymbolicatedFrame patterns f).toJson = f.toJson ↔
      SourceKept patterns f.sourceFile ∧
        ∀ i ∈ f.inlines, SourceKept patterns i.sourceFile := by
  have hinlines := array_map_eq_iff InlineSymbol.toJson (redactInline patterns) f.inlines
  simp only [redactInline_toJson_iff] at hinlines
  rw [← sourceKept_iff, ← hinlines]
  constructor
  · intro h
    have hfile := get_eq_of_ofFields h "source_file"
    have hinline := get_eq_of_ofFields h "inlines"
    exact ⟨ofOptionalString_injective (Option.some.inj hfile), Option.some.inj hinline⟩
  · rintro ⟨hfile, hinline⟩
    simp only [redactSymbolicatedFrame, SymbolicatedFrame.toJson, hfile, hinline]

theorem redactThread_toJson_iff (t : SymbolicatedThread) :
    (redactThread patterns t).toJson = t.toJson ↔ ∀ f ∈ t.frames,
      SourceKept patterns f.sourceFile ∧
        ∀ i ∈ f.inlines, SourceKept patterns i.sourceFile := by
  have hframes := array_map_eq_iff SymbolicatedFrame.toJson (redactSymbolicatedFrame patterns)
    t.frames
  simp only [redactFrame_toJson_iff] at hframes
  rw [← hframes]
  constructor
  · intro h
    exact Option.some.inj (get_eq_of_ofFields h "frames")
  · intro h
    simp only [redactThread, SymbolicatedThread.toJson, h]

/-- The stored attempt is the fresh one just when no source file is redacted. -/
theorem attempt_redactResult_iff (version : Nat) (r : SymbolicationResult) :
    attempt version (redactResult patterns r) = attempt version r ↔ SourcesKept patterns r := by
  have hthreads := array_map_eq_iff SymbolicatedThread.toJson (redactThread patterns) r.threads
  simp only [redactThread_toJson_iff] at hthreads
  rw [SourcesKept, ← hthreads]
  constructor
  · intro h
    have hresult : (redactResult patterns r).toJson = r.toJson :=
      Option.some.inj (get_eq_of_ofFields h "symbolication")
    exact Option.some.inj (get_eq_of_ofFields hresult "threads")
  · intro h
    have hresult : (redactResult patterns r).toJson = r.toJson := by
      simp only [redactResult, SymbolicationResult.toJson, SymbolicationResult.fields, h]
    rw [attempt, attempt, hresult]

end Kept

end FaultLane.RedactedResults
