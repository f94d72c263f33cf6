import FaultLane.CrashContext
import FaultLane.NestedMaps

set_option autoImplicit false

/-!
# Command lines in crash contexts

Which fields of a crash context its classification and its extraction read. What stands in a
`CommandLine` element of a `RuntimeProperties` section is read only by an extraction that asks
for it.
-/
namespace FaultLane.CommandLines
open RustText CrashContext NestedMaps

/-! ## Classification -/

/-- `to_lowercase` of an ASCII letter or digit. -/
def normalizeClassificationText (value : Text) : Text :=
  (value.filter isAsciiAlphanumeric).map Char.toLower

def truthy (value : String) : Bool :=
  ["1", "true", "yes"].contains (String.ofList (toAsciiLowercase (trim value.toList)))

def containsAny (value : Text) (patterns : List String) : Bool :=
  patterns.any fun pattern => contains pattern.toList value

def classifyCrashContext (crashType : CrashType) (crashTypeSource errorMessage : Option String)
    (structuredOom : Bool) : CrashClassification :=
  let source := String.ofList
    ((crashTypeSource.map fun text => normalizeClassificationText text.toList).getD [])
  let error := (errorMessage.map fun text => toAsciiLowercase text.toList).getD []
  let crashTypeOom := ["oom", "outofmemory", "outofmemorycrash"].contains source
  let errorOom :=
    containsAny error ["out of memory", "out-of-memory", "ran out of memory", "oom allocation"]
  let crashTypeGpu := ["gpucrash", "gpucrashed", "gputimeout"].contains source
  let errorGpu := containsAny error
    ["gpu crash", "gpu crashed", "gpu timeout", "dxgi_error_device_removed",
      "d3d device being lost"]
  { crashType := crashType
    confidence := if crashType = .unknown then .low else .high
    evidence := if crashType = .unknown then [] else ["crash_context.crash_type"]
    signals :=
      (if structuredOom || crashTypeOom || errorOom then
        [{ kind := .outOfMemory
           confidence := if structuredOom || crashTypeOom then .high else .medium
           evidence :=
            (if structuredOom then ["crash_context.memory_stats.is_oom"] else []) ++
            (if crashTypeOom then ["crash_context.crash_type_oom"] else []) ++
            if errorOom then ["crash_context.error_message_oom"] else [] }]
      else []) ++
      if crashTypeGpu || errorGpu then
        [{ kind := .gpuCrash
           confidence := if crashTypeGpu then .high else .medium
           evidence :=
            (if crashTypeGpu then ["crash_context.crash_type_gpu"] else []) ++
            if errorGpu then ["crash_context.error_message_gpu"] else [] }]
      else [] }

def classification (document : XmlDocument) : CrashClassification :=
  let runtime := findSection "RuntimeProperties" document
  let crashTypeSource := fieldText runtime "CrashType"
  classifyCrashContext ((crashTypeSource.map CrashType.classify).getD .unknown) crashTypeSource
    (fieldText runtime "ErrorMessage")
    ((fieldText runtime "MemoryStats.bIsOOM").any truthy)

/-! ## Documents without their command lines -/

def isCommandLine (field : XmlNode) : Bool := field.isElement && field.name == "CommandLine"

def maskField (field : XmlNode) : XmlNode :=
  if isCommandLine field then .element "CommandLine" [] else field

def maskSection (node : XmlNode) : XmlNode :=
  if node.isElement && node.name == "RuntimeProperties" then
    .element "RuntimeProperties" (node.children.map maskField)
  else node

/-- The document with nothing in its command lines. -/
def maskCommandLines (document : XmlDocument) : XmlDocument :=
  { document with rootChildren := document.rootChildren.map maskSection }

section mask
variable {node : XmlNode} {document : XmlDocument} {name : String}

theorem isElement_maskField (field : XmlNode) : (maskField field).isElement = field.isElement := by
  unfold maskField
  split_ifs with h
  · exact (Bool.and_eq_true_iff.mp h).1.symm
  · rfl

theorem name_maskField (field : XmlNode) : (maskField field).name = field.name := by
  unfold maskField
  split_ifs with h
  · exact (beq_iff_eq.mp (Bool.and_eq_true_iff.mp h).2).symm
  · rfl

theorem maskField_of_ne {field : XmlNode} (h : field.name ≠ "CommandLine") :
    maskField field = field :=
  if_neg fun hline => h (beq_iff_eq.mp (Bool.and_eq_true_iff.mp hline).2)

theorem isElement_maskSection (node : XmlNode) :
    (maskSection node).isElement = node.isElement := by
  unfold maskSection
  split_ifs with h
  · exact (Bool.and_eq_true_iff.mp h).1.symm
  · rfl

theorem name_maskSection (node : XmlNode) : (maskSection node).name = node.name := by
  unfold maskSection
  split_ifs with h
  · exact (beq_iff_eq.mp (Bool.and_eq_true_iff.mp h).2).symm
  · rfl

theorem maskSection_of_ne (h : node.name ≠ "RuntimeProperties") : maskSection node = node :=
  if_neg fun hruntime => h (beq_iff_eq.mp (Bool.and_eq_true_iff.mp hruntime).2)

/-- A filter by what a map keeps. -/
theorem filter_map_of_eq {f : XmlNode → XmlNode} {p : XmlNode → Bool}
    (h : ∀ x, p (f x) = p x) (l : List XmlNode) : (l.map f).filter p = (l.filter p).map f := by
  rw [List.filter_map, show p ∘ f = p from funext h]

theorem find_map_of_eq {f : XmlNode → XmlNode} {p : XmlNode → Bool} (h : ∀ x, p (f x) = p x)
    (l : List XmlNode) : (l.map f).find? p = (l.find? p).map f := by
  rw [List.find?_map, show p ∘ f = p from funext h]

/-- The fields of a section are masked, or the section is another one. -/
theorem fields_maskSection (node : XmlNode) : (maskSection node).fields =
    if node.name = "RuntimeProperties" then node.fields.map maskField else node.fields := by
  by_cases hname : node.name = "RuntimeProperties"
  · rw [if_pos hname]
    by_cases helement : node.isElement
    · rw [maskSection, helement, hname, beq_self_eq_true, Bool.and_true, if_pos rfl]
      exact filter_map_of_eq isElement_maskField node.children
    · cases node with
      | element name children => exact absurd rfl helement
      | text text => rfl
      | comment text => rfl
  · rw [if_neg hname, maskSection_of_ne hname]

theorem sections_mask : sections (maskCommandLines document) =
    (sections document).map maskSection :=
  filter_map_of_eq isElement_maskSection document.rootChildren

theorem findSection_mask : findSection name (maskCommandLines document) =
    (findSection name document).map maskSection := by
  unfold findSection
  rw [sections_mask]
  exact find_map_of_eq (fun x => congrArg (· == name) (name_maskSection x)) (sections document)

theorem findSection_mask_of_ne (h : name ≠ "RuntimeProperties") :
    findSection name (maskCommandLines document) = findSection name document := by
  rw [findSection_mask]
  cases hfind : findSection name document with
  | none => rfl
  | some node =>
    have hnode := List.find?_some (p := fun x : XmlNode => x.name == name) hfind
    rw [Option.map_some, maskSection_of_ne (beq_iff_eq.mp hnode ▸ h)]

/-- Every field but a command line is found as it was. -/
theorem field_maskSection (h : name ≠ "CommandLine") (node : XmlNode) :
    (maskSection node).field name = node.field name := by
  unfold XmlNode.field
  rw [fields_maskSection]
  split_ifs with hruntime
  · have hname : ∀ field, ((maskField field).name == name) = (field.name == name) :=
      fun field => congrArg (· == name) (name_maskField field)
    rw [find_map_of_eq hname]
    cases hfield : node.fields.find? (·.name == name) with
    | none => rfl
    | some field =>
      have hfound := List.find?_some (p := fun x : XmlNode => x.name == name) hfield
      rw [Option.map_some, maskField_of_ne (beq_iff_eq.mp hfound ▸ h)]
  · rfl

theorem bind_field_mask (h : name ≠ "CommandLine") (parent : Option XmlNode) :
    (parent.map maskSection).bind (XmlNode.field name) = parent.bind (XmlNode.field name) := by
  cases parent with
  | none => rfl
  | some node => exact field_maskSection h node

theorem fieldText_mask (h : name ≠ "CommandLine") (parent : Option XmlNode) :
    fieldText (parent.map maskSection) name = fieldText parent name := by
  rw [fieldText, fieldText, bind_field_mask h]

theorem fieldValue_mask (h : name ≠ "CommandLine") (parent : Option XmlNode) :
    fieldValue (parent.map maskSection) name = fieldValue parent name := by
  rw [fieldValue, fieldValue, bind_field_mask h]

theorem firstFieldValue_mask {names : List String} (h : "CommandLine" ∉ names)
    (parent : Option XmlNode) :
    firstFieldValue (parent.map maskSection) names = firstFieldValue parent names := by
  unfold firstFieldValue
  induction names with
  | nil => rfl
  | cons name rest ih =>
    obtain ⟨hname, hrest⟩ := not_or.mp (mt List.mem_cons.mpr h)
    rw [List.findSome?_cons, List.findSome?_cons, fieldValue_mask (Ne.symm hname), ih hrest]

theorem extractThreads_mask (parent : Option XmlNode) :
    extractThreads (parent.map maskSection) = extractThreads parent := by
  unfold extractThreads
  rw [bind_field_mask (by decide)]

/-- No command line has a name that begins as those of the metadata do. -/
theorem runtimeMetadata_mask (parent : Option XmlNode) :
    runtimeMetadata (parent.map maskSection) = runtimeMetadata parent := by
  cases parent with
  | none => rfl
  | some node =>
    rw [Option.map_some]
    unfold runtimeMetadata
    dsimp only
    rw [fields_maskSection]
    split_ifs with hruntime
    · rw [filter_map_of_eq fun x => by rw [name_maskField], List.map_map]
      refine List.map_congr_left fun field hfield => ?_
      have hprefix := (List.mem_filter.mp hfield).2
      have hname : field.name ≠ "CommandLine" := by
        intro h
        rw [h] at hprefix
        revert hprefix
        decide
      rw [Function.comp_apply, maskField_of_ne hname]
    · rfl

theorem isKnownField_commandLine : isKnownField "RuntimeProperties" "CommandLine" = true := by
  decide

end mask

/-! ## Unknown fields -/

/-- The fields that `is_known_field` rejects, in their order. -/
def unknownEntries (document : XmlDocument) : List (String × String × String) :=
  (sections document).flatMap fun parent =>
    (parent.fields.filter fun field => !isKnownField parent.name field.name).map fun field =>
      (parent.name, field.name, field.value.getD "")

/-- The values of all fields of all sections of a name that `is_known_field` rejects. -/
def unknownValues (document : XmlDocument) (sectionName fieldName : String) : List String :=
  ((((sections document).filter (·.name == sectionName)).flatMap XmlNode.fields).filter
    fun field => field.name == fieldName && !isKnownField sectionName field.name).map
      fun field => field.value.getD ""

section unknown
variable {document : XmlDocument}

theorem extractUnknownFields_eq (document : XmlDocument) :
    extractUnknownFields document = collect (unknownEntries document) := by
  unfold extractUnknownFields collect unknownEntries
  rw [List.foldl_flatMap]
  congr 1
  funext unknown parent
  rw [List.foldl_map, List.foldl_filter]
  congr 1
  funext unknown field
  unfold addUnknownField
  by_cases hknown : isKnownField parent.name field.name
  · rw [if_pos hknown, hknown, Bool.not_true, if_neg Bool.false_ne_true]
  · rw [if_neg hknown, Bool.eq_false_iff.mpr hknown, Bool.not_false, if_pos rfl]
    rfl

theorem valuesAt_unknownEntries (sectionName fieldName : String) :
    valuesAt (unknownEntries document) sectionName fieldName =
      unknownValues document sectionName fieldName := by
  unfold valuesAt unknownEntries unknownValues
  induction sections document with
  | nil => rfl
  | cons parent rest ih =>
    rw [List.flatMap_cons, List.filter_append, List.map_append, ih, List.filter_cons]
    by_cases hname : parent.name = sectionName
    · rw [if_pos (beq_iff_eq.mpr hname), List.flatMap_cons, List.filter_append, List.map_append,
        List.filter_map, List.map_map, List.filter_filter, hname]
      congr 2
      refine List.filter_congr fun field _ => ?_
      simp only [Function.comp_apply, true_and]
      rfl
    · rw [if_neg (mt beq_iff_eq.mp hname)]
      have hnil : ((parent.fields.filter fun field => !isKnownField parent.name field.name).map
          fun field => (parent.name, field.name, field.value.getD "")).filter
            (fun e => e.1 = sectionName ∧ e.2.1 = fieldName) = [] := by
        refine List.filter_eq_nil_iff.mpr fun e he h => hname ?_
        obtain ⟨field, -, rfl⟩ := List.mem_map.mp he
        exact (of_decide_eq_true h).1
      rw [hnil, List.map_nil, List.nil_append]

theorem unknownFields_hold (document : XmlDocument) (includeCommandLine : Bool) :
    Holds (extract document includeCommandLine).unknownFields (unknownValues document) := by
  have htrans : ∀ a b c : String, a < b → b < c → a < c := fun _ _ _ => String.lt_trans
  have htotal : ∀ a b : String, a ≠ b → ¬a < b → b < a := by
    intro a b hne hab
    by_contra hba
    exact hne (String.le_antisymm (String.not_lt.mp hba) (String.not_lt.mp hab))
  have h := holds_collect htrans htotal htrans htotal (unknownEntries document)
  rw [← extractUnknownFields_eq] at h
  have hvalues : valuesAt (unknownEntries document) = unknownValues document := by
    funext sectionName fieldName
    exact valuesAt_unknownEntries sectionName fieldName
  exact hvalues ▸ h

/-- The command lines are known fields. -/
theorem unknownEntries_mask (document : XmlDocument) :
    unknownEntries (maskCommandLines document) = unknownEntries document := by
  unfold unknownEntries
  rw [sections_mask, List.flatMap_map]
  congr 1
  funext parent
  rw [name_maskSection, fields_maskSection]
  split_ifs with hruntime
  · rw [filter_map_of_eq fun x => by rw [name_maskField], List.map_map]
    refine List.map_congr_left fun field hfield => ?_
    have hunknown := (List.mem_filter.mp hfield).2
    have hname : field.name ≠ "CommandLine" := by
      intro h
      rw [hruntime, h, isKnownField_commandLine] at hunknown
      cases hunknown
    rw [Function.comp_apply, maskField_of_ne hname]
  · rfl

end unknown

/-! ## Outputs -/

theorem extract_mask (document : XmlDocument) :
    extract (maskCommandLines document) false = extract document false := by
  have hplatform := @findSection_mask_of_ne document "PlatformProperties" (by decide)
  have hgame := @findSection_mask_of_ne document "GameData" (by decide)
  have hruntime := @findSection_mask document "RuntimeProperties"
  unfold extract
  dsimp only
  rw [hplatform, hgame, hruntime, extractUnknownFields_eq, unknownEntries_mask,
    ← extractUnknownFields_eq, extractThreads_mask, runtimeMetadata_mask,
    firstFieldValue_mask (by decide), firstFieldValue_mask (by decide),
    fieldText_mask (by decide), if_neg Bool.false_ne_true, if_neg Bool.false_ne_true,
    fieldValue_mask (by decide), fieldValue_mask (by decide), fieldValue_mask (by decide),
    fieldValue_mask (by decide), fieldValue_mask (by decide), fieldValue_mask (by decide),
    fieldValue_mask (by decide)]

theorem classification_mask (document : XmlDocument) :
    classification (maskCommandLines document) = classification document := by
  unfold classification
  rw [findSection_mask]
  dsimp only
  rw [fieldText_mask (by decide), fieldText_mask (by decide), fieldText_mask (by decide)]

/-- Two documents that are the same but for their command lines give the same outputs, and the
unknown fields are those that the parser does not know. -/
theorem commandLines_unread {d d' : XmlDocument} (h : maskCommandLines d = maskCommandLines d') :
    (extract d false = extract d' false ∧ classification d = classification d') ∧
      ∀ (document : XmlDocument) (includeCommandLine : Bool),
        Holds (extract document includeCommandLine).unknownFields (unknownValues document) := by
  refine ⟨⟨?_, ?_⟩, unknownFields_hold⟩
  · rw [← extract_mask d, h, extract_mask d']
  · rw [← classification_mask d, h, classification_mask d']

/-- Two sections with a command line each, and a field that is not known. -/
def startedWith (first second : String) : XmlDocument where
  rootName := crashContextRoot
  rootChildren :=
    [.element "RuntimeProperties"
      [.element "CrashType" [.text "Crash"], .element "CommandLine" [.text first]],
    .element "RuntimeProperties"
      [.element "CommandLine" [.text second], .element "ProcessId" [.text "7"]]]
  rootPosition := (1, 1)

theorem commandLines_unread_startedWith :
    (extract (startedWith "-token=a" "-x") false = extract (startedWith "-token=b" "-y") false ∧
      classification (startedWith "-token=a" "-x") =
        classification (startedWith "-token=b" "-y")) ∧
      ∀ (document : XmlDocument) (includeCommandLine : Bool),
        Holds (extract document includeCommandLine).unknownFields (unknownValues document) :=
  commandLines_unread rfl

example : (extract (startedWith "-token=a" "-x") true).commandLine = some "-token=a" ∧
    unknownValues (startedWith "-token=a" "-x") "RuntimeProperties" "ProcessId" = ["7"] := by
  decide

end FaultLane.CommandLines
