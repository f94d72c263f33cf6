import FaultLane.JsonLeaves
import FaultLane.Redaction

set_option autoImplicit false

/-!
# What redaction reaches

The paths of a result whose texts are redacted. Every other text stays as it is, and so
does the name of every member.
-/
namespace FaultLane.RedactionPaths
open Fallible RustText SortedMap Json JsonLeaves Redaction

section Updates
variable {edit : Text → Text}

theorem edits_field (key : String) {targets : List Target} {f : Json → Json}
    (hf : Edits edit targets f) :
    Edits edit (targets.map (Target.under (.member key))) (field key f) := by
  intro value
  cases value with
  | object members =>
    simp only [field, leaves, leavesOfFields_eq, List.flatMap_map, List.map_flatMap]
    refine List.flatMap_congr fun e _ => ?_
    by_cases hkey : e.1 = key
    · rw [if_pos hkey, ← hkey, hf, map_editLeaf_under]
    · have hother : Step.member key ≠ .member e.1 := fun h => hkey (Step.member.inj h).symm
      rw [if_neg hkey, map_editLeaf_other hother]
  | array values =>
    simp only [field, leaves, leavesOfValues_eq, List.map_flatMap]
    refine List.flatMap_congr fun v _ => ?_
    rw [map_editLeaf_other (by simp)]
  | string text => simp [field, leaves, editLeaf, covers_under_nil]
  | _ => rfl

theorem edits_elements {targets : List Target} {f : Json → Json} (hf : Edits edit targets f) :
    Edits edit (targets.map (Target.under .element)) (elements f) := by
  intro value
  cases value with
  | array values =>
    simp only [elements, leaves, leavesOfValues_eq, List.flatMap_map, List.map_flatMap]
    refine List.flatMap_congr fun v _ => ?_
    rw [hf, map_editLeaf_under]
  | object members =>
    simp only [elements, leaves, leavesOfFields_eq, List.map_flatMap]
    refine List.flatMap_congr fun e _ => ?_
    rw [map_editLeaf_other (by simp)]
  | string text => simp [elements, leaves, editLeaf, covers_under_nil]
  | _ => rfl

theorem edits_fields_cons (key : String) {targets others : List Target} {f : Json → Json}
    {updates : List (String × (Json → Json))} (hf : Edits edit targets f)
    (hrest : Edits edit others (fields updates))
    (h : Apart (targets.map (Target.under (.member key))) others) :
    Edits edit (targets.map (Target.under (.member key)) ++ others)
      (fields ((key, f) :: updates)) := by
  intro value
  change leaves (fields updates (field key f value)) = _
  exact Edits.comp (edits_field key hf) hrest h value

theorem edits_fields_append {targets others : List Target}
    {updates later : List (String × (Json → Json))} (hfirst : Edits edit targets (fields updates))
    (hrest : Edits edit others (fields later)) (h : Apart targets others) :
    Edits edit (targets ++ others) (fields (updates ++ later)) := by
  intro value
  rw [fields, List.foldl_append]
  exact Edits.comp hfirst hrest h value

end Updates

section Targets

/-- The texts of the members with these names. -/
def valueTargets (names : List String) : List Target :=
  names.map fun name => ⟨[.member name], false⟩

def arrayFieldTargets (names : List String) : List Target :=
  (valueTargets names).map (Target.under .element)

def contextTargets : List Target :=
  valueTargets ["error_message", "build_version", "engine_version", "architecture",
    "build_configuration", "command_line", "user_comment"] ++
  ((valueTargets ["original", "normalized"]).map (Target.under (.member "platform")) ++
  ((arrayFieldTargets ["original"]).map (Target.under (.member "modules")) ++
  ((arrayFieldTargets ["call_stack", "registers", "thread_name"]).map
    (Target.under (.member "threads")) ++
  ((arrayFieldTargets ["value"]).map (Target.under (.member "system_metadata")) ++
  ((arrayFieldTargets ["value"]).map (Target.under (.member "game_data")) ++
  [⟨[.member "unknown_fields"], true⟩])))))

def logTargets : List Target :=
  valueTargets ["name"] ++ (valueTargets ["text"]).map (Target.under (.member "tail"))

def frameTargets : List Target :=
  valueTargets ["source_file"] ++
    (arrayFieldTargets ["source_file"]).map (Target.under (.member "inlines"))

def attemptTargets : List Target :=
  ((((frameTargets.map (Target.under .element)).map (Target.under (.member "frames"))).map
    (Target.under .element)).map (Target.under (.member "threads"))).map
      (Target.under (.member "symbolication"))

/-- Where a result is redacted. -/
def redactionTargets : List Target :=
  contextTargets.map (Target.under (.member "crash_context")) ++
    (logTargets.map (Target.under (.member "log")) ++
    attemptTargets.map (Target.under (.member "current")))

variable (patterns : List Text)

theorem edits_redactValue : Edits (redactText patterns) [⟨[], false⟩] (redactValue patterns) := by
  intro value
  cases value with
  | string text => simp [redactValue, leaves, editLeaf, covers, Target.covers]
  | array values =>
    simp only [redactValue, leaves, leavesOfValues_eq, List.map_flatMap, List.map_map]
    refine List.flatMap_congr fun v _ => List.map_congr_left fun leaf _ => ?_
    simp [editLeaf, covers, Target.covers, Leaf.under]
  | object members =>
    simp only [redactValue, leaves, leavesOfFields_eq, List.map_flatMap, List.map_map]
    refine List.flatMap_congr fun e _ => List.map_congr_left fun leaf _ => ?_
    simp [editLeaf, covers, Target.covers, Leaf.under]
  | _ => rfl

/-- Everything below is redacted. -/
def redactLeaf (leaf : Leaf) : Leaf := (leaf.1, redactText patterns leaf.2)

theorem map_redactLeaf_under (step : Step) (found : List Leaf) :
    (found.map (redactLeaf patterns)).map (Leaf.under step) =
      (found.map (Leaf.under step)).map (redactLeaf patterns) := by
  rw [List.map_map, List.map_map]
  rfl

mutual

theorem leaves_redactRecursive : ∀ value : Json,
    leaves (redactRecursive patterns value) = (leaves value).map (redactLeaf patterns)
  | .null => rfl
  | .bool _ => rfl
  | .number _ => rfl
  | .string text => by simp [redactRecursive, leaves, redactLeaf]
  | .array values => leavesOfValues_redactRecursive values
  | .object members => leavesOfFields_redactRecursive members

theorem leavesOfValues_redactRecursive : ∀ values : List Json,
    leavesOfValues (redactRecursiveValues patterns values) =
      (leavesOfValues values).map (redactLeaf patterns)
  | [] => rfl
  | value :: values => by
    rw [redactRecursiveValues, leavesOfValues, leavesOfValues, leaves_redactRecursive value,
      leavesOfValues_redactRecursive values, List.map_append, map_redactLeaf_under]

theorem leavesOfFields_redactRecursive : ∀ members : List (String × Json),
    leavesOfFields (redactRecursiveFields patterns members) =
      (leavesOfFields members).map (redactLeaf patterns)
  | [] => rfl
  | (key, value) :: members => by
    rw [redactRecursiveFields, leavesOfFields, leavesOfFields, leaves_redactRecursive value,
      leavesOfFields_redactRecursive members, List.map_append, map_redactLeaf_under]

end

mutual

theorem memberNames_redactRecursive : ∀ value : Json,
    memberNames (redactRecursive patterns value) = memberNames value
  | .null => rfl
  | .bool _ => rfl
  | .number _ => rfl
  | .string _ => rfl
  | .array values => memberNamesOfValues_redactRecursive values
  | .object members => memberNamesOfFields_redactRecursive members

theorem memberNamesOfValues_redactRecursive : ∀ values : List Json,
    memberNamesOfValues (redactRecursiveValues patterns values) = memberNamesOfValues values
  | [] => rfl
  | value :: values => by
    rw [redactRecursiveValues, memberNamesOfValues, memberNamesOfValues,
      memberNames_redactRecursive value, memberNamesOfValues_redactRecursive values]

theorem memberNamesOfFields_redactRecursive : ∀ members : List (String × Json),
    memberNamesOfFields (redactRecursiveFields patterns members) = memberNamesOfFields members
  | [] => rfl
  | (key, value) :: members => by
    rw [redactRecursiveFields, memberNamesOfFields, memberNamesOfFields,
      memberNames_redactRecursive value, memberNamesOfFields_redactRecursive members]

end

theorem edits_redactRecursive :
    Edits (redactText patterns) [⟨[], true⟩] (redactRecursive patterns) := by
  intro value
  rw [leaves_redactRecursive]
  exact List.map_congr_left fun leaf _ => by simp [redactLeaf, editLeaf, covers, Target.covers]

theorem edits_values (names : List String) (h : names.Nodup) :
    Edits (redactText patterns) (valueTargets names)
      (fields (names.map fun name => (name, redactValue patterns))) := by
  induction names with
  | nil => exact Edits.id
  | cons name names ih =>
    rw [List.nodup_cons] at h
    refine edits_fields_cons name (edits_redactValue patterns) (ih h.2) ?_
    intro t ht u hu
    obtain ⟨_, -, rfl⟩ := List.mem_map.mp ht
    obtain ⟨other, hother, rfl⟩ := List.mem_map.mp hu
    have hne : name ≠ other := fun heq => h.1 (heq ▸ hother)
    simp [Target.under, partsFrom, hne]

theorem edits_arrayFields (names : List String) (h : names.Nodup) :
    Edits (redactText patterns) (arrayFieldTargets names) (redactArrayFields patterns names) :=
  edits_elements (edits_values patterns names h)

theorem edits_contextUpdates :
    Edits (redactText patterns) contextTargets (fields (contextUpdates patterns)) := by
  have hplatform := edits_values patterns ["original", "normalized"] (by decide)
  have hmodules := edits_arrayFields patterns ["original"] (by decide)
  have hthreads := edits_arrayFields patterns ["call_stack", "registers", "thread_name"]
    (by decide)
  have hproperties := edits_arrayFields patterns ["value"] (by decide)
  have hunknown : Edits (redactText patterns) [⟨[.member "unknown_fields"], true⟩]
      (fields [("unknown_fields", redactRecursive patterns)]) :=
    edits_field "unknown_fields" (edits_redactRecursive patterns)
  have hgame := edits_fields_cons "game_data" hproperties hunknown (by decide)
  have hsystem := edits_fields_cons "system_metadata" hproperties hgame
    (by decide)
  have hrest := edits_fields_cons "platform" hplatform
    (edits_fields_cons "modules" hmodules
      (edits_fields_cons "threads" hthreads hsystem (by decide))
      (by decide)) (by decide)
  exact edits_fields_append (edits_values patterns _ (by decide)) hrest (by decide)

theorem edits_redactFrame :
    Edits (redactText patterns) frameTargets (redactFrame patterns) := by
  have hinlines : Edits (redactText patterns)
      ((arrayFieldTargets ["source_file"]).map (Target.under (.member "inlines")))
      (fields [("inlines", elements (field "source_file" (redactValue patterns)))]) :=
    edits_field "inlines" (edits_elements (edits_field "source_file" (edits_redactValue patterns)))
  exact edits_fields_cons "source_file" (edits_redactValue patterns) hinlines (by decide)

theorem edits_resultUpdates :
    Edits (redactText patterns) redactionTargets (fields (resultUpdates patterns)) := by
  have hcurrent : Edits (redactText patterns)
      (attemptTargets.map (Target.under (.member "current")))
      (fields [("current", field "symbolication" <| field "threads" <| elements <|
        field "frames" <| elements <| redactFrame patterns)]) :=
    edits_field "current" <| edits_field "symbolication" <| edits_field "threads" <|
      edits_elements <| edits_field "frames" <| edits_elements <| edits_redactFrame patterns
  have hlog : Edits (redactText patterns) logTargets
      (fun log => field "tail" (field "text" (redactValue patterns))
        (field "name" (redactValue patterns) log)) :=
    Edits.comp (edits_field "name" (edits_redactValue patterns))
      (edits_field "tail" (edits_field "text" (edits_redactValue patterns))) (by decide)
  exact edits_fields_cons "crash_context" (edits_contextUpdates patterns)
    (edits_fields_cons "log" hlog hcurrent (by decide)) (by decide)

/-- The texts of a result after redaction. -/
theorem leaves_redactAndIndex (rules : DataRules) (result : Json) :
    leaves (redactAndIndex rules result).1 =
      (leaves result).map (editLeaf (redactText rules.patterns) redactionTargets) := by
  rw [redactAndIndex]
  by_cases hempty : rules.patterns.isEmpty = true
  · have hsame : ∀ leaf : Leaf,
        editLeaf (redactText rules.patterns) redactionTargets leaf = leaf := by
      intro leaf
      rw [List.isEmpty_iff.mp hempty, editLeaf]
      exact ite_self leaf
    rw [if_pos hempty, List.map_id'' hsame]
  · rw [if_neg hempty, redact_eq_fields]
    exact edits_resultUpdates rules.patterns result

end Targets

end FaultLane.RedactionPaths
