import FaultLane.ProcessingContract
import FaultLane.RedactionPaths
import FaultLane.SearchDocument

set_option autoImplicit false

/-!
# Redacted text in what is published

Which texts of a result, its facets and its search document can still hold a pattern
after redaction.
-/
namespace FaultLane.PublishedText
open Fallible RustText SortedMap Json JsonLeaves Redaction RedactionPaths SearchDocument
open Replacement ProcessingContract

def Free (patterns : List Text) (text : Text) : Prop := ∀ p ∈ patterns, ¬ p <:+: text

instance (patterns : List Text) (text : Text) : Decidable (Free patterns text) :=
  inferInstanceAs (Decidable (∀ p ∈ patterns, ¬ p <:+: text))

/-- An end of one is a beginning of the other. -/
def SharesBorder (marker word : Text) : Prop :=
  (∃ b ∈ word.tails, b ≠ [] ∧ b <+: marker) ∨ ∃ a ∈ word.inits, a ≠ [] ∧ a <:+ marker

instance (marker word : Text) : Decidable (SharesBorder marker word) :=
  inferInstanceAs (Decidable (_ ∨ _))

section Published

/-- A text of the report's context. The identity and the class of the crash are no text of it. -/
def isContextText : Path → Bool
  | .member root :: .member name :: _ =>
    root == "crash_context" && name != "crash_guid" && name != "crash_type"
  | _ => false

/-- The rest of a path that leads into an attempt, the current one or one of the history. -/
def attemptPath : Path → Option Path
  | .member root :: rest =>
    if root = "current" then some rest
    else if root = "history" then
      match rest with
      | .element :: rest => some rest
      | _ => none
    else none
  | _ => none

def framesPath : Path :=
  [.member "symbolication", .member "threads", .element, .member "frames", .element]

/-- The source files and the assertion of an attempt. -/
def attemptTextPaths : List Path :=
  [framesPath ++ [.member "source_file"],
    framesPath ++ [.member "inlines", .element, .member "source_file"],
    [.member "symbolication", .member "assertion"]]

def isPublished (path : Path) : Bool :=
  isContextText path || (attemptPath path).any attemptTextPaths.contains

/-- The names of the fields the parser does not know, and of their sections. -/
def unknownNames (result : Json) : List Text :=
  ((result.pointer ["crash_context", "unknown_fields"]).map memberNames).getD []

/-- No pattern is left in what is published. -/
structure Gone (patterns : List Text) (result : Json) (facets : List ContextFacet) : Prop where
  texts : ∀ leaf ∈ leaves result, isPublished leaf.1 = true → Free patterns leaf.2
  fieldNames : ∀ name ∈ unknownNames result, Free patterns name
  indexed : ∀ facet ∈ facets, Free patterns facet.key ∧ Free patterns facet.value
  search : Free patterns (eventSearchText result facets)

/-- The modules and functions that the search document names. -/
def symbolNames (result : Json) : List Text :=
  present (moduleNames result ++ functionNames result)

/-- What the messages leave of the search document. -/
def nameRoom (patterns : List Text) (result : Json) : Nat :=
  roomAfter (maxSearchDocumentChars + 1)
    (present ((messages result).map (Option.map (redactText patterns))))

/-- The texts that redaction does not visit hold no pattern, and it makes none where it does. -/
structure Spared (patterns : List Text) (result : Json) : Prop where
  texts : ∀ leaf ∈ leaves result, isPublished leaf.1 = true →
    covers redactionTargets leaf.1 = false → Free patterns leaf.2
  markers : ∀ leaf ∈ leaves result, isPublished leaf.1 = true →
    covers redactionTargets leaf.1 = true →
      ∀ p ∈ patterns, redacted <:+: p → ¬ p <:+: redactText patterns leaf.2
  fieldNames : ∀ name ∈ unknownNames result, Free patterns name
  names : ∀ name ∈ fit (nameRoom patterns result) (symbolNames result), Free patterns name

end Published

section Members

theorem pointer_cons (key : String) (path : List String) (value : Json) :
    value.pointer (key :: path) = (value.get key).bind (pointer path) := by
  cases hget : value.get key with
  | some found =>
    rw [pointer, List.foldl_cons, Option.bind_some, hget]
    rfl
  | none =>
    rw [pointer, List.foldl_cons, Option.bind_some, hget, Option.bind_none]
    induction path with
    | nil => rfl
    | cons next path ih => exact ih

theorem get_field (key : String) (f : Json → Json) (value : Json) :
    (field key f value).get key = (value.get key).map f := by
  cases value with
  | object members =>
    change SortedMap.get key (members.map _) = (SortedMap.get key members).map f
    induction members with
    | nil => rfl
    | cons e members ih =>
      by_cases h : e.1 = key
      · rw [List.map_cons, if_pos h, SortedMap.get_cons, SortedMap.get_cons, if_pos h, if_pos h]
        rfl
      · rw [List.map_cons, if_neg h, SortedMap.get_cons, SortedMap.get_cons, if_neg h, if_neg h,
          ih]
  | _ => rfl

theorem get_field_other {key other : String} (h : key ≠ other) (f : Json → Json) (value : Json) :
    (field other f value).get key = value.get key := by
  cases value with
  | object members =>
    change SortedMap.get key (members.map _) = SortedMap.get key members
    induction members with
    | nil => rfl
    | cons e members ih =>
      by_cases hkey : e.1 = other
      · rw [List.map_cons, if_pos hkey, SortedMap.get_cons, SortedMap.get_cons, hkey,
          if_neg h.symm, if_neg h.symm, ih]
      · rw [List.map_cons, if_neg hkey, SortedMap.get_cons, SortedMap.get_cons, ih]
  | _ => rfl

theorem get_fields_other {key : String} {updates : List (String × (Json → Json))}
    (h : key ∉ updates.map Prod.fst) (value : Json) :
    (fields updates value).get key = value.get key := by
  induction updates generalizing value with
  | nil => rfl
  | cons u updates ih =>
    rw [List.map_cons, List.mem_cons, not_or] at h
    change (fields updates (field u.1 u.2 value)).get key = _
    rw [ih h.2, get_field_other h.1]

/-- A member that is updated once takes its update. -/
theorem get_fields {key : String} {f : Json → Json} {updates : List (String × (Json → Json))}
    (hkeys : (updates.map Prod.fst).Nodup) (h : (key, f) ∈ updates) (value : Json) :
    (fields updates value).get key = (value.get key).map f := by
  induction updates generalizing value with
  | nil => cases h
  | cons u updates ih =>
    rw [List.map_cons, List.nodup_cons] at hkeys
    change (fields updates (field u.1 u.2 value)).get key = _
    rcases List.mem_cons.mp h with rfl | hmem
    · rw [get_fields_other hkeys.1, get_field]
    · have hne : key ≠ u.1 := fun heq => hkeys.1 (heq ▸ List.mem_map_of_mem hmem)
      rw [ih hkeys.2 hmem, get_field_other hne]

theorem asArray_elements (f : Json → Json) (value : Json) :
    (elements f value).asArray = value.asArray.map (List.map f) := by
  cases value <;> rfl

theorem asStr_redactValue (patterns : List Text) (value : Json) :
    (redactValue patterns value).asStr.map String.toList =
      (value.asStr.map String.toList).map (redactText patterns) := by
  cases value with
  | string text =>
    change some (String.ofList (redactText patterns text.toList)).toList = _
    rw [String.toList_ofList]
    rfl
  | _ => rfl

end Members

section Projections
variable (patterns : List Text) (result : Json)

/-- The result as redaction leaves it. -/
def redactedResult : Json := fields (resultUpdates patterns) result

theorem redactAndIndex_fst (rules : DataRules) :
    (redactAndIndex rules result).1 = redactedResult rules.patterns result ∨
      rules.patterns = [] ∧ (redactAndIndex rules result).1 = result := by
  by_cases hempty : rules.patterns.isEmpty = true
  · exact .inr ⟨List.isEmpty_iff.mp hempty, by rw [redactAndIndex, if_pos hempty]⟩
  · exact .inl (by rw [redactAndIndex, if_neg hempty, redact_eq_fields]; rfl)

theorem get_context : (redactedResult patterns result).get "crash_context" =
    (result.get "crash_context").map (fields (contextUpdates patterns)) :=
  get_fields (by simp [resultUpdates]) (by simp [resultUpdates]) result

theorem get_contextMember {name : String} {f : Json → Json}
    (h : (name, f) ∈ contextUpdates patterns) (context : Json) :
    (fields (contextUpdates patterns) context).get name = (context.get name).map f :=
  get_fields (by simp [contextUpdates]) h context

theorem textAt_contextMember {name : String}
    (h : (name, redactValue patterns) ∈ contextUpdates patterns) :
    textAt ["crash_context", name] (redactedResult patterns result) =
      (textAt ["crash_context", name] result).map (redactText patterns) := by
  simp only [textAt, pointer_cons, get_context]
  cases result.get "crash_context" with
  | none => rfl
  | some context =>
    simp only [Option.map_some, Option.bind_some, get_contextMember patterns h]
    cases context.get name with
    | none => rfl
    | some value => exact asStr_redactValue patterns value

theorem messages_redactedResult : messages (redactedResult patterns result) =
    (messages result).map (Option.map (redactText patterns)) := by
  rw [messages, textAt_contextMember _ _ (by simp [contextUpdates]),
    textAt_contextMember _ _ (by simp [contextUpdates])]
  rfl

theorem unknownNames_redactedResult :
    unknownNames (redactedResult patterns result) = unknownNames result := by
  simp only [unknownNames, pointer_cons, get_context]
  cases result.get "crash_context" with
  | none => rfl
  | some context =>
    have hmember : ("unknown_fields", redactRecursive patterns) ∈ contextUpdates patterns := by
      simp [contextUpdates]
    simp only [Option.map_some, Option.bind_some, get_contextMember patterns hmember]
    cases context.get "unknown_fields" with
    | none => rfl
    | some value =>
      change (some (memberNames (redactRecursive patterns value))).getD [] = _
      rw [memberNames_redactRecursive]
      rfl

def redactThreads : Json → Json :=
  field "threads" <| elements <| field "frames" <| elements <| redactFrame patterns

theorem pointer_symbolication : (redactedResult patterns result).pointer
    ["current", "symbolication"] =
      (result.pointer ["current", "symbolication"]).map (redactThreads patterns) := by
  have hcurrent : (redactedResult patterns result).get "current" =
      (result.get "current").map (field "symbolication" (redactThreads patterns)) :=
    get_fields (by simp [resultUpdates]) (by simp [resultUpdates, redactThreads]) result
  simp only [pointer_cons, hcurrent]
  cases result.get "current" with
  | none => rfl
  | some current =>
    simp only [Option.map_some, Option.bind_some, get_field]
    cases current.get "symbolication" <;> rfl

theorem elementsAt_append (path : List String) (key : String) (value : Json) :
    elementsAt (path ++ [key]) value =
      ((value.pointer path).map (elementsAt [key])).getD [] := by
  have hpointer : value.pointer (path ++ [key]) = (value.pointer path).bind (get key) := by
    simp [pointer]
  rw [elementsAt, hpointer]
  cases value.pointer path <;> rfl

theorem elementsAt_field (key : String) (f : Json → Json) (value : Json) :
    elementsAt [key] (field key (elements f) value) = (elementsAt [key] value).map f := by
  change (((field key (elements f) value).get key).bind asArray).getD [] = _
  rw [get_field]
  change _ = (((value.get key).bind asArray).getD []).map f
  cases value.get key with
  | none => rfl
  | some found =>
    rw [Option.map_some, Option.bind_some, Option.bind_some, asArray_elements]
    cases found.asArray <;> rfl

theorem textAt_field_other {key other : String} (h : key ≠ other) (f : Json → Json)
    (value : Json) : textAt [key] (field other f value) = textAt [key] value := by
  change ((get key (field other f value)).bind asStr).map _ = _
  rw [get_field_other h]
  rfl

theorem elementsAt_field_other {key other : String} (h : key ≠ other) (f : Json → Json)
    (value : Json) : elementsAt [key] (field other f value) = elementsAt [key] value := by
  change ((get key (field other f value)).bind asArray).getD [] = _
  rw [get_field_other h]
  rfl

theorem frameNames_redactFrame (frame : Json) :
    frameNames (redactFrame patterns frame) = frameNames frame := by
  have hframe : redactFrame patterns frame =
      field "inlines" (elements (field "source_file" (redactValue patterns)))
        (field "source_file" (redactValue patterns) frame) := rfl
  rw [frameNames, hframe, textAt_field_other (by decide), textAt_field_other (by decide),
    elementsAt_field, elementsAt_field_other (by decide), List.map_map, frameNames]
  refine congrArg _ (List.map_congr_left fun inline _ => ?_)
  exact textAt_field_other (by decide) _ inline

theorem moduleNames_redactedResult :
    moduleNames (redactedResult patterns result) = moduleNames result := by
  have hpath : ["current", "symbolication", "modules"] =
      ["current", "symbolication"] ++ ["modules"] := rfl
  rw [moduleNames, moduleNames, hpath, elementsAt_append, elementsAt_append,
    pointer_symbolication]
  cases result.pointer ["current", "symbolication"] with
  | none => rfl
  | some symbolication =>
    have hsame := elementsAt_field_other (by decide : "modules" ≠ "threads")
      (elements <| field "frames" <| elements <| redactFrame patterns) symbolication
    exact congrArg (List.map (textAt ["module"])) hsame

theorem functionNames_redactedResult :
    functionNames (redactedResult patterns result) = functionNames result := by
  have hpath : ["current", "symbolication", "threads"] =
      ["current", "symbolication"] ++ ["threads"] := rfl
  rw [functionNames, functionNames, hpath, elementsAt_append, elementsAt_append,
    pointer_symbolication]
  cases result.pointer ["current", "symbolication"] with
  | none => rfl
  | some symbolication =>
    have hthreads : elementsAt ["threads"] (redactThreads patterns symbolication) =
        (elementsAt ["threads"] symbolication).map
          (field "frames" <| elements <| redactFrame patterns) :=
      elementsAt_field "threads" _ symbolication
    rw [Option.map_some, Option.map_some, Option.getD_some, Option.map_some, Option.getD_some,
      hthreads, List.flatMap_map]
    refine List.flatMap_congr fun thread _ => ?_
    rw [elementsAt_field, List.flatMap_map]
    exact List.flatMap_congr fun frame _ => frameNames_redactFrame patterns frame

end Projections

section Reach
variable {patterns keys : List Text} {rules : DataRules}

theorem Free.part {text part : Text} (h : Free patterns text) (hpart : part <:+: text) :
    Free patterns part :=
  fun p hp hinside => h p hp (hinside.trans hpart)

theorem not_straddles {word : Text} (hborder : ¬ SharesBorder redacted word)
    (hmarker : ¬ redacted <:+: word) : ¬ Straddles redacted word := by
  rintro (hinside | ⟨a, b, rfl, hb, hstart⟩ | ⟨a, b, rfl, ha, hend⟩)
  · exact hmarker hinside
  · have hmem : b ∈ (a ++ b).tails := (List.mem_tails _ _).mpr (List.suffix_append a b)
    exact hborder (.inl ⟨b, hmem, hb, hstart⟩)
  · have hmem : a ∈ (a ++ b).inits := (List.mem_inits _ _).mpr (List.prefix_append a b)
    exact hborder (.inr ⟨a, hmem, ha, hend⟩)

/-- Only a pattern around the whole marker can be left in a redacted text. -/
theorem free_redactText_iff (hrules : validateRules patterns keys = .ok rules)
    (hborders : ∀ p ∈ rules.patterns, ¬ SharesBorder redacted p) (text : Text) :
    Free rules.patterns (redactText rules.patterns text) ↔
      ∀ p ∈ rules.patterns, redacted <:+: p → ¬ p <:+: redactText rules.patterns text := by
  constructor
  · exact fun hfree p hp _ => hfree p hp
  · intro h p hp
    by_cases hmarker : redacted <:+: p
    · exact h p hp hmarker
    · have hvalid := (patterns_of_validateRules hrules).2 p hp
      exact redactText_complete (not_straddles (hborders p hp) hmarker)
        (not_infix_of_valid hvalid) hp

variable (rules) (result : Json)

theorem messages_redactAndIndex : messages (redactAndIndex rules result).1 =
    (messages result).map (Option.map (redactText rules.patterns)) := by
  rcases redactAndIndex_fst result rules with h | ⟨hnil, h⟩
  · rw [h, messages_redactedResult]
  · have hid : Option.map (redactText []) = (id : Option Text → Option Text) := by
      funext value
      cases value <;> rfl
    rw [h, hnil, hid, List.map_id]

theorem unknownNames_redactAndIndex :
    unknownNames (redactAndIndex rules result).1 = unknownNames result := by
  rcases redactAndIndex_fst result rules with h | ⟨-, h⟩
  · rw [h, unknownNames_redactedResult]
  · rw [h]

theorem symbolNames_redactAndIndex :
    symbolNames (redactAndIndex rules result).1 = symbolNames result := by
  rcases redactAndIndex_fst result rules with h | ⟨-, h⟩
  · rw [h, symbolNames, moduleNames_redactedResult, functionNames_redactedResult]
    rfl
  · rw [h]

/-- The texts of the published result, before redaction and after. -/
theorem texts_redactAndIndex_iff (hrules : validateRules patterns keys = .ok rules)
    (hborders : ∀ p ∈ rules.patterns, ¬ SharesBorder redacted p) :
    (∀ leaf ∈ leaves (redactAndIndex rules result).1, isPublished leaf.1 = true →
      Free rules.patterns leaf.2) ↔
    (∀ leaf ∈ leaves result, isPublished leaf.1 = true →
      covers redactionTargets leaf.1 = false → Free rules.patterns leaf.2) ∧
    ∀ leaf ∈ leaves result, isPublished leaf.1 = true →
      covers redactionTargets leaf.1 = true → ∀ p ∈ rules.patterns, redacted <:+: p →
        ¬ p <:+: redactText rules.patterns leaf.2 := by
  rw [leaves_redactAndIndex]
  constructor
  · intro h
    constructor
    · intro leaf hleaf hpath hspared
      have hmem := List.mem_map_of_mem (f := editLeaf (redactText rules.patterns)
        redactionTargets) hleaf
      rw [editLeaf, hspared] at hmem
      exact h leaf hmem hpath
    · intro leaf hleaf hpath hvisited
      have hmem := List.mem_map_of_mem (f := editLeaf (redactText rules.patterns)
        redactionTargets) hleaf
      rw [editLeaf, if_pos hvisited] at hmem
      exact (free_redactText_iff hrules hborders leaf.2).mp (h _ hmem hpath)
  · rintro ⟨hspared, hvisited⟩ leaf hleaf hpath
    obtain ⟨before, hbefore, rfl⟩ := List.mem_map.mp hleaf
    by_cases hcovers : covers redactionTargets before.1 = true
    · rw [editLeaf, if_pos hcovers] at hpath ⊢
      exact (free_redactText_iff hrules hborders before.2).mpr
        (hvisited before hbefore hpath hcovers)
    · rw [editLeaf, if_neg hcovers] at hpath ⊢
      exact hspared before hbefore hpath (Bool.not_eq_true _ ▸ hcovers)

variable {result}

theorem mem_leaves_of_pointer {path : List String} {found : Json} {leaf : Leaf}
    (h : result.pointer path = some found) (hleaf : leaf ∈ leaves found) :
    (path.map Step.member ++ leaf.1, leaf.2) ∈ leaves result := by
  induction path generalizing result with
  | nil =>
    cases h
    exact hleaf
  | cons key path ih =>
    rw [pointer_cons, Option.bind_eq_some_iff] at h
    obtain ⟨value, hvalue, h⟩ := h
    exact mem_leaves_of_get hvalue (ih h)

theorem mem_leaves_of_textAt {path : List String} {text : Text}
    (h : textAt path result = some text) : (path.map Step.member, text) ∈ leaves result := by
  rw [textAt, Option.map_eq_some_iff] at h
  obtain ⟨string, h, rfl⟩ := h
  obtain ⟨found, hfound, hstring⟩ := Option.bind_eq_some_iff.mp h
  simpa using mem_leaves_of_pointer hfound (mem_leaves_of_asStr hstring)

theorem facetOf_eq_some {indexedKeys : List Text} {value : Json} {facet : ContextFacet}
    (h : facetOf indexedKeys value = some facet) : textAt ["name"] value = some facet.key ∧
      ∃ raw, textAt ["value"] value = some raw ∧ facet.value <+: raw := by
  obtain ⟨key, hkey, h⟩ := Option.bind_eq_some_iff.mp h
  obtain ⟨raw, hraw, h⟩ := Option.bind_eq_some_iff.mp h
  split_ifs at h
  cases h
  exact ⟨hkey, raw, hraw, List.take_prefix _ _⟩

/-- The name of an indexed property stands in the context, and its value begins one. -/
theorem mem_leaves_of_facet {facet : ContextFacet} {indexedKeys : List Text}
    (h : facet ∈ contextFacets result indexedKeys) :
    ([.member "crash_context", .member "game_data", .element, .member "name"], facet.key) ∈
        leaves result ∧
      ∃ raw, ([.member "crash_context", .member "game_data", .element, .member "value"], raw) ∈
        leaves result ∧ facet.value <+: raw := by
  rw [contextFacets] at h
  split_ifs at h
  · cases h
  · cases harray : (result.pointer ["crash_context", "game_data"]).bind asArray with
    | none =>
      rw [harray] at h
      cases h
    | some values =>
      rw [harray] at h
      obtain ⟨value, hvalue, hfacet⟩ :=
        List.mem_filterMap.mp ((SortDedup.mem_sortDedup facetKey facet _).mp h)
      obtain ⟨data, hdata, harray⟩ := Option.bind_eq_some_iff.mp harray
      obtain ⟨hkey, raw, hraw, hstart⟩ := facetOf_eq_some hfacet
      exact ⟨mem_leaves_of_pointer hdata
          (mem_leaves_of_element harray hvalue (mem_leaves_of_textAt hkey)), raw,
        mem_leaves_of_pointer hdata
          (mem_leaves_of_element harray hvalue (mem_leaves_of_textAt hraw)), hstart⟩

variable {facets : List ContextFacet}

theorem free_facets (h : ∀ leaf ∈ leaves result, isPublished leaf.1 = true →
    Free patterns leaf.2) {indexedKeys : List Text} :
    ∀ facet ∈ contextFacets result indexedKeys,
      Free patterns facet.key ∧ Free patterns facet.value := by
  intro facet hfacet
  obtain ⟨hkey, raw, hraw, hstart⟩ := mem_leaves_of_facet hfacet
  have hproperty : ∀ name ∈ ["name", "value"], isPublished
      [.member "crash_context", .member "game_data", .element, .member name] = true := by decide
  have hfree : Free patterns raw := h _ hraw (hproperty "value" (by decide))
  exact ⟨h _ hkey (hproperty "name" (by decide)), hfree.part hstart.isInfix⟩

theorem mem_present {text : Text} {values : List (Option Text)} (h : text ∈ present values) :
    some text ∈ values := by
  obtain ⟨value, hvalue, htext⟩ := List.mem_filterMap.mp h
  rw [(Option.filter_eq_some_iff.mp htext).1] at hvalue
  exact hvalue

/-- With clean messages and facets, only the names can bring a pattern into the document. -/
theorem free_eventSearchText_iff (hvalid : ∀ p ∈ patterns, invalidPattern p = false)
    (htexts : ∀ leaf ∈ leaves result, isPublished leaf.1 = true → Free patterns leaf.2)
    (hfacets : ∀ facet ∈ facets, Free patterns facet.value) :
    Free patterns (eventSearchText result facets) ↔
      ∀ name ∈ fit (roomAfter (maxSearchDocumentChars + 1) (present (messages result)))
        (symbolNames result), Free patterns name := by
  have hpieces : fit (maxSearchDocumentChars + 1) (present (searchValues result facets)) =
      fit (maxSearchDocumentChars + 1) (present (messages result)) ++
        (fit (roomAfter (maxSearchDocumentChars + 1) (present (messages result)))
          (symbolNames result) ++
        fit (roomAfter (roomAfter (maxSearchDocumentChars + 1) (present (messages result)))
          (symbolNames result)) (present (facets.map fun facet => some facet.value))) := by
    rw [← fit_append, ← fit_append, symbolNames]
    simp only [present, searchValues, List.filterMap_append, List.append_assoc]
  have hword : ∀ p ∈ patterns, p ≠ [] ∧ unitSeparator ∉ p := by
    intro p hp
    have hpattern := hvalid p hp
    simp only [invalidPattern, Bool.or_eq_false_iff] at hpattern
    refine ⟨fun hnil => ?_, fun hmem => ?_⟩
    · rw [hnil] at hpattern
      cases hpattern.1.1.1.1
    · exact absurd (List.any_eq_false.mp hpattern.2 _ hmem) (by decide)
  have hmessages : ∀ piece ∈ fit (maxSearchDocumentChars + 1) (present (messages result)),
      Free patterns piece := by
    intro piece hpiece
    obtain ⟨text, htext, hstart⟩ := prefix_of_mem_fit hpiece
    have hmem := mem_present htext
    have hmessage : ∀ name ∈ ["error_message", "user_comment"],
        isPublished (["crash_context", name].map Step.member) = true := by decide
    simp only [messages, List.mem_cons, List.not_mem_nil, or_false] at hmem
    have hfree : Free patterns text := by
      rcases hmem with herror | hcomment
      · exact htexts _ (mem_leaves_of_textAt herror.symm) (hmessage _ (by decide))
      · exact htexts _ (mem_leaves_of_textAt hcomment.symm) (hmessage _ (by decide))
    exact hfree.part hstart.isInfix
  have hindexed : ∀ room, ∀ piece ∈ fit room (present (facets.map fun facet => some facet.value)),
      Free patterns piece := by
    intro room piece hpiece
    obtain ⟨text, htext, hstart⟩ := prefix_of_mem_fit hpiece
    obtain ⟨facet, hfacet, hvalue⟩ := List.mem_map.mp (mem_present htext)
    cases hvalue
    exact (hfacets facet hfacet).part hstart.isInfix
  constructor
  · intro h name hname p hp hinside
    refine h p hp ((infix_eventSearchText_iff (hword p hp).1 (hword p hp).2 result facets).mpr ?_)
    rw [hpieces]
    exact ⟨name, List.mem_append_right _ (List.mem_append_left _ hname), hinside⟩
  · intro h p hp hinside
    obtain ⟨piece, hpiece, hinside⟩ :=
      (infix_eventSearchText_iff (hword p hp).1 (hword p hp).2 result facets).mp hinside
    rw [hpieces, List.mem_append, List.mem_append] at hpiece
    rcases hpiece with hmessage | hname | hfacet
    · exact hmessages piece hmessage p hp hinside
    · exact h piece hname p hp hinside
    · exact hindexed _ piece hfacet p hp hinside

end Reach

/-- Nothing published holds a pattern just when the texts redaction does not visit hold none. -/
theorem gone_iff_spared (patterns keys : List Text) (rules : DataRules)
    (hrules : validateRules patterns keys = .ok rules)
    (hborders : ∀ p ∈ rules.patterns, ¬ SharesBorder redacted p) (result : Json) :
    Gone rules.patterns (redactAndIndex rules result).1 (redactAndIndex rules result).2 ↔
      Spared rules.patterns result := by
  have htexts := texts_redactAndIndex_iff rules result hrules hborders
  have hvalid := (patterns_of_validateRules hrules).2
  have hnames := unknownNames_redactAndIndex rules result
  have hsearch : (∀ leaf ∈ leaves (redactAndIndex rules result).1, isPublished leaf.1 = true →
      Free rules.patterns leaf.2) →
      (Free rules.patterns (eventSearchText (redactAndIndex rules result).1
        (redactAndIndex rules result).2) ↔
      ∀ name ∈ fit (nameRoom rules.patterns result) (symbolNames result),
        Free rules.patterns name) := by
    intro hfree
    have hvalues : ∀ facet ∈ (redactAndIndex rules result).2, Free rules.patterns facet.value :=
      fun facet hfacet => (free_facets hfree facet hfacet).2
    have hdocument := free_eventSearchText_iff hvalid hfree hvalues
    rwa [messages_redactAndIndex, symbolNames_redactAndIndex] at hdocument
  constructor
  · intro h
    have hparts := htexts.mp h.texts
    exact ⟨hparts.1, hparts.2, hnames ▸ h.fieldNames, (hsearch h.texts).mp h.search⟩
  · intro h
    have hfree := htexts.mpr ⟨h.texts, h.markers⟩
    exact ⟨hfree, hnames.symm ▸ h.fieldNames, free_facets hfree,
      (hsearch hfree).mpr h.names⟩

section Samples

def frameSample (sourceFile : String) : Json :=
  ofFields [("instruction", .string "0x10"), ("module", .null), ("module_relative", .null),
    ("trust", .string "context"), ("symbol_status", .string "resolved"),
    ("function", .string "Boss::Tick"), ("source_file", .string sourceFile),
    ("source_line", .null), ("inlines", .array [])]

def threadSample (sourceFile : String) : Json :=
  ofFields [("thread_id", ofNat 1), ("faulting", .bool true), ("name", .null),
    ("unwind_status", .string "ok"), ("frames_truncated", .bool false),
    ("frames", .array [frameSample sourceFile])]

def attemptSample (sourceFile : String) : Json :=
  ofFields [("processing_version", ofNat 2), ("parser_version", ofNat 1),
    ("symbolication", ofFields [("schema_version", ofNat 2),
      ("symbolicator_version", .string "1"), ("minidump_version", .string "1"),
      ("minidump_processor_version", .string "1"), ("minidump_unwind_version", .string "1"),
      ("platform", .string "windows"), ("architecture", .string "x86_64"),
      ("faulting_thread_id", ofNat 1), ("modules", .array []),
      ("threads", .array [threadSample sourceFile]), ("exception_reason", .null),
      ("assertion", .null)])]

def contextSample (message : String) : Json :=
  ofFields [("parser_version", ofNat 1), ("crash_guid", .string "UECC-1"),
    ("crash_type", .string "crash"), ("error_message", .string message), ("build_version", .null),
    ("engine_version", .null), ("platform", .null), ("architecture", .null),
    ("build_configuration", .null), ("modules", .array []), ("threads", .array []),
    ("system_metadata", .array []), ("user_comment", .null),
    ("game_data", .array [ofFields [("name", .string "Map"), ("value", .string message)]]),
    ("unknown_fields", ofFields [])]

def resultSample (message sourceFile : String) (history : List Json) : Json :=
  ofFields [("schema_version", ofNat 1), ("crash_guid", .string "UECC-1"),
    ("crash_context", contextSample message), ("current", attemptSample sourceFile),
    ("history", .array history)]

def acmeRules : DataRules := ⟨0, ["acme".toList], ["Map".toList]⟩

/-- The pattern is in the message, a property and the current source file, and goes. -/
theorem gone_acme : Gone ["acme".toList]
    (redactAndIndex acmeRules (resultSample "acme boss" "D:/acme/Boss.cpp" [])).1
    (redactAndIndex acmeRules (resultSample "acme boss" "D:/acme/Boss.cpp" [])).2 :=
  (gone_iff_spared ["acme".toList] ["Map".toList] acmeRules (by decide +kernel)
    (by decide +kernel) (resultSample "acme boss" "D:/acme/Boss.cpp" [])).mpr
      ⟨by decide +kernel, by decide +kernel, by decide +kernel, by decide +kernel⟩

/-- The source file of an attempt in the history stays as it is. -/
theorem not_gone_history : ¬ ∀ (patterns keys : List Text) (rules : DataRules),
    validateRules patterns keys = .ok rules →
    (∀ p ∈ rules.patterns, ¬ SharesBorder redacted p) →
    ∀ (result : Json) (guid : Option String),
      validateCurrentProcessingResult result guid = .ok () →
      Gone rules.patterns (redactAndIndex rules result).1 (redactAndIndex rules result).2 := by
  intro h
  have hgone := h ["acme".toList] ["Map".toList] acmeRules (by decide +kernel) (by decide +kernel)
    (resultSample "boss" "D:/acme/Boss.cpp" [attemptSample "C:/acme/Boss.cpp"]) (some "UECC-1")
    (by decide +kernel)
  have hleaf : ([.member "history", .element] ++ framesPath ++ [.member "source_file"],
      "C:/acme/Boss.cpp".toList) ∈ leaves (redactAndIndex acmeRules (resultSample "boss"
        "D:/acme/Boss.cpp" [attemptSample "C:/acme/Boss.cpp"])).1 := by decide +kernel
  exact hgone.texts _ hleaf (by decide) "acme".toList List.mem_cons_self (by decide)

end Samples

end FaultLane.PublishedText
