import FaultLane.Fallible
import FaultLane.JsonValue
import FaultLane.RustText
import FaultLane.SortDedup
import FaultLane.Replacement
import Mathlib.Data.List.Perm.Subperm
import Mathlib.Data.Prod.Lex
import Mathlib.Order.OrderDual

set_option autoImplicit false

/-!
# Data rules

Which redaction patterns are accepted, how they are applied to a result, and which
facets are indexed afterwards.
-/
namespace FaultLane.Redaction
open Fallible RustText SortedMap Json SortDedup Replacement

def maxPatterns : Nat := 32
def maxPatternBytes : Nat := 256
def maxPatternBytesTotal : Nat := 4096
def maxIndexedKeys : Nat := 32
def maxKeyBytes : Nat := 128
def maxFacetValueChars : Nat := 512
def redacted : Text := "[REDACTED]".toList

structure DataRules where
  version : Int
  patterns : List Text
  indexedGameDataKeys : List Text
  deriving DecidableEq, Repr

structure ContextFacet where
  key : Text
  value : Text
  valueTruncated : Bool
  deriving DecidableEq, Repr

inductive DataRulesError where
  | invalidRequest
  | unauthorized
  | forbidden
  | notFound
  | unavailable
  | internal
  deriving DecidableEq, Repr

section Validation

def invalidPattern (pattern : Text) : Bool :=
  pattern.isEmpty || (trim pattern).isEmpty || contains pattern redacted ||
    decide (maxPatternBytes < byteLength pattern) || pattern.any isControl

def isKeyChar (c : Char) : Bool := isAsciiAlphanumeric c || c == '_' || c == '-' || c == '.'

def invalidKey (key : Text) : Bool :=
  key.isEmpty || decide (maxKeyBytes < byteLength key) || !key.all isKeyChar

/-- Longer patterns come first, and patterns of one length in their own order. -/
def patternKey (pattern : Text) : Lex (OrderDual Nat × Text) :=
  toLex (OrderDual.toDual (byteLength pattern), pattern)

def validateRules (patterns keys : List Text) : Except DataRulesError DataRules := do
  refuse (maxPatterns < patterns.length ∨ maxIndexedKeys < keys.length ∨
    patterns.any invalidPattern = true ∨
    maxPatternBytesTotal < (patterns.map byteLength).sum ∨
    keys.any invalidKey = true) .invalidRequest
  return {
    version := 0
    patterns := sortDedup patternKey patterns
    indexedGameDataKeys := sortDedup id keys }

end Validation

section Redaction

def redactPattern (text pattern : Text) : Text :=
  if contains pattern text then replace pattern redacted text else text

def redactText (patterns : List Text) (text : Text) : Text := patterns.foldl redactPattern text

/-- `get_mut` with a member name, and an update of what is there. A member is there once. -/
def field (key : String) (update : Json → Json) : Json → Json
  | .object fields => .object (fields.map fun e => if e.1 = key then (e.1, update e.2) else e)
  | value => value

/-- `as_array_mut`, and an update of every element. -/
def elements (update : Json → Json) : Json → Json
  | .array values => .array (values.map update)
  | value => value

/-- Updates of members, one after another. -/
def fields (updates : List (String × (Json → Json))) (value : Json) : Json :=
  updates.foldl (fun value u => field u.1 u.2 value) value

variable (patterns : List Text)

def redactValue : Json → Json
  | .string text => .string (String.ofList (redactText patterns text.toList))
  | value => value

mutual

def redactRecursive : Json → Json
  | .string text => .string (String.ofList (redactText patterns text.toList))
  | .array values => .array (redactRecursiveValues values)
  | .object fields => .object (redactRecursiveFields fields)
  | value => value

def redactRecursiveValues : List Json → List Json
  | [] => []
  | value :: values => redactRecursive value :: redactRecursiveValues values

def redactRecursiveFields : List (String × Json) → List (String × Json)
  | [] => []
  | (key, value) :: fields => (key, redactRecursive value) :: redactRecursiveFields fields

end

def redactArrayFields (names : List String) : Json → Json :=
  elements (fields (names.map fun name => (name, redactValue patterns)))

def contextUpdates : List (String × (Json → Json)) :=
  (["error_message", "build_version", "engine_version", "architecture", "build_configuration",
    "command_line", "user_comment"].map fun name => (name, redactValue patterns)) ++
  [("platform", fields [("original", redactValue patterns), ("normalized", redactValue patterns)]),
    ("modules", redactArrayFields patterns ["original"]),
    ("threads", redactArrayFields patterns ["call_stack", "registers", "thread_name"]),
    ("system_metadata", redactArrayFields patterns ["value"]),
    ("game_data", redactArrayFields patterns ["value"]),
    ("unknown_fields", redactRecursive patterns)]

def redactCrashContext : Json → Json := field "crash_context" (fields (contextUpdates patterns))

def redactLog (result : Json) : Json :=
  field "log" (field "tail" (field "text" (redactValue patterns)))
    (field "log" (field "name" (redactValue patterns)) result)

def redactFrame : Json → Json :=
  fields [("source_file", redactValue patterns),
    ("inlines", elements (field "source_file" (redactValue patterns)))]

def redactSymbolication : Json → Json :=
  field "current" <| field "symbolication" <| field "threads" <| elements <| field "frames" <|
    elements <| redactFrame patterns

end Redaction

section Indexing

def facetKey (facet : ContextFacet) : List Text :=
  [facet.key, facet.value, if facet.valueTruncated then ['1'] else ['0']]

def facetOf (allowed : List Text) (value : Json) : Option ContextFacet := do
  let key ← ((value.get "name").bind asStr).map String.toList
  let raw ← ((value.get "value").bind asStr).map String.toList
  if !allowed.contains key || raw.isEmpty then none
  else
    let value := raw.take maxFacetValueChars
    return ⟨key, value, decide (value.length < raw.length)⟩

def contextFacets (result : Json) (indexedKeys : List Text) : List ContextFacet :=
  if indexedKeys.isEmpty then []
  else
    match (result.pointer ["crash_context", "game_data"]).bind asArray with
    | none => []
    | some values => sortDedup facetKey (values.filterMap (facetOf indexedKeys))

/-- The result as it is left, and its facets. -/
def redactAndIndex (rules : DataRules) (result : Json) : Json × List ContextFacet :=
  let result :=
    if rules.patterns.isEmpty then result
    else
      redactSymbolication rules.patterns <| redactLog rules.patterns <|
        redactCrashContext rules.patterns result
  (result, contextFacets result rules.indexedGameDataKeys)

end Indexing

section Stability

/-- Doing it twice is doing it once. -/
def Stable {α : Type} (update : α → α) : Prop := ∀ a, update (update a) = update a

theorem field_field (key : String) (f g : Json → Json) (value : Json) :
    field key f (field key g value) = field key (fun v => f (g v)) value := by
  cases value with
  | object members =>
    simp only [field, List.map_map, Json.object.injEq]
    refine List.map_congr_left fun e _ => ?_
    by_cases h : e.1 = key <;> simp [h]
  | _ => rfl

theorem field_comm {key key' : String} (h : key ≠ key') (f g : Json → Json) (value : Json) :
    field key f (field key' g value) = field key' g (field key f value) := by
  cases value with
  | object members =>
    simp only [field, List.map_map, Json.object.injEq]
    refine List.map_congr_left fun e _ => ?_
    by_cases hkey : e.1 = key
    · have hne : ¬ e.1 = key' := fun h' => h (hkey.symm.trans h')
      simp [hkey, h]
    · by_cases hkey' : e.1 = key' <;> simp [hkey, hkey', h.symm]
  | _ => rfl

theorem stable_field (key : String) {f : Json → Json} (hf : Stable f) : Stable (field key f) := by
  intro value
  rw [field_field]
  congr 1
  funext v
  exact hf v

theorem stable_elements {f : Json → Json} (hf : Stable f) : Stable (elements f) := by
  intro value
  cases value with
  | array values =>
    simp only [elements, List.map_map, Json.array.injEq]
    exact List.map_congr_left fun v _ => hf v
  | _ => rfl

theorem field_fields {key : String} {updates : List (String × (Json → Json))}
    (h : ∀ u ∈ updates, key ≠ u.1) (f : Json → Json) (value : Json) :
    field key f (fields updates value) = fields updates (field key f value) := by
  induction updates generalizing value with
  | nil => rfl
  | cons u updates ih =>
    have hu := h u List.mem_cons_self
    unfold fields at ih ⊢
    rw [List.foldl_cons, List.foldl_cons, ih fun v hv => h v (List.mem_cons_of_mem _ hv),
      field_comm hu]

theorem stable_fields {updates : List (String × (Json → Json))}
    (hkeys : (updates.map Prod.fst).Nodup) (h : ∀ u ∈ updates, Stable u.2) :
    Stable (fields updates) := by
  induction updates with
  | nil => exact fun _ => rfl
  | cons u updates ih =>
    intro value
    rw [List.map_cons, List.nodup_cons] at hkeys
    have hne : ∀ v ∈ updates, u.1 ≠ v.1 := fun v hv heq =>
      hkeys.1 (heq ▸ List.mem_map_of_mem hv)
    have hrest := ih hkeys.2 fun v hv => h v (List.mem_cons_of_mem _ hv)
    change fields updates (field u.1 u.2 (fields updates (field u.1 u.2 value))) =
      fields updates (field u.1 u.2 value)
    rw [field_fields hne, stable_field u.1 (h u List.mem_cons_self), hrest]

variable {patterns : List Text}

theorem stable_redactValue (h : Stable (redactText patterns)) : Stable (redactValue patterns) := by
  intro value
  cases value with
  | string text =>
    simp only [redactValue, String.toList_ofList, h text.toList]
  | _ => rfl

mutual

theorem stable_redactRecursive (h : Stable (redactText patterns)) : ∀ value : Json,
    redactRecursive patterns (redactRecursive patterns value) = redactRecursive patterns value
  | .null => rfl
  | .bool _ => rfl
  | .number _ => rfl
  | .string text => by simp only [redactRecursive, String.toList_ofList, h text.toList]
  | .array values => by simp only [redactRecursive, stable_redactRecursiveValues h values]
  | .object members => by simp only [redactRecursive, stable_redactRecursiveFields h members]

theorem stable_redactRecursiveValues (h : Stable (redactText patterns)) : ∀ values : List Json,
    redactRecursiveValues patterns (redactRecursiveValues patterns values) =
      redactRecursiveValues patterns values
  | [] => rfl
  | value :: values => by
    simp only [redactRecursiveValues, stable_redactRecursive h value,
      stable_redactRecursiveValues h values]

theorem stable_redactRecursiveFields (h : Stable (redactText patterns)) :
    ∀ members : List (String × Json),
    redactRecursiveFields patterns (redactRecursiveFields patterns members) =
      redactRecursiveFields patterns members
  | [] => rfl
  | (key, value) :: members => by
    simp only [redactRecursiveFields, stable_redactRecursive h value,
      stable_redactRecursiveFields h members]

end

theorem stable_redactArrayFields (h : Stable (redactText patterns)) {names : List String}
    (hnames : names.Nodup) : Stable (redactArrayFields patterns names) := by
  apply stable_elements
  apply stable_fields
  · simpa [Function.comp_def] using hnames
  · intro u hu
    obtain ⟨name, -, rfl⟩ := List.mem_map.mp hu
    exact stable_redactValue h

theorem stable_contextUpdates (h : Stable (redactText patterns)) :
    Stable (fields (contextUpdates patterns)) := by
  apply stable_fields
  · simp [contextUpdates]
  · intro u hu
    rcases List.mem_append.mp hu with hu | hu
    · obtain ⟨name, -, rfl⟩ := List.mem_map.mp hu
      exact stable_redactValue h
    · have hplatform : Stable (fields [("original", redactValue patterns),
          ("normalized", redactValue patterns)]) := by
        apply stable_fields (by simp)
        simp [stable_redactValue h]
      simp only [List.mem_cons, List.not_mem_nil, or_false] at hu
      rcases hu with rfl | rfl | rfl | rfl | rfl | rfl
      · exact hplatform
      · exact stable_redactArrayFields h (by simp)
      · exact stable_redactArrayFields h (by simp)
      · exact stable_redactArrayFields h (by simp)
      · exact stable_redactArrayFields h (by simp)
      · exact stable_redactRecursive h

/-- The members that redaction visits, one update for each. -/
def resultUpdates (patterns : List Text) : List (String × (Json → Json)) :=
  [("crash_context", fields (contextUpdates patterns)),
    ("log", fun log => field "tail" (field "text" (redactValue patterns))
      (field "name" (redactValue patterns) log)),
    ("current", field "symbolication" <| field "threads" <| elements <| field "frames" <|
      elements <| redactFrame patterns)]

theorem redact_eq_fields (result : Json) :
    redactSymbolication patterns (redactLog patterns (redactCrashContext patterns result)) =
      fields (resultUpdates patterns) result := by
  rw [redactLog, field_field]
  rfl

theorem stable_resultUpdates (h : Stable (redactText patterns)) :
    Stable (fields (resultUpdates patterns)) := by
  have hvalue := stable_redactValue h
  apply stable_fields (by simp [resultUpdates])
  intro u hu
  simp only [resultUpdates, List.mem_cons, List.not_mem_nil, or_false] at hu
  rcases hu with rfl | rfl | rfl
  · exact stable_contextUpdates h
  · intro log
    have htail := stable_field "tail" (stable_field "text" hvalue)
    have hname := stable_field "name" hvalue
    change field "tail" _ (field "name" _ (field "tail" _ (field "name" _ log))) = _
    rw [field_comm (by decide : "name" ≠ "tail"), hname, htail]
  · have hframe : Stable (redactFrame patterns) := by
      apply stable_fields (by simp)
      simp [hvalue, stable_elements (stable_field "source_file" hvalue)]
    exact stable_field _ <| stable_field _ <| stable_elements <| stable_field _ <|
      stable_elements hframe

theorem stable_redactAndIndex {rules : DataRules} (h : Stable (redactText rules.patterns))
    (result : Json) :
    redactAndIndex rules (redactAndIndex rules result).1 = redactAndIndex rules result := by
  unfold redactAndIndex
  by_cases hempty : rules.patterns.isEmpty = true
  · simp only [if_pos hempty]
  · simp only [if_neg hempty, redact_eq_fields, stable_resultUpdates h result]

end Stability

section Completeness
variable {patterns keys : List Text} {rules : DataRules} {pattern text : Text}

theorem patterns_of_validateRules (h : validateRules patterns keys = .ok rules) :
    rules.patterns = sortDedup patternKey patterns ∧
      ∀ p ∈ rules.patterns, invalidPattern p = false := by
  obtain ⟨_, hvalid, h⟩ := bind_eq_ok.mp h
  cases h
  refine ⟨rfl, fun p hp => ?_⟩
  have hmem := (mem_sortDedup patternKey p patterns).mp hp
  have hany := fun hinvalid => refuse_eq_ok.mp hvalid (.inr (.inr (.inl hinvalid)))
  rw [List.any_eq_true] at hany
  by_contra hinvalid
  exact hany ⟨p, hmem, by simpa using hinvalid⟩

theorem not_infix_of_valid (h : invalidPattern pattern = false) : ¬ pattern <:+: redacted := by
  rw [← contains_iff]
  simp only [invalidPattern, Bool.or_eq_false_iff] at h
  simp [h.1.1.2]

/-- A replacement brings in no pattern that does not straddle the marker. -/
theorem redactPattern_free {other : Text} (hedges : ¬ Straddles redacted pattern)
    (hmarker : ¬ pattern <:+: redacted) (h : ¬ pattern <:+: text) :
    ¬ pattern <:+: redactPattern text other := by
  unfold redactPattern
  split_ifs
  · exact fun hinfix => h (infix_of_replace hedges hmarker hinfix)
  · exact h

theorem redactPattern_self (hedges : ¬ Straddles redacted pattern)
    (hmarker : ¬ pattern <:+: redacted) : ¬ pattern <:+: redactPattern text pattern := by
  unfold redactPattern
  split_ifs with hcontains
  · exact not_infix_replace hedges hmarker text
  · rwa [← contains_iff]

theorem redactText_free (hedges : ¬ Straddles redacted pattern)
    (hmarker : ¬ pattern <:+: redacted) (h : ¬ pattern <:+: text) :
    ¬ pattern <:+: redactText patterns text := by
  induction patterns generalizing text with
  | nil => exact h
  | cons other rest ih => exact ih (redactPattern_free hedges hmarker h)

/-- A pattern that does not straddle the marker is gone, whatever the other patterns are. -/
theorem redactText_complete (hedges : ¬ Straddles redacted pattern)
    (hmarker : ¬ pattern <:+: redacted) (hmem : pattern ∈ patterns) :
    ¬ pattern <:+: redactText patterns text := by
  induction patterns generalizing text with
  | nil => cases hmem
  | cons other rest ih =>
    rcases List.mem_cons.mp hmem with rfl | hmem
    · have hfirst : ¬ pattern <:+: redactPattern text pattern := redactPattern_self hedges hmarker
      change ¬ pattern <:+: redactText rest (redactPattern text pattern)
      exact redactText_free hedges hmarker hfirst
    · exact ih hmem

theorem redactText_of_free (h : ∀ p ∈ patterns, ¬ p <:+: text) :
    redactText patterns text = text := by
  induction patterns with
  | nil => rfl
  | cons other rest ih =>
    have hother : redactPattern text other = text := by
      rw [redactPattern, if_neg fun hcontains =>
        h other List.mem_cons_self (contains_iff.mp hcontains)]
    rw [redactText, List.foldl_cons, hother]
    exact ih fun p hp => h p (List.mem_cons_of_mem _ hp)

end Completeness

section Exactness

/-- Letters beyond ASCII, one more than a pattern has characters. -/
def freshLetters : List Char := (List.range 257).map fun i => Char.ofNat (256 + i)

theorem freshLetters_spec : freshLetters.Nodup ∧ ∀ c ∈ freshLetters,
    256 ≤ c.toNat ∧ c.utf8Size = 2 ∧ invalidPattern [c] = false := by
  have hcode : ∀ i ∈ List.range 257, (Char.ofNat (256 + i)).toNat = 256 + i := by decide +kernel
  constructor
  · refine List.Nodup.map_on (fun i hi j hj heq => ?_) List.nodup_range
    have hnat := congrArg Char.toNat heq
    rw [hcode i hi, hcode j hj] at hnat
    omega
  · have hall : freshLetters.all (fun c => 256 ≤ c.toNat && c.utf8Size = 2 &&
        !invalidPattern [c]) = true := by decide +kernel
    intro c hc
    have hletter := List.all_eq_true.mp hall c hc
    simp only [Bool.and_eq_true, decide_eq_true_eq, Bool.not_eq_true'] at hletter
    exact ⟨hletter.1.1, hletter.1.2, hletter.2⟩

theorem length_le_byteLength (s : Text) : s.length ≤ byteLength s := by
  induction s with
  | nil => exact Nat.le_refl _
  | cons c s ih =>
    have hc := Char.utf8Size_pos c
    simp only [byteLength, List.map_cons, List.sum_cons, List.length_cons] at ih ⊢
    omega

theorem exists_fresh {pattern : Text} (h : invalidPattern pattern = false) :
    ∃ c ∈ freshLetters, c ∉ pattern := by
  by_contra hall
  have hsubset : freshLetters ⊆ pattern := fun c hc => by
    by_contra hnot
    exact hall ⟨c, hc, hnot⟩
  have hlength := (List.subperm_of_subset freshLetters_spec.1 hsubset).length_le
  have hbytes := length_le_byteLength pattern
  simp only [invalidPattern, Bool.or_eq_false_iff, decide_eq_false_iff_not] at h
  have hmax := h.1.2
  simp only [freshLetters, List.length_map, List.length_range] at hlength
  unfold maxPatternBytes at hmax
  omega

theorem two_le_length_of_straddles {pattern : Text} (h : Straddles redacted pattern)
    (hmarker : ¬ pattern <:+: redacted) : 2 ≤ pattern.length := by
  rcases h with hinfix | ⟨a, b, rfl, hb, hstart⟩ | ⟨a, b, rfl, ha, hend⟩
  · exact le_trans (by decide) hinfix.length_le
  · have ha : a ≠ [] := by
      rintro rfl
      exact hmarker hstart.isInfix
    have hapos := List.length_pos_iff.mpr ha
    have hbpos := List.length_pos_iff.mpr hb
    rw [List.length_append]
    omega
  · have hb : b ≠ [] := by
      rintro rfl
      rw [List.append_nil] at hmarker
      exact hmarker hend.isInfix
    have hapos := List.length_pos_iff.mpr ha
    have hbpos := List.length_pos_iff.mpr hb
    rw [List.length_append]
    omega

theorem utf8Size_le_one {c : Char} (h : c.utf8Size ≤ 1) : c.toNat < 128 := by
  have hsize : c.utf8Size = 1 := le_antisymm h (Char.utf8Size_pos c)
  have hval := Char.utf8Size_eq_one_iff.mp hsize
  change c.val.toNat < 128
  have hle := UInt32.le_iff_toNat_le.mp hval
  exact Nat.lt_succ_of_le hle

/-- A pattern of two characters or more comes before a fresh letter. -/
theorem patternKey_le_fresh {pattern : Text} (h : 2 ≤ pattern.length) {c : Char}
    (hc : c ∈ freshLetters) : patternKey pattern ≤ patternKey [c] := by
  obtain ⟨hcode, hsize, -⟩ := freshLetters_spec.2 c hc
  have hbytes := length_le_byteLength pattern
  have hone : byteLength [c] = 2 := by simp [byteLength, hsize]
  rw [patternKey, patternKey, Prod.Lex.toLex_le_toLex, hone]
  by_cases hlong : 2 < byteLength pattern
  · exact .inl (OrderDual.toDual_lt_toDual.mpr hlong)
  · have htwo : byteLength pattern = 2 := by omega
    refine .inr ⟨by rw [htwo], ?_⟩
    obtain ⟨d, e, rest, rfl⟩ : ∃ d e rest, pattern = d :: e :: rest := by
      match pattern, h with
      | d :: e :: rest, _ => exact ⟨d, e, rest, rfl⟩
    have he := Char.utf8Size_pos e
    have hd : d.utf8Size ≤ 1 := by
      simp only [byteLength, List.map_cons, List.sum_cons] at htwo
      omega
    have hlt : d < c := by
      have hascii := utf8Size_le_one hd
      change d.toNat < c.toNat
      omega
    exact le_of_lt (List.cons_lt_cons_iff.mpr (.inl hlt))

theorem sortDedup_fresh {pattern : Text} (h : 2 ≤ pattern.length) {c : Char}
    (hc : c ∈ freshLetters) : sortDedup patternKey [pattern, [c]] = [pattern, [c]] := by
  have hne : pattern ≠ [c] := by
    rintro rfl
    simp at h
  simp [sortDedup, sortBy, patternKey_le_fresh h hc, dedup, hne]

theorem validateRules_fresh {pattern : Text} (hpattern : invalidPattern pattern = false)
    (h : 2 ≤ pattern.length) {c : Char} (hc : c ∈ freshLetters) :
    validateRules [pattern, [c]] [] = .ok ⟨0, [pattern, [c]], []⟩ := by
  obtain ⟨-, hsize, hfresh⟩ := freshLetters_spec.2 c hc
  have hbytes : ¬ maxPatternBytes < byteLength pattern := by
    simp only [invalidPattern, Bool.or_eq_false_iff, decide_eq_false_iff_not] at hpattern
    exact hpattern.1.2
  have hone : byteLength [c] = 2 := by simp [byteLength, hsize]
  have hvalid : ¬ (maxPatterns < [pattern, [c]].length ∨ maxIndexedKeys < ([] : List Text).length ∨
      [pattern, [c]].any invalidPattern = true ∨
      maxPatternBytesTotal < ([pattern, [c]].map byteLength).sum ∨
      ([] : List Text).any invalidKey = true) := by
    simp [hpattern, hfresh, hone, maxPatterns, maxIndexedKeys, maxPatternBytesTotal,
      maxPatternBytes] at hbytes ⊢
    omega
  rw [validateRules, refuse_of_not hvalid, ok_bind, sortDedup_fresh h hc]
  rfl

/-- Beside a fresh letter, a straddling pattern comes back. -/
theorem exists_incomplete {pattern : Text} (hpattern : invalidPattern pattern = false)
    (h : Straddles redacted pattern) :
    ∃ patterns rules text, validateRules patterns [] = .ok rules ∧ pattern ∈ rules.patterns ∧
      pattern <:+: redactText rules.patterns text := by
  obtain ⟨c, hc, hfresh⟩ := exists_fresh hpattern
  have hlength := two_le_length_of_straddles h (not_infix_of_valid hpattern)
  obtain ⟨text, hletter, hfree, hback⟩ :=
    exists_replace_of_straddles (List.cons_ne_nil _ _) h hfresh
  refine ⟨[pattern, [c]], _, text, validateRules_fresh hpattern hlength hc, by simp, ?_⟩
  have hfirst : redactPattern text pattern = text :=
    if_neg fun hcontains => hfree (contains_iff.mp hcontains)
  have hsecond : redactPattern text [c] = replace [c] redacted text :=
    if_pos (contains_iff.mpr hletter)
  change pattern <:+: redactPattern (redactPattern text pattern) [c]
  rwa [hfirst, hsecond]

end Exactness

/-- Redaction is complete and stable when no pattern straddles the marker, and a pattern is
safe in every accepted list just when it does not. -/
theorem redaction_complete_iff (patterns keys : List Text) (rules : DataRules)
    (h : validateRules patterns keys = .ok rules) :
    ((∀ p ∈ rules.patterns, ¬ Straddles redacted p) →
      (∀ text, (∀ p ∈ rules.patterns, ¬ p <:+: redactText rules.patterns text) ∧
        redactText rules.patterns (redactText rules.patterns text) =
          redactText rules.patterns text) ∧
      ∀ result, redactAndIndex rules (redactAndIndex rules result).1 =
        redactAndIndex rules result) ∧
    ∀ p ∈ rules.patterns,
      (∀ patterns' keys' rules', validateRules patterns' keys' = .ok rules' →
        p ∈ rules'.patterns → ∀ text, ¬ p <:+: redactText rules'.patterns text) ↔
      ¬ Straddles redacted p := by
  have hvalid := (patterns_of_validateRules h).2
  constructor
  · intro hedges
    have hfree : ∀ text, ∀ p ∈ rules.patterns, ¬ p <:+: redactText rules.patterns text :=
      fun text p hp => redactText_complete (hedges p hp) (not_infix_of_valid (hvalid p hp)) hp
    have hstable : Stable (redactText rules.patterns) := fun text =>
      redactText_of_free (hfree text)
    exact ⟨fun text => ⟨hfree text, hstable text⟩, stable_redactAndIndex hstable⟩
  · intro p hp
    constructor
    · intro hsafe hstraddles
      obtain ⟨patterns', rules', text, hrules, hmem, hinfix⟩ :=
        exists_incomplete (hvalid p hp) hstraddles
      exact hsafe patterns' [] rules' hrules hmem text hinfix
    · intro hedges patterns' keys' rules' hrules hmem text
      have hmarker := not_infix_of_valid ((patterns_of_validateRules hrules).2 p hmem)
      exact redactText_complete hedges hmarker hmem

theorem redaction_complete_sample :
    ((∀ p ∈ ["secret".toList], ¬ Straddles redacted p) →
      (∀ text, (∀ p ∈ ["secret".toList], ¬ p <:+: redactText ["secret".toList] text) ∧
        redactText ["secret".toList] (redactText ["secret".toList] text) =
          redactText ["secret".toList] text) ∧
      ∀ result, redactAndIndex ⟨0, ["secret".toList], []⟩
        (redactAndIndex ⟨0, ["secret".toList], []⟩ result).1 =
          redactAndIndex ⟨0, ["secret".toList], []⟩ result) ∧
    ∀ p ∈ ["secret".toList],
      (∀ patterns' keys' rules', validateRules patterns' keys' = .ok rules' →
        p ∈ rules'.patterns → ∀ text, ¬ p <:+: redactText rules'.patterns text) ↔
      ¬ Straddles redacted p :=
  redaction_complete_iff ["secret".toList, "secret".toList] [] ⟨0, ["secret".toList], []⟩
    (by decide +kernel)

/-- The marker for `c` completes the longer pattern `ab[`, which was looked for before. -/
theorem redaction_incomplete :
    ¬ ∀ (patterns keys : List Text) (rules : DataRules),
      validateRules patterns keys = .ok rules → ∀ text,
        (∀ p ∈ rules.patterns, ¬ p <:+: redactText rules.patterns text) ∧
        redactText rules.patterns (redactText rules.patterns text) =
          redactText rules.patterns text := by
  intro h
  have hrules : validateRules ["ab[".toList, "c".toList] [] =
      .ok ⟨0, ["ab[".toList, "c".toList], []⟩ := by decide +kernel
  have hinfix : "ab[".toList <:+: redactText ["ab[".toList, "c".toList] "abc".toList := by
    decide +kernel
  exact (h _ _ _ hrules "abc".toList).1 _ List.mem_cons_self hinfix

end FaultLane.Redaction
