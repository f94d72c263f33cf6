import FaultLane.GroupingTemplate
import FaultLane.GroupingVolatile

set_option autoImplicit false

/-!
# Generic errors

A result without usable frames groups only on a message that says something specific.
Messages of listed words, separators and volatile values say nothing specific, as long as
they are read whole and none of the words is `d3d`.
-/
namespace FaultLane.GroupingGenericErrors
open Fallible RustText SortedMap Json Symbolication ProcessingContract ProcessingResult
  ProcessingHistory GroupingText Grouping GroupingTotality GroupingTemplate GroupingVolatile

section Messages
variable {unicode : Char → Bool}

/-- The message is read whole and without `d3d`. -/
def Plain (unicode : Char → Bool) (s : Text) : Prop :=
  ∃ r : Reading unicode s, ∀ p ∈ r.kept, p.isD3d = false

theorem Plain.not_specific {s : Text} (h : Plain unicode s) :
    hasSpecificTemplateToken unicode (normalizeTemplate s) = false := by
  obtain ⟨r, hr⟩ := h
  rw [r.specific_iff, List.any_eq_false]
  exact fun p hp => by rw [hr p hp]; decide

theorem plain_iff {s : Text} (h : Nonempty (Reading unicode s)) :
    Plain unicode s ↔ hasSpecificTemplateToken unicode (normalizeTemplate s) = false := by
  refine ⟨Plain.not_specific, fun hspecific => ?_⟩
  obtain ⟨r⟩ := h
  rw [r.specific_iff, List.any_eq_false] at hspecific
  exact ⟨r, fun p hp => by simpa using hspecific p hp⟩

theorem specificTemplate_eq_none {value : Option String} :
    specificTemplate unicode value = none ↔ ∀ s ∈ value,
      hasSpecificTemplateToken unicode (normalizeTemplate s.toList) = false := by
  cases value with
  | none => simp [specificTemplate]
  | some s => simp [specificTemplate, Option.filter]

end Messages

section Results
variable {unicode : Char → Bool} {sha256 : List UInt8 → List UInt8} {result : Json}

def signalsOf (result : Json) : List Text :=
  ((((result.get "classification").bind asObject).bind (arrayAt "signals")).map
    normalizedSignals).getD []

/-- The error message counts for assertions, ensures, GPU crashes and lack of memory. -/
def usesErrorMessage (result : Json) : Bool :=
  let crashType := textAt ["crash_context", "crash_type"] result
  crashType == some "assert" || crashType == some "ensure" || !(signalsOf result).isEmpty

/-- The messages that a result without usable frames can group on. -/
def usedTexts (result : Json) : List Text :=
  ((textAt ["current", "symbolication", "assertion"] result).toList ++
    if usesErrorMessage result then (textAt ["crash_context", "error_message"] result).toList
    else []).map String.toList

/-- The faulting thread has no project frame, no engine frame and no usable unresolved frame. -/
def YieldsNoFrames (result : Json) : Prop :=
  ∃ variant, (objectAtPath result ["current", "symbolication"] >>= frameEvidence) =
    .ok ⟨[], [], [], variant⟩

theorem strAt_context (parts : Parts result) (field : String) :
    strAt field parts.context = textAt ["crash_context", field] result := by
  rw [textAt, pointer_context parts]
  rfl

theorem strAt_symbolication (parts : Parts result) (field : String) :
    strAt field parts.symbolication = textAt ["current", "symbolication", field] result := by
  rw [textAt, pointer_symbolication parts]
  rfl

theorem specificError_parts (parts : Parts result) (frames : FrameEvidence) :
    (partsEvidence unicode parts frames).specificError = usesErrorMessage result := by
  have htype := okOr_eq_ok.mp parts.crashType_eq
  rw [strAt_context parts] at htype
  unfold usesErrorMessage
  rw [htype]
  rfl

theorem stableError_parts (parts : Parts result) (frames : FrameEvidence) :
    (partsEvidence unicode parts frames).stableError = false ↔ ∀ s ∈ usedTexts result,
      hasSpecificTemplateToken unicode (normalizeTemplate s) = false := by
  have hassertion : (partsEvidence unicode parts frames).assertion =
      specificTemplate unicode (textAt ["current", "symbolication", "assertion"] result) := by
    rw [← strAt_symbolication parts]
    rfl
  have hmessage : (partsEvidence unicode parts frames).errorTemplate =
      specificTemplate unicode (textAt ["crash_context", "error_message"] result) := by
    rw [← strAt_context parts]
    rfl
  unfold Evidence.stableError usedTexts
  rw [specificError_parts, hassertion, hmessage, Bool.or_eq_false_iff, Option.isSome_eq_false_iff,
    Option.isNone_iff_eq_none, specificTemplate_eq_none]
  cases usesErrorMessage result with
  | false => simp
  | true =>
    rw [Bool.true_and, Option.isSome_eq_false_iff, Option.isNone_iff_eq_none,
      specificTemplate_eq_none]
    simp [or_imp, forall_and]

theorem outcome_insufficient_iff (e : Evidence) :
    e.outcome sha256 = .insufficient ↔ e.isInsufficient = true := by
  unfold Evidence.outcome
  split_ifs with h <;> simp [h]

theorem fingerprint_insufficient_iff (hvalid : validateProcessingResult result none = .ok ())
    (hframes : YieldsNoFrames result) :
    fingerprint unicode sha256 result = .ok .insufficient ↔ ∀ s ∈ usedTexts result,
      hasSpecificTemplateToken unicode (normalizeTemplate s) = false := by
  obtain ⟨parts⟩ := parts_of_valid hvalid
  obtain ⟨variant, hvariant⟩ := hframes
  rw [parts.symbolication_eq, ok_bind] at hvariant
  rw [fingerprint_of_valid hvalid, gatherEvidence_parts parts, hvariant,
    ← stableError_parts parts ⟨[], [], [], variant⟩]
  change Except.ok _ = Except.ok _ ↔ _
  rw [Except.ok.injEq, outcome_insufficient_iff]
  simp [Evidence.isInsufficient, partsEvidence]

end Results

section Sample

/-- A failed assertion with a message and no frames. -/
def assertResult (message : String) : Json := sampleResult "Assert" message [sampleThread true []]

theorem assertResult_valid (message : String) :
    validateProcessingResult (assertResult message) none = .ok () := by
  have hnamed : ∀ t ∈ [sampleThread true []], ∀ f ∈ t.frames, f.trust ≠ "" := by
    simp [sampleThread]
  exact valid_without_identity (sampleResult_valid "Assert" message hnamed true)

theorem assertResult_no_frames (message : String) : YieldsNoFrames (assertResult message) := by
  have hframes : builtFrames (sampleSymbolication none [] [sampleThread true []]) =
      .ok ⟨[], [], [], []⟩ := by decide
  refine ⟨[], ?_⟩
  rw [assertResult, sampleResult, symbolication_object_built, ok_bind, frameEvidence_fields]
  exact hframes

theorem textAt_context_built (field guid : String) (input : ProcessingInput)
    (previous : Option PreviousProcessing) :
    textAt ["crash_context", field] (built guid input previous) =
      strAt field (SortedMap.ofFields input.context.fields) := by
  rw [textAt, context_built, CrashContext.CrashContextData.toJson, get_fields, strAt,
    SortedMap.get_ofFields]

theorem message_assertResult {message : String}
    (h : (sampleInput "Assert" message
      (sampleSymbolication none [] [sampleThread true []])).context.errorMessage = some message) :
    textAt ["crash_context", "error_message"] (assertResult message) = some message := by
  rw [assertResult, sampleResult, textAt_context_built, strAt_error_message]
  exact h

theorem assertion_assertResult (message : String) :
    textAt ["current", "symbolication", "assertion"] (assertResult message) = none := by
  rw [textAt, assertResult, sampleResult, symbolication_built]
  rfl

theorem usedTexts_assertResult {message : String}
    (h : textAt ["crash_context", "error_message"] (assertResult message) = some message) :
    usedTexts (assertResult message) = [message.toList] := by
  have htype : textAt ["crash_context", "crash_type"] (assertResult message) = some "assert" := by
    rw [assertResult, sampleResult, textAt_context_built, strAt_crash_type]
    rfl
  have huses : usesErrorMessage (assertResult message) = true := by
    unfold usesErrorMessage
    rw [htype]
    rfl
  rw [usedTexts, assertion_assertResult, huses, h]
  rfl

end Sample

/-- A result without usable frames whose messages are read whole is not grouped exactly when
none of them names `d3d`. -/
theorem fingerprint_generic_iff (unicode : Char → Bool) (sha256 : List UInt8 → List UInt8)
    (result : Json) (hvalid : validateProcessingResult result none = .ok ())
    (hframes : YieldsNoFrames result)
    (hread : ∀ s ∈ usedTexts result, Nonempty (Reading unicode s)) :
    fingerprint unicode sha256 result = .ok .insufficient ↔
      ∀ s ∈ usedTexts result, Plain unicode s := by
  rw [fingerprint_insufficient_iff hvalid hframes]
  exact forall₂_congr fun s hs => (plain_iff (hread s hs)).symm

/-- `GPU crash at 0xABC`. -/
def gpuPieces : List Piece :=
  [.word "GPU".toList, .separator ' ', .word "crash".toList, .separator ' ', .word "at".toList,
    .separator ' ', .value "<address>".toList "0xABC".toList]

def gpuReading : Reading (fun _ => false) "GPU crash at 0xABC".toList where
  kept := gpuPieces
  rest := []
  text_eq := by decide
  whole := by decide
  cut := .inl ⟨rfl, by decide⟩

theorem fingerprint_generic_sample :
    fingerprint (fun _ => false) id (assertResult "GPU crash at 0xABC") = .ok .insufficient := by
  have hused := @usedTexts_assertResult "GPU crash at 0xABC"
    (message_assertResult (by decide))
  refine (fingerprint_generic_iff _ _ _ (assertResult_valid _) (assertResult_no_frames _) ?_).mpr ?_
  · rw [hused, List.forall_mem_singleton]
    exact ⟨gpuReading⟩
  · rw [hused, List.forall_mem_singleton]
    exact ⟨gpuReading, by decide⟩

/-- `d3d` is on the list, but its digit becomes `<number>` before the list is asked. -/
theorem fingerprint_groups_d3d :
    ¬ ∀ (unicode : Char → Bool) (sha256 : List UInt8 → List UInt8) (result : Json),
      validateProcessingResult result none = .ok () → YieldsNoFrames result →
      (∀ s ∈ textAt ["crash_context", "error_message"] result, GenericText unicode s.toList) →
      (∀ s ∈ textAt ["current", "symbolication", "assertion"] result,
        GenericText unicode s.toList) →
      fingerprint unicode sha256 result = .ok .insufficient := by
  intro h
  have hmessage : textAt ["crash_context", "error_message"] (assertResult "d3d") = some "d3d" :=
    message_assertResult (by decide)
  have hgeneric : GenericText (fun _ => false) "d3d".toList :=
    ⟨[.word d3d], by decide, by decide, rfl⟩
  have hvalid := assertResult_valid "d3d"
  have hframes := assertResult_no_frames "d3d"
  have hinsufficient := h (fun _ => false) id (assertResult "d3d") hvalid hframes
    (by rw [hmessage]; intro s hs; cases hs; exact hgeneric)
    (by rw [assertion_assertResult]; nofun)
  rw [fingerprint_insufficient_iff hvalid hframes, usedTexts_assertResult hmessage,
    List.forall_mem_singleton] at hinsufficient
  exact absurd hinsufficient (by decide)

end FaultLane.GroupingGenericErrors
