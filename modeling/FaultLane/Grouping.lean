import FaultLane.ProcessingContract
import FaultLane.SortDedup
import FaultLane.LengthPrefix
import FaultLane.GroupingText

set_option autoImplicit false

/-!
# Fingerprints

The evidence taken from a validated processing result, and the issue and variant
component lists made of it. SHA-256 and the Unicode table are parameters.
-/
namespace FaultLane.Grouping
open Fallible RustText SortedMap Json SortDedup LengthPrefix ProcessingContract GroupingText

def maxProjectFrames : Nat := 8
def maxEngineFrames : Nat := 5
def maxUnresolvedFrames : Nat := 8
def maxVariantFrames : Nat := 32

def engineModules : List Text :=
  ["applicationcore", "audioengine", "core", "coreuobject", "d3d11rhi", "d3d12rhi", "engine",
    "inputcore", "metalrhi", "openglDrv", "pakfile", "projects", "rendercore", "rhi", "slate",
    "slatecore", "vulkanrhi"].map String.toList

def systemModules : List Text :=
  ["amdxx64", "atidxx64", "combase", "d3d11", "d3d12", "dxgi", "gdi32", "igd10iumd64", "kernel32",
    "kernelbase", "msvcp140", "ntdll", "nvwgf2umx", "ucrtbase", "user32", "vcruntime140", "win32u",
    "xaudio2_9"].map String.toList

structure Fingerprint where
  issueFingerprint : String
  variantFingerprint : String
  title : String
  groupingQuality : Nat
  deriving DecidableEq, Repr

inductive GroupingOutcome where
  | grouped (fingerprint : Fingerprint)
  | insufficient
  deriving DecidableEq, Repr

inductive GroupingError where
  | invalidProcessingResult
  deriving DecidableEq, Repr

abbrev Grouped (α : Type) := Except GroupingError α

/-- The tags that components are pushed under. -/
inductive ComponentTag where
  | crashType
  | signal
  | exception
  | assertion
  | projectFrame
  | engineFrame
  | unresolvedFrame
  | errorTemplate
  | platform
  | classificationConfidence
  | classificationEvidence
  | variantFrame
  deriving DecidableEq, Repr

def ComponentTag.text : ComponentTag → String
  | .crashType => "crash_type"
  | .signal => "signal"
  | .exception => "exception"
  | .assertion => "assertion"
  | .projectFrame => "project_frame"
  | .engineFrame => "engine_frame"
  | .unresolvedFrame => "unresolved_frame"
  | .errorTemplate => "error_template"
  | .platform => "platform"
  | .classificationConfidence => "classification_confidence"
  | .classificationEvidence => "classification_evidence"
  | .variantFrame => "variant_frame"

/-- A component as `push` leaves it: bounded and not empty. -/
structure Component where
  tag : ComponentTag
  value : Text
  nonempty : value ≠ []
  bounded : value.length ≤ maxComponentChars
  deriving DecidableEq

abbrev Components := List Component

def Components.push (components : Components) (tag : ComponentTag) (value : Text) : Components :=
  if h : bounded value maxComponentChars = [] then components
  else components ++ [⟨tag, bounded value maxComponentChars, h, List.length_take_le _ _⟩]

def Components.pushAll (components : Components) (tag : ComponentTag) (values : List Text) :
    Components :=
  values.foldl (fun components value => components.push tag value) components

inductive FrameCategory where
  | project
  | engine
  | system
  | unknown
  deriving DecidableEq, Repr

structure ResolvedFrame where
  category : FrameCategory
  component : Text
  module : Text
  function : Text
  deriving DecidableEq

structure ModuleIdentity where
  debugId : Option Text
  codeId : Option Text
  deriving DecidableEq

/-- Comparing the keys compares the two identifiers in turn, a missing one first. -/
def ModuleIdentity.key (identity : ModuleIdentity) : List (List Text) :=
  [identity.debugId.toList, identity.codeId.toList]

structure UnresolvedFrame where
  category : FrameCategory
  component : Text
  module : Text
  relative : Text
  deriving DecidableEq

structure FrameEvidence where
  project : List ResolvedFrame
  engine : List ResolvedFrame
  unresolved : List UnresolvedFrame
  variant : List Text
  deriving DecidableEq

def objectAtPath (value : Json) (path : List String) : Grouped JsonMap :=
  okOr ((value.pointer path).bind asObject) .invalidProcessingResult

def stringField (value : JsonMap) (field : String) : Grouped String :=
  okOr (strAt field value) .invalidProcessingResult

/-- `value.get(field).and_then(Value::as_str)`. -/
def textOf (field : String) (value : Json) : Option Text :=
  ((value.get field).bind asStr).map String.toList

def normalizedSignals (signals : List Json) : List Text :=
  sortDedup id (((signals.filterMap (textOf "kind")).filter fun kind =>
    ["gpu_crash".toList, "out_of_memory".toList].contains kind).map normalizeToken)

abbrev ModuleIdentities := SortedMap Text (List ModuleIdentity)

def moduleIdentity (module : Json) : ModuleIdentity where
  debugId := ((textOf "debug_id" module).map normalizeToken).filter (!·.isEmpty)
  codeId := ((textOf "code_id" module).map normalizeToken).filter (!·.isEmpty)

def addModule (identities : ModuleIdentities) (module : Json) : Grouped ModuleIdentities := do
  let name ← okOr (textOf "module" module) .invalidProcessingResult
  return alter (normalizeModule name) (fun entry =>
    sortDedup ModuleIdentity.key (entry.getD [] ++ [moduleIdentity module])) identities

def addModules : ModuleIdentities → List Json → Grouped ModuleIdentities
  | identities, [] => .ok identities
  | identities, module :: rest => do
    let identities ← addModule identities module
    addModules identities rest

def moduleIdentities (symbolication : JsonMap) : Grouped ModuleIdentities := do
  let modules ← okOr (arrayAt "modules" symbolication) .invalidProcessingResult
  addModules [] modules

def isFaulting (thread : Json) : Bool := (thread.get "faulting").bind asBool == some true

def faultingFrames (symbolication : JsonMap) : Grouped (List Json) :=
  okOr ((((arrayAt "threads" symbolication).bind (·.find? isFaulting)).bind
    (Json.get "frames")).bind asArray) .invalidProcessingResult

def isUnderEngineSource (path : Text) : Bool :=
  "engine/source/".toList.isPrefixOf (normalizePath path) ||
    contains "/engine/source/".toList (normalizePath path)

def frameCategory (module : Text) (sourcePaths : List Text) : FrameCategory :=
  if sourcePaths.any isUnderEngineSource || "unrealeditor-".toList.isPrefixOf module ||
      "ue4editor-".toList.isPrefixOf module || engineModules.any (eqIgnoreAsciiCase module) then
    .engine
  else if systemModules.any (eqIgnoreAsciiCase module) then .system
  else if module.isEmpty || module == "unknown".toList then .unknown
  else .project

def isResolved (frame : Json) : Bool := (frame.get "symbol_status").bind asStr == some "resolved"

def frameInlines (frame : Json) : Option (List Json) := (frame.get "inlines").bind asArray

def sourcePaths (frame : Json) : List Text :=
  (textOf "source_file" frame).toList ++
    ((frameInlines frame).getD []).filterMap (textOf "source_file")

def joined (separator : Char) : List Text → Text
  | [] => []
  | [last] => last
  | part :: rest => part ++ separator :: joined separator rest

def resolvedFrame (frame : Json) : Option ResolvedFrame := do
  if !isResolved frame then none
  else
    let module := normalizeModule (← textOf "module" frame)
    let function := normalizeFunction (← textOf "function" frame)
    if module.isEmpty || function.isEmpty then none
    else
      let inlines ← frameInlines frame
      let functions := ((inlines.filterMap (textOf "function")).map normalizeFunction).filter
        (!·.isEmpty)
      return {
        category := frameCategory module (sourcePaths frame)
        component := joined '|' [module, joined '>' (functions ++ [function])]
        module := module
        function := function }

def unresolvedFrame (modules : ModuleIdentities) (frame : Json) : Option UnresolvedFrame := do
  if isResolved frame then none
  else
    let module := normalizeModule (← textOf "module" frame)
    let relative ← normalizeRelative (← textOf "module_relative" frame)
    match ← get module modules with
    | [identity] =>
      if identity.debugId.isNone && identity.codeId.isNone then none
      else
        return {
          category := frameCategory module []
          component := joined '|'
            [module, identity.debugId.getD [], identity.codeId.getD [], relative]
          module := module
          relative := relative }
    | _ => none

/-- What the loop over the frames collects. -/
structure CollectedFrames where
  resolved : List ResolvedFrame
  unresolved : List UnresolvedFrame
  variant : List Text

def addVariant (variant : List Text) (value : Text) : List Text :=
  if variant.length < maxVariantFrames then variant ++ [value] else variant

def collectFrame (modules : ModuleIdentities) (collected : CollectedFrames) (frame : Json) :
    CollectedFrames :=
  match resolvedFrame frame with
  | some found =>
    { collected with
      variant := addVariant collected.variant ("resolved|".toList ++ found.component)
      resolved := collected.resolved ++ [found] }
  | none =>
    match unresolvedFrame modules frame with
    | some found =>
      { collected with
        variant := addVariant collected.variant ("unresolved|".toList ++ found.component)
        unresolved := collected.unresolved ++ [found] }
    | none => collected

def CollectedFrames.evidence (collected : CollectedFrames) : FrameEvidence :=
  let project := (collected.resolved.filter (·.category == .project)).take maxProjectFrames
  let engine :=
    if project.isEmpty then
      (collected.resolved.filter (·.category == .engine)).take maxEngineFrames
    else []
  let unresolved :=
    if project.isEmpty && engine.isEmpty then collected.unresolved.take maxUnresolvedFrames
    else []
  ⟨project, engine, unresolved, collected.variant⟩

def frameEvidence (symbolication : JsonMap) : Grouped FrameEvidence := do
  let modules ← moduleIdentities symbolication
  let frames ← faultingFrames symbolication
  return (frames.foldl (collectFrame modules) ⟨[], [], []⟩).evidence

def normalizedEvidence (evidence : List Json) : List Text :=
  (sortDedup id ((((evidence.filterMap asStr).map String.toList).map normalizeTemplate).filter
    (!·.isEmpty))).take 8

def addClassificationVariant (classification : Option JsonMap) (variant : Components) :
    Components :=
  match classification with
  | none => variant
  | some classification =>
    let variant := variant.pushAll .classificationConfidence
      ((strAt "confidence" classification).map (normalizeToken ·.toList)).toList
    variant.pushAll .classificationEvidence
      (((arrayAt "evidence" classification).map normalizedEvidence).getD [])

/-- What a fingerprint is made of. -/
structure Evidence where
  crashType : String
  classification : Option JsonMap
  signals : List Text
  exception : Option Text
  assertion : Option Text
  frames : FrameEvidence
  errorTemplate : Option Text
  platform : Option Text
  deriving DecidableEq

namespace Evidence

def specificError (e : Evidence) : Bool :=
  e.crashType == "assert" || e.crashType == "ensure" || !e.signals.isEmpty

def stableError (e : Evidence) : Bool :=
  e.assertion.isSome || e.specificError && e.errorTemplate.isSome

def isInsufficient (e : Evidence) : Bool :=
  e.frames.project.isEmpty && e.frames.engine.isEmpty && e.frames.unresolved.isEmpty &&
    !e.stableError

def platformSpecific (e : Evidence) : Bool :=
  e.signals.contains "gpu_crash".toList ||
    isSomeAnd e.frames.unresolved.head? (·.category == .system)

/-- The issue components, in the order of the pushes. -/
def issue (e : Evidence) : Components :=
  let issue := Components.push [] .crashType e.crashType.toList
  let issue := issue.pushAll .signal e.signals
  let issue := issue.pushAll .exception e.exception.toList
  let issue := issue.pushAll .assertion e.assertion.toList
  let issue := issue.pushAll .projectFrame (e.frames.project.map (·.component))
  let issue := issue.pushAll .engineFrame (e.frames.engine.map (·.component))
  let issue := issue.pushAll .unresolvedFrame (e.frames.unresolved.map (·.component))
  let issue := issue.pushAll .errorTemplate
    (if e.specificError && e.assertion.isNone then e.errorTemplate.toList else [])
  issue.pushAll .platform
    (if e.platformSpecific then (e.platform.map normalizeToken).toList else [])

def variant (e : Evidence) : Components :=
  (addClassificationVariant e.classification e.issue).pushAll .variantFrame e.frames.variant

def title (e : Evidence) : Text :=
  sanitizeTitle <|
    match e.frames.project.head?.or e.frames.engine.head? with
    | some frame => frame.function ++ " in ".toList ++ frame.module
    | none =>
      match e.frames.unresolved.head? with
      | some frame => frame.module ++ '+' :: frame.relative
      | none =>
        if e.signals.contains "gpu_crash".toList then "GPU crash".toList
        else if e.signals.contains "out_of_memory".toList then "Out of memory".toList
        else if e.crashType = "assert" then "Assertion failure".toList
        else if e.crashType = "ensure" then "Ensure failure".toList
        else "Crash".toList

def groupingQuality (e : Evidence) : Nat :=
  min e.frames.project.length 8 * 100 + min e.frames.engine.length 5 * 10 +
    min e.frames.unresolved.length 8 * 5 + e.assertion.isSome.toNat * 3 + e.stableError.toNat

end Evidence

def componentFields (c : Component) : List (List UInt8) :=
  [utf8 c.tag.text, utf8 (String.ofList c.value)]

/-- What is fed to the hash. -/
def digestInput (domain : String) (components : Components) : List UInt8 :=
  encodeFields (utf8 domain :: components.flatMap componentFields)

def lowerHex (bytes : List UInt8) : String :=
  String.ofList (bytes.flatMap fun b => [hexDigitChar (b.toNat / 16), hexDigitChar (b.toNat % 16)])

section Hashing
variable (unicode : Char → Bool) (sha256 : List UInt8 → List UInt8)

def digest (domain : String) (components : Components) : String :=
  lowerHex (sha256 (digestInput domain components))

def issueDomain : String := "faultlane:issue:stack:1"
def variantDomain : String := "faultlane:variant:stack:1"

def Evidence.outcome (e : Evidence) : GroupingOutcome :=
  if e.isInsufficient then .insufficient
  else
    .grouped {
      issueFingerprint := digest sha256 issueDomain e.issue
      variantFingerprint := digest sha256 variantDomain e.variant
      title := String.ofList e.title
      groupingQuality := e.groupingQuality }

def specificTemplate (value : Option String) : Option Text :=
  (value.map fun value => normalizeTemplate value.toList).filter (hasSpecificTemplateToken unicode)

def gatherEvidence (result : Json) : Grouped Evidence := do
  let context ← objectAtPath result ["crash_context"]
  let symbolication ← objectAtPath result ["current", "symbolication"]
  let crashType ← stringField context "crash_type"
  let classification := (result.get "classification").bind asObject
  let signals := ((classification.bind (arrayAt "signals")).map normalizedSignals).getD []
  let exception :=
    ((strAt "exception_reason" symbolication).map fun reason =>
      normalizeTemplate reason.toList).filter (!·.isEmpty)
  let assertion := specificTemplate unicode (strAt "assertion" symbolication)
  let frames ← frameEvidence symbolication
  let errorTemplate := specificTemplate unicode (strAt "error_message" context)
  let platform := (get "platform" context).bind (textOf "normalized")
  return ⟨crashType, classification, signals, exception, assertion, frames, errorTemplate,
    platform⟩

def fingerprint (result : Json) : Grouped GroupingOutcome := do
  (validateProcessingResult result none).mapError fun _ => GroupingError.invalidProcessingResult
  let evidence ← gatherEvidence unicode result
  return evidence.outcome sha256

end Hashing
end FaultLane.Grouping
