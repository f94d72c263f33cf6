import FaultLane.DashboardOverview
import FaultLane.ProcessingContract

set_option autoImplicit false

/-!
# The event detail

What `load_event_detail` shows of the stored result of an event. The rows that it reads from
other tables are left out.
-/
namespace FaultLane.DetailViews
open Fallible Json RustText ProcessingContract
open DashboardOverview (truncateText)

inductive DashboardError where
  | resultUnavailable
  deriving DecidableEq, Repr

abbrev Shown (α : Type) := Except DashboardError α

def maxTextBytes : Nat := 4096
def maxCommentBytes : Nat := 8192
def maxLogBytes : Nat := 64 * 1024
def maxProperties : Nat := 100
def maxThreads : Nat := 128
def maxFrames : Nat := 256
def maxInlines : Nat := 64

/-- `ok_or(DashboardError::ResultUnavailable)`. -/
def available {α : Type} (value : Option α) : Shown α := okOr value .resultUnavailable

def textAt (key : String) (object : JsonMap) : Option Text := (strAt key object).map String.toList

def optionalBounded (value : Option Text) (maximum : Nat) : Option Text × Bool :=
  match value.map (truncateText · maximum) with
  | none => (none, false)
  | some (value, truncated) => (some value, truncated)

/-! ## Classification -/

structure SignalView where
  kind : Text
  confidence : Text
  evidence : List Text
  truncated : Bool
  deriving DecidableEq

structure ClassificationView where
  crashType : Text
  confidence : Text
  evidence : List Text
  signals : List SignalView
  truncated : Bool
  deriving DecidableEq

def boundedStringValues (value : Json) (maximumCount maximumBytes : Nat) :
    Option (List Text × Bool) := do
  let values ← value.asArray
  let bounded ← (values.take maximumCount).mapM fun value =>
    value.asStr.map fun text => truncateText text.toList maximumBytes
  some (bounded.map Prod.fst, maximumCount < values.length || bounded.any Prod.snd)

def signalView (signal : Json) : Option SignalView := do
  let signal ← signal.asObject
  let (kind, kindTruncated) := truncateText (← textAt "kind" signal) 128
  let (confidence, confidenceTruncated) := truncateText (← textAt "confidence" signal) 128
  let (evidence, evidenceTruncated) ←
    boundedStringValues (← SortedMap.get "evidence" signal) 32 128
  some ⟨kind, confidence, evidence, kindTruncated || confidenceTruncated || evidenceTruncated⟩

def classificationView (value : Option Json) : Option ClassificationView := do
  let object ← (← value).asObject
  let crashType ← textAt "crash_type" object
  let confidence ← textAt "confidence" object
  let (crashType, crashTypeTruncated) := truncateText crashType 128
  let (confidence, confidenceTruncated) := truncateText confidence 128
  let (evidence, evidenceTruncated) ←
    boundedStringValues (← SortedMap.get "evidence" object) 32 128
  let signalValues ← arrayAt "signals" object
  let signals ← (signalValues.take 16).mapM signalView
  let signalsTruncated := 16 < signalValues.length || signals.any SignalView.truncated
  some ⟨crashType, confidence, evidence, signals,
    crashTypeTruncated || confidenceTruncated || evidenceTruncated || signalsTruncated⟩

/-! ## Properties -/

structure PropertyView where
  name : Text
  nameTruncated : Bool
  value : Text
  valueTruncated : Bool
  deriving DecidableEq

def propertyView (property : Json) : Shown PropertyView := do
  let property ← available property.asObject
  let name ← available (textAt "name" property)
  let value ← available (textAt "value" property)
  let (name, nameTruncated) := truncateText name 256
  let (value, valueTruncated) := truncateText value maxTextBytes
  .ok ⟨name, nameTruncated, value, valueTruncated⟩

def propertyViews (value : Option Json) : Shown (List PropertyView × Bool) := do
  let values ← available (value.bind asArray)
  let properties ← (values.take maxProperties).mapM propertyView
  .ok (properties, maxProperties < values.length)

/-! ## Log -/

structure LogView where
  name : Text
  text : Text
  truncated : Bool
  invalidUtf8 : Bool
  downloadPath : Text
  deriving DecidableEq

def downloadPath (projectId issueId eventId : Text) : Text :=
  "/api/v1/projects/".toList ++ projectId ++ "/issues/".toList ++ issueId ++
    "/events/".toList ++ eventId ++ "/log".toList

def logView (projectId issueId eventId : Text) (log : Json) : Shown LogView := do
  let log ← available log.asObject
  let tail ← available (objectAt "tail" log)
  let name ← available (textAt "name" log)
  let text ← available (textAt "text" tail)
  let sourceTruncated ← available (boolAt "truncated" tail)
  let invalidUtf8 ← available (boolAt "invalid_utf8" tail)
  let (name, nameTruncated) := truncateText name 256
  let (text, responseTruncated) := truncateText text maxLogBytes
  .ok ⟨name, text, nameTruncated || sourceTruncated || responseTruncated, invalidUtf8,
    downloadPath projectId issueId eventId⟩

def projectLog (projectId issueId eventId : Text) (result : Json) : Shown (Option LogView) :=
  match result.get "log" with
  | none => .ok none
  | some log =>
    if log.isNull then .ok none
    else (logView projectId issueId eventId log).map some

/-! ## Threads -/

structure InlineView where
  function : Text
  sourceFile : Option Text
  sourceLine : Option Nat
  truncated : Bool
  deriving DecidableEq

structure FrameView where
  instruction : Text
  module : Option Text
  moduleRelative : Option Text
  trust : Text
  symbolStatus : Text
  function : Option Text
  sourceFile : Option Text
  sourceLine : Option Nat
  inlines : List InlineView
  inlinesTruncated : Bool
  truncated : Bool
  deriving DecidableEq

structure ThreadView where
  threadId : Nat
  faulting : Bool
  name : Option Text
  nameTruncated : Bool
  unwindStatus : Text
  unwindStatusTruncated : Bool
  framesTruncated : Bool
  frames : List FrameView
  deriving DecidableEq

def inlineView (inline : Json) : Shown InlineView := do
  let inline ← available inline.asObject
  let (function, functionTruncated) :=
    truncateText (← available (textAt "function" inline)) maxTextBytes
  let (sourceFile, sourceFileTruncated) :=
    optionalBounded (textAt "source_file" inline) maxTextBytes
  .ok ⟨function, sourceFile, u64At "source_line" inline, functionTruncated || sourceFileTruncated⟩

def frameView (value : Json) : Shown FrameView := do
  let frame ← available value.asObject
  let inlines ← available (arrayAt "inlines" frame)
  let inlineViews ← (inlines.take maxInlines).mapM inlineView
  let (instruction, instructionTruncated) :=
    truncateText (← available (textAt "instruction" frame)) 128
  let (module, moduleTruncated) := optionalBounded (textAt "module" frame) maxTextBytes
  let (moduleRelative, moduleRelativeTruncated) :=
    optionalBounded (textAt "module_relative" frame) maxTextBytes
  let (trust, trustTruncated) := truncateText (← available (textAt "trust" frame)) 128
  let (symbolStatus, symbolStatusTruncated) :=
    truncateText (← available (textAt "symbol_status" frame)) 128
  let (function, functionTruncated) := optionalBounded (textAt "function" frame) maxTextBytes
  let (sourceFile, sourceFileTruncated) :=
    optionalBounded (textAt "source_file" frame) maxTextBytes
  let inlinesTruncated : Bool := maxInlines < inlines.length
  .ok ⟨instruction, module, moduleRelative, trust, symbolStatus, function, sourceFile,
    u64At "source_line" frame, inlineViews, inlinesTruncated,
    instructionTruncated || moduleTruncated || moduleRelativeTruncated || trustTruncated ||
      symbolStatusTruncated || functionTruncated || sourceFileTruncated || inlinesTruncated⟩

def threadView (thread : Json) : Shown ThreadView := do
  let thread ← available thread.asObject
  let frames ← available (arrayAt "frames" thread)
  let frameViews ← (frames.take maxFrames).mapM frameView
  let (name, nameTruncated) := optionalBounded (textAt "name" thread) maxTextBytes
  let (unwindStatus, unwindStatusTruncated) :=
    truncateText (← available (textAt "unwind_status" thread)) 128
  let threadId ← available (u64At "thread_id" thread)
  let faulting ← available (boolAt "faulting" thread)
  let framesTruncated ← available (boolAt "frames_truncated" thread)
  .ok ⟨threadId, faulting, name, nameTruncated, unwindStatus, unwindStatusTruncated,
    framesTruncated || maxFrames < frames.length, frameViews⟩

def threadViews (value : Option Json) : Shown (List ThreadView × Bool) := do
  let threads ← available (value.bind asArray)
  let views ← (threads.take maxThreads).mapM threadView
  .ok (views, maxThreads < threads.length)

/-! ## Detail -/

structure EventDetail where
  crashGuid : Option Text
  crashGuidTruncated : Bool
  classification : Option ClassificationView
  errorMessage : Option Text
  errorMessageTruncated : Bool
  buildVersion : Option Text
  buildVersionTruncated : Bool
  buildConfiguration : Option Text
  buildConfigurationTruncated : Bool
  userComment : Option Text
  userCommentTruncated : Bool
  gameData : List PropertyView
  gameDataTruncated : Bool
  systemContext : List PropertyView
  systemContextTruncated : Bool
  log : Option LogView
  threads : List ThreadView
  threadsTruncated : Bool

/-- `load_event_detail` from the row's `crash_guid` and `result` on. -/
def loadEventDetail (projectId issueId eventId : Text) (crashGuid : Option String)
    (result : Option Json) : Shown EventDetail := do
  let result ← available result
  let _ ← (validateProcessingResult result crashGuid).mapError fun _ => .resultUnavailable
  let context ← available ((result.get "crash_context").bind asObject)
  let (errorMessage, errorMessageTruncated) :=
    optionalBounded (textAt "error_message" context) maxTextBytes
  let (userComment, userCommentTruncated) :=
    optionalBounded (textAt "user_comment" context) maxCommentBytes
  let (crashGuid, crashGuidTruncated) :=
    optionalBounded (crashGuid.map String.toList) maxTextBytes
  let (buildVersion, buildVersionTruncated) :=
    optionalBounded (textAt "build_version" context) maxTextBytes
  let (buildConfiguration, buildConfigurationTruncated) :=
    optionalBounded (textAt "build_configuration" context) maxTextBytes
  let (gameData, gameDataTruncated) ← propertyViews (SortedMap.get "game_data" context)
  let (systemContext, systemContextTruncated) ←
    propertyViews (SortedMap.get "system_metadata" context)
  let classification := classificationView (result.get "classification")
  let log ← projectLog projectId issueId eventId result
  let (threads, threadsTruncated) ←
    threadViews (result.pointer ["current", "symbolication", "threads"])
  .ok ⟨crashGuid, crashGuidTruncated, classification, errorMessage, errorMessageTruncated,
    buildVersion, buildVersionTruncated, buildConfiguration, buildConfigurationTruncated,
    userComment, userCommentTruncated, gameData, gameDataTruncated, systemContext,
    systemContextTruncated, log, threads, threadsTruncated⟩

end FaultLane.DetailViews
