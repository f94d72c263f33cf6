import FaultLane.BoundedHistory
import FaultLane.CrashRequest
import FaultLane.Symbolication
import FaultLane.ProcessingContract

set_option autoImplicit false

/-!
# Building processing results

One processing attempt joined with the history of the result before it.
-/
namespace FaultLane.ProcessingResult
open Fallible BoundedHistory CrashContext CrashRequest Symbolication ProcessingContract

structure PreviousProcessing where
  current : Json
  history : List Json
  deriving DecidableEq

def crashGuid (context : CrashContextData) : Checked String :=
  okOr (context.crashGuid.filter (!isBlank ·)) .missingCrashIdentity

/-- `ProcessingAttempt`. -/
def attempt (parserVersion : Nat) (symbolication : SymbolicationResult) : Json :=
  Json.ofFields [("processing_version", Json.ofNat processingVersion),
    ("parser_version", Json.ofNat parserVersion), ("symbolication", symbolication.toJson)]

def resultFieldValues (guid : String) (context : CrashContextData)
    (request : Option CrashRequestManifest) (classification : Option CrashClassification)
    (log : Option CrashRequestLog) (current : Json) (history : List Json) :
    List (String × Json) :=
  [("schema_version", Json.ofNat resultSchemaVersion), ("crash_guid", .string guid),
    ("crash_context", context.toJson)] ++
    (Json.optionalField "request" (request.map CrashRequestManifest.toJson) ++
    (Json.optionalField "classification" (classification.map CrashClassification.toJson) ++
    (Json.optionalField "log" (log.map CrashRequestLog.toJson) ++
    [("current", current), ("history", .array history)])))

def pushBoundedHistory (history : List Json) (attempt : Json) : List Json :=
  pushBounded maxProcessingHistory history attempt

/-- An attempt that the new one repeats is not recorded again. -/
def nextHistory (previous : Option PreviousProcessing) (current : Json) : List Json :=
  match previous with
  | none => []
  | some previous =>
    if previous.current = current then previous.history
    else pushBoundedHistory previous.history previous.current

def buildProcessingResult (context : CrashContextData) (symbolication : SymbolicationResult)
    (previous : Option PreviousProcessing) (request : Option CrashRequestManifest)
    (classification : Option CrashClassification) (log : Option CrashRequestLog) :
    Checked Json := do
  let guid ← crashGuid context
  let current := attempt context.parserVersion symbolication
  return Json.ofFields (resultFieldValues guid context request classification log current
    (nextHistory previous current))

/-- `fromSlice` is `serde_json::from_slice`. -/
def parsePreviousProcessing (fromSlice : List UInt8 → Option Json) (bytes : List UInt8)
    (guid : String) : Checked PreviousProcessing := do
  let result ← okOr (fromSlice bytes) .invalidPrevious
  validateProcessingResult result (some guid)
  let result ← okOr result.asObject .invalidPrevious
  let current ← okOr (SortedMap.get "current" result) .invalidPrevious
  let history ← okOr (Json.arrayAt "history" result) .invalidPrevious
  return ⟨current, history⟩

/-- `previous.map(|bytes| parse_previous_processing(bytes, guid)).transpose()`. -/
def parseOptionalPrevious (fromSlice : List UInt8 → Option Json) (stored : Option (List UInt8))
    (guid : String) : Checked (Option PreviousProcessing) :=
  match stored with
  | none => .ok none
  | some bytes => (parsePreviousProcessing fromSlice bytes guid).map some

/-- What one run of the processor has to join. -/
structure ProcessingInput where
  document : XmlDocument
  includeCommandLine : Bool
  symbolication : SymbolicationResult
  request : Option CrashRequestManifest
  classification : Option CrashClassification
  log : Option CrashRequestLog

def ProcessingInput.context (input : ProcessingInput) : CrashContextData :=
  extract input.document input.includeCommandLine

def ProcessingInput.attempt (input : ProcessingInput) : Json :=
  ProcessingResult.attempt input.context.parserVersion input.symbolication

def ProcessingInput.build (input : ProcessingInput) (previous : Option PreviousProcessing) :
    Checked Json :=
  buildProcessingResult input.context input.symbolication previous input.request
    input.classification input.log

/-- The end of the pipeline: the stored result is checked for the crash, then the new one built. -/
def reprocess (fromSlice : List UInt8 → Option Json) (input : ProcessingInput)
    (stored : Option (List UInt8)) : Checked Json := do
  let guid ← crashGuid input.context
  let previous ← parseOptionalPrevious fromSlice stored guid
  input.build previous

end FaultLane.ProcessingResult
