import FaultLane.Fallible
import FaultLane.CrashContext

set_option autoImplicit false

/-!
# The processing result contract

The hand-written validators of the shared result, in the order of their checks and
with the error each check gives.
-/
namespace FaultLane.ProcessingContract
open Fallible RustText SortedMap Json
open CrashContext (crashContextParserVersion)

inductive ProcessingResultError where
  | missingCrashIdentity
  | invalidPrevious
  | unsupportedPreviousSchema
  | unsupportedPreviousProcessing
  | previousIdentityMismatch
  | previousHistoryTooLong
  | serialize
  deriving DecidableEq, Repr

abbrev Checked (α : Type) := Except ProcessingResultError α

def resultSchemaVersion : Nat := 1
def processingVersion : Nat := 2
def maxProcessingHistory : Nat := 16

def onlyKeys (object : JsonMap) (allowed : List String) : Bool :=
  (keys object).all allowed.contains

def nullableString (value : Json) : Bool := value.isNull || value.isString

def nullableU64 (value : Json) : Bool := value.isNull || value.isU64

def validCrashType (value : String) : Bool :=
  ["crash", "assert", "ensure", "unknown"].contains value

def validConfidence (value : String) : Bool := ["high", "medium", "low"].contains value

def stringArray (value : Json) : Bool := isSomeAnd value.asArray (·.all Json.isString)

def validateArray (object : JsonMap) (field : String) (validator : Json → Checked Unit) :
    Checked Unit := do
  let values ← okOr (arrayAt field object) .invalidPrevious
  forEach validator values

def validateStringObject (fields : List String) (value : Json) : Checked Unit := do
  let object ← okOr value.asObject .invalidPrevious
  refuse (object.length != fields.length || !onlyKeys object fields ||
    fields.any fun field => isNoneOr (get field object) (!·.isString)) .invalidPrevious

def validateNormalizedValue : Json → Checked Unit :=
  validateStringObject ["original", "normalized"]

def validateProperty : Json → Checked Unit := validateStringObject ["name", "value"]

def contextThreadFields : List String :=
  ["call_stack", "crash_marker", "registers", "thread_id", "thread_name"]

def validateContextThread (value : Json) : Checked Unit := do
  let thread ← okOr value.asObject .invalidPrevious
  refuse (thread.length != contextThreadFields.length || !onlyKeys thread contextThreadFields ||
    contextThreadFields.any fun field => isNoneOr (get field thread) (!nullableString ·))
    .invalidPrevious

def validateUnknownSection (fields : Json) : Checked Unit := do
  let fields ← okOr fields.asObject .invalidPrevious
  refuse ((values fields).any fun values => isNoneOr values.asArray (·.any (!·.isString)))
    .invalidPrevious

def validateUnknownFields (value : Json) : Checked Unit := do
  let sections ← okOr value.asObject .invalidPrevious
  forEach validateUnknownSection (values sections)

def crashContextFields : List String :=
  ["parser_version", "crash_guid", "crash_type", "error_message", "build_version",
    "engine_version", "platform", "architecture", "build_configuration", "command_line",
    "modules", "threads", "system_metadata", "user_comment", "game_data", "unknown_fields"]

def nullableContextFields : List String :=
  ["error_message", "build_version", "engine_version", "architecture", "build_configuration",
    "user_comment"]

def validateCrashContext (context : JsonMap) : Checked Unit := do
  refuse (!(context.length == 15 || context.length == 16) ||
    !onlyKeys context crashContextFields ||
    u64At "parser_version" context != some crashContextParserVersion ||
    !isSomeAnd (get "crash_guid" context) nullableString ||
    !isSomeAnd (strAt "crash_type" context) validCrashType ||
    (nullableContextFields.any fun field => isNoneOr (get field context) (!nullableString ·)) ||
    isSomeAnd (get "command_line" context) (!·.isString) ||
    isNoneOr (get "platform" context)
      (fun value => !value.isNull && !(validateNormalizedValue value).isOk)) .invalidPrevious
  validateArray context "modules" validateNormalizedValue
  validateArray context "threads" validateContextThread
  validateArray context "system_metadata" validateProperty
  validateArray context "game_data" validateProperty
  let unknownFields ← okOr (get "unknown_fields" context) .invalidPrevious
  validateUnknownFields unknownFields

def requestKinds : List String := ["crash_context", "minidump", "log", "unknown"]

def validateRequestFile (value : Json) : Checked Unit := do
  let file ← okOr value.asObject .invalidPrevious
  refuse (file.length != 4 || !onlyKeys file ["index", "name", "size", "kind"] ||
    (u64At "index" file).isNone || (strAt "name" file).isNone || (u64At "size" file).isNone ||
    !isSomeAnd (strAt "kind" file) requestKinds.contains) .invalidPrevious

def requestFields : List String :=
  ["schema_version", "envelope", "directory_name", "archive_name", "compressed_size",
    "expanded_size", "files"]

def validateRequest (value : Json) : Checked Unit := do
  let request ← okOr value.asObject .invalidPrevious
  refuse (request.length != 7 || !onlyKeys request requestFields ||
    u64At "schema_version" request != some 1 || strAt "envelope" request != some "cr1" ||
    (["directory_name", "archive_name"].any fun field => (strAt field request).isNone) ||
    (["compressed_size", "expanded_size"].any fun field => (u64At field request).isNone))
    .invalidPrevious
  validateArray request "files" validateRequestFile

def signalKinds : List String := ["gpu_crash", "out_of_memory"]

def validateSignal (value : Json) : Checked Unit := do
  let signal ← okOr value.asObject .invalidPrevious
  refuse (signal.length != 3 || !onlyKeys signal ["kind", "confidence", "evidence"] ||
    !isSomeAnd (strAt "kind" signal) signalKinds.contains ||
    !isSomeAnd (strAt "confidence" signal) validConfidence ||
    !isSomeAnd (get "evidence" signal) stringArray) .invalidPrevious

def validateClassification (value : Json) : Checked Unit := do
  let classification ← okOr value.asObject .invalidPrevious
  refuse (classification.length != 4 ||
    !onlyKeys classification ["crash_type", "confidence", "evidence", "signals"] ||
    !isSomeAnd (strAt "crash_type" classification) validCrashType ||
    !isSomeAnd (strAt "confidence" classification) validConfidence ||
    !isSomeAnd (get "evidence" classification) stringArray) .invalidPrevious
  validateArray classification "signals" validateSignal

def validateLog (value : Json) : Checked Unit := do
  let log ← okOr value.asObject .invalidPrevious
  refuse (log.length != 2 || !onlyKeys log ["name", "tail"] || (strAt "name" log).isNone)
    .invalidPrevious
  let tail ← okOr (objectAt "tail" log) .invalidPrevious
  refuse (tail.length != 3 || !onlyKeys tail ["text", "truncated", "invalid_utf8"] ||
    (strAt "text" tail).isNone || (boolAt "truncated" tail).isNone ||
    (boolAt "invalid_utf8" tail).isNone) .invalidPrevious

def validateInline (value : Json) : Checked Unit := do
  let inline ← okOr value.asObject .invalidPrevious
  refuse (inline.length != 3 || !onlyKeys inline ["function", "source_file", "source_line"] ||
    (strAt "function" inline).isNone ||
    isNoneOr (get "source_file" inline) (!nullableString ·) ||
    isNoneOr (get "source_line" inline) (!nullableU64 ·)) .invalidPrevious

def frameFields : List String :=
  ["instruction", "module", "module_relative", "trust", "symbol_status", "function",
    "source_file", "source_line", "inlines"]

def frameStatuses : List String :=
  ["resolved", "unresolved", "missing_pe", "missing_pdb", "mismatched", "missing_identity",
    "unknown_module"]

def validateFrame (value : Json) : Checked Unit := do
  let frame ← okOr value.asObject .invalidPrevious
  refuse (frame.length != 9 || !onlyKeys frame frameFields ||
    (strAt "instruction" frame).isNone || isNoneOr (strAt "trust" frame) (·.isEmpty) ||
    !isSomeAnd (strAt "symbol_status" frame) frameStatuses.contains ||
    (["module", "module_relative", "function", "source_file"].any fun field =>
      isNoneOr (get field frame) (!nullableString ·)) ||
    isNoneOr (get "source_line" frame) (!nullableU64 ·) ||
    !isSomeAnd (get "inlines" frame) Json.isArray) .invalidPrevious
  let inlines ← okOr (arrayAt "inlines" frame) .invalidPrevious
  forEach validateInline inlines

def threadFields : List String :=
  ["thread_id", "faulting", "name", "unwind_status", "frames_truncated", "frames"]

def unwindStatuses : List String :=
  ["ok", "missing_context", "missing_memory", "unsupported_cpu", "dump_thread_skipped"]

def validateThread (value : Json) : Checked Unit := do
  let thread ← okOr value.asObject .invalidPrevious
  refuse (thread.length != 6 || !onlyKeys thread threadFields ||
    (u64At "thread_id" thread).isNone || (boolAt "faulting" thread).isNone ||
    isNoneOr (get "name" thread) (!nullableString ·) ||
    !isSomeAnd (strAt "unwind_status" thread) unwindStatuses.contains ||
    (boolAt "frames_truncated" thread).isNone ||
    !isSomeAnd (get "frames" thread) Json.isArray) .invalidPrevious
  let frames ← okOr (arrayAt "frames" thread) .invalidPrevious
  forEach validateFrame frames

def validateThreads (threads : List Json) : Checked Unit := forEach validateThread threads

def moduleFields : List String :=
  ["module", "base_address", "size", "code_id", "debug_id", "status", "pe", "pdb",
    "symcache_format"]

def moduleStatuses : List String :=
  ["matched", "missing_pe", "missing_pdb", "mismatched", "missing_identity"]

def validateModule (value : Json) : Checked Unit := do
  let module ← okOr value.asObject .invalidPrevious
  refuse (!onlyKeys module moduleFields || !(module.length == 8 || module.length == 9) ||
    (strAt "module" module).isNone || (strAt "base_address" module).isNone ||
    (u64At "size" module).isNone ||
    !isSomeAnd (strAt "status" module) moduleStatuses.contains ||
    (["code_id", "debug_id", "pe", "pdb"].any fun field =>
      isNoneOr (get field module) (!nullableString ·)) ||
    isSomeAnd (get "symcache_format" module) (!·.isU64)) .invalidPrevious

def validateModules (modules : List Json) : Checked Unit := forEach validateModule modules

def versionFields : List String :=
  ["symbolicator_version", "minidump_version", "minidump_processor_version",
    "minidump_unwind_version"]

/-- The second schema adds two members to the first. -/
def symbolicationFields (version : Nat) : List String :=
  ["schema_version", "symbolicator_version", "minidump_version", "minidump_processor_version",
    "minidump_unwind_version", "platform", "architecture", "faulting_thread_id", "modules",
    "threads"] ++ if version = 1 then [] else ["exception_reason", "assertion"]

def validateSymbolicationHeader (symbolication : JsonMap) (version : Nat) : Checked Unit := do
  refuse (symbolication.length != (symbolicationFields version).length ||
    !onlyKeys symbolication (symbolicationFields version) ||
    u64At "schema_version" symbolication != some (if version = 1 then 1 else 2) ||
    strAt "platform" symbolication != some "windows" ||
    strAt "architecture" symbolication != some "x86_64" ||
    !isSomeAnd (get "modules" symbolication) Json.isArray ||
    !isSomeAnd (get "threads" symbolication) Json.isArray) .invalidPrevious
  refuse (version == 2 && ["exception_reason", "assertion"].any fun field =>
    isNoneOr (get field symbolication) (!nullableString ·)) .invalidPrevious
  refuse (versionFields.any fun field => isNoneOr (strAt field symbolication) (·.isEmpty))
    .invalidPrevious
  let faultingThread ← okOr (get "faulting_thread_id" symbolication) .invalidPrevious
  refuse (!faultingThread.isNull && !faultingThread.isU64) .invalidPrevious

def validateSymbolication (symbolication : Json) (version : Nat) : Checked Unit := do
  let symbolication ← okOr symbolication.asObject .invalidPrevious
  validateSymbolicationHeader symbolication version
  let modules ← okOr (arrayAt "modules" symbolication) .invalidPrevious
  validateModules modules
  let threads ← okOr (arrayAt "threads" symbolication) .invalidPrevious
  validateThreads threads

/-- A version beyond the present one is unsupported, no version is no attempt. -/
def attemptVersion (attempt : JsonMap) : Checked Nat :=
  match u64At "processing_version" attempt with
  | some version =>
    if 1 ≤ version ∧ version ≤ processingVersion then .ok version
    else .error .unsupportedPreviousProcessing
  | none => .error .invalidPrevious

def validateAttempt (value : Json) : Checked Unit := do
  let attempt ← okOr value.asObject .invalidPrevious
  refuse (attempt.length != 3 || !containsKey "parser_version" attempt ||
    !isSomeAnd (get "symbolication" attempt) Json.isObject) .invalidPrevious
  let version ← attemptVersion attempt
  refuse (!isSomeAnd (get "parser_version" attempt) Json.isU64) .invalidPrevious
  let symbolication ← okOr (get "symbolication" attempt) .invalidPrevious
  validateSymbolication symbolication version

def resultFields : List String :=
  ["schema_version", "crash_guid", "crash_context", "request", "classification", "log",
    "current", "history"]

/-- `value.trim().is_empty()`. -/
def isBlank (value : String) : Bool := (trim value.toList).isEmpty

def validateSchemaVersion (result : JsonMap) : Checked Unit :=
  match u64At "schema_version" result with
  | some version =>
    if version = resultSchemaVersion then .ok () else .error .unsupportedPreviousSchema
  | none => .error .invalidPrevious

/-- A member that may be absent. -/
def validateOptional (field : String) (validator : Json → Checked Unit) (result : JsonMap) :
    Checked Unit :=
  match get field result with
  | none => .ok ()
  | some value => validator value

def validateProcessingContract (result : Json) (expectedCrashGuid : Option String)
    (requireCurrent : Bool) : Checked Unit := do
  let result ← okOr result.asObject .invalidPrevious
  refuse (!onlyKeys result resultFields) .invalidPrevious
  validateSchemaVersion result
  let crashGuid ← okOr ((strAt "crash_guid" result).filter (!isBlank ·)) .invalidPrevious
  refuse (isSomeAnd expectedCrashGuid (· != crashGuid)) .previousIdentityMismatch
  let history ← okOr (arrayAt "history" result) .invalidPrevious
  refuse (maxProcessingHistory < history.length) .previousHistoryTooLong
  let current ← okOr (get "current" result) .invalidPrevious
  refuse (requireCurrent &&
    (current.get "processing_version").bind asU64 != some processingVersion)
    .unsupportedPreviousProcessing
  validateAttempt current
  forEach validateAttempt history
  let context ← okOr (objectAt "crash_context" result) .invalidPrevious
  refuse (strAt "crash_guid" context != some crashGuid) .previousIdentityMismatch
  validateCrashContext context
  refuse ((current.get "parser_version").bind asU64 != u64At "parser_version" context)
    .invalidPrevious
  validateOptional "request" validateRequest result
  validateOptional "classification" validateClassification result
  validateOptional "log" validateLog result

def validateProcessingResult (result : Json) (expectedCrashGuid : Option String) : Checked Unit :=
  validateProcessingContract result expectedCrashGuid false

def validateCurrentProcessingResult (result : Json) (expectedCrashGuid : Option String) :
    Checked Unit :=
  validateProcessingContract result expectedCrashGuid true

end FaultLane.ProcessingContract
