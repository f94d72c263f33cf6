import FaultLane.JsonValue

set_option autoImplicit false

/-!
# Symbolication results

The result of walking one minidump, and the form in which it is serialized. Addresses
are texts here, as in the source.
-/
namespace FaultLane.Symbolication

def symbolicationSchemaVersion : Nat := 2

inductive ModuleSymbolStatus where
  | matched
  | missingPe
  | missingPdb
  | mismatched
  | missingIdentity
  deriving DecidableEq, Repr

def ModuleSymbolStatus.text : ModuleSymbolStatus → String
  | .matched => "matched"
  | .missingPe => "missing_pe"
  | .missingPdb => "missing_pdb"
  | .mismatched => "mismatched"
  | .missingIdentity => "missing_identity"

structure SymbolicatedModule where
  module : String
  baseAddress : String
  size : Nat
  codeId : Option String
  debugId : Option String
  status : ModuleSymbolStatus
  pe : Option String
  pdb : Option String
  symcacheFormat : Option Nat
  deriving DecidableEq, Repr

inductive FrameSymbolStatus where
  | resolved
  | unresolved
  | missingPe
  | missingPdb
  | mismatched
  | missingIdentity
  | unknownModule
  deriving DecidableEq, Repr

def FrameSymbolStatus.text : FrameSymbolStatus → String
  | .resolved => "resolved"
  | .unresolved => "unresolved"
  | .missingPe => "missing_pe"
  | .missingPdb => "missing_pdb"
  | .mismatched => "mismatched"
  | .missingIdentity => "missing_identity"
  | .unknownModule => "unknown_module"

structure InlineSymbol where
  function : String
  sourceFile : Option String
  sourceLine : Option Nat
  deriving DecidableEq, Repr

structure SymbolicatedFrame where
  instruction : String
  module : Option String
  moduleRelative : Option String
  trust : String
  symbolStatus : FrameSymbolStatus
  function : Option String
  sourceFile : Option String
  sourceLine : Option Nat
  inlines : List InlineSymbol
  deriving DecidableEq, Repr

inductive ThreadUnwindStatus where
  | ok
  | missingContext
  | missingMemory
  | unsupportedCpu
  | dumpThreadSkipped
  deriving DecidableEq, Repr

def ThreadUnwindStatus.text : ThreadUnwindStatus → String
  | .ok => "ok"
  | .missingContext => "missing_context"
  | .missingMemory => "missing_memory"
  | .unsupportedCpu => "unsupported_cpu"
  | .dumpThreadSkipped => "dump_thread_skipped"

structure SymbolicatedThread where
  threadId : Nat
  faulting : Bool
  name : Option String
  unwindStatus : ThreadUnwindStatus
  framesTruncated : Bool
  frames : List SymbolicatedFrame
  deriving DecidableEq, Repr

/-- `build_result` is the one place a result is made, and it writes the schema version, the
platform and the architecture. -/
structure SymbolicationResult where
  schemaVersion : Nat
  symbolicatorVersion : String
  minidumpVersion : String
  minidumpProcessorVersion : String
  minidumpUnwindVersion : String
  platform : String
  architecture : String
  faultingThreadId : Option Nat
  exceptionReason : Option String
  assertion : Option String
  modules : List SymbolicatedModule
  threads : List SymbolicatedThread
  schemaVersion_eq : schemaVersion = symbolicationSchemaVersion
  platform_eq : platform = "windows"
  architecture_eq : architecture = "x86_64"

section Serialization
open Json

/-- The cache format is left out when there is none. -/
def SymbolicatedModule.fields (m : SymbolicatedModule) : List (String × Json) :=
  [("module", .string m.module), ("base_address", .string m.baseAddress),
    ("size", ofNat m.size), ("code_id", ofOptionalString m.codeId),
    ("debug_id", ofOptionalString m.debugId), ("status", .string m.status.text),
    ("pe", ofOptionalString m.pe), ("pdb", ofOptionalString m.pdb)] ++
    optionalField "symcache_format" (m.symcacheFormat.map ofNat)

def SymbolicatedModule.toJson (m : SymbolicatedModule) : Json := ofFields m.fields

def InlineSymbol.toJson (i : InlineSymbol) : Json :=
  ofFields [("function", .string i.function), ("source_file", ofOptionalString i.sourceFile),
    ("source_line", ofOptionalNat i.sourceLine)]

def SymbolicatedFrame.toJson (f : SymbolicatedFrame) : Json :=
  ofFields
    [("instruction", .string f.instruction), ("module", ofOptionalString f.module),
      ("module_relative", ofOptionalString f.moduleRelative), ("trust", .string f.trust),
      ("symbol_status", .string f.symbolStatus.text), ("function", ofOptionalString f.function),
      ("source_file", ofOptionalString f.sourceFile), ("source_line", ofOptionalNat f.sourceLine),
      ("inlines", .array (f.inlines.map InlineSymbol.toJson))]

def SymbolicatedThread.toJson (t : SymbolicatedThread) : Json :=
  ofFields
    [("thread_id", ofNat t.threadId), ("faulting", .bool t.faulting),
      ("name", ofOptionalString t.name), ("unwind_status", .string t.unwindStatus.text),
      ("frames_truncated", .bool t.framesTruncated),
      ("frames", .array (t.frames.map SymbolicatedFrame.toJson))]

def SymbolicationResult.fields (r : SymbolicationResult) : List (String × Json) :=
  [("schema_version", ofNat r.schemaVersion),
    ("symbolicator_version", .string r.symbolicatorVersion),
    ("minidump_version", .string r.minidumpVersion),
    ("minidump_processor_version", .string r.minidumpProcessorVersion),
    ("minidump_unwind_version", .string r.minidumpUnwindVersion),
    ("platform", .string r.platform), ("architecture", .string r.architecture),
    ("faulting_thread_id", ofOptionalNat r.faultingThreadId),
    ("exception_reason", ofOptionalString r.exceptionReason),
    ("assertion", ofOptionalString r.assertion),
    ("modules", .array (r.modules.map SymbolicatedModule.toJson)),
    ("threads", .array (r.threads.map SymbolicatedThread.toJson))]

def SymbolicationResult.toJson (r : SymbolicationResult) : Json := ofFields r.fields

end Serialization
end FaultLane.Symbolication
