import FaultLane.CrashSymbols
import FaultLane.Grouping
import FaultLane.SymCacheResolution
import Mathlib.Data.List.Sort

set_option autoImplicit false

/-!
# Symbolicating a dump

What the modules of a dump get from the scanned artifacts of a directory, and the result that is
built from the walked stacks. Reading the dump and walking its stacks are parameters.
-/
namespace FaultLane.DumpSymbolication
open Fallible RustText Symbolication SymCacheResolution
open CrashSymbols (ArtifactType SelectedArtifact asciiUppercase sameIgnoringCase)
open Grouping (lowerHex)

def maxArtifacts : Nat := 512
def maxThreads : Nat := 512
def maxModules : Nat := 4096
def maxFramesPerThread : Nat := 512
def maxExceptionReasonChars : Nat := 512
def maxAssertionChars : Nat := 4096

/-! ## Scanned artifacts -/

inductive Architecture where
  | x86
  | x86_64
  | arm64
  deriving DecidableEq, Repr

def Architecture.text : Architecture → String
  | .x86 => "x86"
  | .x86_64 => "x86_64"
  | .arm64 => "arm64"

inductive ArtifactErrorCode where
  | malformed
  | missingDebugIdentity
  | unreadable
  | unsupportedArchitecture
  | unsupportedFormat
  deriving DecidableEq, Repr

structure ArtifactRecord where
  path : String
  module : String
  artifactType : ArtifactType
  architecture : Option Architecture
  debugId : Option String
  codeId : Option String
  matchPaths : List String
  error : Option ArtifactErrorCode
  deriving DecidableEq, Repr

def ArtifactRecord.isPe (a : ArtifactRecord) : Bool := a.artifactType != .pdb

structure ArtifactSelection where
  pe : Option ArtifactRecord
  pdb : Option ArtifactRecord
  status : ModuleSymbolStatus
  deriving DecidableEq, Repr

section choose
variable (moduleName : String) (codeId debugId : Option String) (artifacts : List ArtifactRecord)

def exactPe : Option ArtifactRecord :=
  codeId.bind fun expectedCode => artifacts.find? fun a =>
    a.isPe && a.error.isNone && a.architecture == some .x86_64 && a.codeId == some expectedCode &&
      debugId.all fun expected => a.debugId == some expected

def matchedPdb (pe : ArtifactRecord) : Option ArtifactRecord :=
  pe.matchPaths.findSome? fun path => artifacts.find? fun a =>
    a.path == path && a.artifactType == .pdb && a.error.isNone && a.architecture == some .x86_64

def hasRelatedPe : Bool :=
  artifacts.any fun a =>
    a.isPe && a.error.isNone &&
      (sameIgnoringCase a.module moduleName || a.codeId == codeId ||
        (debugId.isSome && a.debugId == debugId))

def chooseArtifacts : ArtifactSelection :=
  match exactPe codeId debugId artifacts with
  | some pe =>
    if debugId.isNone then ⟨some pe, none, .missingIdentity⟩
    else
      ⟨some pe, matchedPdb artifacts pe,
        if (matchedPdb artifacts pe).isSome then .matched else .missingPdb⟩
  | none =>
    if codeId.isNone then ⟨none, none, .missingIdentity⟩
    else if hasRelatedPe moduleName codeId debugId artifacts then ⟨none, none, .mismatched⟩
    else ⟨none, none, .missingPe⟩

end choose

/-! ## Modules -/

/-- A module of the dump, with its identifiers as they are printed. -/
structure DumpModule where
  name : String
  baseAddress : Nat
  size : Nat
  codeIdentifier : Option String
  debugIdentifier : Option String
  deriving DecidableEq, Repr

def leafName (path : String) : String :=
  ((rsplit (fun c => c == '/' || c == '\\') path.toList).find? (!·.isEmpty)).elim "unknown"
    String.ofList

def hexDigits (n : Nat) : List Char := (Nat.toDigits 16 n).map Char.toUpper

/-- `format!("0x{address:016X}")`. -/
def formatAddress (address : Nat) : String :=
  String.ofList ("0x".toList ++
    (List.replicate (16 - (hexDigits address).length) '0' ++ hexDigits address))

/-- `format!("0x{address:X}")`. -/
def formatRelativeAddress (address : Nat) : String :=
  String.ofList ("0x".toList ++ hexDigits address)

section modules
variable (artifacts : List ArtifactRecord) (m : DumpModule)

def DumpModule.codeId : Option String := m.codeIdentifier.map asciiUppercase

def DumpModule.debugId : Option String := m.debugIdentifier.map asciiUppercase

def DumpModule.selection : ArtifactSelection :=
  chooseArtifacts (leafName m.name) m.codeId m.debugId artifacts

/-- A module as the stacks are walked, with the files it gets. -/
structure LocalModule where
  module : DumpModule
  pe : Option String
  pdb : Option String
  deriving DecidableEq, Repr

def DumpModule.toLocal : LocalModule :=
  ⟨m, (m.selection artifacts).pe.map ArtifactRecord.path,
    (m.selection artifacts).pdb.map ArtifactRecord.path⟩

def DumpModule.diagnostic : SymbolicatedModule where
  module := leafName m.name
  baseAddress := formatAddress m.baseAddress
  size := m.size
  codeId := m.codeId
  debugId := m.debugId
  status := (m.selection artifacts).status
  pe := (m.selection artifacts).pe.map ArtifactRecord.path
  pdb := (m.selection artifacts).pdb.map ArtifactRecord.path
  symcacheFormat := none

end modules

def moduleLE (a b : SymbolicatedModule) : Prop :=
  a.baseAddress < b.baseAddress ∨ (a.baseAddress = b.baseAddress ∧ ¬ b.module < a.module)

instance : DecidableRel moduleLE := fun _ _ => inferInstanceAs (Decidable (_ ∨ _))

/-- The diagnostics of `prepare_modules`. -/
def diagnostics (modules : List DumpModule) (artifacts : List ArtifactRecord) :
    List SymbolicatedModule :=
  (modules.map (DumpModule.diagnostic artifacts)).insertionSort moduleLE

/-! ## Walked stacks -/

structure StackFrame where
  instruction : Nat
  module : Option DumpModule
  trust : String
  functionName : Option String
  sourceFileName : Option String
  sourceLine : Option Nat
  inlines : List InlineSymbol
  deriving DecidableEq, Repr

structure CallStack where
  threadId : Nat
  threadName : Option String
  info : ThreadUnwindStatus
  frames : List StackFrame
  deriving DecidableEq, Repr

structure ProcessState where
  requestingThread : Option Nat
  exceptionReason : Option String
  assertion : Option String
  threads : List CallStack
  deriving DecidableEq, Repr

def frameStatus : ModuleSymbolStatus → FrameSymbolStatus
  | .matched => .unresolved
  | .missingPdb => .missingPdb
  | .missingPe => .missingPe
  | .mismatched => .mismatched
  | .missingIdentity => .missingIdentity

/-- The map from addresses to statuses, in which a later module replaces an earlier one. -/
def moduleStatus (modules : List SymbolicatedModule) (base : Nat) : Option ModuleSymbolStatus :=
  (modules.reverse.find? fun m => parseAddress m.baseAddress = some base).map
    SymbolicatedModule.status

def mapFrame (modules : List SymbolicatedModule) (frame : StackFrame) : SymbolicatedFrame where
  instruction := formatAddress frame.instruction
  module := frame.module.map fun m => leafName m.name
  moduleRelative := (frame.module.filter (·.baseAddress ≤ frame.instruction)).map fun m =>
    formatRelativeAddress (frame.instruction - m.baseAddress)
  trust := frame.trust
  symbolStatus :=
    if frame.functionName.isSome then .resolved
    else
      (frame.module.bind fun m => moduleStatus modules m.baseAddress).elim .unknownModule
        frameStatus
  function := frame.functionName
  sourceFile := frame.sourceFileName
  sourceLine := frame.sourceLine
  inlines := frame.inlines

def boundedText (value : String) (maximum : Nat) : Option String :=
  let kept := (value.toList.filter fun c => !isControl c || c == '\n' || c == '\r' || c == '\t').take
    maximum
  if (trim kept).isEmpty then none else some (String.ofList kept)

section build
variable (state : ProcessState)

def faultingIndex : Option Nat := state.requestingThread.filter (· < state.threads.length)

/-- `sort_by_key` with the faulting thread first, then by thread id and index. -/
def threadLE (a b : CallStack × Nat) : Prop :=
  (some a.2 = faultingIndex state ∧ some b.2 ≠ faultingIndex state) ∨
  ((some a.2 = faultingIndex state ↔ some b.2 = faultingIndex state) ∧
    (a.1.threadId < b.1.threadId ∨ (a.1.threadId = b.1.threadId ∧ a.2 ≤ b.2)))

instance : DecidableRel (threadLE state) := fun _ _ => inferInstanceAs (Decidable (_ ∨ _))

def mapThread (modules : List SymbolicatedModule) (t : CallStack × Nat) : SymbolicatedThread where
  threadId := t.1.threadId
  faulting := decide (some t.2 = faultingIndex state)
  name := t.1.threadName
  unwindStatus := t.1.info
  framesTruncated := decide (maxFramesPerThread < t.1.frames.length)
  frames := (t.1.frames.take maxFramesPerThread).map (mapFrame modules)

def buildResult (modules : List SymbolicatedModule) : SymbolicationResult where
  schemaVersion := symbolicationSchemaVersion
  symbolicatorVersion := "0.1.0"
  minidumpVersion := "0.27.0"
  minidumpProcessorVersion := "0.27.0"
  minidumpUnwindVersion := "0.27.0"
  platform := "windows"
  architecture := "x86_64"
  faultingThreadId := (faultingIndex state).bind fun i => state.threads[i]?.map CallStack.threadId
  exceptionReason := state.exceptionReason.bind (boundedText · maxExceptionReasonChars)
  assertion := state.assertion.bind (boundedText · maxAssertionChars)
  modules := modules
  threads := ((state.threads.zipIdx.insertionSort (threadLE state)).take maxThreads).map
    (mapThread state modules)
  schemaVersion_eq := rfl
  platform_eq := rfl
  architecture_eq := rfl

end build

/-- A dump that could be read, and the walk of its stacks with the files of its modules. -/
structure Dump where
  modules : List DumpModule
  walk : List LocalModule → Option ProcessState
  modules_length : modules.length ≤ maxModules

/-- `symbolicate_bytes_inner`, with what scanning the directory gave. -/
def symbolicateBytes (dump : Dump) (scan : Symbolicated (List ArtifactRecord)) :
    Symbolicated SymbolicationResult := do
  let artifacts ← scan
  let state ← okOr (dump.walk (dump.modules.map (DumpModule.toLocal artifacts))) .processingFailed
  return buildResult state (diagnostics dump.modules artifacts)

/-! ## Nothing to select from -/

@[simp] theorem chooseArtifacts_nil (moduleName : String) (codeId debugId : Option String) :
    chooseArtifacts moduleName codeId debugId [] =
      ⟨none, none, if codeId.isNone then .missingIdentity else .missingPe⟩ := by
  unfold chooseArtifacts exactPe
  cases codeId <;> rfl

theorem mem_diagnostics {modules : List DumpModule} {artifacts : List ArtifactRecord}
    {m : SymbolicatedModule} :
    m ∈ diagnostics modules artifacts ↔ ∃ d ∈ modules, d.diagnostic artifacts = m := by
  rw [diagnostics, List.mem_insertionSort, List.mem_map]

theorem length_diagnostics (modules : List DumpModule) (artifacts : List ArtifactRecord) :
    (diagnostics modules artifacts).length = modules.length := by
  rw [diagnostics, List.length_insertionSort, List.length_map]

end FaultLane.DumpSymbolication
