import FaultLane.ProcessingContract
import Mathlib.Data.Finset.Card

set_option autoImplicit false

/-!
# What the worker reads from a processing result

The release identity of a crash, the modules whose symbols it can use, and the symbols it
waits for.
-/
namespace FaultLane.CrashSymbols
open Json Fallible RustText ProcessingContract

def maxSymbolWaiters : Nat := 4096

def maxArtifactBytes : Int := 1024 * 1024 * 1024
def maxSelectedArtifactBytes : Int := 4 * 1024 * 1024 * 1024

inductive JobError where
  | lostLease
  | dependency
  | deterministic (code : String)
  | resource (code : String)
  | transient (code : String)
  deriving DecidableEq, Repr

abbrev Worked (α : Type) := Except JobError α

def processorOutputInvalid : JobError := .deterministic "processor_output_invalid"

structure ReleaseLookup where
  version : String
  platform : String
  architecture : String
  configuration : String
  deriving DecidableEq, Repr

structure ReleaseResolution where
  lookup : Option ReleaseLookup
  candidates : List String

inductive ReleaseMapping where
  | pending
  | matched
  | missing
  | ambiguous
  deriving DecidableEq, Repr

def ReleaseResolution.state (release : ReleaseResolution) : ReleaseMapping :=
  match release.candidates with
  | [] => .missing
  | [_] => .matched
  | _ => .ambiguous

def ReleaseResolution.matchedId (release : ReleaseResolution) : Option String :=
  match release.candidates with
  | [releaseId] => some releaseId
  | _ => none

theorem ReleaseResolution.state_eq_matched (release : ReleaseResolution) :
    release.state = .matched ↔ release.matchedId.isSome := by
  obtain ⟨lookup, candidates⟩ := release
  match candidates with
  | [] => exact ⟨nofun, nofun⟩
  | [_] => exact ⟨fun _ => rfl, fun _ => rfl⟩
  | _ :: _ :: _ => exact ⟨nofun, nofun⟩

/-- `as_str().filter(|value| !value.trim().is_empty())`. -/
def filledText (value : Option Json) : Option String :=
  (value.bind asStr).filter (!isBlank ·)

def releaseLookup (result : Json) : Worked (Option ReleaseLookup) := do
  let context ← okOr ((get "crash_context" result).bind asObject) processorOutputInvalid
  .ok do
    let version ← filledText (SortedMap.get "build_version" context)
    let platform ← filledText ((SortedMap.get "platform" context).bind (get "normalized"))
    let architecture ← filledText (SortedMap.get "architecture" context)
    let configuration ← filledText (SortedMap.get "build_configuration" context)
    some ⟨version, platform, architecture, configuration⟩

structure ModuleIdentity where
  module : String
  debugId : Option String
  codeId : Option String
  deriving DecidableEq, Repr

def moduleIdentity (module : Json) : Worked ModuleIdentity := do
  let name ← okOr ((get "module" module).bind asStr) processorOutputInvalid
  .ok ⟨name, (get "debug_id" module).bind asStr, (get "code_id" module).bind asStr⟩

def processingModules (result : Json) : Worked (List ModuleIdentity) := do
  let modules ← okOr ((pointer ["current", "symbolication", "modules"] result).bind asArray)
    processorOutputInvalid
  modules.mapM moduleIdentity

def validateResult (result : Json) (expectedGuid : Option String) : Worked Unit := do
  match validateCurrentProcessingResult result expectedGuid with
  | .ok () => .ok ()
  | .error .previousIdentityMismatch => .error (.deterministic "crash_identity_mismatch")
  | .error _ => .error processorOutputInvalid
  let _ ← processingModules result
  .ok ()

def hasResolvedFrame (result : Json) : Bool :=
  isSomeAnd ((pointer ["current", "symbolication", "threads"] result).bind asArray) fun threads =>
    threads.any fun thread =>
      isSomeAnd ((get "frames" thread).bind asArray) fun frames =>
        frames.any fun frame => (get "symbol_status" frame).bind asStr == some "resolved"

def i32OfU64 (value : Option Json) : Option Nat := (value.bind asU64).filter (· < 2 ^ 31)

def processingVersions (result : Json) : Worked (Nat × Nat) := do
  let schema ← okOr (i32OfU64 (get "schema_version" result)) processorOutputInvalid
  let processing ← okOr (i32OfU64 (pointer ["current", "processing_version"] result))
    processorOutputInvalid
  .ok (schema, processing)

inductive ArtifactType where
  | pdb
  | peExecutable
  | peDynamicLibrary
  deriving DecidableEq, Repr

def ArtifactType.text : ArtifactType → String
  | .pdb => "pdb"
  | .peExecutable => "pe_executable"
  | .peDynamicLibrary => "pe_dynamic_library"

structure SelectedArtifact where
  objectId : String
  objectKey : String
  checksum : List UInt8
  byteSize : Int
  artifactType : String
  moduleName : String
  architecture : String
  debugId : String
  codeId : Option String
  deriving DecidableEq

def sameIgnoringCase (s t : String) : Bool := eqIgnoreAsciiCase s.toList t.toList

def SelectedArtifact.matchesModule (artifact : SelectedArtifact) (module : ModuleIdentity)
    (architecture : String) : Bool :=
  sameIgnoringCase artifact.architecture architecture &&
    if artifact.artifactType == "pdb" then module.debugId == some artifact.debugId
    else
      sameIgnoringCase artifact.moduleName module.module &&
        module.debugId == some artifact.debugId && artifact.codeId == module.codeId

def selectedArtifactSizeValid (artifacts : List SelectedArtifact) : Bool :=
  artifacts.all (fun artifact => 0 ≤ artifact.byteSize && artifact.byteSize ≤ maxArtifactBytes) &&
    (artifacts.map SelectedArtifact.byteSize).sum ≤ maxSelectedArtifactBytes

inductive RequiredArtifact where
  | pdb
  | pe
  deriving DecidableEq, Repr

structure SymbolWaiter where
  requiredArtifact : RequiredArtifact
  moduleName : String
  architecture : String
  debugId : String
  codeId : String
  deriving DecidableEq, Repr

def asciiLowercase (s : String) : String := String.ofList (toAsciiLowercase s.toList)

def asciiUppercase (s : String) : String := String.ofList (s.toList.map Char.toUpper)

/-- `as_str().filter(|value| !value.is_empty() && value.len() <= limit)`. -/
def boundedText (limit : Nat) (value : Option Json) : Option String :=
  (value.bind asStr).filter fun s => s ≠ "" && s.utf8ByteSize ≤ limit

def moduleWaiters (architecture : String) (module : Json) : Worked (List SymbolWaiter) :=
  match boundedText 256 (get "module" module), boundedText 128 (get "debug_id" module) with
  | some name, some debugId => do
    let status ← okOr ((get "status" module).bind asStr) processorOutputInvalid
    let waiter (required : RequiredArtifact) (codeId : String) : SymbolWaiter :=
      ⟨required, asciiLowercase name, asciiLowercase architecture, asciiUppercase debugId, codeId⟩
    let pdb := if status = "missing_pdb" ∨ status = "mismatched" then [waiter .pdb ""] else []
    let pe :=
      match boundedText 128 (get "code_id" module) with
      | some codeId =>
        if status = "missing_pe" ∨ status = "mismatched" then
          [waiter .pe (asciiUppercase codeId)]
        else []
      | none => []
    .ok (pdb ++ pe)
  | _, _ => .ok []

/-- The loop over the modules, with the waiters so far. -/
def collectWaiters (architecture : String) :
    List Json → Finset SymbolWaiter → Worked (Finset SymbolWaiter)
  | [], waiters => .ok waiters
  | module :: rest, waiters => do
    let added ← moduleWaiters architecture module
    let waiters := waiters ∪ added.toFinset
    refuse (maxSymbolWaiters < waiters.card) processorOutputInvalid
    collectWaiters architecture rest waiters

def symbolWaiters (result : Json) (release : ReleaseResolution) : Worked (Finset SymbolWaiter) :=
  if release.matchedId.isNone then .ok ∅
  else do
    let symbolication ← okOr ((pointer ["current", "symbolication"] result).bind asObject)
      processorOutputInvalid
    let architecture ← okOr (boundedText 32 (SortedMap.get "architecture" symbolication))
      processorOutputInvalid
    let modules ← okOr (arrayAt "modules" symbolication) processorOutputInvalid
    collectWaiters architecture modules ∅

end FaultLane.CrashSymbols
