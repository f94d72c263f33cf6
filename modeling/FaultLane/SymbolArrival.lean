import FaultLane.DumpSymbolication
import FaultLane.JobQueue
import FaultLane.ProcessingResult
import FaultLane.TransitionSystem

set_option autoImplicit false

/-!
# Symbols that arrive around a crash

One crash event with a matched release, the artifacts of that release as they become available,
the caches that are made of them, and the requests that process the event again. A run of the
worker reads the artifacts in one step and publishes in a later one.
-/
namespace FaultLane.SymbolArrival
open Json Fallible RustText Symbolication SymCacheResolution DumpSymbolication JobQueue
open CrashContext CrashRequest ProcessingResult
open Grouping (lowerHex)
open CrashSymbols (JobError Worked ReleaseLookup ReleaseResolution ModuleIdentity SelectedArtifact
  SymbolWaiter RequiredArtifact processorOutputInvalid releaseLookup processingModules
  hasResolvedFrame symbolWaiters selectedArtifactSizeValid asciiLowercase asciiUppercase)

/-! ## Artifacts of a release -/

/-- `valid_text`. -/
def validText (value : String) (maximum : Nat) : Bool :=
  value != "" && value.utf8ByteSize ≤ maximum && trim value.toList == value.toList &&
    !value.toList.any isControl

/-- `valid_identity`. -/
def validIdentity (value : String) : Bool :=
  validText value 128 && value.toList.all fun c => c.isUpper || c.isDigit || c == '-'

/-- What a negotiated upload has checked of an artifact. -/
structure ValidArtifact (a : SelectedArtifact) : Prop where
  moduleName : validText a.moduleName 256
  artifactType : a.artifactType ∈ ["pe_executable", "pe_dynamic_library", "pdb"]
  architecture : a.architecture ∈ ["x86", "x86_64", "arm64"]
  debugId : validIdentity a.debugId
  codeId : ∀ codeId ∈ a.codeId, validIdentity codeId
  codeId_isSome : a.codeId.isSome ↔ a.artifactType ≠ "pdb"

/-- A row of `release_manifest_artifacts` with its object. -/
structure ManifestArtifact where
  id : Uuid
  artifact : SelectedArtifact
  valid : ValidArtifact artifact
  deriving DecidableEq

def isPdb (a : SelectedArtifact) : Bool := a.artifactType == "pdb"

/-- The match of `automatic_reprocessing_candidates` on a waiter, with the database's `lower`. -/
def awaits (lower : String → String) (w : SymbolWaiter) (a : SelectedArtifact) : Prop :=
  (a.artifactType = "pdb" ∧ w.requiredArtifact = .pdb ∧ w.architecture = a.architecture ∧
    w.debugId = a.debugId ∧ w.codeId = "") ∨
  (a.artifactType ∈ ["pe_executable", "pe_dynamic_library"] ∧ w.requiredArtifact = .pe ∧
    w.moduleName = lower a.moduleName ∧ w.architecture = a.architecture ∧
    w.debugId = a.debugId ∧ some w.codeId = a.codeId)

instance (lower : String → String) (w : SymbolWaiter) (a : SelectedArtifact) :
    Decidable (awaits lower w a) :=
  inferInstanceAs (Decidable (_ ∨ _))

/-! ## One run of the processor -/

/-- A crash whose dump can be read and whose context names its one matching release. -/
structure Crash where
  dump : Dump
  guid : String
  context : CrashContextData
  request : Option CrashRequestManifest
  classification : Option CrashClassification
  log : Option CrashRequestLog
  lookup : ReleaseLookup
  releaseId : String
  walked : (dump.walk (dump.modules.map (DumpModule.toLocal []))).isSome
  named : ∀ current, releaseLookup (Json.ofFields
    (resultFieldValues guid context request classification log current [])) = .ok (some lookup)

/-- What the worker has besides the crash: files, the caches that it makes, and the database. -/
structure Surroundings (DebugId : Type) where
  ext : Externals DebugId
  generateSymcache : SelectedArtifact → Option String
  lower : String → String

inductive CacheState where
  | pending
  | unavailable
  | available (file : String)
  deriving DecidableEq, Repr

inductive ProcessingState where
  | pending
  | awaitingSymbols
  | processed
  | failed
  deriving DecidableEq, Repr

def Crash.release (c : Crash) : ReleaseResolution := ⟨some c.lookup, [c.releaseId]⟩

/-- The result without its history, which nothing here reads. -/
def Crash.output (c : Crash) (r : SymbolicationResult) : Json :=
  Json.ofFields (resultFieldValues c.guid c.context c.request c.classification c.log
    (attempt c.context.parserVersion r) [])

/-- A placed PE file, as its manifest row and the scan that indexed it have it. -/
def placedRecord (a : SelectedArtifact) : ArtifactRecord :=
  let file := lowerHex a.checksum ++ if a.artifactType == "pe_executable" then ".exe" else ".dll"
  { path := file
    module := file
    artifactType := if a.artifactType == "pe_executable" then .peExecutable else .peDynamicLibrary
    architecture := [.x86, .x86_64, .arm64].find? fun x => x.text == a.architecture
    debugId := some a.debugId
    codeId := a.codeId
    matchPaths := []
    error := none }

def scanSymbols (placed : List SelectedArtifact) : Symbolicated (List ArtifactRecord) := do
  refuse (maxArtifacts < placed.length) .artifactScan
  return (placed.map placedRecord).insertionSort fun a b => ¬ b.path < a.path

section worker
variable {DebugId : Type} [DecidableEq DebugId] (env : Surroundings DebugId) (c : Crash)

/-- `run_processor` with the placed PE files and the manifest of the caches. -/
def runProcessor (placed : List SelectedArtifact) (entries : List SymCacheArtifact) :
    Worked Json :=
  let symbolicated := symbolicateBytes c.dump (scanSymbols placed)
  let resolved :=
    if entries.isEmpty then symbolicated
    else symbolicateMinidumpBytesWithSymcaches env.ext symbolicated entries
  match resolved with
  | .ok result => .ok (c.output result)
  | .error _ => .error (.deterministic "processor_rejected")

/-- The artifacts that match a module, one for each object. -/
def selectArtifacts (modules : List ModuleIdentity) (architecture : String) :
    List SelectedArtifact → List SelectedArtifact → List SelectedArtifact
  | [], selected => selected
  | a :: rest, selected =>
    selectArtifacts modules architecture rest
      (if modules.any (a.matchesModule · architecture) &&
          selected.all (·.objectId != a.objectId) then selected ++ [a]
        else selected)

/-- The caches of the PDBs, or the first PDB whose cache is not made yet. -/
def collectCaches (caches : String → Option CacheState) :
    List SelectedArtifact → List SymCacheArtifact → Except SelectedArtifact (List SymCacheArtifact)
  | [], entries => .ok entries
  | a :: rest, entries =>
    match caches a.objectId with
    | none | some .pending => .error a
    | some .unavailable => collectCaches caches rest entries
    | some (.available file) => collectCaches caches rest (entries ++ [⟨a.debugId, file⟩])

inductive SymbolSelection where
  | dependency (pdb : SelectedArtifact)
  | missing
  | ready (placed : List SelectedArtifact) (entries : List SymCacheArtifact)

def materializeSymbols (available : List SelectedArtifact) (caches : String → Option CacheState)
    (inspected : Json) : Worked SymbolSelection := do
  let modules ← processingModules inspected
  let selected := selectArtifacts modules c.lookup.architecture available []
  if selected.isEmpty || !selectedArtifactSizeValid selected then .ok .missing
  else
    match collectCaches caches (selected.filter isPdb) [] with
    | .error pdb => .ok (.dependency pdb)
    | .ok entries =>
      if entries.isEmpty then .ok .missing
      else .ok (.ready (selected.filter (!isPdb ·)) entries)

structure Publication where
  state : ProcessingState
  waiters : Finset SymbolWaiter
  deriving DecidableEq

/-- The end of `process_crash`, and what `publish_crash_result` makes of the result. -/
def publication (result : Json) (state : ProcessingState) : Worked Publication := do
  let lookup ← releaseLookup result
  refuse (some c.lookup ≠ lookup) processorOutputInvalid
  let waiters ← (if state = .awaitingSymbols then symbolWaiters result c.release else .ok ∅)
  .ok ⟨state, waiters⟩

inductive Outcome where
  | dependency (pdb : SelectedArtifact)
  | failed (error : JobError)
  | published (p : Publication)

def Outcome.of : Worked Publication → Outcome
  | .ok p => .published p
  | .error e => .failed e

/-- `process_crash` up to its publication. -/
def processCrash (available : List SelectedArtifact) (caches : String → Option CacheState) :
    Outcome :=
  match runProcessor env c [] [] with
  | .error e => .failed e
  | .ok inspected =>
    match materializeSymbols c available caches inspected with
    | .error e => .failed e
    | .ok (.dependency pdb) => .dependency pdb
    | .ok .missing => .of (publication c inspected .awaitingSymbols)
    | .ok (.ready placed entries) =>
      .of do
        let result ← runProcessor env c placed entries
        publication c result (if hasResolvedFrame result then .processed else .awaitingSymbols)

end worker

/-! ## The system -/

/-- A request for one artifact, and when it was made. -/
structure Request where
  artifact : ManifestArtifact
  selectionBefore : Nat
  deriving DecidableEq

/-- The current result of the event and its waiters, which are of one time. -/
structure Published where
  resultId : Uuid
  waiters : Finset SymbolWaiter
  createdAt : Nat
  deriving DecidableEq

/-- `again` is a generation that was requested while the job was running. -/
structure State where
  now : Nat
  available : List ManifestArtifact
  caches : String → Option CacheState
  requests : List Request
  processingState : ProcessingState
  current : Option Published
  catchups : List (Uuid × Uuid)
  queued : Bool
  running : Option Outcome
  again : Bool

def State.init : State :=
  ⟨0, [], fun _ => none, [], .pending, none, [], true, none, false⟩

def State.setCache (s : State) (objectId : String) (cache : CacheState) : State :=
  { s with caches := fun o => if o = objectId then some cache else s.caches o }

section system
variable {DebugId : Type} [DecidableEq DebugId] (env : Surroundings DebugId) (c : Crash)
  (artifacts : List ManifestArtifact) (s : State)

/-- The event is one of the candidates of a request. -/
def State.Candidate (r : Request) : Prop :=
  s.processingState = .awaitingSymbols ∧
    ∃ p ∈ s.current, p.createdAt ≤ r.selectionBefore ∧
      ∃ w ∈ p.waiters, awaits env.lower w r.artifact.artifact

instance (r : Request) : Decidable (s.Candidate env r) :=
  inferInstanceAs (Decidable (_ ∧ _))

/-- `publish_artifact`, with `enqueue_artifact_request`. -/
def makeAvailable (a : ManifestArtifact) : Option State :=
  if a ∈ artifacts ∧ a ∉ s.available then
    some { s with
      now := s.now + 1
      available := a :: s.available
      requests := ⟨a, s.now⟩ :: s.requests }
  else none

/-- The end of a `generate_symcache` job. -/
def generateSymcache (a : ManifestArtifact) : Option State :=
  if a ∈ s.available ∧ s.caches a.artifact.objectId = some .pending then
    some (s.setCache a.artifact.objectId
      ((env.generateSymcache a.artifact).elim .unavailable .available))
  else none

/-- The event's job is claimed and reads what it needs. The rows come in any order. -/
def beginProcessing (rows : List ManifestArtifact) : Option State :=
  if s.queued ∧ rows.Perm s.available then
    let outcome := processCrash env c (rows.map ManifestArtifact.artifact) s.caches
    let s := { s with queued := false, running := some outcome }
    match outcome with
    | .dependency pdb => some (s.setCache pdb.objectId .pending)
    | .failed _ | .published _ => some s
  else none

/-- The artifact of `enqueue_waiter_catchup_requests`, the first one that a waiter matches. -/
def State.catchup (waiters : Finset SymbolWaiter) : Option ManifestArtifact :=
  (s.available.insertionSort fun a b => a.id ≤ b.id).find? fun a =>
    decide (∃ w ∈ waiters, awaits env.lower w a.artifact)

def State.enqueueCatchup (p : Published) : State :=
  match s.catchup env p.waiters with
  | none => s
  | some a =>
    if (a.id, p.resultId) ∈ s.catchups then s
    else
      { s with
        requests := ⟨a, s.now⟩ :: s.requests
        catchups := (a.id, p.resultId) :: s.catchups }

/-- The run ends. A result that was stored before keeps its id. -/
def endProcessing (resultId : Uuid) : Option State := do
  let outcome ← s.running
  let s := { s with now := s.now + 1, running := none }
  match outcome with
  | .dependency _ => some { s with queued := true, again := false }
  | .failed _ =>
    some { s with
      queued := s.again, again := false
      processingState := if s.current.isSome then s.processingState else .failed }
  | .published p =>
    let current : Published := ⟨resultId, p.waiters, s.now⟩
    some ({ s with
      queued := s.again, again := false
      processingState := p.state, current := some current }.enqueueCatchup env current)

/-- A request is scheduled. -/
def schedule (r : Request) : Option State :=
  if r ∈ s.requests then
    let s' := { s with requests := s.requests.erase r }
    if s.Candidate env r then
      if s.running.isSome then some { s' with again := true } else some { s' with queued := true }
    else some s'
  else none

inductive Action where
  | makeAvailable (a : ManifestArtifact)
  | generateSymcache (a : ManifestArtifact)
  | beginProcessing (rows : List ManifestArtifact)
  | endProcessing (resultId : Uuid)
  | schedule (r : Request)

def step (s : State) : Action → Option State
  | .makeAvailable a => makeAvailable artifacts s a
  | .generateSymcache a => generateSymcache env s a
  | .beginProcessing rows => beginProcessing env c s rows
  | .endProcessing resultId => endProcessing env s resultId
  | .schedule r => schedule env s r

/-- All artifacts are there, and no request, cache job or run is left. -/
def Settled : Prop :=
  (∀ a ∈ artifacts, a ∈ s.available) ∧ s.requests = [] ∧ s.queued = false ∧
    s.running.isNone ∧ ∀ a ∈ artifacts, s.caches a.artifact.objectId ≠ some .pending

end system
end FaultLane.SymbolArrival
