import FaultLane.Fallible
import FaultLane.RustText
import FaultLane.Symbolication

set_option autoImplicit false

/-!
# Resolving frames from symbol caches

The loop that overwrites frames with what the caches of the result's modules say, and
when it takes the cache of another module than the frame's. Debug identifiers, the file
system and the cache format are parameters.
-/
namespace FaultLane.SymCacheResolution
open Fallible RustText Symbolication

def maxSymcacheBytes : Nat := 64 * 1024 * 1024

inductive SymbolicationErrorKind where
  | readDump
  | dumpTooLarge
  | invalidDump
  | unsupportedPlatform
  | unsupportedArchitecture
  | tooManyThreads
  | tooManyModules
  | invalidSymbolRoot
  | invalidSymCache
  | symCacheTooLarge
  | symCacheIdentityMismatch
  | artifactScan
  | unsafeArtifactPath
  | runtimeFailed
  | processingFailed
  | timedOut
  | workerFailed
  deriving DecidableEq, Repr

abbrev Symbolicated (α : Type) := Except SymbolicationErrorKind α

structure SymCacheArtifact where
  debugId : String
  path : String
  deriving DecidableEq, Repr

structure SourceLocation where
  function : String
  file : Option String
  line : Nat
  deriving DecidableEq, Repr

/-- A parsed cache, with the locations that a lookup of a relative address yields. -/
structure SymCache (DebugId : Type) where
  debugId : DebugId
  version : Nat
  isLatest : Bool
  lookup : Nat → List SourceLocation

structure FileMetadata where
  isFile : Bool
  length : Nat
  deriving DecidableEq, Repr

/-- What the loop takes from outside: identifiers, files and the cache format. -/
structure Externals (DebugId : Type) where
  debugIdFromStr : String → Option DebugId
  symlinkMetadata : String → Option FileMetadata
  readToEnd : String → Nat → Option (List UInt8)
  parseSymCache : List UInt8 → Option (SymCache DebugId)

def parseAddress (value : String) : Option Nat :=
  (stripPrefix "0x".toList value.toList).bind u64FromHex

def parseRelativeAddress (value : String) : Option Nat :=
  (stripPrefix "0x".toList value.toList).bind u64FromHex

def sameModuleName (a b : String) : Bool := eqIgnoreAsciiCase a.toList b.toList

def isNamed (function : String) : Bool := !(function.isEmpty || function == "?")

def sourceLine (line : Nat) : Option Nat := if 0 < line then some line else none

def inlineSymbol (inline : SourceLocation) : Option InlineSymbol :=
  if isNamed inline.function then
    some ⟨inline.function, inline.file, SymCacheResolution.sourceLine inline.line⟩
  else none

section Resolution
variable {DebugId : Type} [DecidableEq DebugId] (ext : Externals DebugId)

def readCache (path : String) : Symbolicated (List UInt8) := do
  let metadata ← okOr (ext.symlinkMetadata path) .invalidSymCache
  refuse (¬ metadata.isFile) .invalidSymCache
  refuse (maxSymcacheBytes < metadata.length) .symCacheTooLarge
  let bytes ← okOr (ext.readToEnd path (maxSymcacheBytes + 1)) .invalidSymCache
  refuse (maxSymcacheBytes < bytes.length) .symCacheTooLarge
  return bytes

abbrev Artifacts (DebugId : Type) := List (DebugId × SymCacheArtifact)

def collectArtifacts : Artifacts DebugId → List SymCacheArtifact → Symbolicated (Artifacts DebugId)
  | artifacts, [] => .ok artifacts
  | artifacts, artifact :: rest => do
    let debugId ← okOr (ext.debugIdFromStr artifact.debugId) .invalidSymCache
    refuse (∃ entry ∈ artifacts, entry.1 = debugId) .invalidSymCache
    collectArtifacts ((debugId, artifact) :: artifacts) rest

def moduleDebugId (module : SymbolicatedModule) : Option DebugId :=
  module.debugId.bind ext.debugIdFromStr

/-- The checked cache of a module, if it has one. -/
def selectCache (artifacts : Artifacts DebugId) (module : SymbolicatedModule) :
    Symbolicated (Option (SymCache DebugId)) :=
  match moduleDebugId ext module with
  | none => .ok none
  | some debugId =>
    match artifacts.find? (·.1 = debugId) with
    | none => .ok none
    | some (_, artifact) => do
      let bytes ← readCache ext artifact.path
      let cache ← okOr (ext.parseSymCache bytes) .invalidSymCache
      refuse (cache.debugId ≠ debugId ∨ ¬ cache.isLatest) .symCacheIdentityMismatch
      return some cache

/-- The frame as the cache says, unless it says nothing. -/
def resolveFrame (cache : SymCache DebugId) (moduleName : String) (frame : SymbolicatedFrame) :
    Option SymbolicatedFrame := do
  let name ← frame.module
  if !sameModuleName name moduleName then none
  else
    let address ← frame.moduleRelative.bind parseRelativeAddress
    match cache.lookup address with
    | [] => none
    | location :: inlines =>
      if !isNamed location.function then none
      else
        return { frame with
          function := some location.function
          sourceFile := location.file
          sourceLine := SymCacheResolution.sourceLine location.line
          inlines := inlines.filterMap inlineSymbol
          symbolStatus := .resolved }

def overwriteFrame (cache : SymCache DebugId) (moduleName : String) (frame : SymbolicatedFrame) :
    SymbolicatedFrame :=
  (resolveFrame cache moduleName frame).getD frame

def overwriteThread (cache : SymCache DebugId) (moduleName : String)
    (thread : SymbolicatedThread) : SymbolicatedThread :=
  { thread with frames := thread.frames.map (overwriteFrame cache moduleName) }

def anyResolved (cache : SymCache DebugId) (moduleName : String)
    (threads : List SymbolicatedThread) : Bool :=
  threads.any fun thread => thread.frames.any fun frame =>
    (resolveFrame cache moduleName frame).isSome

def applyModule (artifacts : Artifacts DebugId) (threads : List SymbolicatedThread)
    (module : SymbolicatedModule) : Symbolicated (List SymbolicatedThread × SymbolicatedModule) := do
  match ← selectCache ext artifacts module with
  | none => return (threads, module)
  | some cache =>
    let resolved := anyResolved cache module.module threads
    return (threads.map (overwriteThread cache module.module),
      if resolved && module.pe.isSome then
        { module with status := .matched, symcacheFormat := some cache.version }
      else module)

def applyModules (artifacts : Artifacts DebugId) : List SymbolicatedThread →
    List SymbolicatedModule → Symbolicated (List SymbolicatedThread × List SymbolicatedModule)
  | threads, [] => .ok (threads, [])
  | threads, module :: rest => do
    let (threads, module) ← applyModule ext artifacts threads module
    let (threads, rest) ← applyModules artifacts threads rest
    return (threads, module :: rest)

/-- `symbolicated` is what walking the dump gave. -/
def symbolicateMinidumpBytesWithSymcaches (symbolicated : Symbolicated SymbolicationResult)
    (symcaches : List SymCacheArtifact) : Symbolicated SymbolicationResult := do
  let result ← symbolicated
  let artifacts ← collectArtifacts ext [] symcaches
  let (threads, modules) ← applyModules ext artifacts result.threads result.modules
  return { result with threads := threads, modules := modules }

end Resolution

section Places
variable {DebugId : Type}

/-- What the loop never changes of a frame, and all it looks at. -/
structure FramePlace where
  instruction : String
  module : Option String
  moduleRelative : Option String
  deriving DecidableEq, Repr

def framePlace (frame : SymbolicatedFrame) : FramePlace :=
  ⟨frame.instruction, frame.module, frame.moduleRelative⟩

def places (threads : List SymbolicatedThread) : List FramePlace :=
  threads.flatMap fun thread => thread.frames.map framePlace

/-- The cache has a name for the place's relative address, and the place bears the module's
name. -/
def CacheNames (cache : SymCache DebugId) (moduleName : String) (place : FramePlace) : Prop :=
  ∃ name ∈ place.module, sameModuleName name moduleName = true ∧
    ∃ address ∈ place.moduleRelative.bind parseRelativeAddress,
      ∃ location ∈ (cache.lookup address).head?, isNamed location.function = true

/-- The module's base address is the instruction minus the relative address. -/
def Contains (module : SymbolicatedModule) (place : FramePlace) : Prop :=
  ∃ instruction ∈ parseAddress place.instruction,
    ∃ relative ∈ place.moduleRelative.bind parseRelativeAddress,
      ∃ base ∈ parseAddress module.baseAddress, base + relative = instruction

/-- The module that contains the place has exactly this debug identifier. -/
def Exact (ext : Externals DebugId) (modules : List SymbolicatedModule) (place : FramePlace)
    (debugId : DebugId) : Prop :=
  (∃ module ∈ modules, Contains module place) ∧
    ∀ module ∈ modules, Contains module place → moduleDebugId ext module = some debugId

theorem cacheNames_iff {cache : SymCache DebugId} {moduleName : String}
    {frame : SymbolicatedFrame} :
    (∃ resolved, resolveFrame cache moduleName frame = some resolved) ↔
      CacheNames cache moduleName (framePlace frame) := by
  unfold CacheNames framePlace resolveFrame
  cases frame.module with
  | none => simp
  | some name =>
    cases hname : sameModuleName name moduleName with
    | false => simp [hname]
    | true =>
      cases haddress : frame.moduleRelative.bind parseRelativeAddress with
      | none => simp
      | some address =>
        cases hlookup : cache.lookup address with
        | nil => simp [hlookup]
        | cons location inlines =>
          cases hnamed : isNamed location.function <;> simp [hname, hlookup, hnamed]

theorem framePlace_resolveFrame {cache : SymCache DebugId} {moduleName : String}
    {frame resolved : SymbolicatedFrame} (h : resolveFrame cache moduleName frame = some resolved) :
    framePlace resolved = framePlace frame := by
  obtain ⟨name, hname, h⟩ := Option.bind_eq_some_iff.mp h
  split_ifs at h
  obtain ⟨address, -, h⟩ := Option.bind_eq_some_iff.mp h
  split at h
  · cases h
  · split_ifs at h
    cases h
    rfl

theorem framePlace_overwriteFrame (cache : SymCache DebugId) (moduleName : String)
    (frame : SymbolicatedFrame) :
    framePlace (overwriteFrame cache moduleName frame) = framePlace frame := by
  unfold overwriteFrame
  cases h : resolveFrame cache moduleName frame with
  | none => rfl
  | some resolved => exact framePlace_resolveFrame h

theorem places_overwriteThread (cache : SymCache DebugId) (moduleName : String)
    (threads : List SymbolicatedThread) :
    places (threads.map (overwriteThread cache moduleName)) = places threads := by
  unfold places
  rw [List.flatMap_map]
  congr 1
  funext thread
  rw [overwriteThread, List.map_map]
  exact List.map_congr_left fun frame _ => framePlace_overwriteFrame cache moduleName frame

variable [DecidableEq DebugId] {ext : Externals DebugId} {artifacts : Artifacts DebugId}

theorem places_applyModule {threads threads' : List SymbolicatedThread}
    {module module' : SymbolicatedModule}
    (h : applyModule ext artifacts threads module = .ok (threads', module')) :
    places threads' = places threads := by
  obtain ⟨selected, -, h⟩ := bind_eq_ok.mp h
  cases selected with
  | none =>
    cases h
    rfl
  | some cache =>
    cases h
    exact places_overwriteThread cache module.module threads

theorem places_applyModules {threads threads' : List SymbolicatedThread}
    {modules modules' : List SymbolicatedModule}
    (h : applyModules ext artifacts threads modules = .ok (threads', modules')) :
    places threads' = places threads := by
  induction modules generalizing threads modules' with
  | nil =>
    cases h
    rfl
  | cons module rest ih =>
    obtain ⟨⟨next, _⟩, hnext, h⟩ := bind_eq_ok.mp h
    obtain ⟨⟨last, _⟩, hlast, h⟩ := bind_eq_ok.mp h
    cases h
    exact (ih hlast).trans (places_applyModule hnext)

/-- A run over all modules begins with runs over the first ones. -/
theorem applyModules_append {threads threads' : List SymbolicatedThread}
    {first rest modules' : List SymbolicatedModule}
    (h : applyModules ext artifacts threads (first ++ rest) = .ok (threads', modules')) :
    ∃ next front back, applyModules ext artifacts threads first = .ok (next, front) ∧
      applyModules ext artifacts next rest = .ok (threads', back) := by
  induction first generalizing threads modules' with
  | nil => exact ⟨threads, [], modules', rfl, h⟩
  | cons module first ih =>
    obtain ⟨⟨next, module'⟩, hnext, h⟩ := bind_eq_ok.mp h
    obtain ⟨⟨last, tail⟩, hlast, h⟩ := bind_eq_ok.mp h
    cases h
    obtain ⟨middle, front, back, hfront, hback⟩ := ih hlast
    refine ⟨middle, module' :: front, back, ?_, hback⟩
    rw [applyModules, hnext, ok_bind]
    change (applyModules ext artifacts next first >>= _) = _
    rw [hfront]
    rfl

end Places

section Overwrites
variable {DebugId : Type} [DecidableEq DebugId] (ext : Externals DebugId)
  (symcaches : List SymCacheArtifact) (result : SymbolicationResult)

/-- In the run over the result's modules, the cache of one of them overwrites this frame. -/
def Overwrites (cache : SymCache DebugId) (frame : SymbolicatedFrame) : Prop :=
  ∃ artifacts first module rest threads front,
    collectArtifacts ext [] symcaches = .ok artifacts ∧
    result.modules = first ++ module :: rest ∧
    applyModules ext artifacts result.threads first = .ok (threads, front) ∧
    selectCache ext artifacts module = .ok (some cache) ∧
    (∃ thread ∈ threads, frame ∈ thread.frames) ∧
    ∃ resolved, resolveFrame cache module.module frame = some resolved

/-- The cache of a module names the place, and the module bears the name of the place's. -/
def NamedBy (cache : SymCache DebugId) (place : FramePlace) : Prop :=
  ∃ artifacts, collectArtifacts ext [] symcaches = .ok artifacts ∧
    ∃ module ∈ result.modules, selectCache ext artifacts module = .ok (some cache) ∧
      CacheNames cache module.module place

variable {ext symcaches result}

theorem mem_places {threads : List SymbolicatedThread} {place : FramePlace} :
    place ∈ places threads ↔
      ∃ frame, (∃ thread ∈ threads, frame ∈ thread.frames) ∧ framePlace frame = place := by
  simp only [places, List.mem_flatMap, List.mem_map]
  constructor
  · rintro ⟨thread, hthread, frame, hframe, hplace⟩
    exact ⟨frame, ⟨thread, hthread, hframe⟩, hplace⟩
  · rintro ⟨frame, ⟨thread, hthread, hframe⟩, hplace⟩
    exact ⟨thread, hthread, frame, hframe, hplace⟩

/-- The overwritten frames are those at the result's places that a cache names. -/
theorem overwrites_iff {final : SymbolicationResult}
    (h : symbolicateMinidumpBytesWithSymcaches ext (.ok result) symcaches = .ok final)
    (cache : SymCache DebugId) (place : FramePlace) :
    (∃ frame, Overwrites ext symcaches result cache frame ∧ framePlace frame = place) ↔
      place ∈ places result.threads ∧ NamedBy ext symcaches result cache place := by
  constructor
  · rintro ⟨frame, ⟨artifacts, first, module, rest, threads, front, hartifacts, hmodules, hfirst,
      hcache, hframe, hresolved⟩, rfl⟩
    have hmem : module ∈ result.modules := by
      rw [hmodules]
      exact List.mem_append_right _ List.mem_cons_self
    refine ⟨?_, artifacts, hartifacts, module, hmem, hcache, cacheNames_iff.mp hresolved⟩
    rw [← places_applyModules hfirst]
    exact mem_places.mpr ⟨frame, hframe, rfl⟩
  · rintro ⟨hplace, artifacts, hartifacts, module, hmem, hcache, hnames⟩
    obtain ⟨first, rest, hmodules⟩ := List.append_of_mem hmem
    rw [symbolicateMinidumpBytesWithSymcaches, ok_bind, hartifacts, ok_bind] at h
    obtain ⟨⟨threads', modules'⟩, hrun, -⟩ := bind_eq_ok.mp h
    rw [hmodules] at hrun
    obtain ⟨threads, front, _, hfirst, -⟩ := applyModules_append hrun
    rw [← places_applyModules hfirst] at hplace
    obtain ⟨frame, hframe, rfl⟩ := mem_places.mp hplace
    exact ⟨frame, ⟨artifacts, first, module, rest, threads, front, hartifacts, hmodules, hfirst,
      hcache, hframe, cacheNames_iff.mpr hnames⟩, rfl⟩

end Overwrites

section Names
variable {DebugId : Type} [DecidableEq DebugId] {ext : Externals DebugId}

end Names

section Sample

def sampleModule (baseAddress debugId : String) : SymbolicatedModule where
  module := "Game.dll"
  baseAddress := baseAddress
  size := 65536
  codeId := none
  debugId := some debugId
  status := .matched
  pe := some "Game.dll"
  pdb := none
  symcacheFormat := none

def sampleId : String := "3249D99D-0C40-4931-8610-F4E4FB0B6936-1"
def otherId : String := "9C2A902B-6FDF-40AD-8308-588A41D572A0-1"

/-- A frame at the relative address `0x1000` of the module at `0x180000000`. -/
def sampleFrame : SymbolicatedFrame where
  instruction := "0x0000000180001000"
  module := some "Game.dll"
  moduleRelative := some "0x1000"
  trust := "context"
  symbolStatus := .missingPdb
  function := none
  sourceFile := none
  sourceLine := none
  inlines := []

def sampleThread : SymbolicatedThread where
  threadId := 7
  faulting := true
  name := none
  unwindStatus := .ok
  framesTruncated := false
  frames := [sampleFrame]

def sampleResult (modules : List SymbolicatedModule) : SymbolicationResult where
  schemaVersion := symbolicationSchemaVersion
  symbolicatorVersion := "0.1.0"
  minidumpVersion := "0.27.0"
  minidumpProcessorVersion := "0.27.0"
  minidumpUnwindVersion := "0.27.0"
  platform := "windows"
  architecture := "x86_64"
  faultingThreadId := some 7
  exceptionReason := none
  assertion := none
  modules := modules
  threads := [sampleThread]
  schemaVersion_eq := rfl
  platform_eq := rfl
  architecture_eq := rfl

def sampleCache : SymCache String where
  debugId := sampleId
  version := 8
  isLatest := true
  lookup address := if address = 0x1000 then [⟨"Arena::Tick()", some "Arena.cpp", 42⟩] else []

/-- One file with one cache, and identifiers in their printed form. -/
def sampleExternals : Externals String where
  debugIdFromStr := some
  symlinkMetadata _ := some ⟨true, 1⟩
  readToEnd _ _ := some [1]
  parseSymCache _ := some sampleCache

def sampleSymcaches : List SymCacheArtifact := [⟨sampleId, "game.symcache"⟩]

end Sample

end FaultLane.SymCacheResolution
