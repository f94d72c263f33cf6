import FaultLane.SymbolUpload
import FaultLane.UsageRows

set_option autoImplicit false

/-!
# The work queue and what its jobs change

The rows that a job of each kind names, and what the transaction that publishes its outcome
does to them. A transaction that fails gives `none`.
-/
namespace FaultLane.WorkerQueue
open KeyedTable JobQueue

inductive JobTarget where
  | processCrash (eventId : Uuid)
  | indexArtifact (uploadId : Uuid)
  | generateSymcache (cacheId : Uuid)
  | deleteRaw (eventId : Uuid)
  deriving DecidableEq, Repr

def JobTarget.event : JobTarget → Option Uuid
  | .processCrash eventId | .deleteRaw eventId => some eventId
  | .indexArtifact _ | .generateSymcache _ => none

structure JobRow where
  id : Uuid
  projectId : Uuid
  target : JobTarget
  createdAt : Nat
  job : Job
  deriving DecidableEq

/-- A claimed job in the hands of a worker. -/
structure ClaimedJob where
  holder : Holder
  jobId : Uuid
  projectId : Uuid
  target : JobTarget
  targetGeneration : Nat
  deriving DecidableEq

abbrev ClaimedJob.token (w : ClaimedJob) : Uuid := w.holder.token

/-! ## Events -/

inductive ProcessingState where
  | received
  | stored
  | parsed
  | awaitingSymbols
  | symbolicating
  | processed
  | failed
  | quarantined
  deriving DecidableEq, Repr

structure CrashEvent where
  id : Uuid
  currentResult : Option Uuid
  state : ProcessingState
  stateReason : Option String
  retryable : Bool
  retryAt : Option Nat
  requestedGeneration : Nat
  completedGeneration : Nat
  deriving DecidableEq

/-- The update of `publish_crash_result`. -/
def CrashEvent.publishResult (e : CrashEvent) (target : Nat) (resultId : Uuid)
    (processed : Bool) : CrashEvent :=
  { e with
    currentResult := some resultId
    state := if processed then .processed else .awaitingSymbols
    stateReason := if processed then none else some "matching_symbols_missing"
    retryable := false
    retryAt := none
    completedGeneration := max e.completedGeneration target }

/-- The update of `finish_failure`, which leaves a published event as it is when a request
asked for the attempt. -/
def CrashEvent.fail (e : CrashEvent) (target : Nat) (quarantine : Bool) (code : String) :
    CrashEvent :=
  if 0 < target ∧ e.currentResult.isSome then
    { e with completedGeneration := max e.completedGeneration target }
  else
    { e with
      state := if quarantine then .quarantined else .failed
      stateReason := some code
      retryable := false
      retryAt := none
      completedGeneration := max e.completedGeneration target }

/-! ## Derived caches -/

inductive CacheState where
  | pending
  | processing
  | available (checksum : List UInt8) (byteSize : Nat)
  | failed (failureCode : String)
  | quarantined (failureCode : String)
  deriving DecidableEq, Repr

structure DerivedCache where
  id : Uuid
  projectId : Uuid
  objectKey : String
  state : CacheState
  deriving DecidableEq

/-- The update of `mark_cache_processing`. The checks of the table refuse it for a cache that
has a checksum or a failure code. -/
def DerivedCache.markProcessing (c : DerivedCache) : Option DerivedCache :=
  match c.state with
  | .pending | .processing => some { c with state := .processing }
  | .available _ _ | .failed _ | .quarantined _ => none

/-- The update of `publish_cache`. -/
def DerivedCache.publish (c : DerivedCache) (objectKey : String) (checksum : List UInt8)
    (byteSize : Nat) : Option DerivedCache :=
  if c.state = .processing ∧ c.objectKey = objectKey then
    some { c with state := .available checksum byteSize }
  else none

/-- The update of `finish_failure`. -/
def DerivedCache.fail (c : DerivedCache) (quarantine : Bool) (code : String) :
    Option DerivedCache :=
  if c.state = .pending ∨ c.state = .processing then
    some { c with state := if quarantine then .quarantined code else .failed code }
  else none

/-! ## Publications -/

/-- The rows that jobs name. The raw objects are kept by project. -/
structure Targets where
  events : Table CrashEvent.id
  uploads : SymbolUpload.Uploads
  caches : Table DerivedCache.id
  raw : Uuid → Usage.Project

/-- The statement on the job that ends a transaction. -/
inductive Ending where
  | complete (failureCode : Option String)
  | requeue
  | terminal (quarantine resource : Bool) (code : String)
  deriving DecidableEq, Repr

def Ending.apply (j : Job) (h : Holder) (now : Nat) : Ending → Option Job
  | .complete failureCode => j.completeJob h failureCode
  | .requeue => j.requeueForNewGeneration h now
  | .terminal quarantine resource code => j.terminalJob h quarantine resource code

/-- The transactions that publish the outcome of a job, with what the worker brings. -/
inductive Publication where
  | crashResult (resultId : Uuid) (processed : Bool)
  | artifact (artifact : SymbolUpload.Session) (objectId imageId : Uuid) (cycle : Usage.Cycle)
  | artifactFailure (artifact : SymbolUpload.Session) (code : String) (quarantine : Bool)
  | cache (objectKey : String) (checksum : List UInt8) (byteSize : Nat)
  | restoreRaw
  | deleteRaw (cycle : Usage.Cycle)
  | failure (quarantine resource : Bool) (code : String)

section targets
variable (t : Targets) (w : ClaimedJob)

def Targets.setEvent (e : CrashEvent) : Targets :=
  { t with events := t.events.modify e.id (fun old => { e with id := old.id }) fun _ => rfl }

def Targets.setCache (c : DerivedCache) : Targets :=
  { t with caches := t.caches.modify c.id (fun old => { c with id := old.id }) fun _ => rfl }

def Targets.setRaw (projectId : Uuid) (p : Usage.Project) : Targets :=
  { t with raw := fun id => if id = projectId then p else t.raw id }

/-- The rows of `publish_crash_result`. -/
def Targets.publishCrashResult (eventId resultId : Uuid) (processed : Bool) :
    Option (Targets × Ending) := do
  let e ← t.events.find eventId
  some (t.setEvent (e.publishResult w.targetGeneration resultId processed),
    if w.targetGeneration < e.requestedGeneration then .requeue else .complete none)

/-- The rows of `publish_artifact`. -/
def Targets.publishArtifact (artifact : SymbolUpload.Session) (objectId imageId : Uuid)
    (cycle : Usage.Cycle) : Option (Targets × Ending) := do
  let (u, key) ← t.uploads.publishArtifact artifact objectId imageId
  let o ← u.objects.rows.find? (·.objectKey = key)
  let p ← (t.raw w.projectId).recordSymbolStored o.id artifact.identity.byteSize cycle
  some ({ t with uploads := u }.setRaw w.projectId p, .complete none)

/-- The rows of `finish_failure`. -/
def Targets.fail (quarantine resource : Bool) (code : String) : Option (Targets × Ending) :=
  match w.target with
  | .processCrash eventId => do
    let e ← t.events.find eventId
    some (t.setEvent (e.fail w.targetGeneration quarantine code),
      if w.targetGeneration < e.requestedGeneration then .requeue
      else .terminal quarantine resource code)
  | .indexArtifact uploadId => do
    let u ← t.uploads.failArtifact w.projectId uploadId code
    some ({ t with uploads := u }, .terminal quarantine resource code)
  | .generateSymcache cacheId => do
    let c ← t.caches.find cacheId
    let c ← c.fail quarantine code
    some (t.setCache c, .terminal quarantine resource code)
  | .deleteRaw _ => some (t, .terminal quarantine resource code)

/-- The rows of a publishing transaction, between `lock_lease` and the end of the job. -/
def Targets.publish (p : Publication) : Option (Targets × Ending) :=
  match w.target, p with
  | .processCrash eventId, .crashResult resultId processed =>
    t.publishCrashResult w eventId resultId processed
  | .indexArtifact _, .artifact artifact objectId imageId cycle =>
    t.publishArtifact w artifact objectId imageId cycle
  | .indexArtifact _, .artifactFailure artifact code quarantine => do
    let u ← t.uploads.publishArtifactFailure artifact code quarantine
    some ({ t with uploads := u }, .complete (some code))
  | .generateSymcache cacheId, .cache objectKey checksum byteSize => do
    let c ← t.caches.find cacheId
    let c ← c.publish objectKey checksum byteSize
    some (t.setCache c, .complete none)
  | .deleteRaw eventId, .restoreRaw => do
    let p ← (t.raw w.projectId).restore eventId
    some (t.setRaw w.projectId p, .complete none)
  | .deleteRaw eventId, .deleteRaw cycle => do
    let p ← (t.raw w.projectId).deleteRaw eventId cycle
    some (t.setRaw w.projectId p, .complete none)
  | _, .failure quarantine resource code => t.fail w quarantine resource code
  | _, _ => none

/-- The statement of `mark_cache_processing` on the cache of a job, which changes nothing
when it is refused. -/
def Targets.markCache (cacheId : Uuid) : Targets :=
  match (t.caches.find cacheId).bind DerivedCache.markProcessing with
  | some c => t.setCache c
  | none => t

end targets
end FaultLane.WorkerQueue
