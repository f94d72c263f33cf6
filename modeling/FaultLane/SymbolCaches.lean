import FaultLane.CrashJob
import FaultLane.TransitionSystem
import FaultLane.WorkerQueue

set_option autoImplicit false

/-!
# Symbol caches and the jobs that build them

A `process_crash` run asks for the cache of a PDB with two statements, one for the row of the
cache and one for its `generate_symcache` job. A `generate_symcache` run holds the lease of
that job while it builds the cache, stores it and publishes it. Each statement, and each
transaction, is one step.
-/
namespace FaultLane.SymbolCaches
open KeyedTable JobQueue
open WorkerQueue (DerivedCache)
open CrashSymbols (JobError Worked)
open Grouping (lowerHex)

def symcacheProcessorVersion : String := "symbolic-symcache-13.3.1"
def maxCacheBytes : Nat := 64 * 1024 * 1024

/-- What lies outside the worker: the hash, and the format version of the symbol library. -/
structure Surroundings where
  organizationId : String
  sha256 : List UInt8 → List UInt8
  formatVersion : Nat

/-! ## Rows -/

/-- A row of `derived_symbol_caches`. -/
structure SymbolCache extends DerivedCache where
  sourceObjectId : Uuid
  processorVersion : String
  formatVersion : Nat
  deriving DecidableEq

abbrev SymbolCache.primaryKey (c : SymbolCache) : Uuid := c.id

/-- Available, failed or quarantined. -/
def SymbolCache.done (c : SymbolCache) : Bool :=
  match c.state with
  | .pending | .processing => false
  | .available _ _ | .failed _ | .quarantined _ => true

/-- A row of `jobs` for `generate_symcache`. Its idempotency key is made of the cache's id. -/
structure CacheJob where
  id : Uuid
  projectId : Uuid
  cacheId : Uuid
  job : Job
  deriving DecidableEq

/-! ## The runs -/

/-- What `ensure_cache` reads of the PDB that it is given. -/
structure PdbArtifact where
  objectId : Uuid
  checksum : List UInt8
  deriving DecidableEq

def cacheObjectKey (env : Surroundings) (artifact : PdbArtifact) : String :=
  "org/" ++ env.organizationId ++ "/derived/" ++ lowerHex artifact.checksum ++ "/" ++
    symcacheProcessorVersion ++ "/" ++ toString env.formatVersion ++ "/symcache"

deriving instance DecidableEq for CrashJob.CacheState

inductive EnsurePhase where
  | called
  | rowRead (cacheId projectId : Uuid)
  | answered (cacheId : Uuid) (answer : CrashJob.CacheState)
  | failed (error : JobError)
  deriving DecidableEq

/-- A call of `ensure_cache` by a `process_crash` run of a project. -/
structure EnsureRun where
  id : Uuid
  projectId : Uuid
  artifact : PdbArtifact
  phase : EnsurePhase

/-- The columns of the source object and of its PDB image. -/
structure PdbSource where
  objectKey : String
  checksum : List UInt8
  byteSize : Nat
  debugId : String
  architecture : String
  deriving DecidableEq

/-- What `generate_symcache` reads at its start. -/
structure CacheSource where
  cacheKey : String
  processorVersion : String
  formatVersion : Nat
  pdb : PdbSource
  deriving DecidableEq

inductive GeneratePhase where
  | claimed
  | sourceRead (source : CacheSource)
  | marked (source : CacheSource)
  | published
  | finished
  deriving DecidableEq

def GeneratePhase.source : GeneratePhase → Option CacheSource
  | .sourceRead source | .marked source => some source
  | .claimed | .published | .finished => none

/-- A claimed `generate_symcache` job in the hands of a worker. -/
structure GenerateRun where
  holder : Holder
  jobId : Uuid
  projectId : Uuid
  cacheId : Uuid
  attempt : Nat
  maxAttempt : Nat
  resourceFailures : Nat
  phase : GeneratePhase
  deriving DecidableEq

abbrev GenerateRun.token (run : GenerateRun) : Uuid := run.holder.token

/-- What the processor prints about the cache that it made. -/
structure CacheOutput where
  schemaVersion : Nat
  processorVersion : String
  formatVersion : Nat
  debugId : String
  architecture : String
  byteSize : Nat
  deriving DecidableEq

def CacheOutput.valid (env : Surroundings) (output : CacheOutput) (source : CacheSource) : Prop :=
  output.schemaVersion = 1 ∧
    output.processorVersion = source.processorVersion ∧
    output.processorVersion = symcacheProcessorVersion ∧
    output.formatVersion = source.formatVersion ∧
    output.formatVersion = env.formatVersion ∧
    output.debugId = source.pdb.debugId ∧
    output.architecture = source.pdb.architecture

instance (env : Surroundings) (output : CacheOutput) (source : CacheSource) :
    Decidable (output.valid env source) :=
  inferInstanceAs (Decidable (_ ∧ _))

structure State where
  now : Nat
  caches : Table SymbolCache.primaryKey
  jobs : Table CacheJob.cacheId
  objects : String → Option (List UInt8)
  ensures : Table EnsureRun.id
  generates : Table GenerateRun.token

/-- No cache yet. Other objects may be stored. -/
def State.init (objects : String → Option (List UInt8)) : State :=
  ⟨0, .empty, .empty, objects, .empty, .empty⟩

section
variable (s : State)

def State.setEnsure (runId : Uuid) (phase : EnsurePhase) : State :=
  { s with ensures := s.ensures.modify runId (fun run => { run with phase := phase }) fun _ => rfl }

def State.setGenerate (token : Uuid) (phase : GeneratePhase) : State :=
  { s with
    generates := s.generates.modify token (fun run => { run with phase := phase }) fun _ => rfl }

def State.setCache (cacheId : Uuid) (c : DerivedCache) : State :=
  { s with
    caches := s.caches.modify cacheId (fun old => { old with state := c.state }) fun _ => rfl }

def State.setJob (cacheId : Uuid) (j : Job) : State :=
  { s with jobs := s.jobs.modify cacheId (fun old => { old with job := j }) fun _ => rfl }

def State.putObject (key : String) (file : List UInt8) : State :=
  { s with objects := fun k => if k = key then some file else s.objects k }

/-- The row that the worker's statements on `jobs` name. -/
def State.jobOf (run : GenerateRun) : Option CacheJob :=
  (s.jobs.find run.cacheId).filter fun r => r.id = run.jobId ∧ r.projectId = run.projectId

/-- The row that the worker's statements on `derived_symbol_caches` name. -/
def State.cacheOf (run : GenerateRun) : Option SymbolCache :=
  (s.caches.find run.cacheId).filter fun c => c.projectId = run.projectId

/-! ## `ensure_cache` -/

def State.call (runId projectId : Uuid) (artifact : PdbArtifact) : Option State :=
  if s.ensures.find runId = none then
    some { s with ensures := s.ensures.insert ⟨runId, projectId, artifact, .called⟩ }
  else none

/-- What the caller does with the row that the first statement returns. -/
def EnsurePhase.ofRow (c : SymbolCache) : EnsurePhase :=
  match c.state with
  | .available checksum byteSize =>
    if checksum.length = 32 then .answered c.id (.available c.objectKey checksum byteSize)
    else .failed (.deterministic "cache_checksum_invalid")
  | .failed _ | .quarantined _ => .answered c.id .unavailable
  | .pending | .processing => .rowRead c.id c.projectId

/-- The caller's phase when the reply to its statement comes, and when it does not. -/
def EnsurePhase.replied (phase : EnsurePhase) (reply : Bool) : EnsurePhase :=
  if reply then phase else .failed (.transient "database_unavailable")

/-- The row with the identity of the cache. -/
def State.cacheRow (env : Surroundings) (artifact : PdbArtifact) : Option SymbolCache :=
  s.caches.rows.find? fun c => c.sourceObjectId = artifact.objectId ∧
    c.processorVersion = symcacheProcessorVersion ∧ c.formatVersion = env.formatVersion

def SymbolCache.new (env : Surroundings) (id : Uuid) (run : EnsureRun) : SymbolCache :=
  { id := id
    projectId := run.projectId
    objectKey := cacheObjectKey env run.artifact
    state := .pending
    sourceObjectId := run.artifact.objectId
    processorVersion := symcacheProcessorVersion
    formatVersion := env.formatVersion }

/-- The first statement of `ensure_cache`, whose reply may be lost. -/
def State.insertCacheRow (env : Surroundings) (runId id : Uuid) (reply : Bool) : Option State := do
  let run ← s.ensures.find runId
  match run.phase with
  | .called =>
    match s.cacheRow env run.artifact with
    | some c => some (s.setEnsure runId ((EnsurePhase.ofRow c).replied reply))
    | none =>
      let c := SymbolCache.new env id run
      if s.caches.find id = none ∧ ∀ other ∈ s.caches.rows, other.objectKey ≠ c.objectKey then
        some ({ s with caches := s.caches.insert c }.setEnsure runId
          ((EnsurePhase.ofRow c).replied reply))
      else none
  | _ => none

/-- The second statement of `ensure_cache`, whose reply may be lost. -/
def State.insertCacheJob (runId id : Uuid) (reply : Bool) : Option State := do
  let run ← s.ensures.find runId
  match run.phase with
  | .rowRead cacheId projectId =>
    let _ ← (s.caches.find cacheId).filter fun c => c.projectId = projectId
    if ∀ r ∈ s.jobs.rows, r.id ≠ id then
      some ({ s with jobs := s.jobs.insert ⟨id, projectId, cacheId, .new 50 s.now⟩ }.setEnsure runId
        ((EnsurePhase.answered cacheId .pending).replied reply))
    else none
  | _ => none

/-! ## `generate_symcache` -/

/-- `claim_job` when it takes the job of a cache, with a fresh token. -/
def State.claim (holder : Holder) (cacheId : Uuid) : Option State := do
  let r ← s.jobs.find cacheId
  let j ← r.job.claim holder s.now
  if s.generates.find holder.token = none then
    some { s.setJob cacheId j with
      generates := s.generates.insert
        ⟨holder, r.id, r.projectId, cacheId, j.attempt, j.maxAttempt, j.resourceFailures,
          .claimed⟩ }
  else none

def State.heartbeat (token : Uuid) : Option State := do
  let run ← s.generates.find token
  let r ← s.jobOf run
  let j ← r.job.heartbeat run.holder s.now
  some (s.setJob run.cacheId j)

/-- `run_job` gives up without an attempt. -/
def GenerateRun.exhausted (run : GenerateRun) : Prop :=
  run.maxAttempt < run.attempt ∧
    ¬ (run.resourceFailures = 1 ∧ run.attempt = run.maxAttempt + 1)

instance (run : GenerateRun) : Decidable run.exhausted := inferInstanceAs (Decidable (_ ∧ _))

/-- The query at the start of `generate_symcache`, when it finds the row with its PDB. -/
def State.readSource (token : Uuid) (pdb : PdbSource) : Option State := do
  let run ← s.generates.find token
  let c ← s.cacheOf run
  if run.phase = .claimed ∧ ¬ run.exhausted ∧ c.done = false then
    some (s.setGenerate token
      (.sourceRead ⟨c.objectKey, c.processorVersion, c.formatVersion, pdb⟩))
  else none

/-- `mark_cache_processing` once the PDB is downloaded, with the size and checksum of the
download. The reply may be lost. -/
def State.markCacheProcessing (token size : Nat) (checksum : List UInt8) (reply : Bool) :
    Option State := do
  let run ← s.generates.find token
  match run.phase with
  | .sourceRead source =>
    let r ← s.jobOf run
    let c ← s.cacheOf run
    let marked ← c.markProcessing
    if size = source.pdb.byteSize ∧ checksum = source.pdb.checksum ∧
        r.job.holds run.holder ∧ r.job.leaseActive s.now then
      let updated := s.setCache run.cacheId marked
      some (if reply then updated.setGenerate token (.marked source) else updated)
    else none
  | _ => none

/-- The updates of `publish_cache` after `lock_lease`, with the checks of the table. -/
def State.publishRows (run : GenerateRun) (locked : Job) (cacheKey : String)
    (checksum : List UInt8) (byteSize : Nat) : Option State := do
  let c ← s.cacheOf run
  let published ← c.publish cacheKey checksum byteSize
  let completed ← locked.completeJob run.holder none
  if checksum.length = 32 ∧ 0 < byteSize then
    some ((s.setCache run.cacheId published).setJob run.cacheId completed)
  else none

/-- `publish_cache` with the file that the processor made. The object stays stored when the
transaction does not commit. -/
def State.publishCache (env : Surroundings) (token : Uuid) (output : CacheOutput)
    (file : List UInt8) (commits : Bool) : Option State := do
  let run ← s.generates.find token
  match run.phase with
  | .marked source =>
    let r ← s.jobOf run
    let locked ← r.job.lockLease run.holder s.now
    if output.valid env source ∧ file.length ≤ maxCacheBytes ∧ file.length = output.byteSize then
      let stored := (s.putObject source.cacheKey file).setGenerate token .published
      let rows := stored.publishRows run locked source.cacheKey (env.sha256 file) file.length
      some (if commits then rows.getD stored else stored)
    else none
  | _ => none

/-! ## The end of a run -/

inductive Ending where
  | nothing
  | release (seconds : Nat) (resource dependency : Bool) (code : String)
  | failure (quarantine resource : Bool) (code : String)
  deriving DecidableEq

def GenerateRun.retry (run : GenerateRun) (resource : Bool) (code : String) : Ending :=
  .release (min (2 ^ min (run.attempt - 1) 6) 60) resource false code

/-- `finish_result`. -/
def GenerateRun.finishResult (run : GenerateRun) : Worked Unit → Ending
  | .ok () | .error .lostLease => .nothing
  | .error .dependency => .release 1 false true "dependency_pending"
  | .error (.deterministic code) => .failure true false code
  | .error (.resource code) =>
    if run.resourceFailures = 0 then run.retry true code else .failure true true code
  | .error (.transient code) =>
    if run.attempt < run.maxAttempt then run.retry false code else .failure false false code

/-- `release_job`. -/
def State.releaseJob (run : GenerateRun) (seconds : Nat) (resource dependency : Bool)
    (code : String) : Option State := do
  let r ← s.jobOf run
  let released ← r.job.release run.holder s.now seconds resource dependency code
  some (s.setJob run.cacheId released)

/-- `finish_failure`. -/
def State.finishFailure (run : GenerateRun) (quarantine resource : Bool) (code : String) :
    Option State := do
  let r ← s.jobOf run
  let locked ← r.job.lockLease run.holder s.now
  let c ← s.cacheOf run
  let failed ← c.fail quarantine code
  let ended ← locked.terminalJob run.holder quarantine resource code
  some ((s.setCache run.cacheId failed).setJob run.cacheId ended)

def State.conclude (run : GenerateRun) : Ending → Option State
  | .nothing => some s
  | .release seconds resource dependency code => s.releaseJob run seconds resource dependency code
  | .failure quarantine resource code => s.finishFailure run quarantine resource code

/-- The result of `run_job` and what `finish_result` makes of it, unless the database fails. -/
def State.finish (token : Uuid) (result : Worked Unit) (applied : Bool) : Option State := do
  let run ← s.generates.find token
  if run.phase ≠ .finished ∧
      (run.exhausted → result = .error (.transient "retry_exhausted")) then
    let ended := s.setGenerate token .finished
    some (if applied then (ended.conclude run (run.finishResult result)).getD ended else ended)
  else none

/-- `cancel_job` when the worker stops. -/
def State.cancel (token : Uuid) : Option State := do
  let run ← s.generates.find token
  s.releaseJob run 0 false true "processing_cancelled"

end

/-! ## Steps -/

inductive Action where
  | tick (seconds : Nat)
  | call (runId projectId : Uuid) (artifact : PdbArtifact)
  | insertCacheRow (runId id : Uuid) (reply : Bool)
  | insertCacheJob (runId id : Uuid) (reply : Bool)
  | claim (holder : Holder) (cacheId : Uuid)
  | heartbeat (token : Uuid)
  | readSource (token : Uuid) (pdb : PdbSource)
  | markCacheProcessing (token size : Nat) (checksum : List UInt8) (reply : Bool)
  | publishCache (token : Uuid) (output : CacheOutput) (file : List UInt8) (commits : Bool)
  | finish (token : Uuid) (result : Worked Unit) (applied : Bool)
  | cancel (token : Uuid)

def step (env : Surroundings) (s : State) : Action → Option State
  | .tick seconds => some { s with now := s.now + seconds }
  | .call runId projectId artifact => s.call runId projectId artifact
  | .insertCacheRow runId id reply => s.insertCacheRow env runId id reply
  | .insertCacheJob runId id reply => s.insertCacheJob runId id reply
  | .claim holder cacheId => s.claim holder cacheId
  | .heartbeat token => s.heartbeat token
  | .readSource token pdb => s.readSource token pdb
  | .markCacheProcessing token size checksum reply =>
    s.markCacheProcessing token size checksum reply
  | .publishCache token output file commits => s.publishCache env token output file commits
  | .finish token result applied => s.finish token result applied
  | .cancel token => s.cancel token

end FaultLane.SymbolCaches
