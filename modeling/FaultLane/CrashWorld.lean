import FaultLane.CrashSymbols
import FaultLane.Grouping
import FaultLane.Redaction
import FaultLane.SqlRow

set_option autoImplicit false

/-!
# What a crash job asks

The answers of the database, the object store, the processor and the scratch directory to
one `process_crash` job are a `World`. A query answers with rows of its table, where a
column is absent only if the schema allows `NULL`.
-/
namespace FaultLane.CrashJob
open SqlRow SqlRow.Outcome Json CrashSymbols

def maxRawBytes : Int := 64 * 1024 * 1024
def maxPreviousResultBytes : Nat := 16 * 1024 * 1024
def maxStoredReleaseCandidates : Nat := 101

inductive ObjectError where
  | unavailable
  | missing
  | invalid
  deriving DecidableEq, Repr

inductive RunnerError where
  | unavailable
  | invalidImage
  | rejected
  | resourceLimit
  | invalidOutput
  deriving DecidableEq, Repr

inductive UsageError where
  | notFound
  | unavailable
  | internal
  deriving DecidableEq, Repr

/-! ## Rows -/

class Selected (α : Type) where
  row : α → Row

export Selected (row)

structure EventRow where
  crashGuid : Option String
  objectKey : String
  checksum : List UInt8
  byteSize : Int64
  previousResult : Option Json

instance : Selected EventRow where
  row r :=
    [("crash_guid", .ofOption .text r.crashGuid), ("object_key", .text r.objectKey),
      ("checksum", .bytea r.checksum), ("byte_size", .int8 r.byteSize),
      ("previous_result", .ofOption .jsonb r.previousResult)]

structure ArtifactRow where
  artifactType : ArtifactType
  moduleName : String
  architecture : String
  debugId : String
  codeId : Option String
  objectId : String
  objectKey : String
  checksum : List UInt8
  byteSize : Int64

instance : Selected ArtifactRow where
  row r :=
    [("artifact_type", .text r.artifactType.text), ("module_name", .text r.moduleName),
      ("architecture", .text r.architecture), ("debug_id", .text r.debugId),
      ("code_id", .ofOption .text r.codeId), ("object_id", .text r.objectId),
      ("object_key", .text r.objectKey), ("checksum", .bytea r.checksum),
      ("byte_size", .int8 r.byteSize)]

inductive CacheRowState where
  | pending
  | processing
  | available
  | failed
  | quarantined
  deriving DecidableEq, Repr

def CacheRowState.text : CacheRowState → String
  | .pending => "pending"
  | .processing => "processing"
  | .available => "available"
  | .failed => "failed"
  | .quarantined => "quarantined"

/-- A cache has a checksum and a size while it is available. -/
structure CacheRow where
  id : String
  projectId : String
  state : CacheRowState
  objectKey : String
  checksum : Option (List UInt8)
  byteSize : Option Int64
  available : state = .available → checksum.isSome ∧ byteSize.isSome

instance : Selected CacheRow where
  row r :=
    [("id", .text r.id), ("project_id", .text r.projectId), ("state", .text r.state.text),
      ("object_key", .text r.objectKey), ("checksum", .ofOption .bytea r.checksum),
      ("byte_size", .ofOption .int8 r.byteSize)]

/-- Left joined: a project without rules has no version, patterns or keys. -/
structure DataRulesRow where
  version : Option Int64
  redactionPatterns : Option (List String)
  indexedGameDataKeys : Option (List String)

instance : Selected DataRulesRow where
  row r :=
    [("version", .ofOption .int8 r.version),
      ("redaction_patterns", .ofOption .textArray r.redactionPatterns),
      ("indexed_game_data_keys", .ofOption .textArray r.indexedGameDataKeys)]

structure GroupingRow where
  groupingState : String
  issueId : Option String
  releaseId : Option String
  receivedAt : Timestamp

instance : Selected GroupingRow where
  row r :=
    [("grouping_state", .text r.groupingState), ("issue_id", .ofOption .text r.issueId),
      ("release_id", .ofOption .text r.releaseId), ("received_at", .timestamptz r.receivedAt)]

structure IssueReleaseRow where
  firstSeenAt : Timestamp
  lastSeenAt : Timestamp
  representativeEventId : String

instance : Selected IssueReleaseRow where
  row r :=
    [("first_seen_at", .timestamptz r.firstSeenAt), ("last_seen_at", .timestamptz r.lastSeenAt),
      ("representative_event_id", .text r.representativeEventId)]

/-- `min` and `max` of no rows are `NULL`. -/
structure BoundsRow where
  firstSeenAt : Option Timestamp
  lastSeenAt : Option Timestamp

instance : Selected BoundsRow where
  row r :=
    [("first_seen_at", .ofOption .timestamptz r.firstSeenAt),
      ("last_seen_at", .ofOption .timestamptz r.lastSeenAt)]

structure IssueRow where
  status : String
  regressionState : String
  resolvedInReleaseId : Option String

instance : Selected IssueRow where
  row r :=
    [("status", .text r.status), ("regression_state", .text r.regressionState),
      ("resolved_in_release_id", .ofOption .text r.resolvedInReleaseId)]

structure ReleaseEvidence where
  id : String
  buildTimestamp : Option Timestamp

instance : Selected ReleaseEvidence where
  row r :=
    [("id", .text r.id), ("build_timestamp", .ofOption .timestamptz r.buildTimestamp)]

structure GenerationRow where
  requestedReprocessingGeneration : Int64

instance : Selected GenerationRow where
  row r := [("requested_reprocessing_generation", .int8 r.requestedReprocessingGeneration)]

structure RetentionRow where
  usageOutcome : String
  rawRetentionClass : String
  issueId : Option String
  releaseId : Option String
  variantFingerprint : Option String
  objectId : String
  rawLifecycleState : String
  retainAllRaw : Bool
  artifactStorageLimitBytes : Int64

instance : Selected RetentionRow where
  row r :=
    [("usage_outcome", .text r.usageOutcome), ("raw_retention_class", .text r.rawRetentionClass),
      ("issue_id", .ofOption .text r.issueId), ("release_id", .ofOption .text r.releaseId),
      ("variant_fingerprint", .ofOption .text r.variantFingerprint),
      ("object_id", .text r.objectId), ("raw_lifecycle_state", .text r.rawLifecycleState),
      ("retain_all_raw", .bool r.retainAllRaw),
      ("artifact_storage_limit_bytes", .int8 r.artifactStorageLimitBytes)]

structure IssueCountRow where
  eventCount : Int64
  representativeEventId : Option String

instance : Selected IssueCountRow where
  row r :=
    [("event_count", .int8 r.eventCount),
      ("representative_event_id", .ofOption .text r.representativeEventId)]

structure RecentRow where
  eventId : String
  objectId : String

instance : Selected RecentRow where
  row r := [("event_id", .text r.eventId), ("object_id", .text r.objectId)]

/-! ## The world -/

/-- The queries that answer with rows or scalars. -/
inductive Query : Type → Type where
  | event (eventId : String) : Query EventRow
  | releases (lookup : ReleaseLookup) : Query String
  | releaseArtifacts (releaseId : String) : Query ArtifactRow
  | cache (objectId : String) : Query CacheRow
  | dataRules : Query DataRulesRow
  | lease : Query String
  | lockEvent : Query GroupingRow
  | insertResult : Query String
  | waiterRelease : Query String
  | waiterManifest (releaseId : String) : Query String
  | insertIssue : Query String
  | issueId : Query String
  | deleteIssueRelease (releaseId : String) : Query Bool
  | decrementIssueRelease (releaseId : String) : Query IssueReleaseRow
  | replacementEvent (releaseId : String) : Query String
  | releaseBounds (releaseId : String) : Query BoundsRow
  | issueTransitions : Query IssueRow
  | resolvedTimestamp (releaseId : String) : Query (Option Timestamp)
  | releaseChronology : Query ReleaseEvidence
  | publishEvent : Query GenerationRow
  | retention : Query RetentionRow
  | retainedArtifactBytes : Query Int64
  | issueCount (issueId : String) : Query IssueCountRow
  | variantFirst : Query Bool
  | recent (issueId : String) : Query RecentRow
  | currentIsNewer (eventId : String) : Query Bool
  | requestEvents : Query String
  | failEvent (quarantine : Bool) : Query GenerationRow

/-- The statements whose affected rows are counted, or not looked at. -/
inductive Statement where
  | insertCacheJob (cacheId : String)
  | insertSearch
  | deleteFacets
  | insertFacets
  | deleteReleaseCandidates
  | insertReleaseCandidates
  | updateReleaseMapping
  | deleteWaiters
  | insertWaiters
  | insertCatchupRequest (manifestId : String)
  | updateUngrouped
  | updateGrouped
  | updateIssue
  | upsertVariant
  | upsertIssueRelease (releaseId : String)
  | updateIssueRelease (releaseId : String)
  | updateIssueChronology
  | setRetentionClass (eventId retentionClass : String)
  | markDeleting (objectId : String)
  | insertDeletion (objectId : String)
  | refreshRequest (requestId : String)
  | completeJob
  | requeueJob
  | releaseJob
  | terminalJob
  deriving DecidableEq

inductive Draw where
  | cache (objectId : String)
  | cacheJob (objectId : String)
  | result
  | issue
  deriving DecidableEq

inductive ScratchStep where
  | attemptDirectory
  | symbolsDirectory
  | emptyManifest
  | previousResult
  | manifest
  deriving DecidableEq

structure World where
  unicode : Char → Bool
  sha256 : List UInt8 → List UInt8
  fromSlice : List UInt8 → Option Json
  toVec : Json → Option (List UInt8)
  randomUuid : Draw → Option String
  scratch : ScratchStep → Bool
  download : String → Except ObjectError (Nat × List UInt8)
  /-- The processor's answer without and with symbol caches. -/
  processor : Bool → Except RunnerError (List UInt8)
  /-- The rows of a query, or `none` when the database fails. -/
  fetch : {α : Type} → Query α → Option (List α)
  /-- The rows that a statement changed, or `none` when the database fails. -/
  execute : Statement → Option Nat
  commits : Bool
  groupingEnabled : Bool
  enforcementEnabled : Bool
  /-- `reservoir_selected`, a digest of the event. -/
  reservoirSelected : String → Bool

structure Job where
  eventId : Option String
  attempt : Int
  maxAttempt : Int
  resourceFailures : Int
  targetGeneration : Int64

abbrev Run (α : Type) := Outcome JobError α

def databaseUnavailable : JobError := .transient "database_unavailable"
def scratchUnavailable : JobError := .transient "scratch_unavailable"
def randomUnavailable : JobError := .transient "random_unavailable"

section
variable (w : World)

def fetchAll {α : Type} (q : Query α) : Run (List α) := okOr (w.fetch q) databaseUnavailable

def fetchOptional {α : Type} (q : Query α) : Run (Option α) := do
  let rows ← fetchAll w q
  .ok rows.head?

/-- `fetch_one`, for which no row is a failure. -/
def fetchOne {α : Type} (q : Query α) : Run α := do
  let row ← fetchOptional w q
  okOr row databaseUnavailable

/-- `fetch_optional` and `ok_or`. -/
def fetchOr {α : Type} (q : Query α) (missing : JobError) : Run α := do
  let row ← fetchOptional w q
  okOr row missing

def execute (s : Statement) : Run Nat := okOr (w.execute s) databaseUnavailable

/-- A guarded update, which must change its row. -/
def executeOne (s : Statement) (lost : JobError) : Run Unit := do
  let updated ← execute w s
  refuse (updated ≠ 1) lost

def scratch (s : ScratchStep) : Run Unit := refuse (w.scratch s = false) scratchUnavailable

def draw (d : Draw) : Run String := okOr (w.randomUuid d) randomUnavailable

def commit : Run Unit := refuse (w.commits = false) databaseUnavailable

end

def mapObjectError (missing invalid : String) : ObjectError → JobError
  | .unavailable => .transient "object_store_unavailable"
  | .missing => .transient missing
  | .invalid => .deterministic invalid

def mapArtifactObjectError : ObjectError → JobError :=
  mapObjectError "artifact_object_missing" "artifact_object_invalid"

def mapCacheObjectError : ObjectError → JobError :=
  mapObjectError "cache_object_missing" "cache_object_invalid"

def mapCrashObjectError : ObjectError → JobError :=
  mapObjectError "raw_object_missing" "raw_object_invalid"

def mapRunnerError : RunnerError → JobError
  | .unavailable | .invalidImage => .transient "processor_unavailable"
  | .resourceLimit => .resource "processor_resource_limit"
  | .rejected | .invalidOutput => .deterministic "processor_rejected"

def mapUsageError : UsageError → JobError
  | .notFound => .deterministic "usage_state_missing"
  | .unavailable | .internal => databaseUnavailable

/-- `u64::try_from`. -/
def u64OfI64 (value : Int64) (code : String) : Run Nat :=
  if 0 ≤ value.toInt then .ok value.toInt.toNat else .error (.deterministic code)

end FaultLane.CrashJob
