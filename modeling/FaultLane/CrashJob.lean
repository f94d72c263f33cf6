import FaultLane.CrashWorld

set_option autoImplicit false

/-!
# The job of a crash event

One claimed `process_crash` job, from its first query to the transaction that ends it. Each
column is decoded by its name and type, as the worker does.
-/
namespace FaultLane.CrashJob
open SqlRow SqlRow.Outcome Json CrashSymbols
open Grouping (Fingerprint fingerprint)
open Redaction (DataRules ContextFacet validateRules redactAndIndex)

section
variable (w : World)

/-! ## Symbols -/

def resolveRelease (result : Json) : Run ReleaseResolution := do
  match ← ofExcept (releaseLookup result) with
  | none => .ok ⟨none, []⟩
  | some lookup =>
    let candidates ← fetchAll w (.releases lookup)
    .ok ⟨some lookup, candidates.take maxStoredReleaseCandidates⟩

def selectedArtifact (r : ArtifactRow) : Run SelectedArtifact := do
  let objectId ← (row r).get String "object_id"
  let objectKey ← (row r).get String "object_key"
  let checksum ← (row r).get (List UInt8) "checksum"
  let byteSize ← (row r).get Int64 "byte_size"
  let artifactType ← (row r).get String "artifact_type"
  let moduleName ← (row r).get String "module_name"
  let architecture ← (row r).get String "architecture"
  let debugId ← (row r).get String "debug_id"
  let codeId ← (row r).get (Option String) "code_id"
  .ok ⟨objectId, objectKey, checksum, byteSize.toInt, artifactType, moduleName, architecture,
    debugId, codeId⟩

/-- The artifacts of the release that match a module, one for each object. -/
def selectArtifacts (modules : List ModuleIdentity) (architecture : String) :
    List ArtifactRow → List SelectedArtifact → Run (List SelectedArtifact)
  | [], selected => .ok selected
  | r :: rest, selected => do
    let artifact ← selectedArtifact r
    let matching := modules.any (artifact.matchesModule · architecture) &&
      selected.all (·.objectId != artifact.objectId)
    selectArtifacts modules architecture rest
      (if matching then selected ++ [artifact] else selected)

def downloadArtifact (artifact : SelectedArtifact) : Run Unit := do
  refuse (artifact.byteSize < 0) (.deterministic "artifact_size_invalid")
  let (size, checksum) ← ofExcept ((w.download artifact.objectKey).mapError mapArtifactObjectError)
  refuse (size ≠ artifact.byteSize.toNat ∨ checksum ≠ artifact.checksum)
    (.deterministic "artifact_object_mismatch")

inductive CacheState where
  | pending
  | unavailable
  | available (key : String) (checksum : List UInt8) (size : Nat)

def ensureCache (artifact : SelectedArtifact) : Run CacheState := do
  let _ ← draw w (.cache artifact.objectId)
  let r ← fetchOne w (.cache artifact.objectId)
  let state ← (row r).get String "state"
  if state = "available" then
    let checksum ← (row r).get (List UInt8) "checksum"
    let byteSize ← (row r).get Int64 "byte_size"
    let key ← (row r).get String "object_key"
    refuse (checksum.length ≠ 32) (.deterministic "cache_checksum_invalid")
    let size ← u64OfI64 byteSize "cache_size_invalid"
    .ok (.available key checksum size)
  else if state = "failed" ∨ state = "quarantined" then .ok .unavailable
  else
    let cacheId ← (row r).get String "id"
    let _ ← (row r).get String "project_id"
    let _ ← draw w (.cacheJob artifact.objectId)
    let _ ← execute w (.insertCacheJob cacheId)
    .ok .pending

/-- The caches of the PDBs, or `none` when one of them is not made yet. -/
def collectCaches : List SelectedArtifact → List (String × String) →
    Run (Option (List (String × String)))
  | [], entries => .ok (some entries)
  | artifact :: rest, entries => do
    match ← ensureCache w artifact with
    | .pending => .ok none
    | .unavailable => collectCaches rest entries
    | .available key checksum size =>
      let (actualSize, actualChecksum) ← ofExcept ((w.download key).mapError mapCacheObjectError)
      refuse (actualSize ≠ size ∨ actualChecksum ≠ checksum)
        (.deterministic "cache_object_mismatch")
      collectCaches rest (entries ++ [(artifact.debugId, key)])

inductive SymbolSelection where
  | dependency
  | missing
  | ready (entries : List (String × String))

def materializeSymbols (result : Json) (release : ReleaseResolution) : Run SymbolSelection :=
  match release.matchedId with
  | none => .ok .missing
  | some releaseId => do
    let lookup ← okOr release.lookup processorOutputInvalid
    let modules ← ofExcept (processingModules result)
    let rows ← fetchAll w (.releaseArtifacts releaseId)
    let selected ← selectArtifacts modules lookup.architecture rows []
    if selected.isEmpty || !selectedArtifactSizeValid selected then .ok .missing
    else
      forEach (downloadArtifact w) (selected.filter (·.artifactType != "pdb"))
      match ← collectCaches w (selected.filter (·.artifactType == "pdb")) [] with
      | none => .ok .dependency
      | some entries => .ok (if entries.isEmpty then .missing else .ready entries)

/-! ## Grouping -/

inductive GroupingPublication where
  | disabled
  | insufficient
  | grouped (fingerprint : Fingerprint)

def groupingPublication (result : Json) : Run GroupingPublication :=
  if w.groupingEnabled then
    match fingerprint w.unicode w.sha256 result with
    | .error _ => .error processorOutputInvalid
    | .ok (.grouped fingerprint) => .ok (.grouped fingerprint)
    | .ok .insufficient => .ok .insufficient
  else .ok .disabled

structure ExistingGrouping where
  state : String
  issueId : Option String
  releaseId : Option String
  receivedAt : Timestamp

structure GroupingAssignment where
  issueId : String
  firstAssignment : Bool
  previousReleaseId : Option String
  receivedAt : Timestamp

def lockEvent : Run ExistingGrouping := do
  let r ← fetchOr w .lockEvent .lostLease
  let state ← (row r).get String "grouping_state"
  let issueId ← (row r).get (Option String) "issue_id"
  let releaseId ← (row r).get (Option String) "release_id"
  let receivedAt ← (row r).get Timestamp "received_at"
  .ok ⟨state, issueId, releaseId, receivedAt⟩

def recordReleaseMapping (release : ReleaseResolution) : Run Unit := do
  let _ ← execute w .deleteReleaseCandidates
  provided (!release.candidates.isEmpty) do
    let _ ← execute w .insertReleaseCandidates
    .ok ()
  executeOne w .updateReleaseMapping .lostLease

/-- The issue just inserted, or the one with the fingerprint. -/
def storedIssue : Option String → Run String
  | some issueId => .ok issueId
  | none => fetchOr w .issueId (.deterministic "issue_missing")

def assignIssue (existing : ExistingGrouping) : Run GroupingAssignment := do
  let _ ← draw w .issue
  let inserted ← fetchOptional w .insertIssue
  let issueId ← storedIssue w inserted
  executeOne w .updateGrouped .lostLease
  provided inserted.isNone (executeOne w .updateIssue (.deterministic "issue_missing"))
  executeOne w .upsertVariant (.deterministic "issue_rollup_invalid")
  .ok ⟨issueId, true, none, existing.receivedAt⟩

def applyGrouping (existing : ExistingGrouping) (grouping : GroupingPublication) :
    Run (Option GroupingAssignment) := do
  if existing.state = "grouped" then
    let issueId ← okOr existing.issueId (.deterministic "grouping_state_invalid")
    .ok (some ⟨issueId, false, existing.releaseId, existing.receivedAt⟩)
  else
    match grouping with
    | .grouped _ =>
      let assignment ← assignIssue w existing
      .ok (some assignment)
    | .disabled | .insufficient =>
      executeOne w .updateUngrouped .lostLease
      .ok none

def issueRollupInvalid : JobError := .deterministic "issue_rollup_invalid"

def replacementEvent (eventId releaseId representative : String) : Run String :=
  if representative = eventId then fetchOr w (.replacementEvent releaseId) issueRollupInvalid
  else .ok representative

def replacementBounds (releaseId : String) (receivedAt first last : Timestamp) :
    Run (Timestamp × Timestamp) := do
  if first = receivedAt ∨ last = receivedAt then
    let bounds ← fetchOne w (.releaseBounds releaseId)
    let first ← (row bounds).get (Option Timestamp) "first_seen_at"
    let last ← (row bounds).get (Option Timestamp) "last_seen_at"
    let first ← okOr first issueRollupInvalid
    let last ← okOr last issueRollupInvalid
    .ok (first, last)
  else .ok (first, last)

/-- The last half of `remove_release_membership`, with the row that lost one event. -/
def repairIssueRelease (eventId releaseId : String) (receivedAt : Timestamp)
    (r : IssueReleaseRow) : Run Unit := do
  let representative ← (row r).get String "representative_event_id"
  let first ← (row r).get Timestamp "first_seen_at"
  let last ← (row r).get Timestamp "last_seen_at"
  if representative ≠ eventId ∧ first ≠ receivedAt ∧ last ≠ receivedAt then .ok ()
  else
    let _ ← replacementEvent w eventId releaseId representative
    let _ ← replacementBounds w releaseId receivedAt first last
    executeOne w (.updateIssueRelease releaseId) issueRollupInvalid

def removeReleaseMembership (eventId releaseId : String) (receivedAt : Timestamp) :
    Run Unit := do
  match ← fetchOptional w (.deleteIssueRelease releaseId) with
  | some _ => .ok ()
  | none =>
    let r ← fetchOr w (.decrementIssueRelease releaseId) issueRollupInvalid
    repairIssueRelease w eventId releaseId receivedAt r

def addReleaseMembership (releaseId : String) : Run Unit :=
  executeOne w (.upsertIssueRelease releaseId) issueRollupInvalid

def leaveRelease (eventId : String) (assignment : GroupingAssignment) : Run Unit :=
  match assignment.firstAssignment, assignment.previousReleaseId with
  | false, some previous => removeReleaseMembership w eventId previous assignment.receivedAt
  | _, _ => .ok ()

def joinRelease : Option String → Run Unit
  | some releaseId => addReleaseMembership w releaseId
  | none => .ok ()

def applyReleaseDelta (eventId : String) (assignment : GroupingAssignment)
    (releaseId : Option String) : Run Bool :=
  if !assignment.firstAssignment && assignment.previousReleaseId == releaseId then .ok false
  else do
    leaveRelease w eventId assignment
    joinRelease w releaseId
    .ok true

def releaseEvidence (r : ReleaseEvidence) : Run (String × Option Timestamp) := do
  let id ← (row r).get String "id"
  let buildTimestamp ← (row r).get (Option Timestamp) "build_timestamp"
  .ok (id, buildTimestamp)

def loadReleaseChronology : Run Unit := do
  let rows ← fetchAll w .releaseChronology
  forEach (fun r => do let _ ← releaseEvidence r; .ok ()) rows

def issueMissing : JobError := .deterministic "issue_missing"

def resolutionTimestamp : Option String → Run (Option Timestamp)
  | some releaseId => do
    let found ← fetchOptional w (.resolvedTimestamp releaseId)
    .ok found.join
  | none => .ok none

def updateIssueTransitions : Run Unit := do
  let issue ← fetchOr w .issueTransitions issueMissing
  loadReleaseChronology w
  let _ ← (row issue).get String "status"
  let _ ← (row issue).get String "regression_state"
  if !w.groupingEnabled then executeOne w .updateIssueChronology issueMissing
  else
    let resolution ← (row issue).get (Option String) "resolved_in_release_id"
    let _ ← resolutionTimestamp w resolution
    executeOne w .updateIssueChronology issueMissing

/-! ## Retention -/

def setRetentionClass (eventId retentionClass : String) : Run Unit := do
  let _ ← execute w (.setRetentionClass eventId retentionClass)
  .ok ()

def enqueueRawDeletion (eventId objectId retentionClass : String) : Run Unit := do
  let updated ← execute w (.markDeleting objectId)
  if updated = 0 then .ok ()
  else
    setRetentionClass w eventId retentionClass
    let _ ← execute w (.insertDeletion objectId)
    .ok ()

def agedEvent (eventId objectId : String) (oldest : RecentRow) (oldestId : String)
    (currentIsNewer : Bool) : Run (String × String) := do
  if currentIsNewer then
    let oldestObject ← (row oldest).get String "object_id"
    .ok (oldestId, oldestObject)
  else .ok (eventId, objectId)

def retireEvent (eventId objectId : String) : Run Unit :=
  if w.reservoirSelected eventId then setRetentionClass w eventId "reservoir"
  else enqueueRawDeletion w eventId objectId "deleting"

/-- The oldest of three recent events ages out, or the current one does. -/
def ageOut (eventId objectId : String) (oldest : RecentRow) : Run Unit := do
  let oldestId ← (row oldest).get String "event_id"
  let currentIsNewer ← fetchOne w (.currentIsNewer oldestId)
  let (agedEvent, agedObject) ← agedEvent eventId objectId oldest oldestId currentIsNewer
  retireEvent w agedEvent agedObject
  provided currentIsNewer (setRetentionClass w eventId "recent")

/-- The sampled event of an issue. -/
def sampleIssueEvent (eventId issueId : String) (r : RetentionRow) : Run Unit := do
  let issue ← fetchOne w (.issueCount issueId)
  let eventCount ← (row issue).get Int64 "event_count"
  if eventCount ≤ 1 then setRetentionClass w eventId "novel"
  else
    let representative ← (row issue).get (Option String) "representative_event_id"
    if representative = some eventId then setRetentionClass w eventId "representative"
    else
      let _ ← (row r).get (Option String) "variant_fingerprint"
      let variantFirst ← fetchOne w .variantFirst
      if variantFirst then setRetentionClass w eventId "variant"
      else
        let _ ← (row r).get (Option String) "release_id"
        let recent ← fetchAll w (.recent issueId)
        let recent := recent.take 3
        if recent.length < 3 then setRetentionClass w eventId "recent"
        else
          let oldest ← okOr recent.getLast? (mapUsageError .internal)
          let objectId ← (row r).get String "object_id"
          ageOut w eventId objectId oldest

/-- Whether `retain_all_raw` keeps the event under the storage limit. -/
def retainsAllRaw (r : RetentionRow) : Run Bool := do
  let retainAllRaw ← (row r).get Bool "retain_all_raw"
  if retainAllRaw then
    let bytes ← fetchOne w .retainedArtifactBytes
    let limit ← (row r).get Int64 "artifact_storage_limit_bytes"
    .ok (bytes ≤ limit)
  else .ok false

def scheduleRawRetention (eventId : String) : Run Unit := do
  let r ← fetchOr w .retention (mapUsageError .notFound)
  let lifecycle ← (row r).get String "raw_lifecycle_state"
  if lifecycle ≠ "stored" then .ok ()
  else
    let retentionClass ← (row r).get String "raw_retention_class"
    if retentionClass ≠ "pending" then .ok ()
    else
      let outcome ← (row r).get String "usage_outcome"
      if !w.enforcementEnabled || outcome != "sampling" then
        setRetentionClass w eventId "standard"
      else if ← retainsAllRaw w r then setRetentionClass w eventId "standard"
      else
        match ← (row r).get (Option String) "issue_id" with
        | none => setRetentionClass w eventId "novel"
        | some issueId => sampleIssueEvent w eventId issueId r

/-! ## Publication -/

def optionalTexts (values : Option (List String)) : List RustText.Text :=
  (values.getD []).map String.toList

def rulesFromRow (r : DataRulesRow) : Run DataRules := do
  let version ← (row r).get (Option Int64) "version"
  let patterns ← (row r).get (Option (List String)) "redaction_patterns"
  let keys ← (row r).get (Option (List String)) "indexed_game_data_keys"
  match validateRules (optionalTexts patterns) (optionalTexts keys) with
  | .ok rules => .ok { rules with version := (version.getD 0).toInt }
  | .error _ => .error (.deterministic "data_rules_invalid")

def lockForPublication : Run DataRules := do
  let r ← fetchOr w .dataRules .lostLease
  rulesFromRow r

def lockLease : Run Unit := do
  let _ ← fetchOr w .lease .lostLease
  .ok ()

def replaceFacets (facets : List ContextFacet) : Run Unit := do
  let _ ← execute w .deleteFacets
  if facets.isEmpty then .ok ()
  else
    let _ ← execute w .insertFacets
    .ok ()

def replaceSymbolWaiters (release : ReleaseResolution) (waiters : Finset SymbolWaiter) :
    Run Unit := do
  let _ ← execute w .deleteWaiters
  if release.matchedId.isNone ∨ waiters = ∅ then .ok ()
  else
    let _ ← execute w .insertWaiters
    .ok ()

def enqueueWaiterCatchupRequests : Run Unit := do
  match ← fetchOptional w .waiterRelease with
  | none => .ok ()
  | some releaseId =>
    match ← fetchOptional w (.waiterManifest releaseId) with
    | none => .ok ()
    | some manifestId =>
      let _ ← execute w (.insertCatchupRequest manifestId)
      .ok ()

def refreshRequests (requestIds : List String) : Run Unit :=
  forEach (fun id => executeOne w (.refreshRequest id) (.deterministic "reprocessing_request_missing"))
    requestIds.dedup

def completeReprocessingRequestEvents (job : Job) : Run Unit :=
  if job.targetGeneration = 0 then .ok ()
  else do
    let requestIds ← fetchAll w .requestEvents
    refreshRequests w requestIds

/-- The grouping of an event and the counts of its issue and release. -/
def publishGrouping (eventId : String) (existing : ExistingGrouping)
    (grouping : GroupingPublication) (release : ReleaseResolution) : Run Unit := do
  match ← applyGrouping w existing grouping with
  | none => .ok ()
  | some assignment =>
    if ← applyReleaseDelta w eventId assignment release.matchedId then updateIssueTransitions w
    else .ok ()

/-- The job is done, or runs again for a newer request. -/
def endJob (job : Job) (requested : Int64) (done : Statement) : Run Unit :=
  if job.targetGeneration < requested then executeOne w .requeueJob .lostLease
  else executeOne w done .lostLease

def publishedWaiters (state : String) (result : Json) (release : ReleaseResolution) :
    Worked (Finset SymbolWaiter) :=
  if state = "awaiting_symbols" then symbolWaiters result release else .ok ∅

def publishCrashResult (job : Job) (eventId : String) (result : Json) (state : String)
    (release : ReleaseResolution) : Run Unit := do
  let _ ← ofExcept (processingVersions result)
  let waiters ← ofExcept (publishedWaiters state result release)
  let _ ← draw w .result
  let rules ← lockForPublication w
  lockLease w
  let existing ← lockEvent w
  let (result, facets) := redactAndIndex rules result
  let grouping ← groupingPublication w result
  let _ ← okOr (w.toVec result) processorOutputInvalid
  let _ ← fetchOne w .insertResult
  let _ ← execute w .insertSearch
  replaceFacets w facets
  recordReleaseMapping w release
  replaceSymbolWaiters w release waiters
  enqueueWaiterCatchupRequests w
  publishGrouping w eventId existing grouping release
  let updated ← fetchOr w .publishEvent .lostLease
  let requested ← (row updated).get Int64 "requested_reprocessing_generation"
  scheduleRawRetention w eventId
  completeReprocessingRequestEvents w job
  endJob w job requested .completeJob
  commit w

/-! ## The job -/

def runProcessor (withCaches : Bool) : Run Json := do
  let bytes ← ofExcept ((w.processor withCaches).mapError mapRunnerError)
  okOr (w.fromSlice bytes) processorOutputInvalid

def downloadRaw (objectKey : String) (checksum : List UInt8) (expectedSize : Nat) : Run Unit := do
  let (size, actual) ← ofExcept ((w.download objectKey).mapError mapCrashObjectError)
  refuse (size ≠ expectedSize ∨ actual ≠ checksum) (.deterministic "raw_object_mismatch")

def writePrevious (previous : Option Json) : Run Unit :=
  match previous with
  | none => .ok ()
  | some previous => do
    let bytes ← okOr (w.toVec previous) (.deterministic "previous_result_invalid")
    refuse (maxPreviousResultBytes < bytes.length) (.deterministic "previous_result_too_large")
    scratch w .previousResult

/-- What the second processor run makes of the selected symbols. -/
def symbolicateSelected (crashGuid : String) : Run (Json × String) := do
  scratch w .manifest
  let result ← runProcessor w true
  ofExcept (validateResult result (some crashGuid))
  .ok (result, if hasResolvedFrame result then "processed" else "awaiting_symbols")

def processSelection (inspected : Json) (crashGuid : String) :
    SymbolSelection → Run (Json × String)
  | .dependency => .error .dependency
  | .missing => .ok (inspected, "awaiting_symbols")
  | .ready _ => symbolicateSelected w crashGuid

def processCrash (job : Job) : Run Unit := do
  let eventId ← okOr job.eventId (.deterministic "missing_event")
  let r ← fetchOr w (.event eventId) (.deterministic "event_missing")
  let crashGuid ← (row r).get String "crash_guid"
  scratch w .attemptDirectory
  let byteSize ← (row r).get Int64 "byte_size"
  let expectedSize ← u64OfI64 byteSize "raw_size_invalid"
  refuse (maxRawBytes < expectedSize) (.deterministic "raw_size_invalid")
  let checksum ← (row r).get (List UInt8) "checksum"
  let objectKey ← (row r).get String "object_key"
  downloadRaw w objectKey checksum expectedSize
  scratch w .symbolsDirectory
  scratch w .emptyManifest
  let previous ← (row r).get (Option Json) "previous_result"
  writePrevious w previous
  let inspected ← runProcessor w false
  ofExcept (validateResult inspected (some crashGuid))
  let release ← resolveRelease w inspected
  let selection ← materializeSymbols w inspected release
  let (result, state) ← processSelection w inspected crashGuid selection
  let lookup ← ofExcept (releaseLookup result)
  refuse (release.lookup ≠ lookup) processorOutputInvalid
  publishCrashResult w job eventId result state release

/-! ## How the job ends -/

def releaseJob (job : Job) : Run Unit := do
  executeOne w .releaseJob .lostLease
  provided (0 < job.targetGeneration ∧ job.eventId.isSome) do
    let requestIds ← fetchAll w .requestEvents
    refreshRequests w requestIds
  commit w

def finishFailure (job : Job) (quarantine : Bool) : Run Unit := do
  lockLease w
  let updated ← fetchOr w (.failEvent quarantine) .lostLease
  let requested ← (row updated).get Int64 "requested_reprocessing_generation"
  provided (0 < job.targetGeneration) do
    let requestIds ← fetchAll w .requestEvents
    refreshRequests w requestIds
  endJob w job requested .terminalJob
  commit w

def finishResult (job : Job) : Except JobError Unit → Run Unit
  | .ok () | .error .lostLease => .ok ()
  | .error .dependency => releaseJob w job
  | .error (.deterministic _) => finishFailure w job true
  | .error (.resource _) =>
    if job.resourceFailures = 0 then releaseJob w job else finishFailure w job true
  | .error (.transient _) =>
    if job.attempt < job.maxAttempt then releaseJob w job else finishFailure w job false

/-- The result of the job, which `finish_result` has handled, its own failure ignored. -/
def runJob (job : Job) : Outcome Empty (Except JobError Unit) := do
  let resourceRetry := job.resourceFailures = 1 ∧ job.attempt = job.maxAttempt + 1
  let result ← settle
    (if job.maxAttempt < job.attempt ∧ ¬ resourceRetry then .error (.transient "retry_exhausted")
    else processCrash w job)
  let _ ← settle (finishResult w job result)
  .ok result

end
end FaultLane.CrashJob
