import FaultLane.CrashIngest
import FaultLane.CrashJob
import FaultLane.CrashRequestModes

set_option autoImplicit false

/-!
# Crash jobs that panic

Every column that the worker decodes is one the schema fills, or is decoded as optional,
but for the crash GUID of the event.
-/
namespace FaultLane.CrashJob
open SqlRow SqlRow.Outcome CrashSymbols CrashContext CrashRequest
open CrashIngest (CrashEvent ObjectKey usableCrashGuid)

section
variable {w : World}

theorem returns_fetchAll {α : Type} (q : Query α) : (fetchAll w q).Returns := returns_okOr _ _

theorem returns_fetchOptional {α : Type} (q : Query α) : (fetchOptional w q).Returns :=
  (returns_fetchAll q).bind fun _ _ => returns_ok _

theorem returns_fetchOne {α : Type} (q : Query α) : (fetchOne w q).Returns :=
  (returns_fetchOptional q).bind fun _ _ => returns_okOr _ _

theorem returns_fetchOr {α : Type} (q : Query α) (missing : JobError) :
    (fetchOr w q missing).Returns :=
  (returns_fetchOptional q).bind fun _ _ => returns_okOr _ _

theorem fetchOr_eq_ok {α : Type} {q : Query α} {missing : JobError} {a : α}
    (h : fetchOr w q missing = .ok a) : ∃ rows, w.fetch q = some rows ∧ a ∈ rows := by
  obtain ⟨row, hoptional, hrow⟩ := bind_eq_ok.mp h
  obtain ⟨rows, hrows, hhead⟩ := bind_eq_ok.mp hoptional
  cases hhead
  exact ⟨rows, okOr_eq_ok.mp hrows, List.mem_of_head? (okOr_eq_ok.mp hrow)⟩

theorem returns_execute (s : Statement) : (execute w s).Returns := returns_okOr _ _

theorem returns_executeOne (s : Statement) (lost : JobError) : (executeOne w s lost).Returns :=
  (returns_execute s).bind fun _ _ => returns_refuse _ _

theorem returns_scratch (s : ScratchStep) : (scratch w s).Returns := returns_refuse _ _

theorem returns_draw (d : Draw) : (draw w d).Returns := returns_okOr _ _

theorem returns_commit : (commit w).Returns := returns_refuse _ _

theorem returns_u64OfI64 (value : Int64) (code : String) : (u64OfI64 value code).Returns := by
  unfold u64OfI64
  split <;> exact nofun

/-! ## Symbols -/

theorem returns_resolveRelease (result : Json) : (resolveRelease w result).Returns := by
  refine (returns_ofExcept _).bind fun lookup _ => ?_
  cases lookup with
  | none => exact returns_ok _
  | some lookup => exact (returns_fetchAll _).bind fun _ _ => returns_ok _

theorem returns_selectedArtifact (r : ArtifactRow) : (selectedArtifact r).Returns := by
  refine Row.returns_bind rfl ?_
  refine Row.returns_bind rfl ?_
  refine Row.returns_bind rfl ?_
  refine Row.returns_bind rfl ?_
  refine Row.returns_bind rfl ?_
  refine Row.returns_bind rfl ?_
  refine Row.returns_bind rfl ?_
  refine Row.returns_bind rfl ?_
  exact Row.returns_bind (Row.get_ofOption rfl fun _ => rfl) (returns_ok _)

theorem returns_selectArtifacts (modules : List ModuleIdentity) (architecture : String)
    (rows : List ArtifactRow) (selected : List SelectedArtifact) :
    (selectArtifacts modules architecture rows selected).Returns := by
  induction rows generalizing selected with
  | nil => exact returns_ok _
  | cons r rest ih => exact (returns_selectedArtifact r).bind fun _ _ => ih _

theorem returns_downloadArtifact (artifact : SelectedArtifact) :
    (downloadArtifact w artifact).Returns := by
  refine (returns_refuse _ _).bind fun _ _ => ?_
  exact (returns_ofExcept _).bind fun _ _ => returns_refuse _ _

theorem CacheRowState.text_eq_available {state : CacheRowState} (h : state.text = "available") :
    state = .available := by
  cases state with
  | available => rfl
  | pending | processing | failed | quarantined => exact absurd h (by decide)

theorem returns_ensureCache (artifact : SelectedArtifact) : (ensureCache w artifact).Returns := by
  refine (returns_draw _).bind fun _ _ => ?_
  refine (returns_fetchOne _).bind fun r _ => ?_
  refine Row.returns_bind (a := r.state.text) rfl ?_
  split
  · next hstate =>
    obtain ⟨hchecksum, hsize⟩ := r.available (CacheRowState.text_eq_available hstate)
    obtain ⟨checksum, hchecksum⟩ := Option.isSome_iff_exists.mp hchecksum
    obtain ⟨byteSize, hsize⟩ := Option.isSome_iff_exists.mp hsize
    refine Row.returns_bind (a := checksum)
      (@Row.get_eq_ok _ _ _ _ _ (.ofOption .bytea r.checksum) _ rfl (by rw [hchecksum]; rfl)) ?_
    refine Row.returns_bind (a := byteSize)
      (@Row.get_eq_ok _ _ _ _ _ (.ofOption .int8 r.byteSize) _ rfl (by rw [hsize]; rfl)) ?_
    refine Row.returns_bind rfl ?_
    refine (returns_refuse _ _).bind fun _ _ => ?_
    exact (returns_u64OfI64 _ _).bind fun _ _ => returns_ok _
  · split
    · exact returns_ok _
    · refine Row.returns_bind rfl ?_
      refine Row.returns_bind rfl ?_
      refine (returns_draw _).bind fun _ _ => ?_
      exact (returns_execute _).bind fun _ _ => returns_ok _

theorem returns_collectCaches (artifacts : List SelectedArtifact)
    (entries : List (String × String)) : (collectCaches w artifacts entries).Returns := by
  induction artifacts generalizing entries with
  | nil => exact returns_ok _
  | cons artifact rest ih =>
    refine (returns_ensureCache artifact).bind fun state _ => ?_
    cases state with
    | pending => exact returns_ok _
    | unavailable => exact ih entries
    | available key checksum size =>
      refine (returns_ofExcept _).bind fun _ _ => ?_
      exact (returns_refuse _ _).bind fun _ _ => ih _

theorem returns_materializeSymbols (result : Json) (release : ReleaseResolution) :
    (materializeSymbols w result release).Returns := by
  unfold materializeSymbols
  split
  · exact returns_ok _
  · refine (returns_okOr _ _).bind fun lookup _ => ?_
    refine (returns_ofExcept _).bind fun modules _ => ?_
    refine (returns_fetchAll _).bind fun rows _ => ?_
    refine (returns_selectArtifacts _ _ _ _).bind fun selected _ => ?_
    split
    · exact returns_ok _
    · refine (Returns.forEach returns_downloadArtifact _).bind fun _ _ => ?_
      refine (returns_collectCaches _ _).bind fun caches _ => ?_
      cases caches with
      | none => exact returns_ok _
      | some entries => exact returns_ok _

/-! ## Grouping -/

theorem returns_groupingPublication (result : Json) : (groupingPublication w result).Returns := by
  unfold groupingPublication
  split
  · split <;> exact nofun
  · exact returns_ok _

theorem returns_lockEvent : (lockEvent w).Returns := by
  refine (returns_fetchOr _ _).bind fun r _ => ?_
  refine Row.returns_bind rfl ?_
  refine Row.returns_bind (Row.get_ofOption rfl fun _ => rfl) ?_
  refine Row.returns_bind (Row.get_ofOption rfl fun _ => rfl) ?_
  exact Row.returns_bind rfl (returns_ok _)

theorem returns_recordReleaseMapping (release : ReleaseResolution) :
    (recordReleaseMapping w release).Returns := by
  refine (returns_execute _).bind fun _ _ => ?_
  refine (Returns.provided ((returns_execute _).bind fun _ _ => returns_ok _)).bind fun _ _ => ?_
  exact returns_executeOne _ _

theorem returns_storedIssue (inserted : Option String) : (storedIssue w inserted).Returns := by
  cases inserted with
  | some issueId => exact returns_ok _
  | none => exact returns_fetchOr _ _

theorem returns_assignIssue (existing : ExistingGrouping) : (assignIssue w existing).Returns := by
  refine (returns_draw _).bind fun _ _ => ?_
  refine (returns_fetchOptional _).bind fun inserted _ => ?_
  refine (returns_storedIssue inserted).bind fun issueId _ => ?_
  refine (returns_executeOne _ _).bind fun _ _ => ?_
  refine (Returns.provided (returns_executeOne _ _)).bind fun _ _ => ?_
  exact (returns_executeOne _ _).bind fun _ _ => returns_ok _

theorem returns_applyGrouping (existing : ExistingGrouping) (grouping : GroupingPublication) :
    (applyGrouping w existing grouping).Returns := by
  unfold applyGrouping
  split
  · exact (returns_okOr _ _).bind fun _ _ => returns_ok _
  · cases grouping with
    | grouped _ => exact (returns_assignIssue existing).bind fun _ _ => returns_ok _
    | disabled => exact (returns_executeOne _ _).bind fun _ _ => returns_ok _
    | insufficient => exact (returns_executeOne _ _).bind fun _ _ => returns_ok _

theorem returns_replacementEvent (eventId releaseId representative : String) :
    (replacementEvent w eventId releaseId representative).Returns := by
  unfold replacementEvent
  split
  · exact returns_fetchOr _ _
  · exact returns_ok _

theorem returns_replacementBounds (releaseId : String) (receivedAt first last : Timestamp) :
    (replacementBounds w releaseId receivedAt first last).Returns := by
  unfold replacementBounds
  split
  · refine (returns_fetchOne _).bind fun bounds _ => ?_
    refine Row.returns_bind (Row.get_ofOption rfl fun _ => rfl) ?_
    refine Row.returns_bind (Row.get_ofOption rfl fun _ => rfl) ?_
    refine (returns_okOr _ _).bind fun _ _ => ?_
    exact (returns_okOr _ _).bind fun _ _ => returns_ok _
  · exact returns_ok _

theorem returns_repairIssueRelease (eventId releaseId : String) (receivedAt : Timestamp)
    (r : IssueReleaseRow) : (repairIssueRelease w eventId releaseId receivedAt r).Returns := by
  refine Row.returns_bind (a := r.representativeEventId) rfl ?_
  refine Row.returns_bind (a := r.firstSeenAt) rfl ?_
  refine Row.returns_bind (a := r.lastSeenAt) rfl ?_
  split
  · exact returns_ok _
  · refine (returns_replacementEvent _ _ _).bind fun _ _ => ?_
    exact (returns_replacementBounds _ _ _ _).bind fun _ _ => returns_executeOne _ _

theorem returns_removeReleaseMembership (eventId releaseId : String) (receivedAt : Timestamp) :
    (removeReleaseMembership w eventId releaseId receivedAt).Returns := by
  refine (returns_fetchOptional _).bind fun deleted _ => ?_
  cases deleted with
  | some _ => exact returns_ok _
  | none => exact (returns_fetchOr _ _).bind fun r _ => returns_repairIssueRelease _ _ _ r

theorem returns_leaveRelease (eventId : String) (assignment : GroupingAssignment) :
    (leaveRelease w eventId assignment).Returns := by
  unfold leaveRelease
  split
  · exact returns_removeReleaseMembership _ _ _
  · exact returns_ok _

theorem returns_joinRelease (releaseId : Option String) : (joinRelease w releaseId).Returns := by
  cases releaseId with
  | some releaseId => exact returns_executeOne _ _
  | none => exact returns_ok _

theorem returns_applyReleaseDelta (eventId : String) (assignment : GroupingAssignment)
    (releaseId : Option String) : (applyReleaseDelta w eventId assignment releaseId).Returns := by
  unfold applyReleaseDelta
  split
  · exact returns_ok _
  · refine (returns_leaveRelease _ _).bind fun _ _ => ?_
    exact (returns_joinRelease _).bind fun _ _ => returns_ok _

theorem returns_loadReleaseChronology : (loadReleaseChronology w).Returns := by
  refine (returns_fetchAll _).bind fun rows _ => Returns.forEach (fun r => ?_) rows
  refine Returns.bind ?_ fun _ _ => returns_ok _
  refine Row.returns_bind rfl ?_
  exact Row.returns_bind (Row.get_ofOption rfl fun _ => rfl) (returns_ok _)

theorem returns_resolutionTimestamp (releaseId : Option String) :
    (resolutionTimestamp w releaseId).Returns := by
  cases releaseId with
  | some releaseId => exact (returns_fetchOptional _).bind fun _ _ => returns_ok _
  | none => exact returns_ok _

theorem returns_updateIssueTransitions : (updateIssueTransitions w).Returns := by
  refine (returns_fetchOr _ _).bind fun issue _ => ?_
  refine returns_loadReleaseChronology.bind fun _ _ => ?_
  refine Row.returns_bind rfl ?_
  refine Row.returns_bind rfl ?_
  split
  · exact returns_executeOne _ _
  · refine Row.returns_bind (Row.get_ofOption rfl fun _ => rfl) ?_
    exact (returns_resolutionTimestamp _).bind fun _ _ => returns_executeOne _ _

/-! ## Retention -/

theorem returns_setRetentionClass (eventId retentionClass : String) :
    (setRetentionClass w eventId retentionClass).Returns :=
  (returns_execute _).bind fun _ _ => returns_ok _

theorem returns_enqueueRawDeletion (eventId objectId retentionClass : String) :
    (enqueueRawDeletion w eventId objectId retentionClass).Returns := by
  refine (returns_execute _).bind fun updated _ => ?_
  split
  · exact returns_ok _
  refine (returns_setRetentionClass _ _).bind fun _ _ => ?_
  exact (returns_execute _).bind fun _ _ => returns_ok _

theorem returns_agedEvent (eventId objectId : String) (oldest : RecentRow) (oldestId : String)
    (currentIsNewer : Bool) :
    (agedEvent eventId objectId oldest oldestId currentIsNewer).Returns := by
  cases currentIsNewer with
  | true => exact Row.returns_bind rfl (returns_ok _)
  | false => exact returns_ok _

theorem returns_retireEvent (eventId objectId : String) :
    (retireEvent w eventId objectId).Returns := by
  unfold retireEvent
  split
  · exact returns_setRetentionClass _ _
  · exact returns_enqueueRawDeletion _ _ _

theorem returns_ageOut (eventId objectId : String) (oldest : RecentRow) :
    (ageOut w eventId objectId oldest).Returns := by
  refine Row.returns_bind rfl ?_
  refine (returns_fetchOne _).bind fun currentIsNewer _ => ?_
  refine (returns_agedEvent _ _ _ _ _).bind fun aged _ => ?_
  refine (returns_retireEvent _ _).bind fun _ _ => ?_
  exact Returns.provided (returns_setRetentionClass _ _)

theorem returns_sampleIssueEvent (eventId issueId : String) (r : RetentionRow) :
    (sampleIssueEvent w eventId issueId r).Returns := by
  refine (returns_fetchOne _).bind fun issue _ => ?_
  refine Row.returns_bind (a := issue.eventCount) rfl ?_
  split
  · exact returns_setRetentionClass _ _
  refine Row.returns_bind (@Row.get_ofOption _ _ _ _ _ _ issue.representativeEventId rfl fun _ => rfl) ?_
  split
  · exact returns_setRetentionClass _ _
  refine Row.returns_bind (Row.get_ofOption rfl fun _ => rfl) ?_
  refine (returns_fetchOne _).bind fun variantFirst _ => ?_
  split
  · exact returns_setRetentionClass _ _
  refine Row.returns_bind (Row.get_ofOption rfl fun _ => rfl) ?_
  refine (returns_fetchAll _).bind fun recent _ => ?_
  dsimp only
  split
  · exact returns_setRetentionClass _ _
  refine (returns_okOr _ _).bind fun oldest _ => ?_
  exact Row.returns_bind rfl (returns_ageOut _ _ _)

theorem returns_retainsAllRaw (r : RetentionRow) : (retainsAllRaw w r).Returns := by
  refine Row.returns_bind (a := r.retainAllRaw) rfl ?_
  split
  · refine (returns_fetchOne _).bind fun bytes _ => ?_
    exact Row.returns_bind rfl (returns_ok _)
  · exact returns_ok _

theorem returns_scheduleRawRetention (eventId : String) :
    (scheduleRawRetention w eventId).Returns := by
  refine (returns_fetchOr _ _).bind fun r _ => ?_
  refine Row.returns_bind (a := r.rawLifecycleState) rfl ?_
  split
  · exact returns_ok _
  refine Row.returns_bind (a := r.rawRetentionClass) rfl ?_
  split
  · exact returns_ok _
  refine Row.returns_bind (a := r.usageOutcome) rfl ?_
  split
  · exact returns_setRetentionClass _ _
  refine (returns_retainsAllRaw r).bind fun retains _ => ?_
  split
  · exact returns_setRetentionClass _ _
  refine Row.returns_bind (@Row.get_ofOption _ _ _ _ _ _ r.issueId rfl fun _ => rfl) ?_
  split
  · exact returns_setRetentionClass _ _
  · exact returns_sampleIssueEvent _ _ _

/-! ## Publication -/

theorem returns_lockForPublication : (lockForPublication w).Returns := by
  refine (returns_fetchOr _ _).bind fun r _ => ?_
  refine Row.returns_bind (Row.get_ofOption rfl fun _ => rfl) ?_
  refine Row.returns_bind (Row.get_ofOption rfl fun _ => rfl) ?_
  refine Row.returns_bind (Row.get_ofOption rfl fun _ => rfl) ?_
  split <;> exact nofun

theorem returns_lockLease : (lockLease w).Returns :=
  (returns_fetchOr _ _).bind fun _ _ => returns_ok _

theorem returns_replaceFacets (facets : List Redaction.ContextFacet) :
    (replaceFacets w facets).Returns := by
  refine (returns_execute _).bind fun _ _ => ?_
  split
  · exact returns_ok _
  · exact (returns_execute _).bind fun _ _ => returns_ok _

theorem returns_replaceSymbolWaiters (release : ReleaseResolution)
    (waiters : Finset SymbolWaiter) : (replaceSymbolWaiters w release waiters).Returns := by
  refine (returns_execute _).bind fun _ _ => ?_
  split
  · exact returns_ok _
  · exact (returns_execute _).bind fun _ _ => returns_ok _

theorem returns_enqueueWaiterCatchupRequests : (enqueueWaiterCatchupRequests w).Returns := by
  refine (returns_fetchOptional _).bind fun releaseId _ => ?_
  cases releaseId with
  | none => exact returns_ok _
  | some releaseId =>
    refine (returns_fetchOptional _).bind fun manifestId _ => ?_
    cases manifestId with
    | none => exact returns_ok _
    | some manifestId => exact (returns_execute _).bind fun _ _ => returns_ok _

theorem returns_refreshRequests (requestIds : List String) :
    (refreshRequests w requestIds).Returns :=
  Returns.forEach (fun _ => returns_executeOne _ _) _

theorem returns_completeReprocessingRequestEvents (job : Job) :
    (completeReprocessingRequestEvents w job).Returns := by
  unfold completeReprocessingRequestEvents
  split
  · exact returns_ok _
  · exact (returns_fetchAll _).bind fun _ _ => returns_refreshRequests _

theorem returns_publishGrouping (eventId : String) (existing : ExistingGrouping)
    (grouping : GroupingPublication) (release : ReleaseResolution) :
    (publishGrouping w eventId existing grouping release).Returns := by
  refine (returns_applyGrouping _ _).bind fun assignment _ => ?_
  cases assignment with
  | none => exact returns_ok _
  | some assignment =>
    refine (returns_applyReleaseDelta _ _ _).bind fun changed _ => ?_
    cases changed with
    | true => exact returns_updateIssueTransitions
    | false => exact returns_ok _

theorem returns_endJob (job : Job) (requested : Int64) (done : Statement) :
    (endJob w job requested done).Returns := by
  unfold endJob
  split <;> exact returns_executeOne _ _

theorem returns_publishCrashResult (job : Job) (eventId : String) (result : Json)
    (state : String) (release : ReleaseResolution) :
    (publishCrashResult w job eventId result state release).Returns := by
  refine (returns_ofExcept _).bind fun _ _ => ?_
  refine (returns_ofExcept _).bind fun waiters _ => ?_
  refine (returns_draw _).bind fun _ _ => ?_
  refine returns_lockForPublication.bind fun rules _ => ?_
  refine returns_lockLease.bind fun _ _ => ?_
  refine returns_lockEvent.bind fun existing _ => ?_
  refine (returns_groupingPublication _).bind fun grouping _ => ?_
  refine (returns_okOr _ _).bind fun _ _ => ?_
  refine (returns_fetchOne _).bind fun _ _ => ?_
  refine (returns_execute _).bind fun _ _ => ?_
  refine (returns_replaceFacets _).bind fun _ _ => ?_
  refine (returns_recordReleaseMapping _).bind fun _ _ => ?_
  refine (returns_replaceSymbolWaiters _ _).bind fun _ _ => ?_
  refine returns_enqueueWaiterCatchupRequests.bind fun _ _ => ?_
  refine (returns_publishGrouping _ _ _ _).bind fun _ _ => ?_
  refine (returns_fetchOr _ _).bind fun updated _ => ?_
  refine Row.returns_bind rfl ?_
  refine (returns_scheduleRawRetention _).bind fun _ _ => ?_
  refine (returns_completeReprocessingRequestEvents _).bind fun _ _ => ?_
  exact (returns_endJob _ _ _).bind fun _ _ => returns_commit

/-! ## The job -/

theorem returns_runProcessor (withCaches : Bool) : (runProcessor w withCaches).Returns :=
  (returns_ofExcept _).bind fun _ _ => returns_okOr _ _

theorem returns_downloadRaw (objectKey : String) (checksum : List UInt8) (expectedSize : Nat) :
    (downloadRaw w objectKey checksum expectedSize).Returns :=
  (returns_ofExcept _).bind fun _ _ => returns_refuse _ _

theorem returns_writePrevious (previous : Option Json) : (writePrevious w previous).Returns := by
  cases previous with
  | none => exact returns_ok _
  | some previous =>
    refine (returns_okOr _ _).bind fun _ _ => ?_
    exact (returns_refuse _ _).bind fun _ _ => returns_scratch _

theorem returns_processSelection (inspected : Json) (crashGuid : String)
    (selection : SymbolSelection) :
    (processSelection w inspected crashGuid selection).Returns := by
  cases selection with
  | dependency => exact returns_error _
  | missing => exact returns_ok _
  | ready entries =>
    refine (returns_scratch _).bind fun _ _ => ?_
    refine (returns_runProcessor _).bind fun _ _ => ?_
    exact (returns_ofExcept _).bind fun _ _ => returns_ok _

/-- After the crash GUID every decode succeeds. -/
theorem returns_processCrash {job : Job}
    (h : ∀ eventId, job.eventId = some eventId → ∀ rows, w.fetch (.event eventId) = some rows →
      ∀ r ∈ rows, r.crashGuid.isSome) : (processCrash w job).Returns := by
  refine (returns_okOr _ _).bind fun eventId hid => ?_
  refine (returns_fetchOr _ _).bind fun r hr => ?_
  obtain ⟨rows, hrows, hr⟩ := fetchOr_eq_ok hr
  obtain ⟨crashGuid, hguid⟩ :=
    Option.isSome_iff_exists.mp (h eventId (okOr_eq_ok.mp hid) rows hrows r hr)
  refine Row.returns_bind (a := crashGuid)
    (@Row.get_eq_ok _ _ _ _ _ (.ofOption .text r.crashGuid) _ rfl (by rw [hguid]; rfl)) ?_
  refine (returns_scratch _).bind fun _ _ => ?_
  refine Row.returns_bind rfl ?_
  refine (returns_u64OfI64 _ _).bind fun _ _ => ?_
  refine (returns_refuse _ _).bind fun _ _ => ?_
  refine Row.returns_bind rfl ?_
  refine Row.returns_bind rfl ?_
  refine (returns_downloadRaw _ _ _).bind fun _ _ => ?_
  refine (returns_scratch _).bind fun _ _ => ?_
  refine (returns_scratch _).bind fun _ _ => ?_
  refine Row.returns_bind (Row.get_ofOption rfl fun _ => rfl) ?_
  refine (returns_writePrevious _).bind fun _ _ => ?_
  refine (returns_runProcessor _).bind fun inspected _ => ?_
  refine (returns_ofExcept _).bind fun _ _ => ?_
  refine (returns_resolveRelease _).bind fun release _ => ?_
  refine (returns_materializeSymbols _ _).bind fun selection _ => ?_
  refine (returns_processSelection _ _ _).bind fun outcome _ => ?_
  refine (returns_ofExcept _).bind fun _ _ => ?_
  exact (returns_refuse _ _).bind fun _ _ => returns_publishCrashResult _ _ _ _ _

theorem returns_releaseJob (job : Job) : (releaseJob w job).Returns := by
  refine (returns_executeOne _ _).bind fun _ _ => ?_
  refine (Returns.provided ?_).bind fun _ _ => returns_commit
  exact (returns_fetchAll _).bind fun _ _ => returns_refreshRequests _

theorem returns_finishFailure (job : Job) (quarantine : Bool) :
    (finishFailure w job quarantine).Returns := by
  refine returns_lockLease.bind fun _ _ => ?_
  refine (returns_fetchOr _ _).bind fun updated _ => ?_
  refine Row.returns_bind rfl ?_
  refine (Returns.provided ?_).bind fun _ _ => ?_
  · exact (returns_fetchAll _).bind fun _ _ => returns_refreshRequests _
  · exact (returns_endJob _ _ _).bind fun _ _ => returns_commit

theorem returns_finishResult (job : Job) (result : Except JobError Unit) :
    (finishResult w job result).Returns := by
  unfold finishResult
  split
  · exact returns_ok _
  · exact returns_ok _
  · exact returns_releaseJob job
  · exact returns_finishFailure job true
  · split
    · exact returns_releaseJob job
    · exact returns_finishFailure job true
  · split
    · exact returns_releaseJob job
    · exact returns_finishFailure job false

theorem returns_runJob {job : Job} (h : (processCrash w job).Returns) :
    (runJob w job).Returns := by
  refine Returns.bind (Returns.settle ?_) fun result _ => ?_
  · split
    · exact returns_error _
    · exact h
  · exact (returns_finishResult job result).settle.bind fun _ _ => returns_ok _

end

/-! ## Events of accepted envelopes -/

/-- The event that `persist_event` inserts for the manifest of an envelope. -/
def insertedEvent (key : ObjectKey) (manifest : CrashRequestManifest) : CrashEvent where
  id := key.eventId
  projectId := key.projectId
  crashGuid := usableCrashGuid manifest.directoryName.toList manifest.archiveName.toList
  objectKey := key

/-- No statement changes `crash_guid`, so the query finds the inserted one. -/
def Serves (w : World) (job : Job) (e : CrashEvent) : Prop :=
  ∃ eventId, job.eventId = some eventId ∧ ∀ rows, w.fetch (.event eventId) = some rows →
    ∀ r ∈ rows, r.crashGuid = e.crashGuid.map String.ofList

def eventRows (crashGuid : Option String) : {α : Type} → Query α → Option (List α)
  | _, .event _ => some [⟨crashGuid, "raw.bundle", [], 1, none⟩]
  | _, _ => none

/-- A world that finds the event of a new job and nothing else. -/
def eventWorld (crashGuid : Option String) : World where
  unicode _ := false
  sha256 _ := []
  fromSlice _ := none
  toVec _ := none
  randomUuid _ := none
  scratch _ := true
  download _ := .error .unavailable
  processor _ := .error .unavailable
  fetch := eventRows crashGuid
  execute _ := none
  commits := false
  groupingEnabled := false
  enforcementEnabled := false
  reservoirSelected _ := false

def newJob : Job := ⟨some "event", 1, 5, 0, 0⟩

theorem eventWorld_serves (e : CrashEvent) :
    Serves (eventWorld (e.crashGuid.map String.ofList)) newJob e := by
  refine ⟨"event", rfl, fun rows hrows r hr => ?_⟩
  cases hrows
  rw [List.mem_singleton.mp hr]

theorem eventWorld_panics : runJob (eventWorld none) newJob = .panic := rfl

/-- The job of an event ends, with a result that `finish_result` handled, in every world if
and only if the envelope names a usable crash GUID. -/
theorem runJob_ends_iff (key : ObjectKey) (manifest : CrashRequestManifest) :
    (∀ w job, Serves w job (insertedEvent key manifest) → ∃ result, runJob w job = .ok result) ↔
      (usableCrashGuid manifest.directoryName.toList manifest.archiveName.toList).isSome := by
  constructor
  · intro h
    by_contra hnone
    have hguid : (insertedEvent key manifest).crashGuid = none :=
      Option.not_isSome_iff_eq_none.mp hnone
    obtain ⟨result, hresult⟩ := h _ _ (eventWorld_serves (insertedEvent key manifest))
    rw [hguid, Option.map_none, eventWorld_panics] at hresult
    cases hresult
  · rintro hsome w job ⟨eventId, hid, hserves⟩
    have hreturns : (runJob w job).Returns := by
      refine returns_runJob (returns_processCrash fun id hjob rows hrows r hr => ?_)
      rw [hid] at hjob
      cases hjob
      rw [hserves rows hrows r hr, Option.isSome_map]
      exact hsome
    cases hrun : runJob w job with
    | ok result => exact ⟨result, rfl⟩
    | error e => exact e.elim
    | panic => exact absurd hrun hreturns

/-- A crash directory that is no crash GUID is accepted, and its job panics. -/
theorem runJob_panics_on_dumpStream :
    ¬ ∀ (xmlParser : XmlParser) (limits : CrashRequestLimits) (input : CrashRequestStream)
        (manifest : CrashRequestManifest),
      inspectCrashEnvelope xmlParser limits input = .ok manifest →
      ∀ key w job, Serves w job (insertedEvent key manifest) →
        ∃ result, runJob w job = .ok result := by
  intro h
  have hguid : (insertedEvent ⟨1, 2, 3⟩ (CrashRequestGrammar.manifestOf 0
      CrashRequestModes.dumpArchive)).crashGuid = none := by decide +kernel
  have hserves := eventWorld_serves (insertedEvent ⟨1, 2, 3⟩ (CrashRequestGrammar.manifestOf 0
    CrashRequestModes.dumpArchive))
  obtain ⟨result, hresult⟩ := h _ _ _ _
    (CrashRequestModes.inspectCrashEnvelope_dumpStream (64 * 1024 * 1024)) _ _ _ hserves
  rw [hguid, Option.map_none, eventWorld_panics] at hresult
  cases hresult

end FaultLane.CrashJob
