import FaultLane.IssueRollups
import FaultLane.ReleaseChronology

set_option autoImplicit false

/-!
# Issue transitions

The status and the regression state of the issues of one project, over their rollups and the
project's releases: publications, repairs, the two requests that resolve and reopen an issue,
and the negotiations that create releases or complete them.
-/
namespace FaultLane.IssueTransitions
open KeyedTable JobQueue Issues

/-! ## Rows -/

inductive Status where
  | «open»
  | resolved
  deriving DecidableEq, Repr

/-- The columns of an issue that the transitions read and write, with their defaults. -/
structure Lifecycle where
  status : Status := .open
  regressionState : RegressionState := .unknown
  firstReleaseId : Option Uuid := none
  lastReleaseId : Option Uuid := none
  resolvedInReleaseId : Option Uuid := none
  deriving DecidableEq, Repr

/-- What the releases of a project are unique by. -/
structure ReleaseName where
  version : String
  platform : String
  architecture : String
  configuration : String
  deriving DecidableEq, Repr

structure ReleaseRequest where
  name : ReleaseName
  revision : Option String
  channel : Option String
  buildTimestamp : Option Timestamp
  deriving DecidableEq, Repr

structure Release where
  id : Uuid
  name : ReleaseName
  revision : Option String
  channel : Option String
  buildTimestamp : Option Timestamp
  deriving DecidableEq, Repr

def Release.evidence (r : Release) : ReleaseEvidence := ⟨r.id, r.buildTimestamp⟩

structure State where
  rollups : Issues.State
  lifecycles : Uuid → Lifecycle
  releases : Table Release.id

def State.init : State := ⟨.init, fun _ => {}, .empty⟩

section
variable (s : State)

/-- `issue_releases ir JOIN releases r ON r.id = ir.release_id`, for an issue. -/
def State.members (issueId : Uuid) : List Release :=
  s.releases.rows.filter fun r => (s.rollups.releases issueId r.id).isSome

def State.evidence (issueId : Uuid) : List ReleaseEvidence :=
  (s.members issueId).map Release.evidence

/-- `SELECT build_timestamp FROM releases WHERE id = …`. -/
def State.buildTimestamp (releaseId : Uuid) : Option Timestamp :=
  (s.releases.find releaseId).bind Release.buildTimestamp

def State.setLifecycle (issueId : Uuid) (l : Lifecycle) : State :=
  { s with lifecycles := fun i => if i = issueId then l else s.lifecycles i }

/-! ## The worker -/

/-- The branches of `update_issue_transitions`. -/
def Lifecycle.transition (l : Lifecycle) (chronology : ReleaseChronology)
    (resolutionTimestamp : Option Timestamp) : Status × RegressionState :=
  let later := chronology.valid ∧ ∃ resolved ∈ resolutionTimestamp,
    ∃ latest ∈ chronology.lastTimestamp, resolved < latest
  if l.status = .resolved then
    if later then (.open, .regressed) else (.resolved, .resolved)
  else if l.resolvedInReleaseId.isSome then
    if later then (.open, .regressed) else (.open, .unknown)
  else if ¬ chronology.valid then (.open, .unknown)
  else if chronology.releaseCount = 1 then (.open, .new)
  else (.open, .ongoing)

/-- `update_issue_chronology`. -/
def Lifecycle.withChronology (l : Lifecycle) (chronology : ReleaseChronology)
    (next : Status × RegressionState) : Lifecycle :=
  { l with
    firstReleaseId := chronology.first, lastReleaseId := chronology.last
    status := next.1, regressionState := next.2 }

def State.updateIssueTransitions (issueId : Uuid) (transitionsEnabled : Bool) : Option State := do
  let _ ← s.rollups.issues.find issueId
  let l := s.lifecycles issueId
  let chronology := releaseChronology (s.evidence issueId)
  if transitionsEnabled then
    let resolutionTimestamp := l.resolvedInReleaseId.bind s.buildTimestamp
    let next := l.transition chronology resolutionTimestamp
    some (s.setLifecycle issueId (l.withChronology chronology next))
  else
    let next := (l.status, l.regressionState)
    some (s.setLifecycle issueId (l.withChronology chronology next))

/-- `crash_events` references `releases`. -/
def State.references (mapping : ReleaseMapping) : Prop :=
  ∀ releaseId ∈ mapping.release, (s.releases.find releaseId).isSome

instance (mapping : ReleaseMapping) : Decidable (s.references mapping) :=
  inferInstanceAs (Decidable (∀ releaseId ∈ mapping.release, _))

/-- The state with the rollups of a publication. An issue that it inserts has the defaults. -/
def State.withRollups (rollups : Issues.State) : State :=
  { s with
    rollups := rollups
    lifecycles := fun i => if (s.rollups.issues.find i).isSome then s.lifecycles i else {} }

/-- What `publish_crash_result` does to the issues, transitions included. -/
def publishCrashResult (eventId : Uuid) (candidates : List Uuid) (g : GroupingPublication)
    (newId : Uuid) (transitionsEnabled : Bool) : Option State := do
  let existing ← s.rollups.events.find eventId
  let mapping := ReleaseMapping.of candidates
  if s.references mapping then do
    let rollups ← s.rollups.recordReleaseMapping eventId mapping
    let (rollups, assignment) ← rollups.applyGrouping existing g newId
    match assignment with
    | none => some (s.withRollups rollups)
    | some a => do
      let rollups ← rollups.applyReleaseDelta eventId a mapping.release
      let s := s.withRollups rollups
      -- `rollup_changed`, which `apply_release_delta` returns
      if a.firstAssignment = false ∧ a.previousReleaseId = mapping.release then some s
      else s.updateIssueTransitions a.issueId transitionsEnabled
  else none

def repairIssue (issueId : Uuid) : Option State := do
  let rollups ← Issues.repairIssue s.rollups issueId
  { s with rollups := rollups : State }.updateIssueTransitions issueId true

/-! ## Requests -/

def resolveIssue (issueId releaseId : Uuid) : Option State := do
  let _ ← s.rollups.issues.find issueId
  let resolutionTimestamp ← s.buildTimestamp releaseId
  let regressed := hasProvablyLaterRelease (s.evidence issueId) resolutionTimestamp
  let next : Status × RegressionState :=
    if regressed then (.open, .regressed) else (.resolved, .resolved)
  some (s.setLifecycle issueId { s.lifecycles issueId with
    status := next.1, regressionState := next.2, resolvedInReleaseId := some releaseId })

def reopenIssue (issueId : Uuid) : Option State := do
  let _ ← s.rollups.issues.find issueId
  let regressionState := retainedRegressionState (s.evidence issueId)
  some (s.setLifecycle issueId { s.lifecycles issueId with
    status := .open, regressionState := regressionState, resolvedInReleaseId := none })

/-- `DO UPDATE SET revision = COALESCE(EXCLUDED.revision, releases.revision), …`. -/
def Release.merge (r : Release) (request : ReleaseRequest) : Release :=
  { r with
    revision := request.revision.or r.revision
    channel := request.channel.or r.channel
    buildTimestamp := r.buildTimestamp.or request.buildTimestamp }

theorem Release.id_merge (r : Release) (request : ReleaseRequest) :
    (r.merge request).id = r.id := rfl

def upsertRelease (request : ReleaseRequest) (newId : Uuid) : Option State :=
  match s.releases.rows.find? fun r => r.name = request.name with
  | some r => some { s with
    releases := s.releases.modify r.id (fun r => r.merge request) fun _ => rfl }
  | none =>
    if (s.releases.find newId).isSome then none
    else some { s with
      releases := s.releases.insert
        ⟨newId, request.name, request.revision, request.channel, request.buildTimestamp⟩ }

end

inductive Action where
  | insertEvent (id : Uuid) (receivedAt : Nat)
  | publish (eventId : Uuid) (candidates : List Uuid) (grouping : GroupingPublication)
      (newIssueId : Uuid)
  | repairIssue (issueId : Uuid)
  | resolveIssue (issueId releaseId : Uuid)
  | reopenIssue (issueId : Uuid)
  | negotiate (release : ReleaseRequest) (newReleaseId : Uuid)

/-- The steps of a project whose workers have transitions enabled. -/
def step (s : State) : Action → Option State
  | .insertEvent id receivedAt => do
    let rollups ← Issues.insertEvent s.rollups id receivedAt
    some { s with rollups := rollups }
  | .publish eventId candidates grouping newIssueId =>
    publishCrashResult s eventId candidates grouping newIssueId true
  | .repairIssue issueId => repairIssue s issueId
  | .resolveIssue issueId releaseId => resolveIssue s issueId releaseId
  | .reopenIssue issueId => reopenIssue s issueId
  | .negotiate release newReleaseId => upsertRelease s release newReleaseId

/-! ## What a negotiation completes -/

/-- Every release has a timestamp, and no two the same. -/
def Ordered (releases : List Release) : Prop :=
  (∀ r ∈ releases, r.buildTimestamp ≠ none) ∧
    ∀ a ∈ releases, ∀ b ∈ releases, a.buildTimestamp = b.buildTimestamp → a.id = b.id

instance (releases : List Release) : Decidable (Ordered releases) :=
  inferInstanceAs (Decidable (_ ∧ _))

/-- The release has no timestamp, the request has one, and with it the releases of some issue
that has the release would be in order. -/
def State.completes (s : State) (request : ReleaseRequest) (r : Release) : Prop :=
  r.name = request.name ∧ r.buildTimestamp = none ∧ request.buildTimestamp ≠ none ∧
    ∃ i ∈ s.rollups.issues.rows, r ∈ s.members i.id ∧
      Ordered (r.merge request :: (s.members i.id).filter fun m => m.id ≠ r.id)

instance (s : State) (request : ReleaseRequest) (r : Release) :
    Decidable (s.completes request r) :=
  inferInstanceAs (Decidable (_ ∧ _ ∧ _ ∧ _))

/-- A negotiation completes no issue's releases. -/
def CompletesNone (s : State) : Action → Prop
  | .negotiate request _ => ∀ r ∈ s.releases.rows, ¬ s.completes request r
  | _ => True

instance (s : State) : DecidablePred (CompletesNone s)
  | .negotiate request _ =>
    inferInstanceAs (Decidable (∀ r ∈ s.releases.rows, ¬ s.completes request r))
  | .insertEvent _ _ | .publish _ _ _ _ | .repairIssue _ | .resolveIssue _ _
  | .reopenIssue _ => inferInstanceAs (Decidable True)

/-! ## What holds of an issue -/

/-- Every issue is as the worker would compute it. -/
structure State.Current (s : State) : Prop where
  computed : ∀ i ∈ s.rollups.issues, s.updateIssueTransitions i.id true = some s
  repaired : ∀ i ∈ s.rollups.issues, repairIssue s i.id = some s
  regressed : ∀ i ∈ s.rollups.issues, ∀ releaseId ∈ (s.lifecycles i.id).resolvedInReleaseId,
    ∀ resolved ∈ s.buildTimestamp releaseId,
      hasProvablyLaterRelease (s.evidence i.id) resolved →
        (s.lifecycles i.id).status = .open ∧ (s.lifecycles i.id).regressionState = .regressed

end FaultLane.IssueTransitions
