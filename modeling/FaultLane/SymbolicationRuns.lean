import FaultLane.DailyRollupsRepair
import FaultLane.Reprocessing
import FaultLane.SymbolicationViews

set_option autoImplicit false

/-!
# The symbolication state over runs

The tables of a project under ingests, publications and failures, with the jobs and generations
that decide which attempts end. A transaction reads the time at which it started, so that its
step may find a job that was changed since.
-/
namespace FaultLane.SymbolicationRuns
open KeyedTable JobQueue Json RustText SearchDocument SymbolicationViews
open DailyRollups (Tables Delta Timestamp Release ReleaseId IssueChange SearchRow RollupKey
  ProcessingState SymbolicationState symbolicationOf dayOf)
open Reprocessing (Attempt)
open Redaction (DataRules redactAndIndex)
open CrashSymbols (hasResolvedFrame validateResult)
open CrashContext (CrashType)

/-- A row of `crash_processing_results`, whose checksum is that of the document. -/
structure ProcessingResult where
  id : Uuid
  eventId : Uuid
  dataRulesVersion : Int
  result : Json

/-- A claim statement that has its snapshot and no lock yet: the events whose jobs it found
claimable, and their generations. -/
structure Claimer where
  id : Nat
  startedAt : Nat
  found : List (Uuid × Nat)

structure State where
  now : Nat
  tables : Tables
  performed : List Delta
  results : Table ProcessingResult.id
  rules : DataRules
  work : Table Reprocessing.Event.id
  attempts : Table Attempt.token
  claimers : Table Claimer.id

def State.init : State := ⟨0, .init, [], .empty, ⟨0, [], []⟩, .empty, .empty, .empty⟩

/-! ## Views -/

section views
variable (s : State) (e : DailyRollups.Event)

/-- `s.symbolication_state` of the row that is joined on the current result. -/
def State.searchState : Option SymbolicationState :=
  (s.tables.searchOf e).map SearchRow.symbolicationState

/-- `r` of the row that is joined on the current result. -/
def State.currentResult : Option Json :=
  (e.currentResultId.bind s.results.find).bind fun r =>
    if r.eventId = e.id then some r.result else none

/-- The state in the event list, which the issue filter compares and the trigger counts. -/
def State.listState : SymbolicationState := symbolicationOf e.processingState (s.searchState e)

def symbolicationKey (day : Int) (state : SymbolicationState) : RollupKey :=
  ⟨day, .symbolicationState, state.text⟩

/-- What deltas add up to for a key. -/
def netOf (deltas : List Delta) (key : RollupKey) : Int :=
  ((deltas.filter fun d => d.key = key).map Delta.delta).sum

/-- The events of a day that the list shows in a state. -/
def State.listed (day : Int) (state : SymbolicationState) : List DailyRollups.Event :=
  s.tables.events.rows.filter fun e => dayOf e.receivedAt = day ∧ s.listState e = state

structure State.Agrees : Prop where
  detail : ∀ e ∈ s.tables.events,
    detailState e.processingState (s.currentResult e) = s.listState e
  demo : ∀ e ∈ s.tables.events, demoState e.processingState (s.searchState e) = s.listState e
  rollup : ∀ day state,
    netOf s.performed (symbolicationKey day state) = (s.listed day state).length
  projected : ∀ e ∈ s.tables.events, e.currentResultId.isSome → ∃ result ∈ s.currentResult e,
    s.listState e = projectedSymbolicationState e.processingState result

end views

/-! ## Steps -/

structure Publication where
  resultId : Uuid
  guid : String
  document : Json
  ready : Bool
  release : Option ReleaseId
  issues : List IssueChange

inductive Action where
  | tick (seconds : Nat)
  | createRelease (release : Release)
  | changeRules (rules : DataRules)
  | changeIssues (changes : List IssueChange)
  | ingest (eventId : Uuid) (receivedAt : Timestamp)
  | schedule (startedAt : Nat) (requestId : Uuid) (eventIds : List Uuid)
  | reconcile (startedAt : Nat) (eventIds requestIds : List Uuid)
  | beginClaim (startedAt id : Nat)
  | claim (id : Nat) (eventId : Uuid) (holder : Holder)
  | heartbeat (startedAt : Nat) (token : Uuid)
  | releaseJob (startedAt token seconds : Nat) (resource dependency : Bool) (code : String)
  | publish (startedAt : Nat) (token : Uuid) (p : Publication)
  | finishFailure (startedAt : Nat) (token : Uuid) (quarantine resource : Bool) (code : String)

section step
variable (initcap : Text → Text) (s : State)

def projectedText (path : List String) (result : Json) : Option Text :=
  (textAt path result).filter fun value => !value.isEmpty

def crashTypes : List CrashType := [.crash, .assert, .ensure, .unknown]

def searchRow (eventId resultId : Uuid) (state : ProcessingState) (result : Json) : SearchRow where
  eventId := eventId
  resultId := resultId
  platform := projectedText ["crash_context", "platform", "normalized"] result
  architecture := projectedText ["crash_context", "architecture"] result
  crashType := (projectedText ["crash_context", "crash_type"] result).bind fun text =>
    crashTypes.find? fun crashType => crashType.text.toList = text
  symbolicationState := projectedSymbolicationState state result

/-- `INSERT INTO crash_processing_results … ON CONFLICT … RETURNING id`. -/
def State.store (eventId resultId : Uuid) (result : Json) :
    Option (Table ProcessingResult.id × Uuid) :=
  match s.results.rows.find? fun r =>
    r.eventId = eventId ∧ r.dataRulesVersion = s.rules.version ∧ r.result = result with
  | some r => some (s.results, r.id)
  | none =>
    if (s.results.find resultId).isSome then none
    else some (s.results.insert ⟨resultId, eventId, s.rules.version, result⟩, resultId)

def State.put (w : Reprocessing.Event) : State :=
  { s with
    work := s.work.modify w.id (fun old => { w with id := old.id }) fun old => Eq.refl old.id }

/-- One statement over several jobs. -/
def State.putAll (f : Reprocessing.Event → Reprocessing.Event) : List Uuid → State → Option State
  | [], s => some s
  | id :: rest, s => (s.work.find id).bind fun w => putAll f rest (s.put (f w))

/-- A transaction of the worker that holds a claim, started after the claim. -/
def State.attempt (startedAt : Nat) (token : Uuid) :
    Option (Attempt × Reprocessing.Event) := do
  let a ← s.attempts.find token
  let w ← s.work.find a.eventId
  if a.claimedAt ≤ startedAt ∧ startedAt ≤ s.now then some (a, w) else none

def createRelease (release : Release) : Option State :=
  (DailyRollups.createRelease s.tables release).map fun (tables, deltas) =>
    { s with tables := tables, performed := s.performed ++ deltas }

def changeIssues (changes : List IssueChange) : Option State :=
  (s.tables.changeIssues changes).map fun (tables, deltas) =>
    { s with tables := tables, performed := s.performed ++ deltas }

def ingest (eventId : Uuid) (receivedAt : Timestamp) : Option State :=
  (DailyRollups.ingest initcap s.tables eventId receivedAt).map fun (tables, deltas) =>
    { s with
      tables := tables
      performed := s.performed ++ deltas
      work := s.work.insert ⟨eventId, 0, 0, .new 100 s.now, none, []⟩ }

def schedule (startedAt : Nat) (requestId : Uuid) (eventIds : List Uuid) : Option State :=
  if startedAt ≤ s.now then
    State.putAll (Reprocessing.Event.schedule · requestId startedAt s.now) eventIds s
  else none

def reconcile (startedAt : Nat) (eventIds requestIds : List Uuid) : Option State :=
  if startedAt ≤ s.now then
    State.putAll (Reprocessing.Event.reconcile · requestIds startedAt) eventIds s
  else none

def beginClaim (startedAt id : Nat) : Option State :=
  if startedAt ≤ s.now ∧ (s.claimers.find id).isNone then
    let found := s.work.rows.filter fun w => w.processJob.claimable startedAt
    some { s with
      claimers := s.claimers.insert
        ⟨id, startedAt, found.map fun w => (w.id, w.requestedGeneration)⟩ }
  else none

def claim (id : Nat) (eventId : Uuid) (holder : Holder) : Option State := do
  let claimer ← s.claimers.find id
  let target ← claimer.found.lookup eventId
  let w ← s.work.find eventId
  let j ← w.processJob.claim holder claimer.startedAt
  if (s.attempts.find holder.token).isSome then none
  else
    some { s.put { w.markRunning target with processJob := j } with
      attempts := s.attempts.insert ⟨holder, eventId, .processCrash, target, s.now⟩
      claimers := s.claimers.delete id }

def heartbeat (startedAt : Nat) (token : Uuid) : Option State := do
  let (a, w) ← s.attempt startedAt token
  let j ← w.processJob.heartbeat a.holder startedAt
  some (s.put { w with processJob := j })

def releaseJob (startedAt token seconds : Nat) (resource dependency : Bool) (code : String) :
    Option State := do
  let (a, w) ← s.attempt startedAt token
  let j ← w.processJob.release a.holder startedAt seconds resource dependency code
  some (s.put { w.markQueued a.target with processJob := j })

/-- `publish_crash_result`, of a document that `process_crash` made and checked. -/
def publish (startedAt : Nat) (token : Uuid) (p : Publication) : Option State := do
  let (a, w) ← s.attempt startedAt token
  let j ← w.processJob.lockLease a.holder startedAt
  if validateResult p.document (some p.guid) = .ok () then
    let resolved := p.ready && hasResolvedFrame p.document
    let state := if resolved then .processed else .awaitingSymbols
    let result := (redactAndIndex s.rules p.document).1
    let (results, id) ← s.store a.eventId p.resultId result
    let (tables, deltas) ← DailyRollups.publish initcap s.tables
      ⟨searchRow a.eventId id state result, p.release, p.issues, resolved⟩
    let w := (w.completeGeneration a.target).markDone a.target (.completed a.claimedAt a.target)
    let w ← w.endJob a startedAt (·.completeJob a.holder none) j
    some { s.put w with
      tables := tables, performed := s.performed ++ deltas, results := results }
  else none

def finishFailure (startedAt : Nat) (token : Uuid) (quarantine resource : Bool) (code : String) :
    Option State := do
  let (a, w) ← s.attempt startedAt token
  let j ← w.processJob.lockLease a.holder startedAt
  let (tables, deltas) ← DailyRollups.finishFailure initcap s.tables a.eventId quarantine a.target
  let w := (w.completeGeneration a.target).markDone a.target .failed
  let w ← w.endJob a startedAt (·.terminalJob a.holder quarantine resource code) j
  some { s.put w with tables := tables, performed := s.performed ++ deltas }

def step : Action → Option State
  | .tick seconds => some { s with now := s.now + seconds }
  | .createRelease release => createRelease s release
  | .changeRules rules => some { s with rules := rules }
  | .changeIssues changes => changeIssues s changes
  | .ingest eventId receivedAt => ingest initcap s eventId receivedAt
  | .schedule startedAt requestId eventIds => schedule s startedAt requestId eventIds
  | .reconcile startedAt eventIds requestIds => reconcile s startedAt eventIds requestIds
  | .beginClaim startedAt id => beginClaim s startedAt id
  | .claim id eventId holder => claim s id eventId holder
  | .heartbeat startedAt token => heartbeat s startedAt token
  | .releaseJob startedAt token seconds resource dependency code =>
    releaseJob s startedAt token seconds resource dependency code
  | .publish startedAt token p => publish initcap s startedAt token p
  | .finishFailure startedAt token quarantine resource code =>
    finishFailure initcap s startedAt token quarantine resource code

/-- An attempt for no generation fails only while its event has no result. -/
def FailsUnpublished (s : State) : Action → Prop
  | .finishFailure _ token _ _ _ => ∀ a ∈ s.attempts.find token, a.target = 0 →
      ∀ e ∈ s.tables.events.find a.eventId, e.currentResultId = none
  | _ => True

instance (s : State) : DecidablePred (FailsUnpublished s) := fun a => by
  cases a <;> unfold FailsUnpublished <;> infer_instance

end step
end FaultLane.SymbolicationRuns
