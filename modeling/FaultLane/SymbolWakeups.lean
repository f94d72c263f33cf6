import FaultLane.Reprocessing
import FaultLane.SymbolArrival
import Mathlib.Data.List.Sort

set_option autoImplicit false

/-!
# Symbols that wake crashes

The releases, the artifacts and the automatic requests of one project beside its job queue.
A run reads the release of its crash in one step and publishes in a later one. The queue's
clock counts the steps, and each row that is dated takes the step that wrote it.
-/
namespace FaultLane.SymbolWakeups
open KeyedTable JobQueue
open CrashSymbols (ReleaseLookup ReleaseResolution SelectedArtifact SymbolWaiter)
open SymbolArrival (ProcessingState awaits)

def automaticReprocessingBatch : Nat := 100
def maxStoredReleaseCandidates : Nat := 101

structure Release where
  id : String
  key : ReleaseLookup
  deriving DecidableEq, Repr

/-- A row of `release_manifest_artifacts`, with the step that last made it available. -/
structure Artifact where
  id : Uuid
  releaseId : String
  artifact : SelectedArtifact
  availableAt : Option Nat
  deriving DecidableEq

/-- What the idempotency digest of an automatic request is made of. -/
inductive RequestKey where
  | artifact (manifestId : Uuid) (checksum : List UInt8)
  | waiter (manifestId resultId : Uuid)
  deriving DecidableEq, Repr

def RequestKey.manifestId : RequestKey → Uuid
  | .artifact manifestId _ => manifestId
  | .waiter manifestId _ => manifestId

def RequestKey.isWaiter : RequestKey → Bool
  | .artifact _ _ => false
  | .waiter _ _ => true

inductive SelectionState where
  | pending
  | scheduling
  | complete
  deriving DecidableEq, Repr

structure Request where
  id : Uuid
  key : RequestKey
  selectionBefore : Nat
  cursor : Option Uuid
  state : SelectionState
  deriving DecidableEq, Repr

def Request.unfinished (q : Request) : Prop := q.state ≠ .complete

instance : DecidablePred Request.unfinished := fun _ => inferInstanceAs (Decidable (_ ≠ _))

/-- What a run has read. It reads the artifacts after the release. -/
structure Reading where
  token : Uuid
  readAt : Nat
  release : ReleaseResolution

/-- The current result of an event, with its waiters and its release mapping. -/
structure Published where
  resultId : Uuid
  state : ProcessingState
  release : ReleaseResolution
  waiters : Finset SymbolWaiter
  createdAt : Nat
  readAt : Nat

structure Crash where
  id : Uuid
  receivedAt : Nat
  current : Option Published

structure Database where
  releases : Table Release.id
  artifacts : Table Artifact.id
  requests : Table Request.id
  readings : Table Reading.token
  crashes : Table Crash.id

structure State where
  jobs : Reprocessing.State
  db : Database

def State.init : State := ⟨.init, ⟨.empty, .empty, .empty, .empty, .empty⟩⟩

section
variable (lower : String → String)

/-! ## Releases and artifacts of a crash -/

/-- The condition of `resolve_release`. -/
def Release.matches (r : Release) (l : ReleaseLookup) : Prop :=
  r.key.version = l.version ∧ r.key.platform = l.platform ∧
    r.key.architecture = l.architecture ∧ lower r.key.configuration = lower l.configuration

instance (r : Release) (l : ReleaseLookup) : Decidable (r.matches lower l) :=
  inferInstanceAs (Decidable (_ ∧ _))

def Database.resolveRelease (db : Database) (lookup : Option ReleaseLookup) : ReleaseResolution :=
  match lookup with
  | none => ⟨none, []⟩
  | some l =>
    let ids := ((db.releases.rows.filter (·.matches lower l)).map Release.id).insertionSort (· ≤ ·)
    ⟨some l, ids.take maxStoredReleaseCandidates⟩

/-- A waiter of the current result matches the artifact. -/
def Published.awaits (p : Published) (m : Artifact) : Prop :=
  p.state = .awaitingSymbols ∧ p.release.matchedId = some m.releaseId ∧
    ∃ w ∈ p.waiters, SymbolArrival.awaits lower w m.artifact

instance (p : Published) (m : Artifact) : Decidable (p.awaits lower m) :=
  inferInstanceAs (Decidable (_ ∧ _))

/-- The first branch of the candidates, over the waiters. -/
def Crash.awaited (c : Crash) (selectionBefore : Nat) (m : Artifact) : Prop :=
  ∃ p ∈ c.current, p.createdAt ≤ selectionBefore ∧ p.awaits lower m

instance (c : Crash) (selectionBefore : Nat) (m : Artifact) :
    Decidable (c.awaited lower selectionBefore m) :=
  inferInstanceAs (Decidable (∃ p ∈ c.current, _))

/-- The second branch, over the events without a release. -/
def Crash.unmapped (c : Crash) (selectionBefore : Nat) (m : Artifact) (r : Release) : Prop :=
  ∃ p ∈ c.current, c.receivedAt ≤ selectionBefore ∧
    (p.release.state = .missing ∨ p.release.state = .ambiguous) ∧
    ∃ l ∈ p.release.lookup, l.version = r.key.version ∧ l.platform = r.key.platform ∧
      l.architecture = m.artifact.architecture ∧ lower l.configuration = lower r.key.configuration

instance (c : Crash) (selectionBefore : Nat) (m : Artifact) (r : Release) :
    Decidable (c.unmapped lower selectionBefore m r) :=
  inferInstanceAs (Decidable (∃ p ∈ c.current, _))

def Database.automaticReprocessingCandidates (db : Database) (q : Request) : List Uuid :=
  match db.artifacts.find q.key.manifestId with
  | none => []
  | some m =>
    match m.availableAt, db.releases.find m.releaseId with
    | some _, some r =>
      let events := db.crashes.rows.filter fun c =>
        c.awaited lower q.selectionBefore m ∨ c.unmapped lower q.selectionBefore m r
      let ids := (events.map Crash.id).filter fun id => ∀ cursor ∈ q.cursor, cursor < id
      (ids.insertionSort (· ≤ ·)).take (automaticReprocessingBatch + 1)
    | _, _ => []

/-- The events that the next expansion of a request schedules. -/
def Database.batch (db : Database) (requestId : Uuid) : List Uuid :=
  match db.requests.find requestId with
  | none => []
  | some q => (db.automaticReprocessingCandidates lower q).take automaticReprocessingBatch

/-! ## Transactions -/

/-- The insert of an automatic request, `ON CONFLICT DO NOTHING` on its digest. -/
def Database.insertRequest (db : Database) (now : Nat) (requestId : Uuid) (key : RequestKey) :
    Option Database :=
  if db.requests.rows.any (·.key = key) then some db
  else if (db.requests.find requestId).isSome then none
  else some { db with requests := db.requests.insert ⟨requestId, key, now, none, .pending⟩ }

def Database.createRelease (db : Database) (id : String) (key : ReleaseLookup) : Option Database :=
  if (db.releases.find id).isSome ∨ db.releases.rows.any (·.key = key) then none
  else some { db with releases := db.releases.insert ⟨id, key⟩ }

def Database.setAvailable (db : Database) (id : Uuid) (availableAt : Option Nat) : Database :=
  { db with
    artifacts := db.artifacts.modify id (fun m => { m with availableAt := availableAt })
      fun _ => rfl }

/-- `try_upsert_manifest_artifact` with an artifact that the negotiation has validated. -/
def Database.negotiate (db : Database) (id : Uuid) (releaseId : String)
    (artifact : SelectedArtifact) : Option Database := do
  let r ← db.releases.find releaseId
  if artifact.architecture ≠ r.key.architecture then none
  else
    match db.artifacts.find id with
    | none => some { db with artifacts := db.artifacts.insert ⟨id, releaseId, artifact, none⟩ }
    | some m =>
      if m.releaseId ≠ releaseId then none
      else
        some { db with
          artifacts := db.artifacts.modify id
            (fun m => { m with artifact := artifact, availableAt := none }) fun _ => rfl }

/-- A statement that takes the row out of `available`, such as `update_manifest_state`. -/
def Database.withdraw (db : Database) (id : Uuid) : Option Database :=
  if (db.artifacts.find id).isSome then some (db.setAvailable id none) else none

/-- The row becomes available, or is so already, and `enqueue_artifact_request` follows. -/
def Database.makeAvailable (db : Database) (now : Nat) (id requestId : Uuid) : Option Database := do
  let m ← db.artifacts.find id
  let db := db.setAvailable id (some (m.availableAt.getD now))
  db.insertRequest now requestId (.artifact id m.artifact.checksum)

def Database.claimRequest (db : Database) (id : Uuid) : Option Database := do
  let q ← db.requests.find id
  if q.unfinished then
    some { db with
      requests := db.requests.modify id (fun q => { q with state := .scheduling }) fun _ => rfl }
  else none

/-- What `expand_reprocessing_request` leaves of the request. -/
def Request.expanded (q : Request) (candidates : List Uuid) : Request :=
  if automaticReprocessingBatch < candidates.length then
    { q with
      state := .pending
      cursor := (candidates.take automaticReprocessingBatch).getLast? }
  else { q with state := .complete }

def Database.expand (db : Database) (id : Uuid) : Option Database := do
  let q ← db.requests.find id
  if q.state = .scheduling then
    some { db with
      requests := db.requests.modify id
        (fun old => { q.expanded (db.automaticReprocessingCandidates lower q) with id := old.id })
        fun _ => rfl }
  else none

/-- The artifact that `enqueue_waiter_catchup_requests` picks. -/
def Database.catchupManifest (db : Database) (p : Published) : Option Uuid :=
  (((db.artifacts.rows.filter fun m => m.availableAt.isSome ∧ p.awaits lower m).map
    Artifact.id).insertionSort (· ≤ ·)).head?

def Database.enqueueWaiterCatchupRequests (db : Database) (now : Nat) (requestId : Uuid)
    (p : Published) : Option Database :=
  match db.catchupManifest lower p with
  | none => some db
  | some manifestId => db.insertRequest now requestId (.waiter manifestId p.resultId)

def Database.setCurrent (db : Database) (id : Uuid) (f : Option Published → Option Published) :
    Database :=
  { db with
    crashes := db.crashes.modify id (fun c => { c with current := f c.current }) fun _ => rfl }

/-- What a run has made of its readings: the stored result, its state and its waiters. -/
structure Output where
  resultId : Uuid
  state : ProcessingState
  waiters : Finset SymbolWaiter

def Reading.published (r : Reading) (o : Output) (now : Nat) : Published :=
  { resultId := o.resultId
    state := o.state
    release := r.release
    waiters := if o.state = .awaitingSymbols ∧ r.release.matchedId.isSome then o.waiters else ∅
    createdAt := now
    readAt := r.readAt }

section step
variable (s : State)

def State.now : Nat := s.jobs.clock

def receive (eventId : Uuid) : Option Database :=
  if (s.db.crashes.find eventId).isSome then none
  else some { s.db with crashes := s.db.crashes.insert ⟨eventId, s.now, none⟩ }

def read (token : Uuid) (lookup : Option ReleaseLookup) : Option Database :=
  if (s.jobs.attempts.find token).isSome ∧ (s.db.readings.find token).isNone then
    some { s.db with
      readings := s.db.readings.insert ⟨token, s.now, s.db.resolveRelease lower lookup⟩ }
  else none

/-- The writes of `publish_crash_result` outside the queue. -/
def publish (token requestId : Uuid) (o : Output) : Option Database := do
  let a ← s.jobs.attempts.find token
  let r ← s.db.readings.find token
  let _ ← s.db.crashes.find a.eventId
  if r.release.matchedId.isNone ∧ o.state ≠ .awaitingSymbols then none
  else
    let p := r.published o s.now
    (s.db.setCurrent a.eventId fun _ => some p).enqueueWaiterCatchupRequests lower s.now requestId p

/-- The writes of `finish_failure` outside the queue. -/
def finishFailure (token : Uuid) : Option Database := do
  let a ← s.jobs.attempts.find token
  some (s.db.setCurrent a.eventId fun current =>
    current.map fun p => if 0 < a.target then p else { p with state := .failed })

end step

inductive Action where
  | tick (seconds : Nat)
  | receive (eventId : Uuid)
  | createRelease (id : String) (key : ReleaseLookup)
  | negotiate (id : Uuid) (releaseId : String) (artifact : SelectedArtifact)
  | withdraw (id : Uuid)
  | makeAvailable (id requestId : Uuid)
  | claimRequest (id : Uuid)
  | expand (id : Uuid)
  | beginClaim (id : Nat)
  | claim (id : Nat) (eventId : Uuid) (holder : Holder)
  | heartbeat (token : Uuid)
  | read (token : Uuid) (lookup : Option ReleaseLookup)
  | releaseJob (token seconds : Nat) (resource dependency : Bool) (code : String)
  | publish (token requestId : Uuid) (output : Output)
  | finishFailure (token : Uuid) (quarantine resource : Bool) (code : String)

/-- What an action does to the queue. -/
def queueAction (s : State) : Action → Reprocessing.Action
  | .tick seconds => .tick seconds
  | .receive eventId => .receive eventId
  | .expand id => .schedule id (s.db.batch lower id)
  | .beginClaim id => .beginClaim id
  | .claim id eventId holder => .claim id .processCrash eventId holder
  | .heartbeat token => .heartbeat token
  | .releaseJob token seconds resource dependency code =>
    .releaseJob token seconds resource dependency code
  | .publish token _ _ => .publishCrashResult token
  | .finishFailure token quarantine resource code => .finishFailure token quarantine resource code
  | .createRelease _ _ | .negotiate _ _ _ | .withdraw _ | .makeAvailable _ _ | .claimRequest _
  | .read _ _ => .tick 0

/-- What an action does to the other tables. -/
def perform (s : State) : Action → Option Database
  | .tick _ | .beginClaim _ | .claim _ _ _ | .heartbeat _ | .releaseJob _ _ _ _ _ => some s.db
  | .receive eventId => receive s eventId
  | .createRelease id key => s.db.createRelease id key
  | .negotiate id releaseId artifact => s.db.negotiate id releaseId artifact
  | .withdraw id => s.db.withdraw id
  | .makeAvailable id requestId => s.db.makeAvailable s.now id requestId
  | .claimRequest id => s.db.claimRequest id
  | .expand id => s.db.expand lower id
  | .read token lookup => read lower s token lookup
  | .publish token requestId output => publish lower s token requestId output
  | .finishFailure token _ _ _ => finishFailure s token

def step (s : State) (a : Action) : Option State := do
  let jobs ← Reprocessing.step s.jobs (queueAction lower s a)
  let db ← perform lower s a
  some ⟨jobs, db⟩

/-! ## What the project waits for -/

/-- The one release that matches. -/
def Database.UniqueRelease (db : Database) (l : ReleaseLookup) (releaseId : String) : Prop :=
  (∃ r ∈ db.releases.rows, r.matches lower l) ∧
    ∀ r ∈ db.releases.rows, r.matches lower l → r.id = releaseId

instance (db : Database) (l : ReleaseLookup) (releaseId : String) :
    Decidable (db.UniqueRelease lower l releaseId) :=
  inferInstanceAs (Decidable (_ ∧ _))

/-- The artifact can do something for the result: a waiter or the one release names it. -/
def Database.Wants (db : Database) (p : Published) (m : Artifact) : Prop :=
  p.awaits lower m ∨
    (p.release.state = .missing ∧
      ∃ l ∈ p.release.lookup, db.UniqueRelease lower l m.releaseId)

instance (db : Database) (p : Published) (m : Artifact) : Decidable (db.Wants lower p m) :=
  inferInstanceAs (Decidable (_ ∨ (_ ∧ ∃ l ∈ p.release.lookup, _)))

/-- No request and no processing job has anything left to do. -/
structure State.Quiet (s : State) : Prop where
  requests : ∀ q ∈ s.db.requests, ¬ q.unfinished
  jobs : ∀ e ∈ s.jobs.events, e.processJob.state.terminal

/-- Every result was published by a run that read after the artifacts it wants. -/
def State.AllAwake (s : State) : Prop :=
  ∀ c ∈ s.db.crashes, ∀ p ∈ c.current, ∀ m ∈ s.db.artifacts, ∀ since ∈ m.availableAt,
    s.db.Wants lower p m → since ≤ p.readAt

/-- The artifacts that became available after the run had read. -/
def Database.Late (db : Database) (p : Published) (m : Artifact) : Prop :=
  db.Wants lower p m ∧ ∃ since ∈ m.availableAt, p.readAt < since

instance (db : Database) (p : Published) (m : Artifact) : Decidable (db.Late lower p m) :=
  inferInstanceAs (Decidable (_ ∧ ∃ since ∈ m.availableAt, _))

/-- The job of the attempt is queued again when the attempt ends. -/
def State.Superseded (s : State) (a : Reprocessing.Attempt) : Prop :=
  ∀ e ∈ s.jobs.events.find a.eventId, a.target < e.requestedGeneration

instance (s : State) (a : Reprocessing.Attempt) : Decidable (s.Superseded a) :=
  inferInstanceAs (Decidable (∀ e ∈ s.jobs.events.find a.eventId, _))

/-- A request for the artifact has not come to the event yet. -/
def Request.comesTo (q : Request) (c : Crash) (m : Artifact) : Prop :=
  q.unfinished ∧ q.key.manifestId = m.id ∧ (∀ cursor ∈ q.cursor, cursor < c.id) ∧
    c.receivedAt ≤ q.selectionBefore

instance (q : Request) (c : Crash) (m : Artifact) : Decidable (q.comesTo c m) :=
  inferInstanceAs (Decidable (_ ∧ _ ∧ (∀ cursor ∈ q.cursor, _) ∧ _))

/-- A publication whose run has missed an artifact can still be caught up with. -/
def State.CatchesUp (s : State) (c : Crash) (p : Published) : Prop :=
  ∀ m ∈ s.db.artifacts.rows, s.db.Late lower p m →
    if p.release.state = .missing then ∃ q ∈ s.db.requests.rows, q.comesTo c m
    else ∀ manifestId ∈ s.db.catchupManifest lower p, ∀ q ∈ s.db.requests.rows,
      q.key ≠ .waiter manifestId p.resultId

instance (s : State) (c : Crash) (p : Published) : Decidable (s.CatchesUp lower c p) :=
  inferInstanceAs (Decidable (∀ m ∈ s.db.artifacts.rows, _ → _))

/-- The steps that lose no wake-up. -/
def Undisturbed (s : State) : Action → Prop
  | .makeAvailable id _ => ∀ m ∈ s.db.artifacts.find id, m.availableAt.isNone →
      ∀ q ∈ s.db.requests.rows, q.key ≠ .artifact id m.artifact.checksum
  | .negotiate id _ _ | .withdraw id => ∀ q ∈ s.db.requests.rows, q.unfinished →
      q.key.isWaiter → q.key.manifestId ≠ id
  | .publish token _ output => ∀ a ∈ s.jobs.attempts.find token,
      s.Superseded a ∨ ∀ r ∈ s.db.readings.find token, ∀ c ∈ s.db.crashes.find a.eventId,
        s.CatchesUp lower c (r.published output s.now)
  | .finishFailure token _ _ _ => ∀ a ∈ s.jobs.attempts.find token,
      s.Superseded a ∨ ∀ c ∈ s.db.crashes.find a.eventId, ∀ p ∈ c.current,
        ∀ m ∈ s.db.artifacts.rows, ¬ s.db.Late lower p m
  | _ => True

instance (s : State) : DecidablePred (Undisturbed lower s) := fun a => by
  cases a <;> unfold Undisturbed <;> infer_instance

end
end FaultLane.SymbolWakeups
