import FaultLane.BatchedQueue
import FaultLane.SortDedup
import FaultLane.TransitionSystem
import FaultLane.UsageRows
import Mathlib.Data.Prod.Lex

set_option autoImplicit false

/-!
# Scheduling of raw deletions

The raw objects of all projects with the events that they belong to, and the `delete_raw` jobs
with all the columns that the constraints of their table look at. A statement that breaks a
constraint gives `none`.
-/
namespace FaultLane.RawScheduling
open KeyedTable JobQueue SortDedup
open Usage (RawLifecycle RetentionClass daySeconds)

def retentionBatchSize : Nat := 5000

/-- The limit in `schedule_expired_raw_legacy`. -/
def legacyBatchSize : Nat := 100

/-! ## Rows -/

structure Project where
  id : Uuid
  rawRetentionDays : Nat
  reconciledAt : Option Nat
  deriving DecidableEq, Repr

/-- A raw object with its event: `persist_event` inserts the two together, and no statement
deletes them. -/
structure RawObject where
  id : Uuid
  eventId : Uuid
  projectId : Uuid
  receivedAt : Nat
  deleteAfter : Option Nat
  lifecycle : RawLifecycle
  deletedAt : Option Nat
  retentionClass : RetentionClass
  deriving DecidableEq, Repr

/-- The object and the event of a scheduled deletion. -/
def RawObject.deleting (c : RetentionClass) (o : RawObject) : RawObject :=
  { o with lifecycle := .deleting, retentionClass := c }

/-- `crash_event_objects_deleted_check`. -/
def RawObject.Checked (o : RawObject) : Prop := o.lifecycle = .discarded ↔ o.deletedAt.isSome

instance (o : RawObject) : Decidable o.Checked := inferInstanceAs (Decidable (_ ↔ _))

inductive JobState where
  | pending
  | leased
  | completed
  | failed
  | dead
  deriving DecidableEq, Repr

def JobState.finished : JobState → Bool
  | .completed | .failed | .dead => true
  | .pending | .leased => false

/-- A `delete_raw` job, by the object that its idempotency key names. -/
structure JobRow where
  objectId : Uuid
  eventId : Uuid
  state : JobState
  attempt : Nat
  maxAttempt : Nat
  resourceFailures : Nat
  availableAt : Nat
  leaseOwner : Option Uuid
  leaseToken : Option Uuid
  leaseExpiresAt : Option Nat
  heartbeatAt : Option Nat
  failureCode : Option String
  completedAt : Option Nat
  deriving DecidableEq, Repr

/-- `jobs_completion_check`. -/
def JobRow.CompletionChecked (j : JobRow) : Prop := j.state.finished = j.completedAt.isSome

/-- `jobs_lease_token_check` and the check of the other lease columns. -/
def JobRow.LeaseChecked (j : JobRow) : Prop :=
  j.state = .leased → j.leaseOwner.isSome ∧ j.leaseExpiresAt.isSome ∧ j.leaseToken.isSome ∧
    j.heartbeatAt.isSome

def JobRow.Checked (j : JobRow) : Prop :=
  j.CompletionChecked ∧ j.LeaseChecked ∧ j.resourceFailures ≤ 2 ∧
    1 ≤ j.maxAttempt ∧ j.maxAttempt ≤ 20

instance (j : JobRow) : Decidable j.CompletionChecked := inferInstanceAs (Decidable (_ = _))
instance (j : JobRow) : Decidable j.LeaseChecked := inferInstanceAs (Decidable (_ → _))
instance (j : JobRow) : Decidable j.Checked := inferInstanceAs (Decidable (_ ∧ _))

/-! ## Statements on a job -/

section jobs
variable (j : JobRow) (h : Holder) (now : Nat)

/-- The row that the inserts make, with the table's defaults. -/
def JobRow.new (objectId eventId now : Nat) : JobRow :=
  ⟨objectId, eventId, .pending, 0, 5, 0, now, none, none, none, none, none, none⟩

def JobRow.heldBy : Prop :=
  j.state = .leased ∧ j.leaseOwner = some h.owner ∧ j.leaseToken = some h.token

instance : Decidable (j.heldBy h) := inferInstanceAs (Decidable (_ ∧ _))

def JobRow.claimable : Prop :=
  (j.state = .pending ∧ j.availableAt ≤ now ∧
    (j.attempt < j.maxAttempt ∨ (j.attempt = j.maxAttempt ∧ j.resourceFailures = 1))) ∨
  (j.state = .leased ∧ ∃ expiry ∈ j.leaseExpiresAt, expiry ≤ now)

instance : Decidable (j.claimable now) := inferInstanceAs (Decidable (_ ∨ _))

def JobRow.renewed : JobRow :=
  { j with leaseExpiresAt := some (now + leaseSeconds), heartbeatAt := some now }

/-- `claim_job_with_project_limit`. -/
def JobRow.claim : Option JobRow :=
  if j.claimable now then
    some { j with
      state := .leased, attempt := j.attempt + 1, leaseOwner := some h.owner,
      leaseToken := some h.token, leaseExpiresAt := some (now + leaseSeconds),
      heartbeatAt := some now }
  else none

/-- The update of `start_heartbeat`. -/
def JobRow.heartbeat : Option JobRow := if j.heldBy h then some (j.renewed now) else none

def JobRow.lockLease : Option JobRow :=
  if j.heldBy h ∧ ∃ expiry ∈ j.leaseExpiresAt, now < expiry then some (j.renewed now) else none

def JobRow.released : JobRow :=
  { j with leaseOwner := none, leaseToken := none, leaseExpiresAt := none, heartbeatAt := none }

def JobRow.completeJob : Option JobRow :=
  if j.heldBy h then
    some { j.released with state := .completed, failureCode := none, completedAt := some now }
  else none

/-- `terminal_job`, into `failed` for a quarantine and `dead` otherwise. -/
def JobRow.terminalJob (quarantine resource : Bool) (code : String) : Option JobRow :=
  if j.heldBy h then
    some { j.released with
      state := if quarantine then .failed else .dead
      failureCode := some code
      resourceFailures := j.resourceFailures + if resource then 1 else 0
      completedAt := some now }
  else none

/-- The update of `release_job`. -/
def JobRow.releaseJob (seconds : Nat) (resource dependency : Bool) (code : String) :
    Option JobRow :=
  if j.heldBy h then
    some { j.released with
      state := .pending
      availableAt := now + seconds
      failureCode := some code
      resourceFailures := j.resourceFailures + if resource then 1 else 0
      attempt := j.attempt - if dependency then 1 else 0 }
  else none

/-- The `DO UPDATE` of `schedule_expired_raw_v2_batch`. It leaves `completed_at` as it is. -/
def JobRow.reactivated : JobRow :=
  { j with
    state := .pending, attempt := 0, availableAt := now, leaseOwner := none, leaseToken := none,
    leaseExpiresAt := none }

end jobs

/-! ## Statements of the schedulers -/

structure Database where
  projects : Table Project.id
  objects : Table RawObject.id
  jobs : Table JobRow.objectId

/-- The constraints of the tables, the two unique ones on events among them. -/
def Database.Checked (db : Database) : Prop :=
  (∀ o ∈ db.objects.rows, o.Checked) ∧ (db.objects.rows.map RawObject.eventId).Nodup ∧
    (∀ j ∈ db.jobs.rows, j.Checked) ∧ (db.jobs.rows.map JobRow.eventId).Nodup

instance (db : Database) : Decidable db.Checked := inferInstanceAs (Decidable (_ ∧ _))

section schedulers
variable (db : Database)

/-- The end of a statement. -/
def Database.commit : Option Database := if db.Checked then some db else none

def Database.reconciled (o : RawObject) : Bool :=
  match db.projects.find o.projectId with
  | some p => p.reconciledAt.isSome
  | none => false

/-- `enqueue_raw_deletion`. -/
def Database.enqueueRawDeletion (objectId : Uuid) (c : RetentionClass) (now : Nat) :
    Option Database :=
  match db.objects.find objectId with
  | some o =>
    if o.lifecycle = .stored then
      { db with
        objects := db.objects.modify objectId (·.deleting c) fun _ => rfl
        jobs := db.jobs.insert (.new o.id o.eventId now) }.commit
    else some db
  | none => some db

/-- An object that the policy of its project has let expire. -/
def Database.expired (now : Nat) (o : RawObject) : Prop :=
  o.lifecycle = .stored ∧ ∃ p ∈ db.projects.find o.projectId,
    o.receivedAt + p.rawRetentionDays * daySeconds < now

instance (now : Nat) (o : RawObject) : Decidable (db.expired now o) :=
  inferInstanceAs (Decidable (_ ∧ _))

def RawObject.receivedKey (o : RawObject) : Nat ×ₗ Nat := toLex (o.receivedAt, o.eventId)

/-- The rows that `schedule_expired_raw_legacy` selects, past those that are locked. -/
def Database.legacyRows (now : Nat) (locked : List Uuid) : List RawObject :=
  (sortBy RawObject.receivedKey
    (db.objects.rows.filter fun o => db.expired now o ∧ o.id ∉ locked)).take legacyBatchSize

def Database.scheduleExpiredRawLegacy (now : Nat) (locked : List Uuid) : Option Database :=
  (db.legacyRows now locked).foldlM (fun db o => db.enqueueRawDeletion o.id .expired now) db

def RawObject.dueAt (now : Nat) (o : RawObject) : Prop :=
  o.lifecycle = .stored ∧ ∃ deadline ∈ o.deleteAfter, deadline ≤ now

instance (now : Nat) (o : RawObject) : Decidable (o.dueAt now) :=
  inferInstanceAs (Decidable (_ ∧ _))

/-- The order of `(raw_delete_after, id)`; the objects that are ordered have a deadline. -/
def RawObject.dueKey (o : RawObject) : Nat ×ₗ Nat := toLex (o.deleteAfter.getD 0, o.id)

/-- The due objects of all projects, past those that are locked. -/
def Database.dueQueue (now : Nat) (locked : List Uuid) : List RawObject :=
  sortBy RawObject.dueKey (db.objects.rows.filter fun o => o.dueAt now ∧ o.id ∉ locked)

/-- `candidates` and `due`: the limit comes before the join with the reconciled projects. -/
def Database.due (now batchSize : Nat) (locked : List Uuid) : List RawObject :=
  BatchedQueue.taken db.reconciled batchSize (db.dueQueue now locked)

/-- The upsert of the jobs of some objects. -/
def queueDeletions (jobs : Table JobRow.objectId) (due : List RawObject) (now : Nat) :
    Table JobRow.objectId :=
  due.foldl (fun jobs o => jobs.insert (.new o.id o.eventId now))
    (jobs.updateAll (fun j =>
      if (∃ o ∈ due, o.id = j.objectId ∧ o.eventId = j.eventId) ∧ j.state.finished then
        j.reactivated now
      else j) fun j => by split <;> rfl)

/-- `schedule_expired_raw_v2_batch`, with the number of events that it claims. -/
def Database.scheduleExpiredRawV2Batch (now batchSize : Nat) (locked : List Uuid) :
    Option (Database × Nat) :=
  let due := db.due now batchSize locked
  ({ db with
    objects := db.objects.updateAll (fun o => if o ∈ due then o.deleting .expired else o)
      fun o => by split <;> rfl
    jobs := queueDeletions db.jobs due now } : Database).commit.map fun db => (db, due.length)

/-- Batches one after another, while nothing else happens. -/
def Database.v2Batches (now : Nat) : Nat → Database → Option Database
  | 0, db => some db
  | n + 1, db => do
    let (db, _) ← db.scheduleExpiredRawV2Batch now retentionBatchSize []
    v2Batches now n db

end schedulers

/-! ## The other transactions -/

section transactions
variable (db : Database)

def Database.setObject (objectId : Uuid) (lifecycle : RawLifecycle) (deletedAt : Option Nat)
    (c : RetentionClass) : Database :=
  { db with
    objects := db.objects.modify objectId (fun o => { o with
      lifecycle := lifecycle, deletedAt := deletedAt, retentionClass := c }) fun _ => rfl }

def Database.setJob (objectId : Uuid) (j : JobRow) : Option Database :=
  { db with
    jobs := db.jobs.modify objectId (fun old => { j with objectId := old.objectId })
      fun _ => rfl }.commit

/-- A change of the job of an object, when it is allowed. -/
def Database.updateJob (objectId : Uuid) (update : JobRow → Option JobRow) : Option Database := do
  let j ← db.jobs.find objectId
  let j ← update j
  db.setJob objectId j

/-- The event and the object that an acceptance inserts. -/
def Database.accept (objectId eventId projectId : Uuid) (c : RetentionClass) (now : Nat) :
    Option Database := do
  let p ← db.projects.find projectId
  let o : RawObject := ⟨objectId, eventId, projectId, now,
    some (now + p.rawRetentionDays * daySeconds), .stored, none, c⟩
  if (db.objects.find objectId).isSome then none
  else Database.commit { db with objects := db.objects.insert o }

def Database.setRetentionClass (objectId : Uuid) (c : RetentionClass) : Database :=
  { db with
    objects := db.objects.modify objectId (fun o => { o with retentionClass := c })
      fun _ => rfl }

/-- The decision of a publication: the class of its event, and an object that it ages out. -/
def Database.publish (objectId : Uuid) (c : RetentionClass) (aged : Option Uuid) (now : Nat) :
    Option Database :=
  match aged with
  | none => some (db.setRetentionClass objectId c)
  | some aged => (db.enqueueRawDeletion aged .deleting now).map (·.setRetentionClass objectId c)

/-- `reconcile_storage`, with the backfill of the deadlines before it. -/
def Database.reconcile (projectId : Uuid) (now : Nat) : Option Database := do
  let p ← db.projects.find projectId
  some { db with
    projects := db.projects.modify projectId (fun p => { p with reconciledAt := some now })
      fun _ => rfl
    objects := db.objects.updateAll (fun o =>
      if o.projectId = projectId ∧ o.deleteAfter = none then
        { o with deleteAfter := some (o.receivedAt + p.rawRetentionDays * daySeconds) }
      else o) fun o => by split <;> rfl }

/-- The restoring transaction of `delete_raw`. -/
def Database.restore (objectId : Uuid) (h : Holder) (now : Nat) : Option Database := do
  let o ← db.objects.find objectId
  let j ← db.jobs.find objectId
  let j ← j.lockLease h now
  let j ← j.completeJob h now
  if o.lifecycle = .deleting ∧ o.retentionClass = .deleting then
    (db.setObject objectId .stored none .standard).setJob objectId j
  else none

/-- The last transaction of `delete_raw`. -/
def Database.finishRaw (objectId : Uuid) (h : Holder) (now : Nat) : Option Database := do
  let o ← db.objects.find objectId
  let j ← db.jobs.find objectId
  let j ← j.lockLease h now
  let j ← j.completeJob h now
  if o.lifecycle = .deleting then
    (db.setObject objectId .discarded (some now)
      (if o.retentionClass = .expired then .expired else .discarded)).setJob objectId j
  else db.setJob objectId j

end transactions

/-! ## Runs -/

structure State where
  now : Nat
  db : Database

/-- No job yet: every object is as its acceptance, or one from before the deadlines, left it. -/
def State.Initial (s : State) : Prop :=
  s.db.jobs = .empty ∧ s.db.Checked ∧ ∀ o ∈ s.db.objects, o.lifecycle = .stored

inductive Action where
  | tick (seconds : Nat)
  | createProject (projectId : Uuid) (days : Nat)
  | setRetentionDays (projectId : Uuid) (days : Nat)
  | accept (objectId eventId projectId : Uuid) (c : RetentionClass)
  | publish (objectId : Uuid) (c : RetentionClass) (aged : Option Uuid)
  | expireLegacy (locked : List Uuid)
  | expireV2 (locked : List Uuid)
  | reconcile (projectId : Uuid)
  | claim (objectId : Uuid) (h : Holder)
  | heartbeat (objectId : Uuid) (h : Holder)
  | releaseJob (objectId : Uuid) (h : Holder) (seconds : Nat) (resource dependency : Bool)
      (code : String)
  | finishFailure (objectId : Uuid) (h : Holder) (quarantine resource : Bool) (code : String)
  | restore (objectId : Uuid) (h : Holder)
  | finishRaw (objectId : Uuid) (h : Holder)

def stepDatabase (now : Nat) (db : Database) : Action → Option Database
  | .tick _ => some db
  | .createProject projectId days =>
    some { db with projects := db.projects.insert ⟨projectId, days, some now⟩ }
  | .setRetentionDays projectId days =>
    some { db with
      projects := db.projects.modify projectId (fun p => { p with rawRetentionDays := days })
        fun _ => rfl }
  | .accept objectId eventId projectId c => db.accept objectId eventId projectId c now
  | .publish objectId c aged => db.publish objectId c aged now
  | .expireLegacy locked => db.scheduleExpiredRawLegacy now locked
  | .expireV2 locked => (db.scheduleExpiredRawV2Batch now retentionBatchSize locked).map Prod.fst
  | .reconcile projectId => db.reconcile projectId now
  | .claim objectId h => db.updateJob objectId (·.claim h now)
  | .heartbeat objectId h => db.updateJob objectId (·.heartbeat h now)
  | .releaseJob objectId h seconds resource dependency code =>
    db.updateJob objectId (·.releaseJob h now seconds resource dependency code)
  | .finishFailure objectId h quarantine resource code =>
    db.updateJob objectId fun j => do
      let j ← j.lockLease h now
      j.terminalJob h now quarantine resource code
  | .restore objectId h => db.restore objectId h now
  | .finishRaw objectId h => db.finishRaw objectId h now

/-- A transaction is committed when the constraints hold. -/
def step (s : State) (a : Action) : Option State := do
  let db ← stepDatabase s.now s.db a
  let db ← db.commit
  some ⟨s.now + match a with | .tick seconds => seconds | _ => 0, db⟩

end FaultLane.RawScheduling
