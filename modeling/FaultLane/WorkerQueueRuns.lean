import FaultLane.TransitionSystem
import FaultLane.WorkerQueue

set_option autoImplicit false

/-!
# Runs of the workers on one queue

A claim is one statement that reads the jobs from its snapshot and locks the row of a project
and then of a job. A publication is a transaction that holds the row of its job from
`lock_lease` on. `now()` is when a transaction began.
-/
namespace FaultLane.WorkerQueue
open KeyedTable JobQueue

inductive ClaimPhase where
  | reading
  | locked (projectId : Uuid)
  | done
  deriving DecidableEq, Repr

def ClaimPhase.project : ClaimPhase → Option Uuid
  | .locked projectId => some projectId
  | .reading | .done => none

/-- A claim statement with its snapshot. -/
structure Claim where
  holder : Holder
  startedAt : Nat
  jobs : Table JobRow.id
  events : Table CrashEvent.id
  phase : ClaimPhase

abbrev Claim.token (c : Claim) : Uuid := c.holder.token

/-- An open transaction after `lock_lease`, with the version of the job that only it sees. -/
structure Transaction where
  jobId : Uuid
  token : Uuid
  startedAt : Nat
  job : Job

/-- The tokens in `marks` are those of the `mark_cache_processing` statements that have joined
the cache to the leased job and not updated it yet. -/
structure State where
  now : Nat
  jobs : Table JobRow.id
  targets : Targets
  claims : Table Claim.token
  claimed : Table ClaimedJob.token
  transactions : Table Transaction.jobId
  marks : List Uuid

def State.init (targets : Targets) : State := ⟨0, .empty, targets, .empty, .empty, .empty, []⟩

/-! ## Claims -/

/-- `ORDER BY priority, available_at, created_at, id`. -/
def JobRow.precedes (a b : JobRow) : Prop :=
  a.job.priority < b.job.priority ∨ (a.job.priority = b.job.priority ∧
    (a.job.availableAt < b.job.availableAt ∨ (a.job.availableAt = b.job.availableAt ∧
      (a.createdAt < b.createdAt ∨ (a.createdAt = b.createdAt ∧ a.id ≤ b.id)))))

instance (a b : JobRow) : Decidable (a.precedes b) := inferInstanceAs (Decidable (_ ∨ _))

def orderedJobs (t : Table JobRow.id) : List JobRow := t.rows.insertionSort JobRow.precedes

/-- What a row adds to the unexpired leases of a project. -/
def JobRow.active (projectId : Uuid) (now : Nat) (r : JobRow) : Nat :=
  if r.projectId = projectId ∧ r.job.leaseActive now then 1 else 0

def activeJobs (t : Table JobRow.id) (projectId : Uuid) (now : Nat) : Nat :=
  t.total (JobRow.active projectId now)

/-- The project of the first job that may be claimed, past those with a locked row. -/
def Claim.candidateProject (c : Claim) (limit : Nat) (locked : List Uuid) : Option Uuid :=
  ((orderedJobs c.jobs).find? fun seed =>
    seed.job.claimable c.startedAt ∧ activeJobs c.jobs seed.projectId c.startedAt < limit ∧
      seed.projectId ∉ locked).map JobRow.projectId

/-- `COALESCE((SELECT e.requested_reprocessing_generation …), 0)`. -/
def Claim.targetGeneration (c : Claim) (target : JobTarget) : Nat :=
  ((target.event.bind c.events.find).map CrashEvent.requestedGeneration).getD 0

section step
variable (s : State)

def State.lockedProjects : List Uuid :=
  s.claims.rows.filterMap fun c => c.phase.project

/-- The row that a claim locks. A row that has changed since the snapshot is looked at again. -/
def State.candidate (c : Claim) (projectId : Uuid) (locked : List Uuid) : Option JobRow :=
  (orderedJobs c.jobs).findSome? fun r =>
    if r.projectId = projectId ∧ r.job.claimable c.startedAt ∧ r.id ∉ locked ∧
        (s.transactions.find r.id).isNone then
      (s.jobs.find r.id).filter fun current => current.job.claimable c.startedAt
    else none

def State.setJob (jobId : Uuid) (j : Job) : State :=
  { s with jobs := s.jobs.modify jobId (fun r => { r with job := j }) fun _ => rfl }

def State.setClaim (token : Uuid) (phase : ClaimPhase) : State :=
  { s with claims := s.claims.modify token (fun c => { c with phase := phase }) fun _ => rfl }

def State.closeTransaction (jobId : Uuid) : State :=
  { s with transactions := s.transactions.delete jobId }

/-- The job of a worker and its row, when a statement that began at `startedAt` gets the lock. -/
def State.lockJob (token startedAt : Nat) : Option (ClaimedJob × JobRow) := do
  let w ← s.claimed.find token
  let r ← s.jobs.find w.jobId
  if startedAt ≤ s.now ∧ (s.transactions.find w.jobId).isNone then some (w, r) else none

def State.openTransaction (token : Uuid) : Option (ClaimedJob × Transaction) := do
  let w ← s.claimed.find token
  let t ← s.transactions.find w.jobId
  if t.token = token then some (w, t) else none

def insertJob (id projectId : Uuid) (target : JobTarget) (priority : Nat) : Option State :=
  if (s.jobs.find id).isSome then none
  else some { s with jobs := s.jobs.insert ⟨id, projectId, target, s.now, .new priority s.now⟩ }

def beginClaim (h : Holder) (startedAt : Nat) : Option State :=
  if (s.claims.find h.token).isNone ∧ startedAt ≤ s.now then
    some { s with claims := s.claims.insert ⟨h, startedAt, s.jobs, s.targets.events, .reading⟩ }
  else none

/-- `FOR UPDATE OF p SKIP LOCKED LIMIT 1`. Sessions other than the claims may hold rows too. -/
def lockProject (limit : Nat) (token : Uuid) (locked : List Uuid) : Option State := do
  let c ← s.claims.find token
  if c.phase = .reading then
    some (s.setClaim token
      (match c.candidateProject limit (s.lockedProjects ++ locked) with
        | some projectId => .locked projectId
        | none => .done))
  else none

/-- `FOR UPDATE OF j SKIP LOCKED LIMIT 1`, the update of the row and the commit. -/
def takeJob (token : Uuid) (locked : List Uuid) : Option State := do
  let c ← s.claims.find token
  match c.phase with
  | .locked projectId =>
    match s.candidate c projectId locked with
    | some r => do
      let j ← r.job.claim c.holder c.startedAt
      let w : ClaimedJob := ⟨c.holder, r.id, r.projectId, r.target, c.targetGeneration r.target⟩
      some { (s.setClaim token .done).setJob r.id j with claimed := s.claimed.insert w }
    | none => some (s.setClaim token .done)
  | .reading | .done => none

/-- A claim whose transaction is rolled back. -/
def abandonClaim (token : Uuid) : Option State := do
  let _ ← s.claims.find token
  some (s.setClaim token .done)

/-! ## Workers -/

def heartbeat (token startedAt : Nat) : Option State := do
  let (w, r) ← s.lockJob token startedAt
  let j ← r.job.heartbeat w.holder startedAt
  some (s.setJob r.id j)

def releaseJob (token startedAt seconds : Nat) (resource dependency : Bool) (code : String) :
    Option State := do
  let (w, r) ← s.lockJob token startedAt
  let j ← r.job.release w.holder startedAt seconds resource dependency code
  some (s.setJob r.id j)

/-- `lock_lease`. -/
def lockLease (token startedAt : Nat) : Option State := do
  let (w, r) ← s.lockJob token startedAt
  let j ← r.job.lockLease w.holder startedAt
  some { s with transactions := s.transactions.insert ⟨w.jobId, token, startedAt, j⟩ }

def commit (token : Uuid) (p : Publication) : Option State := do
  let (w, t) ← s.openTransaction token
  let (targets, ending) ← s.targets.publish w p
  let j ← ending.apply t.job w.holder t.startedAt
  some { (s.setJob w.jobId j).closeTransaction w.jobId with targets := targets }

def rollback (token : Uuid) : Option State := do
  let (w, _) ← s.openTransaction token
  some (s.closeTransaction w.jobId)

/-- The join of `mark_cache_processing`, which locks no row of `jobs`. -/
def readMark (token : Uuid) : Option State := do
  let w ← s.claimed.find token
  let r ← s.jobs.find w.jobId
  match w.target with
  | .generateSymcache _ =>
    if r.job.holds w.holder ∧ r.job.leaseActive s.now then some { s with marks := token :: s.marks }
    else none
  | .processCrash _ | .indexArtifact _ | .deleteRaw _ => none

/-- The update of `mark_cache_processing`. -/
def applyMark (token : Uuid) : Option State := do
  let w ← s.claimed.find token
  if token ∈ s.marks then
    match w.target with
    | .generateSymcache cacheId =>
      some { s with targets := s.targets.markCache cacheId, marks := s.marks.erase token }
    | .processCrash _ | .indexArtifact _ | .deleteRaw _ => none
  else none

/-! ## The rest of the system -/

/-- What the reprocessing requests do to the job of an event. -/
def reviveJob (jobId startedAt : Nat) (revive : Job → Nat → Job) : Option State := do
  let r ← s.jobs.find jobId
  if startedAt ≤ s.now ∧ (s.transactions.find jobId).isNone then
    some (s.setJob jobId (revive r.job startedAt))
  else none

end step

/-- `others` is a transaction that changes the rows that jobs name, and no job. -/
inductive Action where
  | tick (seconds : Nat)
  | insertJob (id projectId : Uuid) (target : JobTarget) (priority : Nat)
  | beginClaim (holder : Holder) (startedAt : Nat)
  | lockProject (token : Uuid) (locked : List Uuid)
  | takeJob (token : Uuid) (locked : List Uuid)
  | abandonClaim (token : Uuid)
  | heartbeat (token startedAt : Nat)
  | releaseJob (token startedAt seconds : Nat) (resource dependency : Bool) (code : String)
  | lockLease (token startedAt : Nat)
  | commit (token : Uuid) (publication : Publication)
  | rollback (token : Uuid)
  | readMark (token : Uuid)
  | applyMark (token : Uuid)
  | reactivateJob (jobId startedAt : Nat)
  | resetJob (jobId startedAt : Nat)
  | others (targets : Targets)

def step (limit : Nat) (s : State) : Action → Option State
  | .tick seconds => some { s with now := s.now + seconds }
  | .insertJob id projectId target priority => insertJob s id projectId target priority
  | .beginClaim holder startedAt => beginClaim s holder startedAt
  | .lockProject token locked => lockProject s limit token locked
  | .takeJob token locked => takeJob s token locked
  | .abandonClaim token => abandonClaim s token
  | .heartbeat token startedAt => heartbeat s token startedAt
  | .releaseJob token startedAt seconds resource dependency code =>
    releaseJob s token startedAt seconds resource dependency code
  | .lockLease token startedAt => lockLease s token startedAt
  | .commit token publication => commit s token publication
  | .rollback token => rollback s token
  | .readMark token => readMark s token
  | .applyMark token => applyMark s token
  | .reactivateJob jobId startedAt => reviveJob s jobId startedAt Job.reactivated
  | .resetJob jobId startedAt => reviveJob s jobId startedAt Job.reset
  | .others targets => some { s with targets := targets }

end FaultLane.WorkerQueue
