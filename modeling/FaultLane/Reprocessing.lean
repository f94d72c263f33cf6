import FaultLane.JobQueue
import FaultLane.KeyedTable
import FaultLane.TransitionSystem

set_option autoImplicit false

/-!
# Reprocessing generations

The events, the jobs that name them and the rows of reprocessing requests, under the
transactions of the workers and of the request scheduler. Each transaction locks the job
row that it changes, so it is one step. A claim reads the generation from the snapshot of
its statement, which may be older than the lock that it waits for.
-/
namespace FaultLane.Reprocessing
open KeyedTable JobQueue

/-- A completed row keeps which run completed it: when it was claimed, and its target. -/
inductive RequestState where
  | queued
  | running
  | completed (claimedAt target : Nat)
  | failed
  deriving DecidableEq, Repr

/-- A row of `crash_reprocessing_request_events`, and the step that inserted it. -/
structure RequestEvent where
  requestId : Uuid
  generation : Nat
  state : RequestState
  insertedAt : Nat
  deriving DecidableEq, Repr

def RequestEvent.active (r : RequestEvent) : Prop := r.state = .queued ∨ r.state = .running

instance : DecidablePred RequestEvent.active := fun _ => inferInstanceAs (Decidable (_ ∨ _))

/-- The two kinds of job that name an event. -/
inductive EventJob where
  | processCrash
  | deleteRaw
  deriving DecidableEq, Repr

structure Event where
  id : Uuid
  requestedGeneration : Nat
  completedGeneration : Nat
  processJob : Job
  deleteJob : Option Job
  requests : List RequestEvent
  deriving DecidableEq

/-- A claimed job in the hands of a worker, and the step that claimed it. -/
structure Attempt where
  holder : Holder
  eventId : Uuid
  kind : EventJob
  target : Nat
  claimedAt : Nat
  deriving DecidableEq, Repr

def Attempt.token (a : Attempt) : Uuid := a.holder.token

/-- A claim statement that has its snapshot and no lock yet. -/
structure Claimer where
  id : Nat
  requested : List (Uuid × Nat)
  deriving DecidableEq, Repr

structure State where
  now : Nat
  clock : Nat
  events : Table Event.id
  attempts : Table Attempt.token
  claimers : Table Claimer.id

def State.init : State := ⟨0, 0, .empty, .empty, .empty⟩

section event
variable (e : Event)

def Event.job : EventJob → Option Job
  | .processCrash => some e.processJob
  | .deleteRaw => e.deleteJob

def Event.setJob : EventJob → Job → Event
  | .processCrash, j => { e with processJob := j }
  | .deleteRaw, j => { e with deleteJob := some j }

/-- `UPDATE crash_reprocessing_request_events SET state = …` of the rows that pass. -/
def Event.updateRequests (p : RequestEvent → Prop) [DecidablePred p] (state : RequestState) :
    Event :=
  { e with requests := e.requests.map fun r => if p r then { r with state := state } else r }

/-- `COALESCE((SELECT max(x.generation) … WHERE x.state = 'running'), 0)`. -/
def Event.runningGeneration : Nat :=
  ((e.requests.filter (·.state = .running)).map RequestEvent.generation).foldr max 0

def Event.nextGeneration : Nat :=
  if e.processJob.state.lease.isSome then
    if e.requestedGeneration ≤ e.runningGeneration then e.requestedGeneration + 1
    else e.requestedGeneration
  else if e.completedGeneration < e.requestedGeneration then e.requestedGeneration
  else e.requestedGeneration + 1

/-- `schedule_reprocessing_events` on one selected event. -/
def Event.schedule (requestId now clock : Nat) : Event :=
  if e.requests.any (·.requestId = requestId) then e
  else
    { e with
      requestedGeneration := e.nextGeneration
      requests := ⟨requestId, e.nextGeneration, .queued, clock⟩ :: e.requests
      processJob := e.processJob.reactivated now }

/-- `mark_reprocessing_events_running`. -/
def Event.markRunning (target : Nat) : Event :=
  if target = 0 then e
  else e.updateRequests (fun r => r.generation ≤ target ∧ r.state = .queued) .running

/-- The rows that `release_job` gives back. -/
def Event.markQueued (target : Nat) : Event :=
  if target = 0 then e
  else e.updateRequests (fun r => r.generation ≤ target ∧ r.state = .running) .queued

/-- The rows that a published or a failed attempt ends. -/
def Event.markDone (target : Nat) (state : RequestState) : Event :=
  if target = 0 then e
  else e.updateRequests (fun r => r.generation ≤ target ∧ r.active) state

def Event.completeGeneration (target : Nat) : Event :=
  { e with completedGeneration := max e.completedGeneration target }

/-- The rows that `reconcile_reprocessing_event_jobs` may pick. -/
def Event.stranded (r : RequestEvent) : Prop :=
  r.active ∧ e.completedGeneration < r.generation ∧ e.processJob.state.terminal

instance : DecidablePred e.stranded := fun _ => inferInstanceAs (Decidable (_ ∧ _))

def Event.reconcile (requestIds : List Uuid) (now : Nat) : Event :=
  if e.requests.any fun r => r.requestId ∈ requestIds ∧ e.stranded r then
    { e.updateRequests (fun r => r.requestId ∈ requestIds ∧ e.stranded r) .queued with
      processJob := e.processJob.reset now }
  else e

end event

section step
variable (s : State)

def State.put (e : Event) : State :=
  { s with
    events := s.events.modify e.id
      (fun old => { e with id := old.id }) fun _ => rfl }

/-- One statement over several events. -/
def State.putAll (f : Event → Event) : List Uuid → State → Option State
  | [], s => some s
  | id :: rest, s => (s.events.find id).bind fun e => putAll f rest (s.put (f e))

def State.attempt (token : Uuid) : Option (Attempt × Event × Job) := do
  let a ← s.attempts.find token
  let e ← s.events.find a.eventId
  let j ← e.job a.kind
  some (a, e, j)

def receive (eventId : Uuid) : Option State :=
  if (s.events.find eventId).isSome then none
  else some { s with events := s.events.insert ⟨eventId, 0, 0, .new 100 s.now, none, []⟩ }

/-- The insert of `enqueue_raw_deletion`, `ON CONFLICT DO NOTHING`. -/
def enqueueDeletion (eventId : Uuid) : Option State := do
  let e ← s.events.find eventId
  some (s.put { e with deleteJob := some (e.deleteJob.getD (.new 50 s.now)) })

def schedule (requestId : Uuid) (eventIds : List Uuid) : Option State :=
  State.putAll (Event.schedule · requestId s.now s.clock) eventIds s

def beginClaim (id : Nat) : Option State :=
  if (s.claimers.find id).isSome then none
  else
    some { s with
      claimers := s.claimers.insert ⟨id, s.events.rows.map fun e => (e.id, e.requestedGeneration)⟩ }

def claim (id : Nat) (kind : EventJob) (eventId : Uuid) (h : Holder) : Option State := do
  let claimer ← s.claimers.find id
  let target ← claimer.requested.lookup eventId
  let e ← s.events.find eventId
  let j ← e.job kind
  let j ← j.claim h s.now
  if (s.attempts.find h.token).isSome then none
  else
    some { s.put ((e.markRunning target).setJob kind j) with
      attempts := s.attempts.insert ⟨h, eventId, kind, target, s.clock⟩
      claimers := s.claimers.delete id }

def heartbeat (token : Uuid) : Option State := do
  let (a, e, j) ← s.attempt token
  let j ← j.heartbeat a.holder s.now
  some (s.put (e.setJob a.kind j))

/-- `release_job`, which does not look at the kind of the job. -/
def releaseJob (token seconds : Nat) (resource dependency : Bool) (code : String) :
    Option State := do
  let (a, e, j) ← s.attempt token
  let j ← j.release a.holder s.now seconds resource dependency code
  some (s.put ((e.markQueued a.target).setJob a.kind j))

/-- Requeued when a newer generation was requested, else at its end. -/
def Event.endJob (e : Event) (a : Attempt) (now : Nat) (done : Job → Option Job) (j : Job) :
    Option Event :=
  (if a.target < e.requestedGeneration then j.requeueForNewGeneration a.holder now
    else done j).map (e.setJob .processCrash)

def publishCrashResult (token : Uuid) : Option State := do
  let (a, e, j) ← s.attempt token
  let j ← j.lockLease a.holder s.now
  if a.kind = .processCrash then
    let e := (e.completeGeneration a.target).markDone a.target (.completed a.claimedAt a.target)
    let e ← e.endJob a s.now (·.completeJob a.holder none) j
    some (s.put e)
  else none

/-- The successful end of `delete_raw`. -/
def finishDeletion (token : Uuid) : Option State := do
  let (a, e, j) ← s.attempt token
  let j ← j.lockLease a.holder s.now
  let j ← j.completeJob a.holder none
  if a.kind = .deleteRaw then some (s.put (e.setJob .deleteRaw j)) else none

def finishFailure (token : Uuid) (quarantine resource : Bool) (code : String) : Option State := do
  let (a, e, j) ← s.attempt token
  let j ← j.lockLease a.holder s.now
  match a.kind with
  | .processCrash =>
    let e := (e.completeGeneration a.target).markDone a.target .failed
    let e ← e.endJob a s.now (·.terminalJob a.holder quarantine resource code) j
    some (s.put e)
  | .deleteRaw =>
    let j ← j.terminalJob a.holder quarantine resource code
    some (s.put (e.setJob .deleteRaw j))

def reconcile (eventIds : List Uuid) (requestIds : List Uuid) : Option State :=
  State.putAll (Event.reconcile · requestIds s.now) eventIds s

end step

inductive Action where
  | tick (seconds : Nat)
  | receive (eventId : Uuid)
  | enqueueDeletion (eventId : Uuid)
  | schedule (requestId : Uuid) (eventIds : List Uuid)
  | beginClaim (id : Nat)
  | claim (id : Nat) (kind : EventJob) (eventId : Uuid) (holder : Holder)
  | heartbeat (token : Uuid)
  | releaseJob (token seconds : Nat) (resource dependency : Bool) (code : String)
  | publishCrashResult (token : Uuid)
  | finishDeletion (token : Uuid)
  | finishFailure (token : Uuid) (quarantine resource : Bool) (code : String)
  | reconcile (eventIds requestIds : List Uuid)

def perform (s : State) : Action → Option State
  | .tick seconds => some { s with now := s.now + seconds }
  | .receive eventId => receive s eventId
  | .enqueueDeletion eventId => enqueueDeletion s eventId
  | .schedule requestId eventIds => schedule s requestId eventIds
  | .beginClaim id => beginClaim s id
  | .claim id kind eventId holder => claim s id kind eventId holder
  | .heartbeat token => heartbeat s token
  | .releaseJob token seconds resource dependency code =>
    releaseJob s token seconds resource dependency code
  | .publishCrashResult token => publishCrashResult s token
  | .finishDeletion token => finishDeletion s token
  | .finishFailure token quarantine resource code => finishFailure s token quarantine resource code
  | .reconcile eventIds requestIds => reconcile s eventIds requestIds

def step (s : State) (a : Action) : Option State :=
  (perform s a).map fun s' => { s' with clock := s.clock + 1 }

/-- The release of a deletion attempt gives back no row that a process job is running. -/
def Benign (s : State) : Action → Prop
  | .releaseJob token _ _ _ _ =>
    ∀ a ∈ s.attempts.find token, a.kind = .deleteRaw → ∀ e ∈ s.events.find a.eventId,
      e.processJob.state.lease.isSome → ∀ r ∈ e.requests, r.state = .running → a.target < r.generation
  | _ => True

instance (s : State) : DecidablePred (Benign s) := fun a => by
  cases a <;> unfold Benign <;> infer_instance

end FaultLane.Reprocessing
