import FaultLane.JobQueue
import FaultLane.KeyedTable
import FaultLane.TransitionSystem

set_option autoImplicit false

/-!
# The status of a reprocessing request

One row of `crash_reprocessing_requests` and the rows of its events, under transactions whose
statements interleave. A transaction sees the committed rows with its own changes over them.
`refresh_reprocessing_request` reads when it starts and writes when it has the lock of the
request row, of which alone it then reads the newest version.
-/
namespace FaultLane.RequestStatus
open KeyedTable JobQueue

/-- `partially` is the state `partial`. -/
inductive RequestState where
  | pending
  | scheduling
  | running
  | completed
  | partially
  | failed
  deriving DecidableEq, Repr

def RequestState.done : RequestState → Bool
  | .completed | .partially | .failed => true
  | .pending | .scheduling | .running => false

/-- The states that the limit on manual requests counts. -/
def RequestState.active : RequestState → Bool
  | .pending | .scheduling | .running => true
  | .completed | .partially | .failed => false

inductive EventState where
  | queued
  | running
  | completed
  | failed
  deriving DecidableEq, Repr

def EventState.done : EventState → Bool
  | .completed | .failed => true
  | .queued | .running => false

/-- A row of `crash_reprocessing_request_events`. -/
structure EventRow where
  eventId : Uuid
  state : EventState
  deriving DecidableEq, Repr

structure Counts where
  selected : Nat
  queued : Nat
  running : Nat
  completed : Nat
  failed : Nat
  deriving DecidableEq, Repr

def Counts.of (rows : List EventRow) : Counts where
  selected := rows.length
  queued := rows.countP (·.state = .queued)
  running := rows.countP (·.state = .running)
  completed := rows.countP (·.state = .completed)
  failed := rows.countP (·.state = .failed)

structure RequestRow where
  state : RequestState
  lease : Option Lease
  selectionComplete : Bool
  attempt : Nat
  maxAttempt : Nat
  failureCode : Option String
  counts : Counts
  completedAt : Option Nat
  deriving DecidableEq, Repr

def RequestRow.new : RequestRow := ⟨.pending, none, false, 0, 5, none, ⟨0, 0, 0, 0, 0⟩, none⟩

/-- The table's checks on the lease columns, on `completed_at` and on the counts. -/
structure RequestRow.Fits (r : RequestRow) : Prop where
  lease : r.lease.isSome ↔ r.state = .scheduling
  completedAt : r.completedAt.isSome = r.state.done
  counts : r.counts.queued + r.counts.running + r.counts.completed + r.counts.failed =
    r.counts.selected

instance (r : RequestRow) : Decidable r.Fits :=
  decidable_of_iff ((r.lease.isSome ↔ r.state = .scheduling) ∧
    r.completedAt.isSome = r.state.done ∧
      r.counts.queued + r.counts.running + r.counts.completed + r.counts.failed =
        r.counts.selected)
    ⟨fun h => ⟨h.1, h.2.1, h.2.2⟩, fun h => ⟨h.1, h.2, h.3⟩⟩

/-- The `next_state` of a refresh. -/
def RequestRow.nextState (r : RequestRow) (c : Counts) : RequestState :=
  if !r.selectionComplete then r.state
  else if r.failureCode.isSome ∧ 0 < c.completed then .partially
  else if r.failureCode.isSome then .failed
  else if c.selected = 0 then .completed
  else if 0 < c.queued + c.running then .running
  else if 0 < c.completed ∧ 0 < c.failed then .partially
  else if 0 < c.failed then .failed
  else .completed

/-- The row `desired` of a refresh. -/
structure Desired where
  counts : Counts
  nextState : RequestState
  deriving DecidableEq, Repr

/-- An open transaction: its changes, its version of the request row, which it then has the lock
of, and what a refresh that waits for the lock has read. -/
structure Transaction where
  id : Nat
  changes : List EventRow
  request : Option RequestRow
  desired : Option Desired
  refreshed : Bool
  deriving DecidableEq

structure State where
  now : Nat
  request : RequestRow
  rows : Table EventRow.eventId
  transactions : Table Transaction.id
  violations : Nat

def State.init : State := ⟨0, .new, .empty, .empty, 0⟩

def upsert (rows : Table EventRow.eventId) (r : EventRow) : Table EventRow.eventId :=
  if (rows.find r.eventId).isSome then
    rows.modify r.eventId (fun old => { old with state := r.state }) fun _ => rfl
  else rows.insert r

/-- The updates of event rows, each with the states that it looks for. -/
inductive RowUpdate where
  | markRunning
  | markQueued
  | complete
  | fail
  | reset
  deriving DecidableEq, Repr

def RowUpdate.applies : RowUpdate → EventState → Bool
  | .markRunning, .queued | .markQueued, .running => true
  | .complete, .queued | .complete, .running | .fail, .queued | .fail, .running
  | .reset, .queued | .reset, .running => true
  | _, _ => false

def RowUpdate.to : RowUpdate → EventState
  | .markRunning => .running
  | .markQueued | .reset => .queued
  | .complete => .completed
  | .fail => .failed

section step
variable (s : State)

/-- The event rows as a transaction sees them. -/
def State.view (t : Transaction) : Table EventRow.eventId := t.changes.foldl upsert s.rows

/-- The request row as a transaction sees it. -/
def State.requestOf (t : Transaction) : RequestRow := t.request.getD s.request

def State.desired (t : Transaction) : Desired :=
  let counts := Counts.of (s.view t).rows
  ⟨counts, (s.requestOf t).nextState counts⟩

/-- No other transaction has the lock of the request row. -/
def State.unlocked (id : Nat) : Prop :=
  ∀ t ∈ s.transactions.rows, t.request.isSome → t.id = id

instance (id : Nat) : Decidable (s.unlocked id) :=
  inferInstanceAs (Decidable (∀ t ∈ s.transactions.rows, _ → _))

def State.put (t : Transaction) : State :=
  { s with
    transactions := s.transactions.modify t.id (fun old => { t with id := old.id }) fun _ => rfl }

/-- `claim_reprocessing_request`, which skips a locked row. -/
def claimRequest (h : Holder) : Option State :=
  let r := s.request
  let expired := ∃ lease ∈ r.lease, lease.expiresAt ≤ s.now
  if (∀ t ∈ s.transactions.rows, t.request = none) ∧
      ((r.state = .pending ∧ r.attempt < r.maxAttempt) ∨ (r.state = .scheduling ∧ expired)) then
    let exhausted := r.state = .scheduling ∧ r.maxAttempt ≤ r.attempt
    some { s with
      request := { r with
        state := .scheduling
        attempt := r.attempt + if exhausted then 0 else 1
        lease := some ⟨h.owner, h.token, s.now + leaseSeconds⟩
        completedAt := none } }
  else none

def begin (id : Nat) : Option State :=
  if (s.transactions.find id).isSome then none
  else some { s with transactions := s.transactions.insert ⟨id, [], none, none, true⟩ }

/-- The statement of a claim, a release, a publication, a failure or a reconciliation on the row
of an event, whose lock it then has. -/
def change (id : Nat) (eventId : Uuid) (u : RowUpdate) : Option State := do
  let t ← s.transactions.find id
  let r ← (s.view t).find eventId
  if u.applies r.state ∧ t.request = none ∧ t.desired = none ∧
      ∀ other ∈ s.transactions.rows, other.id ≠ id → ∀ c ∈ other.changes, c.eventId ≠ eventId then
    some (s.put { t with changes := t.changes ++ [⟨eventId, u.to⟩], refreshed := false })
  else none

/-- `lock_reprocessing_request`, at the start of a transaction. -/
def lockRequest (id : Nat) (h : Holder) : Option State := do
  let t ← s.transactions.find id
  let leased := ∃ lease ∈ s.request.lease, lease.heldBy h ∧ s.now < lease.expiresAt
  if s.unlocked id ∧ t.request = none ∧ t.desired = none ∧ t.changes = [] ∧
      s.request.state = .scheduling ∧ leased then
    some (s.put { t with request := some s.request })
  else none

/-- The rows that `schedule_reprocessing_events` inserts for events that have none. -/
def schedule (id : Nat) (eventIds : List Uuid) : Option State := do
  let t ← s.transactions.find id
  if t.request.isSome ∧ t.desired = none then
    let added := eventIds.filter fun eventId => ((s.view t).find eventId).isNone
    some (s.put { t with changes := t.changes ++ added.map (⟨·, .queued⟩), refreshed := false })
  else none

/-- `release_reprocessing_request_page`. -/
def RequestRow.releasePage (r : RequestRow) : RequestRow :=
  { r with state := .pending, attempt := 0, lease := none, failureCode := none }

/-- `complete_reprocessing_selection`. -/
def RequestRow.completeSelection (r : RequestRow) : RequestRow :=
  { r with state := .running, selectionComplete := true, lease := none, failureCode := none }

def endPage (id : Nat) (truncated : Bool) : Option State := do
  let t ← s.transactions.find id
  let r ← t.request
  if r.state = .scheduling ∧ t.desired = none then
    some (s.put { t with
      request := some (if truncated then r.releasePage else r.completeSelection)
      refreshed := false })
  else none

/-- `finish_reprocessing_schedule_failure` after its lock. -/
def failSchedule (id : Nat) (code : String) : Option State := do
  let t ← s.transactions.find id
  let r ← t.request
  if r.state = .scheduling ∧ t.desired = none ∧ t.changes = [] then
    if r.attempt < r.maxAttempt then
      some (s.put { t with
        request := some { r with state := .pending, lease := none, failureCode := some code } })
    else
      some (s.put { t with
        request := some { r with
          state := .failed, selectionComplete := true, lease := none, failureCode := some code
          completedAt := some s.now }
        refreshed := false })
  else none

/-- A refresh takes its snapshot. -/
def startRefresh (id : Nat) : Option State := do
  let t ← s.transactions.find id
  if t.desired = none then some (s.put { t with desired := some (s.desired t) }) else none

def RequestRow.refreshed (r : RequestRow) (d : Desired) (now : Nat) : RequestRow :=
  { r with
    state := d.nextState
    counts := d.counts
    completedAt := if d.nextState.done then some (r.completedAt.getD now) else none }

/-- A refresh gets the lock and writes. A row that does not fit ends the transaction. -/
def finishRefresh (id : Nat) : Option State := do
  let t ← s.transactions.find id
  let d ← t.desired
  if s.unlocked id then
    let r := (s.requestOf t).refreshed d s.now
    if r.Fits then
      some (s.put { t with request := some r, desired := none, refreshed := true })
    else
      some { s with
        transactions := s.transactions.delete id
        violations := s.violations + 1 }
  else none

def commit (id : Nat) : Option State := do
  let t ← s.transactions.find id
  if t.refreshed ∧ t.desired = none then
    some { s with
      request := s.requestOf t
      rows := s.view t
      transactions := s.transactions.delete id }
  else none

def rollback (id : Nat) : Option State :=
  if (s.transactions.find id).isSome then
    some { s with transactions := s.transactions.delete id }
  else none

end step

inductive Action where
  | tick (seconds : Nat)
  | claimRequest (holder : Holder)
  | begin (id : Nat)
  | change (id : Nat) (eventId : Uuid) (update : RowUpdate)
  | lockRequest (id : Nat) (holder : Holder)
  | schedule (id : Nat) (eventIds : List Uuid)
  | endPage (id : Nat) (truncated : Bool)
  | failSchedule (id : Nat) (code : String)
  | startRefresh (id : Nat)
  | finishRefresh (id : Nat)
  | commit (id : Nat)
  | rollback (id : Nat)

def step (s : State) : Action → Option State
  | .tick seconds => some { s with now := s.now + seconds }
  | .claimRequest holder => claimRequest s holder
  | .begin id => begin s id
  | .change id eventId update => change s id eventId update
  | .lockRequest id holder => lockRequest s id holder
  | .schedule id eventIds => schedule s id eventIds
  | .endPage id truncated => endPage s id truncated
  | .failSchedule id code => failSchedule s id code
  | .startRefresh id => startRefresh s id
  | .finishRefresh id => finishRefresh s id
  | .commit id => commit s id
  | .rollback id => rollback s id

/-- What the rows of a request that is done say of it. -/
def State.outcome (s : State) : RequestState :=
  if ∃ r ∈ s.rows.rows, r.state = .completed then
    if s.request.failureCode.isSome ∨ ∃ r ∈ s.rows.rows, r.state = .failed then .partially
    else .completed
  else if s.request.failureCode.isSome ∨ ∃ r ∈ s.rows.rows, r.state = .failed then .failed
  else .completed

/-- No refresh broke a check, and a request whose rows are done is done as they say. -/
structure State.Accurate (s : State) : Prop where
  violations : s.violations = 0
  settled : s.transactions.rows = [] → s.request.selectionComplete →
    (∀ r ∈ s.rows, r.state.done) →
    s.request.state = s.outcome ∧ s.request.state.active = false ∧
      s.request.counts = Counts.of s.rows.rows

/-- A refresh writes what it would read at that moment. -/
def UpToDate (s : State) : Action → Prop
  | .finishRefresh id => ∀ t ∈ s.transactions.find id, t.desired = some (s.desired t)
  | _ => True

instance (s : State) : DecidablePred (UpToDate s) := fun a => by
  cases a <;> unfold UpToDate <;> infer_instance

end FaultLane.RequestStatus
