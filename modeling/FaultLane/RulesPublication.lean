import FaultLane.KeysetPage
import FaultLane.Reprocessing
import Mathlib.Data.List.Sort
import Mathlib.Data.Prod.Lex

set_option autoImplicit false

/-!
# Data rules and publications

The rules of one project, the results that are published under them and the automatic requests
of rule updates, beside the job queue. An update, a publication and both claims take the lock of
the project row. A publication reads the rules in the snapshot of the statement that waits for
that lock. Of the rules only the version is kept.
-/
namespace FaultLane.RulesPublication
open KeyedTable JobQueue

def automaticReprocessingBatch : Nat := 100

/-- Where an event stands in the order of a selection: `(received_at, id)`. -/
abbrev Position := Nat ×ₗ Uuid

/-- The versions in the current result, in the search document and in the facets. -/
structure Published where
  result : Nat
  search : Nat
  facets : List Nat
  deriving DecidableEq, Repr

structure Crash where
  id : Uuid
  receivedAt : Nat
  current : Option Published
  deriving DecidableEq, Repr

def Crash.position (c : Crash) : Position := toLex (c.receivedAt, c.id)

/-- A result of those rules replaces the search document and all facets. -/
def Published.under (version facets : Nat) : Published :=
  ⟨version, version, List.replicate facets version⟩

inductive SelectionState where
  | pending
  | scheduling
  | complete
  deriving DecidableEq, Repr

/-- The page that an open expansion has selected, and where the next one begins. -/
structure Page where
  events : List Position
  next : Option Position
  deriving DecidableEq

/-- An automatic request with scope `data_rules_version`. -/
structure Request where
  id : Uuid
  version : Nat
  selectionBefore : Nat
  cursor : Option Position
  state : SelectionState
  page : Option Page
  deriving DecidableEq

/-- A publication whose first statement has its snapshot of the rules. -/
structure Publication where
  token : Uuid
  version : Nat
  deriving DecidableEq, Repr

/-- Who has the lock of the project row, an update with what it has written. -/
inductive ProjectLock where
  | publication (token : Uuid)
  | update (selectionBefore : Option Nat)
  deriving DecidableEq, Repr

structure State where
  jobs : Reprocessing.State
  version : Nat
  lock : Option ProjectLock
  publications : Table Publication.token
  requests : Table Request.id
  crashes : Table Crash.id

def State.init : State := ⟨.init, 0, none, .empty, .empty, .empty⟩

def Request.selects (q : Request) (c : Crash) : Prop :=
  c.receivedAt ≤ q.selectionBefore ∧ (∃ p ∈ c.current, p.result < q.version) ∧
    ∀ cursor ∈ q.cursor, cursor < c.position

instance (q : Request) : DecidablePred q.selects := fun c =>
  inferInstanceAs (Decidable (_ ∧ (∃ p ∈ c.current, _) ∧ ∀ cursor ∈ q.cursor, _))

/-- The candidates of a request in their order, one more than a page has. -/
def Request.candidates (q : Request) (crashes : Table Crash.id) : List Position :=
  (((crashes.rows.filter q.selects).map Crash.position).insertionSort (· ≤ ·)).take
    (automaticReprocessingBatch + 1)

def Request.nextPage (q : Request) (crashes : Table Crash.id) : Page :=
  let candidates := q.candidates crashes
  let events := candidates.take automaticReprocessingBatch
  ⟨events, if automaticReprocessingBatch < candidates.length then events.getLast? else none⟩

/-- What the end of an expansion leaves of the request. -/
def Request.expanded (q : Request) (page : Page) : Request :=
  match page.next with
  | some cursor => { q with state := .pending, cursor := some cursor, page := none }
  | none => { q with state := .complete, page := none }

section step
variable (s : State)

def State.now : Nat := s.jobs.clock

def State.putRequest (q : Request) : State :=
  { s with
    requests := s.requests.modify q.id (fun old => { q with id := old.id }) fun _ => rfl }

def receive (eventId : Uuid) : Option State :=
  if (s.crashes.find eventId).isSome then none
  else some { s with crashes := s.crashes.insert ⟨eventId, s.now, none⟩ }

/-- The statement of `lock_for_publication` starts and reads the rules. -/
def startPublication (token : Uuid) : Option State :=
  if (s.jobs.attempts.find token).isSome ∧ (s.publications.find token).isNone then
    some { s with publications := s.publications.insert ⟨token, s.version⟩ }
  else none

/-- It gets the lock of the project row, and returns what it has read. -/
def grantPublication (token : Uuid) : Option State :=
  if s.lock = none ∧ (s.publications.find token).isSome then
    some { s with lock := some (.publication token) }
  else none

/-- The rest of `publish_crash_result` outside the queue, and its commit. -/
def publish (token facets : Nat) : Option State := do
  let a ← s.jobs.attempts.find token
  let p ← s.publications.find token
  if s.lock = some (.publication token) then
    some { s with
      lock := none
      publications := s.publications.delete token
      crashes := s.crashes.modify a.eventId
        (fun c => { c with current := some (.under p.version facets) }) fun _ => rfl }
  else none

/-- A publication that is rolled back. -/
def abandonPublication (token : Uuid) : Option State :=
  some { s with
    lock := if s.lock = some (.publication token) then none else s.lock
    publications := s.publications.delete token }

/-- The first statement of `update_data_rules`. -/
def beginUpdate : Option State :=
  if s.lock = none then some { s with lock := some (.update none) } else none

/-- It writes the rules of the next version and the request, dated by `clock_timestamp()`. -/
def writeRules : Option State :=
  if s.lock = some (.update none) then some { s with lock := some (.update (some s.now)) }
  else none

def commitUpdate (requestId : Uuid) : Option State :=
  match s.lock with
  | some (.update (some selectionBefore)) =>
    if (s.requests.find requestId).isSome then none
    else
      some { s with
        version := s.version + 1
        lock := none
        requests := s.requests.insert
          ⟨requestId, s.version + 1, selectionBefore, none, .pending, none⟩ }
  | _ => none

/-- An update that is rolled back, or that changes nothing. -/
def abandonUpdate : Option State :=
  match s.lock with
  | some (.update _) => some { s with lock := none }
  | _ => none

/-- `claim_reprocessing_request`, which skips a project that is locked. An expansion that has
lost its lease is rolled back. -/
def claimRequest (requestId : Uuid) : Option State := do
  let q ← s.requests.find requestId
  if s.lock = none ∧ q.state ≠ .complete ∧ q.page = none then
    some (s.putRequest { q with state := .scheduling })
  else none

/-- `automatic_reprocessing_candidates`. -/
def selectPage (requestId : Uuid) : Option State := do
  let q ← s.requests.find requestId
  if q.state = .scheduling ∧ q.page = none then
    some (s.putRequest { q with page := some (q.nextPage s.crashes) })
  else none

/-- The end of the expansion, with `schedule_reprocessing_events` in the queue. -/
def schedulePage (requestId : Uuid) : Option State := do
  let q ← s.requests.find requestId
  let page ← q.page
  some (s.putRequest (q.expanded page))

/-- An expansion that is rolled back. -/
def abandonPage (requestId : Uuid) : Option State := do
  let q ← s.requests.find requestId
  if q.page.isSome then some (s.putRequest { q with page := none }) else none

end step

inductive Action where
  | tick (seconds : Nat)
  | receive (eventId : Uuid)
  | beginClaim (id : Nat)
  | claim (id : Nat) (eventId : Uuid) (holder : Holder)
  | heartbeat (token : Uuid)
  | releaseJob (token seconds : Nat) (resource dependency : Bool) (code : String)
  | finishFailure (token : Uuid) (quarantine resource : Bool) (code : String)
  | startPublication (token : Uuid)
  | grantPublication (token : Uuid)
  | publish (token facets : Nat)
  | abandonPublication (token : Uuid)
  | beginUpdate
  | writeRules
  | commitUpdate (requestId : Uuid)
  | abandonUpdate
  | claimRequest (requestId : Uuid)
  | selectPage (requestId : Uuid)
  | schedulePage (requestId : Uuid)
  | abandonPage (requestId : Uuid)

/-- The events that the end of an expansion schedules. -/
def State.scheduled (s : State) (requestId : Uuid) : List Uuid :=
  match (s.requests.find requestId).bind Request.page with
  | some page => page.events.map fun position => (ofLex position).2
  | none => []

/-- What an action does to the queue. -/
def queueAction (s : State) : Action → Reprocessing.Action
  | .tick seconds => .tick seconds
  | .receive eventId => .receive eventId
  | .beginClaim id => .beginClaim id
  | .claim id eventId holder => .claim id .processCrash eventId holder
  | .heartbeat token => .heartbeat token
  | .releaseJob token seconds resource dependency code =>
    .releaseJob token seconds resource dependency code
  | .finishFailure token quarantine resource code => .finishFailure token quarantine resource code
  | .publish token _ => .publishCrashResult token
  | .schedulePage requestId => .schedule requestId (s.scheduled requestId)
  | _ => .tick 0

/-- What an action does to the rest. -/
def perform (s : State) : Action → Option State
  | .tick _ | .beginClaim _ | .heartbeat _ | .releaseJob _ _ _ _ _ | .finishFailure _ _ _ _ =>
    some s
  | .receive eventId => receive s eventId
  | .claim _ _ _ => if s.lock = none then some s else none
  | .startPublication token => startPublication s token
  | .grantPublication token => grantPublication s token
  | .publish token facets => publish s token facets
  | .abandonPublication token => abandonPublication s token
  | .beginUpdate => beginUpdate s
  | .writeRules => writeRules s
  | .commitUpdate requestId => commitUpdate s requestId
  | .abandonUpdate => abandonUpdate s
  | .claimRequest requestId => claimRequest s requestId
  | .selectPage requestId => selectPage s requestId
  | .schedulePage requestId => schedulePage s requestId
  | .abandonPage requestId => abandonPage s requestId

def step (s : State) (a : Action) : Option State := do
  let jobs ← Reprocessing.step s.jobs (queueAction s a)
  let s' ← perform s a
  some { s' with jobs := jobs }

/-! ## Rules that reach every event -/

def Published.atLeast (p : Published) (version : Nat) : Prop :=
  version ≤ p.result ∧ version ≤ p.search ∧ ∀ v ∈ p.facets, version ≤ v

/-- Once a request has selected its events and every job has completed, no event that was there
before it has anything of older rules. -/
def State.Reached (s : State) : Prop :=
  ∀ q ∈ s.requests, q.state = .complete →
    (∀ e ∈ s.jobs.events, e.processJob.state = .completed) →
    ∀ c ∈ s.crashes, c.receivedAt ≤ q.selectionBefore → ∀ p ∈ c.current, p.atLeast q.version

/-- No claim has begun to expand the request past the event. -/
def Request.waitsFor (q : Request) (c : Crash) : Prop :=
  q.state = .pending ∧ ∀ cursor ∈ q.cursor, cursor < c.position

instance (q : Request) (c : Crash) : Decidable (q.waitsFor c) :=
  inferInstanceAs (Decidable (_ ∧ ∀ cursor ∈ q.cursor, _))

/-- The first publication of an event under older rules gets the lock while every request of
newer ones still waits for the event. -/
def InTime (s : State) : Action → Prop
  | .grantPublication token => ∀ p ∈ s.publications.find token,
      ∀ a ∈ s.jobs.attempts.find token, ∀ c ∈ s.crashes.find a.eventId, c.current = none →
        ∀ q ∈ s.requests.rows, p.version < q.version → c.receivedAt ≤ q.selectionBefore →
          q.waitsFor c
  | _ => True

instance (s : State) : DecidablePred (InTime s) := fun a => by
  cases a <;> unfold InTime <;> infer_instance

end FaultLane.RulesPublication
