import FaultLane.TransitionSystem
import FaultLane.UsageRows

set_option autoImplicit false

/-!
# Admission of events

The transactions that accept events of one project, change its policy and count its symbols,
statement by statement. What a transaction has written becomes visible with its commit, its
locks follow from how far it has come, and a statement that has to wait for a lock is not yet
executed. The raw objects and the ledger of an acceptance are the rows of `UsageRows`.
-/
namespace FaultLane.UsageAdmission
open KeyedTable JobQueue Usage

/-! ## Rows -/

/-- A row of `project_usage_policies` or of `project_usage_policy_versions`. -/
structure PolicyRow extends UsagePolicy where
  projectLimit : Int
  normalizedRetentionLimitDays : Int
  rawRetentionLimitDays : Int
  normalizedRetentionDays : Int
  deriving DecidableEq, Repr

abbrev PolicyRow.key (p : PolicyRow) : Int := p.version

structure UpdateUsageSettings where
  spendCapCents : Option Int
  retainAllRaw : Bool
  normalizedRetentionDays : Int
  rawRetentionDays : Int
  deriving DecidableEq, Repr

/-- The checks of `update_usage`, before and after it has locked the policy. -/
def UpdateUsageSettings.accepted (body : UpdateUsageSettings) (p : PolicyRow)
    (retained : Int) : Prop :=
  (∀ cap ∈ body.spendCapCents, overageBlockCents ≤ cap ∧ cap ≤ 10000000) ∧
    (1 ≤ body.normalizedRetentionDays ∧ body.normalizedRetentionDays ≤ 3650) ∧
    (1 ≤ body.rawRetentionDays ∧ body.rawRetentionDays ≤ 3650) ∧
    body.normalizedRetentionDays ≤ p.normalizedRetentionLimitDays ∧
    body.rawRetentionDays ≤ p.rawRetentionLimitDays ∧
    (body.retainAllRaw = true → retained < p.artifactStorageLimitBytes)

instance (body : UpdateUsageSettings) (p : PolicyRow) (retained : Int) :
    Decidable (body.accepted p retained) :=
  inferInstanceAs (Decidable (_ ∧ _ ∧ _ ∧ _ ∧ _ ∧ _))

def UpdateUsageSettings.changes (body : UpdateUsageSettings) (p : PolicyRow) : Prop :=
  p.spendCapCents ≠ body.spendCapCents ∨ p.retainAllRaw ≠ body.retainAllRaw ∨
    p.normalizedRetentionDays ≠ body.normalizedRetentionDays ∨
    (p.rawRetentionDays : Int) ≠ body.rawRetentionDays

instance (body : UpdateUsageSettings) (p : PolicyRow) : Decidable (body.changes p) :=
  inferInstanceAs (Decidable (_ ∨ _ ∨ _ ∨ _))

/-- The row after `UPDATE project_usage_policies SET version = version + 1`. -/
def PolicyRow.updated (p : PolicyRow) (body : UpdateUsageSettings) : PolicyRow :=
  { p with
    version := p.version + 1
    spendCapCents := body.spendCapCents
    retainAllRaw := body.retainAllRaw
    normalizedRetentionDays := body.normalizedRetentionDays
    rawRetentionDays := body.rawRetentionDays.toNat }

/-- The columns of `crash_events` that an acceptance assigns. -/
structure EventRow where
  id : Uuid
  crashGuid : Option Uuid
  usageCycleStart : Cycle
  usagePolicyVersion : Int
  usageOutcome : Outcome
  usageEstimated : Bool
  usageAcceptedEvents : Nat
  deriving DecidableEq, Repr

/-- A crash that `persist_event` is called with. -/
structure Submission where
  eventId : Uuid
  crashGuid : Option Uuid
  rawBytes : Nat
  deriving DecidableEq, Repr

/-- What `accepted_response` reports for an event. -/
structure AcceptedCrash where
  eventId : Uuid
  crashGuid : Option Uuid
  duplicate : Bool
  usage : Admission
  deriving DecidableEq, Repr

/-! ## Admissions -/

/-- The columns that `record_acceptance` sets for the event with a number. -/
def recordAcceptance (sub : Submission) (p : PolicyRow) (c : Cycle) (next : Nat)
    (enforcement : Bool) : EventRow where
  id := sub.eventId
  crashGuid := sub.crashGuid
  usageCycleStart := c
  usagePolicyVersion := p.version
  usageOutcome := p.admissionOutcome next enforcement
  usageEstimated := p.admissionOutcome next enforcement = .sampling
  usageAcceptedEvents := next

/-- The admission that `record_acceptance` returns. -/
def acceptance (p : PolicyRow) (c : Cycle) (next : Nat) (enforcement : Bool) : Admission where
  cycleStart := c
  policyVersion := p.version
  outcome := p.admissionOutcome next enforcement
  threshold := p.threshold next (p.admissionOutcome next enforcement)
  acceptedEvents := next
  eventLimit := p.eventLimit
  courtesyLimit := p.courtesyLimit
  usageCounted := true
  estimated := p.admissionOutcome next enforcement = .sampling

/-- The policy that `admission_for_event` rebuilds from a version row. -/
def PolicyRow.forAdmission (p : PolicyRow) (version : Int) : UsagePolicy where
  version := version
  eventLimit := p.eventLimit
  artifactStorageLimitBytes := 1
  rawRetentionDays := 1
  courtesyPercent := p.courtesyPercent
  spendCapCents := p.spendCapCents
  retainAllRaw := false

def admissionForEvent (e : EventRow) (p : PolicyRow) (counted : Bool) : Admission :=
  let policy := p.forAdmission e.usagePolicyVersion
  { cycleStart := e.usageCycleStart
    policyVersion := policy.version
    outcome := e.usageOutcome
    threshold := policy.threshold e.usageAcceptedEvents e.usageOutcome
    acceptedEvents := e.usageAcceptedEvents
    eventLimit := policy.eventLimit
    courtesyLimit := policy.courtesyLimit
    usageCounted := counted
    estimated := e.usageEstimated }

/-! ## Transactions -/

/-- What a transaction calls `lock_policy` for. -/
inductive Purpose where
  | ensureSnapshot (sub : Submission)
  | recordAcceptance (sub : Submission)
  | updateUsage (body : UpdateUsageSettings)
  deriving DecidableEq, Repr

/-- The counters of a month that `record_symbol_stored` or a raw deletion adds to. -/
structure CounterDelta where
  acceptedSymbolBytes : Nat
  deletedRawBytes : Nat
  sampledRawEvents : Nat
  estimatedRepresentedEvents : Nat
  deriving DecidableEq, Repr

def CounterDelta.counters (d : CounterDelta) (c : Cycle) : CycleCounters :=
  ⟨c, 0, 0, d.acceptedSymbolBytes, d.deletedRawBytes, d.sampledRawEvents,
    d.estimatedRepresentedEvents⟩

/-- How far a transaction has come, with what it has read. -/
inductive Stage where
  | begun (sub : Submission)
  | conflicting (crashGuid : Uuid)
  | replaying (crashGuid eventId : Uuid)
  | locking (purpose : Purpose)
  | snapshot (purpose : Purpose)
  | locked (purpose : Purpose) (policy : PolicyRow)
  | counting (sub : Submission) (policy : PolicyRow) (cycle : Cycle) (created : Bool)
  | counted (sub : Submission) (policy : PolicyRow) (cycle : Cycle) (accepted : Nat)
  | updated (policy : PolicyRow)
  | versioned (policy : PolicyRow)
  | adding (cycle : Cycle) (delta : CounterDelta)
  deriving DecidableEq, Repr

/-- The policy row is locked, by `FOR UPDATE` or by the update of it. -/
def Stage.holdsPolicy : Stage → Bool
  | .locked _ _ | .counting _ _ _ _ | .counted _ _ _ _ | .updated _ | .versioned _ => true
  | .locking (.recordAcceptance _) | .snapshot (.recordAcceptance _) => true
  | _ => false

/-- The month whose counters are locked. -/
def Stage.cycle : Stage → Option Cycle
  | .counting _ _ c true | .counted _ _ c _ | .adding c _ => some c
  | _ => none

/-- The submission whose event is inserted. -/
def Stage.inserted : Stage → Option Submission
  | .locking (.recordAcceptance sub) | .snapshot (.recordAcceptance sub)
  | .locked (.recordAcceptance sub) _ | .counting sub _ _ _ | .counted sub _ _ _ => some sub
  | _ => none

/-- A transaction with the rows that it has inserted into `project_usage_policy_versions`. -/
structure Transaction where
  id : Uuid
  snapshots : List PolicyRow
  stage : Stage
  deriving DecidableEq, Repr

structure State where
  policy : PolicyRow
  versions : Table PolicyRow.key
  counters : Table CycleCounters.cycleStart
  events : Table EventRow.id
  transactions : Table Transaction.id
  /-- The answers given so far, the newest first. -/
  answers : List AcceptedCrash

/-- A project that `projects_initialize_usage_policy` has given its policy. -/
def State.created (policy : PolicyRow) : State where
  policy := policy
  versions := Table.empty.insert policy
  counters := .empty
  events := .empty
  transactions := .empty
  answers := []

section state
variable (s : State)

def State.start (t : Uuid) (stage : Stage) : Option State :=
  if (s.transactions.find t).isSome then none
  else some { s with transactions := s.transactions.insert ⟨t, [], stage⟩ }

def State.put (t : Uuid) (snapshots : List PolicyRow) (stage : Stage) : State :=
  { s with
    transactions := s.transactions.modify t
      (fun x => { x with snapshots := snapshots, stage := stage }) fun _ => rfl }

def State.finish (t : Uuid) : State := { s with transactions := s.transactions.delete t }

/-- The version rows of a transaction become visible with its commit. -/
def State.commit (x : Transaction) : State :=
  { s.finish x.id with versions := x.snapshots.foldl (fun t r => t.insert r) s.versions }

def State.policyLocked (t : Uuid) : Prop :=
  ∃ x ∈ s.transactions.rows, x.id ≠ t ∧ x.stage.holdsPolicy = true

def State.versionLocked (t : Uuid) (version : Int) : Prop :=
  ∃ x ∈ s.transactions.rows, x.id ≠ t ∧ ∃ r ∈ x.snapshots, r.version = version

def State.cycleLocked (t : Uuid) (c : Cycle) : Prop :=
  ∃ x ∈ s.transactions.rows, x.id ≠ t ∧ x.stage.cycle = some c

def State.eventLocked (t : Uuid) (sub : Submission) : Prop :=
  ∃ x ∈ s.transactions.rows, x.id ≠ t ∧ ∃ other ∈ x.stage.inserted,
    other.eventId = sub.eventId ∨ (other.crashGuid = sub.crashGuid ∧ sub.crashGuid.isSome)

instance (t : Uuid) : Decidable (s.policyLocked t) := inferInstanceAs (Decidable (∃ x ∈ _, _))

instance (t : Uuid) (version : Int) : Decidable (s.versionLocked t version) :=
  inferInstanceAs (Decidable (∃ x ∈ _, _ ∧ ∃ r ∈ _, _))

instance (t : Uuid) (c : Cycle) : Decidable (s.cycleLocked t c) :=
  inferInstanceAs (Decidable (∃ x ∈ _, _))

instance (t : Uuid) (sub : Submission) : Decidable (s.eventLocked t sub) :=
  inferInstanceAs (Decidable (∃ x ∈ _, _ ∧ ∃ other ∈ _, _))

def State.eventWith (crashGuid : Option Uuid) : Option EventRow :=
  match crashGuid with
  | none => none
  | some guid => s.events.rows.find? fun e => e.crashGuid = some guid

def State.cycle (c : Cycle) : CycleCounters := (s.counters.find c).getD (.zero c)

/-- An update of the counters of a month, which the transaction holds. -/
def State.addToCycle (d : CycleCounters) : Option State :=
  let next := (s.cycle d.cycleStart).add d
  if next.fits then
    some { s with
      counters := match s.counters.find d.cycleStart with
        | some _ => s.counters.modify d.cycleStart
            (fun old => { next with cycleStart := old.cycleStart }) fun _ => rfl
        | none => s.counters.insert next }
  else none

end state

/-! ## Statements -/

section statements
variable (s : State) (x : Transaction)

/-- The duplicate check of `persist_event`. -/
def findDuplicate : Option State :=
  match x.stage with
  | .begun sub =>
    match sub.crashGuid, s.eventWith sub.crashGuid with
    | some guid, some e => some (s.put x.id x.snapshots (.replaying guid e.id))
    | _, _ => some (s.put x.id x.snapshots (.locking (.ensureSnapshot sub)))
  | .conflicting guid =>
    (s.eventWith (some guid)).map fun e => s.put x.id x.snapshots (.replaying guid e.id)
  | _ => none

/-- `admission_for_event`, and the answer for a known crash. -/
def replay : Option State :=
  match x.stage with
  | .replaying guid eventId => do
    let e ← s.events.find eventId
    let p ← s.versions.find e.usagePolicyVersion
    some { s.finish x.id with
      answers := ⟨e.id, some guid, true, admissionForEvent e p false⟩ :: s.answers }
  | _ => none

/-- `INSERT INTO project_usage_policy_versions … ON CONFLICT DO NOTHING`, which waits for the
transactions on a version that is not yet committed. -/
def State.insertVersion (policy : PolicyRow) (stage : Stage) : Option State :=
  if (s.versions.find policy.version).isSome ∨ ∃ r ∈ x.snapshots, r.version = policy.version then
    some (s.put x.id x.snapshots stage)
  else if s.versionLocked x.id policy.version then none
  else some (s.put x.id (policy :: x.snapshots) stage)

/-- A policy is read without a lock, as committed or as the transaction has updated it. -/
def insertCurrentPolicyVersion : Option State :=
  match x.stage with
  | .locking purpose => s.insertVersion x s.policy (.snapshot purpose)
  | .updated policy => s.insertVersion x policy (.versioned policy)
  | _ => none

/-- The `SELECT … FOR UPDATE` of `lock_policy`. -/
def lockPolicy : Option State :=
  match x.stage with
  | .snapshot purpose =>
    if s.policyLocked x.id then none
    else some (s.put x.id x.snapshots (.locked purpose s.policy))
  | _ => none

/-- `INSERT INTO crash_events … ON CONFLICT DO NOTHING`, with the rollback on a conflict. -/
def insertEvent : Option State :=
  match x.stage with
  | .locked (.ensureSnapshot sub) _ =>
    if s.eventLocked x.id sub then none
    else
      match sub.crashGuid, s.eventWith sub.crashGuid with
      | some guid, some _ => some (s.put x.id [] (.conflicting guid))
      | _, _ =>
        if (s.events.find sub.eventId).isSome then none
        else some (s.put x.id x.snapshots (.locking (.recordAcceptance sub)))
  | _ => none

/-- `INSERT INTO usage_cycle_counters … ON CONFLICT DO NOTHING` for the month of the clock. -/
def insertCounters (c : Cycle) : Option State :=
  match x.stage with
  | .locked (.recordAcceptance sub) policy =>
    if (s.counters.find c).isSome then some (s.put x.id x.snapshots (.counting sub policy c false))
    else if s.cycleLocked x.id c then none
    else some (s.put x.id x.snapshots (.counting sub policy c true))
  | _ => none

/-- `SELECT accepted_events … FOR UPDATE`. -/
def lockCounters : Option State :=
  match x.stage with
  | .counting sub policy c _ =>
    if s.cycleLocked x.id c then none
    else some (s.put x.id x.snapshots (.counted sub policy c (s.cycle c).acceptedEvents))
  | _ => none

/-- The rest of `record_acceptance`, which writes to rows that the transaction holds, and the
commit. -/
def commitAcceptance (enforcement : Bool) : Option State :=
  match x.stage with
  | .counted sub policy c accepted =>
    let next := accepted + 1
    ((s.commit x).addToCycle { CycleCounters.zero c with
      acceptedEvents := 1, acceptedRawBytes := sub.rawBytes }).map fun s =>
        { s with
          events := s.events.insert (recordAcceptance sub policy c next enforcement)
          answers := ⟨sub.eventId, sub.crashGuid, false, acceptance policy c next enforcement⟩ ::
            s.answers }
  | _ => none

/-- `update_usage` with the lock on the policy, which commits at once when nothing changes. -/
def updatePolicy (retained : Int) : Option State :=
  match x.stage with
  | .locked (.updateUsage body) policy =>
    if ¬ body.accepted policy retained then none
    else if ¬ body.changes policy then some (s.commit x)
    else if s.policy.version = policy.version ∧ fits (policy.version + 1) then
      some (s.put x.id x.snapshots (.updated (s.policy.updated body)))
    else none
  | _ => none

def commitPolicy : Option State :=
  match x.stage with
  | .versioned policy => some { s.commit x with policy := policy }
  | _ => none

def commitCounters : Option State :=
  match x.stage with
  | .adding c delta => (s.commit x).addToCycle (delta.counters c)
  | _ => none

end statements

inductive Action where
  | persistEvent (t : Uuid) (sub : Submission)
  | updateUsage (t : Uuid) (body : UpdateUsageSettings)
  | addToCounters (t : Uuid) (c : Cycle) (delta : CounterDelta)
  | findDuplicate (t : Uuid)
  | replay (t : Uuid)
  | insertCurrentPolicyVersion (t : Uuid)
  | lockPolicy (t : Uuid)
  | insertEvent (t : Uuid)
  | insertCounters (t : Uuid) (c : Cycle)
  | lockCounters (t : Uuid)
  | commitAcceptance (t : Uuid)
  | updatePolicy (t : Uuid) (retained : Int)
  | commitPolicy (t : Uuid)
  | commitCounters (t : Uuid)
  | rollback (t : Uuid)
  deriving DecidableEq, Repr

/-- A step with the enforcement setting of the server. -/
def step (enforcement : Bool) (s : State) : Action → Option State
  | .persistEvent t sub => s.start t (.begun sub)
  | .updateUsage t body => s.start t (.locking (.updateUsage body))
  | .addToCounters t c delta =>
    if s.cycleLocked t c then none else s.start t (.adding c delta)
  | .findDuplicate t => (s.transactions.find t).bind (findDuplicate s)
  | .replay t => (s.transactions.find t).bind (replay s)
  | .insertCurrentPolicyVersion t => (s.transactions.find t).bind (insertCurrentPolicyVersion s)
  | .lockPolicy t => (s.transactions.find t).bind (lockPolicy s)
  | .insertEvent t => (s.transactions.find t).bind (insertEvent s)
  | .insertCounters t c => (s.transactions.find t).bind (insertCounters s · c)
  | .lockCounters t => (s.transactions.find t).bind (lockCounters s)
  | .commitAcceptance t => (s.transactions.find t).bind (commitAcceptance s · enforcement)
  | .updatePolicy t retained => (s.transactions.find t).bind (updatePolicy s · retained)
  | .commitPolicy t => (s.transactions.find t).bind (commitPolicy s)
  | .commitCounters t => (s.transactions.find t).bind (commitCounters s)
  | .rollback t => some (s.finish t)

end FaultLane.UsageAdmission
