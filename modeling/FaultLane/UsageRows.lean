import FaultLane.JobQueue
import FaultLane.TableTotals
import Mathlib.Data.List.Sort

set_option autoImplicit false

/-!
# Usage of a project

The raw objects of one project's events, its usage ledger, its monthly counters and its
storage counter, under the transactions that accept an event, publish it, expire or delete
its raw object, store a symbol or reconcile the storage. A transaction that fails gives
`none`.
-/
namespace FaultLane.Usage
open KeyedTable JobQueue

def maxBigint : Int := 2 ^ 63 - 1

/-- A value that a `BIGINT` holds. -/
def fits (n : Int) : Prop := -(maxBigint + 1) ≤ n ∧ n ≤ maxBigint

instance (n : Int) : Decidable (fits n) := inferInstanceAs (Decidable (_ ∧ _))

def saturate (n : Int) : Int := max (-(maxBigint + 1)) (min n maxBigint)

/-! ## Policies -/

inductive Outcome where
  | standard
  | courtesy
  | overage
  | sampling
  deriving DecidableEq, Repr

structure UsagePolicy where
  version : Int
  eventLimit : Int
  artifactStorageLimitBytes : Int
  rawRetentionDays : Nat
  courtesyPercent : Int
  spendCapCents : Option Int
  retainAllRaw : Bool
  deriving DecidableEq, Repr

def overageBlockEvents : Int := 100000
def overageBlockCents : Int := 1500
def rawReservoirRate : Nat := 100

def UsagePolicy.courtesyLimit (p : UsagePolicy) : Int :=
  saturate (p.eventLimit + (saturate (p.eventLimit * p.courtesyPercent)).tdiv 100)

def UsagePolicy.overageLimit (p : UsagePolicy) (cap : Int) : Int :=
  saturate (p.eventLimit + saturate (cap.tdiv overageBlockCents * overageBlockEvents))

def UsagePolicy.outcome (p : UsagePolicy) (events : Int) : Outcome :=
  if events ≤ p.eventLimit then .standard
  else if ∃ cap ∈ p.spendCapCents, events ≤ p.overageLimit cap then .overage
  else if events ≤ p.courtesyLimit then .courtesy
  else .sampling

def UsagePolicy.admissionOutcome (p : UsagePolicy) (events : Int) (enforcement : Bool) : Outcome :=
  if enforcement then p.outcome events else .standard

def UsagePolicy.threshold (p : UsagePolicy) (events : Int) (outcome : Outcome) : Option String :=
  let percent := (events * 100).tdiv p.eventLimit
  if outcome = .sampling then some "courtesy_exhausted"
  else if 100 ≤ percent then some "100"
  else if 90 ≤ percent then some "90"
  else if 70 ≤ percent then some "70"
  else none

/-! ## Rows -/

/-- A month of the calendar. -/
abbrev Cycle := Nat

def daySeconds : Nat := 24 * 60 * 60

inductive RawLifecycle where
  | stored
  | orphaned
  | deleting
  | discarded
  deriving DecidableEq, Repr

structure RawObject where
  id : Uuid
  byteSize : Nat
  positive : 0 < byteSize
  lifecycle : RawLifecycle
  deleteAfter : Option Nat
  deriving DecidableEq

/-- `lifecycle_state IN ('stored', 'deleting')`. -/
def RawObject.retained (o : RawObject) : Prop := o.lifecycle = .stored ∨ o.lifecycle = .deleting

instance : DecidablePred RawObject.retained := fun _ => inferInstanceAs (Decidable (_ ∨ _))

def RawObject.retainedBytes (o : RawObject) : Nat := if o.retained then o.byteSize else 0

inductive RetentionClass where
  | pending
  | standard
  | novel
  | representative
  | recent
  | variant
  | reservoir
  | deleting
  | discarded
  | expired
  deriving DecidableEq, Repr

/-- The columns that a publication assigns before it decides on the raw object. -/
structure Grouping where
  issueId : Option Uuid
  releaseId : Option Uuid
  variantFingerprint : Option (List UInt8)
  deriving DecidableEq

structure CrashEvent where
  id : Uuid
  objectId : Uuid
  crashGuid : Option Uuid
  receivedAt : Nat
  cycleStart : Cycle
  policyVersion : Int
  outcome : Outcome
  acceptedEvents : Nat
  retentionClass : RetentionClass
  samplingRate : Nat
  grouping : Grouping
  deriving DecidableEq

/-- The order of `(received_at, id)`. -/
def CrashEvent.before (e f : CrashEvent) : Prop :=
  e.receivedAt < f.receivedAt ∨ (e.receivedAt = f.receivedAt ∧ e.id < f.id)

instance (e f : CrashEvent) : Decidable (e.before f) := inferInstanceAs (Decidable (_ ∨ _))

inductive LedgerKind where
  | acceptedEvent
  | rawStored
  | rawDeleted
  | symbolStored
  deriving DecidableEq, Repr

structure LedgerRow where
  kind : LedgerKind
  sourceId : Uuid
  cycleStart : Cycle
  quantity : Nat
  positive : 0 < quantity
  deriving DecidableEq

/-- `UNIQUE (organization_id, project_id, kind, source_id)`. -/
abbrev LedgerRow.key (r : LedgerRow) : LedgerKind × Uuid := (r.kind, r.sourceId)

structure CycleCounters where
  cycleStart : Cycle
  acceptedEvents : Nat
  acceptedRawBytes : Nat
  acceptedSymbolBytes : Nat
  deletedRawBytes : Nat
  sampledRawEvents : Nat
  estimatedRepresentedEvents : Nat
  deriving DecidableEq, Repr

def CycleCounters.zero (c : Cycle) : CycleCounters := ⟨c, 0, 0, 0, 0, 0, 0⟩

def CycleCounters.add (c d : CycleCounters) : CycleCounters where
  cycleStart := c.cycleStart
  acceptedEvents := c.acceptedEvents + d.acceptedEvents
  acceptedRawBytes := c.acceptedRawBytes + d.acceptedRawBytes
  acceptedSymbolBytes := c.acceptedSymbolBytes + d.acceptedSymbolBytes
  deletedRawBytes := c.deletedRawBytes + d.deletedRawBytes
  sampledRawEvents := c.sampledRawEvents + d.sampledRawEvents
  estimatedRepresentedEvents := c.estimatedRepresentedEvents + d.estimatedRepresentedEvents

def CycleCounters.fits (c : CycleCounters) : Prop :=
  Usage.fits c.acceptedEvents ∧ Usage.fits c.acceptedRawBytes ∧ Usage.fits c.acceptedSymbolBytes ∧
    Usage.fits c.deletedRawBytes ∧ Usage.fits c.sampledRawEvents ∧
    Usage.fits c.estimatedRepresentedEvents

instance (c : CycleCounters) : Decidable c.fits := inferInstanceAs (Decidable (_ ∧ _))

structure StorageCounter where
  retainedRawBytes : Int
  retainedSymbolBytes : Int
  reconciled : Bool
  deriving DecidableEq, Repr

/-- A `delete_raw` job, by the object that its idempotency key names. -/
structure Deletion where
  objectId : Uuid
  eventId : Uuid
  job : Job
  deriving DecidableEq

structure Project where
  policy : UsagePolicy
  events : Table CrashEvent.id
  objects : Table RawObject.id
  ledger : Table LedgerRow.key
  counters : Table CycleCounters.cycleStart
  storage : StorageCounter
  deletions : Table Deletion.objectId

section project
variable (p : Project)

/-! ## Counters -/

/-- A delta on a counter that has not been reconciled does nothing. -/
def Project.applyStorageDelta (raw symbol : Int) : Option Project :=
  let c := p.storage
  if c.reconciled = false then some p
  else if 0 ≤ c.retainedRawBytes + raw ∧ 0 ≤ c.retainedSymbolBytes + symbol ∧
      fits (c.retainedRawBytes + raw) ∧ fits (c.retainedSymbolBytes + symbol) then
    some { p with storage := { c with
      retainedRawBytes := c.retainedRawBytes + raw
      retainedSymbolBytes := c.retainedSymbolBytes + symbol } }
  else none

def Project.cycle (c : Cycle) : CycleCounters := (p.counters.find c).getD (.zero c)

/-- `INSERT INTO usage_cycle_counters … ON CONFLICT DO UPDATE SET … = … + EXCLUDED …`. -/
def Project.addToCycle (d : CycleCounters) : Option Project :=
  let next := (p.cycle d.cycleStart).add d
  if next.fits then
    some { p with
      counters := match p.counters.find d.cycleStart with
        | some _ => p.counters.modify d.cycleStart
            (fun old => { next with cycleStart := old.cycleStart }) fun _ => rfl
        | none => p.counters.insert next }
  else none

def Project.insertLedger (r : LedgerRow) : Option Project :=
  if (p.ledger.find r.key).isSome then none
  else some { p with ledger := p.ledger.insert r }

def Project.setObject (o : RawObject) : Project :=
  { p with objects := p.objects.modify o.id (fun old => { o with id := old.id }) fun _ => rfl }

def Project.setRetentionClass (eventId : Uuid) (c : RetentionClass) : Project :=
  { p with
    events := p.events.modify eventId (fun e => { e with retentionClass := c }) fun _ => rfl }

/-! ## Accepted events -/

structure Admission where
  cycleStart : Cycle
  policyVersion : Int
  outcome : Outcome
  threshold : Option String
  acceptedEvents : Nat
  eventLimit : Int
  courtesyLimit : Int
  usageCounted : Bool
  estimated : Bool
  deriving DecidableEq, Repr

/-- `record_acceptance`, which completes the event and object that `persist_event` inserted. -/
def Project.recordAcceptance (e : CrashEvent) (o : RawObject) (enforcement : Bool) (c : Cycle) :
    Option (Project × Admission) := do
  let next := (p.cycle c).acceptedEvents + 1
  let outcome := p.policy.admissionOutcome next enforcement
  let p ← p.addToCycle { CycleCounters.zero c with
    acceptedEvents := 1, acceptedRawBytes := o.byteSize }
  let p ← p.insertLedger ⟨.acceptedEvent, e.id, c, 1, Nat.one_pos⟩
  let p ← p.insertLedger ⟨.rawStored, o.id, c, o.byteSize, o.positive⟩
  let p ← p.applyStorageDelta o.byteSize 0
  let e := { e with
    cycleStart := c, policyVersion := p.policy.version, outcome := outcome, acceptedEvents := next
    retentionClass := if outcome = .sampling then .pending else .standard
    samplingRate := if outcome = .sampling then rawReservoirRate else 1 }
  let o := { o with deleteAfter := some (e.receivedAt + p.policy.rawRetentionDays * daySeconds) }
  some ({ p with events := p.events.insert e, objects := p.objects.insert o },
    { cycleStart := c
      policyVersion := p.policy.version
      outcome := outcome
      threshold := p.policy.threshold next outcome
      acceptedEvents := next
      eventLimit := p.policy.eventLimit
      courtesyLimit := p.policy.courtesyLimit
      usageCounted := true
      estimated := outcome = .sampling })

/-- A known crash GUID gives no admission of its own. -/
def Project.persistEvent (eventId objectId : Uuid) (crashGuid : Option Uuid) (byteSize : Nat)
    (now : Nat) (enforcement : Bool) (c : Cycle) : Option (Project × Option Admission) :=
  if ∃ guid ∈ crashGuid, p.events.rows.any (·.crashGuid = some guid) then some (p, none)
  else if (p.events.find eventId).isSome ∨ (p.objects.find objectId).isSome ∨
      p.events.rows.any (·.objectId = objectId) then none
  else if h : 0 < byteSize then
    (p.recordAcceptance
      { id := eventId, objectId := objectId, crashGuid := crashGuid, receivedAt := now
        cycleStart := c, policyVersion := 1, outcome := .standard, acceptedEvents := 0
        retentionClass := .pending, samplingRate := 1, grouping := ⟨none, none, none⟩ }
      ⟨objectId, byteSize, h, .stored, none⟩ enforcement c).map fun r => (r.1, some r.2)
  else none

/-! ## Raw retention -/

def Project.enqueueRawDeletion (eventId objectId : Uuid) (c : RetentionClass) (now : Nat) :
    Project :=
  match p.objects.find objectId with
  | none => p
  | some o =>
    if o.lifecycle = .stored then
      let p := (p.setObject { o with lifecycle := .deleting }).setRetentionClass eventId c
      { p with deletions := p.deletions.insert ⟨objectId, eventId, .new 50 now⟩ }
    else p

structure IssueRow where
  eventCount : Nat
  representative : Option Uuid
  deriving DecidableEq, Repr

/-- What `schedule_raw_retention` finds for an event. -/
inductive Retention where
  | unchanged
  | keep (c : RetentionClass)
  | age (event object : Uuid) (newer : Bool)
  deriving DecidableEq, Repr

def Project.storedObject (objectId : Uuid) : Prop :=
  ∃ o ∈ p.objects.find objectId, o.lifecycle = .stored

instance (objectId : Uuid) : Decidable (p.storedObject objectId) :=
  inferInstanceAs (Decidable (∃ _ ∈ _, _))

/-- The three newest events of the issue and release that are kept as recent ones. -/
def Project.recentEvents (e : CrashEvent) : List CrashEvent :=
  ((p.events.rows.filter fun x =>
    x.grouping.issueId = e.grouping.issueId ∧ x.grouping.releaseId = e.grouping.releaseId ∧
      x.retentionClass = .recent ∧ p.storedObject x.objectId).insertionSort
    fun x y => ¬ x.before y).take 3

def Project.variantFirst (e : CrashEvent) : Prop :=
  ¬ ∃ x ∈ p.events.rows, x.grouping.issueId = e.grouping.issueId ∧
    (x.grouping.variantFingerprint = e.grouping.variantFingerprint ∧
      e.grouping.variantFingerprint.isSome) ∧ x.before e

instance (e : CrashEvent) : Decidable (p.variantFirst e) := inferInstanceAs (Decidable (¬ _))

def Project.symbolAndRawBytes (v2 : Bool) (symbolBytes : Nat) : Option Int :=
  if v2 then
    if p.storage.reconciled then
      some (p.storage.retainedRawBytes + p.storage.retainedSymbolBytes)
    else none
  else some ((p.objects.total RawObject.retainedBytes : Nat) + symbolBytes)

def Project.sampleIssueEvent (e : CrashEvent) (issue : Option IssueRow) : Option Retention := do
  let issue ← issue
  if issue.eventCount ≤ 1 then some (.keep .novel)
  else if issue.representative = some e.id then some (.keep .representative)
  else if p.variantFirst e then some (.keep .variant)
  else if (p.recentEvents e).length < 3 then some (.keep .recent)
  else
    let oldest ← (p.recentEvents e).getLast?
    if oldest.before e then some (.age oldest.id oldest.objectId true)
    else some (.age e.id e.objectId false)

/-- The decision of `schedule_raw_retention`. -/
def Project.retention (e : CrashEvent) (enforce v2 : Bool) (symbolBytes : Nat)
    (issue : Option IssueRow) : Option Retention :=
  if ¬ p.storedObject e.objectId ∨ e.retentionClass ≠ .pending then some .unchanged
  else if enforce = false ∨ e.outcome ≠ .sampling then some (.keep .standard)
  else
    match (if p.policy.retainAllRaw then (p.symbolAndRawBytes v2 symbolBytes).map
        fun n => decide (n ≤ p.policy.artifactStorageLimitBytes) else some false) with
    | none => none
    | some true => some (.keep .standard)
    | some false =>
      if e.grouping.issueId.isSome then p.sampleIssueEvent e issue else some (.keep .novel)

/-- The raw object that a publication ages out, when the reservoir does not keep it. -/
def Retention.aged : Retention → Option Uuid
  | .age _ object _ => some object
  | _ => none

def Project.retain (eventId : Uuid) (r : Retention) (reservoir : Bool) (now : Nat) : Project :=
  match r with
  | .unchanged => p
  | .keep c => p.setRetentionClass eventId c
  | .age aged object newer =>
    let p := if reservoir then p.setRetentionClass aged .reservoir
      else p.enqueueRawDeletion aged object .deleting now
    if newer then p.setRetentionClass eventId .recent else p

/-- The grouping of a published event. -/
def Project.group (eventId : Uuid) (g : Grouping) : Project :=
  { p with events := p.events.modify eventId (fun e => { e with grouping := g }) fun _ => rfl }

def Project.scheduleRawRetention (eventId : Uuid) (enforce v2 : Bool) (symbolBytes : Nat)
    (issue : Option IssueRow) (reservoir : Bool) (now : Nat) : Option Project := do
  let e ← p.events.find eventId
  let r ← p.retention e enforce v2 symbolBytes issue
  some (p.retain eventId r reservoir now)

/-! ## Expired events -/

/-- `schedule_expired_raw_legacy` on the rows that it locked. -/
def Project.scheduleExpiredRawLegacy (now : Nat) : List Uuid → Project → Option Project
  | [], p => some p
  | eventId :: rest, p => do
    let e ← p.events.find eventId
    if p.storedObject e.objectId ∧ e.receivedAt + p.policy.rawRetentionDays * daySeconds < now then
      scheduleExpiredRawLegacy now rest (p.enqueueRawDeletion eventId e.objectId .expired now)
    else none

/-- The upsert of a `delete_raw` job, which the completion check of the table refuses for a
job that is done. -/
def Project.queueDeletion (objectId eventId : Uuid) (now : Nat) : Option Project :=
  match p.deletions.find objectId with
  | some d => if d.job.state.terminal then none else some p
  | none => some { p with deletions := p.deletions.insert ⟨objectId, eventId, .new 50 now⟩ }

def Project.due (o : RawObject) (now : Nat) : Prop :=
  o.lifecycle = .stored ∧ (∃ deadline ∈ o.deleteAfter, deadline ≤ now) ∧ p.storage.reconciled

instance (o : RawObject) (now : Nat) : Decidable (p.due o now) := inferInstanceAs (Decidable (_ ∧ _))

/-- `schedule_expired_raw_v2_batch` on the rows that it locked. -/
def Project.scheduleExpiredRawV2 (now : Nat) : List Uuid → Project → Option Project
  | [], p => some p
  | eventId :: rest, p => do
    let e ← p.events.find eventId
    let o ← p.objects.find e.objectId
    if p.due o now then
      let p ← ((p.setObject { o with lifecycle := .deleting }).setRetentionClass eventId
        .expired).queueDeletion o.id eventId now
      scheduleExpiredRawV2 now rest p
    else none

/-! ## Raw deletions -/

/-- The two updates of the restoring branch of `delete_raw`. -/
def Project.restore (eventId : Uuid) : Option Project := do
  let e ← p.events.find eventId
  let o ← p.objects.find e.objectId
  if o.lifecycle = .deleting ∧ e.retentionClass = .deleting then
    some ((p.setObject { o with lifecycle := .stored }).setRetentionClass eventId .standard)
  else none

/-- The ledger row with its counters, `ON CONFLICT DO NOTHING`. -/
def Project.recordDeletion (e : CrashEvent) (o : RawObject) (c : Cycle) : Option Project :=
  let sampled := e.outcome = .sampling ∧ e.retentionClass ≠ .expired
  if (p.ledger.find (.rawDeleted, o.id)).isSome then some p
  else do
    let p ← p.insertLedger ⟨.rawDeleted, o.id, c, o.byteSize, o.positive⟩
    let p ← p.addToCycle { CycleCounters.zero c with
      deletedRawBytes := o.byteSize
      sampledRawEvents := if sampled then 1 else 0
      estimatedRepresentedEvents := if sampled then e.samplingRate else 0 }
    p.applyStorageDelta (-o.byteSize) 0

def Project.recordRawDeleted (e : CrashEvent) (o : RawObject) (c : Cycle) : Option Project := do
  let p ← p.recordDeletion e o c
  let p := if o.lifecycle = .deleting ∨ o.lifecycle = .discarded then
    p.setObject { o with lifecycle := .discarded } else p
  some (p.setRetentionClass e.id (if e.retentionClass = .expired then .expired else .discarded))

/-- The rows of the last transaction of `delete_raw`. -/
def Project.deleteRaw (eventId : Uuid) (c : Cycle) : Option Project := do
  let e ← p.events.find eventId
  let o ← p.objects.find e.objectId
  if o.lifecycle = .deleting then p.recordRawDeleted e o c else some p

/-! ## Symbols and reconciliation -/

def Project.recordSymbolStored (objectId : Uuid) (byteSize : Nat) (c : Cycle) : Option Project :=
  if h : 0 < byteSize then
    if (p.ledger.find (.symbolStored, objectId)).isSome then some p
    else do
      let p ← p.insertLedger ⟨.symbolStored, objectId, c, byteSize, h⟩
      let p ← p.addToCycle { CycleCounters.zero c with acceptedSymbolBytes := byteSize }
      p.applyStorageDelta 0 byteSize
  else none

/-- The bytes of the available symbols are read from the manifests of the releases. -/
def Project.reconcileStorage (symbolBytes : Nat) : Option Project :=
  let raw := p.objects.total RawObject.retainedBytes
  if (∀ o ∈ p.objects.rows, o.deleteAfter.isSome) ∧ fits raw ∧ fits symbolBytes then
    some { p with storage := ⟨raw, symbolBytes, true⟩ }
  else none

end project
end FaultLane.Usage
