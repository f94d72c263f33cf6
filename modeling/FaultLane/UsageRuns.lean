import FaultLane.TransitionSystem
import FaultLane.UsageRows

set_option autoImplicit false

/-!
# Runs over the raw objects of a project

Crashes arrive and are published, schedulers expire them, and workers run the `delete_raw`
jobs, each of which may stop at any point. Every transaction, provider call and read of its
own is one step. Whether a step enforces the usage policy is up to the process that takes it.
-/
namespace FaultLane.Usage
open KeyedTable JobQueue

/-- Where a run of `delete_raw` is. -/
inductive DeletionStep where
  | load
  | restore
  | deleteObject
  | finish
  | done
  deriving DecidableEq, Repr

structure Attempt where
  holder : Holder
  objectId : Uuid
  eventId : Uuid
  step : DeletionStep
  deriving DecidableEq

abbrev Attempt.token (a : Attempt) : Uuid := a.holder.token

/-- The store holds the bytes of the objects in the list. -/
structure State where
  now : Nat
  project : Project
  store : List Uuid
  attempts : Table Attempt.token

def Project.created (policy : UsagePolicy) (reconciled : Bool) : Project :=
  ⟨policy, .empty, .empty, .empty, .empty, ⟨0, 0, reconciled⟩, .empty⟩

/-- A project that is new, or that had no events when the counters were introduced. -/
def State.init (policy : UsagePolicy) (reconciled : Bool) : State :=
  ⟨0, .created policy reconciled, [], .empty⟩

section step
variable (s : State)

def State.putJob (objectId : Uuid) (j : Job) (p : Project) : State :=
  { s with project := { p with
      deletions := p.deletions.modify objectId (fun d => { d with job := j }) fun _ => rfl } }

def State.putAttempt (token : Uuid) (step : DeletionStep) : State :=
  { s with attempts := s.attempts.modify token (fun a => { a with step := step }) fun _ => rfl }

def State.attempt (token : Uuid) : Option (Attempt × Job) := do
  let a ← s.attempts.find token
  let d ← s.project.deletions.find a.objectId
  some (a, d.job)

def accept (eventId objectId : Uuid) (crashGuid : Option Uuid) (byteSize : Nat)
    (enforcement : Bool) (c : Cycle) : Option State := do
  let (p, admission) ← s.project.persistEvent eventId objectId crashGuid byteSize s.now enforcement c
  some { s with project := p, store := if admission.isSome then objectId :: s.store else s.store }

def publish (eventId : Uuid) (g : Grouping) (enforce v2 : Bool) (symbolBytes : Nat)
    (issue : Option IssueRow) (reservoir : Bool) : Option State := do
  let p ← (s.project.group eventId g).scheduleRawRetention eventId enforce v2 symbolBytes issue
    reservoir s.now
  some { s with project := p }

def expireLegacy (eventIds : List Uuid) : Option State := do
  let p ← Project.scheduleExpiredRawLegacy s.now eventIds s.project
  some { s with project := p }

def expireV2 (eventIds : List Uuid) : Option State := do
  let p ← Project.scheduleExpiredRawV2 s.now eventIds s.project
  some { s with project := p }

def claim (objectId : Uuid) (h : Holder) : Option State := do
  let d ← s.project.deletions.find objectId
  let j ← d.job.claim h s.now
  if (s.attempts.find h.token).isSome then none
  else
    some { s.putJob objectId j s.project with
      attempts := s.attempts.insert ⟨h, objectId, d.eventId, .load⟩ }

def heartbeat (token : Uuid) : Option State := do
  let (a, j) ← s.attempt token
  let j ← j.heartbeat a.holder s.now
  some (s.putJob a.objectId j s.project)

def releaseJob (token seconds : Nat) (resource dependency : Bool) (code : String) :
    Option State := do
  let (a, j) ← s.attempt token
  let j ← j.release a.holder s.now seconds resource dependency code
  some ((s.putJob a.objectId j s.project).putAttempt token .done)

def finishFailure (token : Uuid) (quarantine resource : Bool) (code : String) : Option State := do
  let (a, j) ← s.attempt token
  let j ← j.lockLease a.holder s.now
  let j ← j.terminalJob a.holder quarantine resource code
  some ((s.putJob a.objectId j s.project).putAttempt token .done)

/-- The select of `delete_raw` and the branch that it takes. -/
def loadRaw (token : Uuid) (enforcement : Bool) : Option State := do
  let a ← s.attempts.find token
  let e ← s.project.events.find a.eventId
  let o ← s.project.objects.find e.objectId
  if a.step = .load then
    some (s.putAttempt token
      (if o.lifecycle = .deleting then
        if e.retentionClass ≠ .expired ∧ enforcement = false then .restore else .deleteObject
      else .finish))
  else none

/-- The restoring transaction, which rolls back when it finds no row. -/
def restoreRaw (token : Uuid) : Option State := do
  let (a, j) ← s.attempt token
  let j ← j.lockLease a.holder s.now
  if a.step = .restore then
    match s.project.restore a.eventId with
    | some p => do
      let j ← j.completeJob a.holder none
      some ((s.putJob a.objectId j p).putAttempt token .done)
    | none => some (s.putAttempt token .deleteObject)
  else none

/-- `delete_object_checked`, on the object of the event. -/
def deleteObject (token : Uuid) : Option State := do
  let a ← s.attempts.find token
  let e ← s.project.events.find a.eventId
  if a.step = .deleteObject then
    some ({ s with store := s.store.filter (· ≠ e.objectId) }.putAttempt token .finish)
  else none

def finishRaw (token : Uuid) (c : Cycle) : Option State := do
  let (a, j) ← s.attempt token
  let j ← j.lockLease a.holder s.now
  if a.step = .finish then do
    let p ← s.project.deleteRaw a.eventId c
    let j ← j.completeJob a.holder none
    some ((s.putJob a.objectId j p).putAttempt token .done)
  else none

def storeSymbol (objectId : Uuid) (byteSize : Nat) (c : Cycle) : Option State := do
  let p ← s.project.recordSymbolStored objectId byteSize c
  some { s with project := p }

def reconcile (symbolBytes : Nat) : Option State := do
  let p ← s.project.reconcileStorage symbolBytes
  some { s with project := p }

end step

inductive Action where
  | tick (seconds : Nat)
  | setPolicy (policy : UsagePolicy)
  | accept (eventId objectId : Uuid) (crashGuid : Option Uuid) (byteSize : Nat)
      (enforcement : Bool) (cycle : Cycle)
  | publish (eventId : Uuid) (grouping : Grouping) (enforce v2 : Bool) (symbolBytes : Nat)
      (issue : Option IssueRow) (reservoir : Bool)
  | expireLegacy (eventIds : List Uuid)
  | expireV2 (eventIds : List Uuid)
  | claim (objectId : Uuid) (holder : Holder)
  | heartbeat (token : Uuid)
  | releaseJob (token seconds : Nat) (resource dependency : Bool) (code : String)
  | finishFailure (token : Uuid) (quarantine resource : Bool) (code : String)
  | loadRaw (token : Uuid) (enforcement : Bool)
  | restoreRaw (token : Uuid)
  | deleteObject (token : Uuid)
  | finishRaw (token : Uuid) (cycle : Cycle)
  | storeSymbol (objectId : Uuid) (byteSize : Nat) (cycle : Cycle)
  | reconcile (symbolBytes : Nat)

def step (s : State) : Action → Option State
  | .tick seconds => some { s with now := s.now + seconds }
  | .setPolicy policy => some { s with project := { s.project with policy := policy } }
  | .accept eventId objectId crashGuid byteSize enforcement cycle =>
    accept s eventId objectId crashGuid byteSize enforcement cycle
  | .publish eventId grouping enforce v2 symbolBytes issue reservoir =>
    publish s eventId grouping enforce v2 symbolBytes issue reservoir
  | .expireLegacy eventIds => expireLegacy s eventIds
  | .expireV2 eventIds => expireV2 s eventIds
  | .claim objectId holder => claim s objectId holder
  | .heartbeat token => heartbeat s token
  | .releaseJob token seconds resource dependency code =>
    releaseJob s token seconds resource dependency code
  | .finishFailure token quarantine resource code => finishFailure s token quarantine resource code
  | .loadRaw token enforcement => loadRaw s token enforcement
  | .restoreRaw token => restoreRaw s token
  | .deleteObject token => deleteObject s token
  | .finishRaw token cycle => finishRaw s token cycle
  | .storeSymbol objectId byteSize cycle => storeSymbol s objectId byteSize cycle
  | .reconcile symbolBytes => reconcile s symbolBytes

end FaultLane.Usage
