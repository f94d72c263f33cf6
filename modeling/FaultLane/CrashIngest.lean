import FaultLane.KeyedTable
import FaultLane.RustText
import Mathlib.Data.Finset.Basic
import Mathlib.Data.List.Sort

set_option autoImplicit false

/-!
# Crash submissions over the object store and the database

The statements that `submit_crash`, its cleanup and the orphan reconciler send, one step
each. A task may die between two steps, a statement may fail before or after it took
effect, and a commit may stay in doubt. Steps of any number of tasks interleave.
-/
namespace FaultLane.CrashIngest
open KeyedTable RustText

abbrev Uuid := Nat

def maxGuidBytes : Nat := 128

/-- `interval '1 hour'`, in seconds. -/
def reconcileAge : Nat := 3600

def reconcileLimit : Nat := 16

structure KeyScope where
  organizationId : Uuid
  projectId : Uuid
  deriving DecidableEq, Repr

/-- The varying parts of `org/{}/project/{}/events/{}/raw.bundle`. -/
structure ObjectKey where
  organizationId : Uuid
  projectId : Uuid
  eventId : Uuid
  deriving DecidableEq, Repr

/-- The order of the key texts, whose identifiers have one width. -/
def ObjectKey.le (k k' : ObjectKey) : Prop :=
  k.organizationId < k'.organizationId ∨ (k.organizationId = k'.organizationId ∧
    (k.projectId < k'.projectId ∨ (k.projectId = k'.projectId ∧ k.eventId ≤ k'.eventId)))

instance : DecidableRel ObjectKey.le := fun _ _ => inferInstanceAs (Decidable (_ ∨ _))

inductive IngestError where
  | notFound
  | invalidRequest
  | requestTooLarge
  | rateLimited (limit remaining : Nat)
  | unavailable
  | commitUncertain
  | internal
  deriving DecidableEq, Repr

inductive Response where
  | accepted (eventId : Uuid) (deduplicated : Bool)
  | refused (error : IngestError)
  deriving DecidableEq, Repr

structure OrphanRow where
  objectKey : ObjectKey
  attempts : Nat
  lastErrorAt : Nat
  createdAt : Nat
  deriving DecidableEq, Repr

structure CrashEvent where
  id : Uuid
  projectId : Uuid
  crashGuid : Option Text
  objectKey : ObjectKey
  deriving DecidableEq, Repr

inductive JobType where
  | processCrash
  deriving DecidableEq, Repr

structure Job where
  eventId : Uuid
  jobType : JobType
  deriving DecidableEq, Repr

/-- The next statement of a deletion: of the object, and of its row or its retry count. -/
inductive Cleanup where
  | deleting
  | clearing
  | recording
  deriving DecidableEq, Repr

/-- Where a submission stands. The transaction's writes are its own until the commit, so
`committing` and `inDoubt` keep the index entry that the insert took. -/
inductive Phase where
  | registering
  | storing
  | inspecting
  | selecting (guid : Option Text)
  | inserting (guid : Option Text)
  | conflicting (guid : Text)
  | committing (guid : Option Text)
  | inDoubt (guid : Option Text)
  | cleaning (next : Cleanup) (response : Response)
  | answered (response : Response)
  | crashed
  deriving DecidableEq, Repr

/-- The object may still become part of an event. -/
def Phase.mayCommit : Phase → Bool
  | .registering | .storing | .inspecting | .selecting _ | .inserting _ | .committing _
  | .inDoubt _ => true
  | .conflicting _ | .cleaning _ _ | .answered _ | .crashed => false

/-- The crash GUID whose index entry an open transaction keeps. -/
def Phase.heldGuid : Phase → Option Text
  | .committing guid | .inDoubt guid => guid
  | _ => none

structure Submission where
  objectKey : ObjectKey
  startedAt : Nat
  phase : Phase
  deriving DecidableEq, Repr

def Submission.holds (t : Submission) (projectId : Uuid) (guid : Text) : Prop :=
  t.objectKey.projectId = projectId ∧ t.phase.heldGuid = some guid

instance (t : Submission) (projectId : Uuid) (guid : Text) :
    Decidable (t.holds projectId guid) := inferInstanceAs (Decidable (_ ∧ _))

def CrashEvent.indexedBy (e : CrashEvent) (projectId : Uuid) (guid : Text) : Prop :=
  e.projectId = projectId ∧ e.crashGuid = some guid

instance (e : CrashEvent) (projectId : Uuid) (guid : Text) :
    Decidable (e.indexedBy projectId guid) := inferInstanceAs (Decidable (_ ∧ _))

structure Reconciler where
  id : Nat
  pending : List ObjectKey
  next : Cleanup
  deriving DecidableEq, Repr

structure State where
  now : Nat
  objects : Finset ObjectKey
  orphans : Table OrphanRow.objectKey
  events : List CrashEvent
  jobs : List Job
  submissions : Table Submission.objectKey
  reconcilers : Table Reconciler.id

def State.init : State := ⟨0, ∅, .empty, [], [], .empty, .empty⟩

/-- Whether a statement succeeded, and else whether it still took effect. -/
inductive Reply where
  | ok
  | failed (applied : Bool)
  deriving DecidableEq, Repr

def Reply.applied : Reply → Bool
  | .ok => true
  | .failed applied => applied

def usableCrashGuid (directory archive : Text) : Option Text :=
  if "UECC-".toList.isPrefixOf directory && byteLength directory ≤ maxGuidBytes &&
      directory.all (fun c => isAsciiAlphanumeric c || c == '-' || c == '_') &&
      archive == directory ++ ".uecrash".toList then
    some directory
  else none

section statements
variable (s : State) (k : ObjectKey)

def State.putObject : State := { s with objects := insert k s.objects }

def State.deleteObject : State := { s with objects := s.objects.erase k }

def State.insertPending : State :=
  { s with orphans := s.orphans.insert ⟨k, 0, s.now, s.now⟩ }

def State.deleteOrphan : State := { s with orphans := s.orphans.delete k }

def State.retryOrphan : State :=
  { s with
    orphans := s.orphans.modify k
      (fun r => { r with attempts := r.attempts + 1, lastErrorAt := s.now }) fun _ => rfl }

/-- The upsert of a failed cleanup. -/
def State.recordOrphan : State :=
  match s.orphans.find k with
  | some _ => s.retryOrphan k
  | none => { s with orphans := s.orphans.insert ⟨k, 1, s.now, s.now⟩ }

def State.findEvent (projectId : Uuid) (guid : Text) : Option CrashEvent :=
  s.events.find? fun e => e.indexedBy projectId guid

/-- What the transaction wrote: the event with its object, the job, and no orphan row. -/
def State.commitEvent (guid : Option Text) : State :=
  { s with
    events := ⟨k.eventId, k.projectId, guid, k⟩ :: s.events
    jobs := ⟨k.eventId, .processCrash⟩ :: s.jobs
    orphans := s.orphans.delete k }

def State.advance (p : Phase) : State :=
  { s with submissions := s.submissions.modify k (fun t => { t with phase := p }) fun _ => rfl }

/-- A statement's effect, when it has one. -/
def State.after (effect : State → State) (applied : Bool) : State :=
  if applied then effect s else s

end statements

/-- The statements of a submission, with how each turns out. -/
inductive RequestStep where
  | registerPendingObject (reply : Reply)
  | storeRequest
  | storeRequestFailed (error : IngestError) (stored : Bool)
  | inspectSpool (manifest : Except IngestError (Text × Text))
  | selectExisting
  | insertEvent
  | readExisting
  | persistFailed (error : IngestError)
  | commit
  | commitUncertain
  | settle (applied : Bool)
  | deleteObject (reply : Reply)
  | clearOrphan (applied : Bool)
  | recordOrphan (applied : Bool)
  | crash

section submission
variable (s : State) (k : ObjectKey)

def registerPendingObject (reply : Reply) : State :=
  (s.after (·.insertPending k) reply.applied).advance k <|
    match reply with
    | .ok => .storing
    | .failed _ => .answered (.refused .unavailable)

def storeRequest : State := (s.putObject k).advance k .inspecting

def storeRequestFailed (error : IngestError) (stored : Bool) : State :=
  (s.after (·.putObject k) stored).advance k (.cleaning .deleting (.refused error))

def inspectSpool (manifest : Except IngestError (Text × Text)) : State :=
  s.advance k <|
    match manifest with
    | .ok (directory, archive) => .selecting (usableCrashGuid directory archive)
    | .error error => .cleaning .deleting (.refused error)

/-- The first query of `persist_event`: a known GUID is answered with its event. -/
def selectExisting (guid : Option Text) : State :=
  s.advance k <|
    match guid.bind (s.findEvent k.projectId) with
    | some e => .cleaning .deleting (.accepted e.id true)
    | none => .inserting guid

/-- The insert waits while another open transaction keeps the index entry, and is rolled
back when a committed event has it. -/
def insertEvent : Option Text → Option State
  | none => some (s.advance k (.committing none))
  | some guid =>
    if (s.findEvent k.projectId guid).isSome then some (s.advance k (.conflicting guid))
    else if s.submissions.rows.any fun t => t.holds k.projectId guid then none
    else some (s.advance k (.committing (some guid)))

/-- The query after a rolled back insert. -/
def readExisting (guid : Text) : State :=
  s.advance k <|
    match s.findEvent k.projectId guid with
    | some e => .cleaning .deleting (.accepted e.id true)
    | none => .cleaning .deleting (.refused .unavailable)

def commit (guid : Option Text) : State :=
  (s.commitEvent k guid).advance k (.answered (.accepted k.eventId false))

/-- A commit whose reply was lost, or whose task died waiting for it, has happened or not. -/
def settle (guid : Option Text) (applied : Bool) : State :=
  (s.after (·.commitEvent k guid) applied).advance k (.answered (.refused .commitUncertain))

def cleanupObject (response : Response) (reply : Reply) : State :=
  (s.after (·.deleteObject k) reply.applied).advance k <|
    match reply with
    | .ok => .cleaning .clearing response
    | .failed _ => .cleaning .recording response

def clearOrphan (response : Response) (applied : Bool) : State :=
  (s.after (·.deleteOrphan k) applied).advance k (.answered response)

def recordOrphan (response : Response) (applied : Bool) : State :=
  (s.after (·.recordOrphan k) applied).advance k (.answered response)

/-- Some statement of `persist_event` before its commit may fail in this phase. -/
def Phase.persisting : Phase → Bool
  | .selecting _ | .inserting _ | .conflicting _ | .committing _ => true
  | _ => false

/-- The task of this phase is running. A commit in doubt no longer depends on it. -/
def Phase.running : Phase → Bool
  | .inDoubt _ | .answered _ | .crashed => false
  | _ => true

def submitCrash (t : Submission) : RequestStep → Option State
  | .registerPendingObject reply =>
    if t.phase = .registering then some (registerPendingObject s t.objectKey reply) else none
  | .storeRequest => if t.phase = .storing then some (storeRequest s t.objectKey) else none
  | .storeRequestFailed error stored =>
    if t.phase = .storing ∧ error ∈ [.invalidRequest, .requestTooLarge, .unavailable] then
      some (storeRequestFailed s t.objectKey error stored)
    else none
  | .inspectSpool manifest =>
    if t.phase = .inspecting then some (inspectSpool s t.objectKey manifest) else none
  | .selectExisting =>
    match t.phase with
    | .selecting guid => some (selectExisting s t.objectKey guid)
    | _ => none
  | .insertEvent =>
    match t.phase with
    | .inserting guid => insertEvent s t.objectKey guid
    | _ => none
  | .readExisting =>
    match t.phase with
    | .conflicting guid => some (readExisting s t.objectKey guid)
    | _ => none
  | .persistFailed error =>
    if t.phase.persisting ∧ error ∈ [.requestTooLarge, .unavailable, .internal] then
      some (s.advance t.objectKey (.cleaning .deleting (.refused error)))
    else none
  | .commit =>
    match t.phase with
    | .committing guid => some (commit s t.objectKey guid)
    | _ => none
  | .commitUncertain =>
    match t.phase with
    | .committing guid => some (s.advance t.objectKey (.inDoubt guid))
    | _ => none
  | .settle applied =>
    match t.phase with
    | .inDoubt guid => some (settle s t.objectKey guid applied)
    | _ => none
  | .deleteObject reply =>
    match t.phase with
    | .cleaning .deleting response => some (cleanupObject s t.objectKey response reply)
    | _ => none
  | .clearOrphan applied =>
    match t.phase with
    | .cleaning .clearing response => some (clearOrphan s t.objectKey response applied)
    | _ => none
  | .recordOrphan applied =>
    match t.phase with
    | .cleaning .recording response => some (recordOrphan s t.objectKey response applied)
    | _ => none
  | .crash => if t.phase.running then some (s.advance t.objectKey .crashed) else none

end submission

section reconciliation
variable (s : State)

def OrphanRow.due (now : Nat) (r : OrphanRow) : Prop :=
  0 < r.attempts ∨ r.createdAt + reconcileAge < now

instance (now : Nat) : DecidablePred (OrphanRow.due now) :=
  fun _ => inferInstanceAs (Decidable (_ ∨ _))

def OrphanRow.le (r r' : OrphanRow) : Prop :=
  r.lastErrorAt < r'.lastErrorAt ∨ (r.lastErrorAt = r'.lastErrorAt ∧ r.objectKey.le r'.objectKey)

instance : DecidableRel OrphanRow.le := fun _ _ => inferInstanceAs (Decidable (_ ∨ _))

/-- The rows that one pass of the reconciler reads. -/
def dueOrphans : List ObjectKey :=
  (((s.orphans.rows.filter (OrphanRow.due s.now)).insertionSort OrphanRow.le).take
    reconcileLimit).map OrphanRow.objectKey

inductive SweepStep where
  | deleteObject (reply : Reply)
  | clearOrphan (applied : Bool)
  | retryOrphan (applied : Bool)
  | crash

def State.resume (id : Nat) (pending : List ObjectKey) (next : Cleanup) : State :=
  { s with
    reconcilers :=
      s.reconcilers.modify id (fun r => { r with pending := pending, next := next }) fun _ => rfl }

def startReconciler (id : Nat) : Option State :=
  if (s.reconcilers.find id).isSome then none
  else some { s with reconcilers := s.reconcilers.insert ⟨id, dueOrphans s, .deleting⟩ }

def reconcileOrphans (r : Reconciler) : SweepStep → Option State
  | .deleteObject reply =>
    match r.next, r.pending with
    | .deleting, key :: rest =>
      some <| (s.after (·.deleteObject key) reply.applied).resume r.id (key :: rest) <|
        match reply with
        | .ok => .clearing
        | .failed _ => .recording
    | _, _ => none
  | .clearOrphan applied =>
    match r.next, r.pending with
    | .clearing, key :: rest =>
      some ((s.after (·.deleteOrphan key) applied).resume r.id rest .deleting)
    | _, _ => none
  | .retryOrphan applied =>
    match r.next, r.pending with
    | .recording, key :: rest =>
      some ((s.after (·.retryOrphan key) applied).resume r.id rest .deleting)
    | _, _ => none
  | .crash => some (s.resume r.id [] .deleting)

end reconciliation

inductive Action where
  | tick (seconds : Nat)
  | submit (scope : KeyScope) (eventId : Uuid)
  | request (key : ObjectKey) (step : RequestStep)
  | reconcile (id : Nat)
  | sweep (id : Nat) (step : SweepStep)

/-- A request that passed its checks draws a random identifier, new to the system. -/
def State.submit (s : State) (scope : KeyScope) (eventId : Uuid) : Option State :=
  if s.submissions.rows.any fun t => t.objectKey.eventId = eventId then none
  else
    some { s with
      submissions := s.submissions.insert
        ⟨⟨scope.organizationId, scope.projectId, eventId⟩, s.now, .registering⟩ }

def step (s : State) : Action → Option State
  | .tick seconds => some { s with now := s.now + seconds }
  | .submit scope eventId => s.submit scope eventId
  | .request key a => (s.submissions.find key).bind (submitCrash s · a)
  | .reconcile id => startReconciler s id
  | .sweep id a => (s.reconcilers.find id).bind (reconcileOrphans s · a)

/-- No submission that may still commit is older than the reconcile age. -/
def Timely (s : State) : Prop :=
  ∀ t ∈ s.submissions.rows, t.phase.mayCommit → s.now ≤ t.startedAt + reconcileAge

instance : DecidablePred Timely := fun s =>
  inferInstanceAs (Decidable (∀ t ∈ s.submissions.rows, _))

end FaultLane.CrashIngest
