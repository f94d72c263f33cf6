import FaultLane.Grouping
import FaultLane.JobQueue
import FaultLane.TransitionSystem
import FaultLane.KeyedTable
import Mathlib.Data.Prod.Lex
import Mathlib.Order.WithBot
import Mathlib.Data.List.Sort

set_option autoImplicit false

/-!
# Issues and their rollups

The events of one project, the issues that they are grouped into, and the counts of each issue,
of its variants and of its releases, as a publication keeps them and as a repair computes them
from the events. The rows of variants and releases are partial functions of their keys. A
statement that fails gives `none`.
-/
namespace FaultLane.Issues
open KeyedTable JobQueue Grouping

/-! ## Rows -/

/-- `release_mapping_state`, with the release that only a matched one has. -/
inductive ReleaseMapping where
  | pending
  | matched (releaseId : Uuid)
  | missing
  | ambiguous
  deriving DecidableEq, Repr

def ReleaseMapping.release : ReleaseMapping → Option Uuid
  | .matched releaseId => some releaseId
  | .pending | .missing | .ambiguous => none

/-- `ReleaseResolution::state`. -/
def ReleaseMapping.of : List Uuid → ReleaseMapping
  | [] => .missing
  | [releaseId] => .matched releaseId
  | _ :: _ :: _ => .ambiguous

/-- `grouping_state`, with the columns that only a grouped event has. -/
inductive GroupingState where
  | pending
  | disabled
  | insufficient
  | grouped (issueId : Uuid) (fingerprint variantFingerprint : String) (groupingQuality : Nat)
  deriving DecidableEq, Repr

structure CrashEvent where
  id : Uuid
  receivedAt : Nat
  mapping : ReleaseMapping
  grouping : GroupingState
  deriving DecidableEq, Repr

def CrashEvent.issue (e : CrashEvent) : Option Uuid :=
  match e.grouping with
  | .grouped issueId _ _ _ => some issueId
  | .pending | .disabled | .insufficient => none

def CrashEvent.variant (e : CrashEvent) : Option String :=
  match e.grouping with
  | .grouped _ _ variantFingerprint _ => some variantFingerprint
  | .pending | .disabled | .insufficient => none

def CrashEvent.quality (e : CrashEvent) : Option Nat :=
  match e.grouping with
  | .grouped _ _ _ groupingQuality => some groupingQuality
  | .pending | .disabled | .insufficient => none

structure Rollup where
  firstSeenAt : Nat
  lastSeenAt : Nat
  eventCount : Nat
  representative : Uuid
  deriving DecidableEq, Repr

structure Issue where
  id : Uuid
  fingerprint : String
  title : String
  firstSeenAt : Nat
  lastSeenAt : Nat
  eventCount : Nat
  representative : Option Uuid
  deriving DecidableEq, Repr

def Issue.rollup (i : Issue) : Option Rollup :=
  i.representative.map fun representative =>
    ⟨i.firstSeenAt, i.lastSeenAt, i.eventCount, representative⟩

structure State where
  events : Table CrashEvent.id
  issues : Table Issue.id
  variants : Uuid → String → Option Rollup
  releases : Uuid → Uuid → Option Rollup

def State.init : State := ⟨.empty, .empty, fun _ _ => none, fun _ _ => none⟩

/-! ## Aggregates -/

/-- `ORDER BY grouping_quality DESC, received_at, id`. A missing quality comes first. -/
abbrev Rank := (WithTop Nat)ᵒᵈ ×ₗ Nat ×ₗ Nat

def CrashEvent.rank (e : CrashEvent) : Rank :=
  toLex (OrderDual.toDual (e.quality.elim ⊤ fun q => WithTop.some q), toLex (e.receivedAt, e.id))

/-- The first row of a select in that order. -/
def bestOf (l : List CrashEvent) : Option Uuid :=
  (l.insertionSort fun a b => a.rank ≤ b.rank).head?.map CrashEvent.id

/-- `min(received_at)`, `max(received_at)`, `count(*)` and the first of `array_agg(id)` over
the rows of a group, which has at least one. -/
def recount (l : List CrashEvent) : Option Rollup := do
  let first ← (l.map CrashEvent.receivedAt).min?
  let last ← (l.map CrashEvent.receivedAt).max?
  let best ← bestOf l
  some ⟨first, last, l.length, best⟩

section state
variable (s : State)

def InIssue (issueId : Uuid) (e : CrashEvent) : Prop := e.issue = some issueId

def InVariant (issueId : Uuid) (variant : String) (e : CrashEvent) : Prop :=
  e.issue = some issueId ∧ e.variant = some variant

def InRelease (issueId releaseId : Uuid) (e : CrashEvent) : Prop :=
  e.issue = some issueId ∧ e.mapping.release = some releaseId

instance (issueId : Uuid) : DecidablePred (InIssue issueId) :=
  fun _ => inferInstanceAs (Decidable (_ = _))

instance (issueId : Uuid) (variant : String) : DecidablePred (InVariant issueId variant) :=
  fun _ => inferInstanceAs (Decidable (_ ∧ _))

instance (issueId releaseId : Uuid) : DecidablePred (InRelease issueId releaseId) :=
  fun _ => inferInstanceAs (Decidable (_ ∧ _))

/-- `WHERE` over the events. -/
def State.select (p : CrashEvent → Prop) [DecidablePred p] : List CrashEvent :=
  s.events.rows.filter fun e => p e

def State.setEvent (e : CrashEvent) : State :=
  { s with events := s.events.modify e.id (fun old => { e with id := old.id }) fun _ => rfl }

def State.setVariant (issueId : Uuid) (variant : String) (r : Option Rollup) : State :=
  { s with
    variants := fun i v => if i = issueId ∧ v = variant then r else s.variants i v }

def State.setRelease (issueId releaseId : Uuid) (r : Option Rollup) : State :=
  { s with
    releases := fun i v => if i = issueId ∧ v = releaseId then r else s.releases i v }

def State.setIssueRollup (issueId : Uuid) (r : Rollup) : State :=
  { s with
    issues := s.issues.modify issueId (fun i =>
      { i with
        firstSeenAt := r.firstSeenAt, lastSeenAt := r.lastSeenAt, eventCount := r.eventCount
        representative := some r.representative }) fun _ => rfl }

/-- `INSERT … VALUES (received_at, received_at, 1, id) ON CONFLICT DO UPDATE SET …`, into a
variant or a release. -/
def State.upsert (e : CrashEvent) : Option Rollup → Option Rollup
  | none => some ⟨e.receivedAt, e.receivedAt, 1, e.id⟩
  | some r => do
    let best ← bestOf (s.select fun m => m.id = r.representative ∨ m.id = e.id)
    some ⟨min r.firstSeenAt e.receivedAt, max r.lastSeenAt e.receivedAt, r.eventCount + 1, best⟩

/-! ## Grouping -/

/-- The comparison of `assign_issue`, true where it is null. -/
def CrashEvent.replaces (e representative : CrashEvent) : Bool :=
  match e.quality, representative.quality with
  | some q, some q' =>
    q' < q ∨ (q = q' ∧ (e.receivedAt < representative.receivedAt ∨
      (e.receivedAt = representative.receivedAt ∧ e.id < representative.id)))
  | _, _ => true

/-- `representative_event_id IS NULL OR COALESCE((SELECT …), true)`. -/
def State.takesOver (e : CrashEvent) (i : Issue) : Bool :=
  match i.representative.bind s.events.find with
  | some representative => e.replaces representative
  | none => true

/-- The update of an issue that was there before. -/
def State.addToIssue (issueId : Uuid) (e : CrashEvent) : Option State := do
  let i ← s.issues.find issueId
  let representative := if s.takesOver e i then some e.id else i.representative
  some { s with
    issues := s.issues.modify issueId (fun i =>
      { i with
        firstSeenAt := min i.firstSeenAt e.receivedAt
        lastSeenAt := max i.lastSeenAt e.receivedAt
        eventCount := i.eventCount + 1
        representative := representative }) fun _ => rfl }

structure GroupingAssignment where
  issueId : Uuid
  firstAssignment : Bool
  previousReleaseId : Option Uuid
  receivedAt : Nat
  deriving DecidableEq, Repr

inductive GroupingPublication where
  | disabled
  | insufficient
  | grouped (fingerprint : Fingerprint)
  deriving DecidableEq, Repr

/-- `INSERT INTO issues … ON CONFLICT (fingerprint) DO NOTHING`, else the select. -/
def State.storeIssue (e : CrashEvent) (f : Fingerprint) (newId : Uuid) :
    Option (State × Uuid × Bool) :=
  match s.issues.rows.find? fun i => i.fingerprint = f.issueFingerprint with
  | some i => some (s, i.id, false)
  | none =>
    if (s.issues.find newId).isSome then none
    else
      some ({ s with
        issues := s.issues.insert
          ⟨newId, f.issueFingerprint, f.title, e.receivedAt, e.receivedAt, 1, some e.id⟩ },
        newId, true)

def State.assignIssue (eventId : Uuid) (f : Fingerprint) (newId : Uuid) :
    Option (State × GroupingAssignment) := do
  let e ← s.events.find eventId
  let (s, issueId, isNew) ← s.storeIssue e f newId
  let e := { e with
    grouping := .grouped issueId f.issueFingerprint f.variantFingerprint f.groupingQuality }
  let s := s.setEvent e
  let s ← (if isNew then some s else s.addToIssue issueId e)
  let r ← s.upsert e (s.variants issueId f.variantFingerprint)
  some (s.setVariant issueId f.variantFingerprint (some r), ⟨issueId, true, none, e.receivedAt⟩)

/-- `existing` is the row of the event as it was locked. -/
def State.applyGrouping (existing : CrashEvent) (g : GroupingPublication) (newId : Uuid) :
    Option (State × Option GroupingAssignment) :=
  match existing.grouping with
  | .grouped issueId _ _ _ =>
    some (s, some ⟨issueId, false, existing.mapping.release, existing.receivedAt⟩)
  | .pending | .disabled | .insufficient =>
    match g with
    | .grouped f => (s.assignIssue existing.id f newId).map fun r => (r.1, some r.2)
    | .disabled => do
      let e ← s.events.find existing.id
      some (s.setEvent { e with grouping := .disabled }, none)
    | .insufficient => do
      let e ← s.events.find existing.id
      some (s.setEvent { e with grouping := .insufficient }, none)

/-! ## Releases -/

def State.recordReleaseMapping (eventId : Uuid) (mapping : ReleaseMapping) : Option State := do
  let e ← s.events.find eventId
  some (s.setEvent { e with mapping := mapping })

def State.addReleaseMembership (eventId issueId releaseId : Uuid) : Option State := do
  let e ← s.events.find eventId
  if InRelease issueId releaseId e then do
    let r ← s.upsert e (s.releases issueId releaseId)
    some (s.setRelease issueId releaseId (some r))
  else none

/-- The events of the two selects of `remove_release_membership`. -/
def State.releaseMembers (issueId releaseId : Uuid) : List CrashEvent :=
  s.select (InRelease issueId releaseId)

def State.removeReleaseMembership (eventId issueId releaseId : Uuid) (receivedAt : Nat) :
    Option State := do
  let r ← s.releases issueId releaseId
  if r.eventCount = 1 then some (s.setRelease issueId releaseId none)
  else if 1 < r.eventCount then
    if r.representative ≠ eventId ∧ r.firstSeenAt ≠ receivedAt ∧ r.lastSeenAt ≠ receivedAt then
      some (s.setRelease issueId releaseId (some { r with eventCount := r.eventCount - 1 }))
    else do
      let best ← (if r.representative = eventId then bestOf (s.releaseMembers issueId releaseId)
        else some r.representative)
      if r.firstSeenAt = receivedAt ∨ r.lastSeenAt = receivedAt then do
        let first ← ((s.releaseMembers issueId releaseId).map CrashEvent.receivedAt).min?
        let last ← ((s.releaseMembers issueId releaseId).map CrashEvent.receivedAt).max?
        some (s.setRelease issueId releaseId (some ⟨first, last, r.eventCount - 1, best⟩))
      else
        some (s.setRelease issueId releaseId
          (some ⟨r.firstSeenAt, r.lastSeenAt, r.eventCount - 1, best⟩))
  else none

/-- `if !first_assignment && let Some(previous_release_id) = …`. -/
def State.leavePreviousRelease (eventId : Uuid) (a : GroupingAssignment) : Option State :=
  match a.firstAssignment, a.previousReleaseId with
  | false, some previous => s.removeReleaseMembership eventId a.issueId previous a.receivedAt
  | true, _ | _, none => some s

def State.applyReleaseDelta (eventId : Uuid) (a : GroupingAssignment) (release : Option Uuid) :
    Option State :=
  if a.firstAssignment = false ∧ a.previousReleaseId = release then some s
  else do
    let s ← s.leavePreviousRelease eventId a
    match release with
    | some releaseId => s.addReleaseMembership eventId a.issueId releaseId
    | none => some s

/-! ## Transactions -/

def insertEvent (id : Uuid) (receivedAt : Nat) : Option State :=
  if (s.events.find id).isSome then none
  else some { s with events := s.events.insert ⟨id, receivedAt, .pending, .pending⟩ }

/-- What `publish_crash_result` does to the issues. -/
def publish (eventId : Uuid) (candidates : List Uuid) (g : GroupingPublication) (newId : Uuid) :
    Option State := do
  let existing ← s.events.find eventId
  let mapping := ReleaseMapping.of candidates
  let s ← s.recordReleaseMapping eventId mapping
  let (s, assignment) ← s.applyGrouping existing g newId
  match assignment with
  | some a => s.applyReleaseDelta eventId a mapping.release
  | none => some s

/-- `refresh_issue_memberships`. -/
def State.refresh (issueId : Uuid) : Option State := do
  let _ ← s.issues.find issueId
  let r ← recount (s.select (InIssue issueId))
  let s := { s with
    variants := fun i v =>
      if i = issueId then recount (s.select (InVariant issueId v)) else s.variants i v
    releases := fun i v =>
      if i = issueId then recount (s.select (InRelease issueId v)) else s.releases i v }
  some (s.setIssueRollup issueId r)

/-- What `repair_issue` does to the rollups. -/
def repairIssue (issueId : Uuid) : Option State := s.refresh issueId

end state

inductive Action where
  | insertEvent (id : Uuid) (receivedAt : Nat)
  | publish (eventId : Uuid) (candidates : List Uuid) (grouping : GroupingPublication)
      (newIssueId : Uuid)
  | repairIssue (issueId : Uuid)

def step (s : State) : Action → Option State
  | .insertEvent id receivedAt => insertEvent s id receivedAt
  | .publish eventId candidates grouping newIssueId =>
    publish s eventId candidates grouping newIssueId
  | .repairIssue issueId => repairIssue s issueId

end FaultLane.Issues
