import FaultLane.DailyRollups
import FaultLane.OuterJoin

set_option autoImplicit false

/-!
# The repair of one project and day

What `repair_day` counts, compares and stores, over the rows of all projects and days.
-/
namespace FaultLane.ProjectRollups
open KeyedTable LabelledTally GroupedSums RustText JobQueue OuterJoin
open DailyRollups (Timestamp startOf ProcessingState SymbolicationState RegressionState ReleaseId
  Dimension RollupKey Rollup maxRollupChars coalesce platformKey symbolicationOf platformLabel
  stateLabel)

structure Scope where
  organizationId : Uuid
  projectId : Uuid
  deriving DecidableEq

/-! ## Tables -/

structure Release where
  id : ReleaseId
  scope : Scope
  version : Text
  deriving DecidableEq

structure Event where
  id : Uuid
  scope : Scope
  receivedAt : Timestamp
  processingState : ProcessingState
  releaseId : Option ReleaseId
  currentResultId : Option Uuid
  deriving DecidableEq

structure SearchRow where
  scope : Scope
  eventId : Uuid
  resultId : Uuid
  platform : Option Text
  architecture : Option Text
  crashType : Option Text
  symbolicationState : SymbolicationState
  deriving DecidableEq

def SearchRow.key (row : SearchRow) : Scope × Uuid := (row.scope, row.eventId)

structure Issue where
  id : Uuid
  scope : Scope
  firstSeenAt : Timestamp
  lastSeenAt : Timestamp
  regressionState : RegressionState
  deriving DecidableEq

/-- `char_length(text) BETWEEN 1 AND 512`. -/
def InRange (text : Text) : Prop := 1 ≤ text.length ∧ text.length ≤ maxRollupChars

instance (text : Text) : Decidable (InRange text) := inferInstanceAs (Decidable (_ ∧ _))

def Checked (row : Rollup) : Prop := InRange row.key.key ∧ InRange row.label

instance (row : Rollup) : Decidable (Checked row) := inferInstanceAs (Decidable (_ ∧ _))

structure StoredRollup where
  scope : Scope
  rollup : Rollup
  checked : Checked rollup

def StoredRollup.key (row : StoredRollup) : Scope × RollupKey := (row.scope, row.rollup.key)

/-- The row is one of the project and day. -/
def StoredRollup.of (row : StoredRollup) (scope : Scope) (day : Int) : Prop :=
  row.scope = scope ∧ row.rollup.key.day = day

instance (scope : Scope) (day : Int) : DecidablePred fun row : StoredRollup => row.of scope day :=
  fun _ => inferInstanceAs (Decidable (_ ∧ _))

structure Tables where
  events : Table Event.id
  search : Table SearchRow.key
  releases : Table Release.id
  issues : Table Issue.id

structure Database extends Tables where
  rollups : Table StoredRollup.key

def within (t : Timestamp) (day : Int) : Prop := startOf day ≤ t ∧ t < startOf (day + 1)

instance (t : Timestamp) (day : Int) : Decidable (within t day) :=
  inferInstanceAs (Decidable (_ ∧ _))

/-! ## Counting -/

/-- The columns that the repair groups events by. -/
structure EventGroup where
  release : Option (ReleaseId × Text)
  platform : Option Text
  architecture : Option Text
  crashType : Option Text
  symbolicationState : Option SymbolicationState
  processingState : ProcessingState
  deriving DecidableEq

section count
variable (db : Tables)

/-- The search row of the current result. -/
def Tables.searchOf (e : Event) : Option SearchRow :=
  (db.search.find (e.scope, e.id)).filter fun row => some row.resultId = e.currentResultId

def Tables.releaseOf (e : Event) : Option Release :=
  (e.releaseId.bind db.releases.find).filter fun release => release.scope = e.scope

def Tables.groupOf (e : Event) : EventGroup where
  release := (db.releaseOf e).map fun release => (release.id, release.version)
  platform := (db.searchOf e).bind SearchRow.platform
  architecture := (db.searchOf e).bind SearchRow.architecture
  crashType := (db.searchOf e).bind SearchRow.crashType
  symbolicationState := (db.searchOf e).map SearchRow.symbolicationState
  processingState := e.processingState

variable (scope : Scope) (day : Int)

def Tables.eventsOn : List Event :=
  db.events.rows.filter fun e => e.scope = scope ∧ within e.receivedAt day

/-- `event_groups`. -/
def Tables.eventGroups : List (EventGroup × Nat) :=
  groupCount db.groupOf (db.eventsOn scope day)

def totalRows (groups : List (EventGroup × Nat)) : List Rollup :=
  let total := (groups.map Prod.snd).sum
  if 0 < total then [⟨⟨day, .eventTotal, "all".toList⟩, "Events".toList, total⟩] else []

/-- The key and the label of a dimension, and `sum(event_count) … GROUP BY`. -/
def groupRows {κ : Type} [DecidableEq κ] (groups : List (EventGroup × Nat)) (dimension : Dimension)
    (by_ : EventGroup → κ) (key label : κ → Text) : List Rollup :=
  (groupSum (fun g => by_ g.1) Prod.snd groups).map fun g =>
    ⟨⟨day, dimension, key g.1⟩, label g.1, g.2⟩

def EventGroup.releaseName (g : EventGroup) : Text × Text :=
  ((g.release.map fun release => release.1.text).getD "unmapped".toList,
    (g.release.map Prod.snd).getD "Unmapped".toList)

def EventGroup.target (g : EventGroup) : Text × Text :=
  (coalesce g.platform, coalesce g.architecture)

def EventGroup.crash (g : EventGroup) : Text := coalesce g.crashType

def EventGroup.symbolication (g : EventGroup) : SymbolicationState :=
  symbolicationOf g.processingState g.symbolicationState

def Tables.firstSeenOn : List Issue :=
  db.issues.rows.filter fun i => i.scope = scope ∧ within i.firstSeenAt day

def Tables.issueRows : List Rollup :=
  (groupCount id ((db.firstSeenOn scope day).flatMap fun _ =>
    [(Dimension.issueTotal, "Issues".toList), (.issueNew, "New issues".toList)])).map fun g =>
      ⟨⟨day, g.1.1, "all".toList⟩, g.1.2, g.2⟩

def Tables.regressedRows : List Rollup :=
  [⟨⟨day, .issueRegressed, "all".toList⟩, "Regressed issues".toList,
    (db.issues.rows.filter fun i => i.scope = scope ∧ i.regressionState = .regressed ∧
      within i.lastSeenAt day).length⟩]

variable (initcap : Text → Text)

/-- What `repair_day` counts into its temporary table. -/
def Tables.counted : List Rollup :=
  totalRows day (db.eventGroups scope day) ++
  groupRows day (db.eventGroups scope day) .release EventGroup.releaseName Prod.fst Prod.snd ++
  groupRows day (db.eventGroups scope day) .platformArchitecture EventGroup.target
    (fun p => platformKey p.1 p.2) (fun p => platformLabel initcap p.1 p.2) ++
  groupRows day (db.eventGroups scope day) .crashType EventGroup.crash id initcap ++
  groupRows day (db.eventGroups scope day) .symbolicationState EventGroup.symbolication
    SymbolicationState.text (fun state => initcap state.text) ++
  groupRows day (db.eventGroups scope day) .processingState EventGroup.processingState
    ProcessingState.text (stateLabel initcap) ++
  db.issueRows scope day ++ db.regressedRows scope day

/-- `left(key, 512)` and `left(label, 512)`. -/
def cut (row : Rollup) : Rollup :=
  { row with key := row.key.left, label := row.label.take maxRollupChars }

def Tables.recount : List Rollup := (db.counted scope day initcap).map cut

end count

/-! ## Repair -/

section repair
variable (db : Database) (scope : Scope) (day : Int)

def Database.stored : List Rollup :=
  (db.rollups.rows.filter fun row => row.of scope day).map StoredRollup.rollup

/-- The rows of the full outer join whose count or label is distinct. -/
def Database.drifted (repair : List Rollup) : Nat :=
  (fullOuterJoin (fun (row : Rollup) (stored : StoredRollup) =>
    stored.of scope day ∧ stored.rollup.key = row.key) repair db.rollups.rows).countP fun x =>
      x.1.map Row.count ≠ x.2.map (Row.count ∘ StoredRollup.rollup) ∨
        x.1.map Row.label ≠ x.2.map (Row.label ∘ StoredRollup.rollup)

/-- A row that meets the checks of its table. -/
def StoredRollup.ofRow (row : Rollup) : Option StoredRollup :=
  if h : Checked row then some ⟨scope, row, h⟩ else none

variable (initcap : Text → Text)

/-- The database afterwards, the drifted rows and the inserted ones. -/
def repairDay : Option (Database × Nat × Nat) := do
  let repair := db.counted scope day initcap
  let drifted := db.drifted scope day repair
  let kept := db.rollups.deleteWhere fun row => row.of scope day
  let rows ← (repair.map cut).mapM (StoredRollup.ofRow scope)
  let rollups ← kept.insertAll rows
  some ({ db with rollups := rollups }, drifted, rows.length)

def figures (row : Rollup) : Text × Nat := (row.label, row.count)

/-- How many keys the two lists of rows count or label differently, or one of them alone has. -/
def driftedKeys (recount stored : List Rollup) : Nat :=
  (((recount.map Row.key).toFinset ∪ (stored.map Row.key).toFinset).filter fun key =>
    figure Row.key figures recount key ≠ figure Row.key figures stored key).card

/-- The repair succeeds, changes no other row, stores the recount and reports how many keys
differed from it, and a second repair reports none. -/
def Database.RepairsExactly : Prop :=
  ∃ db' drifted inserted, repairDay db scope day initcap = some (db', drifted, inserted) ∧
    db'.toTables = db.toTables ∧
    (∀ row, ¬ row.of scope day → (row ∈ db'.rollups ↔ row ∈ db.rollups)) ∧
    (db'.stored scope day).Perm (db.recount scope day initcap) ∧
    drifted = driftedKeys (db.recount scope day initcap) (db.stored scope day) ∧
    ∃ db'' inserted', repairDay db' scope day initcap = some (db'', 0, inserted')

/-- The keys and labels under which an event of the group counts. -/
def EventGroup.names (g : EventGroup) : List (Text × Text) :=
  [g.releaseName, (platformKey g.target.1 g.target.2, platformLabel initcap g.target.1 g.target.2),
    (g.crash, initcap g.crash), (g.symbolication.text, initcap g.symbolication.text),
    (g.processingState.text, stateLabel initcap g.processingState)]

/-- No other project or day has rollups, and the names of the day's events fit their columns and
tell their platforms and architectures apart. -/
structure Database.Repairable : Prop where
  alone : ∀ row ∈ db.rollups, row.of scope day
  fits : ∀ e ∈ db.eventsOn scope day, ∀ name ∈ (db.groupOf e).names initcap,
    InRange name.1 ∧ InRange name.2
  apart : ∀ e ∈ db.eventsOn scope day, ∀ e' ∈ db.eventsOn scope day,
    platformKey (db.groupOf e).target.1 (db.groupOf e).target.2 =
        platformKey (db.groupOf e').target.1 (db.groupOf e').target.2 →
      (db.groupOf e).target = (db.groupOf e').target

end repair
end FaultLane.ProjectRollups
