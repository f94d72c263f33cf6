import FaultLane.CrashContext
import FaultLane.GroupedSums
import FaultLane.JobQueue
import FaultLane.LabelledTally

set_option autoImplicit false

/-!
# Daily rollups

The counts that a project keeps for each day: what the triggers on events, search rows and
issues add to them, and what a repair counts again. The tables are those of one project, and
`initcap` is that of the database's locale.
-/
namespace FaultLane.DailyRollups
open KeyedTable LabelledTally GroupedSums RustText JobQueue
open CrashContext (CrashType)

/-- Microseconds since 1970, in UTC. -/
abbrev Timestamp := Int

def dayMicros : Int := 86400000000

/-- `(received_at AT TIME ZONE 'UTC')::date`. -/
def dayOf (t : Timestamp) : Int := t / dayMicros

/-- `day::timestamp AT TIME ZONE 'UTC'`. -/
def startOf (day : Int) : Timestamp := day * dayMicros

/-! ## Tables -/

inductive ProcessingState where
  | received
  | stored
  | parsed
  | awaitingSymbols
  | symbolicating
  | processed
  | failed
  | quarantined
  deriving DecidableEq, Repr

def ProcessingState.text : ProcessingState → Text
  | .received => "received".toList
  | .stored => "stored".toList
  | .parsed => "parsed".toList
  | .awaitingSymbols => "awaiting_symbols".toList
  | .symbolicating => "symbolicating".toList
  | .processed => "processed".toList
  | .failed => "failed".toList
  | .quarantined => "quarantined".toList

inductive SymbolicationState where
  | readable
  | partially
  | missing
  | failed
  | processing
  deriving DecidableEq, Repr

def SymbolicationState.text : SymbolicationState → Text
  | .readable => "readable".toList
  | .partially => "partial".toList
  | .missing => "missing".toList
  | .failed => "failed".toList
  | .processing => "processing".toList

inductive RegressionState where
  | new
  | ongoing
  | resolved
  | regressed
  | unknown
  deriving DecidableEq, Repr

/-- The text of a uuid. -/
structure ReleaseId where
  text : Text
  form : text.length = 36
  deriving DecidableEq

structure Release where
  id : ReleaseId
  version : Text
  deriving DecidableEq

structure Event where
  id : Uuid
  receivedAt : Timestamp
  processingState : ProcessingState
  releaseId : Option ReleaseId
  currentResultId : Option Uuid
  deriving DecidableEq

structure SearchRow where
  eventId : Uuid
  resultId : Uuid
  platform : Option Text
  architecture : Option Text
  crashType : Option CrashType
  symbolicationState : SymbolicationState
  deriving DecidableEq

structure Issue where
  id : Uuid
  firstSeenAt : Timestamp
  lastSeenAt : Timestamp
  regressionState : RegressionState
  deriving DecidableEq

inductive Dimension where
  | eventTotal
  | release
  | platformArchitecture
  | crashType
  | symbolicationState
  | processingState
  | issueTotal
  | issueNew
  | issueRegressed
  deriving DecidableEq, Repr

structure RollupKey where
  day : Int
  dimension : Dimension
  key : Text
  deriving DecidableEq

abbrev Rollups := Tally RollupKey Text
abbrev Rollup := Row RollupKey Text

structure Tables where
  events : Table Event.id
  search : Table SearchRow.eventId
  releases : Table Release.id
  issues : Table Issue.id

def Tables.init : Tables := ⟨.empty, .empty, .empty, .empty⟩

structure Database extends Tables where
  rollups : Rollups

def Database.init : Database := ⟨.init, .empty⟩

/-! ## Deltas -/

structure Delta where
  key : RollupKey
  label : Text
  delta : Int
  deriving DecidableEq

def maxRollupChars : Nat := 512

def RollupKey.left (key : RollupKey) : RollupKey := { key with key := key.key.take maxRollupChars }

/-- `apply_project_daily_rollup_delta`. -/
def applyProjectDailyRollupDelta (rollups : Rollups) (d : Delta) : Rollups :=
  if 0 < d.delta then
    Tally.add rollups d.key.left (d.label.take maxRollupChars) d.delta.toNat
  else if d.delta < 0 then Tally.remove rollups d.key.left (-d.delta).toNat
  else rollups

/-- `PERFORM`, one after another. -/
def performDeltas (rollups : Rollups) (deltas : List Delta) : Rollups :=
  deltas.foldl applyProjectDailyRollupDelta rollups

def unknown : Text := "unknown".toList

/-- `COALESCE(value, 'unknown')`. -/
def coalesce (value : Option Text) : Text := value.getD unknown

def crashTypeText (crashType : Option CrashType) : Text :=
  coalesce (crashType.map fun crashType => crashType.text.toList)

def platformKey (platform architecture : Text) : Text := platform ++ '/' :: architecture

/-- The state that an event counts as, from its own state and that of its search row. -/
def symbolicationOf (state : ProcessingState) (search : Option SymbolicationState) :
    SymbolicationState :=
  if state = .failed ∨ state = .quarantined then .failed
  else
    match search with
    | some state => state
    | none => if state = .awaitingSymbols then .missing else .processing

section
variable (initcap : Text → Text)

def platformLabel (platform architecture : Text) : Text :=
  initcap platform ++ " / ".toList ++ architecture

def stateLabel (state : ProcessingState) : Text :=
  initcap (state.text.map fun c => if c = '_' then ' ' else c)

def eventTotalDelta (day delta : Int) : Delta :=
  ⟨⟨day, .eventTotal, "all".toList⟩, "Events".toList, delta⟩

def releaseDelta (day : Int) (key label : Text) (delta : Int) : Delta :=
  ⟨⟨day, .release, key⟩, label, delta⟩

def platformDelta (day : Int) (platform architecture : Option Text) (delta : Int) : Delta :=
  ⟨⟨day, .platformArchitecture, platformKey (coalesce platform) (coalesce architecture)⟩,
    platformLabel initcap (coalesce platform) (coalesce architecture), delta⟩

def crashTypeDelta (day : Int) (crashType : Option CrashType) (delta : Int) : Delta :=
  ⟨⟨day, .crashType, crashTypeText crashType⟩, initcap (crashTypeText crashType), delta⟩

def symbolicationDelta (day : Int) (state : SymbolicationState) (delta : Int) : Delta :=
  ⟨⟨day, .symbolicationState, state.text⟩, initcap state.text, delta⟩

def processingDelta (day : Int) (state : ProcessingState) (delta : Int) : Delta :=
  ⟨⟨day, .processingState, state.text⟩, stateLabel initcap state, delta⟩

def issueTotalDelta (day delta : Int) : Delta :=
  ⟨⟨day, .issueTotal, "all".toList⟩, "Issues".toList, delta⟩

def issueNewDelta (day delta : Int) : Delta :=
  ⟨⟨day, .issueNew, "all".toList⟩, "New issues".toList, delta⟩

def issueRegressedDelta (day delta : Int) : Delta :=
  ⟨⟨day, .issueRegressed, "all".toList⟩, "Regressed issues".toList, delta⟩

/-! ## Triggers -/

section triggers
variable (db : Tables)

/-- The search row of the current result. -/
def Tables.searchOf (e : Event) : Option SearchRow :=
  (db.search.find e.id).filter fun row => some row.resultId = e.currentResultId

def Tables.releaseOf (e : Event) : Option Release := e.releaseId.bind db.releases.find

def Tables.releaseKey (e : Event) : Text :=
  ((db.releaseOf e).map fun release => release.id.text).getD "unmapped".toList

def Tables.releaseLabel (e : Event) : Text :=
  ((db.releaseOf e).map Release.version).getD "Unmapped".toList

def Event.releaseKey (e : Event) : Text := (e.releaseId.map ReleaseId.text).getD "unmapped".toList

def Tables.symbolication (e : Event) : SymbolicationState :=
  symbolicationOf e.processingState ((db.searchOf e).map SearchRow.symbolicationState)

/-- Whether a row is new or old, all that it counts for. -/
def Tables.eventDeltas (e : Event) (delta : Int) : List Delta :=
  let day := dayOf e.receivedAt
  let search := db.searchOf e
  [eventTotalDelta day delta, releaseDelta day e.releaseKey (db.releaseLabel e) delta,
    platformDelta initcap day (search.bind SearchRow.platform)
      (search.bind SearchRow.architecture) delta,
    crashTypeDelta initcap day (search.bind SearchRow.crashType) delta,
    symbolicationDelta initcap day (db.symbolication e) delta,
    processingDelta initcap day e.processingState delta]

/-- `insert_crash_event_rollups`, for a statement that inserts one row. -/
def insertCrashEventRollups (e : Event) : List Delta :=
  let day := dayOf e.receivedAt
  let search := db.searchOf e
  [eventTotalDelta day 1, releaseDelta day (db.releaseKey e) (db.releaseLabel e) 1,
    platformDelta initcap day (search.bind SearchRow.platform)
      (search.bind SearchRow.architecture) 1,
    crashTypeDelta initcap day (search.bind SearchRow.crashType) 1,
    symbolicationDelta initcap day (db.symbolication e) 1,
    processingDelta initcap day e.processingState 1]

/-- `update_crash_event_rollups` after an update. -/
def updateCrashEventRollups (old new : Event) : List Delta :=
  let day := dayOf old.receivedAt
  if day ≠ dayOf new.receivedAt then
    db.eventDeltas initcap old (-1) ++ db.eventDeltas initcap new 1
  else
    let search := ((db.searchOf new).or (db.searchOf old)).map SearchRow.symbolicationState
    let oldSymbolication := symbolicationOf old.processingState search
    let newSymbolication := symbolicationOf new.processingState search
    (if old.releaseKey ≠ new.releaseKey then
      [releaseDelta day old.releaseKey (db.releaseLabel old) (-1),
        releaseDelta day new.releaseKey (db.releaseLabel new) 1]
    else []) ++
    (if old.processingState ≠ new.processingState then
      [processingDelta initcap day old.processingState (-1),
        processingDelta initcap day new.processingState 1]
    else []) ++
    (if old.processingState ≠ new.processingState ∧ oldSymbolication ≠ newSymbolication then
      [symbolicationDelta initcap day oldSymbolication (-1),
        symbolicationDelta initcap day newSymbolication 1]
    else [])

/-- Whether the trigger on search rows leaves the counts to the one on events. -/
def skipsSearch (current : Option Uuid) (old : Option SearchRow) (new : SearchRow) : Bool :=
  current.any fun current =>
    decide (current ≠ new.resultId) && old.all fun old => decide (current ≠ old.resultId)

/-- `update_crash_search_rollups` after an insert or an update. -/
def updateCrashSearchRollups (old : Option SearchRow) (new : SearchRow) : List Delta :=
  match db.events.find new.eventId with
  | none => []
  | some e =>
    if skipsSearch e.currentResultId old new then []
    else
      let day := dayOf e.receivedAt
      let oldPlatform := old.bind SearchRow.platform
      let oldArchitecture := old.bind SearchRow.architecture
      let oldCrashType := old.bind SearchRow.crashType
      let oldSymbolication :=
        symbolicationOf e.processingState (old.map SearchRow.symbolicationState)
      let newSymbolication := symbolicationOf e.processingState (some new.symbolicationState)
      (if coalesce oldPlatform ≠ coalesce new.platform ∨
          coalesce oldArchitecture ≠ coalesce new.architecture then
        [platformDelta initcap day oldPlatform oldArchitecture (-1),
          platformDelta initcap day new.platform new.architecture 1]
      else []) ++
      (if crashTypeText oldCrashType ≠ crashTypeText new.crashType then
        [crashTypeDelta initcap day oldCrashType (-1), crashTypeDelta initcap day new.crashType 1]
      else []) ++
      (if oldSymbolication ≠ newSymbolication then
        [symbolicationDelta initcap day oldSymbolication (-1),
          symbolicationDelta initcap day newSymbolication 1]
      else [])

end triggers

def Issue.firstDay (i : Issue) : Int := dayOf i.firstSeenAt

def Issue.regressedDay (i : Issue) : Option Int :=
  if i.regressionState = .regressed then some (dayOf i.lastSeenAt) else none

/-- `update_issue_rollups` after an insert or an update. -/
def updateIssueRollups (old : Option Issue) (new : Issue) : List Delta :=
  (if old.map Issue.firstDay ≠ some new.firstDay then
    ((old.map Issue.firstDay).toList.flatMap fun day =>
      [issueTotalDelta day (-1), issueNewDelta day (-1)]) ++
      [issueTotalDelta new.firstDay 1, issueNewDelta new.firstDay 1]
  else []) ++
  (if old.bind Issue.regressedDay ≠ new.regressedDay then
    (old.bind Issue.regressedDay).toList.map (issueRegressedDelta · (-1)) ++
      new.regressedDay.toList.map (issueRegressedDelta · 1)
  else [])

/-! ## Statements -/

/-- The rows that a statement leaves, and what its triggers perform. -/
abbrev Effects := Tables × List Delta

section statements
variable (db : Tables)

/-- `INSERT INTO crash_events`. -/
def Tables.insertEvent (e : Event) : Option Effects :=
  if (db.events.find e.id).isSome then none
  else
    let db := { db with events := db.events.insert e }
    some (db, insertCrashEventRollups initcap db e)

def Tables.setEvent (e : Event) : Tables :=
  { db with events := db.events.modify e.id (fun old => { e with id := old.id }) fun _ => rfl }

/-- `UPDATE crash_events` of the columns that its trigger is on. -/
def Tables.updateEvent (old new : Event) : Effects :=
  let db := db.setEvent new
  (db, updateCrashEventRollups initcap db old new)

/-- `INSERT INTO crash_event_search … ON CONFLICT DO UPDATE`. -/
def Tables.upsertSearch (new : SearchRow) : Effects :=
  let old := db.search.find new.eventId
  let search :=
    if old.isSome then
      db.search.modify new.eventId (fun row => { new with eventId := row.eventId }) fun _ => rfl
    else db.search.insert new
  let db := { db with search := search }
  (db, updateCrashSearchRollups initcap db old new)

def Tables.setIssue (i : Issue) : Tables :=
  { db with issues := db.issues.modify i.id (fun old => { i with id := old.id }) fun _ => rfl }

end statements

inductive IssueChange where
  | insert (issue : Issue)
  | update (issue : Issue)

/-- `INSERT INTO issues` or `UPDATE issues` of the columns that the trigger is on. -/
def Tables.changeIssue (db : Tables) : IssueChange → Option Effects
  | .insert issue =>
    if (db.issues.find issue.id).isSome then none
    else some ({ db with issues := db.issues.insert issue }, updateIssueRollups none issue)
  | .update issue => do
    let old ← db.issues.find issue.id
    some (db.setIssue issue, updateIssueRollups (some old) issue)

def Tables.changeIssues (db : Tables) : List IssueChange → Option Effects
  | [] => some (db, [])
  | change :: changes => do
    let (db, deltas) ← db.changeIssue change
    let (db, rest) ← db.changeIssues changes
    some (db, deltas ++ rest)

/-! ## Transactions -/

structure Publication where
  search : SearchRow
  release : Option ReleaseId
  issues : List IssueChange
  resolved : Bool

def Publication.state (p : Publication) : ProcessingState :=
  if p.resolved then .processed else .awaitingSymbols

inductive Action where
  | createRelease (release : Release)
  | ingest (eventId : Uuid) (receivedAt : Timestamp)
  | publish (p : Publication)
  | finishFailure (eventId : Uuid) (quarantine : Bool) (targetGeneration : Nat)
  | changeIssues (changes : List IssueChange)

section transactions
variable (db : Tables)

def createRelease (release : Release) : Option Effects :=
  if (db.releases.find release.id).isSome then none
  else some ({ db with releases := db.releases.insert release }, [])

def ingest (eventId : Uuid) (receivedAt : Timestamp) : Option Effects :=
  db.insertEvent initcap ⟨eventId, receivedAt, .stored, none, none⟩

/-- The statements of `publish_crash_result` that triggers are on. -/
def publish (p : Publication) : Option Effects := do
  let e ← db.events.find p.search.eventId
  if p.release.any fun id => (db.releases.find id).isNone then none
  else
    let (db, searched) := db.upsertSearch initcap p.search
    let mapped := { e with releaseId := p.release }
    let (db, released) := db.updateEvent initcap e mapped
    let (db, changed) ← db.changeIssues p.issues
    let (db, finished) := db.updateEvent initcap mapped
      { mapped with currentResultId := some p.search.resultId, processingState := p.state }
    some (db, searched ++ released ++ changed ++ finished)

def finishFailure (eventId : Uuid) (quarantine : Bool) (targetGeneration : Nat) :
    Option Effects := do
  let e ← db.events.find eventId
  let state : ProcessingState := if quarantine then .quarantined else .failed
  some (db.updateEvent initcap e (
    if 0 < targetGeneration ∧ e.currentResultId.isSome then e
    else { e with processingState := state }))

/-- What a transaction does to the tables, and the deltas that it performs. -/
def effects : Action → Option Effects
  | .createRelease release => createRelease db release
  | .ingest eventId receivedAt => ingest initcap db eventId receivedAt
  | .publish p => publish initcap db p
  | .finishFailure eventId quarantine targetGeneration =>
    finishFailure initcap db eventId quarantine targetGeneration
  | .changeIssues changes => db.changeIssues changes

end transactions

def step (db : Database) (action : Action) : Option Database :=
  (effects initcap db.toTables action).map fun (tables, deltas) =>
    ⟨tables, performDeltas db.rollups deltas⟩

/-! ## Repair -/

/-- The columns that the repair groups events by. -/
structure EventGroup where
  release : Option Release
  platform : Option Text
  architecture : Option Text
  crashType : Option CrashType
  symbolicationState : Option SymbolicationState
  processingState : ProcessingState
  deriving DecidableEq

def Tables.groupOf (db : Tables) (e : Event) : EventGroup where
  release := db.releaseOf e
  platform := (db.searchOf e).bind SearchRow.platform
  architecture := (db.searchOf e).bind SearchRow.architecture
  crashType := (db.searchOf e).bind SearchRow.crashType
  symbolicationState := (db.searchOf e).map SearchRow.symbolicationState
  processingState := e.processingState

section repair
variable (db : Tables) (day : Int)

def Event.receivedOn (e : Event) (day : Int) : Prop :=
  startOf day ≤ e.receivedAt ∧ e.receivedAt < startOf (day + 1)

instance (e : Event) : Decidable (e.receivedOn day) := inferInstanceAs (Decidable (_ ∧ _))

def Issue.firstSeenOn (i : Issue) (day : Int) : Prop :=
  startOf day ≤ i.firstSeenAt ∧ i.firstSeenAt < startOf (day + 1)

instance (i : Issue) : Decidable (i.firstSeenOn day) := inferInstanceAs (Decidable (_ ∧ _))

def Issue.regressedOn (i : Issue) (day : Int) : Prop :=
  i.regressionState = .regressed ∧ startOf day ≤ i.lastSeenAt ∧ i.lastSeenAt < startOf (day + 1)

instance (i : Issue) : Decidable (i.regressedOn day) := inferInstanceAs (Decidable (_ ∧ _ ∧ _))

/-- `event_groups`. -/
def Tables.eventGroups : List (EventGroup × Nat) :=
  groupCount db.groupOf (db.events.rows.filter fun e => e.receivedOn day)

/-- The key and the label of a dimension, and `sum(event_count) … GROUP BY`. -/
def Tables.groupRows {κ : Type} [DecidableEq κ] (dimension : Dimension) (by_ : EventGroup → κ)
    (key label : κ → Text) : List Rollup :=
  (groupSum (fun g => by_ g.1) Prod.snd (db.eventGroups day)).map fun g =>
    ⟨⟨day, dimension, key g.1⟩, label g.1, g.2⟩

def EventGroup.releaseKey (g : EventGroup) : Text × Text :=
  ((g.release.map fun release => release.id.text).getD "unmapped".toList,
    (g.release.map Release.version).getD "Unmapped".toList)

def EventGroup.symbolication (g : EventGroup) : SymbolicationState :=
  symbolicationOf g.processingState g.symbolicationState

def Tables.totalRows : List Rollup :=
  let total := ((db.eventGroups day).map Prod.snd).sum
  if 0 < total then [⟨⟨day, .eventTotal, "all".toList⟩, "Events".toList, total⟩] else []

def Tables.issueRows : List Rollup :=
  (groupCount id ((db.issues.rows.filter fun i => i.firstSeenOn day).flatMap fun _ =>
    [(Dimension.issueTotal, "Issues".toList), (.issueNew, "New issues".toList)])).map fun g =>
      ⟨⟨day, g.1.1, "all".toList⟩, g.1.2, g.2⟩

def Tables.regressedRows : List Rollup :=
  [⟨⟨day, .issueRegressed, "all".toList⟩, "Regressed issues".toList,
    (db.issues.rows.filter fun i => i.regressedOn day).length⟩]

/-- What `repair_day` counts into its temporary table. -/
def Tables.counted : List Rollup :=
  db.totalRows day ++
  db.groupRows day .release EventGroup.releaseKey Prod.fst Prod.snd ++
  db.groupRows day .platformArchitecture (fun g => (coalesce g.platform, coalesce g.architecture))
    (fun g => platformKey g.1 g.2) (fun g => platformLabel initcap g.1 g.2) ++
  db.groupRows day .crashType (fun g => crashTypeText g.crashType) id initcap ++
  db.groupRows day .symbolicationState EventGroup.symbolication SymbolicationState.text
    (fun state => initcap state.text) ++
  db.groupRows day .processingState EventGroup.processingState ProcessingState.text
    (stateLabel initcap) ++
  db.issueRows day ++ db.regressedRows day

/-- The rows that it stores. -/
def Tables.recount : List Rollup :=
  (db.counted initcap day).map fun row =>
    { row with key := row.key.left, label := row.label.take maxRollupChars }

end repair

def Database.stored (db : Database) (day : Int) : List Rollup :=
  db.rollups.rows.filter fun row => row.key.day = day

/-- The stored rows of the day are those that a repair counts. -/
def Database.Exact (db : Database) (day : Int) : Prop :=
  (db.stored day).Perm (db.recount initcap day)

/-- Two events of one day with one key have one platform and architecture. -/
def Tables.platformOf (db : Tables) (e : Event) : Text × Text :=
  (coalesce ((db.searchOf e).bind SearchRow.platform),
    coalesce ((db.searchOf e).bind SearchRow.architecture))

def leftPlatformKey (p : Text × Text) : Text := (platformKey p.1 p.2).take maxRollupChars

/-- A publication gives its event a platform and an architecture whose key no other event of the
day has for a different pair. -/
def Distinct (db : Tables) : Action → Prop
  | .publish p => ∀ e ∈ db.events.find p.search.eventId, ∀ other ∈ db.events.rows,
      other.id ≠ e.id → dayOf other.receivedAt = dayOf e.receivedAt →
        leftPlatformKey (db.platformOf other) =
            leftPlatformKey (coalesce p.search.platform, coalesce p.search.architecture) →
          db.platformOf other = (coalesce p.search.platform, coalesce p.search.architecture)
  | _ => True

instance (db : Tables) : DecidablePred (Distinct db) := fun a => by
  cases a <;> unfold Distinct <;> infer_instance

end
end FaultLane.DailyRollups
