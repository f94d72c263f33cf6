import FaultLane.DailyRollups
import FaultLane.LogTail
import FaultLane.RankedRows

set_option autoImplicit false

/-!
# The project overview

What `load_overview` reads of a project, once from its events and issues and once from their
daily rollups. Its top issues, its missing symbols, the health of its jobs and its usage are
left out: they do not belong to what the two must share, or come from one query for both.
-/
namespace FaultLane.DashboardOverview
open KeyedTable LabelledTally GroupedSums RustText JobQueue DailyRollups
open LogTail (utf8Length)

def maxDistributions : Nat := 20
def windowDays : Int := 30

/-! ## The database -/

/-- The order of texts in the database's locale. -/
structure Collation where
  le : Text → Text → Prop
  decide : DecidableRel le
  total : ∀ a b, le a b ∨ le b a
  trans : ∀ a b c, le a b → le b c → le a c
  antisymm : ∀ a b, le a b → le b a → a = b

instance (c : Collation) : DecidableRel c.le := c.decide

/-- What the locale of the database decides. -/
structure Locale where
  initcap : Text → Text
  collation : Collation

/-- A row of a grouping query. -/
structure GroupRow where
  key : Text
  label : Text
  count : Nat
  deriving DecidableEq

/-- The order in which the database comes to the rows before it sorts them. -/
structure Arrangement where
  arrange : List GroupRow → List GroupRow
  perm : ∀ rows, (arrange rows).Perm rows

section order
variable (c : Collation)

/-- `ORDER BY count DESC, key`. -/
def byKey (r s : GroupRow) : Prop := s.count < r.count ∨ r.count = s.count ∧ c.le r.key s.key

instance : DecidableRel (byKey c) := fun _ _ => inferInstanceAs (Decidable (_ ∨ _))

/-- `ORDER BY count DESC, label, key`. -/
def byLabel (r s : GroupRow) : Prop :=
  s.count < r.count ∨ r.count = s.count ∧
    (r.label ≠ s.label ∧ c.le r.label s.label ∨ r.label = s.label ∧ c.le r.key s.key)

instance : DecidableRel (byLabel c) := fun _ _ => inferInstanceAs (Decidable (_ ∨ _))

/-- `max(label)`. -/
def maxText : List Text → Text
  | [] => []
  | [x] => x
  | x :: rest => if c.le (maxText rest) x then x else maxText rest

end order

/-- The sorted rows up to the limit, each with the sum of all counts. -/
def limited (before : GroupRow → GroupRow → Prop) [DecidableRel before] (a : Arrangement)
    (rows : List GroupRow) : List (GroupRow × Nat) :=
  (((a.arrange rows).insertionSort before).take (maxDistributions + 1)).map
    fun r => (r, (rows.map GroupRow.count).sum)

/-! ## Distributions -/

/-- The longest start of a text that ends with a character and fits. -/
def fitting : Nat → Text → Text
  | _, [] => []
  | n, c :: rest => if c.utf8Size ≤ n then c :: fitting (n - c.utf8Size) rest else []

/-- `truncate_text`. -/
def truncateText (value : Text) (maximum : Nat) : Text × Bool :=
  if utf8Length value ≤ maximum then (value, false) else (fitting maximum value, true)

structure Distribution where
  key : Text
  label : Text
  count : Nat
  truncated : Bool
  deriving DecidableEq

def distribution (r : GroupRow) : Distribution :=
  let (key, keyTruncated) := truncateText r.key 256
  let (label, labelTruncated) := truncateText r.label 256
  ⟨key, label, r.count, keyTruncated || labelTruncated⟩

/-- What a distribution shows, whether it is cut, and the count of all else. -/
structure Distributions where
  values : List Distribution
  truncated : Bool
  otherCount : Nat
  deriving DecidableEq

def distributionRows (rows : List (GroupRow × Nat)) : Distributions where
  values := (rows.take maxDistributions).map fun r => distribution r.1
  truncated := decide (maxDistributions < rows.length)
  otherCount := (rows.head?.map Prod.snd).getD 0 -
    ((rows.take maxDistributions).map fun r => r.1.count).sum

/-! ## The answer -/

structure OverviewTotals where
  events : Nat
  issues : Nat
  newIssues : Nat
  regressedIssues : Nat
  deriving DecidableEq

structure TimeBucket where
  day : Int
  count : Nat
  deriving DecidableEq

structure SymbolicationOverview where
  readable : Nat
  partially : Nat
  missing : Nat
  failed : Nat
  processing : Nat
  deriving DecidableEq

def SymbolicationOverview.denominator (s : SymbolicationOverview) : Nat :=
  s.readable + s.partially + s.missing

/-- `symbolication_success_percent`, in hundredths of a percent. -/
def SymbolicationOverview.successBasisPoints (s : SymbolicationOverview) : Option Nat :=
  if s.denominator = 0 then none
  else some (((s.readable + s.partially) * 10000 + s.denominator / 2) / s.denominator)

structure IngestHealth where
  lastReceivedAt : Option Timestamp
  eventsInWindow : Nat
  storedOrReceived : Nat
  deriving DecidableEq

structure ProjectOverview where
  windowStart : Timestamp
  windowEnd : Timestamp
  totals : OverviewTotals
  eventsOverTime : List TimeBucket
  releases : Distributions
  platforms : Distributions
  crashTypes : Distributions
  symbolication : SymbolicationOverview
  ingest : IngestHealth
  states : List Distribution
  deriving DecidableEq

/-! ## The window -/

section window
variable (clock : Timestamp)

def firstDay : Int := dayOf clock - (windowDays - 1)
def endDay : Int := dayOf clock + 1

def windowStart : Timestamp := startOf (firstDay clock)
def windowEnd : Timestamp := startOf (endDay clock)

def inWindow (t : Timestamp) : Prop := windowStart clock ≤ t ∧ t < windowEnd clock

instance (t : Timestamp) : Decidable (inWindow clock t) := inferInstanceAs (Decidable (_ ∧ _))

/-- `generate_series` over the days of the window. -/
def days : List Int := (List.range windowDays.toNat).map fun n => firstDay clock + n

end window

/-! ## From events and issues -/

section raw
variable (locale : Locale) (db : Tables) (clock : Timestamp)

def windowEvents : List Event := db.events.rows.filter fun e => inWindow clock e.receivedAt

def eventPlatform (e : Event) : Option Text := (db.searchOf e).bind SearchRow.platform
def eventArchitecture (e : Event) : Option Text := (db.searchOf e).bind SearchRow.architecture
def eventCrashType (e : Event) : Text := crashTypeText ((db.searchOf e).bind SearchRow.crashType)

def platformKeyOf (e : Event) : Text :=
  platformKey (coalesce (eventPlatform db e)) (coalesce (eventArchitecture db e))

/-- `COALESCE(platform, 'Unknown') || ' / ' || COALESCE(architecture, 'unknown')`. -/
def platformLabelOf (e : Event) : Text :=
  (eventPlatform db e).getD "Unknown".toList ++ " / ".toList ++ coalesce (eventArchitecture db e)

def eventTotals : OverviewTotals where
  events := (windowEvents db clock).length
  issues := db.issues.rows.length
  newIssues := db.issues.rows.countP fun i => inWindow clock i.firstSeenAt
  regressedIssues := db.issues.rows.countP fun i =>
    i.regressionState = .regressed ∧ inWindow clock i.lastSeenAt

def eventBuckets : List TimeBucket :=
  (days clock).map fun day => ⟨day, db.events.rows.countP fun e => e.receivedOn day⟩

def eventReleaseRows : List GroupRow :=
  (groupCount db.releaseOf (windowEvents db clock)).map fun g =>
    ⟨(g.1.map fun release => release.id.text).getD "unmapped".toList,
      (g.1.map Release.version).getD "Unmapped".toList, g.2⟩

def eventPlatformRows : List GroupRow :=
  (groupCount (fun e => (platformKeyOf db e, platformLabelOf db e)) (windowEvents db clock)).map
    fun g => ⟨g.1.1, g.1.2, g.2⟩

def eventCrashTypeRows : List GroupRow :=
  (groupCount (fun e => (eventCrashType db e, locale.initcap (eventCrashType db e)))
    (windowEvents db clock)).map fun g => ⟨g.1.1, g.1.2, g.2⟩

def eventStateRows : List GroupRow :=
  (groupCount Event.processingState db.events.rows).map fun g =>
    ⟨g.1.text, stateLabel locale.initcap g.1, g.2⟩

def eventSymbolication : SymbolicationOverview :=
  let count (state : SymbolicationState) :=
    (windowEvents db clock).countP fun e => db.symbolication e = state
  ⟨count .readable, count .partially, count .missing, count .failed, count .processing⟩

/-- `max(received_at)`. -/
def maxReceivedAt : Option Timestamp := (db.events.rows.map Event.receivedAt).max?

def eventIngest : IngestHealth where
  lastReceivedAt := maxReceivedAt db
  eventsInWindow := db.events.rows.countP fun e => inWindow clock e.receivedAt
  storedOrReceived := db.events.rows.countP fun e =>
    e.processingState = .received ∨ e.processingState = .stored

end raw

/-! ## From rollups -/

section rollups
variable (locale : Locale) (db : Database) (clock : Timestamp)

/-- The rows of a dimension, of all days. -/
def dimensionRows (dimension : Dimension) : List Rollup :=
  db.rollups.rows.filter fun row => row.key.dimension = dimension

/-- The rows of a dimension on the days of the window. -/
def windowRows (dimension : Dimension) : List Rollup :=
  (dimensionRows db dimension).filter fun row =>
    firstDay clock ≤ row.key.day ∧ row.key.day < endDay clock

def sumCounts (rows : List Rollup) : Nat := (rows.map Row.count).sum

def sumOfKey (rows : List Rollup) (key : Text) : Nat :=
  sumCounts (rows.filter fun row => row.key.key = key)

/-- `SELECT key, max(label), sum(count) … GROUP BY key`. -/
def rollupRows (rows : List Rollup) : List GroupRow :=
  (groupSum (fun row : Rollup => row.key.key) Row.count rows).map fun g =>
    ⟨g.1, maxText locale.collation
      ((rows.filter fun row => row.key.key = g.1).map Row.label), g.2⟩

def rollupTotals : OverviewTotals where
  events := sumCounts (windowRows db clock .eventTotal)
  issues := sumCounts (dimensionRows db .issueTotal)
  newIssues := sumCounts (windowRows db clock .issueNew)
  regressedIssues := sumCounts (windowRows db clock .issueRegressed)

def rollupBuckets : List TimeBucket :=
  (days clock).map fun day =>
    ⟨day, ((db.rollups.find ⟨day, .eventTotal, "all".toList⟩).map Row.count).getD 0⟩

def rollupSymbolication : SymbolicationOverview :=
  let count (state : SymbolicationState) :=
    sumOfKey (windowRows db clock .symbolicationState) state.text
  ⟨count .readable, count .partially, count .missing, count .failed, count .processing⟩

/-- `ORDER BY received_at DESC, id DESC LIMIT 1`. -/
def lastReceivedAt : Option Timestamp :=
  ((db.events.rows.insertionSort fun e f =>
    f.receivedAt < e.receivedAt ∨ e.receivedAt = f.receivedAt ∧ f.id ≤ e.id).head?).map
      Event.receivedAt

def rollupIngest : IngestHealth where
  lastReceivedAt := lastReceivedAt db
  eventsInWindow := sumCounts (windowRows db clock .eventTotal)
  storedOrReceived := sumCounts ((dimensionRows db .processingState).filter fun row =>
    row.key.key = ProcessingState.received.text ∨ row.key.key = ProcessingState.stored.text)

end rollups

/-! ## The overview -/

section overview
variable (locale : Locale) (a : Arrangement) (db : Database) (clock : Timestamp)

def overviewFromEvents : ProjectOverview where
  windowStart := windowStart clock
  windowEnd := windowEnd clock
  totals := eventTotals db.toTables clock
  eventsOverTime := eventBuckets db.toTables clock
  releases := distributionRows
    (limited (byLabel locale.collation) a (eventReleaseRows db.toTables clock))
  platforms := distributionRows
    (limited (byKey locale.collation) a (eventPlatformRows db.toTables clock))
  crashTypes := distributionRows
    (limited (byKey locale.collation) a (eventCrashTypeRows locale db.toTables clock))
  symbolication := eventSymbolication db.toTables clock
  ingest := eventIngest db.toTables clock
  states := (distributionRows
    (limited (byKey locale.collation) a (eventStateRows locale db.toTables))).values

def overviewFromRollups : ProjectOverview where
  windowStart := windowStart clock
  windowEnd := windowEnd clock
  totals := rollupTotals db clock
  eventsOverTime := rollupBuckets db clock
  releases := distributionRows
    (limited (byLabel locale.collation) a (rollupRows locale (windowRows db clock .release)))
  platforms := distributionRows (limited (byKey locale.collation) a
    (rollupRows locale (windowRows db clock .platformArchitecture)))
  crashTypes := distributionRows
    (limited (byKey locale.collation) a (rollupRows locale (windowRows db clock .crashType)))
  symbolication := rollupSymbolication db clock
  ingest := rollupIngest db clock
  states := (distributionRows (limited (byKey locale.collation) a
    (rollupRows locale (dimensionRows db .processingState)))).values

/-- `load_overview`. -/
def loadOverview (rollupsEnabled : Bool) : ProjectOverview :=
  if rollupsEnabled then overviewFromRollups locale a db clock
  else overviewFromEvents locale a db clock

end overview
end FaultLane.DashboardOverview
