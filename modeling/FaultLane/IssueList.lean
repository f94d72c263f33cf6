import FaultLane.DailyRollups
import FaultLane.GroupingDigest
import FaultLane.JsonTexts
import FaultLane.KeysetPage
import FaultLane.RowTexts

set_option autoImplicit false

/-!
# The issue list

`list_issues` over the tables of all projects, with its filters, the text search and the cursors
that it hands out. The actor has been authorized. What other programs compute is taken as given.
-/
namespace FaultLane.IssueList
open Fallible RustText RowTexts JsonTexts KeyedTable
open DailyRollups (ProcessingState SymbolicationState RegressionState)
open Grouping (lowerHex)

def defaultPageSize : Nat := 50
def maxPageSize : Nat := 100
def maxCursorBytes : Nat := 1024
def maxSearchBytes : Nat := 120

/-! ## Requests and answers -/

structure IssueFilterIdentity where
  status : Option Text := none
  regressionState : Option Text := none
  releaseId : Option Text := none
  crashType : Option Text := none
  platform : Option Text := none
  architecture : Option Text := none
  engineVersion : Option Text := none
  symbolicationState : Option Text := none
  contextKey : Option Text := none
  contextValue : Option Text := none
  firstSeenFrom : Option Text := none
  firstSeenTo : Option Text := none
  lastSeenFrom : Option Text := none
  lastSeenTo : Option Text := none
  query : Option Text := none
  deriving DecidableEq

/-- The filters of a query are what identifies them. -/
structure IssueListQuery extends IssueFilterIdentity where
  cursor : Option Text := none
  limit : Option Nat := none

structure IssueCursor where
  version : UInt8
  projectId : Text
  filterHash : Text
  lastSeenAt : Text
  issueId : Text
  deriving DecidableEq

structure IssueSummary where
  issueId : Text
  path : Text
  title : Text
  fingerprintAlgorithm : Text
  fingerprintVersion : Int
  fingerprint : Text
  status : Text
  regressionState : Text
  firstSeenAt : Text
  lastSeenAt : Text
  eventCount : Nat
  representativeEventId : Text
  firstReleaseId : Option Text
  lastReleaseId : Option Text
  resolvedInReleaseId : Option Text
  resolvedAt : Option Text
  affectedReleaseCount : Nat
  deriving DecidableEq

structure IssueListResponse where
  items : List IssueSummary
  nextCursor : Option Text
  deriving DecidableEq

inductive IssueError where
  | invalidRequest
  | forbidden
  | notFound
  | unavailable
  | internal
  deriving DecidableEq, Repr

/-- What the authorization leaves of the actor. The project is named as the path names it. -/
structure ProjectScope where
  organization : Uuid
  projectId : Text
  valid : validUuid projectId = true

/-! ## What other programs compute -/

/-- The text search of the database. -/
structure TextSearch where
  Vector : Type
  Query : Type
  toTsvector : Text → Vector
  plaintoTsquery : Text → Query
  numnode : Query → Nat
  /-- `@@` -/
  found : Vector → Query → Bool

structure Services where
  sha256 : List UInt8 → List UInt8
  /-- `URL_SAFE_NO_PAD.encode` -/
  encode : List UInt8 → Text
  decode : Text → Option (List UInt8)
  /-- `serde_json::from_slice` -/
  fromSlice : List UInt8 → Option IssueCursor
  /-- `OffsetDateTime::parse(_, &Rfc3339)`, in nanoseconds. -/
  parse : Text → Option Int
  /-- `::timestamptz` -/
  timestamptz : Text → Option Timestamp
  search : TextSearch

/-! ## Tables -/

inductive IssueStatus where
  | «open»
  | resolved
  deriving DecidableEq, Repr

def IssueStatus.text : IssueStatus → Text
  | .open => "open".toList
  | .resolved => "resolved".toList

def regressionText : RegressionState → Text
  | .new => "new".toList
  | .ongoing => "ongoing".toList
  | .resolved => "resolved".toList
  | .regressed => "regressed".toList
  | .unknown => "unknown".toList

/-- The columns that the rows of a project have in common. -/
structure Owner where
  organization : Uuid
  project : Uuid
  deriving DecidableEq

structure Issue (search : TextSearch) where
  id : Uuid
  owner : Owner
  fingerprintAlgorithm : Text
  fingerprintVersion : Int
  fingerprint : Text
  title : Text
  status : IssueStatus
  regressionState : RegressionState
  firstSeenAt : Timestamp
  lastSeenAt : Timestamp
  eventCount : Nat
  representativeEventId : Uuid
  firstReleaseId : Option Uuid
  lastReleaseId : Option Uuid
  resolvedInReleaseId : Option Uuid
  resolvedAt : Option Timestamp
  searchVector : Option search.Vector

structure CrashEvent where
  id : Uuid
  owner : Owner
  issueId : Option Uuid
  releaseId : Option Uuid
  processingState : ProcessingState
  currentResultId : Option Uuid
  deriving DecidableEq

structure CrashEventSearch (search : TextSearch) where
  owner : Owner
  eventId : Uuid
  resultId : Uuid
  searchText : Text
  crashType : Option Text
  platform : Option Text
  architecture : Option Text
  engineVersion : Option Text
  symbolicationState : SymbolicationState
  searchVector : Option search.Vector

structure ContextFacet where
  owner : Owner
  eventId : Uuid
  resultId : Uuid
  key : Text
  value : Text
  deriving DecidableEq

structure IssueRelease where
  owner : Owner
  issueId : Uuid
  releaseId : Uuid
  deriving DecidableEq

structure Tables (search : TextSearch) where
  issues : Table (@Issue.id search)
  crashEvents : List CrashEvent
  crashEventSearch : List (CrashEventSearch search)
  contextFacets : List ContextFacet
  issueReleases : List IssueRelease

/-! ## Validation -/

def isFilterTokenChar (c : Char) : Bool :=
  (0x61 ≤ c.toNat && c.toNat ≤ 0x7A) || isAsciiDigit c || "_-+.".toList.contains c

def validFilterToken (value : Text) (maximum : Nat) : Bool :=
  !value.isEmpty && byteLength value ≤ maximum && value.all isFilterTokenChar

def validFilterText (value : Text) (maximum : Nat) : Bool :=
  !value.isEmpty && byteLength value ≤ maximum && !value.any isControl

def validContextKey (value : Text) : Bool :=
  !value.isEmpty && byteLength value ≤ 128 &&
    value.all fun c => isAsciiAlphanumeric c || c == '_' || c == '-' || c == '.'

def validTimeRange (parse : Text → Option Int) : Option Text → Option Text → Bool
  | some since, some until_ =>
    match parse since, parse until_ with
    | some s, some u => s < u
    | _, _ => false
  | _, _ => true

section requests
variable (s : Services)

/-- The times among the filters. -/
def IssueFilterIdentity.times (f : IssueFilterIdentity) : List Text :=
  [f.firstSeenFrom, f.firstSeenTo, f.lastSeenFrom, f.lastSeenTo].filterMap id

local instance lawfulBEq_chars : LawfulBEq (List Char) := inferInstance

/-- The checks of `validate_list_query`. -/
def validListQuery (query : IssueListQuery) : Bool :=
  query.limit.all (fun limit => limit ≠ 0 && limit ≤ maxPageSize) &&
  query.cursor.all (fun value => !value.isEmpty && byteLength value ≤ maxCursorBytes * 2) &&
  query.releaseId.all validUuid &&
  query.status.all (fun value => value ∈ ["open".toList, "resolved".toList]) &&
  query.regressionState.all (fun value => value ∈
    ["new".toList, "ongoing".toList, "resolved".toList, "regressed".toList, "unknown".toList]) &&
  ([query.crashType, query.platform, query.architecture].filterMap id).all
    (fun value => validFilterToken value 64) &&
  query.engineVersion.all (fun value => validFilterText value 128) &&
  query.symbolicationState.all (fun value => value ∈
    ["readable".toList, "partial".toList, "missing".toList, "failed".toList,
      "processing".toList]) &&
  query.contextKey.isSome == query.contextValue.isSome &&
  query.contextKey.all validContextKey &&
  query.contextValue.all
    (fun value => !value.isEmpty && value.length ≤ 512 && !value.any isControl) &&
  query.times.all (fun value => (s.parse value).isSome) &&
  validTimeRange s.parse query.firstSeenFrom query.firstSeenTo &&
  validTimeRange s.parse query.lastSeenFrom query.lastSeenTo &&
  query.query.all (fun value => validFilterText value maxSearchBytes)

def validateListQuery (query : IssueListQuery) : Except IssueError IssueListQuery :=
  if validListQuery s query then .ok query else .error .invalidRequest

def dashboardFiltersRequested (query : IssueListQuery) : Bool :=
  query.crashType.isSome || query.platform.isSome || query.architecture.isSome ||
    query.engineVersion.isSome || query.symbolicationState.isSome || query.contextKey.isSome ||
    query.firstSeenFrom.isSome || query.firstSeenTo.isSome || query.lastSeenFrom.isSome ||
    query.lastSeenTo.isSome || query.query.isSome

/-! ## Cursors -/

def IssueFilterIdentity.fields (f : IssueFilterIdentity) : List (Text × Option Text) :=
  [("status".toList, f.status), ("regression_state".toList, f.regressionState),
    ("release_id".toList, f.releaseId), ("crash_type".toList, f.crashType),
    ("platform".toList, f.platform), ("architecture".toList, f.architecture),
    ("engine_version".toList, f.engineVersion),
    ("symbolication_state".toList, f.symbolicationState), ("context_key".toList, f.contextKey),
    ("context_value".toList, f.contextValue), ("first_seen_from".toList, f.firstSeenFrom),
    ("first_seen_to".toList, f.firstSeenTo), ("last_seen_from".toList, f.lastSeenFrom),
    ("last_seen_to".toList, f.lastSeenTo), ("query".toList, f.query)]

/-- `serde_json::to_vec(&identity)`. -/
def IssueFilterIdentity.toVec (f : IssueFilterIdentity) : List UInt8 :=
  utf8 (String.ofList (object (fieldTexts optional f.fields)))

def issueFilterHash (query : IssueListQuery) : Text :=
  (lowerHex (s.sha256 query.toVec)).toList

def IssueCursor.json (c : IssueCursor) : Text :=
  object [("version".toList, (toString c.version).toList), ("project_id".toList, quote c.projectId),
    ("filter_hash".toList, quote c.filterHash), ("last_seen_at".toList, quote c.lastSeenAt),
    ("issue_id".toList, quote c.issueId)]

/-- `serde_json::to_vec(&cursor)`. -/
def IssueCursor.toVec (c : IssueCursor) : List UInt8 := utf8 (String.ofList c.json)

def encodeIssueCursor (cursor : IssueCursor) : Except IssueError Text := do
  refuse (maxCursorBytes < cursor.toVec.length) .internal
  return s.encode cursor.toVec

def decodeIssueCursor (value projectId filterHash : Text) : Except IssueError IssueCursor := do
  refuse (value.isEmpty ∨ maxCursorBytes * 2 < byteLength value) .invalidRequest
  let bytes ← okOr (s.decode value) .invalidRequest
  refuse (maxCursorBytes < bytes.length) .invalidRequest
  let cursor ← okOr (s.fromSlice bytes) .invalidRequest
  refuse (cursor.version ≠ 1 ∨ cursor.projectId ≠ projectId ∨ cursor.filterHash ≠ filterHash ∨
    ¬ validUuid cursor.issueId ∨ s.parse cursor.lastSeenAt = none) .invalidRequest
  return cursor

end requests

/-! ## The statement -/

/-- The position of an issue in the list. -/
abbrev IssueKey := Timestamp ×ₗ Uuid

def Issue.key {search : TextSearch} (i : Issue search) : IssueKey := toLex (i.lastSeenAt, i.id)

/-- `ORDER BY i.last_seen_at DESC, i.id DESC`. -/
def sorted {search : TextSearch} (issues : List (Issue search)) : List (Issue search) :=
  issues.insertionSort fun i j => j.key ≤ i.key

/-- The parameters of the statement that are cast. -/
structure Casts where
  owner : Owner
  cursor : Option IssueKey
  releaseId : Option Uuid
  firstSeenFrom : Option Timestamp
  firstSeenTo : Option Timestamp
  lastSeenFrom : Option Timestamp
  lastSeenTo : Option Timestamp

/-- A text that cannot be cast fails the statement. -/
def castOptional {α : Type} (cast : Text → Option α) : Option Text → Option (Option α)
  | none => some none
  | some value => (cast value).map some

section statement
variable {s : Services}

def castCursor (s : Services) : Option IssueCursor → Option (Option IssueKey)
  | none => some none
  | some c => do
    let lastSeenAt ← s.timestamptz c.lastSeenAt
    let issueId ← readUuid c.issueId
    return some (toLex (lastSeenAt, issueId))

def casts (s : Services) (scope : ProjectScope) (f : IssueFilterIdentity)
    (cursor : Option IssueCursor) : Option Casts := do
  let project ← readUuid scope.projectId
  let cursor ← castCursor s cursor
  let releaseId ← castOptional readUuid f.releaseId
  let firstSeenFrom ← castOptional s.timestamptz f.firstSeenFrom
  let firstSeenTo ← castOptional s.timestamptz f.firstSeenTo
  let lastSeenFrom ← castOptional s.timestamptz f.lastSeenFrom
  let lastSeenTo ← castOptional s.timestamptz f.lastSeenTo
  return ⟨⟨scope.organization, project⟩, cursor, releaseId, firstSeenFrom, firstSeenTo,
    lastSeenFrom, lastSeenTo⟩

variable (db : Tables s.search) (owner : Owner)

/-- `document JOIN crash_events event`, by the issue of the event. -/
def documents : List (CrashEventSearch s.search × Uuid) :=
  (db.crashEventSearch.filter fun d => d.owner = owner).flatMap fun d =>
    (db.crashEvents.filter fun e => e.owner = d.owner ∧ e.id = d.eventId ∧
      e.currentResultId = some d.resultId).filterMap fun e => e.issueId.map fun i => (d, i)

/-- `matched_issues`. A vector that is not there yet is made of the text. -/
def matchedIssues (text : Text) : List Uuid :=
  let q := s.search.plaintoTsquery text
  if s.search.numnode q = 0 then []
  else
    ((db.issues.rows.filter fun i => i.owner = owner ∧
      s.search.found (i.searchVector.getD (s.search.toTsvector i.title)) q).map Issue.id) ++
    ((documents db owner).filter fun d =>
      s.search.found (d.1.searchVector.getD (s.search.toTsvector d.1.searchText)) q).map Prod.snd

/-- `LEFT JOIN crash_event_search s`. -/
def searchRow (e : CrashEvent) : Option (CrashEventSearch s.search) :=
  db.crashEventSearch.find? fun d => d.owner = e.owner ∧ d.eventId = e.id ∧
    e.currentResultId = some d.resultId

def symbolicationText (e : CrashEvent) (row : Option (CrashEventSearch s.search)) : Text :=
  if e.processingState = .failed ∨ e.processingState = .quarantined then "failed".toList
  else
    match row with
    | some d => d.symbolicationState.text
    | none =>
      if e.processingState = .awaitingSymbols then "missing".toList else "processing".toList

/-- The condition on an event of the issue. -/
def eventMatches (f : IssueFilterIdentity) (releaseId : Option Uuid) (e : CrashEvent) : Bool :=
  let row := searchRow db e
  releaseId.all (fun r => e.releaseId = some r) &&
  f.crashType.all (fun v => row.bind CrashEventSearch.crashType = some v) &&
  f.platform.all (fun v => row.bind CrashEventSearch.platform = some v) &&
  f.architecture.all (fun v => row.bind CrashEventSearch.architecture = some v) &&
  f.engineVersion.all (fun v => row.bind CrashEventSearch.engineVersion = some v) &&
  f.symbolicationState.all (fun v => symbolicationText e row = v) &&
  f.contextKey.all (fun key => db.contextFacets.any fun c => c.owner = e.owner ∧ c.eventId = e.id ∧
    e.currentResultId = some c.resultId ∧ c.key = key ∧ f.contextValue = some c.value)

/-- The `WHERE` clause, but for the cursor. -/
def matchesFilters (f : IssueFilterIdentity) (c : Casts) (i : Issue s.search) : Bool :=
  i.owner = c.owner &&
  f.status.all (fun v => i.status.text = v) &&
  f.regressionState.all (fun v => regressionText i.regressionState = v) &&
  c.firstSeenFrom.all (fun t => t ≤ i.firstSeenAt) &&
  c.firstSeenTo.all (fun t => i.firstSeenAt < t) &&
  c.lastSeenFrom.all (fun t => t ≤ i.lastSeenAt) &&
  c.lastSeenTo.all (fun t => i.lastSeenAt < t) &&
  ((c.releaseId.isNone && f.crashType.isNone && f.platform.isNone && f.architecture.isNone &&
      f.engineVersion.isNone && f.symbolicationState.isNone && f.contextKey.isNone) ||
    db.crashEvents.any fun e => e.owner = i.owner ∧ e.issueId = some i.id ∧
      eventMatches db f c.releaseId e) &&
  f.query.all (fun text => i.id ∈ matchedIssues db c.owner text)

def selectIssues (f : IssueFilterIdentity) (c : Casts) (limit : Nat) : List (Issue s.search) :=
  (sorted (db.issues.rows.filter fun i =>
    (∀ k ∈ c.cursor, i.key < k) ∧ matchesFilters db f c i)).take (limit + 1)

def issueSummary (projectId : Text) (i : Issue s.search) : IssueSummary where
  issueId := uuidText i.id
  path := "/api/v1/projects/".toList ++ projectId ++ "/issues/".toList ++ uuidText i.id
  title := i.title
  fingerprintAlgorithm := i.fingerprintAlgorithm
  fingerprintVersion := i.fingerprintVersion
  fingerprint := i.fingerprint
  status := i.status.text
  regressionState := regressionText i.regressionState
  firstSeenAt := toChar i.firstSeenAt
  lastSeenAt := toChar i.lastSeenAt
  eventCount := i.eventCount
  representativeEventId := uuidText i.representativeEventId
  firstReleaseId := i.firstReleaseId.map uuidText
  lastReleaseId := i.lastReleaseId.map uuidText
  resolvedInReleaseId := i.resolvedInReleaseId.map uuidText
  resolvedAt := i.resolvedAt.map toChar
  affectedReleaseCount :=
    db.issueReleases.countP fun r => r.owner = i.owner ∧ r.issueId = i.id

end statement

/-! ## The handler -/

def decodeCursor (s : Services) (projectId filterHash : Text) :
    Option Text → Except IssueError (Option IssueCursor)
  | none => .ok none
  | some value => do
    let cursor ← decodeIssueCursor s value projectId filterHash
    return some cursor

def nextCursor (s : Services) (projectId filterHash : Text) (hasNext : Bool)
    (items : List IssueSummary) : Except IssueError (Option Text) :=
  match hasNext, items.getLast? with
  | true, some issue => do
    let text ← encodeIssueCursor s ⟨1, projectId, filterHash, issue.lastSeenAt, issue.issueId⟩
    return some text
  | _, _ => .ok none

def listIssues (s : Services) (dashboardEnabled : Bool) (db : Tables s.search)
    (scope : ProjectScope) (query : IssueListQuery) : Except IssueError IssueListResponse := do
  let query ← validateListQuery s query
  refuse (dashboardFiltersRequested query ∧ ¬ dashboardEnabled) .notFound
  let limit := query.limit.getD defaultPageSize
  let filterHash := issueFilterHash s query
  let cursor ← decodeCursor s scope.projectId filterHash query.cursor
  let parameters ← okOr (casts s scope query.toIssueFilterIdentity cursor) .internal
  let rows := selectIssues db query.toIssueFilterIdentity parameters limit
  let items := (rows.map (issueSummary db scope.projectId)).take limit
  let next ← nextCursor s scope.projectId filterHash (decide (limit < rows.length)) items
  return ⟨items, next⟩

end FaultLane.IssueList
