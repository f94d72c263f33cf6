import FaultLane.IssueList
import FaultLane.TransitionSystem
import FaultLane.UsageRows

set_option autoImplicit false

/-!
# Alert evaluation

The evaluation of one alert rule with the statements between which the tables change: the pages
of issues or the one observation of the other conditions, the transitions of their scopes, and
the recoveries. Times are in microseconds, the tables those of the rule's project.
-/
namespace FaultLane.AlertEvaluation
open KeyedTable SortDedup RustText RowTexts JsonTexts
open DailyRollups (ProcessingState RegressionState)
open IssueList (IssueStatus)
open Usage (Cycle CycleCounters UsagePolicy)

def maxPayloadBytes : Nat := 16 * 1024
def alertIssuePageSize : Nat := 1000
def alertRecoveryPageSize : Nat := 1000

def microseconds : Nat := 1000000

/-- `date_trunc('month', now() AT TIME ZONE 'UTC')::date`, as a count of months. -/
def cycleStart (now : Nat) : Cycle :=
  let day := now / (86400 * microseconds) + 719468
  let era := day / 146097
  let dayOfEra := day % 146097
  let yearOfEra := (dayOfEra - dayOfEra / 1460 + dayOfEra / 36524 - dayOfEra / 146096) / 365
  let dayOfYear := dayOfEra - (365 * yearOfEra + yearOfEra / 4 - yearOfEra / 100)
  (era * 400 + yearOfEra) * 12 + (5 * dayOfYear + 2) / 153 + 2

/-! ## Tables -/

structure Issue where
  id : Uuid
  title : Text
  status : IssueStatus
  regressionState : RegressionState
  firstSeenAt : Nat
  eventCount : Nat
  updatedAt : Nat
  deriving DecidableEq

structure Event where
  id : Uuid
  environment : Text
  receivedAt : Nat
  processingState : ProcessingState
  issueId : Option Uuid
  deriving DecidableEq

/-- What the statements of an evaluation read of the project. -/
structure Data where
  issues : Table Issue.id
  events : Table Event.id
  policy : Option UsagePolicy
  counters : Table CycleCounters.cycleStart

/-- The accepted events of the current cycle. -/
def Data.acceptedEvents (d : Data) (now : Nat) : Nat :=
  ((d.counters.find (cycleStart now)).map CycleCounters.acceptedEvents).getD 0

def Issue.counting (i : Issue) (event : Event) (now : Nat) : Issue :=
  { i with
    firstSeenAt := min i.firstSeenAt event.receivedAt
    eventCount := i.eventCount + 1
    updatedAt := now }

def Event.grouped (e : Event) (issueId : Uuid) : Event := { e with issueId := some issueId }

/-- The assignment of an event to an issue that is there, at the time of its transaction. -/
def Data.assignIssue (d : Data) (now : Nat) (event : Event) (issueId : Uuid) : Data :=
  { d with
    issues := d.issues.modify issueId (·.counting event now) fun _ => rfl
    events := d.events.modify event.id (·.grouped issueId) fun _ => rfl }

/-! ## Rules -/

inductive ConditionKind where
  | firstSeen
  | regression
  | volume
  | missingSymbols
  | processingFailure
  | ingestSilence
  | quota
  deriving DecidableEq, Repr

def ConditionKind.text : ConditionKind → Text
  | .firstSeen => "first_seen".toList
  | .regression => "regression".toList
  | .volume => "volume".toList
  | .missingSymbols => "missing_symbols".toList
  | .processingFailure => "processing_failure".toList
  | .ingestSilence => "ingest_silence".toList
  | .quota => "quota".toList

structure RuleEvaluation where
  id : Uuid
  projectId : Text
  projectName : Text
  conditionKind : ConditionKind
  environment : Text
  threshold : Option Nat
  windowSeconds : Option Nat
  createdAt : Nat
  deriving DecidableEq

/-! ## Payloads -/

structure Payload where
  condition : Text
  projectId : Text
  projectName : Text
  environment : Text
  issueId : Option Uuid
  issueTitle : Option Text
  count : Nat
  url : Text
  transition : Option Text
  occurredAt : Option Text
  deriving DecidableEq

/-- `serde_json::to_vec`, in the order of the keys. -/
def Payload.text (p : Payload) : Text :=
  object <|
    [("condition".toList, quote p.condition), ("count".toList, (toString p.count).toList),
      ("environment".toList, quote p.environment),
      ("issue_id".toList, optional (p.issueId.map uuidText)),
      ("issue_title".toList, optional p.issueTitle)] ++
    p.occurredAt.toList.map (fun t => ("occurred_at".toList, quote t)) ++
    [("project_id".toList, quote p.projectId), ("project_name".toList, quote p.projectName)] ++
    p.transition.toList.map (fun t => ("transition".toList, quote t)) ++
    [("url".toList, quote p.url)]

def issueScope (id : Uuid) : Text := "issue:".toList ++ uuidText id
def projectScope (environment : Text) : Text := "project:".toList ++ environment
def quotaScope (environment : Text) : Text := "quota:".toList ++ environment

theorem issueScope_injective : Function.Injective issueScope := by
  intro a b h
  exact uuidText_strictMono.injective (List.append_cancel_left h)

theorem projectScope_ne (environment : Text) (id : Uuid) :
    projectScope environment ≠ issueScope id := fun h => absurd (List.cons.inj h).1 (by decide)

theorem quotaScope_ne (environment : Text) (id : Uuid) :
    quotaScope environment ≠ issueScope id := fun h => absurd (List.cons.inj h).1 (by decide)

/-- A scope with its payload, which names an issue when the scope does. -/
structure Observation where
  scopeKey : Text
  payload : Payload
  names : ∀ id, payload.issueId = some id ↔ scopeKey = issueScope id

def basePayload (publicBaseUrl : Text) (rule : RuleEvaluation) (issueId : Option Uuid)
    (issueTitle : Option Text) (count : Nat) : Payload :=
  let base := (publicBaseUrl.reverse.dropWhile (· = '/')).reverse
  { condition := rule.conditionKind.text
    projectId := rule.projectId
    projectName := rule.projectName
    environment := rule.environment
    issueId := issueId
    issueTitle := issueTitle
    count := count
    url := match issueId with
      | none => base ++ "/projects/".toList ++ rule.projectId
      | some id => base ++ "/projects/".toList ++ rule.projectId ++ "/issues/".toList ++ uuidText id
    transition := none
    occurredAt := none }

def projectObservation (publicBaseUrl : Text) (rule : RuleEvaluation) (count : Nat) :
    Observation where
  scopeKey := projectScope rule.environment
  payload := basePayload publicBaseUrl rule none none count
  names id := ⟨nofun, fun h => absurd h (projectScope_ne _ id)⟩

def quotaScopeObservation (publicBaseUrl : Text) (rule : RuleEvaluation) (count : Nat) :
    Observation where
  scopeKey := quotaScope rule.environment
  payload := basePayload publicBaseUrl rule none none count
  names id := ⟨nofun, fun h => absurd h (quotaScope_ne _ id)⟩

/-! ## Issues -/

abbrev Cursor := Nat ×ₗ Uuid

structure IssueObservation where
  sortAt : Nat
  issueId : Uuid
  observation : Observation

def IssueObservation.cursor (o : IssueObservation) : Cursor := toLex (o.sortAt, o.issueId)

section issues
variable (publicBaseUrl : Text) (rule : RuleEvaluation) (regression : Bool) (d : Data)

/-- The predicate of the pages and of the recovery. -/
def RuleEvaluation.selects (i : Issue) : Prop :=
  i.status = .open ∧
    (if regression then i.regressionState = .regressed else rule.createdAt ≤ i.firstSeenAt) ∧
    ∃ e ∈ d.events.rows, e.environment = rule.environment ∧ e.issueId = some i.id

instance (i : Issue) : Decidable (rule.selects regression d i) := by
  unfold RuleEvaluation.selects
  infer_instance

def Issue.sortAt (i : Issue) : Nat := if regression then i.updatedAt else i.firstSeenAt

def Issue.position (i : Issue) : Cursor := toLex (i.sortAt regression, i.id)

def issueObservation (i : Issue) : IssueObservation where
  sortAt := i.sortAt regression
  issueId := i.id
  observation :=
    { scopeKey := issueScope i.id
      payload := basePayload publicBaseUrl rule (some i.id) (some i.title) i.eventCount
      names _ := ⟨fun h => congrArg issueScope (Option.some.inj h),
        fun h => congrArg some (issueScope_injective h)⟩ }

/-- The rows behind the cursor in their order, without the limit. -/
def issuesBehind (cursor : Option Cursor) : List Issue :=
  sortBy (Issue.position regression) (d.issues.rows.filter fun i =>
    rule.selects regression d i ∧ ∀ c ∈ cursor, c < i.position regression)

def issueObservationsPage (cursor : Option Cursor) : List IssueObservation :=
  ((issuesBehind rule regression d cursor).take alertIssuePageSize).map
    (issueObservation publicBaseUrl rule regression)

end issues

/-! ## Other conditions -/

section observations
variable (publicBaseUrl : Text) (rule : RuleEvaluation) (d : Data) (now : Nat)

def Data.eventsOf (environment : Text) : List Event :=
  d.events.rows.filter fun e => e.environment = environment

def volumeObservation : Option (List Observation) := do
  let window ← rule.windowSeconds
  let count := ((d.eventsOf rule.environment).filter fun e =>
    now ≤ e.receivedAt + window * microseconds).length
  let threshold ← rule.threshold
  some (if threshold ≤ count then [projectObservation publicBaseUrl rule count] else [])

def processingObservation (missingSymbols : Bool) : List Observation :=
  let count := ((d.eventsOf rule.environment).filter fun e =>
    if missingSymbols then e.processingState = .awaitingSymbols
    else e.processingState = .failed ∨ e.processingState = .quarantined).length
  if 0 < count then [projectObservation publicBaseUrl rule count] else []

/-- The statement reads the rule's `created_at` again, which no statement changes. -/
def silenceObservation : Option (List Observation) := do
  let window ← rule.windowSeconds
  let last := (((d.eventsOf rule.environment).map Event.receivedAt).max?).getD rule.createdAt
  some (if last + window * microseconds < now then [projectObservation publicBaseUrl rule window]
    else [])

def quotaObservation : Option (List Observation) := do
  let policy ← d.policy
  let accepted := d.acceptedEvents now
  let threshold ← rule.threshold
  let active :=
    if threshold = 101 then policy.courtesyLimit < accepted
    else policy.eventLimit * threshold ≤ (accepted : Int) * 100
  some (if active then [quotaScopeObservation publicBaseUrl rule accepted] else [])

/-- The observations of `evaluate_rule` for the kinds that are not about issues. -/
def observe : Option (List Observation) :=
  match rule.conditionKind with
  | .volume => volumeObservation publicBaseUrl rule d now
  | .missingSymbols => some (processingObservation publicBaseUrl rule d true)
  | .processingFailure => some (processingObservation publicBaseUrl rule d false)
  | .ingestSilence => silenceObservation publicBaseUrl rule d now
  | .quota => quotaObservation publicBaseUrl rule d now
  | .firstSeen | .regression => none

end observations

/-! ## Condition states -/

structure ConditionState where
  ruleId : Uuid
  observation : Observation
  active : Bool
  generation : Nat

abbrev ConditionState.key (c : ConditionState) : Uuid × Text := (c.ruleId, c.observation.scopeKey)

/-- What an evaluation does when no transition is pending. -/
inductive Stage where
  | observe
  | page (cursor : Option Cursor)
  | recoverIssues
  | recoverAbsent (activeScopes : List Text)
  | finished

/-- An evaluation with the scopes that it is about to trigger or to recover. -/
structure Run where
  rule : RuleEvaluation
  active : Bool
  pending : List Observation
  stage : Stage

structure State where
  publicBaseUrl : Text
  now : Nat
  data : Data
  conditions : Table ConditionState.key
  run : Option Run

def regressionKind (rule : RuleEvaluation) : Bool := rule.conditionKind = .regression

/-- An evaluation at its start. -/
def Run.start (rule : RuleEvaluation) : Run where
  rule := rule
  active := true
  pending := []
  stage := match rule.conditionKind with
    | .firstSeen | .regression => .page none
    | _ => .observe

section steps
variable (s : State) (rule : RuleEvaluation)

def State.write (c : ConditionState) : State :=
  { s with conditions := (s.conditions.delete c.key).insert c }

def Payload.announcing (p : Payload) (active : Bool) (occurredAt : Text) : Payload :=
  { p with
    transition := some (if active then "triggered".toList else "recovered".toList)
    occurredAt := some occurredAt }

/-- An observation with the payload of its transition, when that is small enough. -/
def Observation.transitioned (o : Observation) (active : Bool) (occurredAt : Text) :
    Option Observation :=
  if maxPayloadBytes < byteLength (o.payload.announcing active occurredAt).text then none
  else some { o with payload := o.payload.announcing active occurredAt }

/-- The transaction of `transition_condition` on the condition state. -/
def State.transitionCondition (o : Observation) (active : Bool) (occurredAt : Text) :
    Option State :=
  if o.scopeKey.isEmpty ∨ 200 < byteLength o.scopeKey then none
  else
    match s.conditions.find (rule.id, o.scopeKey) with
    | some c =>
      if c.active = active then some (s.write ⟨rule.id, o, active, c.generation⟩)
      else do
        let o ← o.transitioned active occurredAt
        some (s.write ⟨rule.id, o, active, c.generation + 1⟩)
    | none =>
      if active then do
        let o ← o.transitioned active occurredAt
        some (s.write ⟨rule.id, o, active, 1⟩)
      else some s

def State.activeStates : List ConditionState :=
  s.conditions.rows.filter fun c => c.ruleId = rule.id ∧ c.active

/-- The rows that `recover_issue_conditions` selects, without the limit. -/
def State.unmatchedStates : List ConditionState :=
  sortBy (fun c => c.observation.scopeKey) ((s.activeStates rule).filter fun c =>
    ¬∃ i ∈ s.data.issues.rows, c.observation.payload.issueId = some i.id ∧
      rule.selects (regressionKind rule) s.data i)

def State.enter (active : Bool) (pending : List Observation) (stage : Stage) : State :=
  { s with run := some ⟨rule, active, pending, stage⟩ }

local instance lawfulBEq_chars : LawfulBEq (List Char) := inferInstance

/-- The next select of `evaluate_rule`, when no transition is pending. -/
def State.select : Stage → Option State
  | .observe => do
    let observations ← observe s.publicBaseUrl rule s.data s.now
    some (s.enter rule true observations
      (.recoverAbsent (observations.map Observation.scopeKey)))
  | .page cursor =>
    let observations :=
      issueObservationsPage s.publicBaseUrl rule (regressionKind rule) s.data cursor
    let next :=
      if observations.length < alertIssuePageSize then .recoverIssues
      else .page (observations.getLast?.map IssueObservation.cursor)
    some (s.enter rule true (observations.map IssueObservation.observation) next)
  | .recoverIssues =>
    let rows := (s.unmatchedStates rule).take alertRecoveryPageSize
    if rows.isEmpty then some (s.enter rule false [] .finished)
    else some (s.enter rule false (rows.map ConditionState.observation) .recoverIssues)
  | .recoverAbsent activeScopes =>
    let absent := (s.activeStates rule).filter fun c => c.observation.scopeKey ∉ activeScopes
    some (s.enter rule false (absent.map ConditionState.observation) .finished)
  | .finished => none

/-- The next statement of an evaluation, with the scheduler's clock. -/
def State.advance (run : Run) (occurredAt : Text) : Option State :=
  match run.pending with
  | o :: rest =>
    (s.transitionCondition run.rule o run.active occurredAt).map
      (·.enter run.rule run.active rest run.stage)
  | [] => s.select run.rule run.stage

end steps

/-! ## Runs -/

inductive Action where
  | tick (microseconds : Nat)
  | change (d : Data)
  | begin (rule : RuleEvaluation)
  | advance (occurredAt : Text)
  | leave

/-- One evaluation at a time, which the scheduler leaves at its end or after an error. -/
def step (s : State) : Action → Option State
  | .tick n => some { s with now := s.now + n }
  | .change d => some { s with data := d }
  | .begin rule => if s.run.isNone then some { s with run := some (.start rule) } else none
  | .advance occurredAt => do
    let run ← s.run
    s.advance run occurredAt
  | .leave => some { s with run := none }

end FaultLane.AlertEvaluation
