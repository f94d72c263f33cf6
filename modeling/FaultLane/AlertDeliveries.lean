import FaultLane.JobQueue
import FaultLane.KeyedTable
import FaultLane.SortDedup
import Mathlib.Data.Prod.Lex

set_option autoImplicit false

/-!
# Alert deliveries

The evaluations of alert conditions with the statements between which others come, and the
workers that claim and finish the deliveries. Times of the database are in microseconds.
-/
namespace FaultLane.AlertDeliveries
open KeyedTable SortDedup
open JobQueue (Uuid Lease)

def deliveryLeaseSeconds : Nat := 30

def microseconds : Nat := 1000000

/-! ## Rows -/

/-- What an alert is about: a rule and one of its scopes. -/
structure Scope where
  ruleId : Uuid
  scopeKey : String
  deriving DecidableEq, Repr

structure Condition where
  scope : Scope
  active : Bool
  generation : Nat
  deriving DecidableEq, Repr

inductive Transition where
  | triggered
  | recovered
  deriving DecidableEq, Repr

def Transition.into : Bool → Transition
  | true => .triggered
  | false => .recovered

inductive DeliveryState where
  | pending
  | leased (lease : Lease)
  | delivered
  | failed
  | dead
  | suppressed
  | unknown
  deriving DecidableEq, Repr

structure Delivery where
  id : Uuid
  scope : Scope
  generation : Nat
  transition : Transition
  state : DeliveryState
  attempt : Nat
  maxAttempt : Nat
  availableAt : Nat
  createdAt : Nat
  failureCode : Option String
  deliveredAt : Option Nat
  deriving DecidableEq, Repr

/-! ## Statements on a delivery -/

section delivery
variable (d : Delivery) (now : Nat)

/-- The row of the insert with the table's defaults, alone or suppressed with its trigger. -/
def Delivery.new (id : Uuid) (scope : Scope) (generation : Nat) (transition : Transition)
    (suppressedPair : Bool) (now delay : Nat) : Delivery where
  id := id
  scope := scope
  generation := generation
  transition := transition
  state := if suppressedPair then .suppressed else .pending
  attempt := 0
  maxAttempt := 3
  availableAt := now + delay * microseconds
  createdAt := now
  failureCode := if suppressedPair then some "quiet_recovered" else none
  deliveredAt := none

def Delivery.suppress : Delivery :=
  { d with state := .suppressed, failureCode := some "quiet_recovered" }

/-- The `WHERE` of `claim_delivery`. -/
def Delivery.claimable : Prop :=
  match d.state with
  | .pending | .failed => d.availableAt ≤ now ∧ d.attempt < d.maxAttempt
  | .leased lease => lease.expiresAt ≤ now
  | _ => False

instance : Decidable (d.claimable now) := by
  unfold Delivery.claimable
  split <;> infer_instance

/-- The order of the claims. -/
def Delivery.claimKey : Nat ×ₗ (Nat ×ₗ Nat) := toLex (d.availableAt, toLex (d.createdAt, d.id))

/-- A lease that expired with the last attempt. -/
def Delivery.exhausted : Prop :=
  match d.state with
  | .leased _ => d.maxAttempt ≤ d.attempt
  | _ => False

instance : Decidable d.exhausted := by
  unfold Delivery.exhausted
  split <;> infer_instance

def Delivery.reconciled : Delivery :=
  { d with state := .dead, failureCode := some "lease_expired_final" }

def Delivery.claimed (owner token : Uuid) : Delivery :=
  { d with
    state := .leased ⟨owner, token, now + deliveryLeaseSeconds * microseconds⟩
    attempt := d.attempt + 1
    failureCode := none }

inductive DeliveryResult where
  | ok
  | retryable (code : String)
  | permanent (code : String)
  | unknown (code : String)
  deriving DecidableEq, Repr

/-- `finish_delivery`, with the attempts that the claim returned. -/
def Delivery.finished (attempt maxAttempt : Nat) : DeliveryResult → Delivery
  | .ok =>
    { d with
      state := .delivered, availableAt := now, failureCode := none, deliveredAt := some now }
  | .retryable code =>
    if attempt < maxAttempt then
      { d with
        state := .failed
        availableAt := now + attempt * 15 * microseconds
        failureCode := some code }
    else { d with state := .dead, availableAt := now, failureCode := some code }
  | .permanent code => { d with state := .dead, availableAt := now, failureCode := some code }
  | .unknown code => { d with state := .unknown, availableAt := now, failureCode := some code }

end delivery

/-! ## Evaluations -/

/-- `quiet_delay_seconds` at a time of the scheduler's clock, in seconds of UTC. -/
def quietDelaySeconds (utc : Nat) : Option Nat → Option Nat → Nat
  | some start, some stop =>
    let minute := utc / 60 % 1440
    let quiet :=
      if start < stop then start ≤ minute ∧ minute < stop else start ≤ minute ∨ minute < stop
    if quiet then
      (if minute < stop then stop - minute else 1440 - minute + stop) * 60 - utc % 60
    else 0
  | _, _ => 0

/-- What the first statement of `transition_condition` returns. -/
inductive Reading where
  | unread
  | absent
  | row (c : Condition)
  deriving DecidableEq, Repr

def Reading.of : Option Condition → Reading
  | some c => .row c
  | none => .absent

def Reading.isRow : Reading → Bool
  | .row _ => true
  | _ => false

/-- A `transition_condition` with the time of its transaction. It holds the row that it reads. -/
structure Evaluation where
  id : Uuid
  scope : Scope
  active : Bool
  quietStartMinute : Option Nat
  quietEndMinute : Option Nat
  startedAt : Nat
  reading : Reading
  deriving DecidableEq, Repr

/-- What `claim_delivery` returns. -/
structure Claim where
  token : Uuid
  deliveryId : Uuid
  attempt : Nat
  maxAttempt : Nat
  deriving DecidableEq, Repr

structure State where
  now : Nat
  conditions : Table Condition.scope
  deliveries : Table Delivery.id
  evaluations : Table Evaluation.id
  claims : Table Claim.token

def State.init (now : Nat) : State := ⟨now, .empty, .empty, .empty, .empty⟩

section steps
variable (s : State)

def State.locked (scope : Scope) : Prop :=
  ∃ e ∈ s.evaluations.rows, e.scope = scope ∧ e.reading.isRow

instance (scope : Scope) : Decidable (s.locked scope) := inferInstanceAs (Decidable (∃ e ∈ _, _))

def State.finishEvaluation (e : Uuid) : State :=
  { s with evaluations := s.evaluations.delete e }

/-- The start of `transition_condition`, which refuses an empty or long scope key. -/
def beginEvaluation (e : Uuid) (scope : Scope) (active : Bool) (start stop : Option Nat) :
    Option State :=
  if scope.scopeKey.isEmpty ∨ 200 < scope.scopeKey.utf8ByteSize ∨
      (s.evaluations.find e).isSome then none
  else
    some { s with
      evaluations := s.evaluations.insert ⟨e, scope, active, start, stop, s.now, .unread⟩ }

/-- Its `SELECT … FOR UPDATE`, which locks nothing when there is no row. -/
def readCondition (e : Uuid) : Option State := do
  let x ← s.evaluations.find e
  if x.reading ≠ .unread ∨ s.locked x.scope then none
  else
    let reading := Reading.of (s.conditions.find x.scope)
    some { s with
      evaluations := s.evaluations.modify e (fun x => { x with reading := reading }) fun _ => rfl }

/-- The trigger that a recovery into a generation suppresses. -/
def Evaluation.suppresses (x : Evaluation) (generation : Nat) (d : Delivery) : Prop :=
  x.active = false ∧ d.scope = x.scope ∧ d.generation = generation - 1 ∧
    d.transition = .triggered ∧ d.state = .pending ∧ x.startedAt < d.availableAt

instance (x : Evaluation) (generation : Nat) (d : Delivery) :
    Decidable (x.suppresses generation d) :=
  inferInstanceAs (Decidable (_ ∧ _))

/-- The insert of a delivery, on whose unique columns a conflict does nothing. -/
def State.insertDelivery (deliveries : Table Delivery.id) (d : Delivery) : Table Delivery.id :=
  if ∃ x ∈ deliveries.rows, x.scope = d.scope ∧ x.generation = d.generation ∧
      x.transition = d.transition then deliveries
  else deliveries.insert d

/-- The statements of a transition. -/
def State.transition (x : Evaluation) (generation : Nat) (deliveryId : Uuid) (utc : Nat) : State :=
  let suppressedPair : Bool := decide (∃ d ∈ s.deliveries.rows, x.suppresses generation d)
  let delay := quietDelaySeconds utc x.quietStartMinute x.quietEndMinute
  let suppressed := s.deliveries.updateAll
    (fun d => if x.suppresses generation d then d.suppress else d) fun d => by split <;> rfl
  let condition : Condition := ⟨x.scope, x.active, generation⟩
  { s with
    conditions :=
      if (s.conditions.find x.scope).isSome then
        s.conditions.modify x.scope (fun c => { condition with scope := c.scope }) fun _ => rfl
      else s.conditions.insert condition
    deliveries := State.insertDelivery suppressed
      (.new deliveryId x.scope generation (.into x.active) suppressedPair x.startedAt delay) }

/-- The rest of `transition_condition`, with the id of a new delivery and the scheduler's clock. -/
def commitTransition (e deliveryId utc : Nat) : Option State := do
  let x ← s.evaluations.find e
  if (s.deliveries.find deliveryId).isSome then none
  else
    match x.reading with
    | .unread => none
    | .row c =>
      if c.active = x.active then some (s.finishEvaluation e)
      else some ((s.transition x (c.generation + 1) deliveryId utc).finishEvaluation e)
    | .absent =>
      if x.active then
        if s.locked x.scope then none
        else some ((s.transition x 1 deliveryId utc).finishEvaluation e)
      else some (s.finishEvaluation e)

/-- The deliveries that a claim considers, past those that other workers have locked. -/
def State.candidates (locked : List Uuid) : List Delivery :=
  sortBy Delivery.claimKey
    (s.deliveries.rows.filter fun d => d.claimable s.now ∧ d.id ∉ locked)

def State.putDelivery (id : Uuid) (d : Delivery) : Table Delivery.id :=
  s.deliveries.modify id (fun old => { d with id := old.id }) fun _ => rfl

/-- The delivery that a claim leases. -/
def State.claimed (locked : List Uuid) : Option Delivery :=
  (s.candidates locked).head?.filter fun d => ¬ d.exhausted

/-- One turn of `claim_delivery`: an expired last attempt is only reconciled. -/
def claimDelivery (locked : List Uuid) (owner token : Uuid) : Option State := do
  let d ← (s.candidates locked).head?
  if d.exhausted then some { s with deliveries := s.putDelivery d.id d.reconciled }
  else if (s.claims.find token).isSome then none
  else
    some { s with
      deliveries := s.putDelivery d.id (d.claimed s.now owner token)
      claims := s.claims.insert ⟨token, d.id, d.attempt + 1, d.maxAttempt⟩ }

/-- The delivery is still leased by this claim. -/
def Delivery.heldBy (d : Delivery) (token : Uuid) : Prop :=
  match d.state with
  | .leased lease => lease.token = token
  | _ => False

instance (d : Delivery) (token : Uuid) : Decidable (d.heldBy token) := by
  unfold Delivery.heldBy
  split <;> infer_instance

def finishDelivery (token : Uuid) (result : DeliveryResult) : Option State := do
  let c ← s.claims.find token
  let d ← s.deliveries.find c.deliveryId
  if d.heldBy token then
    some { s with
      deliveries := s.putDelivery d.id (d.finished s.now c.attempt c.maxAttempt result) }
  else none

end steps

/-! ## Runs -/

inductive Action where
  | tick (microseconds : Nat)
  | beginEvaluation (e : Uuid) (scope : Scope) (active : Bool) (start stop : Option Nat)
  | readCondition (e : Uuid)
  | commitTransition (e deliveryId utc : Nat)
  | abandonEvaluation (e : Uuid)
  | claimDelivery (locked : List Uuid) (owner token : Uuid)
  | finishDelivery (token : Uuid) (result : DeliveryResult)
  deriving DecidableEq, Repr

def step (s : State) : Action → Option State
  | .tick n => some { s with now := s.now + n }
  | .beginEvaluation e scope active start stop => beginEvaluation s e scope active start stop
  | .readCondition e => readCondition s e
  | .commitTransition e deliveryId utc => commitTransition s e deliveryId utc
  | .abandonEvaluation e => some (s.finishEvaluation e)
  | .claimDelivery locked owner token => claimDelivery s locked owner token
  | .finishDelivery token result => finishDelivery s token result

/-- An evaluation that has read no row inserts one only as long as there is none. -/
def InTurn (s : State) : Action → Prop
  | .commitTransition e _ _ => ∀ x ∈ s.evaluations.find e, x.reading = .absent →
      s.conditions.find x.scope = none
  | _ => True

instance (s : State) : DecidablePred (InTurn s)
  | .commitTransition _ _ _ => inferInstanceAs (Decidable (∀ x ∈ _, _))
  | .tick _ | .beginEvaluation .. | .readCondition _ | .abandonEvaluation _ | .claimDelivery ..
  | .finishDelivery .. => .isTrue trivial

end FaultLane.AlertDeliveries
