import FaultLane.DailyRollups
import FaultLane.RowVersions

set_option autoImplicit false

/-!
# Repairing daily rollups beside other transactions

The statements of a repair of one day and those of transactions that perform deltas, under READ
COMMITTED: a statement sees what was committed when it began, and waits where another transaction
has written the row that it writes.
-/
namespace FaultLane.RollupRepair
open KeyedTable LabelledTally RowVersions DailyRollups RustText JobQueue

/-! ## State -/

inductive Owner where
  | transaction (id : Nat)
  | repair
  deriving DecidableEq

/-- An open transaction. The rows of other tables that it writes are locked until it ends, so its
triggers perform what they would perform when it commits. -/
structure Transaction where
  id : Nat
  action : Action
  performed : List Delta
  remaining : List Delta
  waiting : Bool
  missed : Bool

/-- An open repair: the rows that it has still to insert, and the keys that its `DELETE` has still
to come to, once that has begun. -/
structure Repair where
  day : Int
  rows : List Rollup
  pending : Option (List RollupKey)

structure State where
  db : Database
  transactions : Table Transaction.id
  held : Versions (Row.key : Rollup → RollupKey) Owner
  repair : Option Repair

def State.init : State := ⟨.init, .empty, .empty, none⟩

/-- What a delta makes of the row with its key. -/
def rowAfter (d : Delta) (row : Option Rollup) : Option Rollup :=
  if 0 < d.delta then
    some (match row with
      | some row => { row with
          label := d.label.take maxRollupChars, count := row.count + d.delta.toNat }
      | none => ⟨d.key.left, d.label.take maxRollupChars, d.delta.toNat⟩)
  else if d.delta < 0 then
    (row.map fun row => row.subtract (-d.delta).toNat).filter fun row => row.count ≠ 0
  else row

theorem rowAfter_key {d : Delta} {row : Option Rollup} (h : ∀ r ∈ row, r.key = d.key.left) :
    ∀ r ∈ rowAfter d row, r.key = d.key.left := by
  intro r hr
  unfold rowAfter at hr
  split_ifs at hr
  · cases row with
    | none => exact Option.some.inj hr ▸ rfl
    | some row => exact Option.some.inj hr ▸ h row rfl
  · obtain ⟨row, hrow, rfl⟩ := Option.map_eq_some_iff.mp (Option.filter_eq_some_iff.mp hr).1
    exact (row.subtract_key _).trans (h row hrow)
  · exact h r hr

/-! ## Transactions -/

def Transaction.key (t : Transaction) : Option RollupKey :=
  t.remaining.head?.map fun d => d.key.left

/-- The first remaining delta is done. -/
def Transaction.advance (t : Transaction) : Transaction :=
  { t with
    performed := t.performed ++ t.remaining.head?.toList
    remaining := t.remaining.tail
    waiting := false
    missed := false }

def Transaction.await (t : Transaction) : Transaction := { t with waiting := true }

/-- The row that it waits for may be gone when another transaction commits. -/
def Transaction.released (replaced : List RollupKey) (t : Transaction) : Transaction :=
  { t with missed := t.missed || (t.waiting && t.key.any fun key => decide (key ∈ replaced)) }

@[simp] theorem Transaction.advance_id (t : Transaction) : t.advance.id = t.id := rfl

@[simp] theorem Transaction.await_id (t : Transaction) : t.await.id = t.id := rfl

@[simp] theorem Transaction.released_id (replaced : List RollupKey) (t : Transaction) :
    (t.released replaced).id = t.id := rfl

/-- The rows that a `DELETE` looks for are gone. -/
def Repair.released (replaced : List RollupKey) (r : Repair) : Repair :=
  { r with pending := r.pending.map fun keys => keys.filter fun key => key ∉ replaced }

section
variable (s : State)

theorem find_key {t : Rollups} {key : RollupKey} : ∀ r ∈ t.find key, r.key = key :=
  fun _ hr => (Table.find_eq_some.mp hr).2

def State.written (owner : Owner) : List (Version (Row.key : Rollup → RollupKey) Owner) :=
  s.held.rows.filter fun v => v.owner = owner

def State.replaced (owner : Owner) : List RollupKey :=
  ((s.written owner).filter Version.replaced).map Version.at_

/-- The rows that its owner has written are committed. -/
def State.release (owner : Owner) : State where
  db := { s.db with rollups := installAll s.db.rollups (s.written owner) }
  transactions := s.transactions.updateAll (Transaction.released (s.replaced owner))
    (Transaction.released_id _)
  held := s.held.deleteWhere fun v => v.owner = owner
  repair := s.repair.map (Repair.released (s.replaced owner))

/-- The rows that its owner has written are as before. -/
def State.drop (owner : Owner) : State :=
  { s with held := s.held.deleteWhere fun v => v.owner = owner }

def State.advance (id : Nat) : State :=
  { s with transactions := s.transactions.modify id Transaction.advance Transaction.advance_id }

def State.write (v : Version (Row.key : Rollup → RollupKey) Owner) : State :=
  { s with held := s.held.write v }

def begin_ (id : Nat) (action : Action) (deltas : List Delta) : Option State :=
  if (s.transactions.find id).isSome then none
  else some { s with transactions := s.transactions.insert ⟨id, action, [], deltas, false, false⟩ }

/-- The next delta, where the transaction need not wait. An update whose row is gone changes
nothing, and only a row that counts none is deleted after it. -/
def perform (id : Nat) : Option State := do
  let t ← s.transactions.find id
  let d ← t.remaining.head?
  let key := d.key.left
  let row := s.db.rollups.find key
  match hv : s.held.find key with
  | some v =>
    if v.owner = .transaction id then
      some ((s.advance id).write ⟨key, v.owner, rowAfter d v.row, rowAfter_key fun r hr =>
        (v.keyed r hr).trans (Table.find_eq_some.mp hv).2,
        v.replaced || (rowAfter d v.row).isNone⟩)
    else if d.delta < 0 ∧ (row.isNone ∨ t.missed ∧ ¬row.any (·.count = 0)) then
      some (s.advance id)
    else none
  | none =>
    if d.delta < 0 ∧ t.missed then
      if row.any (·.count = 0) then
        some ((s.advance id).write ⟨key, .transaction id, none, nofun, true⟩)
      else some (s.advance id)
    else if rowAfter d row = row then some (s.advance id)
    else some ((s.advance id).write ⟨key, .transaction id, rowAfter d row, rowAfter_key find_key,
      (rowAfter d row).isNone⟩)

/-- An update begins to wait for a row that another transaction has written. -/
def wait (id : Nat) : Option State := do
  let t ← s.transactions.find id
  let d ← t.remaining.head?
  let v ← s.held.find d.key.left
  if d.delta < 0 ∧ v.owner ≠ .transaction id ∧ (s.db.rollups.find d.key.left).isSome then
    some { s with transactions := s.transactions.modify id Transaction.await Transaction.await_id }
  else none

def abort (id : Nat) : Option State := do
  let t ← s.transactions.find id
  some { s.drop (.transaction t.id) with transactions := s.transactions.delete id }

/-! ## The repair -/

def beginDelete : Option State := do
  let r ← s.repair
  if r.pending.isSome then none
  else
    let keys := (s.db.stored r.day).map Row.key
    some { s with repair := some { r with pending := some keys } }

/-- The `DELETE` comes to a row, where it need not wait. -/
def deleteRow (key : RollupKey) : Option State := do
  let r ← s.repair
  let keys ← r.pending
  if key ∉ keys ∨ (s.held.find key).isSome then none
  else
    let passed := { s with repair := some { r with pending := some (keys.filter (· ≠ key)) } }
    if (s.db.rollups.find key).isSome then some (passed.write ⟨key, .repair, none, nofun, true⟩)
    else some passed

def abortRepair : Option State := do
  let _ ← s.repair
  some { s.drop .repair with repair := none }

/-- The `INSERT` of one row, where it need not wait. A row of its key makes the repair fail. -/
def insertRow : Option State := do
  let r ← s.repair
  let keys ← r.pending
  if keys ≠ [] then none
  else
    let row ← r.rows.head?
    let inserted := { s with repair := some { r with rows := r.rows.tail } }
    match s.held.find row.key with
    | some v =>
      if v.owner = .repair then
        if v.row.isSome then abortRepair s
        else some (inserted.write ⟨row.key, .repair, some row, fun _ h => Option.some.inj h ▸ rfl,
          v.replaced⟩)
      else none
    | none =>
      if (s.db.rollups.find row.key).isSome then abortRepair s
      else some (inserted.write ⟨row.key, .repair, some row, fun _ h => Option.some.inj h ▸ rfl,
        false⟩)

def commitRepair : Option State := do
  let r ← s.repair
  if r.pending = some [] ∧ r.rows = [] then some { s.release .repair with repair := none }
  else none

end

section
variable (initcap : Text → Text)

/-- The tables are what the transaction makes of them, with the deltas that it has performed. -/
def commit (s : State) (id : Nat) : Option State := do
  let t ← s.transactions.find id
  if t.remaining ≠ [] then none
  else
    let (tables, deltas) ← effects initcap s.db.toTables t.action
    if deltas = t.performed then
      let released := s.release (.transaction id)
      some { released with
        db := ⟨tables, released.db.rollups⟩
        transactions := released.transactions.delete id }
    else none

/-- The recount is of what is committed. -/
def beginRepair (s : State) (day : Int) : Option State :=
  if s.repair.isSome then none
  else some { s with repair := some ⟨day, s.db.recount initcap day, none⟩ }

inductive Move where
  | begin_ (id : Nat) (action : Action) (deltas : List Delta)
  | perform (id : Nat)
  | wait (id : Nat)
  | commit (id : Nat)
  | abort (id : Nat)
  | beginRepair (day : Int)
  | beginDelete
  | deleteRow (key : RollupKey)
  | insertRow
  | commitRepair
  | abortRepair

def step (s : State) : Move → Option State
  | .begin_ id action deltas => begin_ s id action deltas
  | .perform id => perform s id
  | .wait id => wait s id
  | .commit id => commit initcap s id
  | .abort id => abort s id
  | .beginRepair day => beginRepair initcap s day
  | .beginDelete => beginDelete s
  | .deleteRow key => deleteRow s key
  | .insertRow => insertRow s
  | .commitRepair => commitRepair s
  | .abortRepair => abortRepair s

end

/-! ## What is wanted of a run -/

/-- What the owner sees of a row. -/
def State.visible (s : State) (owner : Owner) (key : RollupKey) : Option Rollup :=
  match s.held.find key with
  | some v => if v.owner = owner then v.row else none
  | none => s.db.rollups.find key

/-- The repair has no row of the key to delete any more. -/
def Repair.passed (r : Repair) (key : RollupKey) : Prop :=
  key.day ≠ r.day ∨ ∃ keys ∈ r.pending, key ∉ keys

instance (r : Repair) (key : RollupKey) : Decidable (r.passed key) :=
  inferInstanceAs (Decidable (_ ∨ _))

/-- A decrement finds its row, and no transaction that has written a row which the repair is still
to delete commits once the repair has counted. -/
def Undisturbed (s : State) : Move → Prop
  | .perform id => ∀ t ∈ s.transactions.find id, ∀ d ∈ t.remaining.head?, d.delta < 0 →
      t.missed = false ∧
        ∃ row ∈ s.visible (.transaction id) d.key.left, (-d.delta).toNat ≤ row.count
  | .commit id => ∀ t ∈ s.transactions.find id, Distinct s.db.toTables t.action ∧
      ∀ r ∈ s.repair, ∀ v ∈ s.held.rows, v.owner = .transaction id → r.passed v.at_
  | _ => True

instance (s : State) : DecidablePred (Undisturbed s) := fun m => by
  cases m <;> unfold Undisturbed <;> infer_instance

/-- All transactions and the repair have ended. -/
def State.Quiet (s : State) : Prop := s.transactions.rows = [] ∧ s.repair.isNone

instance (s : State) : Decidable s.Quiet := inferInstanceAs (Decidable (_ ∧ _))

/-- The count that is stored for a key, and the one that a repair counts. -/
def storedCount (db : Database) (key : RollupKey) : Nat :=
  ((db.rollups.find key).map Row.count).getD 0

def recountedCount (initcap : Text → Text) (db : Database) (key : RollupKey) : Nat :=
  ((((db.recount initcap key.day).filter fun row => row.key = key).map Row.count).sum)

end FaultLane.RollupRepair
