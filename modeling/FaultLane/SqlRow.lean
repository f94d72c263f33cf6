import FaultLane.JsonValue

set_option autoImplicit false

/-!
# Computations over query rows

A computation that ends in a value or an error, or panics, and the rows whose columns it
decodes. A decode panics on a missing column, on `NULL` and on another type.
-/
namespace FaultLane.SqlRow
inductive Outcome (ε α : Type) where
  | ok (a : α)
  | error (e : ε)
  | panic

namespace Outcome
variable {ε α β : Type}

instance : Monad (Outcome ε) where
  pure := .ok
  bind x f :=
    match x with
    | .ok a => f a
    | .error e => .error e
    | .panic => .panic

def ofExcept : Except ε α → Outcome ε α
  | .ok a => .ok a
  | .error e => .error e

def okOr (o : Option α) (e : ε) : Outcome ε α :=
  match o with
  | some a => .ok a
  | none => .error e

/-- The early return of a failed check. -/
def refuse (condition : Prop) [Decidable condition] (e : ε) : Outcome ε Unit :=
  if condition then .error e else .ok ()

def provided (condition : Prop) [Decidable condition] (body : Outcome ε Unit) : Outcome ε Unit :=
  if condition then body else .ok ()

def forEach (body : α → Outcome ε Unit) : List α → Outcome ε Unit
  | [] => .ok ()
  | a :: rest => do
    body a
    forEach body rest

/-- The result of a task that handles its errors. -/
def settle {ε' : Type} : Outcome ε α → Outcome ε' (Except ε α)
  | .ok a => .ok (.ok a)
  | .error e => .ok (.error e)
  | .panic => .panic

def Returns (x : Outcome ε α) : Prop := x ≠ .panic

@[simp] theorem pure_eq_ok (a : α) : (pure a : Outcome ε α) = .ok a := rfl

@[simp] theorem ok_bind (a : α) (f : α → Outcome ε β) : (Outcome.ok a >>= f) = f a := rfl

@[simp] theorem error_bind (e : ε) (f : α → Outcome ε β) :
    ((Outcome.error e : Outcome ε α) >>= f) = .error e := rfl

@[simp] theorem panic_bind (f : α → Outcome ε β) :
    ((Outcome.panic : Outcome ε α) >>= f) = .panic := rfl

theorem bind_eq_ok {x : Outcome ε α} {f : α → Outcome ε β} {b : β} :
    x >>= f = .ok b ↔ ∃ a, x = .ok a ∧ f a = .ok b := by
  cases x with
  | ok a => exact ⟨fun h => ⟨a, rfl, h⟩, fun ⟨_, h, hf⟩ => by cases h; exact hf⟩
  | error e => exact ⟨nofun, fun ⟨_, h, _⟩ => (nomatch h)⟩
  | panic => exact ⟨nofun, fun ⟨_, h, _⟩ => (nomatch h)⟩

theorem okOr_eq_ok {o : Option α} {e : ε} {a : α} : okOr o e = .ok a ↔ o = some a := by
  cases o with
  | none => exact ⟨nofun, nofun⟩
  | some b => exact ⟨fun h => by cases h; rfl, fun h => by cases h; rfl⟩

@[simp] theorem returns_ok (a : α) : (Outcome.ok a : Outcome ε α).Returns := nofun

@[simp] theorem returns_error (e : ε) : (Outcome.error e : Outcome ε α).Returns := nofun

theorem Returns.bind {x : Outcome ε α} {f : α → Outcome ε β} (hx : x.Returns)
    (hf : ∀ a, x = .ok a → (f a).Returns) : (x >>= f).Returns := by
  cases x with
  | ok a => exact hf a rfl
  | error e => exact returns_error e
  | panic => exact absurd rfl hx

@[simp] theorem returns_ofExcept (x : Except ε α) : (ofExcept x).Returns := by
  cases x <;> exact nofun

@[simp] theorem returns_okOr (o : Option α) (e : ε) : (okOr o e).Returns := by
  cases o <;> exact nofun

@[simp] theorem returns_refuse (condition : Prop) [Decidable condition] (e : ε) :
    (refuse condition e).Returns := by
  unfold refuse
  split <;> exact nofun

theorem Returns.settle {ε' : Type} {x : Outcome ε α} (h : x.Returns) :
    (x.settle : Outcome ε' (Except ε α)).Returns := by
  cases x with
  | ok a => exact nofun
  | error e => exact nofun
  | panic => exact absurd rfl h

theorem Returns.provided {condition : Prop} [Decidable condition] {body : Outcome ε Unit}
    (h : body.Returns) : (provided condition body).Returns := by
  unfold Outcome.provided
  split
  · exact h
  · exact returns_ok ()

theorem Returns.forEach {body : α → Outcome ε Unit} (h : ∀ a, (body a).Returns) (values : List α) :
    (forEach body values).Returns := by
  induction values with
  | nil => exact returns_ok ()
  | cons a rest ih => exact (h a).bind fun _ _ => ih

end Outcome

/-- An instant, in microseconds. -/
structure Timestamp where
  micros : Int
  deriving DecidableEq, Repr

inductive SqlValue where
  | null
  | text (value : String)
  | bytea (value : List UInt8)
  | int4 (value : Int32)
  | int8 (value : Int64)
  | bool (value : Bool)
  | timestamptz (value : Timestamp)
  | textArray (value : List String)
  | jsonb (value : Json)

def SqlValue.ofOption {α : Type} (column : α → SqlValue) : Option α → SqlValue
  | some a => column a
  | none => .null

class Decode (α : Type) where
  decode : SqlValue → Option α

instance : Decode String where
  decode
    | .text value => some value
    | _ => none

instance : Decode (List UInt8) where
  decode
    | .bytea value => some value
    | _ => none

instance : Decode Int32 where
  decode
    | .int4 value => some value
    | _ => none

instance : Decode Int64 where
  decode
    | .int8 value => some value
    | _ => none

instance : Decode Bool where
  decode
    | .bool value => some value
    | _ => none

instance : Decode Timestamp where
  decode
    | .timestamptz value => some value
    | _ => none

instance : Decode (List String) where
  decode
    | .textArray value => some value
    | _ => none

instance : Decode Json where
  decode
    | .jsonb value => some value
    | _ => none

/-- A nullable column. -/
instance {α : Type} [Decode α] : Decode (Option α) where
  decode
    | .null => some none
    | value => (Decode.decode value).map some

abbrev Row := List (String × SqlValue)

def Row.get {ε : Type} (α : Type) [Decode α] (row : Row) (column : String) : Outcome ε α :=
  match (row.lookup column).bind Decode.decode with
  | some a => .ok a
  | none => .panic

theorem Row.get_eq_ok {ε α : Type} [Decode α] {row : Row} {column : String} {value : SqlValue}
    {a : α} (h : row.lookup column = some value) (hd : Decode.decode value = some a) :
    (row.get α column : Outcome ε α) = .ok a := by
  unfold Row.get
  rw [h, Option.bind_some, hd]

theorem Row.returns_bind {ε α β : Type} [Decode α] {row : Row} {column : String} {a : α}
    {f : α → Outcome ε β} (h : (row.get α column : Outcome ε α) = .ok a) (hf : (f a).Returns) :
    (row.get α column >>= f).Returns := by
  rw [h]
  exact hf

/-- A nullable column decodes when its values do. -/
theorem Row.get_ofOption {ε α : Type} [Decode α] {row : Row} {column : String}
    {kind : α → SqlValue} {value : Option α} (h : row.lookup column = some (.ofOption kind value))
    (hk : ∀ a, (Decode.decode (kind a) : Option (Option α)) = some (some a)) :
    (row.get (Option α) column : Outcome ε (Option α)) = .ok value := by
  cases value with
  | none => exact Row.get_eq_ok h rfl
  | some a => exact Row.get_eq_ok h (hk a)

end FaultLane.SqlRow
