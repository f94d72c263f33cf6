import FaultLane.SortedMap

set_option autoImplicit false

/-!
# JSON values

Object members are kept in key order and hold a key once, as the sorted map of
`serde_json` does, when they are built by `SortedMap.insert`.
-/
namespace FaultLane

inductive JsonNumber where
  | posInt (value : Nat)
  | negInt (value : Int)
  | float (text : String)
  deriving DecidableEq, Repr

inductive Json where
  | null
  | bool (value : Bool)
  | number (value : JsonNumber)
  | string (value : String)
  | array (values : List Json)
  | object (fields : List (String × Json))
  deriving Repr

abbrev JsonMap := SortedMap String Json

namespace Json

mutual

def beq : Json → Json → Bool
  | .null, .null => true
  | .bool a, .bool b => a == b
  | .number a, .number b => a == b
  | .string a, .string b => a == b
  | .array as, .array bs => beqList as bs
  | .object as, .object bs => beqFields as bs
  | _, _ => false

def beqList : List Json → List Json → Bool
  | [], [] => true
  | a :: as, b :: bs => beq a b && beqList as bs
  | _, _ => false

def beqFields : List (String × Json) → List (String × Json) → Bool
  | [], [] => true
  | (k, a) :: as, (l, b) :: bs => k == l && beq a b && beqFields as bs
  | _, _ => false

end

mutual

theorem beq_iff : ∀ a b : Json, beq a b = true ↔ a = b
  | .null, b => by cases b <;> simp [beq]
  | .bool a, b => by cases b <;> simp [beq]
  | .number a, b => by cases b <;> simp [beq]
  | .string a, b => by cases b <;> simp [beq]
  | .array as, b => by
    cases b with
    | array bs => simp [beq, beqList_iff as bs]
    | _ => simp [beq]
  | .object as, b => by
    cases b with
    | object bs => simp [beq, beqFields_iff as bs]
    | _ => simp [beq]

theorem beqList_iff : ∀ as bs : List Json, beqList as bs = true ↔ as = bs
  | [], bs => by cases bs <;> simp [beqList]
  | a :: as, bs => by
    cases bs with
    | nil => simp [beqList]
    | cons b bs => simp [beqList, beq_iff a b, beqList_iff as bs]

theorem beqFields_iff : ∀ as bs : List (String × Json), beqFields as bs = true ↔ as = bs
  | [], bs => by cases bs <;> simp [beqFields]
  | (k, a) :: as, bs => by
    cases bs with
    | nil => simp [beqFields]
    | cons b bs =>
      obtain ⟨l, b⟩ := b
      simp [beqFields, beq_iff a b, beqFields_iff as bs, and_assoc]

end

instance : DecidableEq Json := fun a b => decidable_of_iff (beq a b = true) (beq_iff a b)

def isNull : Json → Bool
  | .null => true
  | _ => false

def asBool : Json → Option Bool
  | .bool b => some b
  | _ => none

/-- Only a number held as a non-negative integer is a `u64`. -/
def asU64 : Json → Option Nat
  | .number (.posInt n) => some n
  | _ => none

def asStr : Json → Option String
  | .string s => some s
  | _ => none

def asArray : Json → Option (List Json)
  | .array values => some values
  | _ => none

def asObject : Json → Option JsonMap
  | .object fields => some fields
  | _ => none

def isU64 (v : Json) : Bool := v.asU64.isSome
def isString (v : Json) : Bool := v.asStr.isSome
def isArray (v : Json) : Bool := v.asArray.isSome
def isObject (v : Json) : Bool := v.asObject.isSome

end Json

namespace Json

def ofFields (fields : List (String × Json)) : Json := .object (SortedMap.ofFields fields)

def ofOption {α : Type} (f : α → Json) : Option α → Json
  | none => .null
  | some a => f a

def ofNat (n : Nat) : Json := .number (.posInt n)

def ofOptionalString (s : Option String) : Json := ofOption Json.string s

def ofOptionalNat (n : Option Nat) : Json := ofOption ofNat n

/-- A member that serialization skips when it is absent. -/
def optionalField (key : String) : Option Json → List (String × Json)
  | none => []
  | some v => [(key, v)]

theorem get_optionalField (key k : String) (o : Option Json) :
    SortedMap.get key (optionalField k o) = if k = key then o else none := by
  cases o with
  | none => exact (ite_self none).symm
  | some v => rfl

/-- `Value::get` with a member name. -/
def get (key : String) (v : Json) : Option Json := v.asObject.bind (SortedMap.get key)

/-- `Value::pointer` along member names. -/
def pointer (path : List String) (v : Json) : Option Json :=
  path.foldl (fun found key => found.bind (get key)) (some v)

/-- `map.get(key).and_then(Value::as_str)`, and so on for the other kinds. -/
def strAt (key : String) (m : JsonMap) : Option String := (SortedMap.get key m).bind asStr
def u64At (key : String) (m : JsonMap) : Option Nat := (SortedMap.get key m).bind asU64
def boolAt (key : String) (m : JsonMap) : Option Bool := (SortedMap.get key m).bind asBool
def arrayAt (key : String) (m : JsonMap) : Option (List Json) := (SortedMap.get key m).bind asArray
def objectAt (key : String) (m : JsonMap) : Option JsonMap := (SortedMap.get key m).bind asObject

@[simp] theorem get_object (key : String) (fields : JsonMap) :
    get key (.object fields) = SortedMap.get key fields := rfl

theorem get_fields (fields : List (String × Json)) (key : String) :
    get key (ofFields fields) = SortedMap.get key fields := SortedMap.get_ofFields key fields

end Json

/-- `Option::is_some_and`. -/
def isSomeAnd {α : Type} (o : Option α) (p : α → Bool) : Bool := o.any p

/-- `Option::is_none_or`. -/
def isNoneOr {α : Type} (o : Option α) (p : α → Bool) : Bool := o.all p

end FaultLane
