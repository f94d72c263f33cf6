import FaultLane.JsonValue

set_option autoImplicit false

/-!
# Paths into JSON documents

Path expressions of SQL/JSON in lax mode: an accessor and a filter unwrap an array that they
are applied to, `[*]` takes another value for an array of itself, and what a path does not
find is no error.
-/
namespace FaultLane.JsonPath
open Json

/-- The items that an accessor is applied to. -/
def unwrap : Json → List Json
  | .array values => values
  | value => [value]

/-- `.key`. -/
def member (key : String) (value : Json) : List Json := (unwrap value).filterMap (Json.get key)

/-- `.key1.key2`. -/
def members (path : List String) (value : Json) : List Json :=
  path.foldl (fun found key => found.flatMap (member key)) [value]

/-- `[*]` after what was found. -/
def elements (found : List Json) : List Json := found.flatMap unwrap

/-- `? (…)`. -/
def filter (condition : Json → Bool) (found : List Json) : List Json :=
  found.flatMap fun value => (unwrap value).filter condition

/-- `@.key == "text"`. -/
def textEquals (key text : String) (value : Json) : Bool :=
  ((member key value).flatMap unwrap).any fun found => found.asStr == some text

section shapes
variable {key : String} {value found : Json}

theorem unwrap_of_get (h : value.get key = some found) : unwrap value = [value] := by
  cases value with
  | array values => cases h
  | null | bool | number | string | object => rfl

/-- A member of an object is found as it is. -/
theorem member_of_get (h : value.get key = some found) : member key value = [found] := by
  unfold member
  rw [unwrap_of_get h, List.filterMap_cons_some h, List.filterMap_nil]

theorem textEquals_of_get {s : String} (h : value.get key = some (.string s)) (text : String) :
    textEquals key text value = (some s == some text) := by
  unfold textEquals
  rw [member_of_get h, List.flatMap_singleton]
  change List.any [Json.string s] _ = _
  rw [List.any_cons, List.any_nil, Bool.or_false]
  rfl

/-- A path of members of objects finds what a pointer finds. -/
theorem members_append_of_get {path : List String} {value middle : Json}
    (h : members path value = [middle]) (hmember : middle.get key = some found) :
    members (path ++ [key]) value = [found] := by
  unfold members at h ⊢
  rw [List.foldl_append, h, List.foldl_cons, List.foldl_nil, List.flatMap_singleton,
    member_of_get hmember]

theorem elements_singleton (values : List Json) : elements [.array values] = values :=
  List.flatMap_singleton _ _

/-- A filter over objects keeps those that meet it. -/
theorem filter_of_get {items : List Json} (h : ∀ v ∈ items, ∃ found, v.get key = some found)
    (condition : Json → Bool) : filter condition items = items.filter condition := by
  induction items with
  | nil => rfl
  | cons v rest ih =>
    obtain ⟨found, hfound⟩ := h v List.mem_cons_self
    have hrest := ih fun w hw => h w (List.mem_cons_of_mem v hw)
    change (unwrap v).filter condition ++ filter condition rest = _
    rw [unwrap_of_get hfound, hrest, ← List.filter_append, List.singleton_append]

/-- The items of arrays that are members of objects. -/
theorem elements_members {items : List Json} {listed : Json → List Json}
    (h : ∀ v ∈ items, v.get key = some (.array (listed v))) :
    elements (items.flatMap (member key)) = items.flatMap listed := by
  induction items with
  | nil => rfl
  | cons v rest ih =>
    have hv := h v List.mem_cons_self
    have hrest := ih fun w hw => h w (List.mem_cons_of_mem v hw)
    rw [List.flatMap_cons, List.flatMap_cons, member_of_get hv, ← hrest]
    rfl

end shapes
end FaultLane.JsonPath
