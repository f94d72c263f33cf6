import FaultLane.JsonTexts
import FaultLane.JsonValue

set_option autoImplicit false

/-!
# Sizes of JSON texts

The compact text of a value and the bytes it takes. The members of an object take as many in any
order, and a list adds its elements and the commas between them.
-/
namespace FaultLane.JsonTexts
open RustText

section sizes
variable {t u : Text} {fields : List (Text × Text)}

theorem byteLength_append : byteLength (t ++ u) = byteLength t + byteLength u := by
  rw [byteLength, List.map_append, List.sum_append]
  rfl

theorem length_utf8 : (utf8 (String.ofList t)).length = byteLength t := by
  have hbytes : utf8 (String.ofList t) = t.flatMap String.utf8EncodeChar := by
    simp [utf8, List.utf8Encode]
  rw [hbytes, List.length_flatMap]
  unfold byteLength
  exact congrArg List.sum (List.map_congr_left fun c _ => String.length_utf8EncodeChar c)

theorem byteLength_quote (h : ∀ c ∈ t, Plain c) : byteLength (quote t) = byteLength t + 2 := by
  rw [quote_plain h]
  change quotation.utf8Size + byteLength (t ++ [quotation]) = byteLength t + 2
  rw [byteLength_append]
  change 1 + (byteLength t + 1) = byteLength t + 2
  omega

/-- A member takes a colon and a comma or a brace. -/
def memberSize (m : Text × Text) : Nat := byteLength (quote m.1) + byteLength m.2 + 2

theorem byteLength_members :
    byteLength (members fields) = (fields.map memberSize).sum - 1 := by
  induction fields with
  | nil => rfl
  | cons m rest ih =>
    rw [List.map_cons, List.sum_cons, memberSize]
    cases rest with
    | nil =>
      change byteLength (quote m.1 ++ ':' :: m.2) = _
      rw [byteLength_append]
      change byteLength (quote m.1) + (1 + byteLength m.2) = _
      rw [List.map_nil, List.sum_nil]
      omega
    | cons n rest =>
      change byteLength (quote m.1 ++ ':' :: (m.2 ++ ',' :: members (n :: rest))) = _
      rw [byteLength_append]
      change byteLength (quote m.1) + (1 + byteLength (m.2 ++ ',' :: members (n :: rest))) = _
      rw [byteLength_append]
      change byteLength (quote m.1) + (1 + (byteLength m.2 +
        (1 + byteLength (members (n :: rest))))) = _
      have hpositive : 0 < ((n :: rest).map memberSize).sum := by
        rw [List.map_cons, List.sum_cons, memberSize]
        omega
      omega

theorem byteLength_object : byteLength (object fields) = (fields.map memberSize).sum - 1 + 2 := by
  change 1 + byteLength (members fields ++ [Char.ofNat 0x7d]) = _
  rw [byteLength_append, byteLength_members]
  change 1 + (_ + 1) = _
  omega

theorem byteLength_object_le : byteLength (object fields) ≤ (fields.map memberSize).sum + 2 := by
  rw [byteLength_object]
  omega

end sizes

/-! ## Lists -/

section lists
variable {items : List Text}

def elements : List Text → Text
  | [] => []
  | [t] => t
  | t :: rest => t ++ ',' :: elements rest

def array (items : List Text) : Text := '[' :: (elements items ++ [']'])

theorem byteLength_elements :
    byteLength (elements items) = (items.map byteLength).sum + (items.length - 1) := by
  induction items with
  | nil => rfl
  | cons t rest ih =>
    cases rest with
    | nil =>
      change byteLength t = byteLength t + 0 + 0
      omega
    | cons u rest =>
      change byteLength (t ++ ',' :: elements (u :: rest)) = _
      rw [byteLength_append]
      change byteLength t + (1 + byteLength (elements (u :: rest))) = _
      rw [ih]
      simp only [List.map_cons, List.sum_cons, List.length_cons]
      omega

theorem byteLength_array :
    byteLength (array items) = (items.map byteLength).sum + (items.length - 1) + 2 := by
  change 1 + byteLength (elements items ++ [']']) = _
  rw [byteLength_append, byteLength_elements]
  change 1 + (_ + 1) = _
  omega

end lists
end FaultLane.JsonTexts

namespace FaultLane

def JsonNumber.text : JsonNumber → RustText.Text
  | .posInt n => Nat.toDigits 10 n
  | .negInt i => (toString i).toList
  | .float text => text.toList

namespace Json
open RustText JsonTexts

/-! ## Texts of values -/

mutual

def compact : Json → Text
  | .null => "null".toList
  | .bool true => "true".toList
  | .bool false => "false".toList
  | .number n => n.text
  | .string s => quote s.toList
  | .array values => JsonTexts.array (compactValues values)
  | .object fields => JsonTexts.object (compactFields fields)

def compactValues : List Json → List Text
  | [] => []
  | v :: rest => compact v :: compactValues rest

def compactFields : List (String × Json) → List (Text × Text)
  | [] => []
  | (k, v) :: rest => (k.toList, compact v) :: compactFields rest

end

/-- `serde_json::to_vec`. -/
def toVec (v : Json) : List UInt8 := utf8 (String.ofList v.compact)

def size (v : Json) : Nat := byteLength v.compact

def fieldSize (f : String × Json) : Nat := byteLength (quote f.1.toList) + f.2.size + 2

/-- What the elements add to the text of a list. -/
def listed (values : List Json) : Nat := (values.map size).sum + (values.length - 1)

theorem length_toVec (v : Json) : v.toVec.length = v.size := length_utf8

theorem compactValues_eq (values : List Json) : compactValues values = values.map compact := by
  induction values with
  | nil => rfl
  | cons v rest ih => rw [compactValues, ih, List.map_cons]

theorem compactFields_eq (fields : List (String × Json)) :
    compactFields fields = fields.map fun f => (f.1.toList, f.2.compact) := by
  induction fields with
  | nil => rfl
  | cons f rest ih => rw [compactFields, ih, List.map_cons]

theorem listed_singleton (v : Json) : listed [v] = v.size := rfl

theorem size_array (values : List Json) : (Json.array values).size = listed values + 2 := by
  rw [size, compact, byteLength_array, compactValues_eq, List.map_map, List.length_map]
  rfl

theorem size_object (fields : List (String × Json)) :
    (Json.object fields).size = (fields.map fieldSize).sum - 1 + 2 := by
  rw [size, compact, byteLength_object, compactFields_eq, List.map_map]
  rfl

theorem size_ofFields {fields : List (String × Json)} (h : (SortedMap.keys fields).Nodup) :
    (ofFields fields).size = (fields.map fieldSize).sum - 1 + 2 := by
  rw [ofFields, size_object, ((SortedMap.ofFields_perm h).map fieldSize).sum_nat]

/-- One member with another value. -/
theorem size_replace (front back : List (String × Json)) {key : String} (v w : Json)
    (h : (SortedMap.keys (front ++ (key, v) :: back)).Nodup) :
    (ofFields (front ++ (key, v) :: back)).size + w.size =
      (ofFields (front ++ (key, w) :: back)).size + v.size := by
  have hkeys : (SortedMap.keys (front ++ (key, w) :: back)).Nodup := by
    rw [SortedMap.keys, List.map_append, List.map_cons] at h ⊢
    exact h
  rw [size_ofFields h, size_ofFields hkeys]
  simp only [List.map_append, List.map_cons, List.sum_append, List.sum_cons, fieldSize]
  omega

theorem size_listed (front back : List (String × Json)) {key : String} (values : List Json)
    (h : (SortedMap.keys (front ++ (key, .array []) :: back)).Nodup) :
    (ofFields (front ++ (key, .array values) :: back)).size =
      (ofFields (front ++ (key, .array []) :: back)).size + listed values := by
  have hreplace := size_replace front back (.array []) (.array values) h
  rw [size_array, size_array] at hreplace
  change _ + (listed values + 2) = _ + (0 + 2) at hreplace
  omega

theorem listed_of_size {values : List Json} {n : Nat} (h : ∀ v ∈ values, v.size = n) :
    listed values = values.length * n + (values.length - 1) := by
  have hsizes : values.map size = List.replicate values.length n := by
    rw [List.eq_replicate_iff, List.length_map]
    refine ⟨rfl, fun k hk => ?_⟩
    obtain ⟨v, hv, rfl⟩ := List.mem_map.mp hk
    exact h v hv
  rw [listed, hsizes, List.sum_replicate_nat]

theorem listed_le {values : List Json} {n : Nat} (h : ∀ v ∈ values, v.size ≤ n) :
    listed values ≤ values.length * (n + 1) := by
  have hsum : (values.map size).sum ≤ values.length * n := by
    induction values with
    | nil => exact Nat.zero_le _
    | cons v rest ih =>
      have hv := h v List.mem_cons_self
      have hrest := ih fun w hw => h w (List.mem_cons_of_mem _ hw)
      rw [List.map_cons, List.sum_cons, List.length_cons, Nat.succ_mul]
      omega
  rw [listed, Nat.mul_succ]
  omega

end Json
end FaultLane
