import FaultLane.JsonValue
import Mathlib.Data.List.Infix
import Mathlib.Tactic.SplitIfs

set_option autoImplicit false

/-!
# The texts of a JSON value

Every string of a value stands at a path. An update that edits texts is described by the
paths it reaches: one path, or everything below one.
-/
namespace FaultLane.JsonLeaves

inductive Step where
  | member (key : String)
  | element
  deriving DecidableEq, Repr

abbrev Path := List Step

/-- A text and where it stands. -/
abbrev Leaf := Path × List Char

def Leaf.under (step : Step) (leaf : Leaf) : Leaf := (step :: leaf.1, leaf.2)

section Reading

mutual

def leaves : Json → List Leaf
  | .string text => [([], text.toList)]
  | .array values => leavesOfValues values
  | .object fields => leavesOfFields fields
  | _ => []

def leavesOfValues : List Json → List Leaf
  | [] => []
  | value :: values => (leaves value).map (Leaf.under .element) ++ leavesOfValues values

def leavesOfFields : List (String × Json) → List Leaf
  | [] => []
  | (key, value) :: fields =>
    (leaves value).map (Leaf.under (.member key)) ++ leavesOfFields fields

end

mutual

/-- The names of all members, at any depth. -/
def memberNames : Json → List (List Char)
  | .array values => memberNamesOfValues values
  | .object fields => memberNamesOfFields fields
  | _ => []

def memberNamesOfValues : List Json → List (List Char)
  | [] => []
  | value :: values => memberNames value ++ memberNamesOfValues values

def memberNamesOfFields : List (String × Json) → List (List Char)
  | [] => []
  | (key, value) :: fields => key.toList :: memberNames value ++ memberNamesOfFields fields

end

theorem leavesOfValues_eq (values : List Json) :
    leavesOfValues values = values.flatMap fun v => (leaves v).map (Leaf.under .element) := by
  induction values with
  | nil => rfl
  | cons value values ih => rw [leavesOfValues, ih, List.flatMap_cons]

theorem leavesOfFields_eq (fields : List (String × Json)) :
    leavesOfFields fields =
      fields.flatMap fun e => (leaves e.2).map (Leaf.under (.member e.1)) := by
  induction fields with
  | nil => rfl
  | cons field fields ih => rw [leavesOfFields, ih, List.flatMap_cons]

theorem mem_leaves_of_get {key : String} {value found : Json} {leaf : Leaf}
    (h : value.get key = some found) (hleaf : leaf ∈ leaves found) :
    leaf.under (.member key) ∈ leaves value := by
  cases value with
  | object fields =>
    change SortedMap.get key fields = some found at h
    rw [leaves, leavesOfFields_eq, List.mem_flatMap]
    exact ⟨_, SortedMap.get_mem h, List.mem_map_of_mem hleaf⟩
  | _ => cases h

theorem mem_leaves_of_element {value found : Json} {values : List Json} {leaf : Leaf}
    (h : value.asArray = some values) (hfound : found ∈ values) (hleaf : leaf ∈ leaves found) :
    leaf.under .element ∈ leaves value := by
  cases value with
  | array elements =>
    cases h
    rw [leaves, leavesOfValues_eq, List.mem_flatMap]
    exact ⟨found, hfound, List.mem_map_of_mem hleaf⟩
  | _ => cases h

theorem mem_leaves_of_asStr {value : Json} {text : String} (h : value.asStr = some text) :
    ([], text.toList) ∈ leaves value := by
  cases value with
  | string found =>
    cases h
    exact List.mem_singleton.mpr rfl
  | _ => cases h

end Reading

section Targets

/-- One path, or everything from a path on. -/
structure Target where
  path : Path
  deep : Bool
  deriving DecidableEq, Repr

def Target.under (step : Step) (target : Target) : Target := ⟨step :: target.path, target.deep⟩

def Target.covers (target : Target) (path : Path) : Bool :=
  if target.deep then target.path.isPrefixOf path else target.path == path

def covers (targets : List Target) (path : Path) : Bool := targets.any (·.covers path)

/-- The paths part at some step. -/
def partsFrom : Path → Path → Bool
  | a :: p, b :: q => a != b || partsFrom p q
  | _, _ => false

/-- No path is reached by both. -/
def Apart (targets others : List Target) : Prop :=
  ∀ t ∈ targets, ∀ u ∈ others, partsFrom t.path u.path = true

instance (targets others : List Target) : Decidable (Apart targets others) :=
  inferInstanceAs (Decidable (∀ t ∈ targets, ∀ u ∈ others, partsFrom t.path u.path = true))

theorem Target.prefix_of_covers {target : Target} {path : Path} (h : target.covers path = true) :
    target.path <+: path := by
  unfold Target.covers at h
  split_ifs at h
  · exact List.isPrefixOf_iff_prefix.mp h
  · rw [beq_iff_eq] at h
    rw [h]

theorem not_partsFrom {p q path : Path} (hp : p <+: path) (hq : q <+: path) :
    partsFrom p q = false := by
  induction p generalizing q path with
  | nil => rfl
  | cons a p ih =>
    cases q with
    | nil => rfl
    | cons b q =>
      obtain ⟨rest, rfl⟩ := hp
      have hhead := List.cons_prefix_cons.mp hq
      simp only [partsFrom, hhead.1, bne_self_eq_false, Bool.false_or]
      exact ih (List.prefix_append p rest) hhead.2

theorem Apart.not_covers {targets others : List Target} {path : Path}
    (h : Apart targets others) (hcovers : covers targets path = true) :
    covers others path = false := by
  obtain ⟨t, ht, htpath⟩ := List.any_eq_true.mp hcovers
  by_contra hother
  rw [Bool.not_eq_false] at hother
  obtain ⟨u, hu, hupath⟩ := List.any_eq_true.mp hother
  have hfalse := not_partsFrom (Target.prefix_of_covers htpath) (Target.prefix_of_covers hupath)
  rw [h t ht u hu] at hfalse
  cases hfalse

theorem covers_append (targets others : List Target) (path : Path) :
    covers (targets ++ others) path = (covers targets path || covers others path) :=
  List.any_append

theorem covers_under_nil (step : Step) (targets : List Target) :
    covers (targets.map (Target.under step)) [] = false := by
  rw [covers, List.any_map, List.any_eq_false]
  intro target _ h
  exact absurd (Target.prefix_of_covers h) (by simp [Target.under])

theorem covers_under_cons (step : Step) (targets : List Target) (path : Path) :
    covers (targets.map (Target.under step)) (step :: path) = covers targets path := by
  rw [covers, covers, List.any_map]
  congr 1
  funext target
  change (if target.deep then (step :: target.path).isPrefixOf (step :: path)
    else step :: target.path == step :: path) = target.covers path
  rw [Target.covers, List.cons_beq_cons]
  simp [List.isPrefixOf]

theorem covers_under_other {step other : Step} (h : step ≠ other) (targets : List Target)
    (path : Path) : covers (targets.map (Target.under step)) (other :: path) = false := by
  rw [covers, List.any_map, List.any_eq_false]
  intro target _ hcovers
  exact h (List.cons_prefix_cons.mp (Target.prefix_of_covers hcovers)).1

end Targets

section Edits
variable (edit : List Char → List Char)

def editLeaf (targets : List Target) (leaf : Leaf) : Leaf :=
  if covers targets leaf.1 then (leaf.1, edit leaf.2) else leaf

/-- The update edits the texts the targets reach, and nothing else. -/
def Edits (targets : List Target) (update : Json → Json) : Prop :=
  ∀ value, leaves (update value) = (leaves value).map (editLeaf edit targets)

variable {edit}

theorem editLeaf_nil (leaf : Leaf) : editLeaf edit [] leaf = leaf := rfl

theorem editLeaf_under (step : Step) (targets : List Target) (leaf : Leaf) :
    editLeaf edit (targets.map (Target.under step)) (leaf.under step) =
      (editLeaf edit targets leaf).under step := by
  simp only [editLeaf, Leaf.under, covers_under_cons]
  split_ifs <;> rfl

theorem editLeaf_other {step other : Step} (h : step ≠ other) (targets : List Target)
    (leaf : Leaf) : editLeaf edit (targets.map (Target.under step)) (leaf.under other) =
      leaf.under other := by
  simp only [editLeaf, Leaf.under, covers_under_other h, Bool.false_eq_true, if_false]

/-- Texts under other steps stay. -/
theorem map_editLeaf_other {step other : Step} (h : step ≠ other) (targets : List Target)
    (found : List Leaf) : (found.map (Leaf.under other)).map
      (editLeaf edit (targets.map (Target.under step))) = found.map (Leaf.under other) := by
  rw [List.map_map]
  exact List.map_congr_left fun leaf _ => editLeaf_other h targets leaf

theorem map_editLeaf_under (step : Step) (targets : List Target) (found : List Leaf) :
    (found.map (Leaf.under step)).map (editLeaf edit (targets.map (Target.under step))) =
      (found.map (editLeaf edit targets)).map (Leaf.under step) := by
  rw [List.map_map, List.map_map]
  exact List.map_congr_left fun leaf _ => editLeaf_under step targets leaf

theorem Edits.id : Edits edit [] fun value => value := fun value =>
  (List.map_id'' (fun leaf => editLeaf_nil leaf) (leaves value)).symm

theorem Edits.comp {targets others : List Target} {f g : Json → Json}
    (hf : Edits edit targets f) (hg : Edits edit others g) (h : Apart targets others) :
    Edits edit (targets ++ others) fun value => g (f value) := by
  intro value
  rw [hg, hf, List.map_map]
  refine List.map_congr_left fun leaf _ => ?_
  rw [Function.comp_apply]
  by_cases hcovers : covers targets leaf.1 = true
  · simp [editLeaf, covers_append, hcovers, h.not_covers hcovers]
  · simp [editLeaf, covers_append, hcovers]

end Edits

end FaultLane.JsonLeaves
