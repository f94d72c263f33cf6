import FaultLane.SortedMap

set_option autoImplicit false

/-!
# Maps of maps of lists

Values that are collected one after another under two keys, in maps that are kept in key order.
-/
namespace FaultLane.NestedMaps
variable {α β γ : Type} [DecidableEq α] [LT α] [DecidableLT α]
variable [DecidableEq β] [LT β] [DecidableLT β]

abbrev NestedMap (α β γ : Type) := SortedMap α (SortedMap β (List γ))

/-- `entry(a).or_default().entry(b).or_default().push(c)`. -/
def push (a : α) (b : β) (c : γ) (m : NestedMap α β γ) : NestedMap α β γ :=
  SortedMap.alter a (fun inner =>
    SortedMap.alter b (fun values => values.getD [] ++ [c]) (inner.getD [])) m

def collect (entries : List (α × β × γ)) : NestedMap α β γ :=
  entries.foldl (fun m e => push e.1 e.2.1 e.2.2 m) []

/-- The values of one pair of keys, in their order. -/
def valuesAt (entries : List (α × β × γ)) (a : α) (b : β) : List γ :=
  (entries.filter fun e => e.1 = a ∧ e.2.1 = b).map (·.2.2)

/-- The map has these values and no keys besides theirs, in their order. -/
structure Holds (m : NestedMap α β γ) (values : α → β → List γ) : Prop where
  get : ∀ a b, (m.get a).bind (SortedMap.get b) =
    if (values a b).isEmpty then none else some (values a b)
  outer : ∀ a, (m.get a).isSome ↔ ∃ b, values a b ≠ []
  sorted : (SortedMap.keys m).Pairwise (· < ·)
  inner_sorted : ∀ e ∈ m, (SortedMap.keys e.2).Pairwise (· < ·)

section
variable {m : NestedMap α β γ} {values : α → β → List γ} {a : α} {b : β} {c : γ}

theorem get_push_self : (push a b c m).get a =
    some (SortedMap.alter b (fun values => values.getD [] ++ [c]) ((m.get a).getD [])) := by
  rw [push, SortedMap.get_alter, if_pos rfl]

theorem get_push_of_ne {x : α} (hx : x ≠ a) : (push a b c m).get x = m.get x := by
  rw [push, SortedMap.get_alter, if_neg (Ne.symm hx)]

omit [LT α] [DecidableLT α] [LT β] [DecidableLT β] in
/-- The entry of two keys by the map of the first. -/
theorem get_getD (a : α) (b : β) : SortedMap.get b ((m.get a).getD []) =
    (m.get a).bind (SortedMap.get b) := by
  cases m.get a <;> rfl

theorem get_push (x : α) (y : β) : ((push a b c m).get x).bind (SortedMap.get y) =
    if x = a ∧ y = b then some (((m.get a).bind (SortedMap.get b)).getD [] ++ [c])
    else (m.get x).bind (SortedMap.get y) := by
  by_cases hx : x = a
  · subst hx
    rw [get_push_self, Option.bind_some, SortedMap.get_alter, get_getD, get_getD]
    by_cases hy : y = b
    · rw [if_pos hy.symm, if_pos ⟨rfl, hy⟩]
    · rw [if_neg (Ne.symm hy), if_neg fun h => hy h.2]
  · rw [get_push_of_ne hx, if_neg fun h => hx h.1]

omit [LT α] [DecidableLT α] [LT β] [DecidableLT β] in
theorem valuesAt_cons (e : α × β × γ) (rest : List (α × β × γ)) (a : α) (b : β) :
    valuesAt (e :: rest) a b = (if a = e.1 ∧ b = e.2.1 then [e.2.2] else []) ++
      valuesAt rest a b := by
  unfold valuesAt
  by_cases he : a = e.1 ∧ b = e.2.1
  · have hmatch : e.1 = a ∧ e.2.1 = b := ⟨he.1.symm, he.2.symm⟩
    rw [if_pos he, List.filter_cons, if_pos (decide_eq_true hmatch)]
    rfl
  · have hother : ¬(e.1 = a ∧ e.2.1 = b) := fun h => he ⟨h.1.symm, h.2.symm⟩
    rw [if_neg he, List.filter_cons, if_neg (mt of_decide_eq_true hother)]
    rfl

section orders
variable (htransα : ∀ a b c : α, a < b → b < c → a < c)
variable (htotalα : ∀ a b : α, a ≠ b → ¬a < b → b < a)
variable (htransβ : ∀ a b c : β, a < b → b < c → a < c)
variable (htotalβ : ∀ a b : β, a ≠ b → ¬a < b → b < a)
include htransα htotalα htransβ htotalβ

theorem Holds.push (h : Holds m values) :
    Holds (push a b c m) fun x y => values x y ++ if x = a ∧ y = b then [c] else [] where
  get x y := by
    rw [get_push]
    by_cases hxy : x = a ∧ y = b
    · rw [if_pos hxy, if_pos hxy, hxy.1, hxy.2, h.get a b]
      have hempty : (values a b ++ [c]).isEmpty = false :=
        List.isEmpty_eq_false_iff.mpr (List.append_ne_nil_of_right_ne_nil _ (List.cons_ne_nil c []))
      rw [hempty, if_neg Bool.false_ne_true]
      by_cases hnone : (values a b).isEmpty
      · rw [if_pos hnone, List.isEmpty_iff.mp hnone]
        rfl
      · rw [if_neg hnone]
        rfl
    · rw [if_neg hxy, if_neg hxy, List.append_nil, h.get x y]
  outer x := by
    by_cases hx : x = a
    · subst hx
      rw [get_push_self]
      refine iff_of_true rfl ⟨b, ?_⟩
      rw [if_pos ⟨rfl, rfl⟩]
      exact List.append_ne_nil_of_right_ne_nil _ (List.cons_ne_nil c [])
    · rw [get_push_of_ne hx, h.outer x]
      refine exists_congr fun y => ?_
      rw [if_neg fun hxy => hx hxy.1, List.append_nil]
  sorted := SortedMap.pairwise_insert htransα htotalα a _ h.sorted
  inner_sorted e he := by
    rcases SortedMap.mem_insert he with rfl | he
    · refine SortedMap.pairwise_insert htransβ htotalβ b _ ?_
      cases hget : m.get a with
      | none => exact List.Pairwise.nil
      | some inner => exact h.inner_sorted (a, inner) (SortedMap.get_mem hget)
    · exact h.inner_sorted e he

theorem holds_collect (entries : List (α × β × γ)) :
    Holds (collect entries) (valuesAt entries) := by
  have hall : ∀ (l : List (α × β × γ)) (m : NestedMap α β γ) (values : α → β → List γ),
      Holds m values → Holds (l.foldl (fun m e => NestedMaps.push e.1 e.2.1 e.2.2 m) m)
        fun x y => values x y ++ valuesAt l x y := by
    intro l
    induction l with
    | nil =>
      intro m values h
      rw [List.foldl_nil]
      convert h using 1
      funext x y
      exact List.append_nil (values x y)
    | cons e rest ih =>
      intro m values h
      rw [List.foldl_cons]
      convert ih _ _ (h.push htransα htotalα htransβ htotalβ) using 1
      funext x y
      rw [List.append_assoc, valuesAt_cons]
  have hnil : Holds ([] : NestedMap α β γ) fun _ _ => [] :=
    ⟨fun _ _ => rfl, fun _ => iff_of_false Bool.false_ne_true fun ⟨_, hne⟩ => hne rfl,
      List.Pairwise.nil, nofun⟩
  exact hall entries [] _ hnil

end orders
end
end FaultLane.NestedMaps
