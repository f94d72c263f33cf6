import Mathlib.Data.List.Basic

set_option autoImplicit false

/-!
# Maps kept as key-ordered association lists

The map of an ordered-tree container, seen through its iteration order. Keys need
a decidable order for insertion only; no law of the order is used here.
-/
namespace FaultLane

abbrev SortedMap (α β : Type) := List (α × β)

namespace SortedMap
variable {α β : Type} [DecidableEq α]

def get (key : α) : SortedMap α β → Option β
  | [] => none
  | (k, v) :: rest => if k = key then some v else get key rest

def keys (m : SortedMap α β) : List α := m.map Prod.fst

def values (m : SortedMap α β) : List β := m.map Prod.snd

def containsKey (key : α) (m : SortedMap α β) : Bool := (get key m).isSome

/-- A key that is there keeps its place and takes the new value. -/
def insert [LT α] [DecidableLT α] (key : α) (value : β) : SortedMap α β → SortedMap α β
  | [] => [(key, value)]
  | (k, v) :: rest =>
    if key = k then (key, value) :: rest
    else if key < k then (key, value) :: (k, v) :: rest
    else (k, v) :: insert key value rest

/-- The entry of `key` is given the value `f` makes of the present one. -/
def alter [LT α] [DecidableLT α] (key : α) (f : Option β → β) (m : SortedMap α β) :
    SortedMap α β :=
  insert key (f (get key m)) m

def ofFields [LT α] [DecidableLT α] (fields : List (α × β)) : SortedMap α β :=
  fields.foldr (fun f m => insert f.1 f.2 m) []

@[simp] theorem get_nil (key : α) : get key ([] : SortedMap α β) = none := rfl

@[simp] theorem get_cons (key k : α) (v : β) (rest : SortedMap α β) :
    get key ((k, v) :: rest) = if k = key then some v else get key rest := rfl

theorem get_append (key : α) (m n : SortedMap α β) :
    get key (m ++ n) = (get key m).or (get key n) := by
  induction m with
  | nil => rfl
  | cons head rest ih =>
    obtain ⟨k, v⟩ := head
    rw [List.cons_append, get_cons, get_cons, ih]
    split_ifs <;> rfl

theorem get_mem {key : α} {v : β} {m : SortedMap α β} (h : get key m = some v) :
    (key, v) ∈ m := by
  induction m with
  | nil => cases h
  | cons head rest ih =>
    obtain ⟨k, w⟩ := head
    rw [get_cons] at h
    split_ifs at h with hk
    · cases h
      exact hk ▸ List.mem_cons_self
    · exact List.mem_cons_of_mem _ (ih h)

section Insertion
variable [LT α] [DecidableLT α]

theorem get_insert (key k : α) (value : β) (m : SortedMap α β) :
    get key (insert k value m) = if k = key then some value else get key m := by
  induction m with
  | nil => rfl
  | cons head rest ih =>
    obtain ⟨l, v⟩ := head
    by_cases hk : k = l
    · subst hk
      simp only [insert, ↓reduceIte, get_cons]
      split_ifs <;> rfl
    · by_cases hlt : k < l
      · simp [insert, hk, hlt]
      · simp only [insert, hk, hlt, ↓reduceIte, get_cons, ih]
        by_cases hl : l = key
        · simp [hl, show k ≠ key from fun h => hk (h.trans hl.symm)]
        · simp [hl]

theorem get_alter (key k : α) (f : Option β → β) (m : SortedMap α β) :
    get key (alter k f m) = if k = key then some (f (get k m)) else get key m :=
  get_insert key k (f (get k m)) m

theorem mem_keys_insert (key k : α) (value : β) (m : SortedMap α β) :
    key ∈ keys (insert k value m) ↔ key = k ∨ key ∈ keys m := by
  induction m with
  | nil => simp [insert, keys]
  | cons head rest ih =>
    obtain ⟨l, v⟩ := head
    by_cases hk : k = l
    · subst hk
      simp [insert, keys]
    · by_cases hlt : k < l
      · simp [insert, keys, hk, hlt]
      · simp only [keys] at ih
        simp only [insert, keys, hk, hlt, ↓reduceIte, List.map_cons, List.mem_cons, ih]
        tauto

theorem length_insert (k : α) (value : β) (m : SortedMap α β) (h : k ∉ keys m) :
    (insert k value m).length = m.length + 1 := by
  induction m with
  | nil => rfl
  | cons head rest ih =>
    obtain ⟨l, v⟩ := head
    simp only [keys, List.map_cons, List.mem_cons, not_or] at h
    by_cases hlt : k < l
    · simp [insert, h.1, hlt]
    · simp [insert, h.1, hlt, ih h.2]

/-- A built map answers as the field list it was built from does. -/
@[simp] theorem get_ofFields (key : α) (fields : List (α × β)) :
    get key (ofFields fields) = get key fields := by
  induction fields with
  | nil => rfl
  | cons head rest ih =>
    obtain ⟨k, v⟩ := head
    change get key (insert k v (ofFields rest)) = _
    rw [get_insert, ih, get_cons]

theorem mem_keys_ofFields (key : α) (fields : List (α × β)) :
    key ∈ keys (ofFields fields) ↔ key ∈ keys fields := by
  induction fields with
  | nil => simp [ofFields, keys]
  | cons head rest ih =>
    obtain ⟨k, v⟩ := head
    change key ∈ keys (insert k v (ofFields rest)) ↔ _
    rw [mem_keys_insert, ih]
    simp [keys]

theorem length_ofFields (fields : List (α × β)) (h : (keys fields).Nodup) :
    (ofFields fields).length = fields.length := by
  induction fields with
  | nil => rfl
  | cons head rest ih =>
    obtain ⟨k, v⟩ := head
    simp only [keys, List.map_cons, List.nodup_cons] at h
    change (insert k v (ofFields rest)).length = _
    rw [length_insert _ _ _ (fun hk => h.1 ((mem_keys_ofFields k rest).mp hk)), ih h.2]
    rfl

theorem mem_insert {e : α × β} {k : α} {value : β} {m : SortedMap α β}
    (h : e ∈ insert k value m) : e = (k, value) ∨ e ∈ m := by
  induction m with
  | nil => exact Or.inl (List.mem_singleton.mp h)
  | cons head rest ih =>
    obtain ⟨l, v⟩ := head
    unfold insert at h
    split_ifs at h
    · rcases List.mem_cons.mp h with h | h
      · exact Or.inl h
      · exact Or.inr (List.mem_cons_of_mem _ h)
    · exact List.mem_cons.mp h
    · rcases List.mem_cons.mp h with h | h
      · exact Or.inr (h ▸ List.mem_cons_self)
      · exact (ih h).imp_right (List.mem_cons_of_mem _)

theorem mem_ofFields {e : α × β} {fields : List (α × β)} (h : e ∈ ofFields fields) :
    e ∈ fields := by
  induction fields with
  | nil => exact absurd h List.not_mem_nil
  | cons head rest ih =>
    obtain ⟨k, v⟩ := head
    rcases mem_insert h with h | h
    · exact h ▸ List.mem_cons_self
    · exact List.mem_cons_of_mem _ (ih h)

theorem insert_perm {k : α} (value : β) {m : SortedMap α β} (h : k ∉ keys m) :
    (insert k value m).Perm ((k, value) :: m) := by
  induction m with
  | nil => exact List.Perm.refl _
  | cons head rest ih =>
    obtain ⟨l, v⟩ := head
    simp only [keys, List.map_cons, List.mem_cons, not_or] at h
    unfold insert
    rw [if_neg h.1]
    split_ifs
    · exact List.Perm.refl _
    · exact ((ih h.2).cons _).trans (List.Perm.swap _ _ _)

/-- A map built of different keys holds the fields that it was built from. -/
theorem ofFields_perm {fields : List (α × β)} (h : (keys fields).Nodup) :
    (ofFields fields).Perm fields := by
  induction fields with
  | nil => exact List.Perm.refl _
  | cons head rest ih =>
    obtain ⟨k, v⟩ := head
    simp only [keys, List.map_cons, List.nodup_cons] at h
    have hkey : k ∉ keys (ofFields rest) := fun hk => h.1 ((mem_keys_ofFields k rest).mp hk)
    exact (insert_perm v hkey).trans ((ih h.2).cons _)

/-- In a total order the keys stay in order. -/
theorem pairwise_insert (htrans : ∀ a b c : α, a < b → b < c → a < c)
    (htotal : ∀ a b : α, a ≠ b → ¬ a < b → b < a) (k : α) (value : β) {m : SortedMap α β}
    (h : (keys m).Pairwise (· < ·)) : (keys (insert k value m)).Pairwise (· < ·) := by
  induction m with
  | nil => exact List.pairwise_singleton _ _
  | cons head rest ih =>
    obtain ⟨l, v⟩ := head
    obtain ⟨hhead, hrest⟩ := List.pairwise_cons.mp h
    unfold insert
    split_ifs with hkey hlt
    · subst hkey
      exact h
    · refine List.pairwise_cons.mpr ⟨fun a ha => ?_, h⟩
      rcases List.mem_cons.mp ha with ha | ha
      · exact ha ▸ hlt
      · exact htrans _ _ _ hlt (hhead a ha)
    · refine List.pairwise_cons.mpr ⟨fun a ha => ?_, ih hrest⟩
      rcases (mem_keys_insert a k value rest).mp ha with ha | ha
      · exact ha ▸ htotal k l hkey hlt
      · exact hhead a ha

/-- The values of a map are rewritten under their keys. -/
theorem map_insert {γ : Type} (f : α → β → γ) (key : α) (value : β) (m : SortedMap α β) :
    (insert key value m).map (fun e => (e.1, f e.1 e.2)) =
      insert key (f key value) (m.map fun e => (e.1, f e.1 e.2)) := by
  induction m with
  | nil => rfl
  | cons head rest ih =>
    obtain ⟨k, v⟩ := head
    simp only [insert, List.map_cons]
    split_ifs with hkey hlt
    · rfl
    · rfl
    · rw [List.map_cons, ih]

theorem map_ofFields {γ : Type} (f : α → β → γ) (fields : List (α × β)) :
    (ofFields fields).map (fun e => (e.1, f e.1 e.2)) =
      ofFields (fields.map fun e => (e.1, f e.1 e.2)) := by
  induction fields with
  | nil => rfl
  | cons head rest ih =>
    change (insert head.1 head.2 (ofFields rest)).map _ = insert _ _ (ofFields _)
    rw [map_insert, ih]

end Insertion

end SortedMap
end FaultLane
