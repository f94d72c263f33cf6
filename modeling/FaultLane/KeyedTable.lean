import Mathlib.Data.List.Nodup

set_option autoImplicit false

/-!
# Tables with a primary key

The rows of a table, no two with one key, under the statements that read and change them
by that key.
-/
namespace FaultLane.KeyedTable
variable {κ α : Type}

structure Table (key : α → κ) where
  rows : List α
  unique : (rows.map key).Nodup

namespace Table
variable {key : α → κ}

instance : Membership α (Table key) := ⟨fun t a => a ∈ t.rows⟩

theorem mem_rows {t : Table key} {a : α} : a ∈ t.rows ↔ a ∈ t := Iff.rfl

def empty : Table key := ⟨[], List.nodup_nil⟩

@[simp] theorem not_mem_empty (a : α) : a ∉ (empty : Table key) := List.not_mem_nil

theorem eq_of_key_eq {t : Table key} {a b : α} (ha : a ∈ t) (hb : b ∈ t) (h : key a = key b) :
    a = b :=
  List.inj_on_of_nodup_map t.unique ha hb h

/-- `UPDATE` of the row with a key, which the change leaves alone. -/
def modify [DecidableEq κ] (t : Table key) (k : κ) (f : α → α) (hf : ∀ a, key (f a) = key a) :
    Table key where
  rows := t.rows.map fun a => if key a = k then f a else a
  unique := by
    rw [List.map_map]
    convert t.unique using 2
    funext a
    by_cases h : key a = k
    · simp only [Function.comp_apply, if_pos h, hf]
    · simp only [Function.comp_apply, if_neg h]

/-- `DELETE` of the row with a key. -/
def delete [DecidableEq κ] (t : Table key) (k : κ) : Table key where
  rows := t.rows.filter fun a => key a ≠ k
  unique := t.unique.sublist (List.filter_sublist.map key)

/-- `DELETE` of the rows with a property. -/
def deleteWhere (t : Table key) (p : α → Prop) [DecidablePred p] : Table key where
  rows := t.rows.filter fun a => ¬p a
  unique := t.unique.sublist (List.filter_sublist.map key)

/-- `UPDATE` of all rows, which leaves their keys alone. -/
def updateAll (t : Table key) (f : α → α) (hf : ∀ a, key (f a) = key a) : Table key where
  rows := t.rows.map f
  unique := by
    rw [List.map_map, show key ∘ f = key from funext hf]
    exact t.unique

def find [DecidableEq κ] (t : Table key) (k : κ) : Option α := t.rows.find? fun a => key a = k

/-- `INSERT … ON CONFLICT DO NOTHING`. -/
def insert [DecidableEq κ] (t : Table key) (a : α) : Table key :=
  if h : key a ∈ t.rows.map key then t else ⟨a :: t.rows, List.nodup_cons.mpr ⟨h, t.unique⟩⟩

/-- `INSERT` of several rows, which fails where a key is taken. -/
def insertAll [DecidableEq κ] (t : Table key) : List α → Option (Table key)
  | [] => some t
  | a :: rest => if (t.find (key a)).isSome then none else (t.insert a).insertAll rest

section
variable [DecidableEq κ]

theorem find_eq_some {t : Table key} {k : κ} {a : α} :
    t.find k = some a ↔ a ∈ t ∧ key a = k := by
  constructor
  · intro h
    exact ⟨List.mem_of_find?_eq_some h, by simpa using List.find?_some h⟩
  · rintro ⟨ha, rfl⟩
    cases hf : t.find (key a) with
    | none => simpa using List.find?_eq_none.mp hf a ha
    | some b =>
      have hb : key b = key a := by simpa using List.find?_some hf
      rw [eq_of_key_eq (List.mem_of_find?_eq_some hf) ha hb]

theorem find_eq_none {t : Table key} {k : κ} : t.find k = none ↔ ∀ a ∈ t, key a ≠ k := by
  simp only [find, List.find?_eq_none, decide_eq_true_eq, mem_rows, ne_eq]

@[simp] theorem find_empty (k : κ) : (empty : Table key).find k = none := rfl

theorem mem_modify {t : Table key} {k : κ} {f : α → α} {hf : ∀ a, key (f a) = key a} {b : α} :
    b ∈ t.modify k f hf ↔ (b ∈ t ∧ key b ≠ k) ∨ ∃ a, t.find k = some a ∧ b = f a := by
  constructor
  · intro h
    obtain ⟨a, ha, rfl⟩ := List.mem_map.mp h
    by_cases hk : key a = k
    · rw [if_pos hk]
      exact .inr ⟨a, find_eq_some.mpr ⟨ha, hk⟩, rfl⟩
    · rw [if_neg hk]
      exact .inl ⟨ha, hk⟩
  · rintro (⟨hb, hk⟩ | ⟨a, ha, rfl⟩)
    · exact List.mem_map.mpr ⟨b, hb, if_neg hk⟩
    · obtain ⟨ha, hk⟩ := find_eq_some.mp ha
      exact List.mem_map.mpr ⟨a, ha, if_pos hk⟩

theorem modify_eq_self {t : Table key} {k : κ} {f : α → α} {hf : ∀ a, key (f a) = key a}
    (h : ∀ a ∈ t, key a = k → f a = a) : t.modify k f hf = t := by
  have hrows : (t.rows.map fun a => if key a = k then f a else a) = t.rows := by
    rw [List.map_congr_left (g := id), List.map_id]
    intro a ha
    split_ifs with hk
    · exact h a ha hk
    · rfl
  cases t
  exact Table.mk.injEq .. |>.mpr hrows

theorem mem_delete {t : Table key} {k : κ} {a : α} : a ∈ t.delete k ↔ a ∈ t ∧ key a ≠ k := by
  simp only [← mem_rows, delete, ne_eq, List.mem_filter, decide_eq_true_eq]

omit [DecidableEq κ] in
theorem mem_deleteWhere {t : Table key} {p : α → Prop} [DecidablePred p] {a : α} :
    a ∈ t.deleteWhere p ↔ a ∈ t ∧ ¬p a := by
  simp only [← mem_rows, deleteWhere, List.mem_filter, decide_eq_true_eq]

omit [DecidableEq κ] in
theorem mem_updateAll {t : Table key} {f : α → α} {hf : ∀ a, key (f a) = key a} {b : α} :
    b ∈ t.updateAll f hf ↔ ∃ a ∈ t, f a = b :=
  List.mem_map

theorem find_updateAll (t : Table key) (f : α → α) (hf : ∀ a, key (f a) = key a) (k : κ) :
    (t.updateAll f hf).find k = (t.find k).map f := by
  ext b
  simp only [find_eq_some, mem_updateAll, Option.map_eq_some_iff]
  constructor
  · rintro ⟨⟨a, ha, rfl⟩, hk⟩
    exact ⟨a, ⟨ha, (hf a).symm.trans hk⟩, rfl⟩
  · rintro ⟨a, ⟨ha, hk⟩, rfl⟩
    exact ⟨⟨a, ha, rfl⟩, (hf a).trans hk⟩

theorem rows_insert {t : Table key} {a : α} (h : t.find (key a) = none) :
    (t.insert a).rows = a :: t.rows := by
  have hk : key a ∉ t.rows.map key := by
    intro hm
    obtain ⟨c, hc, hkey⟩ := List.mem_map.mp hm
    exact find_eq_none.mp h c hc hkey
  rw [insert, dif_neg hk]

theorem mem_insert {t : Table key} {a b : α} (h : t.find (key a) = none) :
    b ∈ t.insert a ↔ b = a ∨ b ∈ t := by
  rw [← mem_rows, rows_insert h, List.mem_cons, mem_rows]

theorem mem_of_mem_insert {t : Table key} {a b : α} (h : b ∈ t.insert a) : b = a ∨ b ∈ t := by
  unfold insert at h
  split at h
  · exact .inr h
  · exact List.mem_cons.mp h

theorem mem_insert_of_mem {t : Table key} {a b : α} (h : b ∈ t) : b ∈ t.insert a := by
  unfold insert
  split
  · exact h
  · exact List.mem_cons_of_mem a h

@[simp] theorem find_modify_self (t : Table key) (k : κ) (f : α → α)
    (hf : ∀ a, key (f a) = key a) : (t.modify k f hf).find k = (t.find k).map f := by
  cases h : t.find k with
  | none =>
    refine find_eq_none.mpr fun b hb hk => ?_
    obtain ⟨_, hne⟩ | ⟨a, ha, _⟩ := mem_modify.mp hb
    · exact hne hk
    · rw [h] at ha
      cases ha
  | some a =>
    refine find_eq_some.mpr ⟨mem_modify.mpr (.inr ⟨a, h, rfl⟩), ?_⟩
    rw [hf, (find_eq_some.mp h).2]

@[simp] theorem find_modify_of_ne (t : Table key) {k k' : κ} (f : α → α)
    (hf : ∀ a, key (f a) = key a) (hk : k' ≠ k) : (t.modify k f hf).find k' = t.find k' := by
  ext a
  rw [find_eq_some, find_eq_some, mem_modify]
  constructor
  · rintro ⟨⟨ha, _⟩ | ⟨b, hb, rfl⟩, rfl⟩
    · exact ⟨ha, rfl⟩
    · exact absurd (by rw [hf, (find_eq_some.mp hb).2]) hk
  · rintro ⟨ha, rfl⟩
    exact ⟨.inl ⟨ha, hk⟩, rfl⟩

theorem isSome_find {t : Table key} {a : α} (ha : a ∈ t) : (t.find (key a)).isSome :=
  Option.isSome_of_mem (find_eq_some.mpr ⟨ha, rfl⟩)

theorem isSome_find_modify (t : Table key) (k k' : κ) (f : α → α)
    (hf : ∀ a, key (f a) = key a) : ((t.modify k f hf).find k').isSome = (t.find k').isSome := by
  by_cases hk : k' = k
  · rw [hk, find_modify_self, Option.isSome_map]
  · rw [find_modify_of_ne t f hf hk]

@[simp] theorem find_delete_self (t : Table key) (k : κ) : (t.delete k).find k = none :=
  find_eq_none.mpr fun _ ha => (mem_delete.mp ha).2

@[simp] theorem find_delete_of_ne (t : Table key) {k k' : κ} (hk : k' ≠ k) :
    (t.delete k).find k' = t.find k' := by
  ext a
  rw [find_eq_some, find_eq_some, mem_delete]
  constructor
  · rintro ⟨⟨ha, _⟩, rfl⟩
    exact ⟨ha, rfl⟩
  · rintro ⟨ha, rfl⟩
    exact ⟨⟨ha, hk⟩, rfl⟩

theorem find_insert_self {t : Table key} {a : α} (h : t.find (key a) = none) :
    (t.insert a).find (key a) = some a :=
  find_eq_some.mpr ⟨(mem_insert h).mpr (.inl rfl), rfl⟩

theorem find_insert_of_ne {t : Table key} {a : α} {k : κ} (hk : k ≠ key a) :
    (t.insert a).find k = t.find k := by
  by_cases hm : key a ∈ t.rows.map key
  · rw [insert, dif_pos hm]
  · rw [insert, dif_neg hm]
    exact List.find?_cons_of_neg (by simpa using hk.symm)

omit [DecidableEq κ] in
theorem eq_of_rows_eq {t t' : Table key} (h : t.rows = t'.rows) : t = t' := by
  cases t
  exact Table.mk.injEq .. |>.mpr h

/-- A change of the row that was inserted last is an insertion of the changed row. -/
theorem modify_insert {t : Table key} {a : α} {f : α → α} (hf : ∀ a, key (f a) = key a)
    (h : t.find (key a) = none) : (t.insert a).modify (key a) f hf = t.insert (f a) := by
  have hfresh : t.find (key (f a)) = none := (hf a).symm ▸ h
  have hothers := find_eq_none.mp h
  apply eq_of_rows_eq
  change (t.insert a).rows.map _ = _
  rw [rows_insert h, rows_insert hfresh, List.map_cons, if_pos rfl]
  congr 1
  rw [List.map_congr_left (g := id), List.map_id]
  exact fun b hb => if_neg (hothers b hb)

theorem delete_insert_self {t : Table key} {a : α} (h : t.find (key a) = none) :
    (t.insert a).delete (key a) = t := by
  have hothers := find_eq_none.mp h
  apply eq_of_rows_eq
  change (t.insert a).rows.filter _ = _
  rw [rows_insert h, List.filter_cons_of_neg (by simp), List.filter_eq_self]
  exact fun b hb => decide_eq_true (hothers b hb)

theorem insertAll_eq_some {t t' : Table key} {l : List α} (h : t.insertAll l = some t') :
    (l.map key).Nodup ∧ t'.rows = l.reverse ++ t.rows := by
  induction l generalizing t with
  | nil =>
    cases h
    exact ⟨List.nodup_nil, rfl⟩
  | cons a rest ih =>
    rw [insertAll] at h
    split_ifs at h with hnew
    have hnew := Option.not_isSome_iff_eq_none.mp hnew
    obtain ⟨hnodup, hrows⟩ := ih h
    rw [rows_insert hnew] at hrows
    refine ⟨List.nodup_cons.mpr ⟨fun hmem => ?_, hnodup⟩, ?_⟩
    · have hunique := t'.unique
      rw [hrows, List.map_append, List.map_reverse] at hunique
      have hdisjoint := (List.nodup_append.mp hunique).2.2
      exact hdisjoint (key a) (List.mem_reverse.mpr hmem) (key a) List.mem_cons_self rfl
    · rw [hrows, List.reverse_cons, List.append_assoc, List.singleton_append]

theorem insertAll_isSome {t : Table key} {l : List α} (hn : (l.map key).Nodup)
    (hnew : ∀ a ∈ l, t.find (key a) = none) : ∃ t', t.insertAll l = some t' := by
  induction l generalizing t with
  | nil => exact ⟨t, rfl⟩
  | cons a rest ih =>
    obtain ⟨hhead, htail⟩ := List.nodup_cons.mp hn
    have ha : t.find (key a) = none := hnew a List.mem_cons_self
    have hrest : ∀ b ∈ rest, (t.insert a).find (key b) = none := by
      intro b hb
      have hne : key b ≠ key a := fun heq => hhead (List.mem_map.mpr ⟨b, hb, heq⟩)
      rw [find_insert_of_ne hne]
      exact hnew b (List.mem_cons_of_mem a hb)
    obtain ⟨t', ht'⟩ := ih htail hrest
    refine ⟨t', ?_⟩
    rw [insertAll, ha, Option.isSome_none, if_neg Bool.false_ne_true]
    exact ht'

end
end Table
end FaultLane.KeyedTable
