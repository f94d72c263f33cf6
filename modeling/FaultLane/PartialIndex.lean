import FaultLane.KeyedTable

set_option autoImplicit false

/-!
# Tables with a partial unique index

A keyed table whose rows under a condition differ in an index. An update may lift the
condition from a row, and an insert is refused when the index is taken.
-/
namespace FaultLane.KeyedTable
variable {κ ι α : Type}

structure IndexedTable (key : α → κ) (p : α → Prop) (index : α → ι) where
  table : Table key
  indexed : ∀ a ∈ table, ∀ b ∈ table, p a → p b → index a = index b → a = b

namespace IndexedTable
variable {key : α → κ} {p : α → Prop} {index : α → ι}

instance : Membership α (IndexedTable key p index) := ⟨fun t a => a ∈ t.table⟩

def empty : IndexedTable key p index := ⟨.empty, nofun⟩

@[simp] theorem not_mem_empty (a : α) : a ∉ (empty : IndexedTable key p index) := Table.not_mem_empty a

theorem eq_of_key_eq {t : IndexedTable key p index} {a b : α} (ha : a ∈ t) (hb : b ∈ t)
    (h : key a = key b) : a = b := Table.eq_of_key_eq ha hb h

section
variable [DecidableEq κ]

def find (t : IndexedTable key p index) (k : κ) : Option α := t.table.find k

theorem find_eq_some {t : IndexedTable key p index} {k : κ} {a : α} :
    t.find k = some a ↔ a ∈ t ∧ key a = k := Table.find_eq_some

theorem find_eq_none {t : IndexedTable key p index} {k : κ} :
    t.find k = none ↔ ∀ a ∈ t, key a ≠ k := Table.find_eq_none

/-- `UPDATE` of the row with a key. -/
def modify (t : IndexedTable key p index) (k : κ) (f : α → α) (hf : ∀ a, key (f a) = key a)
    (hi : ∀ a, index (f a) = index a) (hp : ∀ a, p (f a) → p a) : IndexedTable key p index where
  table := t.table.modify k f hf
  indexed a ha b hb hpa hpb hab := by
    rcases Table.mem_modify.mp ha with ⟨ha, hka⟩ | ⟨a, hfa, rfl⟩ <;>
      rcases Table.mem_modify.mp hb with ⟨hb, hkb⟩ | ⟨b, hfb, rfl⟩
    · exact t.indexed a ha b hb hpa hpb hab
    · obtain ⟨hb, hkb⟩ := Table.find_eq_some.mp hfb
      obtain rfl := t.indexed a ha b hb hpa (hp b hpb) (hab.trans (hi b))
      exact absurd hkb hka
    · obtain ⟨ha, hka⟩ := Table.find_eq_some.mp hfa
      obtain rfl := t.indexed a ha b hb (hp a hpa) hpb ((hi a).symm.trans hab)
      exact absurd hka hkb
    · rw [hfa] at hfb
      cases hfb
      rfl

theorem mem_modify {t : IndexedTable key p index} {k : κ} {f : α → α}
    {hf : ∀ a, key (f a) = key a} {hi : ∀ a, index (f a) = index a} {hp : ∀ a, p (f a) → p a}
    {b : α} : b ∈ t.modify k f hf hi hp ↔ (b ∈ t ∧ key b ≠ k) ∨ ∃ a, t.find k = some a ∧ b = f a :=
  @Table.mem_modify _ _ _ _ _ _ _ hf _

/-- `INSERT` of a row with a new key, which the index may refuse. -/
def insert [DecidableEq ι] [DecidablePred p] (t : IndexedTable key p index) (a : α) :
    Option (IndexedTable key p index) :=
  if h : t.table.find (key a) = none ∧ ∀ b ∈ t.table.rows, ¬ (p a ∧ p b ∧ index a = index b) then
    some
      { table := t.table.insert a
        indexed := by
          intro x hx y hy hpx hpy hxy
          have hx' := (Table.mem_insert h.1).mp hx
          have hy' := (Table.mem_insert h.1).mp hy
          rcases hx' with rfl | hx' <;> rcases hy' with rfl | hy'
          · rfl
          · exact absurd ⟨hpx, hpy, hxy⟩ (h.2 y hy')
          · exact absurd ⟨hpy, hpx, hxy.symm⟩ (h.2 x hx')
          · exact t.indexed x hx' y hy' hpx hpy hxy }
  else none

theorem insert_eq_some [DecidableEq ι] [DecidablePred p] {t t' : IndexedTable key p index} {a : α}
    (h : t.insert a = some t') : t.find (key a) = none ∧ ∀ b, b ∈ t' ↔ b = a ∨ b ∈ t := by
  unfold insert at h
  split at h
  · next hnew =>
    cases h
    exact ⟨hnew.1, fun b => Table.mem_insert hnew.1⟩
  · cases h

end
end IndexedTable
end FaultLane.KeyedTable
