import FaultLane.KeyedTable
import Mathlib.Algebra.Order.BigOperators.Group.List
import Mathlib.Algebra.Order.Group.Multiset

set_option autoImplicit false

/-!
# Totals over a table

The sum of a quantity over the rows of a keyed table, and what an insert or an update of
one row makes of it.
-/
namespace FaultLane.KeyedTable.Table
variable {κ α M : Type} {key : α → κ} [AddCommMonoid M]

def total (t : Table key) (f : α → M) : M := (t.rows.map f).sum

@[simp] theorem total_empty (f : α → M) : (empty : Table key).total f = 0 := rfl

theorem total_congr {t : Table key} {f g : α → M} (h : ∀ a ∈ t, f a = g a) :
    t.total f = t.total g := by
  unfold total
  rw [List.map_congr_left h]

theorem mem_total {β : Type} {t : Table key} {f : α → Multiset β} {x : β} :
    x ∈ t.total f ↔ ∃ a ∈ t, x ∈ f a := by
  unfold total
  change _ ↔ ∃ a ∈ t.rows, x ∈ f a
  induction t.rows with
  | nil => simp
  | cons a l ih => simp only [List.map_cons, List.sum_cons, Multiset.mem_add, ih, List.mem_cons,
      exists_eq_or_imp]

section
variable [DecidableEq κ]

theorem total_insert {t : Table key} {a : α} (h : t.find (key a) = none) (f : α → M) :
    (t.insert a).total f = f a + t.total f := by
  have hk : key a ∉ t.rows.map key := by
    intro hm
    obtain ⟨c, hc, hkey⟩ := List.mem_map.mp hm
    exact find_eq_none.mp h c hc hkey
  rw [total, insert, dif_neg hk, List.map_cons, List.sum_cons, total]

theorem sum_map_update {k : κ} {g : α → α} {f : α → M} {l : List α} (hl : (l.map key).Nodup)
    {a : α} (ha : a ∈ l) (hk : key a = k) :
    (l.map fun b => f (if key b = k then g b else b)).sum + f a = (l.map f).sum + f (g a) := by
  induction l with
  | nil => cases ha
  | cons b rest ih =>
    obtain ⟨hb, hrest⟩ := List.nodup_cons.mp hl
    rw [List.map_cons, List.sum_cons, List.map_cons, List.sum_cons]
    rcases List.mem_cons.mp ha with rfl | ha
    · have hsame : rest.map (fun c => f (if key c = k then g c else c)) = rest.map f := by
        refine List.map_congr_left fun c hc => ?_
        have hne : key c ≠ k := fun heq => hb (List.mem_map.mpr ⟨c, hc, heq.trans hk.symm⟩)
        rw [if_neg hne]
      rw [hsame, if_pos hk, add_assoc, add_comm]
      exact congrArg (· + f (g a)) (add_comm _ _)
    · have hne : key b ≠ k := fun heq => hb (List.mem_map.mpr ⟨a, ha, hk.trans heq.symm⟩)
      rw [if_neg hne, add_assoc, ih hrest ha, ← add_assoc]

/-- An update trades what the old row counts for what the new one does. -/
theorem total_modify {t : Table key} {k : κ} {g : α → α} (hg : ∀ a, key (g a) = key a) {a : α}
    (h : t.find k = some a) (f : α → M) :
    (t.modify k g hg).total f + f a = t.total f + f (g a) := by
  obtain ⟨ha, hk⟩ := find_eq_some.mp h
  rw [total, modify, List.map_map]
  exact sum_map_update t.unique ha hk

theorem sum_map_filter {k : κ} {f : α → M} {l : List α} (hl : (l.map key).Nodup) {a : α}
    (ha : a ∈ l) (hk : key a = k) :
    (l.map f).sum = f a + ((l.filter fun b => key b ≠ k).map f).sum := by
  induction l with
  | nil => cases ha
  | cons b rest ih =>
    obtain ⟨hb, hrest⟩ := List.nodup_cons.mp hl
    rw [List.map_cons, List.sum_cons]
    rcases List.mem_cons.mp ha with rfl | ha
    · have hsame : (rest.filter fun b => key b ≠ k) = rest := by
        refine List.filter_eq_self.mpr fun c hc => ?_
        have hne : key c ≠ k := fun heq => hb (List.mem_map.mpr ⟨c, hc, heq.trans hk.symm⟩)
        simpa using hne
      rw [List.filter_cons_of_neg (by simpa using hk), hsame]
    · have hne : key b ≠ k := fun heq => hb (List.mem_map.mpr ⟨a, ha, hk.trans heq.symm⟩)
      rw [List.filter_cons_of_pos (by simpa using hne), List.map_cons, List.sum_cons, ih hrest ha,
        add_left_comm]

/-- The row with a key, and all others. -/
theorem total_delete {t : Table key} {k : κ} {a : α} (h : t.find k = some a) (f : α → M) :
    t.total f = f a + (t.delete k).total f := by
  obtain ⟨ha, hk⟩ := find_eq_some.mp h
  exact sum_map_filter t.unique ha hk

theorem delete_modify (t : Table key) (k : κ) {g : α → α} (hg : ∀ a, key (g a) = key a) :
    (t.modify k g hg).delete k = t.delete k := by
  have hkey : ∀ a, key (if key a = k then g a else a) = key a := fun a => by
    split_ifs
    · exact hg a
    · rfl
  refine Table.mk.injEq .. |>.mpr ?_
  change (t.rows.map _).filter _ = _
  rw [List.filter_map, List.map_congr_left (g := id), List.map_id]
  · refine List.filter_congr fun a _ => ?_
    rw [Function.comp_apply, hkey]
  · intro a ha
    have hne : key a ≠ k := by simpa [hkey] using (List.mem_filter.mp ha).2
    exact if_neg hne

theorem delete_insert (t : Table key) (a : α) :
    (t.insert a).delete (key a) = t.delete (key a) := by
  unfold insert
  split_ifs with h
  · rfl
  · refine Table.mk.injEq .. |>.mpr ?_
    exact List.filter_cons_of_neg (by simp)

theorem delete_eq_self {t : Table key} {k : κ} (h : t.find k = none) : t.delete k = t := by
  have hrows : (t.rows.filter fun a => key a ≠ k) = t.rows := by
    refine List.filter_eq_self.mpr fun a ha => ?_
    have hne := find_eq_none.mp h a ha
    simpa using hne
  cases t
  exact Table.mk.injEq .. |>.mpr hrows

theorem total_modify_delete {t : Table key} {k : κ} {g : α → α} (hg : ∀ a, key (g a) = key a)
    {a : α} (h : t.find k = some a) (f : α → M) :
    (t.modify k g hg).total f = f (g a) + (t.delete k).total f := by
  have hfind : (t.modify k g hg).find k = some (g a) := by
    rw [find_modify_self, h, Option.map_some]
  rw [total_delete hfind, delete_modify]

/-- An update that lowers what each row counts for. -/
theorem total_modify_le [PartialOrder M] [IsOrderedAddMonoid M] (t : Table key) (k : κ) {g : α → α}
    (hg : ∀ a, key (g a) = key a) {f : α → M} (h : ∀ a, f (g a) ≤ f a) :
    (t.modify k g hg).total f ≤ t.total f := by
  rw [total, modify, List.map_map, total]
  refine List.sum_le_sum fun a _ => ?_
  rw [Function.comp_apply]
  split_ifs
  · exact h a
  · exact le_rfl

end
end FaultLane.KeyedTable.Table
