import Mathlib.Algebra.Order.Ring.Int
import Mathlib.Data.List.Dedup
import Mathlib.Algebra.BigOperators.Group.List.Basic

set_option autoImplicit false

/-!
# Sums by group

A list grouped by a key, with the sum of a weight over each group. Groups of groups are groups.
-/
namespace FaultLane.GroupedSums
variable {α β κ μ : Type} [DecidableEq κ] [DecidableEq μ]

/-- The sum over the elements that have the key. -/
def sumAt (f : α → κ) (w : α → Nat) (k : κ) (l : List α) : Nat :=
  ((l.filter fun a => f a = k).map w).sum

/-- `SELECT f, sum(w) … GROUP BY f`. -/
def groupSum (f : α → κ) (w : α → Nat) (l : List α) : List (κ × Nat) :=
  (l.map f).dedup.map fun k => (k, sumAt f w k l)

/-- `SELECT f, count(*) … GROUP BY f`. -/
def groupCount (f : α → κ) (l : List α) : List (κ × Nat) := groupSum f (fun _ => 1) l

section
variable {f : α → κ} {w : α → Nat} {l : List α}

@[simp] theorem sumAt_nil (k : κ) : sumAt f w k [] = 0 := rfl

theorem sumAt_cons (k : κ) (a : α) :
    sumAt f w k (a :: l) = (if f a = k then w a else 0) + sumAt f w k l := by
  unfold sumAt
  by_cases h : f a = k
  · simp [h]
  · simp [h]

theorem sumAt_one (k : κ) : sumAt f (fun _ => 1) k l = (l.map f).count k := by
  induction l with
  | nil => rfl
  | cons a l ih =>
    rw [sumAt_cons, ih, List.map_cons, List.count_cons]
    simp [Nat.add_comm]

theorem mem_groupSum {x : κ × Nat} :
    x ∈ groupSum f w l ↔ x.1 ∈ l.map f ∧ x.2 = sumAt f w x.1 l := by
  simp only [groupSum, List.mem_map (f := fun k => (k, sumAt f w k l)), List.mem_dedup]
  constructor
  · rintro ⟨k, hk, rfl⟩
    exact ⟨hk, rfl⟩
  · rintro ⟨hk, hn⟩
    exact ⟨x.1, hk, Prod.ext rfl hn.symm⟩

theorem groupSum_keys : (groupSum f w l).map Prod.fst = (l.map f).dedup := by
  rw [groupSum, List.map_map]
  exact List.map_id _

theorem sum_filter_ite {ks : List κ} (hks : ks.Nodup) (p : κ → Bool) (k₀ : κ) (hk : k₀ ∈ ks)
    (n : Nat) : (((ks.filter p).map fun k => if k₀ = k then n else 0).sum) =
      if p k₀ then n else 0 := by
  induction ks with
  | nil => cases hk
  | cons k ks ih =>
    obtain ⟨hnot, hks⟩ := List.nodup_cons.mp hks
    by_cases heq : k₀ = k
    · subst heq
      have hzero : ((ks.filter p).map fun k => if k₀ = k then n else 0).sum = 0 := by
        refine List.sum_eq_zero fun x hx => ?_
        obtain ⟨k, hk, rfl⟩ := List.mem_map.mp hx
        have hne : k₀ ≠ k := fun h => hnot (h.symm ▸ (List.mem_filter.mp hk).1)
        exact if_neg hne
      by_cases hp : p k₀
      · rw [List.filter_cons_of_pos hp, List.map_cons, List.sum_cons, hzero, if_pos rfl, if_pos hp,
          Nat.add_zero]
      · rw [List.filter_cons_of_neg hp, hzero, if_neg hp]
    · have hrest := ih hks ((List.mem_cons.mp hk).resolve_left heq)
      by_cases hp : p k
      · rw [List.filter_cons_of_pos hp, List.map_cons, List.sum_cons, if_neg heq, Nat.zero_add,
          hrest]
      · rw [List.filter_cons_of_neg hp, hrest]

/-- Summing over keys that cover the list, among those with a property. -/
theorem sum_sumAt {ks : List κ} (hks : ks.Nodup) (p : κ → Bool) (hl : ∀ a ∈ l, f a ∈ ks) :
    ((ks.filter p).map fun k => sumAt f w k l).sum = ((l.filter fun a => p (f a)).map w).sum := by
  induction l with
  | nil =>
    refine List.sum_eq_zero fun x hx => ?_
    obtain ⟨k, -, rfl⟩ := List.mem_map.mp hx
    rfl
  | cons a l ih =>
    have hrest := ih fun b hb => hl b (List.mem_cons_of_mem a hb)
    simp only [sumAt_cons, List.sum_map_add]
    rw [hrest, sum_filter_ite hks p (f a) (hl a List.mem_cons_self)]
    rw [List.filter_cons]
    by_cases hp : p (f a)
    · rw [if_pos hp, if_pos hp, List.map_cons, List.sum_cons]
    · rw [if_neg hp, if_neg hp, Nat.zero_add]

/-- Summing the groups that have a key is summing their elements. -/
theorem sumAt_groupSum (g : κ → μ) (m : μ) :
    sumAt (fun x => g x.1) Prod.snd m (groupSum f w l) = sumAt (fun a => g (f a)) w m l := by
  have hcover : ∀ a ∈ l, f a ∈ (l.map f).dedup := fun a ha =>
    List.mem_dedup.mpr (List.mem_map_of_mem ha)
  rw [sumAt, groupSum, List.filter_map, List.map_map]
  exact sum_sumAt (List.nodup_dedup _) (fun k => g k = m) hcover

omit [DecidableEq μ] in
theorem mem_map_groupSum (g : κ → μ) (m : μ) :
    m ∈ (groupSum f w l).map (fun x => g x.1) ↔ m ∈ l.map fun a => g (f a) := by
  have hkeys : (groupSum f w l).map (fun x => g x.1) = (l.map f).dedup.map g := by
    rw [← groupSum_keys (w := w), List.map_map]
    rfl
  rw [hkeys]
  simp only [List.mem_map, List.mem_dedup, exists_exists_and_eq_and]

theorem sum_groupCount : ((groupCount f l).map Prod.snd).sum = l.length := by
  have h := sumAt_groupSum (f := f) (w := fun _ => 1) (l := l) (fun _ => ()) ()
  simpa [sumAt, groupCount] using h

/-- One group for each different element, with the number of times that it occurs. -/
structure IsGrouping (groups : List (κ × Nat)) (l : List κ) : Prop where
  nodup : (groups.map Prod.fst).Nodup
  mem : ∀ x, x ∈ groups ↔ x.1 ∈ l ∧ x.2 = l.count x.1

theorem isGrouping_groupCount (f : α → κ) (l : List α) :
    IsGrouping (groupCount f l) (l.map f) where
  nodup := by
    rw [groupCount, groupSum_keys]
    exact List.nodup_dedup _
  mem := fun x => by
    rw [groupCount, mem_groupSum, sumAt_one]

theorem isGrouping_regrouped (f : α → κ) (g : κ → μ) (l : List α) :
    IsGrouping (groupSum (fun x => g x.1) Prod.snd (groupCount f l))
      (l.map fun a => g (f a)) where
  nodup := by
    rw [groupSum_keys]
    exact List.nodup_dedup _
  mem := fun x => by
    rw [mem_groupSum, groupCount, mem_map_groupSum, sumAt_groupSum, sumAt_one]

omit [DecidableEq μ] in
theorem mem_groupCount {g : κ × Nat} :
    g ∈ groupCount f l ↔ ∃ a ∈ l, g = (f a, l.countP fun b => f b = f a) := by
  have hcount : ∀ k, (l.map f).count k = l.countP fun b => f b = k := fun k => by
    rw [List.count_eq_countP, List.countP_map]
    refine List.countP_congr fun b _ => ?_
    simp only [Function.comp_apply, beq_iff_eq, decide_eq_true_eq]
  rw [(isGrouping_groupCount f l).mem, hcount, List.mem_map]
  constructor
  · rintro ⟨⟨a, ha, hk⟩, hn⟩
    exact ⟨a, ha, Prod.ext hk.symm (hk ▸ hn)⟩
  · rintro ⟨a, ha, rfl⟩
    exact ⟨⟨a, ha, rfl⟩, rfl⟩

end
end FaultLane.GroupedSums
