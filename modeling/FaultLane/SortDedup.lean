import Mathlib.Data.List.Sort
import Mathlib.Data.List.Lex
import Mathlib.Data.Char

set_option autoImplicit false

/-!
# Sorted lists without repeats

`sort` and then `dedup`: the result is the sorted list of the set of elements, so it
does not depend on their order or on how often each occurs.
-/
namespace FaultLane.SortDedup
variable {α β : Type} [LinearOrder β] (key : α → β)

def sortBy (l : List α) : List α := l.insertionSort fun a b => key a ≤ key b

/-- `Vec::dedup`: of equal neighbours one is kept. -/
def dedup [DecidableEq α] : List α → List α
  | a :: b :: rest => if a = b then dedup (b :: rest) else a :: dedup (b :: rest)
  | l => l

def sortDedup [DecidableEq α] (l : List α) : List α := dedup (sortBy key l)

section Sorted
variable {key}

theorem pairwise_sortBy (l : List α) : (sortBy key l).Pairwise fun a b => key a ≤ key b := by
  have : Std.Total fun a b : α => key a ≤ key b := ⟨fun a b => le_total (key a) (key b)⟩
  have : IsTrans α fun a b => key a ≤ key b := ⟨fun a b c => le_trans⟩
  exact List.pairwise_insertionSort _ l

/-- Strictly increasing lists with the same elements are equal. -/
theorem eq_of_increasing {l l' : List α} (h : l.Pairwise fun a b => key a < key b)
    (h' : l'.Pairwise fun a b => key a < key b) (hmem : ∀ x, x ∈ l ↔ x ∈ l') : l = l' := by
  have hne : ∀ {m : List α}, m.Pairwise (fun a b => key a < key b) → m.Nodup := fun hm =>
    hm.imp fun hlt heq => absurd (congrArg key heq) (ne_of_lt hlt)
  have hperm : l.Perm l' := (List.perm_ext_iff_of_nodup (hne h) (hne h')).mpr hmem
  refine hperm.eq_of_pairwise (fun a b _ _ hab hba => ?_) h h'
  exact absurd hab (lt_asymm hba)

end Sorted

section Laws
variable [DecidableEq α]

theorem mem_dedup (x : α) (l : List α) : x ∈ dedup l ↔ x ∈ l := by
  induction l using dedup.induct with
  | case1 a rest ih =>
    rw [dedup, if_pos rfl, ih]
    simp
  | case2 a b rest h ih =>
    rw [dedup, if_neg h, List.mem_cons, ih, ← List.mem_cons]
  | case3 l h => rw [dedup]; exact h

theorem mem_sortDedup (x : α) (l : List α) : x ∈ sortDedup key l ↔ x ∈ l := by
  rw [sortDedup, mem_dedup, sortBy, List.mem_insertionSort]

variable {key}

/-- In a sorted list equal elements are neighbours, so what is left increases strictly. -/
theorem pairwise_dedup (hkey : Function.Injective key) {l : List α}
    (h : l.Pairwise fun a b => key a ≤ key b) : (dedup l).Pairwise fun a b => key a < key b := by
  induction l using dedup.induct with
  | case1 a rest ih =>
    rw [dedup, if_pos rfl]
    exact ih (List.pairwise_cons.mp h).2
  | case2 a b rest hab ih =>
    obtain ⟨ha, hrest⟩ := List.pairwise_cons.mp h
    rw [dedup, if_neg hab, List.pairwise_cons]
    refine ⟨fun x hx => ?_, ih hrest⟩
    have hb : key a < key b :=
      lt_of_le_of_ne (ha b List.mem_cons_self) fun heq => hab (hkey heq)
    rcases List.mem_cons.mp ((mem_dedup x _).mp hx) with rfl | hx
    · exact hb
    · exact lt_of_lt_of_le hb ((List.pairwise_cons.mp hrest).1 x hx)
  | case3 l hl =>
    rw [dedup]
    · rcases l with _ | ⟨a, _ | ⟨b, rest⟩⟩
      · exact List.Pairwise.nil
      · exact List.pairwise_singleton _ a
      · exact absurd rfl (hl a b rest)
    · exact hl

theorem sortDedup_ext (hkey : Function.Injective key) {l l' : List α}
    (h : ∀ x, x ∈ l ↔ x ∈ l') : sortDedup key l = sortDedup key l' := by
  refine eq_of_increasing (pairwise_dedup hkey (pairwise_sortBy l))
    (pairwise_dedup hkey (pairwise_sortBy l')) fun x => ?_
  exact (mem_sortDedup key x l).trans ((h x).trans (mem_sortDedup key x l').symm)

/-- Sorting and deduplicating after each push is the same as doing it once. -/
theorem sortDedup_push (hkey : Function.Injective key) (l : List α) (a : α) :
    sortDedup key (sortDedup key l ++ [a]) = sortDedup key (l ++ [a]) := by
  apply sortDedup_ext hkey
  intro x
  rw [List.mem_append, List.mem_append, mem_sortDedup]

end Laws
end FaultLane.SortDedup
