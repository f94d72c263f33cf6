import Mathlib.Data.Finset.Card
import Mathlib.Data.List.Nodup

set_option autoImplicit false

/-!
# Full outer joins

A full outer join of two lists of rows, and how many of its rows tell the lists apart when
each has one row for a key.
-/
namespace FaultLane.OuterJoin
variable {α β : Type}

/-- `FULL OUTER JOIN … ON`. -/
def fullOuterJoin (on : α → β → Prop) [∀ a, DecidablePred (on a)] (left : List α)
    (right : List β) : List (Option α × Option β) :=
  (left.flatMap fun a =>
    match right.filter fun b => on a b with
    | [] => [(some a, none)]
    | partners => partners.map fun b => (some a, some b)) ++
  (right.filter fun b => ∀ a ∈ left, ¬on a b).map fun b => (none, some b)

section restriction
variable (p : β → Prop) [DecidablePred p] (on : α → β → Prop) [∀ a, DecidablePred (on a)]
  (q : Option α × Option β → Bool) (left : List α) (right : List β)

/-- Where the condition also restricts the right rows, the other right rows are left over. -/
theorem countP_restricted (hq : ∀ b, q (none, some b) = true) :
    (fullOuterJoin (fun a b => p b ∧ on a b) left right).countP q =
      (fullOuterJoin on left (right.filter fun b => p b)).countP q +
        (right.filter fun b => ¬p b).length := by
  have hpartners : ∀ a, (right.filter fun b => p b ∧ on a b) =
      (right.filter fun b => p b).filter fun b => on a b := by
    intro a
    rw [List.filter_filter]
    refine List.filter_congr fun b _ => ?_
    rw [Bool.decide_and, Bool.and_comm]
  have hall : ∀ l : List β, (l.map fun b => ((none, some b) : Option α × Option β)).countP q =
      l.length := by
    intro l
    rw [List.countP_map]
    exact List.countP_eq_length.mpr fun b _ => hq b
  have hleft : (right.filter fun b => ∀ a ∈ left, ¬(p b ∧ on a b)).length =
      ((right.filter fun b => p b).filter fun b => ∀ a ∈ left, ¬on a b).length +
        (right.filter fun b => ¬p b).length := by
    rw [← List.countP_eq_length_filter, List.countP_eq_countP_filter_add _ _ fun b => p b,
      ← List.countP_eq_length_filter]
    refine congrArg₂ (· + ·) (List.countP_congr fun b hb => ?_) ?_
    · have hp : p b := of_decide_eq_true (List.mem_filter.mp hb).2
      simp only [hp, true_and]
    · have hnot : (right.filter fun b => !decide (p b)) = right.filter fun b => ¬p b :=
        List.filter_congr fun b _ => decide_not.symm
      rw [hnot]
      refine List.countP_eq_length.mpr fun b hb => decide_eq_true fun a _ h => ?_
      exact of_decide_eq_true (List.mem_filter.mp hb).2 h.1
  unfold fullOuterJoin
  rw [List.countP_append, List.countP_append, hall, hall, hleft]
  simp only [hpartners]
  omega

end restriction

section keyed
variable {κ φ : Type} [DecidableEq κ] (k₁ : α → κ) (k₂ : β → κ) (f₁ : α → φ) (f₂ : β → φ)

/-- What a list has under a key. -/
def figure (key : α → κ) (f : α → φ) (l : List α) (k : κ) : Option φ :=
  (l.find? fun a => key a = k).map f

theorem find?_of_mem {key : α → κ} {l : List α} (hn : (l.map key).Nodup) {a : α} (ha : a ∈ l) :
    (l.find? fun x => key x = key a) = some a := by
  cases hf : l.find? fun x => key x = key a with
  | none => simpa using List.find?_eq_none.mp hf a ha
  | some b =>
    have hb : key b = key a := by simpa using List.find?_some hf
    rw [List.inj_on_of_nodup_map hn (List.mem_of_find?_eq_some hf) ha hb]

theorem figure_of_mem {key : α → κ} {f : α → φ} {l : List α} (hn : (l.map key).Nodup) {a : α}
    (ha : a ∈ l) : figure key f l (key a) = some (f a) := by
  rw [figure, find?_of_mem hn ha]
  rfl

theorem figure_eq_none {key : α → κ} {f : α → φ} {l : List α} {k : κ} (hk : k ∉ l.map key) :
    figure key f l k = none := by
  rw [figure, Option.map_eq_none_iff, List.find?_eq_none]
  intro a ha heq
  exact hk (List.mem_map.mpr ⟨a, ha, of_decide_eq_true heq⟩)

theorem filter_key_eq {key : α → κ} {l : List α} (hn : (l.map key).Nodup) (k : κ) :
    (l.filter fun a => key a = k) = (l.find? fun a => key a = k).toList := by
  induction l with
  | nil => rfl
  | cons a l ih =>
    obtain ⟨hhead, htail⟩ := List.nodup_cons.mp hn
    by_cases hk : key a = k
    · subst hk
      have hrest : (l.filter fun x => key x = key a) = [] := by
        refine List.filter_eq_nil_iff.mpr fun x hx heq => hhead ?_
        exact List.mem_map.mpr ⟨x, hx, of_decide_eq_true heq⟩
      rw [List.filter_cons, List.find?_cons, decide_eq_true (rfl : key a = key a), if_pos rfl,
        hrest]
      rfl
    · rw [List.filter_cons, List.find?_cons, decide_eq_false hk, if_neg Bool.false_ne_true]
      exact ih htail

variable {left : List α} {right : List β}

/-- With one right row for a key, each left row stands once, beside its partner. -/
theorem fullOuterJoin_keyed (hr : (right.map k₂).Nodup) :
    fullOuterJoin (fun a b => k₂ b = k₁ a) left right =
      (left.map fun a => (some a, right.find? fun b => k₂ b = k₁ a)) ++
        (right.filter fun b => k₂ b ∉ left.map k₁).map fun b => (none, some b) := by
  unfold fullOuterJoin
  congr 1
  · rw [List.map_eq_flatMap]
    refine congrArg (fun f => left.flatMap f) (funext fun a => ?_)
    rw [filter_key_eq hr]
    cases right.find? fun b => k₂ b = k₁ a with
    | none => rfl
    | some b => rfl
  · congr 1
    refine List.filter_congr fun b _ => decide_eq_decide.mpr ?_
    constructor
    · intro h hmem
      obtain ⟨a, ha, heq⟩ := List.mem_map.mp hmem
      exact h a ha heq.symm
    · intro h a ha heq
      exact h (List.mem_map.mpr ⟨a, ha, heq.symm⟩)

/-- The rows that tell the lists apart are as many as the keys under which they differ. -/
theorem countP_fullOuterJoin [DecidableEq φ] (hl : (left.map k₁).Nodup)
    (hr : (right.map k₂).Nodup) :
    (fullOuterJoin (fun a b => k₂ b = k₁ a) left right).countP
        (fun x => x.1.map f₁ ≠ x.2.map f₂) =
      (((left.map k₁).toFinset ∪ (right.map k₂).toFinset).filter fun k =>
        figure k₁ f₁ left k ≠ figure k₂ f₂ right k).card := by
  have hright : ((right.map k₂).toFinset \ (left.map k₁).toFinset).filter
      (fun k => figure k₁ f₁ left k ≠ figure k₂ f₂ right k) =
        ((right.filter fun b => k₂ b ∉ left.map k₁).map k₂).toFinset := by
    ext k
    simp only [Finset.mem_filter, Finset.mem_sdiff, List.mem_toFinset, List.mem_map,
      List.mem_filter, decide_eq_true_eq]
    constructor
    · rintro ⟨⟨⟨b, hb, rfl⟩, hk⟩, -⟩
      exact ⟨b, ⟨hb, hk⟩, rfl⟩
    · rintro ⟨b, ⟨hb, hk⟩, rfl⟩
      refine ⟨⟨⟨b, hb, rfl⟩, hk⟩, ?_⟩
      have hnone : figure k₁ f₁ left (k₂ b) = none :=
        figure_eq_none fun hmem => hk (List.mem_map.mp hmem)
      rw [hnone, figure_of_mem hr hb]
      exact nofun
  have hleft : (left.map k₁).toFinset.filter
      (fun k => figure k₁ f₁ left k ≠ figure k₂ f₂ right k) =
        ((left.filter fun a => some (f₁ a) ≠ figure k₂ f₂ right (k₁ a)).map k₁).toFinset := by
    ext k
    simp only [Finset.mem_filter, List.mem_toFinset, List.mem_map, List.mem_filter,
      decide_eq_true_eq]
    constructor
    · rintro ⟨⟨a, ha, rfl⟩, hne⟩
      rw [figure_of_mem hl ha] at hne
      exact ⟨a, ⟨ha, hne⟩, rfl⟩
    · rintro ⟨a, ⟨ha, hne⟩, rfl⟩
      rw [figure_of_mem hl ha]
      exact ⟨⟨a, ha, rfl⟩, hne⟩
  have hdisjoint : Disjoint ((left.map k₁).toFinset.filter
        fun k => figure k₁ f₁ left k ≠ figure k₂ f₂ right k)
      (((right.map k₂).toFinset \ (left.map k₁).toFinset).filter
        fun k => figure k₁ f₁ left k ≠ figure k₂ f₂ right k) :=
    (Finset.disjoint_sdiff).mono (Finset.filter_subset _ _) (Finset.filter_subset _ _)
  have hleftNodup : ((left.filter fun a => some (f₁ a) ≠ figure k₂ f₂ right (k₁ a)).map k₁).Nodup :=
    hl.sublist (List.filter_sublist.map k₁)
  have hrightNodup : ((right.filter fun b => k₂ b ∉ left.map k₁).map k₂).Nodup :=
    hr.sublist (List.filter_sublist.map k₂)
  rw [← Finset.union_sdiff_self_eq_union, Finset.filter_union,
    Finset.card_union_of_disjoint hdisjoint, hleft, hright, List.toFinset_card_of_nodup hleftNodup,
    List.toFinset_card_of_nodup hrightNodup, fullOuterJoin_keyed k₁ k₂ hr, List.countP_append,
    List.countP_map, List.countP_map, List.length_map, List.length_map,
    ← List.countP_eq_length_filter]
  congr 1
  refine List.countP_eq_length.mpr fun b _ => ?_
  have hne : (none : Option α).map f₁ ≠ (some b).map f₂ := nofun
  exact decide_eq_true hne

end keyed
end FaultLane.OuterJoin
