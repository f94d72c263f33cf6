import FaultLane.LabelledTally
import Mathlib.Algebra.Order.Group.Multiset

set_option autoImplicit false

/-!
# The members that rows count

The multiset of keys and labels that a list of rows stands for, under the statements that
group, filter and sum the rows.
-/
namespace FaultLane.LabelledTally
open GroupedSums
variable {κ ℓ κ' ℓ' : Type}

def members (rows : List (Row κ ℓ)) : Multiset (κ × ℓ) :=
  (rows.map fun r => Multiset.replicate r.count (r.key, r.label)).sum

section
variable {rows rows' : List (Row κ ℓ)}

@[simp] theorem members_nil : members ([] : List (Row κ ℓ)) = 0 := rfl

theorem members_cons (r : Row κ ℓ) :
    members (r :: rows) = Multiset.replicate r.count (r.key, r.label) + members rows := by
  rw [members, List.map_cons, List.sum_cons]
  rfl

theorem members_append : members (rows ++ rows') = members rows + members rows' := by
  rw [members, List.map_append, List.sum_append]
  rfl

theorem members_perm (h : rows.Perm rows') : members rows = members rows' :=
  (h.map _).sum_eq

theorem card_members : (members rows).card = (rows.map Row.count).sum := by
  induction rows with
  | nil => rfl
  | cons r rows ih =>
    rw [members_cons, Multiset.card_add, Multiset.card_replicate, ih, List.map_cons, List.sum_cons]

theorem mem_members {x : κ × ℓ} :
    x ∈ members rows ↔ ∃ r ∈ rows, r.count ≠ 0 ∧ (r.key, r.label) = x := by
  induction rows with
  | nil => simp
  | cons r rows ih =>
    rw [members_cons, Multiset.mem_add, Multiset.mem_replicate, ih, List.exists_mem_cons_iff,
      eq_comm (a := x)]

theorem members_filter (p : κ → Prop) [DecidablePred p] :
    members (rows.filter fun r => p r.key) = (members rows).filter fun x => p x.1 := by
  induction rows with
  | nil => rfl
  | cons r rows ih =>
    rw [members_cons, Multiset.filter_add, ← ih]
    by_cases hp : p r.key
    · have hself : (Multiset.replicate r.count (r.key, r.label)).filter (fun x => p x.1) =
          Multiset.replicate r.count (r.key, r.label) :=
        Multiset.filter_eq_self.mpr fun x hx => by
          rw [Multiset.eq_of_mem_replicate hx]
          exact hp
      rw [List.filter_cons_of_pos (by simpa using hp), members_cons, hself]
    · have hnone : (Multiset.replicate r.count (r.key, r.label)).filter (fun x => p x.1) = 0 :=
        Multiset.filter_eq_nil.mpr fun x hx => by
          rw [Multiset.eq_of_mem_replicate hx]
          exact hp
      rw [List.filter_cons_of_neg (by simpa using hp), hnone, zero_add]

/-- Rows that count none have no members. -/
theorem members_of_zero {p : Row κ ℓ → Bool} (h : ∀ r ∈ rows, p r = false → r.count = 0) :
    members (rows.filter p) = members rows := by
  induction rows with
  | nil => rfl
  | cons r rows ih =>
    have hrest := ih fun s hs => h s (List.mem_cons_of_mem r hs)
    cases hp : p r with
    | true => rw [List.filter_cons_of_pos hp, members_cons, members_cons, hrest]
    | false =>
      rw [List.filter_cons_of_neg (by simp [hp]), members_cons, h r List.mem_cons_self hp, hrest,
        Multiset.replicate_zero, zero_add]

theorem members_map (f : κ → κ') (g : ℓ → ℓ') :
    members (rows.map fun r => ⟨f r.key, g r.label, r.count⟩) =
      (members rows).map fun x => (f x.1, g x.2) := by
  induction rows with
  | nil => rfl
  | cons r rows ih =>
    rw [List.map_cons, members_cons, members_cons, Multiset.map_add, Multiset.map_replicate, ih]

theorem sumAt_members [DecidableEq κ'] (f : κ → κ') (k : κ') :
    sumAt (fun r : Row κ ℓ => f r.key) Row.count k rows =
      (members rows).countP fun x => f x.1 = k := by
  have h : (members (rows.filter fun r => f r.key = k)).card =
      ((rows.filter fun r => f r.key = k).map Row.count).sum := card_members
  rw [members_filter fun k' => f k' = k, ← Multiset.countP_eq_card_filter] at h
  exact h.symm

end

/-- Groups stand for their elements. -/
theorem members_groups {α : Type} [DecidableEq α] {groups : List (α × Nat)} {l : List α}
    (h : IsGrouping groups l) (row : α → κ × ℓ) :
    members (groups.map fun g => ⟨(row g.1).1, (row g.1).2, g.2⟩) = (l.map row : List (κ × ℓ)) := by
  have hflat : members (groups.map fun g => (⟨(row g.1).1, (row g.1).2, g.2⟩ : Row κ ℓ)) =
      ((groups.map fun g => Multiset.replicate g.2 g.1).sum).map row := by
    clear h
    induction groups with
    | nil => rfl
    | cons g groups ih =>
      rw [List.map_cons, members_cons, ih, List.map_cons, List.sum_cons, Multiset.map_add,
        Multiset.map_replicate]
  have helements : (groups.map fun g => Multiset.replicate g.2 g.1).sum = (l : Multiset α) := by
    ext a
    have hcount : ∀ gs : List (α × Nat), Multiset.count a
        (gs.map fun g => Multiset.replicate g.2 g.1).sum =
          sumAt Prod.fst Prod.snd a gs := by
      intro gs
      induction gs with
      | nil => rfl
      | cons g gs ih =>
        rw [List.map_cons, List.sum_cons, Multiset.count_add, ih, Multiset.count_replicate,
          sumAt_cons]
    rw [hcount, Multiset.coe_count]
    by_cases ha : a ∈ l
    · have hg : (a, l.count a) ∈ groups := (h.mem _).mpr ⟨ha, rfl⟩
      have hfilter : (groups.filter fun g => g.1 = a) = [(a, l.count a)] := by
        refine List.perm_singleton.mp ((List.perm_ext_iff_of_nodup ?_ (List.nodup_singleton _)).mpr
          fun g => ?_)
        · exact (List.Nodup.of_map _ h.nodup).filter _
        · rw [List.mem_filter, decide_eq_true_eq, List.mem_singleton, h.mem]
          constructor
          · rintro ⟨⟨-, hn⟩, rfl⟩
            exact Prod.ext rfl hn
          · rintro rfl
            exact ⟨⟨ha, rfl⟩, rfl⟩
      rw [sumAt, hfilter]
      exact Nat.add_zero _
    · have hfilter : (groups.filter fun g => g.1 = a) = [] :=
        List.filter_eq_nil_iff.mpr fun g hg heq =>
          ha (of_decide_eq_true heq ▸ ((h.mem g).mp hg).1)
      rw [sumAt, hfilter, List.count_eq_zero.mpr ha]
      rfl
  rw [hflat, helements, Multiset.map_coe]

/-- Multisets that agree class by class. -/
theorem eq_of_filter_eq {α δ : Type} [DecidableEq δ] [DecidableEq α] (f : α → δ)
    {m m' : Multiset α} (h : ∀ d, m.filter (fun x => f x = d) = m'.filter fun x => f x = d) :
    m = m' := by
  ext a
  have ha := congrArg (Multiset.count a) (h (f a))
  have hkeep : ∀ n : Multiset α, (n.filter fun x => f x = f a).count a = n.count a := fun n =>
    Multiset.count_filter_of_pos (p := fun x => f x = f a) rfl
  rwa [hkeep, hkeep] at ha

end FaultLane.LabelledTally
