import Mathlib.Data.List.Sort
import Mathlib.Data.List.Nodup

set_option autoImplicit false

/-!
# The first rows of a ranking

A list in the order of a ranking, the rows among its first few, and rows that come before all
others.
-/
namespace FaultLane.RankedRows
variable {α β γ : Type} {le : α → α → Prop} {l : List α}

/-- The rows with a property, when they come before all others. -/
theorem eq_filter_append (hl : l.Pairwise le) (p : α → Bool)
    (hp : ∀ a ∈ l, ∀ b ∈ l, p a = true → p b = false → ¬ le b a) :
    l = l.filter p ++ l.filter fun a => !p a := by
  induction l with
  | nil => rfl
  | cons a l ih =>
    obtain ⟨hhead, htail⟩ := List.pairwise_cons.mp hl
    have hrest := ih htail fun b hb c hc =>
      hp b (List.mem_cons_of_mem a hb) c (List.mem_cons_of_mem a hc)
    cases ha : p a with
    | true =>
      rw [List.filter_cons_of_pos ha, List.filter_cons_of_neg (by simp [ha]), List.cons_append,
        ← hrest]
    | false =>
      have hnone : l.filter p = [] := by
        refine List.filter_eq_nil_iff.mpr fun b hb hpb => ?_
        exact hp b (List.mem_cons_of_mem a hb) a List.mem_cons_self hpb ha (hhead b hb)
      have hall : (l.filter fun b => !p b) = l := by
        rw [hnone] at hrest
        exact hrest.symm
      rw [List.filter_cons_of_neg (by simp [ha]), List.filter_cons_of_pos (by simp [ha]), hnone,
        hall, List.nil_append]

theorem take_length_filter (hl : l.Pairwise le) (p : α → Bool)
    (hp : ∀ a ∈ l, ∀ b ∈ l, p a = true → p b = false → ¬ le b a) :
    l.take (l.filter p).length = l.filter p := by
  have h := eq_filter_append hl p hp
  calc l.take (l.filter p).length
      = (l.filter p ++ l.filter fun a => !p a).take (l.filter p).length := by rw [← h]
    _ = l.filter p := List.take_left

/-- The rank of a row is the number of rows before it. -/
theorem mem_take_iff [DecidableEq α] [DecidableRel le] (hl : l.Pairwise le) (hnodup : l.Nodup)
    (hanti : ∀ a ∈ l, ∀ b ∈ l, le a b → le b a → a = b) {a : α} (ha : a ∈ l) {n : Nat} :
    a ∈ l.take n ↔ (l.filter fun b => le b a ∧ b ≠ a).length < n := by
  obtain ⟨s, t, rfl⟩ := List.append_of_mem ha
  obtain ⟨hs, ht, hst⟩ := List.pairwise_append.mp hl
  obtain ⟨hat, -⟩ := List.pairwise_cons.mp ht
  obtain ⟨-, hnt, hdisjoint⟩ := List.nodup_append.mp hnodup
  have hsa : a ∉ s := fun h => hdisjoint a h a List.mem_cons_self rfl
  have hta : a ∉ t := (List.nodup_cons.mp hnt).1
  have hbefore : (s.filter fun b => le b a ∧ b ≠ a) = s := by
    refine List.filter_eq_self.mpr fun b hb => decide_eq_true ⟨hst b hb a List.mem_cons_self, ?_⟩
    exact fun h => hsa (h ▸ hb)
  have hafter : ((a :: t).filter fun b => le b a ∧ b ≠ a) = [] := by
    refine List.filter_eq_nil_iff.mpr fun b hb h => ?_
    obtain ⟨hle, hne⟩ := of_decide_eq_true h
    obtain rfl | hb := List.mem_cons.mp hb
    · exact hne rfl
    · exact hne (hanti b (List.mem_append_right s (List.mem_cons_of_mem a hb)) a ha hle (hat b hb))
  rw [List.filter_append, hbefore, hafter, List.append_nil, List.take_append]
  constructor
  · intro h
    by_contra hn
    have hzero : n - s.length = 0 := by omega
    rw [hzero, List.take_zero, List.append_nil] at h
    exact hsa (List.mem_of_mem_take h)
  · intro h
    obtain ⟨k, hk⟩ : ∃ k, n - s.length = k + 1 := ⟨n - s.length - 1, by omega⟩
    rw [hk, List.take_succ_cons]
    exact List.mem_append_right _ List.mem_cons_self

/-- What as many rows have of those with another property, all of these have. -/
theorem of_countP_eq {p q : α → Bool} (hqp : ∀ a, q a = true → p a = true)
    (h : l.countP q = l.countP p) {a : α} (ha : a ∈ l) (hp : p a = true) : q a = true := by
  have hsublist : (l.filter q).Sublist (l.filter p) := List.monotone_filter_right l hqp
  rw [List.countP_eq_length_filter, List.countP_eq_length_filter] at h
  have hmem : a ∈ l.filter q := hsublist.eq_of_length h ▸ List.mem_filter.mpr ⟨ha, hp⟩
  exact (List.mem_filter.mp hmem).2

/-- A second reading of rows that agree in the first one. -/
theorem map_eq_of_map_eq {α' : Type} {f : α → β} {f' : α' → β} {g : α → γ} {g' : α' → γ}
    {l : List α} {l' : List α'} (h : l.map f = l'.map f')
    (hg : ∀ a ∈ l, ∀ b ∈ l', f a = f' b → g a = g' b) : l.map g = l'.map g' := by
  induction l generalizing l' with
  | nil =>
    rw [List.map_nil, eq_comm, List.map_eq_nil_iff] at h
    rw [h]
    rfl
  | cons a l ih =>
    cases l' with
    | nil => cases h
    | cons b l' =>
      rw [List.map_cons, List.map_cons] at h
      obtain ⟨hab, htail⟩ := List.cons.inj h
      rw [List.map_cons, List.map_cons, hg a List.mem_cons_self b List.mem_cons_self hab,
        ih htail fun c hc d hd => hg c (List.mem_cons_of_mem a hc) d (List.mem_cons_of_mem b hd)]

end FaultLane.RankedRows
