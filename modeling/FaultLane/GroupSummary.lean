import Mathlib.Data.Finset.Max
import Mathlib.Order.Bounds.Image

set_option autoImplicit false

/-!
# Summaries of finite sets

The size of a finite set, its least member, and the bounds of what its members are seen at. A
summary is kept up to date as members come and go: a field that the leaving member does not
carry stays, and any other one is computed again.
-/
namespace FaultLane.GroupSummary
variable {α τ : Type*} [LinearOrder α] [LinearOrder τ]

structure Summary (τ α : Type*) where
  first : τ
  last : τ
  count : ℕ
  best : α

/-- The summary of the members of a set. -/
structure Describes (seen : α → τ) (S : Finset α) (s : Summary τ α) : Prop where
  first : IsLeast (seen '' S) s.first
  last : IsGreatest (seen '' S) s.last
  count : S.card = s.count
  best : IsLeast (S : Set α) s.best

/-- What a member adds to a summary. -/
def Summary.add (s : Summary τ α) (seen : α → τ) (a : α) : Summary τ α where
  first := min s.first (seen a)
  last := max s.last (seen a)
  count := s.count + 1
  best := min s.best a

variable {seen : α → τ} {S : Finset α} {s s' : Summary τ α} {a : α}

theorem Describes.unique (h : Describes seen S s) (h' : Describes seen S s') : s = s' := by
  obtain ⟨first, last, count, best⟩ := s
  obtain ⟨first', last', count', best'⟩ := s'
  obtain rfl : first = first' := h.first.unique h'.first
  obtain rfl : last = last' := h.last.unique h'.last
  obtain rfl : count = count' := h.count.symm.trans h'.count
  obtain rfl : best = best' := h.best.unique h'.best
  rfl

theorem Describes.nonempty (h : Describes seen S s) : S.Nonempty := ⟨s.best, h.best.1⟩

theorem describes_singleton (seen : α → τ) (a : α) :
    Describes seen {a} ⟨seen a, seen a, 1, a⟩ := by
  refine ⟨?_, ?_, Finset.card_singleton a, ?_⟩
  · rw [Finset.coe_singleton, Set.image_singleton]
    exact isLeast_singleton
  · rw [Finset.coe_singleton, Set.image_singleton]
    exact isGreatest_singleton
  · rw [Finset.coe_singleton]
    exact isLeast_singleton

theorem Describes.add (h : Describes seen S s) (ha : a ∉ S) :
    Describes seen (insert a S) (s.add seen a) := by
  refine ⟨?_, ?_, ?_, ?_⟩
  · rw [Finset.coe_insert, Set.image_insert_eq, Summary.add, min_comm s.first (seen a)]
    exact h.first.insert (seen a)
  · rw [Finset.coe_insert, Set.image_insert_eq, Summary.add, max_comm s.last (seen a)]
    exact h.last.insert (seen a)
  · rw [Finset.card_insert_of_notMem ha, h.count, Summary.add]
  · rw [Finset.coe_insert, Summary.add, min_comm s.best a]
    exact h.best.insert a

theorem Describes.card_pos (h : Describes seen S s) : 0 < s.count := by
  rw [← h.count]
  exact Finset.card_pos.mpr h.nonempty

/-- The last member leaves. -/
theorem Describes.erase_last (h : Describes seen S s) (ha : a ∈ S) (hc : s.count = 1) :
    S.erase a = ∅ := by
  have hcard : (S.erase a).card = 0 := by
    rw [Finset.card_erase_of_mem ha, h.count, hc]
  exact Finset.card_eq_zero.mp hcard

theorem isLeast_erase {f : α → τ} {b : τ} (h : IsLeast (f '' S) b) (hb : f a ≠ b) :
    IsLeast (f '' (S.erase a : Finset α)) b := by
  obtain ⟨⟨x, hx, hfx⟩, hlower⟩ := h
  have hne : x ≠ a := by
    rintro rfl
    exact hb hfx
  refine ⟨⟨x, Finset.mem_erase.mpr ⟨hne, hx⟩, hfx⟩, ?_⟩
  exact fun y hy => hlower (Set.image_mono (Finset.coe_subset.mpr (S.erase_subset a)) hy)

theorem isGreatest_erase {f : α → τ} {b : τ} (h : IsGreatest (f '' S) b) (hb : f a ≠ b) :
    IsGreatest (f '' (S.erase a : Finset α)) b := by
  obtain ⟨⟨x, hx, hfx⟩, hupper⟩ := h
  have hne : x ≠ a := by
    rintro rfl
    exact hb hfx
  refine ⟨⟨x, Finset.mem_erase.mpr ⟨hne, hx⟩, hfx⟩, ?_⟩
  exact fun y hy => hupper (Set.image_mono (Finset.coe_subset.mpr (S.erase_subset a)) hy)

/-- A member leaves, and each field is what it was, where the member was not the one it stands
for, or is taken from the members that stay. -/
theorem Describes.erase (h : Describes seen S s) (ha : a ∈ S)
    (first : s'.first = s.first ∧ seen a ≠ s.first ∨ IsLeast (seen '' (S.erase a : Finset α)) s'.first)
    (last : s'.last = s.last ∧ seen a ≠ s.last ∨ IsGreatest (seen '' (S.erase a : Finset α)) s'.last)
    (count : s'.count + 1 = s.count)
    (best : s'.best = s.best ∧ a ≠ s.best ∨ IsLeast ((S.erase a : Finset α) : Set α) s'.best) :
    Describes seen (S.erase a) s' := by
  refine ⟨?_, ?_, ?_, ?_⟩
  · obtain ⟨heq, hne⟩ | hfirst := first
    · rw [heq]
      exact isLeast_erase h.first hne
    · exact hfirst
  · obtain ⟨heq, hne⟩ | hlast := last
    · rw [heq]
      exact isGreatest_erase h.last hne
    · exact hlast
  · have hcard : (S.erase a).card + 1 = S.card := Finset.card_erase_add_one ha
    have hcount : S.card = s.count := h.count
    omega
  · obtain ⟨heq, hne⟩ | hbest := best
    · rw [heq]
      have hleast : IsLeast (id '' (S : Set α)) s.best := by
        rw [Set.image_id]
        exact h.best
      have herase := isLeast_erase (a := a) hleast hne
      rwa [Set.image_id] at herase
    · exact hbest

end FaultLane.GroupSummary
