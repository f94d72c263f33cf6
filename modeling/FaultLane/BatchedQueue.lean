import Mathlib.Data.List.Nodup
import Mathlib.Data.List.Count

set_option autoImplicit false

/-!
# Queues that are drained in batches

A batch takes the ready entries among the first few of a queue. The others stay where they are,
so an entry is reached unless enough of them stand before it to fill a batch.
-/
namespace FaultLane.BatchedQueue
variable {α : Type} (ready : α → Bool) (n : Nat)

/-- The entries that a batch takes. -/
def taken (q : List α) : List α := (q.take n).filter ready

/-- The queue after a batch. -/
def drain (q : List α) : List α := (q.take n).filter (fun a => !ready a) ++ q.drop n

/-- The queue after some batches. -/
def drains : Nat → List α → List α
  | 0, q => q
  | k + 1, q => drains k (drain ready n q)

/-- The entries of a list that no batch takes. -/
def blocked (q : List α) : Nat := q.countP fun a => !ready a

variable {ready n} {q s t : List α} {a : α} {k : Nat}

theorem drain_sublist (q : List α) : (drain ready n q).Sublist q := by
  have h := (List.filter_sublist (p := fun a => !ready a) (l := q.take n)).append
    (List.Sublist.refl (q.drop n))
  rwa [List.take_append_drop] at h

theorem drains_sublist (k : Nat) (q : List α) : (drains ready n k q).Sublist q := by
  induction k generalizing q with
  | zero => exact List.Sublist.refl q
  | succ k ih => exact (ih (drain ready n q)).trans (drain_sublist q)

theorem blocked_drain (q : List α) : blocked ready (drain ready n q) = blocked ready q := by
  unfold blocked drain
  rw [List.countP_append, List.countP_filter]
  simp only [Bool.and_self]
  rw [← List.countP_append, List.take_append_drop]

/-- A batch that ends before an entry leaves what follows. -/
theorem drain_append (h : n ≤ s.length) (t : List α) :
    drain ready n (s ++ t) = drain ready n s ++ t := by
  rw [drain, List.take_append_of_le_length h, List.drop_append_of_le_length h, drain,
    List.append_assoc]

/-- A full batch takes an entry, unless it is full of blocked ones. -/
theorem length_drain_lt (h : n ≤ s.length) (hb : blocked ready s < n) :
    (drain ready n s).length < s.length := by
  have hfew : ((s.take n).filter fun a => !ready a).length ≤ blocked ready s := by
    rw [← List.countP_eq_length_filter]
    exact (List.take_sublist n s).countP_le
  rw [drain, List.length_append, List.length_drop]
  omega

theorem mem_drain_iff (hq : q.Nodup) :
    a ∈ drain ready n q ↔ a ∈ q ∧ a ∉ taken ready n q := by
  have hsplit : q.take n ++ q.drop n = q := List.take_append_drop n q
  have hdisjoint := (List.nodup_append.mp (hsplit.symm ▸ hq)).2.2
  have hmem : a ∈ q ↔ a ∈ q.take n ∨ a ∈ q.drop n := by
    rw [← List.mem_append, hsplit]
  rw [hmem, drain, taken, List.mem_append, List.mem_filter, List.mem_filter, Bool.not_eq_true']
  constructor
  · rintro (⟨ha, hready⟩ | ha)
    · exact ⟨.inl ha, fun htaken => by simp [hready] at htaken⟩
    · exact ⟨.inr ha, fun htaken => hdisjoint a htaken.1 a ha rfl⟩
  · rintro ⟨ha | ha, hnot⟩
    · exact .inl ⟨ha, Bool.eq_false_iff.mpr fun hready => hnot ⟨ha, hready⟩⟩
    · exact .inr ha

theorem mem_taken_of_lt (h : s.length < n) (ha : ready a = true) :
    a ∈ taken ready n (s ++ a :: t) := by
  refine List.mem_filter.mpr ⟨?_, ha⟩
  obtain ⟨m, hm⟩ : ∃ m, n - s.length = m + 1 := ⟨n - s.length - 1, by omega⟩
  rw [List.take_append, hm, List.take_succ_cons]
  exact List.mem_append_right _ List.mem_cons_self

/-- Induction on the batches: the entries before this one get fewer until it is taken. -/
theorem not_mem_drains (hq : (s ++ a :: t).Nodup) (ha : ready a = true)
    (hb : blocked ready s < n) (hk : s.length < k) : a ∉ drains ready n k (s ++ a :: t) := by
  induction k generalizing s with
  | zero => exact absurd hk (Nat.not_lt_zero _)
  | succ k ih =>
    rw [drains]
    by_cases hn : s.length < n
    · intro hmem
      have hleft := (drains_sublist k _).subset hmem
      exact ((mem_drain_iff hq).mp hleft).2 (mem_taken_of_lt hn ha)
    · have hfull : n ≤ s.length := by omega
      have hfewer := length_drain_lt hfull hb
      rw [drain_append hfull]
      apply ih
      · rw [← drain_append hfull]
        exact hq.sublist (drain_sublist _)
      · rwa [blocked_drain]
      · omega

end FaultLane.BatchedQueue
