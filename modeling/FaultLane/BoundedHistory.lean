import Mathlib.Data.List.Basic

set_option autoImplicit false

/-!
# Bounded histories

A list that keeps its newest entries, and the entries of a sequence that were
replaced by a different one.
-/
namespace FaultLane.BoundedHistory
variable {α : Type}

def takeLast (n : Nat) (l : List α) : List α := l.drop (l.length - n)

/-- One entry is pushed; at the bound the oldest are evicted first. -/
def pushBounded (n : Nat) (l : List α) (a : α) : List α :=
  (if n ≤ l.length then l.drop (l.length - n + 1) else l) ++ [a]

theorem takeLast_of_length_le {n : Nat} {l : List α} (h : l.length ≤ n) : takeLast n l = l := by
  unfold takeLast
  rw [Nat.sub_eq_zero_of_le h, List.drop_zero]

theorem length_takeLast_le (n : Nat) (l : List α) : (takeLast n l).length ≤ n := by
  unfold takeLast
  rw [List.length_drop]
  omega

theorem takeLast_append_singleton {n : Nat} (hn : 0 < n) (l : List α) (a : α) :
    takeLast n (l ++ [a]) = l.drop (l.length + 1 - n) ++ [a] := by
  unfold takeLast
  rw [List.length_append, List.length_singleton, List.drop_append_of_le_length (by omega)]

theorem pushBounded_eq {n : Nat} (hn : 0 < n) (l : List α) (a : α) :
    pushBounded n l a = takeLast n (l ++ [a]) := by
  rw [takeLast_append_singleton hn, pushBounded]
  split_ifs with h
  · congr 2
    omega
  · rw [show l.length + 1 - n = 0 by omega, List.drop_zero]

theorem takeLast_takeLast_append (n : Nat) (l l' : List α) :
    takeLast n (takeLast n l ++ l') = takeLast n (l ++ l') := by
  unfold takeLast
  rw [← List.drop_append_of_le_length (Nat.sub_le l.length n), List.length_drop, List.drop_drop,
    List.length_append]
  congr 1
  omega

/-- Pushing an entry changes nothing when the list is full of that entry, and only then. -/
theorem pushBounded_eq_self_iff {n : Nat} (hn : 0 < n) {l : List α} (hl : l.length ≤ n) (a : α) :
    pushBounded n l a = l ↔ l = List.replicate n a := by
  have hsame : ∀ l : List α, l.tail ++ [a] = l → ∀ b ∈ l, b = a := by
    intro l
    induction l with
    | nil => nofun
    | cons c rest ih =>
      intro h
      cases rest with
      | nil =>
        obtain rfl := List.singleton_inj.mp h
        simp
      | cons d rest =>
        obtain ⟨rfl, hrest⟩ := List.cons.inj h
        have hall := ih hrest
        intro b hb
        rcases List.mem_cons.mp hb with rfl | hb
        · exact hall _ List.mem_cons_self
        · exact hall b hb
  constructor
  · intro h
    have hlength : l.length = n := by
      have hcount := congrArg List.length h
      unfold pushBounded at hcount
      split_ifs at hcount with hfull
      · omega
      · rw [List.length_append, List.length_singleton] at hcount
        omega
    rw [List.eq_replicate_iff]
    refine ⟨hlength, hsame l ?_⟩
    rw [pushBounded, if_pos (Nat.le_of_eq hlength.symm), hlength, Nat.sub_self, Nat.zero_add,
      List.drop_one] at h
    exact h
  · rintro rfl
    rw [pushBounded, if_pos (Nat.le_of_eq List.length_replicate.symm), List.length_replicate,
      Nat.sub_self, Nat.zero_add, List.drop_replicate, ← List.replicate_succ',
      Nat.sub_add_cancel hn]

/-- The entries that a different entry follows, oldest first. -/
def replaced [DecidableEq α] : List α → List α
  | a :: b :: rest => if a = b then replaced (b :: rest) else a :: replaced (b :: rest)
  | _ => []

theorem replaced_append [DecidableEq α] (l : List α) (a b : α) :
    replaced (l ++ [a, b]) = if a = b then replaced (l ++ [a]) else replaced (l ++ [a]) ++ [a] := by
  induction l with
  | nil => simp [replaced]
  | cons c rest ih =>
    cases rest with
    | nil =>
      simp only [List.cons_append, List.nil_append, replaced]
      split_ifs <;> rfl
    | cons d rest =>
      simp only [List.cons_append, replaced] at ih ⊢
      rw [ih]
      split_ifs <;> rfl

end FaultLane.BoundedHistory
