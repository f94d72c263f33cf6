import Mathlib.Data.List.Basic

set_option autoImplicit false

/-!
# Cutting a stream into parts of one size

A stream that arrives in pieces is put together into parts of `n` entries. What is left over is
the last part. The parts depend on the stream alone.
-/
namespace FaultLane.FixedParts

variable {α : Type} {n : Nat}

/-- Full parts, and a last one that is not empty. -/
structure IsCut (n : Nat) (whole : List α) (parts : List (List α)) : Prop where
  flatten : parts.flatten = whole
  full : ∀ part ∈ parts.dropLast, part.length = n
  last : ∀ part ∈ parts.getLast?, part ≠ [] ∧ part.length ≤ n

theorem IsCut.nil_iff {whole : List α} {parts : List (List α)} (h : IsCut n whole parts) :
    whole = [] ↔ parts = [] := by
  rw [← h.flatten]
  constructor
  · intro hnil
    by_contra hparts
    obtain ⟨hlast, -⟩ := h.last _ (List.getLast?_eq_some_getLast hparts)
    exact hlast (List.flatten_eq_nil_iff.mp hnil _ (List.getLast_mem hparts))
  · intro hparts
    rw [hparts, List.flatten_nil]

theorem IsCut.tail {whole part : List α} {parts : List (List α)}
    (h : IsCut n whole (part :: parts)) (hparts : parts ≠ []) :
    part.length = n ∧ IsCut n parts.flatten parts := by
  have hfull := h.full
  have hlast := h.last
  rw [List.dropLast_cons_of_ne_nil hparts] at hfull
  rw [List.getLast?_cons_of_ne_nil hparts] at hlast
  exact ⟨hfull part List.mem_cons_self, rfl,
    fun p hp => hfull p (List.mem_cons_of_mem _ hp), hlast⟩

/-- The head of a cut is the front of the stream, as long as a part may be. -/
theorem IsCut.head_eq {whole part : List α} {parts : List (List α)}
    (h : IsCut n whole (part :: parts)) : part = whole.take n := by
  have hflat := h.flatten
  rw [List.flatten_cons] at hflat
  by_cases hparts : parts = []
  · obtain ⟨-, hlen⟩ := h.last part (by rw [hparts]; rfl)
    rw [hparts, List.flatten_nil, List.append_nil] at hflat
    rw [← hflat, List.take_of_length_le hlen]
  · obtain ⟨hlen, -⟩ := h.tail hparts
    rw [← hflat, ← hlen, List.take_left]

theorem IsCut.unique {whole : List α} {parts parts' : List (List α)} (h : IsCut n whole parts)
    (h' : IsCut n whole parts') : parts = parts' := by
  induction parts generalizing whole parts' with
  | nil => exact (h'.nil_iff.mp (h.nil_iff.mpr rfl)).symm
  | cons part parts ih =>
    cases parts' with
    | nil => exact absurd (h.nil_iff.mp (h'.nil_iff.mpr rfl)) (List.cons_ne_nil _ _)
    | cons part' parts' =>
      have hpart : part = part' := h.head_eq.trans h'.head_eq.symm
      have hrest : parts.flatten = parts'.flatten := by
        have hflat := h.flatten.trans h'.flatten.symm
        rw [List.flatten_cons, List.flatten_cons, hpart] at hflat
        exact List.append_cancel_left hflat
      have hnil : parts = [] ↔ parts' = [] := by
        constructor
        · intro hp
          by_contra hp'
          exact hp' ((h'.tail hp').2.nil_iff.mp (by rw [← hrest, hp, List.flatten_nil]))
        · intro hp'
          by_contra hp
          exact hp ((h.tail hp).2.nil_iff.mp (by rw [hrest, hp', List.flatten_nil]))
      rw [hpart]
      by_cases hp : parts = []
      · rw [hp, hnil.mp hp]
      · have hp' : parts' ≠ [] := fun hp' => hp (hnil.mpr hp')
        have hcut := (h'.tail hp').2
        rw [← hrest] at hcut
        rw [ih (h.tail hp).2 hcut]

/-! ## Filling parts -/

/-- The parts that are full and the part that is being filled. -/
structure Filled (n : Nat) (received : List α) (parts : List (List α)) (buffer : List α) :
    Prop where
  flatten : parts.flatten ++ buffer = received
  full : ∀ part ∈ parts, part.length = n
  short : buffer.length < n

theorem Filled.start (hn : 0 < n) : Filled n ([] : List α) [] [] := ⟨rfl, nofun, hn⟩

variable {received buffer piece : List α} {parts : List (List α)}

theorem Filled.extend (h : Filled n received parts buffer) (hlen : (buffer ++ piece).length < n) :
    Filled n (received ++ piece) parts (buffer ++ piece) := by
  refine ⟨?_, h.full, hlen⟩
  rw [← List.append_assoc, h.flatten]

theorem Filled.complete (h : Filled n received parts buffer)
    (hlen : (buffer ++ piece).length = n) :
    Filled n (received ++ piece) (parts ++ [buffer ++ piece]) [] := by
  refine ⟨?_, ?_, ?_⟩
  · rw [List.flatten_append, List.flatten_singleton, List.append_nil, ← List.append_assoc,
      h.flatten]
  · intro part hpart
    rcases List.mem_append.mp hpart with hpart | hpart
    · exact h.full part hpart
    · rw [List.mem_singleton.mp hpart, hlen]
  · have hshort := h.short
    rw [List.length_nil]
    omega

theorem Filled.cut_of_empty (h : Filled n received parts []) : IsCut n received parts := by
  have hshort := h.short
  refine ⟨?_, fun part hpart => h.full part (List.dropLast_subset _ hpart), ?_⟩
  · rw [← h.flatten, List.append_nil]
  · intro part hpart
    have hlen := h.full part (List.mem_of_getLast? hpart)
    rw [List.length_nil] at hshort
    refine ⟨?_, Nat.le_of_eq hlen⟩
    intro hnil
    rw [hnil, List.length_nil] at hlen
    omega

theorem Filled.cut_of_rest (h : Filled n received parts buffer) (hbuffer : buffer ≠ []) :
    IsCut n received (parts ++ [buffer]) := by
  refine ⟨?_, ?_, ?_⟩
  · rw [List.flatten_append, List.flatten_singleton, h.flatten]
  · rw [List.dropLast_concat]
    exact h.full
  · intro part hpart
    rw [List.getLast?_concat] at hpart
    cases hpart
    exact ⟨hbuffer, Nat.le_of_lt h.short⟩

end FaultLane.FixedParts
