import Mathlib.Data.List.Perm.Basic
import Mathlib.Data.List.Nodup
import Mathlib.Data.List.Range

set_option autoImplicit false

/-!
# Tiling a range with pieces

Pieces tile the first `total` positions when each of them lies in exactly one piece, and no
piece reaches further. The pieces of one size, cut from the front, tile a range in any order.
-/
namespace FaultLane.Tilings

structure Piece where
  offset : Nat
  size : Nat
  deriving DecidableEq, Repr

def Piece.Covers (p : Piece) (x : Nat) : Prop := p.offset ≤ x ∧ x < p.offset + p.size

instance (p : Piece) (x : Nat) : Decidable (p.Covers x) := inferInstanceAs (Decidable (_ ∧ _))

def Tiles (total : Nat) (pieces : List Piece) : Prop :=
  ∀ x, pieces.countP (fun p => p.Covers x) = if x < total then 1 else 0

theorem Tiles.perm {total : Nat} {pieces pieces' : List Piece} (h : Tiles total pieces)
    (hperm : pieces.Perm pieces') : Tiles total pieces' :=
  fun x => (hperm.countP_eq _).symm.trans (h x)

/-- The piece of number `i` when `total` positions are cut into pieces of `size`. -/
def cut (total size i : Nat) : Piece := ⟨i * size, min (total - i * size) size⟩

variable {total size : Nat}

theorem cut_covers (hsize : 0 < size) (i x : Nat) :
    (cut total size i).Covers x ↔ i = x / size ∧ x < total := by
  have hquotient : i = x / size ↔ i * size ≤ x ∧ x < i * size + size := by
    rw [eq_comm, Nat.div_eq_iff hsize]
    omega
  change i * size ≤ x ∧ x < i * size + min (total - i * size) size ↔ _
  rw [hquotient]
  omega

theorem tiles_cut {count : Nat} (hsize : 0 < size) (hcount : total ≤ count * size) :
    Tiles total ((List.range count).map (cut total size)) := by
  intro x
  have hpiece : ∀ i, decide ((cut total size i).Covers x) = (i == x / size && decide (x < total)) :=
    fun i => by rw [Bool.eq_iff_iff]; simp [cut_covers hsize]
  rw [List.countP_map]
  by_cases hx : x < total
  · have hmem : x / size ∈ List.range count := by
      rw [List.mem_range, Nat.div_lt_iff_lt_mul hsize]
      omega
    rw [if_pos hx, ← List.count_eq_one_of_mem List.nodup_range hmem]
    exact List.countP_congr fun i _ => by simp [hpiece, hx]
  · rw [if_neg hx, List.countP_eq_zero]
    intro i _
    simp [hpiece, hx]

/-- Any listing of the numbers below `count` gives a tiling. -/
theorem tiles_of_perm {count : Nat} {numbers : List Nat} (hsize : 0 < size)
    (hcount : total ≤ count * size) (h : numbers.Perm (List.range count)) :
    Tiles total (numbers.map (cut total size)) :=
  (tiles_cut hsize hcount).perm (h.map _).symm

end FaultLane.Tilings
