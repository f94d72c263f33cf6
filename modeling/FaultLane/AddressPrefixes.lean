import Mathlib.Data.BitVec
import Mathlib.Tactic.SplitIfs

set_option autoImplicit false

/-!
# Blocks of addresses

A block of addresses of a fixed width is given by the bits that its addresses begin with. Two
blocks are nested or apart, which is decided on their own bits.
-/
namespace FaultLane

/-- The addresses that agree with `bits` on their first `length` bits. -/
structure AddressPrefix (w : Nat) where
  bits : BitVec w
  length : Nat
  deriving DecidableEq, Repr

namespace AddressPrefix
variable {w : Nat}

def Contains (p : AddressPrefix w) (a : BitVec w) : Prop :=
  a >>> (w - p.length) = p.bits >>> (w - p.length)

instance (p : AddressPrefix w) (a : BitVec w) : Decidable (p.Contains a) :=
  inferInstanceAs (Decidable (_ = _))

def Within (p q : AddressPrefix w) : Prop := q.length ≤ p.length ∧ q.Contains p.bits

instance (p q : AddressPrefix w) : Decidable (p.Within q) := inferInstanceAs (Decidable (_ ∧ _))

def Apart (p q : AddressPrefix w) : Prop := ¬ q.Contains p.bits ∧ ¬ p.Contains q.bits

instance (p q : AddressPrefix w) : Decidable (p.Apart q) := inferInstanceAs (Decidable (_ ∧ _))

section algebra
variable {p q : AddressPrefix w} {a : BitVec w}

/-- Addresses that agree on some first bits agree on fewer. -/
theorem agree_of_le {a b : BitVec w} {m n : Nat} (hmn : m ≤ n) (h : a >>> m = b >>> m) :
    a >>> n = b >>> n := by
  obtain ⟨k, rfl⟩ := Nat.exists_eq_add_of_le hmn
  rw [BitVec.shiftRight_add, BitVec.shiftRight_add, h]

theorem contains_of_contains (hle : q.length ≤ p.length) (ha : p.Contains a) :
    q.Contains a ↔ q.Contains p.bits := by
  have hagree : a >>> (w - q.length) = p.bits >>> (w - q.length) :=
    agree_of_le (Nat.sub_le_sub_left hle w) ha
  unfold Contains
  rw [hagree]

theorem contains_of_within (h : p.Within q) (ha : p.Contains a) : q.Contains a :=
  (contains_of_contains h.1 ha).mpr h.2

theorem not_contains_of_apart (h : p.Apart q) (ha : p.Contains a) : ¬ q.Contains a := by
  intro hq
  rcases Nat.le_total q.length p.length with hle | hle
  · exact h.1 ((contains_of_contains hle ha).mp hq)
  · exact h.2 ((contains_of_contains hle hq).mp ha)

end algebra

/-! ## Blocks with parts left out -/

structure Block (w : Nat) where
  range : AddressPrefix w
  except : List (AddressPrefix w)
  deriving DecidableEq, Repr

def Block.Contains (b : Block w) (a : BitVec w) : Prop :=
  b.range.Contains a ∧ ∀ e ∈ b.except, ¬ e.Contains a

instance (b : Block w) (a : BitVec w) : Decidable (b.Contains a) :=
  inferInstanceAs (Decidable (_ ∧ _))

/-! ## Comparisons with parts of an address -/

section parts
variable {a : BitVec w} {p : AddressPrefix w} {m : Nat}

theorem contains_iff_toNat :
    p.Contains a ↔ a.toNat / 2 ^ (w - p.length) = p.bits.toNat / 2 ^ (w - p.length) := by
  unfold Contains
  rw [← BitVec.toNat_inj, BitVec.toNat_ushiftRight, BitVec.toNat_ushiftRight,
    Nat.shiftRight_eq_div_pow, Nat.shiftRight_eq_div_pow]

/-- The first `m` bits. -/
def first (m : Nat) (a : BitVec w) : BitVec m := a.extractLsb' (w - m) m

theorem toNat_first (hm : m ≤ w) : (first m a).toNat = a.toNat / 2 ^ (w - m) := by
  have hlt : a.toNat / 2 ^ (w - m) < 2 ^ m := by
    rw [Nat.div_lt_iff_lt_mul (Nat.two_pow_pos _), ← Nat.pow_add, Nat.add_sub_cancel' hm]
    exact a.isLt
  unfold first
  rw [BitVec.extractLsb'_toNat, Nat.shiftRight_eq_div_pow, Nat.mod_eq_of_lt hlt]

theorem contains_iff_first (hlength : p.length ≤ m) (hm : m ≤ w) :
    p.Contains a ↔
      first m a >>> (m - p.length) = first m p.bits >>> (m - p.length) := by
  have hsplit : w - p.length = (w - m) + (m - p.length) := by omega
  rw [contains_iff_toNat, ← BitVec.toNat_inj, BitVec.toNat_ushiftRight, BitVec.toNat_ushiftRight,
    toNat_first hm, toNat_first hm, Nat.shiftRight_eq_div_pow, Nat.shiftRight_eq_div_pow,
    Nat.div_div_eq_div_mul, Nat.div_div_eq_div_mul, ← Nat.pow_add, hsplit]

/-- A comparison under a mask of the leading bits is one of the bits that the mask keeps. -/
theorem masked_eq_iff {x c : BitVec m} {k : Nat} (hc : c >>> k <<< k = c) :
    x &&& BitVec.allOnes m <<< k = c ↔ x >>> k = c >>> k := by
  rw [← BitVec.shiftLeft_ushiftRight]
  constructor
  · intro h
    rw [← h]
    ext i hi
    simp only [BitVec.getElem_ushiftRight, BitVec.getLsbD_shiftLeft]
    by_cases hik : k + i < m
    · simp [hik]
    · rw [BitVec.getLsbD_of_ge x (k + i) (Nat.le_of_not_lt hik)]
      simp [hik]
  · intro h
    rw [h, hc]

theorem masked_first_iff {c : BitVec m} (hlength : p.length ≤ m) (hm : m ≤ w)
    (hc : c >>> (m - p.length) <<< (m - p.length) = c) (hbits : first m p.bits = c) :
    first m a &&& BitVec.allOnes m <<< (m - p.length) = c ↔ p.Contains a := by
  rw [contains_iff_first hlength hm, masked_eq_iff hc, hbits]

end parts
end AddressPrefix
end FaultLane
