import Mathlib.Algebra.Order.Ring.Int
import Mathlib.Data.Int.Init
import Mathlib.Tactic.SplitIfs

set_option autoImplicit false

/-!
# Arithmetic on machine integers

A computation gives the wrapped value and says whether one of its operations left the range
of its type. The conversions between the types fail where the value does not fit.
-/
namespace FaultLane

/-- The range of a signed type, said of the two magnitudes. -/
def Machine.Signed (bound : Nat) (x : Int) : Prop := x.toNat < bound ∧ (-x).toNat ≤ bound

instance (bound : Nat) (x : Int) : Decidable (Machine.Signed bound x) :=
  inferInstanceAs (Decidable (_ ∧ _))

theorem Machine.signed_iff {bound : Nat} {x : Int} :
    Machine.Signed bound x ↔ -bound ≤ x ∧ x < bound := by
  unfold Machine.Signed
  omega

structure Arithmetic (α : Type) where
  value : α
  overflowed : Bool

namespace Arithmetic
variable {α β : Type}

instance : Monad Arithmetic where
  pure a := ⟨a, false⟩
  bind x f := ⟨(f x.value).value, x.overflowed || (f x.value).overflowed⟩

@[simp] theorem value_pure (a : α) : (pure a : Arithmetic α).value = a := rfl

@[simp] theorem overflowed_pure (a : α) : (pure a : Arithmetic α).overflowed = false := rfl

@[simp] theorem value_bind (x : Arithmetic α) (f : α → Arithmetic β) :
    (x >>= f).value = (f x.value).value := rfl

@[simp] theorem overflowed_bind (x : Arithmetic α) (f : α → Arithmetic β) :
    (x >>= f).overflowed = (x.overflowed || (f x.value).overflowed) := rfl

theorem pure_bind (a : α) (f : α → Arithmetic β) : (pure a >>= f) = f a := by
  change Arithmetic.mk (f a).value (false || (f a).overflowed) = f a
  rw [Bool.false_or]

theorem bind_congr (x : Arithmetic α) {f g : α → Arithmetic β} (h : f x.value = g x.value) :
    (x >>= f) = (x >>= g) := by
  change Arithmetic.mk (f x.value).value _ = Arithmetic.mk (g x.value).value _
  rw [h]

def subI32 (a b : Int) : Arithmetic Int :=
  ⟨(a - b).bmod (2 ^ 32), decide (¬ Machine.Signed (2 ^ 31) (a - b))⟩

/-- Subtraction in the unsigned type of `w` bits. -/
def subUnsigned (w a b : Nat) : Arithmetic Nat :=
  ⟨(a + 2 ^ w - b) % 2 ^ w, decide (a < b)⟩

theorem subI32_of_le {a b : Int} (hl : -2 ^ 31 ≤ a - b) (hu : a - b < 2 ^ 31) :
    subI32 a b = pure (a - b) := by
  have hvalue : (a - b).bmod (2 ^ 32) = a - b := by
    rw [Int.bmod_eq_of_le] <;> omega
  have hrange : decide (¬ Machine.Signed (2 ^ 31) (a - b)) = false :=
    decide_eq_false (not_not_intro (Machine.signed_iff.mpr ⟨hl, hu⟩))
  unfold subI32
  rw [hvalue, hrange]
  rfl

theorem subUnsigned_of_le {w a b : Nat} (ha : a < 2 ^ w) (h : b ≤ a) :
    subUnsigned w a b = pure (a - b) := by
  have hsum : a + 2 ^ w - b = 2 ^ w + (a - b) := by omega
  have hvalue : (a + 2 ^ w - b) % 2 ^ w = a - b := by
    rw [hsum, Nat.add_mod_left, Nat.mod_eq_of_lt (by omega)]
  unfold subUnsigned
  rw [hvalue, decide_eq_false (Nat.not_lt.mpr h)]
  rfl

end Arithmetic

/-! ## Conversions and checked operations -/

namespace Machine

def toU64 (x : Int) : Option Nat := if 0 ≤ x ∧ x.toNat < 2 ^ 64 then some x.toNat else none

def toU32 (x : Int) : Option Nat := if 0 ≤ x ∧ x.toNat < 2 ^ 32 then some x.toNat else none

def toI32 (x : Int) : Option Int32 := if Signed (2 ^ 31) x then some (Int32.ofInt x) else none

def toI64 (x : Int) : Option Int64 := if Signed (2 ^ 63) x then some (Int64.ofInt x) else none

def checkedMulU64 (a b : Nat) : Option Nat := if a * b < 2 ^ 64 then some (a * b) else none

def checkedAddU64 (a b : Nat) : Option Nat := if a + b < 2 ^ 64 then some (a + b) else none

def checkedMulI64 (a b : Int) : Option Int :=
  if Signed (2 ^ 63) (a * b) then some (a * b) else none

def checkedSubI64 (a b : Int) : Option Int :=
  if Signed (2 ^ 63) (a - b) then some (a - b) else none

def divCeil (a b : Nat) : Nat := if a % b = 0 then a / b else a / b + 1

theorem toU64_of_nonneg {x : Int} (h : 0 ≤ x) (hx : x < 2 ^ 64) : toU64 x = some x.toNat :=
  if_pos ⟨h, by omega⟩

theorem toU64_of_neg {x : Int} (h : x < 0) : toU64 x = none := if_neg fun hx => by omega

theorem toU32_of_nonneg {x : Int} (h : 0 ≤ x) (hx : x < 2 ^ 32) : toU32 x = some x.toNat :=
  if_pos ⟨h, by omega⟩

theorem toI32_eq_some {x : Int} {y : Int32} : toI32 x = some y ↔ y.toInt = x := by
  unfold toI32
  constructor
  · intro h
    split_ifs at h with hx
    cases h
    obtain ⟨hl, hu⟩ := signed_iff.mp hx
    exact Int32.toInt_ofInt_of_le hl hu
  · intro h
    have hl := Int32.le_toInt y
    have hu := Int32.toInt_lt y
    rw [h] at hl hu
    rw [if_pos (signed_iff.mpr ⟨hl, hu⟩), Option.some.injEq, ← Int32.toInt_inj,
      Int32.toInt_ofInt_of_le hl hu, h]

theorem toI64_eq_some {x : Int} {y : Int64} : toI64 x = some y ↔ y.toInt = x := by
  unfold toI64
  constructor
  · intro h
    split_ifs at h with hx
    cases h
    obtain ⟨hl, hu⟩ := signed_iff.mp hx
    exact Int64.toInt_ofInt_of_le hl hu
  · intro h
    have hl := Int64.le_toInt y
    have hu := Int64.toInt_lt y
    rw [h] at hl hu
    rw [if_pos (signed_iff.mpr ⟨hl, hu⟩), Option.some.injEq, ← Int64.toInt_inj,
      Int64.toInt_ofInt_of_le hl hu, h]

theorem exists_toI32 {x : Int} (hl : -2 ^ 31 ≤ x) (hu : x < 2 ^ 31) :
    ∃ y, toI32 x = some y ∧ y.toInt = x :=
  ⟨Int32.ofInt x, if_pos (signed_iff.mpr ⟨hl, hu⟩),
    Int32.toInt_ofInt_of_le hl hu⟩

theorem exists_toI64 {x : Int} (hl : -2 ^ 63 ≤ x) (hu : x < 2 ^ 63) :
    ∃ y, toI64 x = some y ∧ y.toInt = x :=
  ⟨Int64.ofInt x, if_pos (signed_iff.mpr ⟨hl, hu⟩),
    Int64.toInt_ofInt_of_le hl hu⟩

theorem divCeil_mul_ge (a b : Nat) (hb : 0 < b) : a ≤ divCeil a b * b := by
  have hdiv := Nat.div_add_mod a b
  have hmod := Nat.mod_lt a hb
  unfold divCeil
  split_ifs with h
  · rw [Nat.mul_comm]
    omega
  · rw [Nat.add_mul, Nat.mul_comm]
    omega

/-- Every part but the last is full, and the last one is not empty. -/
theorem mul_lt_of_lt_divCeil {a b i : Nat} (hi : i < divCeil a b) : i * b < a := by
  have hdiv := Nat.div_add_mod a b
  unfold divCeil at hi
  split_ifs at hi with h
  · have hle : (i + 1) * b ≤ a / b * b := Nat.mul_le_mul_right b hi
    have hb : 0 < b := by
      rcases Nat.eq_zero_or_pos b with hzero | hpos
      · rw [hzero, Nat.div_zero] at hi
        exact absurd hi (Nat.not_lt_zero i)
      · exact hpos
    rw [Nat.add_mul, Nat.one_mul, Nat.mul_comm (a / b)] at hle
    omega
  · have hle : i * b ≤ a / b * b := Nat.mul_le_mul_right b (by omega)
    rw [Nat.mul_comm (a / b)] at hle
    omega

theorem min_of_lt_divCeil {a b n : Nat} (hfirst : 1 ≤ n) (hn : n < divCeil a b) :
    min (a - (n - 1) * b) b = b := by
  have hfull := mul_lt_of_lt_divCeil hn
  have hsplit : n * b = (n - 1) * b + b := by
    rw [← Nat.succ_mul, Nat.succ_eq_add_one, Nat.sub_add_cancel hfirst]
  omega

theorem min_of_eq_divCeil {a b n : Nat} (hb : 0 < b) (hfirst : 1 ≤ n) (hn : n = divCeil a b) :
    min (a - (n - 1) * b) b = a - (n - 1) * b := by
  have hge := divCeil_mul_ge a b hb
  rw [← hn] at hge
  have hsplit : n * b = (n - 1) * b + b := by
    rw [← Nat.succ_mul, Nat.succ_eq_add_one, Nat.sub_add_cancel hfirst]
  omega

end Machine
end FaultLane
