import Mathlib.Order.Bounds.Basic
import Mathlib.Data.Nat.ModEq

set_option autoImplicit false

/-!
# Intervals on a cycle

An interval of positions on a cycle, which may wrap past its end, against positions counted
without a bound. The first position past an interval is the end of the pass that is running.
-/
namespace FaultLane

/-- The positions from `start` up to `stop` on a cycle of `period` positions. -/
structure CyclicInterval (period : Nat) where
  start : Nat
  stop : Nat
  start_lt : start < period
  stop_lt : stop < period
  start_ne_stop : start ≠ stop
  deriving DecidableEq, Repr

namespace CyclicInterval
variable {period : Nat} (w : CyclicInterval period)

/-- How far a position lies after the start of the interval. -/
def offset (n : Nat) : Nat := (n + (period - w.start)) % period

def length : Nat := w.offset w.stop

def Contains (n : Nat) : Prop := w.offset n < w.length

instance (n : Nat) : Decidable (w.Contains n) := inferInstanceAs (Decidable (_ < _))

/-- The positions that are left of the pass of a position. -/
def remaining (n : Nat) : Nat := w.length - w.offset n

include w in
theorem period_pos : 0 < period := Nat.zero_lt_of_lt w.start_lt

theorem length_lt : w.length < period := Nat.mod_lt _ w.period_pos

theorem offset_add {n k : Nat} (h : w.offset n + k < period) :
    w.offset (n + k) = w.offset n + k := by
  have hcomm : n + k + (period - w.start) = n + (period - w.start) + k := by omega
  unfold offset at h ⊢
  rw [hcomm, ← Nat.mod_add_mod, Nat.mod_eq_of_lt h]

theorem contains_add {n k : Nat} (h : k < w.remaining n) : w.Contains (n + k) := by
  have hlength := w.length_lt
  unfold remaining at h
  unfold Contains
  rw [w.offset_add (by omega)]
  omega

theorem not_contains_add_remaining {n : Nat} (h : w.Contains n) :
    ¬ w.Contains (n + w.remaining n) := by
  have hlength := w.length_lt
  unfold Contains at h ⊢
  unfold remaining
  rw [w.offset_add (by omega)]
  omega

/-- The end of the pass of a position, with positions divided into `unit` parts. -/
def nextEnd (unit t : Nat) : Nat := (t / unit + w.remaining (t / unit)) * unit

theorem isLeast_nextEnd {unit t : Nat} (hunit : 0 < unit) (h : w.Contains (t / unit)) :
    IsLeast {e | t ≤ e ∧ ¬ w.Contains (e / unit)} (w.nextEnd unit t) := by
  unfold nextEnd
  constructor
  · constructor
    · have hpos : 0 < w.remaining (t / unit) := Nat.sub_pos_of_lt h
      have hlt : t < (t / unit + 1) * unit := by
        rw [Nat.mul_comm]
        exact Nat.lt_mul_div_succ t hunit
      exact hlt.le.trans (Nat.mul_le_mul_right unit (Nat.add_le_add_left hpos _))
    · rw [Nat.mul_div_cancel _ hunit]
      exact w.not_contains_add_remaining h
  · rintro e ⟨hle, hout⟩
    by_contra hlt
    have hupper : e / unit < t / unit + w.remaining (t / unit) :=
      (Nat.div_lt_iff_lt_mul hunit).mpr (Nat.lt_of_not_le hlt)
    have hlower : t / unit ≤ e / unit := Nat.div_le_div_right hle
    obtain ⟨k, hk⟩ := Nat.exists_eq_add_of_le hlower
    apply hout
    rw [hk]
    exact w.contains_add (by omega)

end CyclicInterval
end FaultLane
