import FaultLane.DashboardOverview
import Mathlib.Data.List.Infix

set_option autoImplicit false

/-!
# Texts that are cut to a number of bytes

What `truncate_text` keeps is the longest start of a text that fits, and it reports a cut exactly
when something is left out.
-/
namespace FaultLane.TextCuts
open RustText DashboardOverview
open LogTail (utf8Length)

/-- The longest start of a text within a number of bytes. -/
structure Cut (limit : Nat) (stored shown : Text) : Prop where
  starts : shown <+: stored
  fits : utf8Length shown ≤ limit
  longest : ∀ start, start <+: stored → utf8Length start ≤ limit → start <+: shown

section loop

/-- `str::is_char_boundary`. -/
def isCharBoundary : Text → Nat → Bool
  | _, 0 => true
  | [], _ + 1 => false
  | c :: rest, n + 1 => c.utf8Size ≤ n + 1 && isCharBoundary rest (n + 1 - c.utf8Size)

/-- `while !value.is_char_boundary(end) { end = end.saturating_sub(1) }`. -/
def boundaryBefore (value : Text) : Nat → Nat
  | 0 => 0
  | n + 1 => if isCharBoundary value (n + 1) then n + 1 else boundaryBefore value n

end loop

variable {text shown : Text} {n : Nat}

theorem utf8Length_cons (c : Char) (rest : Text) :
    utf8Length (c :: rest) = c.utf8Size + utf8Length rest := rfl

theorem cut_fitting (n : Nat) (text : Text) : Cut n text (fitting n text) := by
  induction text generalizing n with
  | nil => exact ⟨List.prefix_rfl, Nat.zero_le _, fun start hstart _ => hstart⟩
  | cons c rest ih =>
    obtain ⟨hstarts, hfits, hlongest⟩ := ih (n - c.utf8Size)
    by_cases hc : c.utf8Size ≤ n
    · have hcut : fitting n (c :: rest) = c :: fitting (n - c.utf8Size) rest := if_pos hc
      rw [hcut]
      refine ⟨(List.prefix_cons_inj c).mpr hstarts, ?_, fun start hstart hlength => ?_⟩
      · rw [utf8Length_cons]
        omega
      · cases start with
        | nil => exact List.nil_prefix
        | cons d start =>
          obtain ⟨rfl, hrest⟩ := List.cons_prefix_cons.mp hstart
          rw [utf8Length_cons] at hlength
          exact (List.prefix_cons_inj d).mpr (hlongest start hrest (by omega))
    · have hcut : fitting n (c :: rest) = [] := if_neg hc
      rw [hcut]
      refine ⟨List.nil_prefix, Nat.zero_le _, fun start hstart hlength => ?_⟩
      cases start with
      | nil => exact List.prefix_rfl
      | cons d start =>
        obtain ⟨rfl, -⟩ := List.cons_prefix_cons.mp hstart
        rw [utf8Length_cons] at hlength
        omega

/-- Bytes short of a boundary hold no more characters. -/
theorem fitting_of_not_boundary (h : isCharBoundary text (n + 1) = false) :
    fitting (n + 1) text = fitting n text := by
  induction text generalizing n with
  | nil => rfl
  | cons c rest ih =>
    have hpos := Char.utf8Size_pos c
    change (if c.utf8Size ≤ n + 1 then c :: fitting (n + 1 - c.utf8Size) rest else []) =
      if c.utf8Size ≤ n then c :: fitting (n - c.utf8Size) rest else []
    by_cases hc : c.utf8Size ≤ n + 1
    · have hrest : isCharBoundary rest (n + 1 - c.utf8Size) = false := by
        have hboth : (decide (c.utf8Size ≤ n + 1) &&
            isCharBoundary rest (n + 1 - c.utf8Size)) = false := h
        rwa [decide_eq_true hc, Bool.true_and] at hboth
      have hle : c.utf8Size ≤ n := by
        by_contra hlarge
        have hzero : n + 1 - c.utf8Size = 0 := by omega
        rw [hzero] at hrest
        cases rest <;> cases hrest
      have hsucc : n + 1 - c.utf8Size = (n - c.utf8Size) + 1 := by omega
      rw [hsucc] at hrest
      rw [if_pos hc, if_pos hle, hsucc, ih hrest]
    · rw [if_neg hc, if_neg (by omega)]

theorem fitting_boundaryBefore (text : Text) (n : Nat) :
    fitting (boundaryBefore text n) text = fitting n text := by
  induction n with
  | zero => rfl
  | succ n ih =>
    rw [boundaryBefore]
    split_ifs with h
    · rfl
    · rw [ih, fitting_of_not_boundary (by simpa using h)]

/-- The slice up to the boundary that the loop finds. -/
theorem truncateText_loop (value : Text) (maximum : Nat) : truncateText value maximum =
    if utf8Length value ≤ maximum then (value, false)
    else (fitting (boundaryBefore value maximum) value, true) := by
  rw [fitting_boundaryBefore]
  rfl

theorem cut_truncateText (value : Text) (maximum : Nat) :
    Cut maximum value (truncateText value maximum).1 := by
  unfold truncateText
  split_ifs with h
  · exact ⟨List.prefix_rfl, h, fun start hstart _ => hstart⟩
  · exact cut_fitting maximum value

theorem truncateText_flag (value : Text) (maximum : Nat) :
    (truncateText value maximum).2 = true ↔ value ≠ (truncateText value maximum).1 := by
  unfold truncateText
  split_ifs with h
  · exact ⟨nofun, fun hne => absurd rfl hne⟩
  · refine ⟨fun _ heq => h ?_, fun _ => rfl⟩
    have hfits := (cut_fitting maximum value).fits
    rwa [← show value = fitting maximum value from heq] at hfits

end FaultLane.TextCuts
