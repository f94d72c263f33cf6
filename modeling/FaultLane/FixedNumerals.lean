import FaultLane.RustText
import Mathlib.Data.Nat.Digits.Defs

set_option autoImplicit false

/-!
# Numerals of fixed width

Numbers written with a fixed count of digits in a base up to sixteen, and digits set into a
pattern between fixed characters.
-/
namespace FaultLane.FixedNumerals
open RustText

/-- The last digits of a number, the most significant one first. -/
def digits (b : Nat) : Nat → Nat → List Nat
  | 0, _ => []
  | w + 1, n => digits b w (n / b) ++ [n % b]

def value (b : Nat) (ds : List Nat) : Nat := Nat.ofDigits b ds.reverse

def numeral (b w n : Nat) : Text := (digits b w n).map hexDigitChar

def digitValue (b : Nat) (c : Char) : Option Nat := (hexDigitValue c).filter (· < b)

def readNumeral (b : Nat) (t : Text) : Option Nat := (t.mapM (digitValue b)).map (value b)

/-- A pattern whose free places are written as zeros. -/
def places (s : String) : List (Option Char) := s.toList.map fun c => if c = '0' then none else c

/-- Characters set into the free places of a pattern. -/
def fill : List (Option Char) → Text → Text
  | some c :: pattern, t => c :: fill pattern t
  | none :: pattern, d :: t => d :: fill pattern t
  | none :: _, [] => []
  | [], _ => []

/-- The characters in the free places of a pattern, where the others agree with it. -/
def holes : List (Option Char) → Text → Option Text
  | some c :: pattern, d :: t => if c = d then holes pattern t else none
  | none :: pattern, d :: t => (holes pattern t).map (d :: ·)
  | [], [] => some []
  | _ :: _, [] => none
  | [], _ :: _ => none

section numerals
variable {b w n : Nat}

theorem length_digits : (digits b w n).length = w := by
  induction w generalizing n with
  | zero => rfl
  | succ w ih => rw [digits, List.length_append, ih, List.length_singleton]

theorem length_numeral : (numeral b w n).length = w := by
  rw [numeral, List.length_map, length_digits]

theorem digits_lt (hb : 0 < b) : ∀ d ∈ digits b w n, d < b := by
  induction w generalizing n with
  | zero => exact nofun
  | succ w ih =>
    intro d hd
    rcases List.mem_append.mp hd with hd | hd
    · exact ih d hd
    · rw [List.mem_singleton.mp hd]
      exact Nat.mod_lt n hb

theorem value_digits : value b (digits b w n) = n % b ^ w := by
  unfold value
  induction w generalizing n with
  | zero => exact (Nat.mod_one n).symm
  | succ w ih =>
    rw [digits, List.reverse_append, List.reverse_singleton, List.singleton_append,
      Nat.ofDigits_cons, ih, pow_succ', Nat.mod_mul]

theorem digitValue_char (hb : b ≤ 16) (hn : n < b) : digitValue b (hexDigitChar n) = some n := by
  have hall : ∀ m < 16, hexDigitValue (hexDigitChar m) = some m := by decide
  unfold digitValue
  rw [hall n (lt_of_lt_of_le hn hb), Option.filter_some, if_pos (decide_eq_true hn)]

theorem mapM_digitValue {ds : List Nat} (hb : b ≤ 16) (h : ∀ d ∈ ds, d < b) :
    (ds.map hexDigitChar).mapM (digitValue b) = some ds := by
  induction ds with
  | nil => rfl
  | cons d rest ih =>
    have hd := digitValue_char hb (h d List.mem_cons_self)
    have hrest := ih fun e he => h e (List.mem_cons_of_mem d he)
    rw [List.map_cons, List.mapM_cons, hd, hrest]
    rfl

theorem readNumeral_numeral (hb : 0 < b) (hle : b ≤ 16) (hn : n < b ^ w) :
    readNumeral b (numeral b w n) = some n := by
  unfold readNumeral numeral
  rw [mapM_digitValue hle (digits_lt hb), Option.map_some, value_digits, Nat.mod_eq_of_lt hn]

/-- The digits have what the first ones of a base up to sixteen have. -/
theorem numeral_all {p : Char → Prop} (hb : 0 < b) (hp : ∀ d < b, p (hexDigitChar d)) :
    ∀ c ∈ numeral b w n, p c := by
  intro c hc
  obtain ⟨d, hd, rfl⟩ := List.mem_map.mp hc
  exact hp d (digits_lt hb d hd)

/-- Texts of one length are ordered by where they first differ. -/
theorem append_lt_append {s t : Text} (hlength : s.length = t.length) (h : s < t)
    (s' t' : Text) : s ++ s' < t ++ t' := by
  induction s generalizing t with
  | nil =>
    rw [List.length_eq_zero_iff.mp hlength.symm] at h
    cases h
  | cons c s ih =>
    cases t with
    | nil => cases hlength
    | cons d t =>
      rw [List.cons_append, List.cons_append, List.cons_lt_cons_iff]
      rcases List.cons_lt_cons_iff.mp h with hcd | ⟨hcd, hst⟩
      · exact .inl hcd
      · exact .inr ⟨hcd, ih (Nat.succ.inj hlength) hst⟩

theorem hexDigitChar_lt {d e : Nat} (hde : d < e) (he : e < 16) :
    hexDigitChar d < hexDigitChar e := by
  have hall : ∀ e < 16, ∀ d < e, hexDigitChar d < hexDigitChar e := by decide
  exact hall e he d hde

/-- Numerals of one width are ordered as the numbers. -/
theorem numeral_lt {m : Nat} (hb : 0 < b) (hle : b ≤ 16) (hnm : n < m) (hm : m < b ^ w) :
    numeral b w n < numeral b w m := by
  induction w generalizing n m with
  | zero =>
    rw [pow_zero] at hm
    omega
  | succ w ih =>
    have hstep : ∀ k, numeral b (w + 1) k = numeral b w (k / b) ++ [hexDigitChar (k % b)] :=
      fun k => List.map_append
    rw [hstep n, hstep m]
    have hdiv : n / b ≤ m / b := Nat.div_le_div_right hnm.le
    rcases Nat.lt_or_eq_of_le hdiv with hlt | heq
    · have hbound : m / b < b ^ w := Nat.div_lt_of_lt_mul (by rwa [pow_succ'] at hm)
      have hlength : (numeral b w (n / b)).length = (numeral b w (m / b)).length := by
        rw [length_numeral, length_numeral]
      exact append_lt_append hlength (ih hlt hbound) _ _
    · have hmod : n % b < m % b := by
        have hn := Nat.div_add_mod n b
        have hm' := Nat.div_add_mod m b
        rw [heq] at hn
        omega
      have hchar := hexDigitChar_lt hmod (lt_of_lt_of_le (Nat.mod_lt m hb) hle)
      rw [heq]
      exact List.append_left_lt (List.cons_lt_cons_iff.mpr (.inl hchar))

end numerals

section patterns
variable {pattern : List (Option Char)} {t : Text}

theorem holes_fill (h : t.length = pattern.count none) :
    holes pattern (fill pattern t) = some t := by
  induction pattern generalizing t with
  | nil =>
    rw [List.count_nil] at h
    rw [List.length_eq_zero_iff.mp h]
    rfl
  | cons place pattern ih =>
    cases place with
    | some c =>
      rw [List.count_cons_of_ne (by exact nofun)] at h
      rw [fill, holes, if_pos rfl, ih h]
    | none =>
      rw [List.count_cons_self] at h
      cases t with
      | nil => cases h
      | cons d t => rw [fill, holes, ih (Nat.succ.inj h), Option.map_some]

theorem length_fill (h : t.length = pattern.count none) :
    (fill pattern t).length = pattern.length := by
  induction pattern generalizing t with
  | nil => rfl
  | cons place pattern ih =>
    cases place with
    | some c =>
      rw [List.count_cons_of_ne (by exact nofun)] at h
      rw [fill, List.length_cons, List.length_cons, ih h]
    | none =>
      rw [List.count_cons_self] at h
      cases t with
      | nil => cases h
      | cons d t => rw [fill, List.length_cons, List.length_cons, ih (Nat.succ.inj h)]

theorem fill_lt {u : Text} (ht : t.length = pattern.count none) (hu : u.length = pattern.count none)
    (h : t < u) : fill pattern t < fill pattern u := by
  induction pattern generalizing t u with
  | nil =>
    rw [List.count_nil] at ht hu
    rw [List.length_eq_zero_iff.mp ht, List.length_eq_zero_iff.mp hu] at h
    cases h
  | cons place pattern ih =>
    cases place with
    | some c =>
      rw [List.count_cons_of_ne (by exact nofun)] at ht hu
      exact List.cons_lt_cons_iff.mpr (.inr ⟨rfl, ih ht hu h⟩)
    | none =>
      rw [List.count_cons_self] at ht hu
      cases t with
      | nil => cases ht
      | cons d t =>
        cases u with
        | nil => cases hu
        | cons e u =>
          rw [fill, fill, List.cons_lt_cons_iff]
          rcases List.cons_lt_cons_iff.mp h with hde | ⟨hde, htu⟩
          · exact .inl hde
          · exact .inr ⟨hde, ih (Nat.succ.inj ht) (Nat.succ.inj hu) htu⟩

theorem fill_all {p : Char → Prop} (hpattern : ∀ c, some c ∈ pattern → p c) (ht : ∀ c ∈ t, p c) :
    ∀ c ∈ fill pattern t, p c := by
  induction pattern generalizing t with
  | nil => exact nofun
  | cons place pattern ih =>
    have hrest : ∀ c, some c ∈ pattern → p c := fun c hc => hpattern c (List.mem_cons_of_mem _ hc)
    cases place with
    | some c =>
      intro d hd
      rcases List.mem_cons.mp hd with rfl | hd
      · exact hpattern d List.mem_cons_self
      · exact ih hrest ht d hd
    | none =>
      cases t with
      | nil => exact nofun
      | cons e t =>
        intro d hd
        rcases List.mem_cons.mp hd with rfl | hd
        · exact ht d List.mem_cons_self
        · exact ih hrest (fun c hc => ht c (List.mem_cons_of_mem e hc)) d hd

end patterns
end FaultLane.FixedNumerals
