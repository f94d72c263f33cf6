import Mathlib.Data.List.Basic
import Mathlib.Data.List.GetD
import Mathlib.Data.Option.Basic

set_option autoImplicit false

/-!
# Bytes as URL-safe base 64

Three bytes are four characters. One or two bytes left over are two or three characters, whose
spare bits are zero, and nothing is padded.
-/
namespace FaultLane.Base64Url

def alphabet : List Char :=
  "ABCDEFGHIJKLMNOPQRSTUVWXYZabcdefghijklmnopqrstuvwxyz0123456789-_".toList

def sextetChar (n : Nat) : Char := alphabet.getD n 'A'

def sextetValue (c : Char) : Option Nat := alphabet.idxOf? c

def sextets : List UInt8 → List Nat
  | a :: b :: c :: rest =>
    a.toNat / 4 :: (a.toNat % 4 * 16 + b.toNat / 16) :: (b.toNat % 16 * 4 + c.toNat / 64) ::
      c.toNat % 64 :: sextets rest
  | [a, b] => [a.toNat / 4, a.toNat % 4 * 16 + b.toNat / 16, b.toNat % 16 * 4]
  | [a] => [a.toNat / 4, a.toNat % 4 * 16]
  | [] => []

def bytes : List Nat → Option (List UInt8)
  | p :: q :: r :: s :: rest =>
    (bytes rest).map fun tail =>
      UInt8.ofNat (p * 4 + q / 16) :: UInt8.ofNat (q % 16 * 16 + r / 4) ::
        UInt8.ofNat (r % 4 * 64 + s) :: tail
  | [p, q, r] =>
    if r % 4 = 0 then some [UInt8.ofNat (p * 4 + q / 16), UInt8.ofNat (q % 16 * 16 + r / 4)]
    else none
  | [p, q] => if q % 16 = 0 then some [UInt8.ofNat (p * 4 + q / 16)] else none
  | [_] => none
  | [] => some []

def encode (data : List UInt8) : List Char := (sextets data).map sextetChar

def decode (text : List Char) : Option (List UInt8) := (text.mapM sextetValue).bind bytes

theorem sextets_lt (data : List UInt8) : ∀ n ∈ sextets data, n < 64 := by
  induction data using sextets.induct with
  | case1 a b c rest ih =>
    have ha := a.toNat_lt
    have hb := b.toNat_lt
    have hc := c.toNat_lt
    intro n hn
    simp only [sextets, List.mem_cons] at hn
    rcases hn with rfl | rfl | rfl | rfl | hn
    · omega
    · omega
    · omega
    · omega
    · exact ih n hn
  | case2 a b =>
    have ha := a.toNat_lt
    have hb := b.toNat_lt
    intro n hn
    simp only [sextets, List.mem_cons, List.not_mem_nil, or_false] at hn
    omega
  | case3 a =>
    have ha := a.toNat_lt
    intro n hn
    simp only [sextets, List.mem_cons, List.not_mem_nil, or_false] at hn
    omega
  | case4 => exact nofun

theorem ofNat_eq {n : Nat} {a : UInt8} (h : n = a.toNat) : UInt8.ofNat n = a := by
  rw [h, UInt8.ofNat_toNat]

theorem bytes_sextets (data : List UInt8) : bytes (sextets data) = some data := by
  induction data using sextets.induct with
  | case1 a b c rest ih =>
    have ha := a.toNat_lt
    have hb := b.toNat_lt
    have hc := c.toNat_lt
    rw [sextets, bytes, ih, Option.map_some, ofNat_eq (a := a) (by omega),
      ofNat_eq (a := b) (by omega), ofNat_eq (a := c) (by omega)]
  | case2 a b =>
    have ha := a.toNat_lt
    have hb := b.toNat_lt
    rw [sextets, bytes, if_pos (by omega), ofNat_eq (a := a) (by omega),
      ofNat_eq (a := b) (by omega)]
  | case3 a =>
    have ha := a.toNat_lt
    rw [sextets, bytes, if_pos (by omega), ofNat_eq (a := a) (by omega)]
  | case4 => rfl

theorem length_encode (data : List UInt8) : (encode data).length = (data.length * 4 + 2) / 3 := by
  rw [encode, List.length_map]
  induction data using sextets.induct with
  | case1 a b c rest ih =>
    rw [sextets]
    simp only [List.length_cons, ih]
    omega
  | case2 a b =>
    simp only [sextets, List.length_cons, List.length_nil]
  | case3 a =>
    simp only [sextets, List.length_cons, List.length_nil]
  | case4 => rfl

/-- The characters are ASCII. -/
theorem utf8Size_encode (data : List UInt8) : ∀ c ∈ encode data, c.utf8Size = 1 := by
  have hall : alphabet.all (fun c => c.utf8Size = 1) = true := by decide
  intro c hc
  obtain ⟨n, hn, rfl⟩ := List.mem_map.mp hc
  rw [sextetChar, List.getD_eq_getElem _ _ (sextets_lt data n hn)]
  exact of_decide_eq_true (List.all_eq_true.mp hall _ (List.getElem_mem _))

theorem sextetValue_char {n : Nat} (hn : n < 64) : sextetValue (sextetChar n) = some n := by
  have hall : ∀ m < 64, sextetValue (sextetChar m) = some m := by decide
  exact hall n hn

theorem mapM_sextetValue {ns : List Nat} (h : ∀ n ∈ ns, n < 64) :
    (ns.map sextetChar).mapM sextetValue = some ns := by
  induction ns with
  | nil => rfl
  | cons n rest ih =>
    have hn := sextetValue_char (h n List.mem_cons_self)
    have hrest := ih fun m hm => h m (List.mem_cons_of_mem n hm)
    rw [List.map_cons, List.mapM_cons, hn, hrest]
    rfl

theorem decode_encode (data : List UInt8) : decode (encode data) = some data := by
  unfold decode encode
  rw [mapM_sextetValue (sextets_lt data)]
  exact bytes_sextets data

end FaultLane.Base64Url
