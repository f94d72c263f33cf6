import Mathlib.Algebra.Order.Ring.Int
import Mathlib.Data.List.Basic

set_option autoImplicit false

/-!
# Length-prefixed byte strings

A stream of fields, each behind its big-endian 32-bit length. Fields that fit their
length can be told apart again.
-/
namespace FaultLane.LengthPrefix

def lengthLimit : Nat := 2 ^ 32

def be32 (n : Nat) : List UInt8 :=
  [UInt8.ofNat (n / 2 ^ 24), UInt8.ofNat (n / 2 ^ 16), UInt8.ofNat (n / 2 ^ 8), UInt8.ofNat n]

/-- A length beyond 32 bits is written as the largest one. -/
def lengthPrefixed (bytes : List UInt8) : List UInt8 :=
  be32 (min bytes.length (lengthLimit - 1)) ++ bytes

def encodeFields (fields : List (List UInt8)) : List UInt8 := fields.flatMap lengthPrefixed

theorem be32_injective {m n : Nat} (hm : m < lengthLimit) (hn : n < lengthLimit)
    (h : be32 m = be32 n) : m = n := by
  unfold lengthLimit at hm hn
  simp only [be32, List.cons.injEq, and_true, ← UInt8.toNat_inj, UInt8.toNat_ofNat'] at h
  omega

theorem lengthPrefixed_append_inj {a b x y : List UInt8} (ha : a.length < lengthLimit)
    (hb : b.length < lengthLimit) (h : lengthPrefixed a ++ x = lengthPrefixed b ++ y) :
    a = b ∧ x = y := by
  unfold lengthPrefixed at h
  rw [List.append_assoc, List.append_assoc, Nat.min_eq_left (by omega),
    Nat.min_eq_left (by omega)] at h
  obtain ⟨hlen, h⟩ := List.append_inj h rfl
  exact List.append_inj h (be32_injective ha hb hlen)

theorem lengthPrefixed_ne_nil (a : List UInt8) : lengthPrefixed a ≠ [] :=
  List.cons_ne_nil _ _

theorem encodeFields_cons (a : List UInt8) (rest : List (List UInt8)) :
    encodeFields (a :: rest) = lengthPrefixed a ++ encodeFields rest := List.flatMap_cons

/-- Induction on the first stream; the lengths in front of the fields fix where each ends. -/
theorem encodeFields_inj {as bs : List (List UInt8)} (has : ∀ a ∈ as, a.length < lengthLimit)
    (hbs : ∀ b ∈ bs, b.length < lengthLimit) (h : encodeFields as = encodeFields bs) : as = bs := by
  induction as generalizing bs with
  | nil =>
    cases bs with
    | nil => rfl
    | cons b rest =>
      rw [encodeFields_cons] at h
      exact absurd (List.append_eq_nil_iff.mp h.symm).1 (lengthPrefixed_ne_nil b)
  | cons a as ih =>
    cases bs with
    | nil =>
      rw [encodeFields_cons] at h
      exact absurd (List.append_eq_nil_iff.mp h).1 (lengthPrefixed_ne_nil a)
    | cons b bs =>
      rw [encodeFields_cons, encodeFields_cons] at h
      obtain ⟨rfl, hrest⟩ := lengthPrefixed_append_inj (has a List.mem_cons_self)
        (hbs b List.mem_cons_self) h
      rw [ih (fun c hc => has c (List.mem_cons_of_mem _ hc))
        (fun c hc => hbs c (List.mem_cons_of_mem _ hc)) hrest]

end FaultLane.LengthPrefix
