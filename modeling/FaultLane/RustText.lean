import Mathlib.Algebra.Order.Ring.Int
import Mathlib.Data.List.Basic
import Mathlib.Data.List.TakeDrop
import Mathlib.Data.List.Infix

set_option autoImplicit false

/-!
# Strings as the standard library treats them

A `str` is a list of scalar values here. Every operation below is total and
computable, and follows the documented behaviour of the method it is named for.
-/
namespace FaultLane.RustText

abbrev Text := List Char

/-- The Unicode `White_Space` property, as `char::is_whitespace` tests it. -/
def isWhitespace (c : Char) : Bool :=
  let n := c.toNat
  (9 ≤ n && n ≤ 13) || n == 0x20 || n == 0x85 || n == 0xA0 || n == 0x1680 ||
    (0x2000 ≤ n && n ≤ 0x200A) || n == 0x2028 || n == 0x2029 || n == 0x202F ||
    n == 0x205F || n == 0x3000

/-- General category `Cc`, as `char::is_control` tests it. -/
def isControl (c : Char) : Bool :=
  let n := c.toNat
  n < 0x20 || (0x7F ≤ n && n ≤ 0x9F)

def isAsciiDigit (c : Char) : Bool := 0x30 ≤ c.toNat && c.toNat ≤ 0x39

def isAsciiHexdigit (c : Char) : Bool :=
  isAsciiDigit c || (0x41 ≤ c.toNat && c.toNat ≤ 0x46) || (0x61 ≤ c.toNat && c.toNat ≤ 0x66)

def isAsciiAlphanumeric (c : Char) : Bool :=
  isAsciiDigit c || (0x41 ≤ c.toNat && c.toNat ≤ 0x5A) || (0x61 ≤ c.toNat && c.toNat ≤ 0x7A)

/-- `char::is_alphanumeric`. Outside ASCII the answer is the toolchain's Unicode
table, whose content no result below depends on. -/
def isAlphanumeric (unicode : Char → Bool) (c : Char) : Bool :=
  if c.toNat < 0x80 then isAsciiAlphanumeric c else unicode c

def toAsciiLowercase (s : List Char) : List Char := s.map Char.toLower

def trimStart (s : List Char) : List Char := s.dropWhile isWhitespace

def trimEnd (s : List Char) : List Char := (s.reverse.dropWhile isWhitespace).reverse

def trim (s : List Char) : List Char := trimEnd (trimStart s)

def eqIgnoreAsciiCase (s t : List Char) : Bool := toAsciiLowercase s == toAsciiLowercase t

def stripPrefix (p s : List Char) : Option (List Char) :=
  if p.isPrefixOf s then some (s.drop p.length) else none

def stripSuffix (p s : List Char) : Option (List Char) :=
  if p.isSuffixOf s then some (s.take (s.length - p.length)) else none

/-- `str::contains` on a string pattern. -/
def contains (p : List Char) : List Char → Bool
  | [] => p.isEmpty
  | c :: cs => p.isPrefixOf (c :: cs) || contains p cs

theorem contains_iff {p s : Text} : contains p s = true ↔ p <:+: s := by
  induction s with
  | nil => rw [contains, List.isEmpty_iff, List.infix_nil]
  | cons c s ih =>
    rw [contains, Bool.or_eq_true, List.isPrefixOf_iff_prefix, ih, List.infix_cons_iff]

/-- `str::split` on a character predicate: always at least one part. -/
def split (sep : Char → Bool) : List Char → List (List Char)
  | [] => [[]]
  | c :: cs =>
    match sep c, split sep cs with
    | true, parts => [] :: parts
    | false, [] => [[c]]
    | false, part :: parts => (c :: part) :: parts

theorem split_ne_nil (sep : Char → Bool) (s : List Char) : split sep s ≠ [] := by
  cases s with
  | nil => exact List.cons_ne_nil _ _
  | cons c cs =>
    unfold split
    split <;> exact List.cons_ne_nil _ _

/-- Splitting falls apart at a separator. -/
theorem split_append (sep : Char → Bool) (s t : List Char) {c : Char} (hc : sep c = true) :
    split sep (s ++ c :: t) = split sep s ++ split sep t := by
  induction s with
  | nil =>
    change (match sep c, split sep t with
      | true, parts => [] :: parts
      | false, [] => [[c]]
      | false, part :: parts => (c :: part) :: parts) = _
    rw [hc]
    rfl
  | cons d s ih =>
    rw [List.cons_append, split, split, ih]
    cases sep d with
    | true => rfl
    | false =>
      cases hs : split sep s with
      | nil => exact absurd hs (split_ne_nil sep s)
      | cons part parts => rfl

theorem split_congr {sep sep' : Char → Bool} {s : List Char} (h : ∀ c ∈ s, sep c = sep' c) :
    split sep s = split sep' s := by
  induction s with
  | nil => rfl
  | cons c s ih =>
    rw [split, split, h c List.mem_cons_self, ih fun d hd => h d (List.mem_cons_of_mem _ hd)]

/-- `str::lines`: ends at `\n`, without a final carriage return, no line after a last `\n`. -/
def lines (s : List Char) : List (List Char) :=
  let parts := split (· == '\n') s
  let parts := if parts.getLast? == some [] then parts.dropLast else parts
  parts.map (fun part => (stripSuffix ['\r'] part).getD part)

def rsplit (sep : Char → Bool) (s : List Char) : List (List Char) := (split sep s).reverse

/-- The value of an ASCII hexadecimal digit. -/
def hexDigitValue (c : Char) : Option Nat :=
  if isAsciiDigit c then some (c.toNat - 0x30)
  else if 0x61 ≤ c.toNat && c.toNat ≤ 0x66 then some (c.toNat - 0x61 + 10)
  else if 0x41 ≤ c.toNat && c.toNat ≤ 0x46 then some (c.toNat - 0x41 + 10)
  else none

def hexDigitsValue (acc : Nat) : List Char → Option Nat
  | [] => some acc
  | c :: cs =>
    match hexDigitValue c with
    | none => none
    | some d => if acc * 16 + d < 2 ^ 64 then hexDigitsValue (acc * 16 + d) cs else none

/-- `u64::from_str_radix(_, 16).ok()`: one leading `+` is allowed, no digit at all is not,
and a value beyond 64 bits is refused. -/
def u64FromHex (s : List Char) : Option Nat :=
  match s with
  | ['+'] => none
  | '+' :: digits => hexDigitsValue 0 digits
  | [] => none
  | digits => hexDigitsValue 0 digits

def hexDigitChar (n : Nat) : Char :=
  if n < 10 then Char.ofNat (0x30 + n) else Char.ofNat (0x61 + (n - 10))

/-- The bytes of a string. -/
def utf8 (s : String) : List UInt8 := s.toUTF8.data.toList

/-- `str::len`. -/
def byteLength (s : Text) : Nat := (s.map Char.utf8Size).sum

theorem utf8_injective : Function.Injective utf8 := by
  intro s t h
  have hd : s.toUTF8.data = t.toUTF8.data := Array.toList_inj.mp h
  have hb : s.toUTF8 = t.toUTF8 := ByteArray.ext hd
  exact String.toByteArray_inj.mp hb

end FaultLane.RustText
