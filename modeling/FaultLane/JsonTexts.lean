import FaultLane.RustText

set_option autoImplicit false

/-!
# JSON texts

Compact texts of strings and objects. A string is read back from in front of any text, so an
object with known names gives away its values.
-/
namespace FaultLane.JsonTexts
open RustText

def quotation : Char := Char.ofNat 0x22
def backslash : Char := Char.ofNat 0x5c

/-! ## Strings -/

def shortEscapes : List (Char × Char) :=
  [(quotation, quotation), (backslash, backslash), (Char.ofNat 0x08, 'b'), (Char.ofNat 0x0c, 'f'),
    (Char.ofNat 0x0a, 'n'), (Char.ofNat 0x0d, 'r'), (Char.ofNat 0x09, 't')]

def escape (c : Char) : Text :=
  match shortEscapes.find? fun e => e.1 = c with
  | some e => [backslash, e.2]
  | none =>
    if c.toNat < 0x20 then
      [backslash, 'u', '0', '0', hexDigitChar (c.toNat / 16), hexDigitChar (c.toNat % 16)]
    else [c]

def quote (s : Text) : Text := quotation :: (s.flatMap escape ++ [quotation])

inductive Reading where
  | plain
  | escaped
  /-- Within `\u`, with so many digits to come. -/
  | unicode (missing value : Nat)

def put (c : Char) (read : Option (Text × Text)) : Option (Text × Text) :=
  read.map fun r => (c :: r.1, r.2)

/-- The string up to its closing quotation mark, and what follows it. -/
def readString : Reading → Text → Option (Text × Text)
  | .plain, c :: t =>
    if c = quotation then some ([], t)
    else if c = backslash then readString .escaped t
    else put c (readString .plain t)
  | .escaped, c :: t =>
    if c = 'u' then readString (.unicode 4 0) t
    else
      match shortEscapes.find? fun e => e.2 = c with
      | some e => put e.1 (readString .plain t)
      | none => none
  | .unicode missing value, c :: t =>
    match hexDigitValue c with
    | none => none
    | some d =>
      if missing ≤ 1 then put (Char.ofNat (value * 16 + d)) (readString .plain t)
      else readString (.unicode (missing - 1) (value * 16 + d)) t
  | _, [] => none

def unquote : Text → Option (Text × Text)
  | [] => none
  | c :: t => if c = quotation then readString .plain t else none

section strings
variable {c : Char} {s t : Text}

theorem shortEscapes_read : ∀ e ∈ shortEscapes, e.2 ≠ 'u' ∧
    shortEscapes.find? (fun f => f.2 = e.2) = some e := by
  decide

theorem readString_escape :
    readString .plain (escape c ++ t) = put c (readString .plain t) := by
  unfold escape
  split
  · next e he =>
    have hc : e.1 = c := by simpa only [decide_eq_true_eq] using List.find?_some he
    obtain ⟨hu, hfind⟩ := shortEscapes_read e (List.mem_of_find?_eq_some he)
    change readString .plain (backslash :: e.2 :: t) = _
    rw [readString, if_neg (by decide), if_pos rfl, readString, if_neg hu, hfind, ← hc]
  · next hnone =>
    have hshort := List.find?_eq_none.mp hnone
    split_ifs with hcontrol
    · have hdigit : ∀ d < 16, hexDigitValue (hexDigitChar d) = some d := by decide
      have hvalue : c.toNat / 16 * 16 + c.toNat % 16 = c.toNat := by omega
      change readString .plain (backslash :: 'u' :: '0' :: '0' :: hexDigitChar (c.toNat / 16) ::
        hexDigitChar (c.toNat % 16) :: t) = _
      rw [readString, if_neg (by decide), if_pos rfl, readString, if_pos rfl, readString]
      change readString (.unicode 3 0) ('0' :: hexDigitChar (c.toNat / 16) ::
        hexDigitChar (c.toNat % 16) :: t) = _
      rw [readString]
      change readString (.unicode 2 0) (hexDigitChar (c.toNat / 16) ::
        hexDigitChar (c.toNat % 16) :: t) = _
      rw [readString, hdigit _ (by omega)]
      dsimp only
      rw [if_neg (by decide), readString, hdigit _ (by omega)]
      dsimp only
      rw [if_pos (by decide), Nat.zero_mul, Nat.zero_add, hvalue, Char.ofNat_toNat]
    · have hquotation : c ≠ quotation := fun h => hshort (quotation, quotation) (by decide)
        (decide_eq_true h.symm)
      have hbackslash : c ≠ backslash := fun h => hshort (backslash, backslash) (by decide)
        (decide_eq_true h.symm)
      change readString .plain (c :: t) = _
      rw [readString, if_neg hquotation, if_neg hbackslash]

theorem unquote_quote : unquote (quote s ++ t) = some (s, t) := by
  change (if quotation = quotation then readString .plain (s.flatMap escape ++ [quotation] ++ t)
    else none) = _
  rw [if_pos rfl, List.append_assoc, List.singleton_append]
  induction s with
  | nil => rw [List.flatMap_nil, List.nil_append, readString, if_pos rfl]
  | cons c s ih =>
    rw [List.flatMap_cons, List.append_assoc, readString_escape, ih]
    rfl

/-- The characters that a string shows as they are. -/
def Plain (c : Char) : Prop := c ≠ quotation ∧ c ≠ backslash ∧ 0x20 ≤ c.toNat

instance : DecidablePred Plain := fun _ => inferInstanceAs (Decidable (_ ∧ _))

theorem escape_plain (h : Plain c) : escape c = [c] := by
  have hnone : shortEscapes.find? (fun e => e.1 = c) = none := by
    refine List.find?_eq_none.mpr fun e he => ?_
    have hall : ∀ f ∈ shortEscapes, f.1 = quotation ∨ f.1 = backslash ∨ f.1.toNat < 0x20 := by
      decide
    intro heq
    have hc : e.1 = c := of_decide_eq_true heq
    rcases hall e he with h1 | h2 | h3
    · exact h.1 (hc ▸ h1)
    · exact h.2.1 (hc ▸ h2)
    · rw [hc] at h3
      exact absurd h.2.2 (Nat.not_le.mpr h3)
  unfold escape
  rw [hnone]
  exact if_neg (Nat.not_lt.mpr h.2.2)

theorem quote_plain (h : ∀ c ∈ s, Plain c) : quote s = quotation :: (s ++ [quotation]) := by
  have hbody : s.flatMap escape = s := by
    induction s with
    | nil => rfl
    | cons c s ih =>
      rw [List.flatMap_cons, escape_plain (h c List.mem_cons_self),
        ih fun d hd => h d (List.mem_cons_of_mem c hd)]
      rfl
  rw [quote, hbody]

end strings

/-! ## Objects -/

/-- A value is known from its text and what follows it. -/
def Unambiguous {α : Type} (write : α → Text) : Prop :=
  ∀ a b x y, write a ++ x = write b ++ y → a = b ∧ x = y

/-- `Option<&str>`. -/
def optional : Option Text → Text
  | none => "null".toList
  | some s => quote s

def members : List (Text × Text) → Text
  | [] => []
  | [m] => quote m.1 ++ ':' :: m.2
  | m :: rest => quote m.1 ++ ':' :: (m.2 ++ ',' :: members rest)

def object (fields : List (Text × Text)) : Text :=
  Char.ofNat 0x7b :: (members fields ++ [Char.ofNat 0x7d])

theorem quote_unambiguous : Unambiguous quote := by
  intro a b x y h
  have hread : some (a, x) = unquote (quote b ++ y) := by rw [← h, unquote_quote]
  rw [unquote_quote] at hread
  exact Prod.mk.inj (Option.some.inj hread)

theorem optional_unambiguous : Unambiguous optional := by
  intro a b x y h
  cases a with
  | none =>
    cases b with
    | none => exact ⟨rfl, List.append_cancel_left h⟩
    | some s => exact absurd (List.cons.inj h).1 (by decide)
  | some r =>
    cases b with
    | none => exact absurd (List.cons.inj h).1 (by decide)
    | some s =>
      obtain ⟨rfl, hxy⟩ := quote_unambiguous r s x y h
      exact ⟨rfl, hxy⟩

section objects
variable {α : Type} {write : α → Text}

def fieldTexts (write : α → Text) (fields : List (Text × α)) : List (Text × Text) :=
  fields.map fun f => (f.1, write f.2)

/-- Induction on the fields; the text of each value ends where the next comma or brace stands. -/
theorem members_inj (hwrite : Unambiguous write) {fields others : List (Text × α)} {x y : Text}
    (hnames : fields.map Prod.fst = others.map Prod.fst)
    (h : members (fieldTexts write fields) ++ x = members (fieldTexts write others) ++ y) :
    fields = others ∧ x = y := by
  induction fields generalizing others with
  | nil =>
    cases others with
    | nil => exact ⟨rfl, h⟩
    | cons o others => cases hnames
  | cons f fields ih =>
    cases others with
    | nil => cases hnames
    | cons o others =>
      obtain ⟨fname, fvalue⟩ := f
      obtain ⟨oname, ovalue⟩ := o
      obtain ⟨hname, hrest⟩ := List.cons.inj hnames
      cases (show fname = oname from hname)
      cases fields with
      | nil =>
        cases others with
        | cons o' others => cases hrest
        | nil =>
          change quote fname ++ ':' :: write fvalue ++ x =
            quote fname ++ ':' :: write ovalue ++ y at h
          rw [List.append_assoc, List.append_assoc] at h
          have hvalue := (List.cons.inj (List.append_cancel_left h)).2
          obtain ⟨rfl, hxy⟩ := hwrite fvalue ovalue x y hvalue
          exact ⟨rfl, hxy⟩
      | cons f' fields =>
        cases others with
        | nil => cases hrest
        | cons o' others =>
          change quote fname ++ ':' :: (write fvalue ++ ',' ::
              members (fieldTexts write (f' :: fields))) ++ x =
            quote fname ++ ':' :: (write ovalue ++ ',' ::
              members (fieldTexts write (o' :: others))) ++ y at h
          rw [List.append_assoc, List.append_assoc, List.cons_append, List.cons_append,
            List.append_assoc, List.append_assoc] at h
          have hvalue := (List.cons.inj (List.append_cancel_left h)).2
          obtain ⟨rfl, htail⟩ := hwrite fvalue ovalue _ _ hvalue
          obtain ⟨hfields, hxy⟩ := ih hrest (List.cons.inj htail).2
          rw [hfields]
          exact ⟨rfl, hxy⟩

theorem object_inj (hwrite : Unambiguous write) {fields others : List (Text × α)}
    (hnames : fields.map Prod.fst = others.map Prod.fst)
    (h : object (fieldTexts write fields) = object (fieldTexts write others)) : fields = others :=
  (members_inj hwrite hnames (List.cons.inj h).2).1

end objects
end FaultLane.JsonTexts
