import FaultLane.LogTailWindow

set_option autoImplicit false

/-!
# Characters in the bytes of a log

How the byte-level readings of a log see the encoding of one character, and of a list of
characters.
-/
namespace FaultLane.LogTail
open RustText

/-! ## One character -/

section
variable {c : Char}

theorem encode_one (h : c.toNat < 0x80) : String.utf8EncodeChar c = [UInt8.ofNat c.toNat] := by
  unfold String.utf8EncodeChar
  dsimp only
  rw [if_pos (by exact Nat.le_of_lt_succ h)]
  rfl

theorem encode_two (h : 0x80 ≤ c.toNat) (h' : c.toNat < 0x800) :
    String.utf8EncodeChar c =
      [UInt8.ofNat (c.toNat / 64 + 0xC0), UInt8.ofNat (c.toNat % 64 + 0x80)] := by
  unfold String.utf8EncodeChar
  have hv : c.val.toNat = c.toNat := rfl
  dsimp only
  rw [hv, if_neg (by omega), if_pos (by omega)]
  congr 3
  omega

theorem encode_three (h : 0x800 ≤ c.toNat) (h' : c.toNat < 0x10000) :
    String.utf8EncodeChar c =
      [UInt8.ofNat (c.toNat / 4096 + 0xE0), UInt8.ofNat (c.toNat / 64 % 64 + 0x80),
        UInt8.ofNat (c.toNat % 64 + 0x80)] := by
  unfold String.utf8EncodeChar
  have hv : c.val.toNat = c.toNat := rfl
  dsimp only
  rw [hv, if_neg (by omega), if_neg (by omega), if_pos (by omega)]
  congr 3
  omega

theorem toNat_lt (c : Char) : c.toNat < 0xD800 ∨ 0xDFFF < c.toNat ∧ c.toNat < 0x110000 := c.valid

theorem encode_four (h : 0x10000 ≤ c.toNat) :
    String.utf8EncodeChar c =
      [UInt8.ofNat (c.toNat / 262144 + 0xF0), UInt8.ofNat (c.toNat / 4096 % 64 + 0x80),
        UInt8.ofNat (c.toNat / 64 % 64 + 0x80), UInt8.ofNat (c.toNat % 64 + 0x80)] := by
  unfold String.utf8EncodeChar
  have hv : c.val.toNat = c.toNat := rfl
  have hlt := toNat_lt c
  dsimp only
  rw [hv, if_neg (by omega), if_neg (by omega), if_neg (by omega)]
  congr 3
  omega

/-- The bytes of a character, read as a sequence: its lead, its width, and its value. -/
structure Reads (c : Char) (lead : UInt8) (rest : List UInt8) : Prop where
  encode : String.utf8EncodeChar c = lead :: rest
  whole : ∀ more, sequenceAt lead (rest ++ more) = (rest.length + 1, true)
  char : ∀ more, sequenceChar lead (rest ++ more) = c
  leads : isContinuation lead = false
  width : leadWidth lead.toNat = if rest = [] then 0 else rest.length + 1
  continues : ∀ b ∈ rest, isContinuation b = true ∧ leadWidth b.toNat = 0
  feed : lead = 0x0A ↔ c = '\n'

theorem continuation_ofNat {n : Nat} (h : n < 64) :
    isContinuation (UInt8.ofNat (n + 0x80)) = true ∧
      leadWidth (UInt8.ofNat (n + 0x80)).toNat = 0 := by
  unfold isContinuation leadWidth
  rw [UInt8.toNat_ofNat', Nat.mod_eq_of_lt (by omega)]
  refine ⟨by rw [beq_iff_eq]; omega, ?_⟩
  rw [if_neg (by omega), if_neg (by omega), if_neg (by omega)]

theorem char_ofNat : Char.ofNat c.toNat = c := Char.ofNat_toNat c

theorem reads_one (h : c.toNat < 0x80) : Reads c (UInt8.ofNat c.toNat) [] where
  encode := encode_one h
  whole more := by
    unfold sequenceAt
    rw [UInt8.toNat_ofNat']
    exact if_pos (by omega)
  char more := by
    unfold sequenceChar
    rw [UInt8.toNat_ofNat', Nat.mod_eq_of_lt (by omega)]
    dsimp only
    rw [if_pos h, char_ofNat]
  leads := by
    unfold isContinuation
    rw [UInt8.toNat_ofNat', beq_eq_false_iff_ne]
    omega
  width := by
    unfold leadWidth
    rw [UInt8.toNat_ofNat', if_neg (by omega), if_neg (by omega), if_neg (by omega)]
    rfl
  continues := nofun
  feed := by
    rw [← UInt8.toNat_inj, UInt8.toNat_ofNat', Nat.mod_eq_of_lt (by omega), ← Char.toNat_inj]
    rfl

theorem reads_two (h : 0x80 ≤ c.toNat) (h' : c.toNat < 0x800) :
    Reads c (UInt8.ofNat (c.toNat / 64 + 0xC0)) [UInt8.ofNat (c.toNat % 64 + 0x80)] where
  encode := encode_two h h'
  whole more := by
    have hnext := (continuation_ofNat (Nat.mod_lt c.toNat (show 0 < 64 by decide))).1
    unfold sequenceAt
    simp only [UInt8.toNat_ofNat', List.cons_append]
    rw [if_neg (by omega), if_pos (by omega)]
    exact if_pos hnext
  char more := by
    unfold sequenceChar
    simp only [UInt8.toNat_ofNat', List.cons_append, List.getD_cons_zero]
    rw [if_neg (by omega), if_pos (by omega)]
    refine (congrArg Char.ofNat ?_).trans char_ofNat
    omega
  leads := by
    unfold isContinuation
    rw [UInt8.toNat_ofNat', beq_eq_false_iff_ne]
    omega
  width := by
    unfold leadWidth
    rw [UInt8.toNat_ofNat', if_pos (by omega)]
    rfl
  continues b hb := by
    rw [List.mem_singleton.mp hb]
    exact continuation_ofNat (Nat.mod_lt _ (by decide))
  feed := by
    rw [← UInt8.toNat_inj, UInt8.toNat_ofNat', ← Char.toNat_inj]
    have hfeed : (0x0A : UInt8).toNat = 10 := rfl
    have hfeed' : '\n'.toNat = 10 := rfl
    omega

theorem continues_pair {m n : Nat} (hm : m < 64) (hn : n < 64) {b : UInt8}
    (hb : b ∈ [UInt8.ofNat (m + 0x80), UInt8.ofNat (n + 0x80)]) :
    isContinuation b = true ∧ leadWidth b.toNat = 0 := by
  rcases List.mem_cons.mp hb with rfl | hb
  · exact continuation_ofNat hm
  · rw [List.mem_singleton.mp hb]
    exact continuation_ofNat hn

theorem reads_three (h : 0x800 ≤ c.toNat) (h' : c.toNat < 0x10000) :
    Reads c (UInt8.ofNat (c.toNat / 4096 + 0xE0))
      [UInt8.ofNat (c.toNat / 64 % 64 + 0x80), UInt8.ofNat (c.toNat % 64 + 0x80)] where
  encode := encode_three h h'
  whole more := by
    have hlast := (continuation_ofNat (Nat.mod_lt c.toNat (show 0 < 64 by decide))).1
    have hvalid := toNat_lt c
    unfold sequenceAt
    simp only [UInt8.toNat_ofNat', List.cons_append, List.headD_cons]
    rw [if_neg (by omega), if_neg (by omega), if_pos (by omega)]
    have hsecond : (if (c.toNat / 4096 + 0xE0) % 2 ^ 8 = 0xE0 then 0xA0 else 0x80) ≤
        (c.toNat / 64 % 64 + 0x80) % 2 ^ 8 ∧ (c.toNat / 64 % 64 + 0x80) % 2 ^ 8 ≤
        if (c.toNat / 4096 + 0xE0) % 2 ^ 8 = 0xED then 0x9F else 0xBF := by
      constructor <;> split_ifs <;> omega
    rw [if_pos hsecond]
    exact if_pos hlast
  char more := by
    unfold sequenceChar
    simp only [UInt8.toNat_ofNat', List.cons_append, List.getD_cons_zero, List.getD_cons_succ]
    rw [if_neg (by omega), if_neg (by omega), if_pos (by omega)]
    refine (congrArg Char.ofNat ?_).trans char_ofNat
    omega
  leads := by
    unfold isContinuation
    rw [UInt8.toNat_ofNat', beq_eq_false_iff_ne]
    omega
  width := by
    unfold leadWidth
    rw [UInt8.toNat_ofNat', if_neg (by omega), if_pos (by omega)]
    rfl
  continues _ hb := continues_pair (Nat.mod_lt _ (by decide)) (Nat.mod_lt _ (by decide)) hb
  feed := by
    rw [← UInt8.toNat_inj, UInt8.toNat_ofNat', ← Char.toNat_inj]
    have hfeed : (0x0A : UInt8).toNat = 10 := rfl
    have hfeed' : '\n'.toNat = 10 := rfl
    omega

theorem reads_four (h : 0x10000 ≤ c.toNat) :
    Reads c (UInt8.ofNat (c.toNat / 262144 + 0xF0))
      [UInt8.ofNat (c.toNat / 4096 % 64 + 0x80), UInt8.ofNat (c.toNat / 64 % 64 + 0x80),
        UInt8.ofNat (c.toNat % 64 + 0x80)] where
  encode := encode_four h
  whole more := by
    have hthird := (continuation_ofNat (Nat.mod_lt (c.toNat / 64) (show 0 < 64 by decide))).1
    have hlast := (continuation_ofNat (Nat.mod_lt c.toNat (show 0 < 64 by decide))).1
    have hvalid := toNat_lt c
    unfold sequenceAt
    simp only [UInt8.toNat_ofNat', List.cons_append, List.headD_cons]
    rw [if_neg (by omega), if_neg (by omega), if_neg (by omega), if_pos (by omega)]
    have hsecond : (if (c.toNat / 262144 + 0xF0) % 2 ^ 8 = 0xF0 then 0x90 else 0x80) ≤
        (c.toNat / 4096 % 64 + 0x80) % 2 ^ 8 ∧ (c.toNat / 4096 % 64 + 0x80) % 2 ^ 8 ≤
        if (c.toNat / 262144 + 0xF0) % 2 ^ 8 = 0xF4 then 0x8F else 0xBF := by
      constructor <;> split_ifs <;> omega
    rw [if_pos hsecond]
    exact (if_pos hthird).trans (if_pos hlast)
  char more := by
    have hvalid := toNat_lt c
    unfold sequenceChar
    simp only [UInt8.toNat_ofNat', List.cons_append, List.getD_cons_zero, List.getD_cons_succ]
    rw [if_neg (by omega), if_neg (by omega), if_neg (by omega)]
    refine (congrArg Char.ofNat ?_).trans char_ofNat
    omega
  leads := by
    unfold isContinuation
    rw [UInt8.toNat_ofNat', beq_eq_false_iff_ne]
    have hvalid := toNat_lt c
    omega
  width := by
    have hvalid := toNat_lt c
    unfold leadWidth
    rw [UInt8.toNat_ofNat', if_neg (by omega), if_neg (by omega), if_pos (by omega)]
    rfl
  continues b hb := by
    rcases List.mem_cons.mp hb with rfl | hb
    · exact continuation_ofNat (Nat.mod_lt _ (by decide))
    · exact continues_pair (Nat.mod_lt _ (by decide)) (Nat.mod_lt _ (by decide)) hb
  feed := by
    rw [← UInt8.toNat_inj, UInt8.toNat_ofNat', ← Char.toNat_inj]
    have hvalid := toNat_lt c
    have hfeed : (0x0A : UInt8).toNat = 10 := rfl
    have hfeed' : '\n'.toNat = 10 := rfl
    omega

theorem exists_reads (c : Char) : ∃ lead rest, Reads c lead rest := by
  by_cases h₁ : c.toNat < 0x80
  · exact ⟨_, _, reads_one h₁⟩
  · by_cases h₂ : c.toNat < 0x800
    · exact ⟨_, _, reads_two (Nat.le_of_not_lt h₁) h₂⟩
    · by_cases h₃ : c.toNat < 0x10000
      · exact ⟨_, _, reads_three (Nat.le_of_not_lt h₂) h₃⟩
      · exact ⟨_, _, reads_four (Nat.le_of_not_lt h₃)⟩

theorem Reads.size {lead : UInt8} {rest : List UInt8} (h : Reads c lead rest) :
    c.utf8Size = rest.length + 1 := by
  rw [← String.length_utf8EncodeChar, h.encode, List.length_cons]

end

/-! ## Lists of characters -/

def encode (cs : List Char) : List UInt8 := cs.flatMap String.utf8EncodeChar

@[simp] theorem encode_nil : encode [] = [] := rfl

theorem encode_cons (c : Char) (cs : List Char) :
    encode (c :: cs) = String.utf8EncodeChar c ++ encode cs := List.flatMap_cons

theorem encode_append (cs ds : List Char) : encode (cs ++ ds) = encode cs ++ encode ds :=
  List.flatMap_append

theorem utf8_ofList (cs : List Char) : utf8 (String.ofList cs) = encode cs := by
  simp [utf8, List.utf8Encode, encode]

theorem length_encode (cs : List Char) : (encode cs).length = utf8Length cs := by
  unfold encode utf8Length
  rw [List.length_flatMap]
  simp only [String.length_utf8EncodeChar]

theorem isSome_fromUtf8_encode (cs : List Char) : (fromUtf8 (encode cs)).isSome := by
  rw [← utf8_ofList, fromUtf8_utf8]
  rfl

theorem encode_of_fromUtf8 {bytes : List UInt8} {s : String} (h : fromUtf8 bytes = some s) :
    bytes = encode s.toList := by
  rw [← utf8_of_fromUtf8 h, ← utf8_ofList, String.ofList_toList]

theorem fromUtf8LossyFrom_append (bytes more : List UInt8) :
    fromUtf8LossyFrom (bytes ++ more) bytes.length = fromUtf8LossyFrom more 0 := by
  induction bytes with
  | nil => rfl
  | cons b bytes ih => exact ih

/-- Decoding gives back what was encoded. -/
theorem fromUtf8Lossy_encode (cs : List Char) : fromUtf8Lossy (encode cs) = cs := by
  unfold fromUtf8Lossy
  induction cs with
  | nil => rfl
  | cons c cs ih =>
    obtain ⟨lead, rest, h⟩ := exists_reads c
    rw [encode_cons, h.encode, List.cons_append, fromUtf8LossyFrom, h.whole, h.char]
    dsimp only
    rw [Nat.add_sub_cancel, fromUtf8LossyFrom_append, ih]

end FaultLane.LogTail
